import Mocha.AudioInput

/-!
# The device handles of an input stream

What an input stream opens it closes once, as long as no compressed device fails
to open and no stream on compressed hardware is closed while active. The failure
is an error number that the caller takes for success, because it is not negative;
the close leaves the pointer and `standby` to the second close.
-/
namespace TinyHal

open Custody Transition

/-- The handles of a stream as they should be. A stream owns one handle exactly while it is
not in standby, and nothing once it is closed. -/
structure StreamIn.HandleSound (si : StreamIn) : Prop where
  idle : si.standby = true → outstanding si.handles = []
  active : si.standby = false →
    ∃ kind id, si.handle = some id ∧ outstanding si.handles = [⟨kind, some id⟩]
  once : Once si.handles
  closed : si.isOpen = false → ∀ r, si.handles.count (.release r) = si.handles.count (.acquire r)
  disciplined : Disciplined si.handles

/-- A read that starts a compressed device which does not open, and a close while the stream
is active on compressed hardware. -/
def mishandles (s : InputDevice) : InputCall → Bool
  | .read k env _ => (s.input k).any fun si => si.standby && env.compressOpen.isSome &&
    (si.stream s.adev.cm).any fun hw => hw.currentDevices ≠ 0#32 && streamIsCompressedIn hw
  | .close k => (s.input k).any fun si => !si.standby &&
    (si.stream s.adev.cm).any streamIsCompressed
  | .openStream _ _ | .setParameters _ _ | .standby _ | .voice _ => false

section Log

/-- A log whose handles are numbered below `n`, each opened once, after which these are held. -/
structure Handled (log : List (Use HandleRef)) (n : Nat) (held : List HandleRef) : Prop where
  holding : Holding log held
  once : Once log
  fresh : ∀ kind id, n ≤ id → Use.acquire ⟨kind, some id⟩ ∉ log

variable {log : List (Use HandleRef)} {n : Nat} {held : List HandleRef}

theorem handled_nil : Handled [] 0 [] := ⟨holding_nil, once_nil, fun _ _ _ h => nomatch h⟩

theorem Handled.acquire (h : Handled log n held) (kind : DeviceKind) :
    Handled (log ++ [.acquire ⟨kind, some n⟩]) (n + 1) (⟨kind, some n⟩ :: held) where
  holding := h.holding.acquire _
  once := by
    apply h.once.snoc
    intro r hr
    cases hr
    exact h.fresh kind n (Nat.le_refl n)
  fresh := by
    intro kind' id hid hmem
    rcases List.mem_append.mp hmem with hlog | hlast
    · exact h.fresh kind' id (by omega) hlog
    · simp at hlast
      omega

theorem Handled.touch (h : Handled log n held) {r : HandleRef} (hr : r ∈ held) :
    Handled (log ++ [.touch r]) n held where
  holding := h.holding.touch hr
  once := h.once.snoc fun _ hu => nomatch hu
  fresh := by
    intro kind id hid
    simpa using h.fresh kind id hid

theorem Handled.release (h : Handled log n held) {r : HandleRef} (hr : r ∈ held) :
    Handled (log ++ [.release r]) n (held.erase r) where
  holding := h.holding.release hr
  once := h.once.snoc fun _ hu => nomatch hu
  fresh := by
    intro kind id hid
    simpa using h.fresh kind id hid

/-- The one handle that is held is closed, after a last use. -/
theorem Handled.close {r : HandleRef} (h : Handled log n [r]) :
    Handled (log ++ [.release r]) n [] ∧ Handled (log ++ [.touch r, .release r]) n [] := by
  have hmem : r ∈ [r] := List.mem_singleton_self r
  have hnone : [r].erase r = [] := List.erase_cons_head ..
  have hclosed := h.release hmem
  have hlast := (h.touch hmem).release hmem
  rw [hnone] at hclosed hlast
  rw [List.append_assoc] at hlast
  exact ⟨hclosed, hlast⟩

end Log

section Invariant

/-- The functions that a handle of the stream belongs to. -/
def deviceKind (s : Stream) : DeviceKind := if streamIsCompressedIn s then .compress else .pcm

/-- An idle stream has no handle and no pointer, an active one has the handle that its
pointer says, of the kind that its hardware stream asks for. -/
inductive HandleOk (cm : ConfigMgr) (si : StreamIn) : Prop
  | idle : si.standby = true → si.handle = none → Handled si.handles si.opened [] → HandleOk cm si
  | active {s : Stream} {id : Nat} : si.isOpen = true → si.stream cm = some s →
      si.standby = false → si.handle = some id →
      Handled si.handles si.opened [⟨deviceKind s, some id⟩] → HandleOk cm si

theorem HandleOk.sound {cm : ConfigMgr} {si : StreamIn} (h : HandleOk cm si) : si.HandleSound := by
  cases h with
  | idle hst hptr hlog =>
    refine ⟨fun _ => hlog.holding.outstanding, ?_, hlog.once, ?_, hlog.holding.disciplined⟩
    · intro hactive
      rw [hst] at hactive
      cases hactive
    · intro _ r
      have hcount := disciplined_count hlog.holding.disciplined r
      rw [hlog.holding.outstanding, List.count_nil] at hcount
      omega
  | active hopen hs hst hptr hlog =>
    refine ⟨?_, fun _ => ⟨_, _, hptr, hlog.holding.outstanding⟩, hlog.once, ?_,
      hlog.holding.disciplined⟩
    · intro hidle
      rw [hst] at hidle
      cases hidle
    · intro hclosed
      rw [hopen] at hclosed
      cases hclosed

/-- The kind of a handle is a matter of the hardware stream's type. -/
theorem HandleOk.spared {p : Nat → Prop} {cm cm' : ConfigMgr} {si : StreamIn} (h : HandleOk cm si)
    (hcm : Spares p cm cm') : HandleOk cm' si := by
  cases h with
  | idle hst hptr hlog => exact .idle hst hptr hlog
  | @active s id hopen hs hst hptr hlog =>
    obtain ⟨i, hi, hstream⟩ := Option.bind_eq_some_iff.mp hs
    have htype := hcm.types i
    rw [hstream] at htype
    obtain ⟨s', hs', heq⟩ := Option.map_eq_some_iff.mp htype
    have hkind : deviceKind s' = deviceKind s := by
      unfold deviceKind streamIsCompressedIn
      rw [heq]
    have hstream' : si.stream cm' = some s' := by
      rw [StreamIn.stream, hi]
      exact hs'
    exact .active hopen hstream' hst hptr (hkind ▸ hlog)

end Invariant

section Start

/-- What opening a device comes to for an idle stream: an error, or one handle. -/
inductive Opening (kind : DeviceKind) (si : StreamIn) : Int × StreamIn → Prop
  | failed {ret : Int} {log : List (Use HandleRef)} {n : Nat} : ret < 0 → Handled log n [] →
      Opening kind si (ret, { si with handle := none, opened := n, handles := log })
  | opened {log : List (Use HandleRef)} {n id : Nat} (resampler : Bool) :
      Handled log n [⟨kind, some id⟩] →
      Opening kind si
        (0, { si with handle := some id, opened := n, handles := log, resampler := resampler })

theorem doOpenPcmInput_opening (env : ReadEnv) {cm : ConfigMgr} {si : StreamIn} {s : Stream}
    (hs : si.stream cm = some s) (hlog : Handled si.handles si.opened []) :
    Opening .pcm si (doOpenPcmInput env cm si) := by
  have hacquired := hlog.acquire .pcm
  have hclosed := hacquired.close.1
  unfold doOpenPcmInput
  rw [hs]
  dsimp only
  cases hpcm : env.pcmOpen with
  | false => exact .failed (by decide) hlog
  | true =>
    by_cases hrate : inGetSampleRate si s = s.rate
    · rw [if_pos rfl, if_pos hrate]
      exact .opened si.resampler hacquired
    · rw [if_pos rfl, if_neg hrate]
      cases env.resamplerInit with
      | true => exact .opened true hacquired
      | false => exact .failed (by decide) hclosed

theorem doOpenCompressPcmIn_opening {env : ReadEnv} {cm : ConfigMgr} {si : StreamIn} {s : Stream}
    (hs : si.stream cm = some s) (hlog : Handled si.handles si.opened [])
    (henv : env.compressOpen = none) : Opening .compress si (doOpenCompressPcmIn env si) := by
  obtain ⟨i, hi, -⟩ := Option.bind_eq_some_iff.mp hs
  have hacquired := hlog.acquire .compress
  have htouched := hacquired.touch (List.mem_singleton_self _)
  rw [List.append_assoc] at htouched
  unfold doOpenCompressPcmIn
  split
  case h_1 hnone =>
    rw [hi] at hnone
    cases hnone
  case h_2 =>
    rw [henv]
    exact .opened si.resampler htouched

variable {cm : ConfigMgr} {si : StreamIn} {s : Stream}

/-- A stream that has started owns its handle; one that has not is as it was. -/
def Started (cm : ConfigMgr) (s : Stream) (done : Int × StreamIn) : Prop :=
  HandleOk cm done.2 ∧ done.2.stream cm = some s ∧ (0 ≤ done.1 → done.2.standby = false)

theorem startPcm_started (h : HandleOk cm si) (hopen : si.isOpen = true)
    (hs : si.stream cm = some s) (hkind : streamIsCompressedIn s = false) (env : ReadEnv) :
    Started cm s (startPcmInputStream env cm si) := by
  have hpcm : deviceKind s = .pcm := by simp [deviceKind, hkind]
  unfold startPcmInputStream
  cases h with
  | active hopen' hs' hst hptr hlog =>
    rw [hst]
    exact ⟨.active hopen' hs' hst hptr hlog, hs, fun _ => hst⟩
  | idle hst hptr hlog =>
    rw [if_pos hst]
    have hopening := doOpenPcmInput_opening env hs hlog
    generalize doOpenPcmInput env cm si = done at hopening
    cases hopening with
    | failed hret hlog =>
      dsimp only
      rw [if_neg (by omega)]
      exact ⟨.idle hst rfl hlog, hs, fun hpos => absurd hpos (by simp only; omega)⟩
    | opened resampler hlog =>
      rw [← hpcm] at hlog
      exact ⟨.active hopen hs rfl rfl hlog, hs, fun _ => rfl⟩

theorem startCompress_started (h : HandleOk cm si) (hopen : si.isOpen = true)
    (hs : si.stream cm = some s) (hkind : streamIsCompressedIn s = true) {env : ReadEnv}
    (henv : si.standby = true → env.compressOpen = none) :
    Started cm s (startCompressPcmInputStream env si) := by
  have hcompress : deviceKind s = .compress := by simp [deviceKind, hkind]
  unfold startCompressPcmInputStream
  cases h with
  | active hopen' hs' hst hptr hlog =>
    rw [hst]
    exact ⟨.active hopen' hs' hst hptr hlog, hs, fun _ => hst⟩
  | idle hst hptr hlog =>
    rw [if_pos hst]
    have hopening := doOpenCompressPcmIn_opening hs hlog (henv hst)
    generalize doOpenCompressPcmIn env si = done at hopening
    cases hopening with
    | failed hret hlog =>
      dsimp only
      rw [if_pos hret]
      exact ⟨.idle hst rfl hlog, hs, fun hpos => absurd hpos (by simp only; omega)⟩
    | opened resampler hlog =>
      refine ⟨.active hopen hs rfl rfl ?_, hs, fun _ => rfl⟩
      rw [hcompress]
      exact hlog.touch (List.mem_singleton_self _)

/-- A device function is called on the handle that the stream owns. -/
theorem HandleOk.touch (h : HandleOk cm si) (hs : si.stream cm = some s)
    (hst : si.standby = false) : HandleOk cm (si.note [.touch ⟨deviceKind s, si.handle⟩]) := by
  cases h with
  | idle hidle _ _ =>
    rw [hst] at hidle
    cases hidle
  | active hopen hs' _ hptr hlog =>
    cases hs.symm.trans hs'
    refine .active hopen hs hst hptr (hlog.touch ?_)
    rw [hptr]
    exact List.mem_singleton_self _

end Start

section Calls

variable {cm : ConfigMgr} {si : StreamIn}

theorem inPcmRead_ok (h : HandleOk cm si) (hopen : si.isOpen = true) {env : ReadEnv}
    (henv : ∀ s, si.stream cm = some s → s.currentDevices ≠ 0#32 → streamIsCompressedIn s = true →
      si.standby = true → env.compressOpen = none) (bytes : Int) :
    HandleOk cm (inPcmRead env cm si bytes).2 := by
  unfold inPcmRead
  dsimp only
  cases hs : si.stream cm with
  | none => exact h
  | some s =>
    dsimp only
    by_cases hroute : s.currentDevices = 0#32
    · rw [if_pos hroute]
      exact h
    · rw [if_neg hroute]
      cases hkind : streamIsCompressedIn s with
      | true =>
        have hcompress : deviceKind s = .compress := by simp [deviceKind, hkind]
        have hstarted := startCompress_started h hopen hs hkind (henv s hs hroute hkind)
        rw [if_pos rfl]
        unfold doInCompressPcmRead
        generalize startCompressPcmInputStream env si = started at hstarted
        obtain ⟨hok, hs', hst⟩ := hstarted
        dsimp only
        by_cases hret : started.1 < 0
        · rw [if_pos hret]
          exact hok
        · rw [if_neg hret, ← hcompress]
          exact hok.touch hs' (hst (by omega))
      | false =>
        have hpcm : deviceKind s = .pcm := by simp [deviceKind, hkind]
        have hstarted := startPcm_started h hopen hs hkind env
        rw [if_neg Bool.false_ne_true]
        unfold doInPcmRead
        generalize startPcmInputStream env cm si = started at hstarted
        obtain ⟨hok, hs', hst⟩ := hstarted
        dsimp only
        by_cases hret : started.1 < 0
        · rw [if_pos hret]
          exact hok
        · rw [if_neg hret, ← hpcm]
          exact hok.touch hs' (hst (by omega))

/-- Standby closes the handle. -/
theorem inPcmStandby_idle (h : HandleOk cm si) :
    (inPcmStandby cm si).standby = true ∧ (inPcmStandby cm si).handle = none ∧
      Handled (inPcmStandby cm si).handles (inPcmStandby cm si).opened [] := by
  unfold inPcmStandby doInCompressPcmStandby doInPcmStandby
  cases h with
  | idle hst hptr hlog =>
    rw [if_pos hst, if_pos hst]
    split
    · exact ⟨hst, hptr, hlog⟩
    · split <;> exact ⟨hst, hptr, hlog⟩
  | @active s id hopen hs hst hptr hlog =>
    rw [hs, hst]
    dsimp only
    cases hkind : streamIsCompressedIn s with
    | true =>
      rw [deviceKind, if_pos hkind, ← hptr] at hlog
      exact ⟨rfl, rfl, hlog.close.2⟩
    | false =>
      rw [deviceKind, if_neg (by rw [hkind]; decide), ← hptr] at hlog
      exact ⟨rfl, rfl, hlog.close.1⟩

theorem inPcmStandby_ok (h : HandleOk cm si) : HandleOk cm (inPcmStandby cm si) := by
  obtain ⟨hst, hptr, hlog⟩ := inPcmStandby_idle h
  exact .idle hst hptr hlog

/-- After standby only the reference goes, and the stream itself. -/
theorem doCloseInCommon_eq (adev : AudioDevice) (k : Nat) (si : StreamIn) :
    ∃ refs, (doCloseInCommon adev k si).2 =
      { inPcmStandby adev.cm si with isOpen := false, refs := refs } := by
  unfold doCloseInCommon
  dsimp only
  cases (inPcmStandby adev.cm si).hw with
  | none => exact ⟨_, rfl⟩
  | some hw => exact ⟨_, rfl⟩

theorem doCloseInPcm_ok {adev : AudioDevice} (h : HandleOk adev.cm si) (k : Nat)
    (hactive : ∀ s, si.stream adev.cm = some s → si.standby = false → streamIsCompressed s = false) :
    HandleOk (doCloseInPcm adev k si).1.cm (doCloseInPcm adev k si).2 := by
  have hcommon : doCloseInPcm adev k si = doCloseInCommon adev k si := by
    unfold doCloseInPcm
    cases hs : si.stream adev.cm with
    | none => rfl
    | some s =>
      dsimp only
      cases h with
      | idle hst hptr hlog => simp [doInCompressPcmClose, hptr]
      | active hopen hs' hst hptr hlog =>
        rw [hactive s hs hst]
        rfl
  obtain ⟨hst, hptr, hlog⟩ := inPcmStandby_idle h
  obtain ⟨refs, hclosed⟩ := doCloseInCommon_eq adev k si
  rw [hcommon, hclosed]
  exact .idle hst hptr hlog

/-- The source changes in standby only. -/
theorem changeInputSource_eq (adev : AudioDevice) (k : Nat) (si : StreamIn) (newSource : Int)
    (devices : BitVec 32) :
    ∃ hw refs source, (changeInputSourceLocked adev k si newSource devices).2.2 =
        { si with hw := hw, refs := refs, inputSource := source } ∧
      (si.standby = false → hw = si.hw) := by
  rcases changeInputSource_cases adev k si newSource devices with
    ⟨-, hsame⟩ | ⟨hw, cm, hst, -, -, hchange⟩
  · rw [hsame]
    exact ⟨si.hw, si.refs, si.inputSource, rfl, fun _ => rfl⟩
  · rw [hchange]
    refine ⟨_, _, _, rfl, ?_⟩
    intro hactive
    rw [hst] at hactive
    cases hactive

theorem setParameters_eq (strParms : StrParms) (adev : AudioDevice) (k : Nat) (si : StreamIn)
    (kvpairs : String) :
    ∃ hw refs source devices, (inPcmSetParameters strParms adev k si kvpairs).2 =
        { si with hw := hw, refs := refs, inputSource := source, devices := devices } ∧
      (si.standby = false → hw = si.hw) := by
  have hrouting (adev : AudioDevice) (si : StreamIn) (routing : Option (BitVec 32)) :
      ∃ devices, (applyInputRouting adev si routing kvpairs).2 = { si with devices := devices } := by
    cases routing with
    | none => exact ⟨si.devices, rfl⟩
    | some devices => exact ⟨devices, rfl⟩
  unfold inPcmSetParameters
  cases intParam strParms kvpairs "input_source" with
  | none =>
    obtain ⟨devices, heq⟩ := hrouting adev si (routingParam strParms kvpairs)
    exact ⟨si.hw, si.refs, si.inputSource, devices, heq, fun _ => rfl⟩
  | some newSource =>
    dsimp only
    generalize sourceDevices adev.cm si (routingParam strParms kvpairs) = devices
    obtain ⟨hw, refs, source, hchanged, hhw⟩ := changeInputSource_eq adev k si newSource devices
    split
    · exact ⟨hw, refs, source, si.devices, hchanged, hhw⟩
    · obtain ⟨devices', heq⟩ := hrouting
        (changeInputSourceLocked adev k si newSource devices).2.1
        (changeInputSourceLocked adev k si newSource devices).2.2 (some devices)
      exact ⟨hw, refs, source, devices', by rw [heq, hchanged], hhw⟩

theorem setParameters_ok {adev : AudioDevice} (h : HandleOk adev.cm si) (strParms : StrParms)
    (k : Nat) (kvpairs : String) :
    HandleOk (inPcmSetParameters strParms adev k si kvpairs).1.cm
      (inPcmSetParameters strParms adev k si kvpairs).2 := by
  refine HandleOk.spared ?_ (setParameters_streams strParms adev k si kvpairs)
  obtain ⟨hw, refs, source, devices, heq, hhw⟩ := setParameters_eq strParms adev k si kvpairs
  rw [heq]
  cases h with
  | idle hst hptr hlog => exact .idle hst hptr hlog
  | active hopen hs hst hptr hlog =>
    rw [hhw hst]
    exact .active hopen hs hst hptr hlog

end Calls

section Defects

variable {cm : ConfigMgr} {si : StreamIn} {s : Stream}

theorem inPcmStandby_handles (hs : si.stream cm = some s) (hst : si.standby = false) :
    (inPcmStandby cm si).handles = si.handles ++ if streamIsCompressedIn s then
      [.touch ⟨.compress, si.handle⟩, .release ⟨.compress, si.handle⟩]
      else [.release ⟨.pcm, si.handle⟩] := by
  unfold inPcmStandby doInCompressPcmStandby doInPcmStandby
  rw [hs, hst]
  dsimp only
  split <;> rfl

/-- The error number of a device that does not open is taken for success, and the stream is
active without a handle. -/
theorem mishandled_read (h : HandleOk cm si) (hs : si.stream cm = some s)
    (hroute : s.currentDevices ≠ 0#32) (hkind : streamIsCompressedIn s = true)
    (hst : si.standby = true) {env : ReadEnv} {errno : Nat} (henv : env.compressOpen = some errno)
    (bytes : Int) : ¬ (inPcmRead env cm si bytes).2.HandleSound := by
  have hnone : si.handle = none := by
    cases h with
    | idle _ hptr _ => exact hptr
    | active _ _ hactive _ _ =>
      rw [hst] at hactive
      cases hactive
  have hopen : doOpenCompressPcmIn env si = ((errno : Int), si) := by
    unfold doOpenCompressPcmIn
    split
    case h_1 hhw => simp [StreamIn.stream, hhw] at hs
    case h_2 => rw [henv]
  have hstart : startCompressPcmInputStream env si =
      (0, { si.note [.touch ⟨.compress, si.handle⟩] with standby := false }) := by
    unfold startCompressPcmInputStream
    rw [if_pos hst, hopen]
    exact if_neg (by simp only; omega)
  have hread : (inPcmRead env cm si bytes).2.standby = false ∧
      (inPcmRead env cm si bytes).2.handle = none := by
    unfold inPcmRead doInCompressPcmRead
    rw [hs, hstart]
    simp only [hroute, hkind, if_true, if_false]
    exact ⟨rfl, hnone⟩
  intro hsound
  obtain ⟨kind, id, hptr, -⟩ := hsound.active hread.1
  rw [hread.2] at hptr
  cases hptr

/-- The device is closed by the compressed close and again by standby. On a stream of compressed
output the first of them closes a pcm. -/
theorem mishandled_close {adev : AudioDevice} (h : HandleOk adev.cm si)
    (hs : si.stream adev.cm = some s) (hkind : streamIsCompressed s = true)
    (hst : si.standby = false) (k : Nat) : ¬ (doCloseInPcm adev k si).2.HandleSound := by
  cases h with
  | idle hidle _ _ =>
    rw [hst] at hidle
    cases hidle
  | @active s' id _ hs' _ hptr hlog =>
    cases hs.symm.trans hs'
    have hclose : doInCompressPcmClose si =
        si.note [.touch ⟨.compress, si.handle⟩, .release ⟨.compress, si.handle⟩] := by
      unfold doInCompressPcmClose
      rw [hptr]
      rfl
    obtain ⟨refs, hcommon⟩ := doCloseInCommon_eq adev k (doInCompressPcmClose si)
    have hclosed : doCloseInPcm adev k si = doCloseInCommon adev k (doInCompressPcmClose si) := by
      unfold doCloseInPcm
      rw [hs]
      dsimp only
      rw [if_pos hkind]
    intro hsound
    have hdisciplined := hsound.disciplined
    rw [hclosed, hcommon, hclose] at hdisciplined
    dsimp only at hdisciplined
    rw [@inPcmStandby_handles adev.cm (si.note _) s hs hst, StreamIn.note] at hdisciplined
    simp only [List.append_assoc, disciplined_append, hlog.holding.outstanding] at hdisciplined
    obtain ⟨-, hfirst, hrest⟩ := hdisciplined
    cases hin : streamIsCompressedIn s with
    | true =>
      -- nothing is held when standby stops the device again
      have hkind' : deviceKind s = .compress := by simp [deviceKind, hin]
      rw [hin, if_pos rfl, hkind', hptr] at hrest
      have hagain := hrest.2.1
      simp [after, Legal] at hagain
    | false =>
      -- the handle that is held is a pcm
      have hkind' : deviceKind s = .pcm := by simp [deviceKind, hin]
      rw [hkind', hptr] at hfirst
      simp [Legal] at hfirst

end Defects

section Runs

variable {strParms : StrParms}

/-- Every input stream, open or closed, has its handles in order. -/
def InputsOk (s : InputDevice) : Prop := ∀ si ∈ s.inputs, HandleOk s.adev.cm si

theorem InputDevice.input_eq {s : InputDevice} {k : Nat} {si : StreamIn} (h : s.input k = some si) :
    si ∈ s.inputs ∧ si.isOpen = true := by
  obtain ⟨hk, hopen⟩ := Option.filter_eq_some_iff.mp h
  exact ⟨List.mem_of_getElem? hk, hopen⟩

/-- One stream changes with the manager's streams, the others do not. -/
theorem InputsOk.set {s : InputDevice} (h : InputsOk s) {adev : AudioDevice} {si : StreamIn}
    {p : Nat → Prop} (hcm : Spares p s.adev.cm adev.cm) (hsi : HandleOk adev.cm si) (k : Nat) :
    InputsOk { adev := adev, inputs := s.inputs.set k si } := by
  intro sj hsj
  rcases List.mem_or_eq_of_mem_set hsj with hold | rfl
  · exact (h sj hold).spared hcm
  · exact hsi

theorem adevOpenInputStream_ok (cm : ConfigMgr) (devices : BitVec 32) (config : AudioConfig) :
    HandleOk cm (adevOpenInputStream devices config) :=
  .idle rfl rfl handled_nil

theorem inputStep_ok {s t : InputDevice} {c : InputCall} (h : InputsOk s)
    (hstep : inputStep strParms s c = some t) (hc : mishandles s c = false) : InputsOk t := by
  have hall (i : Nat) : True := trivial
  cases c with
  | openStream devices config =>
    cases hstep
    intro si hsi
    rcases List.mem_append.mp hsi with hold | hnew
    · exact h si hold
    · rw [List.mem_singleton.mp hnew]
      exact adevOpenInputStream_ok s.adev.cm devices config
  | setParameters k kvpairs =>
    obtain ⟨si, hsi, rfl⟩ := Option.map_eq_some_iff.mp hstep
    exact h.set (setParameters_streams strParms s.adev k si kvpairs)
      (setParameters_ok (h si (InputDevice.input_eq hsi).1) strParms k kvpairs) k
  | read k env bytes =>
    obtain ⟨si, hsi, rfl⟩ := Option.map_eq_some_iff.mp hstep
    obtain ⟨hmem, hopen⟩ := InputDevice.input_eq hsi
    refine h.set (Spares.refl (fun _ => True) _) (inPcmRead_ok (h si hmem) hopen ?_ bytes) k
    intro hw hhw hroute hkind hst
    cases henv : env.compressOpen with
    | none => rfl
    | some errno => simp [mishandles, hsi, hst, henv, hhw, hroute, hkind] at hc
  | standby k =>
    obtain ⟨si, hsi, rfl⟩ := Option.map_eq_some_iff.mp hstep
    exact h.set (Spares.refl (fun _ => True) _) (inPcmStandby_ok (h si (InputDevice.input_eq hsi).1)) k
  | close k =>
    obtain ⟨si, hsi, rfl⟩ := Option.map_eq_some_iff.mp hstep
    refine h.set (closeInPcm_spares s.adev k si hall)
      (doCloseInPcm_ok (h si (InputDevice.input_eq hsi).1) k ?_) k
    intro hw hhw hst
    cases hkind : streamIsCompressed hw with
    | false => rfl
    | true => simp [mishandles, hsi, hst, hhw, hkind] at hc
  | voice e =>
    obtain ⟨adev, hadev, rfl⟩ := Option.map_eq_some_iff.mp hstep
    have hcm := voiceStep_spares hall hadev
    intro si hsi
    exact (h si hsi).spared hcm

/-- A mishandled step leaves one stream with its handles out of order. -/
theorem inputStep_unsound {s t : InputDevice} {c : InputCall} (h : InputsOk s)
    (hstep : inputStep strParms s c = some t) (hc : mishandles s c = true) :
    ∃ si ∈ t.inputs, ¬ si.HandleSound := by
  have hplace {k : Nat} {si : StreamIn} (hsi : s.input k = some si) (sj : StreamIn) :
      sj ∈ s.inputs.set k sj := by
    obtain ⟨hk, -⟩ := Option.filter_eq_some_iff.mp hsi
    exact List.mem_set (List.getElem?_eq_some_iff.mp hk).1 sj
  cases c with
  | read k env bytes =>
    obtain ⟨si, hsi, rfl⟩ := Option.map_eq_some_iff.mp hstep
    simp only [mishandles, hsi, Option.any_some, Bool.and_eq_true, Option.any_eq_true,
      Option.isSome_iff_exists] at hc
    obtain ⟨⟨hst, errno, henv⟩, hw, hhw, hroute, hkind⟩ := hc
    refine ⟨_, hplace hsi _, ?_⟩
    exact mishandled_read (h si (InputDevice.input_eq hsi).1) hhw (by simpa using hroute) hkind hst
      henv bytes
  | close k =>
    obtain ⟨si, hsi, rfl⟩ := Option.map_eq_some_iff.mp hstep
    simp only [mishandles, hsi, Option.any_some, Bool.and_eq_true, Option.any_eq_true,
      Bool.not_eq_true'] at hc
    obtain ⟨hst, hw, hhw, hkind⟩ := hc
    refine ⟨_, hplace hsi _, ?_⟩
    exact mishandled_close (h si (InputDevice.input_eq hsi).1) hhw hkind hst k
  | openStream devices config => cases hc
  | setParameters k kvpairs => cases hc
  | standby k => cases hc
  | voice e => cases hc

end Runs

/-- From the opening of the device on, the handles of all input streams stay in order exactly
in the runs without a mishandled step. -/
theorem handles_sound_iff (strParms : StrParms) (adev : AudioDevice) (calls : List InputCall) :
    Along (inputStep strParms) (fun s c _ => mishandles s c = false) ⟨adev, []⟩ calls ↔
      Along (inputStep strParms) (fun _ _ t => ∀ si ∈ t.inputs, si.HandleSound) ⟨adev, []⟩ calls := by
  have hinit : InputsOk ⟨adev, []⟩ := fun si hsi => nomatch hsi
  constructor
  · intro hgood
    refine Along.mono InputsOk ?_ hinit hgood
    intro s c t hs hstep hc
    have ht := inputStep_ok hs hstep hc
    exact ⟨fun si hsi => (ht si hsi).sound, ht⟩
  · intro hsound
    refine Along.mono InputsOk ?_ hinit hsound
    intro s c t hs hstep hall
    cases hc : mishandles s c with
    | false => exact ⟨rfl, inputStep_ok hs hstep hc⟩
    | true =>
      obtain ⟨si, hsi, hbad⟩ := inputStep_unsound hs hstep hc
      exact absurd (hall si hsi) hbad

section Recognition

/-- A configuration whose voice recognition stream is a compressed input. -/
def recognitionDocument : XmlFile where
  events := element "audiohal" []
    [element "mixer" [("card", "1")] [],
      element "device" [("name", "mic")] [],
      element "stream" [("type", "compress"), ("dir", "in"), ("name", kVoiceRecogStreamName),
        ("card", "1"), ("device", "5")] []]
  wellFormed := true

def recognitionConfig : ConfigMgr :=
  ((initAudioConfig (documentEnv recognitionDocument) 1).bind id).get (by decide +kernel)

/-- The key-value pairs of strings in which every key has a value. -/
def pairParms : StrParms := fun kvpairs key =>
  (((CString.strtok ';' kvpairs.toList).filterMap keyValue).reverse.find? fun pair => pair.1 = key).map
    fun pair => pair.2

/-- The voice trigger fires, and an input stream takes the voice audio from the microphone. -/
def recognitionCalls : List InputCall :=
  [.voice .enable, .voice .triggered, .openStream audioDeviceInBuiltinMic ⟨16000, 0x10#32, 0x1#32⟩,
    .setParameters 0 "input_source=6;routing=-2147483644"]

def recognitionAfter (calls : List InputCall) : Option InputDevice :=
  run (inputStep pairParms) ⟨voiceTriggerInit (newAudioDevice recognitionConfig), []⟩
    (recognitionCalls ++ calls)

/-- The system's answers to a read; the error number is that of the compressed device. -/
def readAnswers (compressOpen : Option Nat) (result : Int) : ReadEnv :=
  ⟨true, true, compressOpen, result, false⟩

example : (recognitionAfter [.read 0 (readAnswers none 4096) 4096, .standby 0, .close 0]).map
    (fun s => s.inputs.map fun si => (outstanding si.handles).length) = some [0] := by decide +kernel

/-- The compressed device does not open (error number 19), and the stream is active. -/
theorem compress_open_refused : ∃ s si,
    recognitionAfter [.read 0 (readAnswers (some 19) (-1)) 4096] = some s ∧
      s.inputs = [si] ∧ si.standby = false ∧ si.handle = none ∧ outstanding si.handles = [] ∧
      ¬ si.HandleSound := by
  have hvalues : (recognitionAfter [.read 0 (readAnswers (some 19) (-1)) 4096]).map (fun s =>
      s.inputs.map fun si => (si.standby, si.handle, outstanding si.handles)) =
      some [(false, none, [])] := by decide +kernel
  obtain ⟨s, hrun, hinputs⟩ := Option.map_eq_some_iff.mp hvalues
  obtain ⟨si, hsi, heq⟩ := List.map_eq_singleton_iff.mp hinputs
  simp only [Prod.mk.injEq] at heq
  obtain ⟨hst, hptr, hout⟩ := heq
  refine ⟨s, si, hrun, hsi, hst, hptr, hout, ?_⟩
  intro hsound
  obtain ⟨kind, id, hsome, -⟩ := hsound.active hst
  rw [hptr] at hsome
  cases hsome

-- closed while active: the one handle is given back twice
example : (recognitionAfter [.read 0 (readAnswers none 4096) 4096, .close 0]).map (fun s =>
    s.inputs.map fun si => (si.isOpen, si.handles.count (.acquire ⟨.compress, some 0⟩),
      si.handles.count (.release ⟨.compress, some 0⟩))) = some [(false, 1, 2)] := by decide +kernel

end Recognition

end TinyHal
