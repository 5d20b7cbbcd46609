import Mocha.CompressPlayer

/-!
# The devices of a compressed output stream

The stream opens and closes its devices in order whatever happens. What can go wrong
is a call on the device: a drain that waits does not look whether there is one, and
the worker keeps a device that the stream closes meanwhile.
-/
namespace TinyHal

open Custody Transition

section Handles

/-- The stream's own device is held and no other, and no number was given out twice. -/
structure Owned (out : StreamOutCompress) : Prop where
  holding : Holding (out.uses.filter Use.moves) (out.compress.toList.map some)
  fresh : ∀ h, out.opened ≤ h → Use.acquire (some h) ∉ out.uses
  once : Once out.uses

variable {out : StreamOutCompress}

theorem Owned.held (h : Owned out) :
    outstanding out.uses = out.compress.toList.map some := by
  have hheld := h.holding.outstanding
  rw [Custody.outstanding, outstandingFrom_moves] at hheld
  exact hheld

theorem Owned.mem_iff (h : Owned out) (on : Option Nat) :
    on ∈ outstanding out.uses ↔ on = out.compress ∧ out.compress.isSome := by
  rw [h.held]
  cases out.compress <;> simp

/-- The open device has been opened. -/
theorem Owned.numbered (h : Owned out) {k : Nat} (hk : out.compress = some k) : k < out.opened := by
  have hheld := (h.mem_iff (some k)).mpr ⟨hk.symm, by rw [hk]; rfl⟩
  by_contra hle
  exact h.fresh k (Nat.le_of_not_lt hle) (acquire_of_outstanding hheld)

/-- A call that neither opens nor closes. -/
def ComprCall.inner (call : ComprCall) : Prop := call ≠ .opens ∧ call ≠ .close

instance (call : ComprCall) : Decidable call.inner :=
  inferInstanceAs (Decidable (call ≠ .opens ∧ call ≠ .close))

theorem ComprCall.inner.use {call : ComprCall} (h : call.inner) (on : Option Nat) :
    ComprUse.use ⟨call, on⟩ = .touch on := by
  obtain ⟨hopens, hclose⟩ := h
  cases call <;> first | rfl | exact absurd rfl hopens | exact absurd rfl hclose

theorem uses_noteOn (out : StreamOutCompress) (call : ComprCall) (on : Option Nat) :
    (out.noteOn call on).uses = out.uses ++ [ComprUse.use ⟨call, on⟩] := List.map_append

/-- What a call of the framework does to the log. It keeps the devices in order, and uses only
the stream's own if `sound` holds. -/
structure Carries (sound : Prop) (out out' : StreamOutCompress) : Prop where
  owned : Owned out → Owned out'
  opened : out.opened ≤ out'.opened
  compress : out'.compress = out.compress ∨ ∀ k, out'.compress = some k → out.opened ≤ k
  disciplined : Owned out → (Disciplined out'.uses ↔ Disciplined out.uses ∧ sound)

theorem Carries.same {out out' : StreamOutCompress} (hcompress : out'.compress = out.compress)
    (hopened : out'.opened = out.opened) (hcalls : out'.calls = out.calls) :
    Carries True out out' := by
  have huses : out'.uses = out.uses := by rw [StreamOutCompress.uses, hcalls, StreamOutCompress.uses]
  refine ⟨fun h => ⟨?_, ?_, ?_⟩, Nat.le_of_eq hopened.symm, .inl hcompress, fun _ => ?_⟩
  · rw [huses, hcompress]
    exact h.holding
  · rw [huses, hopened]
    exact h.fresh
  · rw [huses]
    exact h.once
  · rw [huses, and_true]

theorem Carries.trans {p q : Prop} {a b c : StreamOutCompress} (hab : Carries p a b)
    (hbc : Carries q b c) : Carries (p ∧ q) a c where
  owned := fun h => hbc.owned (hab.owned h)
  opened := Nat.le_trans hab.opened hbc.opened
  compress := by
    rcases hbc.compress with hsame | hnew
    · rw [hsame]
      exact hab.compress
    · exact .inr fun k hk => Nat.le_trans hab.opened (hnew k hk)
  disciplined := fun h => by rw [hbc.disciplined (hab.owned h), hab.disciplined h, and_assoc]

theorem Carries.iff {p q : Prop} {a b : StreamOutCompress} (hab : Carries p a b) (hpq : p ↔ q) :
    Carries q a b := by
  rw [← propext hpq]
  exact hab

theorem Carries.then {p : Prop} {a b c : StreamOutCompress} (hab : Carries p a b)
    (hbc : Carries True b c) : Carries p a c := (hab.trans hbc).iff (and_iff_left trivial)

theorem Carries.both {p : Prop} {a b c : StreamOutCompress} (hab : Carries p a b)
    (hbc : Carries p b c) : Carries p a c := (hab.trans hbc).iff and_self_iff

theorem carries_noteOn (out : StreamOutCompress) {call : ComprCall} (hcall : call.inner)
    (on : Option Nat) :
    Carries (on = out.compress ∧ out.compress.isSome) out (out.noteOn call on) where
  owned := by
    intro h
    refine ⟨?_, ?_, ?_⟩
    · have hmoves : (out.uses ++ [Use.touch on]).filter Use.moves = out.uses.filter Use.moves := by
        simp [Use.moves]
      rw [uses_noteOn, hcall.use, hmoves]
      exact h.holding
    · intro k hk
      rw [uses_noteOn, hcall.use]
      simpa using h.fresh k hk
    · rw [uses_noteOn, hcall.use]
      exact h.once.snoc fun _ hu => nomatch hu
  opened := Nat.le_refl _
  compress := .inl rfl
  disciplined := by
    intro h
    rw [uses_noteOn, hcall.use, disciplined_append, ← h.mem_iff on]
    exact and_congr_right fun _ => and_iff_left trivial

/-- A call on the stream's own device, which is open. -/
theorem carries_note (out : StreamOutCompress) (hopen : out.compress.isSome) (call : ComprCall)
    (hcall : call.inner) : Carries True out (out.note call) :=
  (carries_noteOn out hcall out.compress).iff (by simp [hopen])

/-- The device that a closed stream opens has a number of its own. -/
theorem carries_opens {out : StreamOutCompress} (hclosed : out.compress = none) :
    Carries True out { out.noteOn .opens (some out.opened) with
      compress := some out.opened, opened := out.opened + 1 } where
  owned := by
    intro h
    have huses : StreamOutCompress.uses { out.noteOn .opens (some out.opened) with
        compress := some out.opened, opened := out.opened + 1 } =
        out.uses ++ [.acquire (some out.opened)] := uses_noteOn out .opens (some out.opened)
    refine ⟨?_, ?_, ?_⟩
    · have hholding := h.holding
      rw [hclosed] at hholding
      rw [huses, List.filter_append]
      exact hholding.acquire (some out.opened)
    · intro k hk
      have hlt : out.opened < k := hk
      have hfresh := h.fresh k (by omega)
      rw [huses]
      simp [hfresh]
      omega
    · rw [huses]
      apply h.once.snoc
      intro r hr
      cases hr
      exact h.fresh out.opened (Nat.le_refl _)
  opened := Nat.le_succ _
  compress := .inr fun k hk => Nat.le_of_eq (Option.some.inj hk)
  disciplined := by
    intro _
    have huses := uses_noteOn out .opens (some out.opened)
    rw [and_true]
    change Disciplined (out.noteOn .opens (some out.opened)).uses ↔ _
    rw [huses, disciplined_append]
    exact and_iff_left ⟨trivial, trivial⟩

/-- Closing gives back what is held. -/
theorem carries_closes {out : StreamOutCompress} {k : Nat} (hopen : out.compress = some k) :
    Carries True out { out.note .close with compress := none } where
  owned := by
    intro h
    have huses : StreamOutCompress.uses { out.note .close with compress := none } =
        out.uses ++ [.release (some k)] := by
      rw [← hopen]
      exact uses_noteOn out .close out.compress
    refine ⟨?_, ?_, ?_⟩
    · have hholding := h.holding
      rw [hopen] at hholding
      rw [huses, List.filter_append]
      exact hholding.giveBack
    · intro j hj
      rw [huses]
      simpa using h.fresh j hj
    · rw [huses]
      exact h.once.snoc fun _ hu => nomatch hu
  opened := Nat.le_refl _
  compress := .inr fun k hk => nomatch hk
  disciplined := by
    intro h
    have huses := uses_noteOn out .close out.compress
    rw [and_true]
    change Disciplined (out.noteOn .close out.compress).uses ↔ _
    rw [huses, disciplined_append]
    refine and_iff_left ⟨?_, trivial⟩
    rw [ComprUse.use]
    exact (h.mem_iff out.compress).mpr ⟨rfl, by rw [hopen]; rfl⟩

theorem carries_standby (out : StreamOutCompress) : Carries True out (doStandbyCompressL out) := by
  unfold doStandbyCompressL
  split
  case isFalse => exact .same rfl rfl rfl
  case isTrue h =>
    have hopen : out.compress.isSome := by simp_all
    obtain ⟨k, hk⟩ := Option.isSome_iff_exists.mp hopen
    cases out.started with
    | false => exact carries_closes hk
    | true =>
      have hstop : Carries True out { out.note .stop with started := false } :=
        (carries_note _ hopen .stop (by decide)).then (.same rfl rfl rfl)
      exact hstop.then (carries_closes hk)

theorem carries_openOutput (answers : ComprAnswers) (out : StreamOutCompress) :
    Carries True out (openOutputCompress answers out).2 := by
  unfold openOutputCompress
  cases hclosed : out.compress with
  | some k => exact .same rfl rfl rfl
  | none =>
    rw [if_pos rfl]
    let opened : StreamOutCompress := { out.noteOn .opens (some out.opened) with
      compress := some out.opened, opened := out.opened + 1 }
    have hready : Carries True out (opened.note .isReady) :=
      (carries_opens hclosed).then (carries_note _ rfl _ (by decide))
    cases answers.ready with
    | true =>
      have hset : Carries True out
          (((opened.note .isReady).note .setMaxPollWait).note (.nonblock out.useAsync)) :=
        (hready.then (carries_note _ rfl _ (by decide))).then
          (carries_note _ rfl _ (by simp [ComprCall.inner]))
      exact hset.then (.same rfl rfl rfl)
    | false =>
      have herror : Carries True out ((opened.note .isReady).note .getError) :=
        hready.then (carries_note _ rfl _ (by decide))
      exact (herror.then (carries_closes rfl)).then (.same rfl rfl rfl)

theorem carries_startOutput (answers : ComprAnswers) {out : StreamOutCompress}
    (hopen : out.compress.isSome) : Carries True out (startOutputCompress answers out).2 := by
  have hstart : Carries True out (out.note (.start (0 ≤ answers.start))) :=
    carries_note _ hopen _ (by simp [ComprCall.inner])
  unfold startOutputCompress
  dsimp only
  split
  · exact hstart.then (carries_standby _)
  · split
    · have hsend : Carries True out
          ((out.note (.start (0 ≤ answers.start))).note (.setGaplessMetadata out.gData)) := by
        apply hstart.then
        exact carries_note (out.note (.start (0 ≤ answers.start))) hopen
          (.setGaplessMetadata out.gData) (by simp [ComprCall.inner])
      exact hsend.then (.same rfl rfl rfl)
    · exact hstart.then (.same rfl rfl rfl)

theorem openOutputCompress_open {answers : ComprAnswers} {out : StreamOutCompress}
    (h : ¬ (openOutputCompress answers out).1 < 0) :
    (openOutputCompress answers out).2.compress.isSome := by
  unfold openOutputCompress at h ⊢
  cases hclosed : out.compress with
  | some k => simp [hclosed]
  | none =>
    cases hready : answers.ready with
    | true => simp
    | false => simp [hclosed, hready, ebusy] at h

theorem carries_writeOn (answers : ComprAnswers) {out : StreamOutCompress}
    (hopen : out.compress.isSome) (writing : Writing) :
    Carries True out (outCompressWriteOn answers out writing).2.1 := by
  cases writing with
  | opened bytes => exact carries_note _ hopen .write (by decide)
  | written bytes ret => exact .same rfl rfl rfl
  | starting bytes ret => exact carries_startOutput answers hopen
  | begun bytes ret => exact .same rfl rfl rfl

/-- Besides, the device stays, and nothing is started. -/
structure Stays (sound : Prop) (out out' : StreamOutCompress) : Prop extends
    Carries sound out out' where
  same : out'.compress = out.compress
  started : out'.started = true → out.started = true

theorem Stays.refl (out : StreamOutCompress) : Stays True out out := ⟨.same rfl rfl rfl, rfl, id⟩

theorem stays_pause (answers : ComprAnswers) (out : StreamOutCompress) :
    Stays True out (outCompressPause answers out).2 := by
  unfold outCompressPause
  split
  case isFalse => exact .refl out
  case isTrue h =>
    have hopen : out.compress.isSome := by simp_all
    exact ⟨(carries_note _ hopen _ (by decide)).then (.same rfl rfl rfl), rfl, id⟩

theorem stays_resume (answers : ComprAnswers) (out : StreamOutCompress) :
    Stays True out (outCompressResume answers out).2 := by
  unfold outCompressResume
  split
  case isFalse => exact .refl out
  case isTrue h =>
    have hopen : out.compress.isSome := by simp_all
    exact ⟨(carries_note _ hopen _ (by decide)).then (.same rfl rfl rfl), rfl, id⟩

theorem stays_flush (out : StreamOutCompress) : Stays True out (outCompressFlush out) := by
  unfold outCompressFlush
  split
  case isFalse => exact .refl out
  case isTrue h =>
    have hopen : out.compress.isSome := by simp_all
    exact ⟨(carries_note _ hopen _ (by decide)).then (.same rfl rfl rfl), rfl, fun hs => nomatch hs⟩

theorem stays_position {out : StreamOutCompress}
    (hplays : out.started = true → out.compress.isSome = true) :
    Stays True out (outCompressGetRenderPosition out) := by
  unfold outCompressGetRenderPosition
  split
  case isFalse => exact .refl out
  case isTrue h => exact ⟨carries_note _ (hplays h) _ (by decide), rfl, id⟩

/-- Without an open device a drain passes no device to the library. -/
theorem stays_drainAtOnce (answers : ComprAnswers) (out : StreamOutCompress) (early : Bool) :
    Stays (out.compress.isSome = true) out (drainAtOnce answers out early).2 := by
  have hnote (out' : StreamOutCompress) (call : ComprCall) (hcall : call.inner) :
      Carries (out'.compress.isSome = true) out' (out'.note call) :=
    (carries_noteOn out' hcall out'.compress).iff (by simp)
  have hdrain {out' : StreamOutCompress} (hsame : out'.compress = out.compress) :
      Carries (out.compress.isSome = true) out'
        { (out'.note .drainBegin).note .drainEnd with started := false } := by
    have hbegin : Carries (out.compress.isSome = true) out' (out'.note .drainBegin) :=
      hsame ▸ hnote out' .drainBegin (by decide)
    have hend : Carries (out.compress.isSome = true) (out'.note .drainBegin)
        ((out'.note .drainBegin).note .drainEnd) := by
      rw [← hsame]
      exact hnote (out'.note .drainBegin) .drainEnd (by decide)
    exact (hbegin.both hend).then (.same rfl rfl rfl)
  unfold drainAtOnce
  cases early with
  | false => exact ⟨hdrain rfl, rfl, fun hs => nomatch hs⟩
  | true =>
    have hnext : Carries (out.compress.isSome = true) out (out.note .nextTrack) :=
      hnote out .nextTrack (by decide)
    dsimp only
    split
    · exact ⟨hnext, rfl, id⟩
    · exact ⟨hnext.both (hdrain rfl), rfl, fun hs => nomatch hs⟩

end Handles

/-- The worker is inside a call into the library. -/
def Player.inside (s : Player) : Bool := s.serving.inside.isSome

/-- The worker's next step is a call into the library. -/
def Player.begins (s : Player) : Bool :=
  s.async.any fun async => match async.worker with
    | .working mode => (s.serving = .fresh && mode ≠ .none) || s.serving = .nextTrack
    | _ => false

/-- Every call was on the open device, and the device that the worker is inside of is open. -/
structure Player.Sound (s : Player) : Prop where
  disciplined : Disciplined s.out.uses
  inside : ∀ on, s.serving.inside = some on → on ∈ outstanding s.out.uses

/-- A write starts the device in vain, and puts the stream in standby. -/
def startFails (answers : ComprAnswers) (out : StreamOutCompress) : Writing → Bool
  | .starting _ _ => !out.paused && answers.start < 0
  | _ => false

/-- Steps that give the library no device: a drain that waits, and a call of the worker, on a
closed one. Steps that take the device from under the worker: standby, close, and a write whose
start fails. -/
def strays (s : Player) : PlayerCall → Bool
  | .drain _ _ => !s.out.useAsync && s.out.compress.isNone
  | .work => s.begins && s.out.compress.isNone
  | .standby => s.inside && !s.out.paused
  | .close => s.inside
  | .writeOn answers => s.inside && s.writing.any (startFails answers s.out)
  | _ => false

section Sound

/-- A stream that is started has a device. -/
def Plays (out : StreamOutCompress) : Prop := out.started = true → out.compress.isSome = true

theorem doStandbyCompressL_plays {out : StreamOutCompress} (h : Plays out) :
    Plays (doStandbyCompressL out) := by
  unfold doStandbyCompressL
  split
  case isFalse => exact h
  case isTrue =>
    intro hstarted
    cases hs : out.started <;> simp_all [StreamOutCompress.note, StreamOutCompress.noteOn]

theorem openOutputCompress_plays (answers : ComprAnswers) {out : StreamOutCompress} (h : Plays out) :
    Plays (openOutputCompress answers out).2 := by
  unfold openOutputCompress
  split
  case isFalse => exact h
  case isTrue hnone =>
    cases hready : answers.ready with
    | true => exact fun _ => rfl
    | false => exact h

theorem startOutputCompress_plays (answers : ComprAnswers) {out : StreamOutCompress}
    (hopen : out.compress.isSome = true) : Plays (startOutputCompress answers out).2 := by
  have hplays : Plays (out.note (.start (0 ≤ answers.start))) := fun _ => hopen
  unfold startOutputCompress
  dsimp only
  split
  · exact doStandbyCompressL_plays hplays
  · split <;> exact fun _ => hopen

theorem outCompressWriteOn_plays (answers : ComprAnswers) {out : StreamOutCompress}
    (hopen : out.compress.isSome = true) (writing : Writing) :
    Plays (outCompressWriteOn answers out writing).2.1 := by
  cases writing with
  | opened bytes => exact fun _ => hopen
  | written bytes ret => exact fun _ => hopen
  | starting bytes ret => exact startOutputCompress_plays answers hopen
  | begun bytes ret => exact fun _ => hopen

/-- The worker is inside of a device that was opened before. -/
structure PlayerOk (s : Player) : Prop where
  owned : Owned s.out
  plays : Plays s.out
  inside : ∀ k, s.serving.inside = some (some k) → k < s.out.opened
  closed : s.stage ≠ .playing → s.out.compress = none

theorem doStandbyCompressL_compress (out : StreamOutCompress) :
    (doStandbyCompressL out).compress = if out.paused then out.compress else none := by
  unfold doStandbyCompressL
  cases hc : out.compress <;> cases hp : out.paused <;> cases hs : out.started <;> simp [hc]

theorem startOutputCompress_compress (answers : ComprAnswers) (out : StreamOutCompress) :
    (startOutputCompress answers out).2.compress =
      if answers.start < 0 then (doStandbyCompressL out).compress else out.compress := by
  rw [doStandbyCompressL_compress]
  unfold startOutputCompress
  dsimp only
  split
  · rw [doStandbyCompressL_compress]
    rfl
  · split <;> rfl

theorem openOutputCompress_idle (answers : ComprAnswers) {out : StreamOutCompress}
    (hopen : out.compress.isSome) : openOutputCompress answers out = (0, out) := by
  rw [openOutputCompress, if_neg]
  intro hnone
  simp [hnone] at hopen

theorem startOutputCompress_ret (answers : ComprAnswers) (out : StreamOutCompress) :
    (startOutputCompress answers out).1 = answers.start := by
  unfold startOutputCompress
  dsimp only
  split
  · rfl
  · split <;> rfl

/-- A write that goes on closes its device exactly when the device does not start, unless the
stream is paused. -/
theorem outCompressWriteOn_compress (answers : ComprAnswers) (out : StreamOutCompress)
    (writing : Writing) : (outCompressWriteOn answers out writing).2.1.compress =
      if startFails answers out writing then none else out.compress := by
  cases writing with
  | starting bytes ret =>
    have hstart := startOutputCompress_compress answers out
    rw [doStandbyCompressL_compress] at hstart
    change (startOutputCompress answers out).2.compress = _
    rw [hstart, startFails]
    by_cases hfail : answers.start < 0
    · cases out.paused <;> simp [hfail]
    · simp [hfail]
  | _ => rfl

/-- Between the sections of a write the device is open, and `started` is unset from where the write
has found it so up to where it starts the device. -/
def WriteOk (s : Player) : Prop :=
  ∀ writing, s.writing = some writing → s.out.compress.isSome = true ∧
    ∀ bytes ret, writing = .starting bytes ret → s.out.started = false

theorem writeOk_none {s : Player} (h : s.writing = none) : WriteOk s :=
  fun writing hw => by rw [h] at hw; cases hw

/-- What a section leaves for the next one. -/
theorem writeOk_on {s t : Player} {answers : ComprAnswers} {writing : Writing}
    (h : WriteOk s) (hw : s.writing = some writing)
    (hwriting : t.writing = (outCompressWriteOn answers s.out writing).1.getRight?)
    (hout : t.out = (outCompressWriteOn answers s.out writing).2.1) : WriteOk t := by
  obtain ⟨hopen, -⟩ := h writing hw
  intro next hnext
  rw [hwriting] at hnext
  have hcompress := outCompressWriteOn_compress answers s.out writing
  rw [← hout] at hcompress
  cases writing with
  | opened bytes =>
    rw [hcompress]
    refine ⟨hopen, ?_⟩
    rintro bytes' ret' rfl
    simp only [outCompressWriteOn] at hnext
    split at hnext <;> cases hnext
  | written bytes ret =>
    rw [hcompress]
    refine ⟨hopen, ?_⟩
    rintro bytes' ret' rfl
    simp only [outCompressWriteOn, Sum.getRight?_inr, Option.some.injEq] at hnext
    rw [hout]
    cases hstarted : s.out.started with
    | true => simp [hstarted] at hnext
    | false => exact hstarted
  | starting bytes ret =>
    simp only [outCompressWriteOn, startOutputCompress_ret] at hnext
    split at hnext
    case isTrue => cases hnext
    case isFalse hstart =>
      cases hnext
      rw [hcompress]
      simp [startFails, hstart, hopen]
  | begun bytes ret => cases hnext

theorem playerCall_writeOk {s t : Player} {c : PlayerCall} (h : WriteOk s)
    (hturn : s.writing.isSome = c.goesOn) (hstep : playerCall s c = some t) : WriteOk t := by
  have hother (hgoes : c.goesOn = false) (hkeep : t.writing = s.writing) : WriteOk t := by
    refine writeOk_none (hkeep.trans ?_)
    rw [hgoes] at hturn
    simpa using hturn
  cases c with
  | setCallback =>
    rw [playerCall] at hstep
    split at hstep
    case isFalse => cases hstep
    case isTrue =>
      cases hstep
      exact hother rfl rfl
  | write answers bytes =>
    cases hstep
    intro writing hw
    simp only [outCompressWrite] at hw ⊢
    split at hw
    case isTrue => cases hw
    case isFalse hpos =>
      cases hw
      exact ⟨openOutputCompress_open hpos, by simp⟩
  | writeOn answers =>
    obtain ⟨writing, hw, hrequest⟩ := Option.bind_eq_some_iff.mp hstep
    obtain ⟨hout, -, -, hwriting⟩ := request_eq hrequest
    exact writeOk_on h hw hwriting hout
  | drain answers early => exact hother rfl (request_eq hstep).2.2.2
  | closeSignal | closeJoin | work => cases hstep
  | _ =>
    cases hstep
    exact hother rfl rfl

/-- The worker may clear `started`, and does not set it. -/
theorem workPlayer_writeOk {s t : Player} {async : AsyncCommon} (h : WriteOk s)
    (hstep : workPlayer s async = some t) : WriteOk t := by
  have hserve (mode : AsyncMode) : WriteOk (serve s mode) := by
    unfold serve
    cases s.serving with
    | fresh => cases mode <;> exact h
    | drained => exact fun writing hw => ⟨(h writing hw).1, fun _ _ _ => rfl⟩
    | _ => exact h
  unfold workPlayer at hstep
  split at hstep
  · split at hstep
    · obtain ⟨_, -, rfl⟩ := Option.map_eq_some_iff.mp hstep
      exact h
    · cases hstep
      exact hserve _
  · obtain ⟨_, -, rfl⟩ := Option.map_eq_some_iff.mp hstep
    exact h

theorem WriteOk.step {s t : Player} {c : PlayerCall} (h : WriteOk s) (hstep : playerStep s c = some t) :
    WriteOk t := by
  cases playerStep_cases hstep with
  | call _ hturn hcall => exact playerCall_writeOk h hturn hcall
  | work _ hwork => exact workPlayer_writeOk h hwork
  | leave _ hout _ hwriting _ _ =>
    intro writing hw
    rw [hout]
    exact h writing (hwriting ▸ hw)

theorem Player.inside_iff (s : Player) : s.inside = true ↔ ∃ on, s.serving.inside = some on := by
  rw [Player.inside, Option.isSome_iff_exists]

/-- A step that leaves the worker where it is. It keeps soundness if it is sound itself, and
leaves the device that the worker may be inside of. -/
theorem sound_call {s t : Player} {p q : Prop} (h : PlayerOk s) (hserving : t.serving = s.serving)
    (hcarries : Carries p s.out t.out)
    (hkeeps : s.out.compress.isSome → (t.out.compress = s.out.compress ↔ q)) :
    t.Sound ↔ s.Sound ∧ p ∧ (s.inside = true → q) := by
  have howned := hcarries.owned h.owned
  constructor
  · intro hsound
    obtain ⟨hdisciplined, hp⟩ := (hcarries.disciplined h.owned).mp hsound.disciplined
    have hsame (on : Option Nat) (hon : s.serving.inside = some on) :
        on = s.out.compress ∧ s.out.compress.isSome ∧ t.out.compress = s.out.compress := by
      obtain ⟨heq, hsome⟩ := (howned.mem_iff on).mp (hsound.inside on (hserving ▸ hon))
      obtain ⟨k, hk⟩ := Option.isSome_iff_exists.mp hsome
      rcases hcarries.compress with hsame | hnew
      · rw [hsame] at heq hsome
        exact ⟨heq, hsome, hsame⟩
      · have hlt := h.inside k (by rw [hon, heq, hk])
        have hle := hnew k hk
        omega
    refine ⟨⟨hdisciplined, ?_⟩, hp, ?_⟩
    · intro on hon
      obtain ⟨heq, hsome, -⟩ := hsame on hon
      exact (h.owned.mem_iff on).mpr ⟨heq, hsome⟩
    · intro hinside
      obtain ⟨on, hon⟩ := s.inside_iff.mp hinside
      obtain ⟨-, hsome, heq⟩ := hsame on hon
      exact (hkeeps hsome).mp heq
  · rintro ⟨hsound, hp, hq⟩
    refine ⟨(hcarries.disciplined h.owned).mpr ⟨hsound.disciplined, hp⟩, ?_⟩
    intro on hon
    have hon : s.serving.inside = some on := hserving ▸ hon
    obtain ⟨heq, hsome⟩ := (h.owned.mem_iff on).mp (hsound.inside on hon)
    have hcompress := (hkeeps hsome).mpr (hq (s.inside_iff.mpr ⟨on, hon⟩))
    exact (howned.mem_iff on).mpr (by rw [hcompress]; exact ⟨heq, hsome⟩)

/-- A step that moves the device does not move the worker. -/
theorem PlayerOk.call {s t : Player} {p : Prop} (h : PlayerOk s) (hserving : t.serving = s.serving)
    (hcarries : Carries p s.out t.out) (hplays : Plays t.out)
    (hclosed : t.stage ≠ .playing → t.out.compress = none) : PlayerOk t where
  owned := hcarries.owned h.owned
  plays := hplays
  inside := by
    intro k hk
    have hlt := h.inside k (hserving ▸ hk)
    have hle := hcarries.opened
    omega
  closed := hclosed

/-- A call that keeps the device. -/
theorem sound_same {s t : Player} {p : Prop} (h : PlayerOk s) (hstage : s.stage = .playing)
    (hserving : t.serving = s.serving) (hkeep : t.stage = s.stage) (hstays : Stays p s.out t.out) :
    PlayerOk t ∧ (t.Sound ↔ s.Sound ∧ p) := by
  have hplays : Plays t.out := fun hs => by
    rw [hstays.same]
    exact h.plays (hstays.started hs)
  refine ⟨h.call hserving hstays.toCarries hplays fun hnot => absurd (hkeep.trans hstage) hnot, ?_⟩
  rw [sound_call h hserving hstays.toCarries fun _ => iff_of_true hstays.same trivial]
  simp

/-- A call that closes the device unless `q` holds. -/
theorem sound_closes {s t : Player} {q : Prop} (h : PlayerOk s) (hserving : t.serving = s.serving)
    (hcarries : Carries True s.out t.out) (hplays : Plays t.out)
    (hclosed : t.stage ≠ .playing → t.out.compress = none) [Decidable q]
    (hcompress : s.out.compress.isSome → t.out.compress = if q then s.out.compress else none) :
    PlayerOk t ∧ (t.Sound ↔ s.Sound ∧ (s.inside = true → q)) := by
  refine ⟨h.call hserving hcarries hplays hclosed, ?_⟩
  rw [sound_call h hserving hcarries (q := q), true_and]
  intro hopen
  obtain ⟨k, hk⟩ := Option.isSome_iff_exists.mp hopen
  rw [hcompress hopen, hk]
  split <;> simp_all

/-- What one call of the framework comes to. -/
theorem playerCall_sound {s t : Player} {c : PlayerCall} (h : PlayerOk s) (hwrites : WriteOk s)
    (hstage : s.stage = .playing) (hstep : playerCall s c = some t) :
    PlayerOk t ∧ (t.Sound ↔ s.Sound ∧ strays s c = false) := by
  have hplaying {t : Player} (hkeep : t.stage = s.stage) : t.stage ≠ .playing →
      t.out.compress = none := fun hnot => absurd (hkeep.trans hstage) hnot
  have hkept {t : Player} (hserving : t.serving = s.serving) (hkeep : t.stage = s.stage)
      (hstays : Stays True s.out t.out) : PlayerOk t ∧ (t.Sound ↔ s.Sound ∧ false = false) := by
    rw [eq_self]
    exact sound_same h hstage hserving hkeep hstays
  cases c with
  | setCallback =>
    rw [playerCall] at hstep
    split at hstep
    case isFalse => cases hstep
    case isTrue =>
      cases hstep
      exact hkept rfl rfl ⟨.same rfl rfl rfl, rfl, id⟩
  | write answers bytes =>
    cases hstep
    have hcloses := @sound_closes s
      { s with out := (openOutputCompress answers s.out).2,
               writing := (outCompressWrite answers s.out bytes).1.getRight? }
      True h rfl (carries_openOutput answers s.out) (openOutputCompress_plays answers h.plays)
      (hplaying rfl) _ fun hopen => by rw [openOutputCompress_idle answers hopen, if_pos trivial]
    refine ⟨hcloses.1, hcloses.2.trans ?_⟩
    simp [strays]
  | writeOn answers =>
    obtain ⟨writing, hw, hrequest⟩ := Option.bind_eq_some_iff.mp hstep
    obtain ⟨hout, hserving, hkeep, -⟩ := request_eq hrequest
    have hopen := (hwrites writing hw).1
    have hcarries := carries_writeOn answers hopen writing
    have hplays := outCompressWriteOn_plays answers hopen writing
    rw [← hout] at hcarries hplays
    have hcloses := sound_closes h hserving hcarries hplays (hplaying hkeep)
      (q := startFails answers s.out writing = false) fun _ => by
        rw [hout, outCompressWriteOn_compress answers s.out writing]
        cases startFails answers s.out writing <;> rfl
    refine ⟨hcloses.1, hcloses.2.trans ?_⟩
    cases hi : s.inside <;> simp [strays, hi, hw]
  | pause answers =>
    cases hstep
    exact hkept rfl rfl (stays_pause answers s.out)
  | resume answers =>
    cases hstep
    exact hkept rfl rfl (stays_resume answers s.out)
  | drain answers early =>
    obtain ⟨hout, hserving, hkeep, -⟩ := request_eq hstep
    have hdrained := stays_drainAtOnce answers s.out early
    unfold outCompressDrain at hout
    cases hasync : s.out.useAsync with
    | true =>
      have hstray : strays s (.drain answers early) = false := by simp [strays, hasync]
      rw [hasync, if_pos rfl] at hout
      rw [hstray]
      exact hkept hserving hkeep (hout ▸ .refl s.out)
    | false =>
      rw [hasync, if_neg Bool.false_ne_true] at hout
      dsimp only at hout
      rw [← hout] at hdrained
      have hsame := sound_same h hstage hserving hkeep hdrained
      refine ⟨hsame.1, hsame.2.trans ?_⟩
      simp [strays, hasync, Option.isSome_iff_ne_none]
  | flush =>
    cases hstep
    exact hkept rfl rfl (stays_flush s.out)
  | getRenderPosition =>
    cases hstep
    exact hkept rfl rfl (stays_position h.plays)
  | setParameters delay padding =>
    cases hstep
    exact hkept rfl rfl ⟨.same rfl rfl rfl, rfl, id⟩
  | standby =>
    cases hstep
    have hcloses := @sound_closes s { s with out := doStandbyCompressL s.out }
      (s.out.paused = true) h rfl (carries_standby s.out) (doStandbyCompressL_plays h.plays)
      (hplaying rfl) _ fun _ => doStandbyCompressL_compress s.out
    refine ⟨hcloses.1, hcloses.2.trans ?_⟩
    cases hi : s.inside <;> simp [strays, hi]
  | close =>
    cases hstep
    have hunpaused : Carries True s.out { s.out with paused := false } := .same rfl rfl rfl
    have hplays : Plays { s.out with paused := false } := h.plays
    have hnone : (outCompressClose s.out).compress = none := doStandbyCompressL_compress _
    have hcloses := @sound_closes s { s with out := outCompressClose s.out, stage := .closing }
      False h rfl (hunpaused.then (carries_standby _)) (doStandbyCompressL_plays hplays)
      (fun _ => hnone) _ fun _ => hnone
    refine ⟨hcloses.1, hcloses.2.trans ?_⟩
    cases hi : s.inside <;> simp [strays, hi]
  | closeSignal | closeJoin | work => cases hstep

theorem begins_eq {s : Player} {async : AsyncCommon} {mode : AsyncMode}
    (hasync : s.async = some async) (hw : async.worker = .working mode) :
    s.begins = ((s.serving = .fresh && mode ≠ .none) || s.serving = .nextTrack) := by
  unfold Player.begins
  rw [hasync, Option.any_some, hw]

/-- A call of the worker: the device has to be there, and the worker may stay inside. -/
theorem sound_begins {s t : Player} (h : PlayerOk s) (hstage : t.stage = s.stage)
    (hnot : s.inside = false) (call : ComprCall) (hcall : call.inner)
    (hout : t.out = s.out.note call)
    (hserving : ∀ on, t.serving.inside = some on → on = s.out.compress) :
    PlayerOk t ∧ (t.Sound ↔ s.Sound ∧ s.out.compress.isSome = true) := by
  have hcarries := carries_noteOn s.out hcall s.out.compress
  have howned := hcarries.owned h.owned
  have hdisciplined := hcarries.disciplined h.owned
  have hfree (on : Option Nat) : s.serving.inside ≠ some on := by
    intro hon
    rw [s.inside_iff.mpr ⟨on, hon⟩] at hnot
    cases hnot
  have hmem := howned.mem_iff
  change t.out = s.out.noteOn call s.out.compress at hout
  rw [← hout] at howned hdisciplined hmem
  have hsame : t.out.compress = s.out.compress := by rw [hout]; rfl
  refine ⟨⟨howned, ?_, ?_, ?_⟩, ?_⟩
  · intro hs
    rw [hout] at hs ⊢
    exact h.plays hs
  · intro k hk
    rw [hout]
    exact h.owned.numbered (hserving (some k) hk).symm
  · rw [hstage, hsame]
    exact h.closed
  · constructor
    · intro hsound
      obtain ⟨hd, -, hsome⟩ := hdisciplined.mp hsound.disciplined
      exact ⟨⟨hd, fun on hon => absurd hon (hfree on)⟩, hsome⟩
    · rintro ⟨hsound, hsome⟩
      refine ⟨hdisciplined.mpr ⟨hsound.disciplined, rfl, hsome⟩, ?_⟩
      intro on hon
      rw [hmem on, hsame]
      exact ⟨hserving on hon, hsome⟩

/-- The call that the worker is inside of comes to its end. -/
theorem sound_ends {s t : Player} (h : PlayerOk s) (hstage : t.stage = s.stage) {on : Option Nat}
    (hinside : s.serving.inside = some on) (call : ComprCall) (hcall : call.inner)
    (hout : t.out = s.out.noteOn call on) (hserving : ∀ on, t.serving.inside ≠ some on) :
    PlayerOk t ∧ (t.Sound ↔ s.Sound) := by
  have hcarries := carries_noteOn s.out hcall on
  have howned := hcarries.owned h.owned
  have hdisciplined := hcarries.disciplined h.owned
  rw [← hout] at howned hdisciplined
  refine ⟨⟨howned, ?_, fun k hk => absurd hk (hserving _), ?_⟩, ?_⟩
  · rw [hout]
    exact h.plays
  · rw [hstage, hout]
    exact h.closed
  · constructor
    · intro hsound
      obtain ⟨hd, hon⟩ := hdisciplined.mp hsound.disciplined
      refine ⟨hd, ?_⟩
      intro on' hon'
      cases hinside.symm.trans hon'
      exact (h.owned.mem_iff on).mpr hon
    · intro hsound
      refine ⟨hdisciplined.mpr ⟨hsound.disciplined, ?_⟩, fun on hon => absurd hon (hserving on)⟩
      exact (h.owned.mem_iff on).mp (hsound.inside on hinside)

/-- A step of the worker outside the library. -/
theorem sound_quiet {s t : Player} (h : PlayerOk s)
    (hstage : t.stage = s.stage ∨ s.stage ≠ .playing)
    (hserving : ∀ on, t.serving.inside = some on ↔ s.serving.inside = some on)
    (hout : Stays True s.out t.out) (hcalls : t.out.uses = s.out.uses) :
    PlayerOk t ∧ (t.Sound ↔ s.Sound) := by
  refine ⟨⟨hout.owned h.owned, ?_, ?_, ?_⟩, ?_⟩
  · intro hs
    rw [hout.same]
    exact h.plays (hout.started hs)
  · intro k hk
    exact Nat.lt_of_lt_of_le (h.inside k ((hserving _).mp hk)) hout.opened
  · intro hnot
    rw [hout.same]
    rcases hstage with hsame | hclosing
    · exact h.closed (hsame ▸ hnot)
    · exact h.closed hclosing
  · constructor
    · intro hsound
      exact ⟨hcalls ▸ hsound.disciplined, fun on hon =>
        hcalls ▸ hsound.inside on ((hserving on).mpr hon)⟩
    · intro hsound
      exact ⟨hcalls ▸ hsound.disciplined, fun on hon =>
        hcalls ▸ hsound.inside on ((hserving on).mp hon)⟩

theorem serve_sound {s : Player} (h : PlayerOk s) {async : AsyncCommon} {mode : AsyncMode}
    (hasync : s.async = some async) (hw : async.worker = .working mode)
    (hserved : s.serving ≠ .served) :
    PlayerOk (serve s mode) ∧ ((serve s mode).Sound ↔ s.Sound ∧ strays s .work = false) := by
  have hbegins := begins_eq hasync hw
  have hstray (hb : s.begins = true) : strays s .work = false ↔ s.out.compress.isSome = true := by
    simp [strays, hb, Option.isSome_iff_ne_none]
  have hquiet (hb : s.begins = false) : strays s .work = false := by simp [strays, hb]
  unfold serve
  cases hserving : s.serving with
  | fresh =>
    have hnot : s.inside = false := by simp [Player.inside, hserving]
    cases mode with
    | none =>
      have hstay := sound_quiet (t := serveFirst s .none) h (.inl rfl)
        (by simp [serveFirst, hserving]) (.refl _) rfl
      rw [hquiet (by simp [hbegins, hserving]), eq_self, and_true]
      exact hstay
    | poll =>
      rw [hstray (by simp [hbegins, hserving])]
      exact sound_begins h rfl hnot .waitBegin (by decide) rfl fun on hon => by
        cases hon
        rfl
    | earlyDrain =>
      rw [hstray (by simp [hbegins, hserving])]
      exact sound_begins h rfl hnot .nextTrack (by decide) rfl fun on hon => nomatch hon
    | fullDrain =>
      rw [hstray (by simp [hbegins, hserving])]
      exact sound_begins h rfl hnot .drainBegin (by decide) rfl fun on hon => by
        cases hon
        rfl
  | nextTrack =>
    have hnot : s.inside = false := by simp [Player.inside, hserving]
    rw [hstray (by simp [hbegins, hserving])]
    exact sound_begins h rfl hnot .drainBegin (by decide) rfl fun on hon => by
      cases hon
      rfl
  | waiting on =>
    have hinside : s.serving.inside = some on := by rw [hserving]; rfl
    rw [hquiet (by simp [hbegins, hserving]), eq_self, and_true]
    exact sound_ends h rfl hinside .waitEnd (by decide) rfl fun on hon => nomatch hon
  | draining on =>
    have hinside : s.serving.inside = some on := by rw [hserving]; rfl
    rw [hquiet (by simp [hbegins, hserving]), eq_self, and_true]
    exact sound_ends h rfl hinside .drainEnd (by decide) rfl fun on hon => nomatch hon
  | drained =>
    rw [hquiet (by simp [hbegins, hserving]), eq_self, and_true]
    exact sound_quiet h (.inl rfl) (by simp [hserving])
      ⟨.same rfl rfl rfl, rfl, fun hs => nomatch hs⟩ rfl
  | served => exact absurd hserving hserved

/-- What a step of the worker comes to. -/
theorem workPlayer_sound {s t : Player} (h : PlayerOk s) {async : AsyncCommon}
    (hasync : s.async = some async) (hstep : workPlayer s async = some t) :
    PlayerOk t ∧ t.stage = s.stage ∧ (t.Sound ↔ s.Sound ∧ strays s .work = false) := by
  have hmoves {serving : Serving} {async' : AsyncCommon} (hbegins : s.begins = false)
      (hserving : ∀ on, serving.inside = some on ↔ s.serving.inside = some on) :
      PlayerOk { s with async := some async', serving := serving } ∧
        (Player.Sound { s with async := some async', serving := serving } ↔
          s.Sound ∧ strays s .work = false) := by
    have hquiet : strays s .work = false := by simp [strays, hbegins]
    rw [hquiet, eq_self, and_true]
    exact sound_quiet h (.inl rfl) hserving (.refl _) rfl
  have hidle (hnot : ∀ mode, async.worker ≠ .working mode) : s.begins = false := by
    unfold Player.begins
    rw [hasync, Option.any_some]
    cases hw : async.worker with
    | working mode => exact absurd hw (hnot mode)
    | _ => rfl
  unfold workPlayer at hstep
  split at hstep
  case h_1 mode hw =>
    split at hstep
    case isTrue hserved =>
      obtain ⟨async', -, rfl⟩ := Option.map_eq_some_iff.mp hstep
      obtain ⟨hok, hsound⟩ := @hmoves .fresh async' (by simp [begins_eq hasync hw, hserved])
        (by simp [hserved])
      exact ⟨hok, rfl, hsound⟩
    case isFalse hserved =>
      cases hstep
      obtain ⟨hok, hsound⟩ := serve_sound h hasync hw hserved
      exact ⟨hok, (serve_same s mode).1, hsound⟩
  case h_2 hnot =>
    obtain ⟨async', -, rfl⟩ := Option.map_eq_some_iff.mp hstep
    obtain ⟨hok, hsound⟩ := @hmoves s.serving async' (hidle fun mode hw => hnot mode hw)
      (fun _ => Iff.rfl)
    exact ⟨hok, rfl, hsound⟩

theorem playerStep_sound {s t : Player} {c : PlayerCall} (h : PlayerOk s) (hwrites : WriteOk s)
    (hstep : playerStep s c = some t) :
    PlayerOk t ∧ (t.Sound ↔ s.Sound ∧ strays s c = false) := by
  cases playerStep_cases hstep with
  | call hstage _ hcall => exact playerCall_sound h hwrites hstage hcall
  | work hasync hwork =>
    obtain ⟨hok, -, hsound⟩ := workPlayer_sound h hasync hwork
    exact ⟨hok, hsound⟩
  | leave hstage hout hserving _ hc _ =>
    have hquiet : strays s c = false := by rcases hc with rfl | rfl <;> rfl
    rw [hquiet, eq_self, and_true]
    exact sound_quiet h (.inr (by simp [hstage])) (fun on => by rw [hserving])
      (hout ▸ .refl s.out) (by rw [hout])

/-- The player of a stream that has just been opened. -/
theorem newPlayer_ok (answers : ComprAnswers) :
    PlayerOk (newPlayer answers) ∧ (newPlayer answers).Sound := by
  let idle : StreamOutCompress :=
    ⟨none, false, false, false, 0, false, ⟨0#32, 0#32⟩, 0, []⟩
  have hidle : Owned idle := ⟨holding_nil, fun _ _ => List.not_mem_nil, once_nil⟩
  have hcarries := carries_openOutput { answers with ready := true } idle
  refine ⟨⟨hcarries.owned hidle, ?_, ?_, fun hnot => absurd rfl hnot⟩, ?_, ?_⟩
  · exact fun hs => nomatch hs
  · exact fun k hk => nomatch hk
  · exact (hcarries.disciplined hidle).mpr ⟨trivial, trivial⟩
  · exact fun on hon => nomatch hon

end Sound

/-- The devices of a player: each is opened once and closed at most once, only the stream's own
is open, and none once the stream is being closed. -/
structure Player.Orderly (s : Player) : Prop where
  order : Holding (s.out.uses.filter Use.moves) (s.out.compress.toList.map some)
  once : Once s.out.uses
  closed : s.stage ≠ .playing → s.out.compress = none

/-- The devices of a player are in order whatever the framework and the worker do. No call is
made on a missing or closed device, and none is closed while the worker is inside of it, exactly
if no step strays. -/
theorem player_sound_iff (answers : ComprAnswers) (calls : List PlayerCall) {t : Player}
    (hrun : run playerStep (newPlayer answers) calls = some t) :
    t.Orderly ∧
      (t.Sound ↔ Along playerStep (fun s c _ => strays s c = false) (newPlayer answers) calls) := by
  obtain ⟨hok, hsound⟩ := newPlayer_ok answers
  have hsteps (s : Player) (c : PlayerCall) (t : Player) (h : PlayerOk s ∧ WriteOk s)
      (hstep : playerStep s c = some t) :
      (PlayerOk t ∧ WriteOk t) ∧ (t.Sound ↔ s.Sound ∧ strays s c = false) := by
    obtain ⟨hnext, hiff⟩ := playerStep_sound h.1 h.2 hstep
    exact ⟨⟨hnext, h.2.step hstep⟩, hiff⟩
  obtain ⟨⟨hend, -⟩, hiff⟩ :=
    along_iff (fun s => PlayerOk s ∧ WriteOk s) hsteps ⟨hok, writeOk_none rfl⟩ hrun
  refine ⟨⟨hend.owned.holding, hend.owned.once, hend.closed⟩, hiff.trans ?_⟩
  exact and_iff_right hsound

/-- A write that starts the device, from its beginning to its end. -/
def wholeWrite (answers : ComprAnswers) (bytes : Nat) : List PlayerCall :=
  .write answers bytes :: List.replicate 4 (.writeOn answers)

/-- A drain is under way when the framework puts the stream in standby. -/
def standbyInDrain : List PlayerCall :=
  let answers : ComprAnswers := ⟨true, 4096, 4, 4096, 0, 0, 0⟩
  .setCallback :: wholeWrite answers 4096 ++
    [.work, .work, .drain answers false, .work, .work, .standby]

/-- The worker is inside `compress_drain` on a device that has been closed. -/
theorem standbyInDrain_unsound : ∃ t,
    run playerStep (newPlayer ⟨true, 4096, 4, 0, 0, 0, 0⟩) standbyInDrain = some t ∧
      t.Orderly ∧ ¬ t.Sound := by
  obtain ⟨t, hrun⟩ : ∃ t,
      run playerStep (newPlayer ⟨true, 4096, 4, 0, 0, 0, 0⟩) standbyInDrain = some t := by
    rw [← Option.isSome_iff_exists]
    decide
  obtain ⟨horderly, hiff⟩ := player_sound_iff ⟨true, 4096, 4, 0, 0, 0, 0⟩ standbyInDrain hrun
  refine ⟨t, hrun, horderly, ?_⟩
  rw [hiff]
  decide

end TinyHal
