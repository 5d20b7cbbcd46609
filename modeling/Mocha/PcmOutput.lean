import Mocha.AudioTiming
import Mocha.PcmClients

/-!
# PCM output streams

`out_pcm_write` opens the PCM of a stream in standby and writes to it, `do_out_pcm_standby`
closes it. The stream's lock makes each call one step, but a write looks at the route before it
takes the lock: the route may be gone, and other calls may be done, when it has the lock.
-/
namespace TinyHal.PcmOutput

open Custody Transition
open Timing (outPcmCfgChannelCount outPcmCfgPeriodSize outPcmCfgPeriodCount outPcmFillParams)
open TinyAlsa (PcmDevice PcmConfig PcmFlags PcmObject Kernel Answer pcmOpen pcmClose pcmWrite
  pcmIsReady uses taken intMax)

variable {α : Type}

section Model

/-- `bad_pcm` is `none`, like the null pointer. The pointer may dangle in standby. -/
structure StreamOutPcm where
  common : Timing.StreamOut
  pcm : Option PcmDevice
  deriving DecidableEq, Repr

/-- An output stream on its hardware stream, with the writes that have found a route and wait for
the lock. `opened` counts the calls of `pcm_open`; `written` is history: what the framework has
written, and what it was told. -/
structure Output (α : Type) where
  hw : Stream
  out : StreamOutPcm
  opened : Nat
  kernel : Kernel α
  closed : Bool
  entered : List (List α)
  written : List (List α × Int)
  deriving DecidableEq, Repr

def Output.standby (s : Output α) : Bool := s.out.common.output.standby

def Output.setStandby (s : Output α) (standby : Bool) : Output α :=
  { s with out := { s.out with common := { s.out.common with
      output := { s.out.common.output with standby := standby } } } }

def playbackFlags : PcmFlags := ⟨false, false, false, false, false⟩

def pcmConfig (hw : Stream) (common : Timing.StreamOut) : PcmConfig where
  channels := outPcmCfgChannelCount common
  rate := hw.rate
  periodSize := outPcmCfgPeriodSize hw
  periodCount := outPcmCfgPeriodCount hw
  format := .s16Le
  startThreshold := 0
  stopThreshold := 0
  silenceThreshold := 0

def doOutPcmStandby (s : Output α) : Output α :=
  if s.standby then s
  else
    { s with
      out := { s.out with pcm := none }
      kernel := s.out.pcm.elim s.kernel fun p => pcmClose p s.kernel }.setStandby true

/-- A PCM that is not ready is closed at once, and the pointer to it stays. -/
def startOutputPcm (s : Output α) : Int × Output α :=
  let done := pcmOpen s.opened (s.hw.cardNumber.getD 0#8).toNat (s.hw.deviceNumber.getD 0#8).toNat
    playbackFlags (pcmConfig s.hw s.out.common) s.kernel
  let s := { s with
    out := { s.out with pcm := done.1 }
    opened := s.opened + 1
    kernel := done.2.2 }
  if done.1.any pcmIsReady then
    let config := done.2.1
    let common := outPcmFillParams s.out.common
      ⟨config.channels, config.rate, config.periodSize, config.periodCount⟩
    (0, { s with out := { s.out with common := common } })
  else (-enomem, { s with kernel := done.1.elim s.kernel fun p => pcmClose p s.kernel })

/-- The head of `out_pcm_write`, without the lock: nothing is written to nowhere. -/
def enterWrite (s : Output α) (data : List α) : Output α :=
  if s.hw.currentDevices = 0#32 then { s with written := s.written ++ [(data, 0)] }
  else { s with entered := s.entered ++ [data] }

/-- The first part of a write with the lock. -/
def leaveStandby (s : Output α) : Int × Output α :=
  if s.standby then
    let started := startOutputPcm s
    if started.1 ≠ 0 then started else (0, started.2.setStandby false)
  else (0, s)

/-- The part of `out_pcm_write` with the lock. `none` is a write through the null pointer. -/
def outPcmWrite (s : Output α) (data : List α) : Option (Int × Output α) :=
  let started := leaveStandby s
  if started.1 ≠ 0 then some started
  else
    let s := started.2
    s.out.pcm.map fun p =>
      let done := pcmWrite p data s.kernel
      (if done.1 ≥ 0 then TinyAlsa.toInt data.length else done.1,
        { s with out := { s.out with pcm := some done.2.1 }, kernel := done.2.2 })

/-- A write begins, and later the `n`-th of those that wait gets the lock. -/
inductive OutputCall (α : Type) where
  | write (data : List α)
  | locked (n : Nat)
  | standby
  | route (devices : BitVec 32)
  | close
  deriving DecidableEq, Repr

/-- Each step comes with the kernel's answers. The framework does not close a stream while it is in
a write. -/
def outputStep (s : Output α) (c : OutputCall α × List Answer) : Option (Output α) :=
  let s := { s with kernel := { s.kernel with answers := c.2 } }
  if s.closed then none
  else match c.1 with
    | .write data => some (enterWrite s data)
    | .locked n => (s.entered[n]?).bind fun data =>
        (outPcmWrite { s with entered := s.entered.eraseIdx n } data).map fun done =>
          { done.2 with written := done.2.written ++ [(data, done.1)] }
    | .standby => some (doOutPcmStandby s)
    | .route devices => some { s with hw := { s.hw with currentDevices := devices } }
    | .close => if s.entered = [] then some { doOutPcmStandby s with closed := true } else none

/-- What `do_init_out_common` and `do_init_out_pcm` have set up. -/
def newOutput (hw : Stream) (common : Timing.StreamOut) : Output α where
  hw := hw
  out := ⟨{ common with output := { common.output with standby := true } }, none⟩
  opened := 0
  kernel := ⟨[], 0, []⟩
  closed := false
  entered := []
  written := []

/-- The frames of the writes that were reported as done. -/
def played (channels : Nat) (written : List (List α × Int)) : List α :=
  written.flatMap fun w =>
    if 0 < w.2 then w.1.take (w.1.length / (channels * 2) * (channels * 2)) else []

end Model

section Plays

theorem played_append (channels : Nat) (written more : List (List α × Int)) :
    played channels (written ++ more) = played channels written ++ played channels more :=
  List.flatMap_append

/-- What a write of these frames gives the driver, by its result. -/
theorem played_write {config : PcmConfig} {channels : Nat} (hchannels : config.channels = channels)
    (hformat : config.format = .s16Le) {data : List α} (hsize : data.length ≤ intMax) {r : Int}
    (hr : r ≤ 0) :
    played channels [(data, if r ≥ 0 then TinyAlsa.toInt data.length else r)] =
      if r = 0 then config.whole data else [] := by
  have hframe : config.frameBytes = channels * 2 := by
    rw [PcmConfig.frameBytes, hchannels, hformat]
    simp only [TinyAlsa.pcmFormatToBits]
    omega
  have hlength : TinyAlsa.toInt data.length = data.length := by
    unfold intMax at hsize
    exact TinyAlsa.toInt_of_range (n := (data.length : Int)) (by omega) (by omega)
  by_cases h0 : r = 0
  · subst h0
    rw [if_pos (Int.le_refl 0), hlength, if_pos rfl, PcmConfig.whole, hframe]
    cases data with
    | nil => simp [played]
    | cons a data => simp [played]
  · rw [if_neg (by omega), if_neg h0]
    simp [played, show ¬ 0 < r by omega]

/-- A ready PCM that has been opened for this stream. -/
structure Ready (s : Output α) (p : PcmDevice) : Prop where
  pcm : s.out.pcm = some p
  fd : p.fd = true
  marked : p.Marked false
  mmapBuffer : p.mmapBuffer = false
  flags : p.flags = playbackFlags
  channels : p.config.channels = outPcmCfgChannelCount s.out.common
  format : p.config.format = .s16Le

structure Output.Ok (s : Output α) : Prop where
  disciplined : Disciplined (uses s.kernel.log)
  idle : s.standby = true → outstanding (uses s.kernel.log) = []
  active : s.standby = false → ∃ p, Ready s p ∧ outstanding (uses s.kernel.log) = p.held
  closed : s.closed = true → s.standby = true
  taken : taken s.kernel.log = played (outPcmCfgChannelCount s.out.common) s.written

/-- The answers of a call are nobody's concern before it. -/
theorem Output.Ok.answered {s : Output α} (h : s.Ok) (answers : List Answer) :
    ({ s with kernel := { s.kernel with answers := answers } } : Output α).Ok :=
  ⟨h.disciplined, h.idle, fun hactive => by
    obtain ⟨p, hp, hheld⟩ := h.active hactive
    exact ⟨p, ⟨hp.pcm, hp.fd, hp.marked, hp.mmapBuffer, hp.flags, hp.channels, hp.format⟩, hheld⟩,
    h.closed, h.taken⟩

/-- A stream in standby holds nothing, whatever its pointer says. -/
theorem Output.Ok.ofIdle {s : Output α} (hstandby : s.standby = true)
    (hdisciplined : Disciplined (uses s.kernel.log)) (hnone : outstanding (uses s.kernel.log) = [])
    (htaken : TinyAlsa.taken s.kernel.log = played (outPcmCfgChannelCount s.out.common) s.written) :
    s.Ok where
  disciplined := hdisciplined
  idle _ := hnone
  active hactive := by
    rw [hstandby] at hactive
    cases hactive
  closed _ := hstandby
  taken := htaken

/-- Closing a PCM whose buffer is not mapped. -/
theorem pcmClose_gives {p : PcmDevice} (hbuffer : p.mmapBuffer = false) {k : Kernel α}
    (hdisciplined : Disciplined (uses k.log)) (hheld : outstanding (uses k.log) = p.held) :
    Disciplined (uses (pcmClose p k).log) ∧ outstanding (uses (pcmClose p k).log) = [] ∧
      TinyAlsa.taken (pcmClose p k).log = TinyAlsa.taken k.log := by
  obtain ⟨more, hmore⟩ := TinyAlsa.pcmClose_closes (p := p) (by simp [hbuffer]) k
  rw [hmore.log, TinyAlsa.uses_append, disciplined_append, outstanding_append, hheld,
    hmore.disciplined, hmore.outstanding, TinyAlsa.taken_append, hmore.silent, List.append_nil]
  exact ⟨⟨hdisciplined, by simp [hbuffer]⟩, rfl, rfl⟩

theorem doOutPcmStandby_ok {s : Output α} (h : s.Ok) :
    (doOutPcmStandby s).Ok ∧ (doOutPcmStandby s).standby = true ∧
      (doOutPcmStandby s).closed = s.closed := by
  unfold doOutPcmStandby
  split
  case isTrue hstandby => exact ⟨h, hstandby, rfl⟩
  case isFalse hstandby =>
    obtain ⟨p, hp, hheld⟩ := h.active (Bool.eq_false_iff.mpr hstandby)
    obtain ⟨hdisciplined, hnone, htaken⟩ := pcmClose_gives hp.mmapBuffer h.disciplined hheld
    rw [hp.pcm]
    exact ⟨.ofIdle rfl hdisciplined hnone (htaken.trans h.taken), rfl, rfl⟩

/-- Starting a stream in standby gives a ready PCM, or nothing. -/
theorem startOutputPcm_ok {s : Output α} (h : s.Ok) (hstandby : s.standby = true)
    (hclosed : s.closed = false) : (startOutputPcm s).2.closed = s.closed ∧
      ((startOutputPcm s).1 = 0 ∧ ((startOutputPcm s).2.setStandby false).Ok ∨
        (startOutputPcm s).1 = -enomem ∧ (startOutputPcm s).2.Ok) := by
  obtain ⟨more, hmore⟩ := TinyAlsa.pcmOpen_opens s.opened (s.hw.cardNumber.getD 0#8).toNat
    (s.hw.deviceNumber.getD 0#8).toNat playbackFlags (pcmConfig s.hw s.out.common) s.kernel
  unfold startOutputPcm
  generalize pcmOpen s.opened (s.hw.cardNumber.getD 0#8).toNat (s.hw.deviceNumber.getD 0#8).toNat
    playbackFlags (pcmConfig s.hw s.out.common) s.kernel = done at hmore ⊢
  obtain ⟨pcm, config, k⟩ := done
  have hlog : k.log = s.kernel.log ++ more := hmore.log
  have hdisciplined : Disciplined (uses k.log) := by
    rw [hlog, TinyAlsa.uses_append, disciplined_append, h.idle hstandby]
    exact ⟨h.disciplined, hmore.disciplined⟩
  have hheld : outstanding (uses k.log) = pcm.elim [] PcmDevice.held := by
    rw [hlog, TinyAlsa.uses_append, outstanding_append, h.idle hstandby]
    exact hmore.outstanding
  have htaken : taken k.log = played (outPcmCfgChannelCount s.out.common) s.written := by
    rw [hlog, TinyAlsa.taken_append, hmore.silent, List.append_nil]
    exact h.taken
  have hunmapped : ∀ p, pcm = some p → p.mmapBuffer = false := by
    intro p hp
    cases hbuffer : p.mmapBuffer with
    | false => rfl
    | true =>
      rcases (hmore.opened p hp).mapped hbuffer with hflag | hflag
      · simp [TinyAlsa.newPcm, playbackFlags] at hflag
      · simp [TinyAlsa.newPcm] at hflag
  dsimp only
  split
  case isTrue hready =>
    refine ⟨rfl, .inl ⟨rfl, hdisciplined, by simp [Output.standby, Output.setStandby],
      fun _ => ?_, ?_, htaken⟩⟩
    · obtain ⟨p, rfl, hfd⟩ := Option.any_eq_true .. |>.mp hready
      have hopened := hmore.opened p rfl
      have hrunning : p.running = false := hopened.running
      have hprepared : p.prepared = false := hopened.prepared
      exact ⟨p, ⟨rfl, hfd, ⟨by simp [hrunning], by simp [hprepared], by simp⟩, hunmapped p rfl,
        hopened.flags, hopened.channels, hopened.format⟩, hheld⟩
    · intro hclosed'
      exact absurd hclosed' (by simp [Output.setStandby, hclosed])
  case isFalse hready =>
    refine ⟨rfl, .inr ⟨rfl, ?_⟩⟩
    cases pcm with
    | none => exact .ofIdle hstandby hdisciplined hheld htaken
    | some p =>
      obtain ⟨hclosed, hnone, hsame⟩ := pcmClose_gives (hunmapped p rfl) hdisciplined hheld
      exact .ofIdle hstandby hclosed hnone (hsame.trans htaken)

/-- A write to a ready PCM. -/
theorem write_ok {s : Output α} {p : PcmDevice} (h : s.Ok) (hactive : s.standby = false)
    (hp : s.out.pcm = some p) (data : List α) (hsize : data.length ≤ intMax) :
    let done := pcmWrite p data s.kernel
    ({ s with
      out := { s.out with pcm := some done.2.1 }
      kernel := done.2.2
      written := s.written ++
        [(data, if done.1 ≥ 0 then TinyAlsa.toInt data.length else done.1)] } : Output α).Ok := by
  obtain ⟨p', hready, hheld⟩ := h.active hactive
  cases hready.pcm.symm.trans hp
  obtain ⟨more, hmore⟩ := TinyAlsa.pcmWrite_writes hready.marked (by rw [hready.flags]; rfl)
    data s.kernel
  generalize pcmWrite p data s.kernel = done at hmore ⊢
  obtain ⟨r, q, k⟩ := done
  obtain ⟨htalks, hresult, hnew⟩ := hmore
  dsimp only at htalks hresult hnew ⊢
  obtain ⟨hdisciplined, hout⟩ := TinyAlsa.speaks_held htalks.speaks
  refine ⟨?_, ?_, fun _ => ⟨q, ?_, ?_⟩, h.closed, ?_⟩
  · rw [htalks.log, TinyAlsa.uses_append, disciplined_append, hheld]
    exact ⟨h.disciplined, hdisciplined⟩
  · intro hidle
    exact absurd hidle (by simpa [Output.standby] using hactive)
  · exact ⟨rfl, htalks.same.fd.trans hready.fd, htalks.marked.unlost,
      htalks.same.mmapBuffer.trans hready.mmapBuffer, htalks.same.flags.trans hready.flags,
      htalks.same.config ▸ hready.channels, htalks.same.config ▸ hready.format⟩
  · rw [htalks.log, TinyAlsa.uses_append, outstanding_append, hheld, hout, htalks.same.held]
  · rw [htalks.log, TinyAlsa.taken_append, hnew, h.taken, played_append]
    rw [played_write hready.channels hready.format hsize hresult]

/-- A write that the driver has not taken. -/
theorem Output.Ok.refused {s : Output α} (h : s.Ok) (data : List α) {r : Int} (hr : r ≤ 0) :
    ({ s with written := s.written ++ [(data, r)] } : Output α).Ok := by
  refine ⟨h.disciplined, h.idle, fun hactive => ?_, h.closed, ?_⟩
  · obtain ⟨p, hp, hheld⟩ := h.active hactive
    exact ⟨p, ⟨hp.pcm, hp.fd, hp.marked, hp.mmapBuffer, hp.flags, hp.channels, hp.format⟩, hheld⟩
  · have hnothing : played (outPcmCfgChannelCount s.out.common) [(data, r)] = [] := by
      simp [played, show ¬ 0 < r by omega]
    change TinyAlsa.taken s.kernel.log = played _ (s.written ++ [(data, r)])
    rw [played_append, hnothing, List.append_nil]
    exact h.taken

theorem leaveStandby_ok {s : Output α} (h : s.Ok) (hclosed : s.closed = false) :
    (leaveStandby s).2.Ok ∧ ((leaveStandby s).1 = 0 ∧ (leaveStandby s).2.standby = false ∨
      (leaveStandby s).1 = -enomem) := by
  unfold leaveStandby
  cases hstandby : s.standby with
  | false => exact ⟨h, .inl ⟨rfl, hstandby⟩⟩
  | true =>
    obtain ⟨-, ⟨hzero, hok⟩ | ⟨hfailed, hok⟩⟩ := startOutputPcm_ok h hstandby hclosed
    · simp only [hzero, if_true, ne_eq, not_true_eq_false, if_false]
      exact ⟨hok, .inl ⟨trivial, rfl⟩⟩
    · have hnonzero : (startOutputPcm s).1 ≠ 0 := by
        rw [hfailed]
        decide
      simp only [hnonzero, if_true, ne_eq, not_false_eq_true]
      exact ⟨hok, .inr hfailed⟩

/-- A write has a PCM to go to, and keeps the invariant if its size is an `int`. -/
theorem outPcmWrite_ok {s : Output α} (h : s.Ok) (hclosed : s.closed = false) (data : List α) :
    ∃ done, outPcmWrite s data = some done ∧ (data.length ≤ intMax →
      ({ done.2 with written := done.2.written ++ [(data, done.1)] } : Output α).Ok) := by
  unfold outPcmWrite
  obtain ⟨hok, hstarted⟩ := leaveStandby_ok h hclosed
  generalize leaveStandby s = started at hok hstarted ⊢
  obtain ⟨r, s'⟩ := started
  dsimp only at hok hstarted ⊢
  rcases hstarted with ⟨rfl, hactive⟩ | rfl
  · obtain ⟨p, hp, -⟩ := hok.active hactive
    rw [if_neg (by simp), hp.pcm]
    exact ⟨_, rfl, fun hsize => write_ok hok hactive hp.pcm data hsize⟩
  · rw [if_pos (by decide)]
    exact ⟨_, rfl, fun _ => hok.refused data (show (-enomem : Int) ≤ 0 by decide)⟩

/-- A write that waits for the lock is none of the device's concerns. -/
theorem Output.Ok.waits {s : Output α} (h : s.Ok) (entered : List (List α)) :
    ({ s with entered := entered } : Output α).Ok :=
  ⟨h.disciplined, h.idle, fun hactive => by
    obtain ⟨p, hp, hheld⟩ := h.active hactive
    exact ⟨p, ⟨hp.pcm, hp.fd, hp.marked, hp.mmapBuffer, hp.flags, hp.channels, hp.format⟩, hheld⟩,
    h.closed, h.taken⟩

theorem enterWrite_ok {s : Output α} (h : s.Ok) (data : List α) : (enterWrite s data).Ok := by
  unfold enterWrite
  split
  · exact h.refused data (Int.le_refl 0)
  · exact h.waits _

/-- The stream holds what its open PCM holds while it is active, and nothing in standby; each
object is used while it is held and given back once. The driver has taken, in order and once, the
whole frames of the writes that were reported as done. Until it is closed the stream can be
written to, and a write that waits gets through. -/
structure Output.Sound (s : Output α) : Prop where
  disciplined : Disciplined (uses s.kernel.log)
  outstanding : outstanding (uses s.kernel.log) =
    if s.standby then [] else s.out.pcm.elim [] PcmDevice.held
  closed : s.closed = true → s.standby = true
  taken : taken s.kernel.log = played (outPcmCfgChannelCount s.out.common) s.written
  writable : s.closed = false → ∀ data answers, (outputStep s (.write data, answers)).isSome = true
  through : s.closed = false → ∀ n answers, n < s.entered.length →
    (outputStep s (.locked n, answers)).isSome = true

theorem Output.Ok.sound {s : Output α} (h : s.Ok) : s.Sound where
  disciplined := h.disciplined
  outstanding := by
    cases hstandby : s.standby with
    | true => exact h.idle hstandby
    | false =>
      obtain ⟨p, hp, hheld⟩ := h.active hstandby
      rw [hp.pcm]
      exact hheld
  closed := h.closed
  taken := h.taken
  writable hclosed data answers := by
    rw [outputStep, if_neg (by simp [hclosed])]
    rfl
  through hclosed n answers hn := by
    obtain ⟨done, hdone, -⟩ := outPcmWrite_ok ((h.answered answers).waits (s.entered.eraseIdx n))
      hclosed (s.entered[n])
    rw [outputStep, if_neg (by simp [hclosed])]
    simp only [List.getElem?_eq_getElem hn, Option.bind_some]
    rw [hdone]
    rfl

/-- The size of a write is the framework's promise. -/
def fits : OutputCall α → Prop
  | .write data => data.length ≤ intMax
  | _ => True

instance : ∀ c : OutputCall α, Decidable (fits c)
  | .write data => inferInstanceAs (Decidable (data.length ≤ intMax))
  | .locked _ => isTrue trivial
  | .standby => isTrue trivial
  | .route _ => isTrue trivial
  | .close => isTrue trivial

/-- The writes that wait for the lock have sizes that fit. -/
def Output.Fitting (s : Output α) : Prop := ∀ data ∈ s.entered, data.length ≤ intMax

theorem leaveStandby_entered (s : Output α) : (leaveStandby s).2.entered = s.entered := by
  unfold leaveStandby startOutputPcm
  dsimp only
  split
  · split
    · split <;> rfl
    · split <;> rfl
  · rfl

theorem outPcmWrite_entered {s : Output α} {data : List α} {done : Int × Output α}
    (h : outPcmWrite s data = some done) : done.2.entered = s.entered := by
  have hentered := leaveStandby_entered s
  unfold outPcmWrite at h
  dsimp only at h
  split at h
  · cases h
    exact hentered
  · obtain ⟨p, -, rfl⟩ := Option.map_eq_some_iff.mp h
    exact hentered

theorem outputStep_fitting {s t : Output α} {c : OutputCall α × List Answer} (h : s.Fitting)
    (hstep : outputStep s c = some t) (hfits : fits c.1) : t.Fitting := by
  obtain ⟨call, answers⟩ := c
  unfold outputStep at hstep
  dsimp only at hstep
  split at hstep
  case isTrue => cases hstep
  case isFalse =>
    cases call with
    | write data =>
      cases hstep
      unfold enterWrite
      split
      · exact h
      · intro other hother
        rcases List.mem_append.mp hother with hold | hnew
        · exact h other hold
        · rw [List.mem_singleton.mp hnew]
          exact hfits
    | locked n =>
      obtain ⟨data, -, hwritten⟩ := Option.bind_eq_some_iff.mp hstep
      obtain ⟨done, hdone, rfl⟩ := Option.map_eq_some_iff.mp hwritten
      intro other hother
      have hentered := outPcmWrite_entered hdone
      change other ∈ done.2.entered at hother
      rw [hentered] at hother
      exact h other (List.mem_of_mem_eraseIdx hother)
    | standby =>
      cases hstep
      unfold doOutPcmStandby
      split
      · exact h
      · exact h
    | route devices =>
      cases hstep
      exact h
    | close =>
      obtain ⟨-, hclose⟩ := Option.ite_none_right_eq_some.mp hstep
      cases hclose
      unfold doOutPcmStandby
      split
      · exact h
      · exact h

theorem outputStep_ok {s t : Output α} {c : OutputCall α × List Answer} (h : s.Ok) (hs : s.Fitting)
    (hstep : outputStep s c = some t) : t.Ok := by
  obtain ⟨call, answers⟩ := c
  have hok := h.answered answers
  unfold outputStep at hstep
  dsimp only at hstep
  split at hstep
  case isTrue => cases hstep
  case isFalse hclosed =>
    cases call with
    | write data =>
      cases hstep
      exact enterWrite_ok hok data
    | locked n =>
      obtain ⟨data, hdata, hwritten⟩ := Option.bind_eq_some_iff.mp hstep
      obtain ⟨done, hdone, hkept⟩ := outPcmWrite_ok (hok.waits (s.entered.eraseIdx n))
        (Bool.eq_false_iff.mpr hclosed) data
      rw [hdone] at hwritten
      cases hwritten
      exact hkept (hs data (List.mem_of_getElem? hdata))
    | standby =>
      cases hstep
      exact (doOutPcmStandby_ok hok).1
    | route devices =>
      cases hstep
      refine ⟨hok.disciplined, hok.idle, fun hactive => ?_, hok.closed, hok.taken⟩
      obtain ⟨p, hp, hheld⟩ := hok.active hactive
      exact ⟨p, ⟨hp.pcm, hp.fd, hp.marked, hp.mmapBuffer, hp.flags, hp.channels, hp.format⟩, hheld⟩
    | close =>
      obtain ⟨-, hclose⟩ := Option.ite_none_right_eq_some.mp hstep
      cases hclose
      obtain ⟨hidle, hstandby, -⟩ := doOutPcmStandby_ok hok
      exact .ofIdle hstandby hidle.disciplined (hidle.idle hstandby) hidle.taken

theorem output_sound {α : Type} (hw : Stream) (common : Timing.StreamOut)
    (calls : List (OutputCall α × List Answer)) {t : Output α}
    (hfits : Along outputStep (fun _ c _ => fits c.1) (newOutput hw common) calls)
    (hrun : run outputStep (newOutput hw common) calls = some t) : t.Sound := by
  have hnew : (newOutput hw common : Output α).Ok := .ofIdle rfl trivial rfl rfl
  have hboth := hfits.invariant (fun s => s.Ok ∧ s.Fitting)
    (fun s c u h hstep hc => ⟨outputStep_ok h.1 h.2 hstep, outputStep_fitting h.2 hstep hc⟩)
    ⟨hnew, fun _ hnone => nomatch hnone⟩ hrun
  exact hboth.1.sound

def stereoOutput : Timing.StreamOut where
  output := ⟨0, true, 1#32, 0x3#32, 2, 44100, none⟩
  frameSize := 4
  bufferSize := 0
  latency := 0
  hwSampleRate := 0
  hwChannelCount := 0
  divisions := []

/-- A write without a route, one whose device cannot be opened, one that starts the device with a
frame and a half while the route is taken away, one that meets an underrun, and the end. -/
def busyOutput : List (OutputCall Nat × List Answer) :=
  [(.write [9, 9, 9, 9], []), (.route 0x2#32, []), (.write [8, 8, 8, 8], []),
    (.locked 0, [⟨0, 0, 0⟩, ⟨16, 0, 0⟩]), (.write [1, 2, 3, 4, 5, 6], []), (.route 0#32, []),
    (.locked 0, [⟨0, 0, 0⟩, ⟨0, 0, 0⟩, ⟨0, 0, 0⟩, ⟨0, 256, 4⟩]), (.route 0x2#32, []),
    (.write [7, 8, 9, 10], []), (.locked 0, [⟨TinyAlsa.epipe, 0, 0⟩]), (.close, [])]

theorem busyOutput_sound : ∃ t, run outputStep
    (newOutput { newStream with rate := 44100 } stereoOutput) busyOutput = some t ∧ t.Sound ∧
      taken t.kernel.log = [1, 2, 3, 4, 7, 8, 9, 10] := by
  obtain ⟨t, ht⟩ : ∃ t, run outputStep
      (newOutput { newStream with rate := 44100 } stereoOutput) busyOutput = some t := by
    rw [← Option.isSome_iff_exists]
    decide +kernel
  have htaken : (run outputStep (newOutput { newStream with rate := 44100 } stereoOutput)
      busyOutput).map (fun t => taken t.kernel.log) = some [1, 2, 3, 4, 7, 8, 9, 10] := by
    decide +kernel
  rw [ht] at htaken
  refine ⟨t, ht, ?_, Option.some.inj htaken⟩
  exact output_sound { newStream with rate := 44100 } stereoOutput busyOutput
    (by decide +kernel) ht

end Plays

end TinyHal.PcmOutput
