import Mocha.AudioParsed
import Mocha.AudioReferences

/-!
# The voice trigger state machine

`voice_trigger_enable` and the four other events, over the named streams of the
configuration manager. The machine's own references are recorded in `voiceLog`,
which is history. Other users of the manager come in between.

`do_voice_trigger_close_stream` leaves its pointer in place. That does no harm,
because every close follows an open; a second open without a close does.
-/
namespace TinyHal

open Custody Transition

def kVoiceTriggerStreamName : String := "voice trigger"
def kVoiceRecogStreamName : String := "voice recognition"

def audioDeviceInBuiltinMic : BitVec 32 := 0x80000004#32

inductive VoiceState where
  | none
  | triggerIdle
  | triggerArmed
  | triggerFired
  | recogIdle
  | recogArmed
  | recogFired
  | recogAudio
  | recogReArm
  deriving DecidableEq, Repr

/-- `activeVoiceControl` is the input stream that took the voice audio. -/
structure AudioDevice where
  cm : ConfigMgr
  activeVoiceControl : Option Nat
  voiceSt : VoiceState
  voiceTrigMic : BitVec 32
  voiceTrigStream : Option Nat
  voiceLog : List (Use Nat)

/-- The device as `adev_open` allocates it. -/
def newAudioDevice (cm : ConfigMgr) : AudioDevice := ⟨cm, none, .none, 0#32, none, []⟩

def voiceTriggerInit (adev : AudioDevice) : AudioDevice :=
  if (findNamedStream adev.cm kVoiceRecogStreamName).isSome then { adev with voiceSt := .recogIdle }
  else if (findNamedStream adev.cm kVoiceTriggerStreamName).isSome then
    { adev with voiceSt := .triggerIdle }
  else { adev with voiceSt := .none }

def doVoiceTriggerOpenStream (adev : AudioDevice) (streamName : String) : AudioDevice :=
  let got := getNamedStream adev.cm streamName
  match got.1 with
  | none => { adev with cm := got.2, voiceTrigStream := none }
  | some i =>
    let micDevice := if adev.voiceTrigMic = 0#32 then audioDeviceInBuiltinMic else adev.voiceTrigMic
    { adev with
      cm := routeStream got.2 i micDevice
      voiceTrigStream := some i
      voiceLog := adev.voiceLog ++ [.acquire i, .touch i] }

/-- The last statement of the C function compares the pointer with null and changes nothing. -/
def doVoiceTriggerCloseStream (adev : AudioDevice) : AudioDevice :=
  match adev.voiceTrigStream with
  | none => adev
  | some i =>
    { adev with
      cm := dropStream (routeStream adev.cm i 0#32) i
      voiceLog := adev.voiceLog ++ [.touch i, .release i] }

def voiceTriggerEnable (adev : AudioDevice) : AudioDevice :=
  match adev.voiceSt with
  | .triggerIdle | .triggerFired =>
    { doVoiceTriggerOpenStream adev kVoiceTriggerStreamName with voiceSt := .triggerArmed }
  | .recogIdle =>
    { doVoiceTriggerOpenStream adev kVoiceRecogStreamName with voiceSt := .recogArmed }
  | .recogAudio => { adev with voiceSt := .recogReArm }
  | .none | .triggerArmed | .recogArmed | .recogFired | .recogReArm => adev

def voiceTriggerDisable (adev : AudioDevice) : AudioDevice :=
  match adev.voiceSt with
  | .triggerFired | .triggerArmed => { doVoiceTriggerCloseStream adev with voiceSt := .triggerIdle }
  | .recogArmed => { doVoiceTriggerCloseStream adev with voiceSt := .recogIdle }
  | .recogReArm => { adev with voiceSt := .recogAudio }
  | .none | .triggerIdle | .recogIdle | .recogFired | .recogAudio => adev

def voiceTriggerTriggered (adev : AudioDevice) : AudioDevice :=
  match adev.voiceSt with
  | .triggerArmed => { adev with voiceSt := .triggerFired }
  | .recogArmed => { adev with voiceSt := .recogFired }
  | .none | .triggerIdle | .triggerFired | .recogIdle | .recogFired | .recogAudio | .recogReArm => adev

def voiceTriggerAudioStartedLocked (adev : AudioDevice) : AudioDevice :=
  match adev.voiceSt with
  | .recogFired => { adev with voiceSt := .recogAudio }
  | .none | .triggerIdle | .triggerArmed | .triggerFired | .recogIdle | .recogArmed | .recogAudio
  | .recogReArm => adev

def voiceTriggerAudioEndedLocked (adev : AudioDevice) : AudioDevice :=
  match adev.voiceSt with
  | .recogAudio => { doVoiceTriggerCloseStream adev with voiceSt := .recogIdle }
  | .recogReArm => { adev with voiceSt := .recogArmed }
  | .none | .triggerIdle | .triggerArmed | .triggerFired | .recogIdle | .recogArmed
  | .recogFired => adev

inductive VoiceEvent where
  | enable
  | disable
  | triggered
  | audioStarted
  | audioEnded
  | setMic (mic : BitVec 32)
  | other (c : Call)
  deriving DecidableEq, Repr

/-- Other users give back their own references only: afterwards every stream still counts
those of the machine. -/
def voiceStep (adev : AudioDevice) : VoiceEvent → Option AudioDevice
  | .enable => some (voiceTriggerEnable adev)
  | .disable => some (voiceTriggerDisable adev)
  | .triggered => some (voiceTriggerTriggered adev)
  | .audioStarted => some (voiceTriggerAudioStartedLocked adev)
  | .audioEnded => some (voiceTriggerAudioEndedLocked adev)
  | .setMic mic => some { adev with voiceTrigMic := mic }
  | .other c => (step adev.cm c).bind fun cm =>
    if Covers cm.streams (outstanding adev.voiceLog) then some { adev with cm := cm } else none

/-- The states in which the machine needs no stream. -/
def VoiceState.idle : VoiceState → Bool
  | .none | .triggerIdle | .recogIdle => true
  | .triggerArmed | .triggerFired | .recogArmed | .recogFired | .recogAudio | .recogReArm => false

/-- The machine holds at most one reference, none in an idle state, gives back only what it
holds, and leaves no reference count negative. -/
structure VoiceSound (adev : AudioDevice) : Prop where
  single : (outstanding adev.voiceLog).length ≤ 1
  idle : adev.voiceSt.idle = true → outstanding adev.voiceLog = []
  disciplined : Disciplined adev.voiceLog
  counts : ∀ s ∈ adev.cm.streams, 0 ≤ s.refCount

section Invariant

/-- Outside the idle states the pointer is what the machine holds. -/
structure VoiceHolds (adev : AudioDevice) : Prop where
  held : outstanding adev.voiceLog = if adev.voiceSt.idle then [] else adev.voiceTrigStream.toList
  disciplined : Disciplined adev.voiceLog
  covers : Covers adev.cm.streams (outstanding adev.voiceLog)

theorem VoiceHolds.sound {adev : AudioDevice} (h : VoiceHolds adev) : VoiceSound adev where
  single := by
    rw [h.held]
    split
    · simp
    · cases adev.voiceTrigStream <;> simp
  idle := by
    intro hidle
    rw [h.held, if_pos hidle]
  disciplined := h.disciplined
  counts := h.covers.nonneg

/-- At first no voice stream is held. -/
theorem voiceTriggerInit_holds {cm : ConfigMgr} (hcounts : ∀ s ∈ cm.streams, 0 ≤ s.refCount) :
    VoiceHolds (voiceTriggerInit (newAudioDevice cm)) := by
  have hcovers : Covers cm.streams [] := covers_nil hcounts
  unfold voiceTriggerInit
  split
  · exact ⟨rfl, trivial, hcovers⟩
  · split
    · exact ⟨rfl, trivial, hcovers⟩
    · exact ⟨rfl, trivial, hcovers⟩

/-- Opening with nothing held: the machine holds what its pointer says. -/
theorem open_holds {adev : AudioDevice} (hdis : Disciplined adev.voiceLog)
    (hcovers : Covers adev.cm.streams []) (hnone : outstanding adev.voiceLog = []) (name : String)
    {st : VoiceState} (hst : st.idle = false) :
    VoiceHolds { doVoiceTriggerOpenStream adev name with voiceSt := st } := by
  unfold doVoiceTriggerOpenStream
  have htaking := getNamedStream_taking adev.cm name
  generalize getNamedStream adev.cm name = got at htaking
  cases htaking with
  | none =>
    refine ⟨?_, hdis, ?_⟩
    · simp [hst, hnone]
    · simp only [hnone]
      exact hcovers
  | @some i s cm' hs _ _ hstreams =>
    have hopened : Holding (adev.voiceLog ++ [.acquire i, .touch i]) [i] :=
      Holding.append ⟨hdis, hnone⟩ ⟨trivial, List.mem_singleton_self i, trivial⟩
    refine ⟨?_, hopened.disciplined, ?_⟩
    · simp [hst, hopened.outstanding]
    · simp only [hopened.outstanding]
      rw [routeStream_streams, hstreams]
      exact (hcovers.take i).route i _

/-- Closing gives back what the pointer says, and nothing is held any more. -/
theorem close_holds {adev : AudioDevice} (h : VoiceHolds adev) (hst : adev.voiceSt.idle = false)
    {st : VoiceState} (hidle : st.idle = true) :
    VoiceHolds { doVoiceTriggerCloseStream adev with voiceSt := st } := by
  have hheld := h.held
  rw [if_neg (by rw [hst]; exact Bool.false_ne_true)] at hheld
  unfold doVoiceTriggerCloseStream
  cases hptr : adev.voiceTrigStream with
  | none =>
    rw [hptr] at hheld
    refine ⟨?_, h.disciplined, h.covers⟩
    simp only [hidle, if_true]
    exact hheld
  | some i =>
    rw [hptr] at hheld
    have hclosed : Holding (adev.voiceLog ++ [.touch i, .release i]) [] :=
      Holding.finish ⟨h.disciplined, hheld⟩
    refine ⟨?_, hclosed.disciplined, ?_⟩
    · simp [hidle, hclosed.outstanding]
    · simp only [hclosed.outstanding]
      rw [dropStream_streams, routeStream_streams]
      have hcovers := h.covers
      rw [hheld] at hcovers
      have hgive := (hcovers.route i 0#32).give (i := i) (List.mem_cons_self ..)
      simpa using hgive

/-- A step between two states that hold the same. -/
theorem VoiceHolds.keep {adev : AudioDevice} (h : VoiceHolds adev) {st : VoiceState}
    (hst : st.idle = adev.voiceSt.idle) : VoiceHolds { adev with voiceSt := st } where
  held := by
    simp only [hst]
    exact h.held
  disciplined := h.disciplined
  covers := h.covers

/-- `voice_trigger_enable` where the trigger has fired and its stream is still held. -/
def reopens (adev : AudioDevice) : VoiceEvent → Bool
  | .enable => adev.voiceSt = .triggerFired && adev.voiceTrigStream.isSome
  | .disable | .triggered | .audioStarted | .audioEnded | .setMic _ | .other _ => false

theorem VoiceHolds.nothing {adev : AudioDevice} (h : VoiceHolds adev)
    (hnone : adev.voiceSt.idle = true ∨ adev.voiceTrigStream = none) :
    outstanding adev.voiceLog = [] := by
  rw [h.held]
  split
  · rfl
  case isFalse hbusy =>
    rcases hnone with hidle | hptr
    · exact absurd hidle hbusy
    · rw [hptr]
      rfl

/-- Enabling opens the stream, unless one is open already. -/
theorem enable_holds {adev : AudioDevice} (h : VoiceHolds adev)
    (hspare : reopens adev .enable = false) : VoiceHolds (voiceTriggerEnable adev) := by
  have hopen (hnone : outstanding adev.voiceLog = []) (name : String) (st : VoiceState)
      (hst : st.idle = false) : VoiceHolds { doVoiceTriggerOpenStream adev name with voiceSt := st } :=
    open_holds h.disciplined (hnone ▸ h.covers) hnone name hst
  unfold voiceTriggerEnable
  cases hv : adev.voiceSt with
  | triggerIdle =>
    have hnone := h.nothing (.inl (by rw [hv]; rfl))
    exact hopen hnone kVoiceTriggerStreamName .triggerArmed rfl
  | triggerFired =>
    have hptr : adev.voiceTrigStream = none := by
      cases hp : adev.voiceTrigStream with
      | none => rfl
      | some i => simp [reopens, hv, hp] at hspare
    exact hopen (h.nothing (.inr hptr)) kVoiceTriggerStreamName .triggerArmed rfl
  | recogIdle =>
    have hnone := h.nothing (.inl (by rw [hv]; rfl))
    exact hopen hnone kVoiceRecogStreamName .recogArmed rfl
  | recogAudio => exact h.keep (by rw [hv]; rfl)
  | none => exact h
  | triggerArmed => exact h
  | recogArmed => exact h
  | recogFired => exact h
  | recogReArm => exact h

/-- Disabling gives it back. -/
theorem disable_holds {adev : AudioDevice} (h : VoiceHolds adev) :
    VoiceHolds (voiceTriggerDisable adev) := by
  unfold voiceTriggerDisable
  cases hv : adev.voiceSt with
  | triggerFired => exact close_holds h (by rw [hv]; rfl) rfl
  | triggerArmed => exact close_holds h (by rw [hv]; rfl) rfl
  | recogArmed => exact close_holds h (by rw [hv]; rfl) rfl
  | recogReArm => exact h.keep (by rw [hv]; rfl)
  | none => exact h
  | triggerIdle => exact h
  | recogIdle => exact h
  | recogFired => exact h
  | recogAudio => exact h

theorem triggered_holds {adev : AudioDevice} (h : VoiceHolds adev) :
    VoiceHolds (voiceTriggerTriggered adev) := by
  unfold voiceTriggerTriggered
  cases hv : adev.voiceSt with
  | triggerArmed => exact h.keep (by rw [hv]; rfl)
  | recogArmed => exact h.keep (by rw [hv]; rfl)
  | _ => exact h

theorem audioStarted_holds {adev : AudioDevice} (h : VoiceHolds adev) :
    VoiceHolds (voiceTriggerAudioStartedLocked adev) := by
  unfold voiceTriggerAudioStartedLocked
  cases hv : adev.voiceSt with
  | recogFired => exact h.keep (by rw [hv]; rfl)
  | _ => exact h

/-- The end of the audio leaves the stream to the recogniser or closes it. -/
theorem audioEnded_holds {adev : AudioDevice} (h : VoiceHolds adev) :
    VoiceHolds (voiceTriggerAudioEndedLocked adev) := by
  unfold voiceTriggerAudioEndedLocked
  cases hv : adev.voiceSt with
  | recogAudio => exact close_holds h (by rw [hv]; rfl) rfl
  | recogReArm => exact h.keep (by rw [hv]; rfl)
  | _ => exact h

/-- The step lemma, for events that do not open a second stream. -/
theorem voiceStep_holds {adev adev' : AudioDevice} {e : VoiceEvent} (h : VoiceHolds adev)
    (hstep : voiceStep adev e = some adev') (hspare : reopens adev e = false) :
    VoiceHolds adev' := by
  cases e with
  | enable =>
    cases hstep
    exact enable_holds h hspare
  | disable =>
    cases hstep
    exact disable_holds h
  | triggered =>
    cases hstep
    exact triggered_holds h
  | audioStarted =>
    cases hstep
    exact audioStarted_holds h
  | audioEnded =>
    cases hstep
    exact audioEnded_holds h
  | setMic mic =>
    cases hstep
    exact ⟨h.held, h.disciplined, h.covers⟩
  | other c =>
    obtain ⟨cm, -, hguard⟩ := Option.bind_eq_some_iff.mp hstep
    split at hguard
    case isTrue hcovers =>
      cases hguard
      exact ⟨h.held, h.disciplined, hcovers⟩
    case isFalse => cases hguard

/-- An open that finds no stream leaves no stream noted. -/
theorem open_cases (adev : AudioDevice) (name : String) :
    ((doVoiceTriggerOpenStream adev name).voiceTrigStream = none ∧
      (doVoiceTriggerOpenStream adev name).voiceLog = adev.voiceLog) ∨
    ∃ j, (doVoiceTriggerOpenStream adev name).voiceTrigStream = some j ∧
      (doVoiceTriggerOpenStream adev name).voiceLog = adev.voiceLog ++ [.acquire j, .touch j] := by
  unfold doVoiceTriggerOpenStream
  dsimp only
  cases (getNamedStream adev.cm name).1 with
  | none => exact .inl ⟨rfl, rfl⟩
  | some j => exact .inr ⟨j, rfl, rfl⟩

theorem close_log (adev : AudioDevice) :
    (doVoiceTriggerCloseStream adev).voiceLog = match adev.voiceTrigStream with
      | none => adev.voiceLog
      | some i => adev.voiceLog ++ [.touch i, .release i] := by
  unfold doVoiceTriggerCloseStream
  cases adev.voiceTrigStream <;> rfl

/-- The other direction: after a second open over a stream that is still held, disarming
leaves a reference that nothing will give back. -/
theorem reopen_leaks {adev : AudioDevice} (h : VoiceHolds adev)
    (hbad : reopens adev .enable = true) :
    (voiceTriggerDisable (voiceTriggerEnable adev)).voiceSt = .triggerIdle ∧
      outstanding (voiceTriggerDisable (voiceTriggerEnable adev)).voiceLog =
        adev.voiceTrigStream.toList ∧ adev.voiceTrigStream ≠ none := by
  simp only [reopens, Bool.and_eq_true, decide_eq_true_eq, Option.isSome_iff_exists] at hbad
  obtain ⟨hv, i, hptr⟩ := hbad
  have hheld := h.held
  rw [hv, hptr] at hheld
  have hfired : outstanding adev.voiceLog = [i] := hheld
  refine ⟨?_, ?_, by rw [hptr]; exact Option.some_ne_none i⟩
  · simp [voiceTriggerEnable, voiceTriggerDisable, hv]
  · simp only [voiceTriggerEnable, voiceTriggerDisable, hv, hptr, Option.toList_some, close_log]
    rcases open_cases adev kVoiceTriggerStreamName with ⟨hnone, hlog⟩ | ⟨j, hsome, hlog⟩
    · rw [hnone, hlog]
      exact hfired
    · simp only [hsome, hlog, outstanding_append, hfired]
      simp [outstandingFrom, after]

end Invariant

/-- In every run in which `voice_trigger_enable` never comes on a fired trigger whose stream
is still held, the machine never leaks its stream. -/
theorem voice_references {cm : ConfigMgr} (hcounts : ∀ s ∈ cm.streams, 0 ≤ s.refCount)
    {events : List VoiceEvent} {adev : AudioDevice}
    (hspare : Along voiceStep (fun s e _ => reopens s e = false)
      (voiceTriggerInit (newAudioDevice cm)) events)
    (hrun : run voiceStep (voiceTriggerInit (newAudioDevice cm)) events = some adev) :
    VoiceSound adev := by
  have hholds : VoiceHolds adev := by
    refine Along.invariant VoiceHolds ?_ (voiceTriggerInit_holds hcounts) hspare hrun
    intro s e t hs hstep hok
    exact voiceStep_holds hs hstep hok
  exact hholds.sound

section Trigger

/-- A configuration with a trigger stream of any number of instances. -/
def triggerDocument : XmlFile where
  events := element "audiohal" []
    [element "mixer" [("card", "1")] [],
      element "stream" [("type", "hw"), ("name", kVoiceTriggerStreamName), ("dir", "in")] []]
  wellFormed := true

def triggerConfig : ConfigMgr :=
  ((initAudioConfig (documentEnv triggerDocument) 1).bind id).get (by decide +kernel)

def triggerAfter (events : List VoiceEvent) : Option AudioDevice :=
  run voiceStep (voiceTriggerInit (newAudioDevice triggerConfig)) events

/-- Armed, fired, disarmed, and armed again. -/
theorem trigger_rearmed : ∃ adev,
    triggerAfter [.enable, .triggered, .disable, .enable] = some adev ∧
      outstanding adev.voiceLog = [0] ∧ VoiceSound adev := by
  have hheld : (triggerAfter [.enable, .triggered, .disable, .enable]).map
      (fun adev => outstanding adev.voiceLog) = some [0] := by decide +kernel
  obtain ⟨adev, hrun, hout⟩ := Option.map_eq_some_iff.mp hheld
  exact ⟨adev, hrun, hout, voice_references (by decide +kernel) (by decide +kernel) hrun⟩

/-- Armed, fired, enabled again and disarmed: the state is idle, and one reference is left. -/
theorem trigger_reenabled : ∃ adev,
    triggerAfter [.enable, .triggered, .enable, .disable] = some adev ∧
      adev.voiceSt = .triggerIdle ∧ outstanding adev.voiceLog = [0] ∧
      adev.cm.streams.map (fun s => s.refCount) = [1] ∧ ¬ VoiceSound adev := by
  have hrun : (triggerAfter [.enable, .triggered, .enable, .disable]).map (fun adev =>
      (adev.voiceSt, outstanding adev.voiceLog, adev.cm.streams.map fun s => s.refCount)) =
      some (.triggerIdle, [0], [1]) := by decide +kernel
  obtain ⟨adev, hadev, hvalues⟩ := Option.map_eq_some_iff.mp hrun
  simp only [Prod.mk.injEq] at hvalues
  obtain ⟨hst, hout, hcount⟩ := hvalues
  refine ⟨adev, hadev, hst, hout, hcount, ?_⟩
  intro hsound
  have hnone := hsound.idle (by rw [hst]; rfl)
  rw [hout] at hnone
  cases hnone

end Trigger

end TinyHal
