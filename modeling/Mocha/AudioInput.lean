import Mocha.AudioOutput
import Mocha.VoiceTrigger

/-!
# Input streams

The calls on an input stream: open, `in_pcm_set_parameters`, `in_pcm_read`,
`in_pcm_standby` and close. The pcm and the compressed device share one pointer,
`handle`. Two histories go with a stream: what it does with device handles, and
with references on the manager's streams.

A handle is named by the kind of the function that receives it and the pointer,
so that passing a null pointer, or a pcm to a function for compressed devices,
is a use of something that was never acquired.
-/
namespace TinyHal

open Custody Transition

def audioSourceVoiceRecognition : Int := 6

def enotsup : Int := 95

inductive DeviceKind where
  | pcm
  | compress
  deriving DecidableEq, Repr

structure HandleRef where
  kind : DeviceKind
  pointer : Option Nat
  deriving DecidableEq, Repr

/-- `opened` counts the handles so far; `isOpen` is false once the stream is freed. -/
structure StreamIn where
  isOpen : Bool
  hw : Option Nat
  standby : Bool
  devices : BitVec 32
  format : BitVec 32
  channelMask : BitVec 32
  channelCount : Nat
  sampleRate : Nat
  inputSource : Int
  handle : Option Nat
  resampler : Bool
  opened : Nat
  handles : List (Use HandleRef)
  refs : List (Use Nat)

/-- The hardware stream that the pointer stands for. -/
def StreamIn.stream (si : StreamIn) (cm : ConfigMgr) : Option Stream :=
  si.hw.bind fun i => cm.streams[i]?

/-- What the system answers during one read. `compressOpen` is the error number if the
compressed device does not open, and `result` is what the device's own read returns. -/
structure ReadEnv where
  pcmOpen : Bool
  resamplerInit : Bool
  compressOpen : Option Nat
  result : Int
  micMute : Bool
  deriving DecidableEq, Repr

def streamIsCompressed (s : Stream) : Bool := s.type = .outCompress || s.type = .inCompress

def streamIsCompressedIn (s : Stream) : Bool := s.type = .inCompress

section UseCases

/-- The first case with a name in a use case with a name. -/
def findCase (usecases : List Usecase) (setting caseName : String) : Option (Nat × Nat) :=
  usecases.zipIdx.findSome? fun u =>
    if u.1.name = setting then (u.1.cases.findIdx? fun c => c.name = caseName).map fun c => (u.2, c)
    else none

def applyUseCase (cm : ConfigMgr) (i : Nat) (setting caseName : String) : Int × ConfigMgr :=
  match (cm.streams[i]?).bind fun s => (findCase s.usecases setting caseName).bind fun at_ =>
      (s.usecases[at_.1]?).bind fun u => (u.cases[at_.2]?).map fun c => (at_, c.ctls) with
  | none => (-enosys, cm)
  | some ((u, c), ctls) =>
    let done := applyCtlsL cm.mixer ctls
    (0, { modifyStream cm i fun s => { s with usecases := s.usecases.modify u fun usecase =>
      { usecase with cases := usecase.cases.modify c fun scase => { scase with ctls := done.2 } } }
      with mixer := done.1 })

/-- The pair in `name=value`; a token without a value has none. -/
def keyValue (token : List Char) : Option (String × String) :=
  match token.dropWhile fun c => c ≠ '=' with
  | _ :: v :: vs => some (String.ofList (token.takeWhile fun c => c ≠ '='), String.ofList (v :: vs))
  | _ => none

/-- Every pair that is understood is applied; none at all is an error. -/
def streamInvokeUsecases (cm : ConfigMgr) (hw : Option Nat) (kvpairs : String) : Int × ConfigMgr :=
  match hw with
  | none => (-enotsup, cm)
  | some i =>
    ((CString.strtok ';' kvpairs.toList).filterMap keyValue).foldl
      (fun done pair =>
        let applied := applyUseCase done.2 i pair.1 pair.2
        (if applied.1 ≥ 0 then 0 else done.1, applied.2))
      (-enotsup, cm)

end UseCases

section Handles

def StreamIn.note (si : StreamIn) (uses : List (Use HandleRef)) : StreamIn :=
  { si with handles := si.handles ++ uses }

/-- A failure leaves the system's error number, which is not negative. -/
def doOpenCompressPcmIn (env : ReadEnv) (si : StreamIn) : Int × StreamIn :=
  match si.hw with
  | none => (-einval, si)
  | some _ =>
    match env.compressOpen with
    | some errno => (errno, si)
    | none =>
      (0, { si with handle := some si.opened, opened := si.opened + 1 }.note
        [.acquire ⟨.compress, some si.opened⟩, .touch ⟨.compress, some si.opened⟩])

def startCompressPcmInputStream (env : ReadEnv) (si : StreamIn) : Int × StreamIn :=
  if si.standby then
    let done := doOpenCompressPcmIn env si
    if done.1 < 0 then done
    else (0, { done.2.note [.touch ⟨.compress, done.2.handle⟩] with standby := false })
  else (0, si)

def doInCompressPcmStandby (si : StreamIn) : StreamIn :=
  if si.standby then si
  else
    { { si with handle := none }.note [.touch ⟨.compress, si.handle⟩, .release ⟨.compress, si.handle⟩]
      with standby := true }

def doInCompressPcmRead (env : ReadEnv) (si : StreamIn) : Int × StreamIn :=
  let started := startCompressPcmInputStream env si
  if started.1 < 0 then started
  else (env.result, started.2.note [.touch ⟨.compress, started.2.handle⟩])

/-- The pointer and `standby` stay as they are. -/
def doInCompressPcmClose (si : StreamIn) : StreamIn :=
  if si.handle.isSome then
    si.note [.touch ⟨.compress, si.handle⟩, .release ⟨.compress, si.handle⟩]
  else si

def doInPcmStandby (si : StreamIn) : StreamIn :=
  if si.standby then { si with resampler := false }
  else
    { { si with handle := none, resampler := false }.note [.release ⟨.pcm, si.handle⟩]
      with standby := true }

/-- The stream's rate, or the hardware's if it has none of its own. -/
def inGetSampleRate (si : StreamIn) (s : Stream) : Nat := if si.sampleRate ≠ 0 then si.sampleRate else s.rate

def doOpenPcmInput (env : ReadEnv) (cm : ConfigMgr) (si : StreamIn) : Int × StreamIn :=
  match si.stream cm with
  | none => (-einval, si)
  | some s =>
    if env.pcmOpen then
      let opened := { si with handle := some si.opened, opened := si.opened + 1 }.note
        [.acquire ⟨.pcm, some si.opened⟩]
      if inGetSampleRate si s = s.rate then (0, opened)
      else if env.resamplerInit then (0, { opened with resampler := true })
      else (-enomem, { opened.note [.release ⟨.pcm, some si.opened⟩] with handle := none })
    else (-enomem, { si with handle := none })

def startPcmInputStream (env : ReadEnv) (cm : ConfigMgr) (si : StreamIn) : Int × StreamIn :=
  if si.standby then
    let done := doOpenPcmInput env cm si
    if done.1 = 0 then (0, { done.2 with standby := false }) else done
  else (0, si)

/-- A read of either kind, with a resampler or without, goes to the pcm device. -/
def doInPcmRead (env : ReadEnv) (cm : ConfigMgr) (si : StreamIn) (bytes : Int) : Int × StreamIn :=
  let started := startPcmInputStream env cm si
  if started.1 < 0 then started
  else (if env.result ≥ 0 then bytes else env.result, started.2.note [.touch ⟨.pcm, started.2.handle⟩])

/-- Errors and a muted microphone give a buffer of silence. -/
def inPcmRead (env : ReadEnv) (cm : ConfigMgr) (si : StreamIn) (bytes : Int) : Int × StreamIn :=
  let done : Int × StreamIn :=
    match si.stream cm with
    | none => (-einval, si)
    | some s =>
      if s.currentDevices = 0#32 then (-einval, si)
      else if streamIsCompressedIn s then doInCompressPcmRead env si
      else doInPcmRead env cm si bytes
  (if done.1 ≤ 0 || env.micMute then bytes else done.1, done.2)

def inPcmStandby (cm : ConfigMgr) (si : StreamIn) : StreamIn :=
  match si.stream cm with
  | none => si
  | some s => if streamIsCompressedIn s then doInCompressPcmStandby si else doInPcmStandby si

end Handles

section Source

/-- The stream that the voice recognition source asks for by name. -/
def voiceTriggerAudioStreamName (adev : AudioDevice) : Option String :=
  match adev.voiceSt with
  | .none | .triggerIdle | .triggerArmed | .triggerFired => some kVoiceRecogStreamName
  | .recogIdle | .recogArmed | .recogReArm => none
  | .recogFired => some kVoiceRecogStreamName
  | .recogAudio => none

/-- A named stream if the source has one that opens, else one for the devices. -/
def openSource (adev : AudioDevice) (si : StreamIn) (newSource : Int) (devices : BitVec 32) :
    Option Nat × ConfigMgr :=
  let streamName :=
    if newSource = audioSourceVoiceRecognition then voiceTriggerAudioStreamName adev else none
  let named := match streamName with
    | some name => getNamedStream adev.cm name
    | none => (none, adev.cm)
  match named.1 with
  | some i => (some i, named.2)
  | none => getStream named.2 devices (audioIsLinearPcm si.format)

/-- The voice trigger is told who takes the voice audio, and when that ends. -/
def switchVoiceControl (adev : AudioDevice) (k : Nat) (newSource : Int) : AudioDevice :=
  if newSource = audioSourceVoiceRecognition then
    voiceTriggerAudioStartedLocked { adev with activeVoiceControl := some k }
  else if adev.activeVoiceControl = some k then
    voiceTriggerAudioEndedLocked { adev with activeVoiceControl := none }
  else adev

/-- The stream so far, if there is one, goes back to the manager. -/
def releaseOld (cm : ConfigMgr) : Option Nat → ConfigMgr
  | some old => dropStream cm old
  | none => cm

def changeInputSourceLocked (adev : AudioDevice) (k : Nat) (si : StreamIn) (newSource : Int)
    (devices : BitVec 32) : Int × AudioDevice × StreamIn :=
  if !si.standby then (-einval, adev, si)
  else if si.inputSource = newSource then (0, adev, si)
  else
    let got := openSource adev si newSource devices
    match got.1 with
    | none => (-einval, { adev with cm := got.2 }, si)
    | some hw =>
      let adev := switchVoiceControl { adev with cm := releaseOld got.2 si.hw } k newSource
      (0, adev, { si with
        hw := some hw
        refs := si.refs ++ [.acquire hw] ++ si.hw.toList.map fun old => .release old
        inputSource := newSource })

/-- `str_parms_get_str` on the key-value pairs that `str_parms_create_str` reads. -/
abbrev StrParms := String → String → Option String

def intParam (strParms : StrParms) (kvpairs key : String) : Option Int :=
  (strParms kvpairs key).map fun value => CString.atoi value.toList

def routingParam (strParms : StrParms) (kvpairs : String) : Option (BitVec 32) :=
  (intParam strParms kvpairs "routing").map fun value => BitVec.ofInt 32 value

/-- The devices for a new source: those of the request, or of the stream so far. -/
def sourceDevices (cm : ConfigMgr) (si : StreamIn) (routing : Option (BitVec 32)) : BitVec 32 :=
  match routing with
  | some devices => devices
  | none => match si.stream cm with
    | some s => s.currentDevices
    | none => 0#32

/-- The end of `in_pcm_set_parameters`: the route if there is one to set, and the use cases. -/
def applyInputRouting (adev : AudioDevice) (si : StreamIn) (routing : Option (BitVec 32))
    (kvpairs : String) : AudioDevice × StreamIn :=
  let si := match routing with
    | some devices => { si with devices := devices }
    | none => si
  let cm := match routing, si.hw with
    | some devices, some hw => routeStream adev.cm hw devices
    | _, _ => adev.cm
  ({ adev with cm := (streamInvokeUsecases cm si.hw kvpairs).2 }, si)

def inPcmSetParameters (strParms : StrParms) (adev : AudioDevice) (k : Nat) (si : StreamIn)
    (kvpairs : String) : AudioDevice × StreamIn :=
  let routing := routingParam strParms kvpairs
  match intParam strParms kvpairs "input_source" with
  | none => applyInputRouting adev si routing kvpairs
  | some newSource =>
    let devices := sourceDevices adev.cm si routing
    let changed := changeInputSourceLocked adev k si newSource devices
    if changed.1 < 0 then changed.2
    else applyInputRouting changed.2.1 changed.2.2 (some devices) kvpairs

end Source

section FrameSizes

def inChannelMaskDefault : BitVec 32 := 0x10#32

def audioFormatPcm16Bit : BitVec 32 := 0x1#32

/-- `audio_stream_in_frame_size` and `audio_stream_out_frame_size`, by format and channels. -/
abbrev FrameSize := BitVec 32 → BitVec 32 → Nat

def inGetChannels (channelMask : BitVec 32) : BitVec 32 :=
  if channelMask ≠ 0#32 then channelMask else inChannelMaskDefault

/-- `audio_stream_in_frame_size` on 16-bit PCM. -/
def pcm16FrameSize : FrameSize := fun format channels =>
  if audioIsLinearPcm format then popcount channels * 2 else 1

end FrameSizes

section Calls

def adevOpenInputStream (devices : BitVec 32) (config : AudioConfig) : StreamIn :=
  { isOpen := true, hw := none, standby := true, devices := devices &&& audioDeviceInAll
    format := config.format, channelMask := config.channelMask
    channelCount := popcount config.channelMask, sampleRate := config.sampleRate, inputSource := 0
    handle := none, resampler := false, opened := 0, handles := [], refs := [] }

def doCloseInCommon (adev : AudioDevice) (k : Nat) (si : StreamIn) : AudioDevice × StreamIn :=
  let si := inPcmStandby adev.cm si
  let adev := if adev.activeVoiceControl = some k then
      voiceTriggerAudioEndedLocked { adev with activeVoiceControl := none }
    else adev
  match si.hw with
  | some hw =>
    ({ adev with cm := dropStream adev.cm hw },
      { si with isOpen := false, refs := si.refs ++ [.release hw] })
  | none => (adev, { si with isOpen := false })

def doCloseInPcm (adev : AudioDevice) (k : Nat) (si : StreamIn) : AudioDevice × StreamIn :=
  match si.stream adev.cm with
  | some s => doCloseInCommon adev k (if streamIsCompressed s then doInCompressPcmClose si else si)
  | none => doCloseInCommon adev k si

/-- The device and its input streams, by number in the order of opening. -/
structure InputDevice where
  adev : AudioDevice
  inputs : List StreamIn

inductive InputCall where
  | openStream (devices : BitVec 32) (config : AudioConfig)
  | setParameters (k : Nat) (kvpairs : String)
  | read (k : Nat) (env : ReadEnv) (bytes : Int)
  | standby (k : Nat)
  | close (k : Nat)
  | voice (e : VoiceEvent)
  deriving DecidableEq, Repr

/-- The open input stream with a number. -/
def InputDevice.input (s : InputDevice) (k : Nat) : Option StreamIn :=
  (s.inputs[k]?).filter fun si => si.isOpen

/-- Voice events stand for the device's own parameters, and for all other users of the
manager, output streams among them. -/
def inputStep (strParms : StrParms) (s : InputDevice) : InputCall → Option InputDevice
  | .openStream devices config => some { s with inputs := s.inputs ++ [adevOpenInputStream devices config] }
  | .setParameters k kvpairs => (s.input k).map fun si =>
    let done := inPcmSetParameters strParms s.adev k si kvpairs
    { adev := done.1, inputs := s.inputs.set k done.2 }
  | .read k env bytes => (s.input k).map fun si =>
    { s with inputs := s.inputs.set k (inPcmRead env s.adev.cm si bytes).2 }
  | .standby k => (s.input k).map fun si =>
    { s with inputs := s.inputs.set k (inPcmStandby s.adev.cm si) }
  | .close k => (s.input k).map fun si =>
    let done := doCloseInPcm s.adev k si
    { adev := done.1, inputs := s.inputs.set k done.2 }
  | .voice e => (voiceStep s.adev e).map fun adev => { s with adev := adev }

end Calls

section Opening

/-- The stream with a name, if there is room on it. -/
def namedStream (cm : ConfigMgr) (name : String) : Option Stream :=
  ((findNamedStream cm name).bind fun i => cm.streams[i]?).filter fun s => decide s.free

/-- The stream that goes by the name of the source, if there is room on it. -/
def namedSource (adev : AudioDevice) (newSource : Int) : Option Stream :=
  (if newSource = audioSourceVoiceRecognition then voiceTriggerAudioStreamName adev else none).bind
    (namedStream adev.cm)

/-- Some stream of a type has room. -/
def offers (cm : ConfigMgr) (type : StreamType) : Bool :=
  cm.streams.any fun s => s.type = type && decide s.free

/-- There is a stream for the source. -/
def sourceOffered (adev : AudioDevice) (si : StreamIn) (newSource : Int) (devices : BitVec 32) : Bool :=
  (namedSource adev newSource).isSome ||
    offers adev.cm (requestedType devices (audioIsLinearPcm si.format))

/-- The stream of that name is taken exactly when it is offered. -/
theorem getNamedStream_offered (cm : ConfigMgr) (name : String) :
    Taking (fun s => namedStream cm name = some s) cm (getNamedStream cm name) ∧
      (getNamedStream cm name).1.isSome = (namedStream cm name).isSome := by
  unfold getNamedStream namedStream
  cases findNamedStream cm name with
  | none => exact ⟨.none, rfl⟩
  | some i =>
    dsimp only
    rw [Option.bind_some]
    cases hs : cm.streams[i]? with
    | none => exact ⟨.none, rfl⟩
    | some s =>
      dsimp only
      by_cases hfree : s.free
      · obtain ⟨hok, hstreams⟩ := openStreamL_free cm i hfree
        rw [Option.filter_some, if_pos (decide_eq_true hfree), if_pos hok]
        exact ⟨.some hs rfl hfree (hstreams.trans (set_eq_modify hs Stream.taken)), rfl⟩
      · rw [Option.filter_some, if_neg (by simpa using hfree), openStreamL_full hfree]
        exact ⟨.none, rfl⟩

/-- A stream is handed out exactly when one of the type is below its limit. -/
theorem getStream_isSome (cm : ConfigMgr) (devices : BitVec 32) (pcm : Bool) :
    (getStream cm devices pcm).1.isSome = offers cm (requestedType devices pcm) := by
  cases hgot : (getStream cm devices pcm).1 with
  | none =>
    have hfull := getStream_none.mp hgot
    symm
    simpa [offers] using hfull
  | some i =>
    cases hoffers : offers cm (requestedType devices pcm) with
    | true => rfl
    | false =>
      have hnone : (getStream cm devices pcm).1 = none := by
        apply getStream_none.mpr
        simpa [offers] using hoffers
      rw [hnone] at hgot
      cases hgot

theorem Taking.imp {p q : Stream → Prop} {cm : ConfigMgr} {got : Option Nat × ConfigMgr}
    (h : Taking p cm got) (hpq : ∀ s, p s → q s) : Taking q cm got := by
  cases h with
  | none => exact .none
  | some hs hp hfree hstreams => exact .some hs (hpq _ hp) hfree hstreams

/-- The stream that a source gets, and when it gets one. -/
theorem openSource_offered (adev : AudioDevice) (si : StreamIn) (newSource : Int)
    (devices : BitVec 32) :
    Taking (fun s => namedSource adev newSource = some s ∨ namedSource adev newSource = none ∧
        s.type = requestedType devices (audioIsLinearPcm si.format)) adev.cm
        (openSource adev si newSource devices) ∧
      (openSource adev si newSource devices).1.isSome =
        sourceOffered adev si newSource devices := by
  have hgeneric := getStream_taking adev.cm devices (audioIsLinearPcm si.format)
  have hsome := getStream_isSome adev.cm devices (audioIsLinearPcm si.format)
  unfold openSource sourceOffered namedSource
  dsimp only
  generalize (if newSource = audioSourceVoiceRecognition then voiceTriggerAudioStreamName adev
    else none) = streamName
  cases streamName with
  | none =>
    refine ⟨hgeneric.imp fun s hs => .inr ⟨rfl, hs⟩, ?_⟩
    rw [Option.bind_none, Option.isSome_none, Bool.false_or]
    exact hsome
  | some name =>
    dsimp only
    rw [Option.bind_some]
    obtain ⟨htaking, hnamed⟩ := getNamedStream_offered adev.cm name
    generalize getNamedStream adev.cm name = got at htaking hnamed
    cases htaking with
    | none =>
      have hnone : namedStream adev.cm name = none := by
        rw [Option.isSome_none] at hnamed
        simpa using hnamed.symm
      rw [hnone]
      refine ⟨hgeneric.imp fun s hs => .inr ⟨rfl, hs⟩, ?_⟩
      rw [Option.isSome_none, Bool.false_or]
      exact hsome
    | some hs hname hfree hstreams =>
      refine ⟨.some hs (.inl hname) hfree hstreams, ?_⟩
      rw [hname]
      rfl

end Opening

section Spared

variable {p : Nat → Prop}

/-- A use case writes controls and leaves the routes. -/
theorem applyUseCase_spares (cm : ConfigMgr) (i : Nat) (setting caseName : String) :
    Spares p cm (applyUseCase cm i setting caseName).2 := by
  unfold applyUseCase
  split
  case h_1 => exact Spares.refl p cm
  case h_2 =>
    have hstreams (f : Stream → Stream) (mixer : Mixer) :
        ({ modifyStream cm i f with mixer := mixer } : ConfigMgr).streams = cm.streams.modify i f := rfl
    exact spares_modify (hstreams _ _) (fun _ => rfl) (.inr fun _ _ => rfl)

theorem streamInvokeUsecases_spares (cm : ConfigMgr) (hw : Option Nat) (kvpairs : String) :
    Spares p cm (streamInvokeUsecases cm hw kvpairs).2 := by
  unfold streamInvokeUsecases
  cases hw with
  | none => exact Spares.refl p cm
  | some i =>
    dsimp only
    generalize (CString.strtok ';' kvpairs.toList).filterMap keyValue = pairs
    generalize -enotsup = ret
    induction pairs generalizing ret cm with
    | nil => exact Spares.refl p cm
    | cons pair pairs ih => exact (applyUseCase_spares cm i pair.1 pair.2).trans (ih _ _)

/-- Closing clears the route of the voice stream. -/
theorem closeVoice_spares {adev : AudioDevice}
    (hp : ∀ i, adev.voiceTrigStream = some i → Clearable p adev.cm i) :
    Spares p adev.cm (doVoiceTriggerCloseStream adev).cm := by
  unfold doVoiceTriggerCloseStream
  cases hptr : adev.voiceTrigStream with
  | none => exact Spares.refl p adev.cm
  | some i =>
    have hunrouted := unrouteStream_spares (hp i hptr)
    exact hunrouted.trans (dropStream_spares (hunrouted.clearable (hp i hptr)))

/-- Opening may route the voice stream. -/
theorem openVoice_spares (adev : AudioDevice) (hp : ∀ i, p i) (name : String) :
    Spares p adev.cm (doVoiceTriggerOpenStream adev name).cm := by
  unfold doVoiceTriggerOpenStream
  have htaken : Spares p adev.cm (getNamedStream adev.cm name).2 :=
    (getNamedStream_taking adev.cm name).spares
  dsimp only
  cases (getNamedStream adev.cm name).1 with
  | none => exact htaken
  | some i => exact htaken.trans (routeStream_spares _ (hp i) _)

theorem audioStarted_spares (adev : AudioDevice) :
    Spares p adev.cm (voiceTriggerAudioStartedLocked adev).cm := by
  unfold voiceTriggerAudioStartedLocked
  cases adev.voiceSt <;> exact Spares.refl p adev.cm

theorem audioEnded_spares {adev : AudioDevice}
    (hp : adev.voiceSt = .recogAudio → ∀ i, adev.voiceTrigStream = some i → Clearable p adev.cm i) :
    Spares p adev.cm (voiceTriggerAudioEndedLocked adev).cm := by
  unfold voiceTriggerAudioEndedLocked
  cases hv : adev.voiceSt with
  | recogAudio => exact closeVoice_spares (hp hv)
  | _ => exact Spares.refl p adev.cm

/-- One event of the recogniser, by cases of the event. -/
theorem voiceStep_spares {adev adev' : AudioDevice} {e : VoiceEvent} (hp : ∀ i, p i)
    (h : voiceStep adev e = some adev') : Spares p adev.cm adev'.cm := by
  cases e with
  | enable =>
    cases h
    unfold voiceTriggerEnable
    cases adev.voiceSt with
    | triggerIdle => exact openVoice_spares adev hp kVoiceTriggerStreamName
    | triggerFired => exact openVoice_spares adev hp kVoiceTriggerStreamName
    | recogIdle => exact openVoice_spares adev hp kVoiceRecogStreamName
    | _ => exact Spares.refl p adev.cm
  | disable =>
    cases h
    have hclose : Spares p adev.cm (doVoiceTriggerCloseStream adev).cm :=
      closeVoice_spares fun i _ => .inl (hp i)
    unfold voiceTriggerDisable
    cases adev.voiceSt with
    | triggerFired => exact hclose
    | triggerArmed => exact hclose
    | recogArmed => exact hclose
    | _ => exact Spares.refl p adev.cm
  | triggered =>
    cases h
    unfold voiceTriggerTriggered
    cases adev.voiceSt <;> exact Spares.refl p adev.cm
  | audioStarted =>
    cases h
    exact audioStarted_spares adev
  | audioEnded =>
    cases h
    exact audioEnded_spares fun _ i _ => .inl (hp i)
  | setMic mic =>
    cases h
    exact Spares.refl p adev.cm
  | other c =>
    obtain ⟨cm, hcm, hguard⟩ := Option.bind_eq_some_iff.mp h
    split at hguard
    case isTrue =>
      cases hguard
      exact step_spares hp hcm
    case isFalse => cases hguard

/-- The stream that the voice trigger closes because stream `k` takes another source. -/
def closedVoiceStream (adev : AudioDevice) (k : Nat) (newSource : Int) : Option Nat :=
  if newSource ≠ audioSourceVoiceRecognition && adev.activeVoiceControl = some k &&
    adev.voiceSt = .recogAudio then adev.voiceTrigStream else none

/-- The only route it clears is that of the voice stream it closes. -/
theorem switchVoiceControl_spares {adev : AudioDevice} {k : Nat} {newSource : Int}
    (hp : ∀ i, closedVoiceStream adev k newSource = some i → Clearable p adev.cm i) :
    Spares p adev.cm (switchVoiceControl adev k newSource).cm := by
  unfold switchVoiceControl
  by_cases hvr : newSource = audioSourceVoiceRecognition
  · rw [if_pos hvr]
    exact audioStarted_spares { adev with activeVoiceControl := some k }
  · rw [if_neg hvr]
    by_cases hk : adev.activeVoiceControl = some k
    · rw [if_pos hk]
      refine @audioEnded_spares p { adev with activeVoiceControl := none } ?_
      intro hst i hi
      have hstate : adev.voiceSt = .recogAudio := hst
      have hptr : adev.voiceTrigStream = some i := hi
      exact hp i (by simp [closedVoiceStream, hvr, hk, hstate, hptr])
    · rw [if_neg hk]
      exact Spares.refl p adev.cm

theorem releaseOld_spares (cm : ConfigMgr) {hw : Option Nat} (hp : ∀ i, hw = some i → p i) :
    Spares p cm (releaseOld cm hw) := by
  cases hw with
  | none => exact Spares.refl p cm
  | some old => exact dropStream_spares (.inl (hp old rfl))

/-- Either nothing changes, or the stream takes the reference on the new hardware stream and
gives back the old one. -/
theorem changeInputSource_cases (adev : AudioDevice) (k : Nat) (si : StreamIn) (newSource : Int)
    (devices : BitVec 32) :
    (¬ (si.standby = true ∧ si.inputSource ≠ newSource ∧
        sourceOffered adev si newSource devices = true) ∧
      (changeInputSourceLocked adev k si newSource devices).2 = (adev, si)) ∨
    ∃ hw cm, si.standby = true ∧ si.inputSource ≠ newSource ∧
      openSource adev si newSource devices = (some hw, cm) ∧
      changeInputSourceLocked adev k si newSource devices =
        (0, switchVoiceControl { adev with cm := releaseOld cm si.hw } k newSource, { si with
          hw := some hw
          refs := si.refs ++ [.acquire hw] ++ si.hw.toList.map fun old => .release old
          inputSource := newSource }) := by
  obtain ⟨htaking, hoffered⟩ := openSource_offered adev si newSource devices
  unfold changeInputSourceLocked
  by_cases hst : si.standby = true
  · rw [if_neg (by simp [hst])]
    by_cases hsource : si.inputSource = newSource
    · rw [if_pos hsource]
      exact .inl ⟨fun h => h.2.1 hsource, rfl⟩
    · rw [if_neg hsource]
      generalize openSource adev si newSource devices = got at htaking hoffered
      cases htaking with
      | none =>
        left
        refine ⟨?_, rfl⟩
        rw [← hoffered]
        exact fun h => Bool.false_ne_true h.2.2
      | @some hw _ cm _ _ _ _ => exact .inr ⟨hw, cm, hst, hsource, rfl, rfl⟩
  · rw [if_pos (by simpa using hst)]
    exact .inl ⟨fun h => hst h.1, rfl⟩

/-- Besides the new stream, only the old one and a closed voice stream may lose their route. -/
theorem changeInputSource_spares {adev : AudioDevice} {k : Nat} {si : StreamIn} {newSource : Int}
    (devices : BitVec 32) (hold : ∀ i, si.hw = some i → p i)
    (hvoice : si.standby = true → si.inputSource ≠ newSource →
      sourceOffered adev si newSource devices = true →
      ∀ i, closedVoiceStream adev k newSource = some i → Clearable p adev.cm i) :
    Spares p adev.cm (changeInputSourceLocked adev k si newSource devices).2.1.cm := by
  obtain ⟨htaking, hoffered⟩ := openSource_offered adev si newSource devices
  rcases changeInputSource_cases adev k si newSource devices with
    ⟨-, hsame⟩ | ⟨hw, cm, hst, hsource, hopen, hchange⟩
  · rw [hsame]
    exact Spares.refl p adev.cm
  · rw [hopen] at htaking hoffered
    have hreleased : Spares p adev.cm (releaseOld cm si.hw) :=
      htaking.spares.trans (releaseOld_spares cm hold)
    have hswitched := @switchVoiceControl_spares p { adev with cm := releaseOld cm si.hw } k newSource
      fun i hi => hreleased.clearable (hvoice hst hsource hoffered.symm i hi)
    rw [hchange]
    exact hreleased.trans hswitched

theorem applyInputRouting_spares {adev : AudioDevice} {si : StreamIn}
    (routing : Option (BitVec 32)) (kvpairs : String) (hp : ∀ i, si.hw = some i → p i) :
    Spares p adev.cm (applyInputRouting adev si routing kvpairs).1.cm := by
  unfold applyInputRouting
  refine Spares.trans ?_ (streamInvokeUsecases_spares _ _ _)
  cases routing with
  | none => exact Spares.refl p adev.cm
  | some devices =>
    dsimp only
    cases hhw : si.hw with
    | none => exact Spares.refl p adev.cm
    | some hw => exact routeStream_spares adev.cm (hp hw hhw) devices

/-- `in_pcm_set_parameters` changes the routes of the stream it had, of the stream it gets,
and of the voice trigger's stream where that is closed. -/
theorem setParameters_spares {strParms : StrParms} {adev : AudioDevice} {k : Nat} {si : StreamIn}
    {kvpairs : String} (hold : ∀ i, si.hw = some i → p i)
    (hnew : ∀ i, (inPcmSetParameters strParms adev k si kvpairs).2.hw = some i → p i)
    (hvoice : ∀ newSource, intParam strParms kvpairs "input_source" = some newSource →
      si.standby = true → si.inputSource ≠ newSource →
      sourceOffered adev si newSource
        (sourceDevices adev.cm si (routingParam strParms kvpairs)) = true →
      ∀ i, closedVoiceStream adev k newSource = some i → Clearable p adev.cm i) :
    Spares p adev.cm (inPcmSetParameters strParms adev k si kvpairs).1.cm := by
  have hhw (adev : AudioDevice) (si : StreamIn) (routing : Option (BitVec 32)) :
      (applyInputRouting adev si routing kvpairs).2.hw = si.hw := by
    cases routing <;> rfl
  unfold inPcmSetParameters at hnew ⊢
  cases hsource : intParam strParms kvpairs "input_source" with
  | none => exact applyInputRouting_spares _ kvpairs hold
  | some newSource =>
    rw [hsource] at hnew
    dsimp only at hnew ⊢
    have hchange := changeInputSource_spares _ hold (hvoice newSource hsource)
    generalize sourceDevices adev.cm si (routingParam strParms kvpairs) = devices at hnew hchange ⊢
    split
    case isTrue => exact hchange
    case isFalse hret =>
      rw [if_neg hret, hhw] at hnew
      exact hchange.trans (applyInputRouting_spares _ kvpairs hnew)

/-- No stream is lost and none changes its type, whatever is set. -/
theorem setParameters_streams (strParms : StrParms) (adev : AudioDevice) (k : Nat) (si : StreamIn)
    (kvpairs : String) :
    Spares (fun _ => True) adev.cm (inPcmSetParameters strParms adev k si kvpairs).1.cm :=
  setParameters_spares (fun _ _ => trivial) (fun _ _ => trivial) fun _ _ _ _ _ _ _ => .inl trivial

theorem closeInPcm_spares (adev : AudioDevice) (k : Nat) (si : StreamIn) (hp : ∀ i, p i) :
    Spares p adev.cm (doCloseInPcm adev k si).1.cm := by
  have hcommon (si : StreamIn) : Spares p adev.cm (doCloseInCommon adev k si).1.cm := by
    have hvoice : Spares p adev.cm (if adev.activeVoiceControl = some k then
        voiceTriggerAudioEndedLocked { adev with activeVoiceControl := none } else adev).cm := by
      split
      · exact @audioEnded_spares p { adev with activeVoiceControl := none } fun _ i _ => .inl (hp i)
      · exact Spares.refl p adev.cm
    unfold doCloseInCommon
    dsimp only
    cases (inPcmStandby adev.cm si).hw with
    | none => exact hvoice
    | some hw => exact hvoice.trans (dropStream_spares (.inl (hp hw)))
  unfold doCloseInPcm
  split <;> exact hcommon _

end Spared

end TinyHal
