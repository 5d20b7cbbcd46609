import Mathlib.Data.Nat.GCD.Basic
import Mocha.InputHandles
import Mocha.InputResampler

/-!
# The rates and delays of a stream

`audio_hw.c` divides by rates: for the latency of an output stream, for the size of an
input buffer, and for the time that a read is to take. Every division is noted with
its divisor. `size_t` and `unsigned int` have 32 bits.
-/
namespace TinyHal.Timing

open Resampling (pcmFramesToBytes inChannelCountDefault)
open Transition

def word (n : Nat) : Nat := n % 4294967296

def outPeriodSizeDefault : Nat := 256
def outPeriodCountDefault : Nat := 4
def outChannelMaskDefault : BitVec 32 := 0x3#32
def outChannelCountDefault : Nat := 2
def inPeriodSizeDefault : Nat := 256
def inPeriodCountDefault : Nat := 4
def inCompressBufferSizeDefault : Nat := 1024

inductive Site where
  | doInitOutPcm
  | outPcmFillParams
  | inPcmFillParams
  | startCompressPcmInputStream
  | doInPcmRead
  | doInRealtimeDelay
  deriving DecidableEq, Repr

structure Division where
  site : Site
  divisor : Nat
  deriving DecidableEq, Repr

/-- The fields of `struct pcm_config` that are not constant. -/
structure PcmConfig where
  channels : Nat
  rate : Nat
  periodSize : Nat
  periodCount : Nat
  deriving DecidableEq, Repr

/-- What `pcm_open` does during one call: the period size and count of a device that is ready.
A device does not open at rate 0. -/
structure PcmDriver where
  pcmOpen : Option (BitVec 8) → Option (BitVec 8) → PcmConfig → Option (Nat × Nat)
  rate_zero : ∀ card device config, config.rate = 0 → pcmOpen card device config = none

section Output

structure StreamOut where
  output : TinyHal.StreamOut
  frameSize : Nat
  bufferSize : Nat
  latency : Nat
  hwSampleRate : Nat
  hwChannelCount : Nat
  divisions : List Division
  deriving DecidableEq, Repr

/-- What the system answers during one write; `result` is that of `pcm_write`. -/
structure WriteEnv where
  driver : PcmDriver
  result : Int

def outGetChannels (channelMask : BitVec 32) : BitVec 32 :=
  if channelMask ≠ 0#32 then channelMask else outChannelMaskDefault

def doInitOutCommon (frameSize : FrameSize) (cm : ConfigMgr) (hw : Nat) (config : AudioConfig)
    (devices : BitVec 32) : ConfigMgr × StreamOut :=
  let done := TinyHal.doInitOutCommon cm hw config devices
  (done.1, { output := done.2, frameSize := frameSize config.format (outGetChannels config.channelMask)
             bufferSize := 0, latency := 0, hwSampleRate := 0, hwChannelCount := 0, divisions := [] })

def outPcmCfgPeriodCount (s : Stream) : Nat :=
  if s.periodCount ≠ 0 then s.periodCount else outPeriodCountDefault

def outPcmCfgPeriodSize (s : Stream) : Nat :=
  if s.periodSize ≠ 0 then s.periodSize else outPeriodSizeDefault

def outPcmCfgChannelCount (out : StreamOut) : Nat :=
  if out.output.channelCount ≠ 0 then out.output.channelCount else outChannelCountDefault

/-- The rate is the stream's own, also where `out_get_sample_rate` has the hardware's. -/
def doInitOutPcm (s : Stream) (out : StreamOut) : Int × StreamOut :=
  (0, { out with
    bufferSize := word (outPcmCfgPeriodSize s * out.frameSize)
    latency := word (outPcmCfgPeriodSize s * outPcmCfgPeriodCount s * 1000) / out.output.sampleRate
    divisions := out.divisions ++ [⟨.doInitOutPcm, out.output.sampleRate⟩] })

def doInitOutCompress (env : OutputEnv) (s : Stream) (out : StreamOut) (config : AudioConfig) :
    Int × StreamOut :=
  let done := TinyHal.doInitOutCompress env s out.output config
  (done.1, { out with output := done.2 })

def adevOpenOutputStream (frameSize : FrameSize) (env : OutputEnv) (cm : ConfigMgr)
    (devices : BitVec 32) (config : AudioConfig) : Int × ConfigMgr × Option StreamOut :=
  let devices := devices &&& audioDeviceOutAll
  let got := getStream cm devices (audioIsLinearPcm config.format)
  match got.1.bind fun hw => (got.2.streams[hw]?).map fun s => (hw, s) with
  | none => (-einval, got.2, none)
  | some (hw, s) =>
    if env.calloc then
      let begun := doInitOutCommon frameSize got.2 hw config devices
      let done := if s.type = .outPcm then doInitOutPcm s begun.2
        else doInitOutCompress env s begun.2 config
      if done.1 < 0 then (done.1, begun.1, none) else (0, begun.1, some done.2)
    else (-enomem, got.2, none)

def outPcmFillParams (out : StreamOut) (config : PcmConfig) : StreamOut :=
  { out with
    hwSampleRate := config.rate
    hwChannelCount := config.channels
    bufferSize := pcmFramesToBytes config.channels config.periodSize
    latency := word (config.periodSize * config.periodCount * 1000) / config.rate
    divisions := out.divisions ++ [⟨.outPcmFillParams, config.rate⟩] }

def startOutputPcm (driver : PcmDriver) (s : Stream) (out : StreamOut) : Int × StreamOut :=
  let config : PcmConfig := ⟨outPcmCfgChannelCount out, s.rate, outPcmCfgPeriodSize s,
    outPcmCfgPeriodCount s⟩
  match driver.pcmOpen s.cardNumber s.deviceNumber config with
  | none => (-enomem, out)
  | some (periodSize, periodCount) =>
    (0, outPcmFillParams out { config with periodSize := periodSize, periodCount := periodCount })

/-- Nothing is written while the stream has no route. -/
def outPcmWrite (env : WriteEnv) (s : Stream) (out : StreamOut) (bytes : Nat) : Int × StreamOut :=
  let written : Int := if env.result ≥ 0 then bytes else env.result
  if s.currentDevices = 0#32 then (0, out)
  else if out.output.standby then
    let started := startOutputPcm env.driver s out
    if started.1 ≠ 0 then started
    else (written, { started.2 with output := { started.2.output with standby := false } })
  else (written, out)

def outPcmStandby (out : StreamOut) : StreamOut :=
  { out with output := { out.output with standby := true } }

/-- The routing, if there is one in the parameters, and the use cases. -/
def outSetParameters (strParms : StrParms) (cm : ConfigMgr) (out : StreamOut) (kvpairs : String) :
    ConfigMgr :=
  let cm := match routingParam strParms kvpairs with
    | some devices => routeStream cm out.output.hw devices
    | none => cm
  (streamInvokeUsecases cm (some out.output.hw) kvpairs).2

end Output

section Input

structure StreamIn where
  input : TinyHal.StreamIn
  frameSize : Nat
  bufferSize : Nat
  lastReadNs : Int
  hwSampleRate : Nat
  hwChannelCount : Nat
  periodSize : Nat
  maxPollWait : Nat
  delays : List Int
  divisions : List Division

/-- What the system answers during one read. `now` is the time when a delay is worked out, and
`readAt` the time at the end. -/
structure ReadEnv where
  driver : PcmDriver
  resamplerInit : Bool
  compressOpen : Option Nat
  result : Int
  micMute : Bool
  now : Int
  readAt : Int

def adevOpenInputStream (frameSize : FrameSize) (devices : BitVec 32) (config : AudioConfig) :
    StreamIn :=
  { input := TinyHal.adevOpenInputStream devices config
    frameSize := frameSize config.format (inGetChannels config.channelMask)
    bufferSize := inCompressBufferSizeDefault, lastReadNs := 0
    hwSampleRate := 0, hwChannelCount := 0, periodSize := 0, maxPollWait := 0
    delays := [], divisions := [] }

/-- The bytes of a second. The rate is the stream's own, also where `in_get_sample_rate` has the
hardware's. -/
def StreamIn.byteRate (si : StreamIn) : Nat := word (si.frameSize * si.input.sampleRate)

def StreamIn.divide (si : StreamIn) (site : Site) (divisor : Nat) : StreamIn :=
  { si with divisions := si.divisions ++ [⟨site, divisor⟩] }

/-- 0 stands for no time. -/
def doInSetReadTimestamp (readAt : Int) (si : StreamIn) : StreamIn :=
  { si with lastReadNs := if readAt = 0 then 1 else readAt }

/-- An interval counts units of 2^19 nanoseconds. -/
def doInRealtimeDelay (now : Int) (si : StreamIn) (bytes : Nat) : StreamIn :=
  if si.lastReadNs ≠ 0 then
    let requiredInterval : Int := ((word (1907 * bytes) / si.byteRate : Nat) : Int)
    let elapsedNs := now - si.lastReadNs
    let slept := if requiredInterval > elapsedNs / 524288 then [requiredInterval * 524288 - elapsedNs]
      else []
    { si.divide .doInRealtimeDelay si.byteRate with delays := si.delays ++ slept }
  else si

def inPcmCfgPeriodCount (s : Stream) : Nat :=
  if s.periodCount ≠ 0 then s.periodCount else inPeriodCountDefault

def inPcmCfgPeriodSize (s : Stream) : Nat :=
  if s.periodSize ≠ 0 then s.periodSize else inPeriodSizeDefault

def inPcmCfgChannelCount (si : TinyHal.StreamIn) : Nat :=
  if si.channelCount ≠ 0 then si.channelCount else inChannelCountDefault

def inPcmConfig (si : TinyHal.StreamIn) (s : Stream) : PcmConfig :=
  ⟨inPcmCfgChannelCount si, s.rate, inPcmCfgPeriodSize s, inPcmCfgPeriodCount s⟩

/-- What `pcm_open` answers for the stream's hardware. -/
def ReadEnv.pcmOpened (env : ReadEnv) (cm : ConfigMgr) (si : TinyHal.StreamIn) : Option (Nat × Nat) :=
  (si.stream cm).bind fun s => env.driver.pcmOpen s.cardNumber s.deviceNumber (inPcmConfig si s)

/-- The answers as far as handles go. -/
def ReadEnv.answers (env : ReadEnv) (cm : ConfigMgr) (si : TinyHal.StreamIn) : TinyHal.ReadEnv :=
  ⟨(env.pcmOpened cm si).isSome, env.resamplerInit, env.compressOpen, env.result, env.micMute⟩

/-- The frames are rounded up to a multiple of 16. -/
def inPcmFillParams (si : StreamIn) (config : PcmConfig) : StreamIn :=
  let size := word (config.periodSize * si.input.sampleRate) / config.rate
  { si.divide .inPcmFillParams config.rate with
    hwSampleRate := config.rate
    hwChannelCount := config.channels
    periodSize := config.periodSize
    bufferSize := word (word (size + 15) / 16 * 16 * si.frameSize) }

/-- The handles go as in `TinyHal.doOpenPcmInput`. -/
def doOpenPcmInput (env : ReadEnv) (cm : ConfigMgr) (si : StreamIn) : Int × StreamIn :=
  let done := TinyHal.doOpenPcmInput (env.answers cm si.input) cm si.input
  let filled := match si.input.stream cm, env.pcmOpened cm si.input with
    | some s, some (periodSize, periodCount) => inPcmFillParams si
        { inPcmConfig si.input s with periodSize := periodSize, periodCount := periodCount }
    | _, _ => si
  (done.1, { filled with input := done.2 })

def startPcmInputStream (env : ReadEnv) (cm : ConfigMgr) (si : StreamIn) : Int × StreamIn :=
  if si.input.standby then
    let done := doOpenPcmInput env cm si
    if done.1 = 0 then (0, { done.2 with input := { done.2.input with standby := false } }) else done
  else (0, si)

def doInPcmRead (env : ReadEnv) (cm : ConfigMgr) (si : StreamIn) (bytes : Nat) : Int × StreamIn :=
  -- the frames to read are only for the resampler
  let started := startPcmInputStream env cm (si.divide .doInPcmRead si.frameSize)
  if started.1 < 0 then started
  else (if env.result ≥ 0 then bytes else env.result,
    { started.2 with input := started.2.input.note [.touch ⟨.pcm, started.2.input.handle⟩] })

/-- One fragment of 4096 frames. -/
def doOpenCompressPcmIn (env : ReadEnv) (cm : ConfigMgr) (si : StreamIn) : Int × StreamIn :=
  let done := TinyHal.doOpenCompressPcmIn (env.answers cm si.input) si.input
  (done.1, { si with
    input := done.2
    bufferSize := if si.input.hw.isSome ∧ env.compressOpen = none then word (4096 * 1 * si.frameSize)
      else si.bufferSize })

/-- An error number passes for success here, and the wait is worked out all the same. -/
def startCompressPcmInputStream (env : ReadEnv) (cm : ConfigMgr) (si : StreamIn) : Int × StreamIn :=
  if si.input.standby then
    let done := doOpenCompressPcmIn env cm si
    if done.1 < 0 then done
    else
      let ms := 1000 * done.2.bufferSize / done.2.byteRate
      (0, { done.2.divide .startCompressPcmInputStream done.2.byteRate with
        maxPollWait := ms * 2
        input := { done.2.input.note [.touch ⟨.compress, done.2.input.handle⟩] with standby := false } })
  else (0, si)

/-- Data comes at four times its rate at most. -/
def doInCompressPcmRead (env : ReadEnv) (cm : ConfigMgr) (si : StreamIn) (bytes : Nat) :
    Int × StreamIn :=
  let started := startCompressPcmInputStream env cm si
  if started.1 < 0 then started
  else
    let read := { started.2 with
      input := started.2.input.note [.touch ⟨.compress, started.2.input.handle⟩] }
    (env.result, if env.result > 0 then doInRealtimeDelay env.now read (bytes / 4) else read)

/-- A read that gets nothing takes the time that its bytes would have taken. -/
def inPcmRead (env : ReadEnv) (cm : ConfigMgr) (si : StreamIn) (bytes : Nat) : Int × StreamIn :=
  let done : Int × StreamIn :=
    match si.input.stream cm with
    | none => (-einval, si)
    | some s =>
      if s.currentDevices = 0#32 then (-einval, si)
      else if streamIsCompressedIn s then doInCompressPcmRead env cm si bytes
      else doInPcmRead env cm si bytes
  let delayed := if done.1 ≤ 0 then doInRealtimeDelay env.now done.2 bytes else done.2
  (if done.1 ≤ 0 || env.micMute then bytes else done.1, doInSetReadTimestamp env.readAt delayed)

def inPcmStandby (cm : ConfigMgr) (si : StreamIn) : StreamIn :=
  { si with input := TinyHal.inPcmStandby cm si.input }

def inPcmSetParameters (strParms : StrParms) (adev : AudioDevice) (si : StreamIn) (kvpairs : String) :
    AudioDevice × StreamIn :=
  let done := TinyHal.inPcmSetParameters strParms adev 0 si.input kvpairs
  (done.1, { si with input := done.2 })

end Input

section Session

inductive OpenStream where
  | output (out : StreamOut)
  | input (si : StreamIn)

def OpenStream.divisions : OpenStream → List Division
  | .output out => out.divisions
  | .input si => si.divisions

/-- The arguments of an open. -/
inductive Request where
  | output (env : OutputEnv) (devices : BitVec 32) (config : AudioConfig)
  | input (devices : BitVec 32) (config : AudioConfig)

/-- The device and one of its streams, if it opened. Among the input streams it is number 0. -/
structure Session where
  adev : AudioDevice
  stream : Option OpenStream

def Session.divisions (s : Session) : List Division := s.stream.elim [] OpenStream.divisions

def openStream (frameSize : FrameSize) (adev : AudioDevice) : Request → Session
  | .output env devices config =>
    let done := adevOpenOutputStream frameSize env adev.cm devices config
    ⟨{ adev with cm := done.2.1 }, done.2.2.map .output⟩
  | .input devices config => ⟨adev, some (.input (adevOpenInputStream frameSize devices config))⟩

inductive StreamCall where
  | write (env : WriteEnv) (bytes : Nat)
  | read (env : ReadEnv) (bytes : Nat)
  | standby
  | setParameters (kvpairs : String)
  | voice (e : VoiceEvent)

/-- A stream on compressed output hardware has other functions for writing and standby, with
no division in them. -/
def outputCall (strParms : StrParms) (adev : AudioDevice) (out : StreamOut) :
    StreamCall → Option (AudioDevice × StreamOut)
  | .write env bytes => (adev.cm.streams[out.output.hw]?).map fun s =>
    (adev, if s.type = .outPcm then (outPcmWrite env s out bytes).2 else out)
  | .standby => (adev.cm.streams[out.output.hw]?).map fun s =>
    (adev, if s.type = .outPcm then outPcmStandby out else out)
  | .setParameters kvpairs =>
    some ({ adev with cm := outSetParameters strParms adev.cm out kvpairs }, out)
  | .read .. | .voice _ => none

def inputCall (strParms : StrParms) (adev : AudioDevice) (si : StreamIn) :
    StreamCall → Option (AudioDevice × StreamIn)
  | .read env bytes => some (adev, (inPcmRead env adev.cm si bytes).2)
  | .standby => some (adev, inPcmStandby adev.cm si)
  | .setParameters kvpairs => some (inPcmSetParameters strParms adev si kvpairs)
  | .write .. | .voice _ => none

/-- Voice events stand for all other users of the device, other streams among them. -/
def sessionStep (strParms : StrParms) (s : Session) : StreamCall → Option Session
  | .voice e => (voiceStep s.adev e).map fun adev => { s with adev := adev }
  | call => s.stream.bind fun
    | .output out => (outputCall strParms s.adev out call).map fun done =>
      ⟨done.1, some (.output done.2)⟩
    | .input si => (inputCall strParms s.adev si call).map fun done => ⟨done.1, some (.input done.2)⟩

end Session

section Condition

/-- Whether an open gets a PCM output stream. -/
def opensPcm (env : OutputEnv) (cm : ConfigMgr) (devices : BitVec 32) (config : AudioConfig) : Bool :=
  env.calloc && offers cm .outPcm &&
    requestedType (devices &&& audioDeviceOutAll) (audioIsLinearPcm config.format) = .outPcm

/-- The rates at which the bytes of a second are a multiple of 2^32 are the multiples of this. -/
def rateUnit (frameSize : Nat) : Nat := 4294967296 / Nat.gcd 4294967296 frameSize

/-- A PCM output stream has a rate of its own, and an input stream one at which the bytes of a
second do not wrap to zero. -/
def Request.Rated (frameSize : FrameSize) (cm : ConfigMgr) : Request → Prop
  | .output env devices config => opensPcm env cm devices config = true → config.sampleRate ≠ 0
  | .input _ config =>
    ¬ rateUnit (frameSize config.format (inGetChannels config.channelMask)) ∣ config.sampleRate

end Condition

section Refinement

variable (env : ReadEnv) (cm : ConfigMgr)

theorem startPcmInputStream_input (si : StreamIn) :
    ((startPcmInputStream env cm si).1, (startPcmInputStream env cm si).2.input) =
      TinyHal.startPcmInputStream (env.answers cm si.input) cm si.input := by
  unfold startPcmInputStream TinyHal.startPcmInputStream
  by_cases hst : si.input.standby = true
  · rw [if_pos hst, if_pos hst]
    have hsame : (doOpenPcmInput env cm si).1 =
        (TinyHal.doOpenPcmInput (env.answers cm si.input) cm si.input).1 := rfl
    dsimp only
    rw [hsame]
    by_cases hok : (TinyHal.doOpenPcmInput (env.answers cm si.input) cm si.input).1 = 0
    · rw [if_pos hok, if_pos hok]
      rfl
    · rw [if_neg hok, if_neg hok]
      rfl
  · rw [if_neg hst, if_neg hst]

/-- The timed read does to the input what the plain read does. -/
theorem doInPcmRead_input (si : StreamIn) (bytes : Nat) :
    ((doInPcmRead env cm si bytes).1, (doInPcmRead env cm si bytes).2.input) =
      TinyHal.doInPcmRead (env.answers cm si.input) cm si.input bytes := by
  have hstart := startPcmInputStream_input env cm (si.divide .doInPcmRead si.frameSize)
  have hinput : (si.divide .doInPcmRead si.frameSize).input = si.input := rfl
  rw [hinput] at hstart
  unfold doInPcmRead TinyHal.doInPcmRead
  rw [← hstart]
  dsimp only
  by_cases hfailed : (startPcmInputStream env cm (si.divide .doInPcmRead si.frameSize)).1 < 0
  · rw [if_pos hfailed, if_pos hfailed]
  · rw [if_neg hfailed, if_neg hfailed]
    rfl

theorem startCompressPcmInputStream_input (si : StreamIn) :
    ((startCompressPcmInputStream env cm si).1, (startCompressPcmInputStream env cm si).2.input) =
      TinyHal.startCompressPcmInputStream (env.answers cm si.input) si.input := by
  unfold startCompressPcmInputStream TinyHal.startCompressPcmInputStream
  by_cases hst : si.input.standby = true
  · rw [if_pos hst, if_pos hst]
    have hsame : (doOpenCompressPcmIn env cm si).1 =
        (TinyHal.doOpenCompressPcmIn (env.answers cm si.input) si.input).1 := rfl
    dsimp only
    rw [hsame]
    by_cases hfailed : (TinyHal.doOpenCompressPcmIn (env.answers cm si.input) si.input).1 < 0
    · rw [if_pos hfailed, if_pos hfailed]
      rfl
    · rw [if_neg hfailed, if_neg hfailed]
      rfl
  · rw [if_neg hst, if_neg hst]

/-- The delay for silence is about time only. -/
@[simp] theorem doInRealtimeDelay_input (now : Int) (si : StreamIn) (bytes : Nat) :
    (doInRealtimeDelay now si bytes).input = si.input := by
  unfold doInRealtimeDelay
  split <;> rfl

theorem doInCompressPcmRead_input (si : StreamIn) (bytes : Nat) :
    ((doInCompressPcmRead env cm si bytes).1, (doInCompressPcmRead env cm si bytes).2.input) =
      TinyHal.doInCompressPcmRead (env.answers cm si.input) si.input := by
  have hstart := startCompressPcmInputStream_input env cm si
  unfold doInCompressPcmRead TinyHal.doInCompressPcmRead
  rw [← hstart]
  dsimp only
  by_cases hfailed : (startCompressPcmInputStream env cm si).1 < 0
  · rw [if_pos hfailed, if_pos hfailed]
  · rw [if_neg hfailed, if_neg hfailed]
    by_cases hdata : env.result > 0
    · rw [if_pos hdata, doInRealtimeDelay_input]
      rfl
    · rw [if_neg hdata]
      rfl

theorem delayed_input (env : ReadEnv) (done : Int × StreamIn) (bytes : Nat) :
    (if done.1 ≤ 0 then doInRealtimeDelay env.now done.2 bytes else done.2).input = done.2.input := by
  split
  · exact doInRealtimeDelay_input ..
  · rfl

/-- A read treats the handles as `TinyHal.inPcmRead` does. -/
theorem inPcmRead_input (si : StreamIn) (bytes : Nat) :
    ((inPcmRead env cm si bytes).1, (inPcmRead env cm si bytes).2.input) =
      TinyHal.inPcmRead (env.answers cm si.input) cm si.input bytes := by
  have hend (done : Int × StreamIn) (old : Int × TinyHal.StreamIn)
      (h : (done.1, done.2.input) = old) :
      ((if done.1 ≤ 0 || env.micMute then (bytes : Int) else done.1 : Int),
        (doInSetReadTimestamp env.readAt
          (if done.1 ≤ 0 then doInRealtimeDelay env.now done.2 bytes else done.2)).input) =
      (if old.1 ≤ 0 || env.micMute then (bytes : Int) else old.1, old.2) := by
    subst h
    exact Prod.ext rfl (delayed_input env done bytes)
  unfold inPcmRead TinyHal.inPcmRead
  dsimp only
  apply hend
  cases si.input.stream cm with
  | none => rfl
  | some s =>
    dsimp only
    by_cases hroutes : s.currentDevices = 0#32
    · rw [if_pos hroutes, if_pos hroutes]
    · rw [if_neg hroutes, if_neg hroutes]
      by_cases hcompressed : streamIsCompressedIn s = true
      · rw [if_pos hcompressed, if_pos hcompressed]
        exact doInCompressPcmRead_input env cm si bytes
      · rw [if_neg hcompressed, if_neg hcompressed]
        exact doInPcmRead_input env cm si bytes

/-- The timed open returns what the plain open returns. -/
theorem adevOpenOutputStream_output (frameSize : FrameSize) (env : OutputEnv) (cm : ConfigMgr)
    (devices : BitVec 32) (config : AudioConfig) :
    ((adevOpenOutputStream frameSize env cm devices config).1,
      (adevOpenOutputStream frameSize env cm devices config).2.1,
      (adevOpenOutputStream frameSize env cm devices config).2.2.map StreamOut.output) =
      TinyHal.adevOpenOutputStream env cm devices config := by
  unfold adevOpenOutputStream TinyHal.adevOpenOutputStream
  dsimp only
  cases (getStream cm (devices &&& audioDeviceOutAll) (audioIsLinearPcm config.format)).1.bind
      fun hw => (((getStream cm (devices &&& audioDeviceOutAll)
        (audioIsLinearPcm config.format)).2.streams[hw]?).map fun s => (hw, s)) with
  | none => rfl
  | some picked =>
    obtain ⟨hw, s⟩ := picked
    dsimp only
    by_cases hcalloc : env.calloc = true
    · rw [if_pos hcalloc, if_pos hcalloc]
      by_cases hpcm : s.type = .outPcm
      · rw [if_pos hpcm, if_pos hpcm]
        rfl
      · rw [if_neg hpcm, if_neg hpcm]
        unfold doInitOutCompress doInitOutCommon
        dsimp only
        generalize TinyHal.doInitOutCompress env s _ config = done
        by_cases hfailed : done.1 < 0
        · rw [if_pos hfailed, if_pos hfailed]
          rfl
        · rw [if_neg hfailed, if_neg hfailed]
          rfl
    · rw [if_neg hcalloc, if_neg hcalloc]
      rfl

end Refinement

section Divisors

/-- A driver opens no device at rate 0. -/
theorem PcmDriver.rate_ne_zero {driver : PcmDriver} {card device : Option (BitVec 8)}
    {config : PcmConfig} {chosen : Nat × Nat}
    (h : driver.pcmOpen card device config = some chosen) : config.rate ≠ 0 := by
  intro hzero
  rw [driver.rate_zero card device config hzero] at h
  cases h

/-- What no call but an open or a close sets. -/
def inputSettings (si : TinyHal.StreamIn) : Nat × Bool := (si.sampleRate, si.isOpen)

/-- Frame size and settings are the same, and each new divisor is the frame size, the byte rate,
or not 0. -/
structure Evolves (si ti : StreamIn) : Prop where
  frameSize : ti.frameSize = si.frameSize
  settings : inputSettings ti.input = inputSettings si.input
  divisions : ∀ d ∈ ti.divisions, d ∈ si.divisions ∨
    d.divisor = si.frameSize ∨ d.divisor = si.byteRate ∨ d.divisor ≠ 0

variable {si ti ui : StreamIn}

theorem Evolves.byteRate (h : Evolves si ti) : ti.byteRate = si.byteRate := by
  have hrate : ti.input.sampleRate = si.input.sampleRate := congrArg Prod.fst h.settings
  unfold StreamIn.byteRate
  rw [h.frameSize, hrate]

/-- An input that was open stays so. -/
theorem Evolves.isOpen (h : Evolves si ti) (hopen : si.input.isOpen = true) :
    ti.input.isOpen = true :=
  (congrArg Prod.snd h.settings).trans hopen

/-- A change of the other fields. -/
theorem Evolves.of_same (hframe : ti.frameSize = si.frameSize)
    (hsettings : inputSettings ti.input = inputSettings si.input)
    (hsame : ti.divisions = si.divisions) : Evolves si ti := by
  refine ⟨hframe, hsettings, ?_⟩
  intro d hd
  rw [hsame] at hd
  exact .inl hd

theorem Evolves.refl (si : StreamIn) : Evolves si si := .of_same rfl rfl rfl

theorem Evolves.trans (h : Evolves si ti) (h' : Evolves ti ui) : Evolves si ui where
  frameSize := h'.frameSize.trans h.frameSize
  settings := h'.settings.trans h.settings
  divisions := by
    intro d hd
    have hnew := h'.divisions d hd
    rw [h.frameSize, h.byteRate] at hnew
    rcases hnew with hmem | hnew
    · exact h.divisions d hmem
    · exact .inr hnew

/-- A division by one of the allowed divisors is noted. -/
theorem evolves_divide (si : StreamIn) (site : Site) {divisor : Nat}
    (h : divisor = si.frameSize ∨ divisor = si.byteRate ∨ divisor ≠ 0) :
    Evolves si (si.divide site divisor) := by
  refine ⟨rfl, rfl, ?_⟩
  intro d hd
  rcases List.mem_append.mp hd with hmem | hlast
  · exact .inl hmem
  · rw [List.mem_singleton.mp hlast]
    exact .inr h

theorem doInRealtimeDelay_evolves (now : Int) (si : StreamIn) (bytes : Nat) :
    Evolves si (doInRealtimeDelay now si bytes) := by
  unfold doInRealtimeDelay
  by_cases hread : si.lastReadNs ≠ 0
  · rw [if_pos hread]
    have hdivide := evolves_divide si .doInRealtimeDelay (.inr (.inl rfl))
    exact hdivide.trans (.of_same rfl rfl rfl)
  · rw [if_neg hread]
    exact .refl si

/-- With a rate that is not 0 the parameters can be filled in. -/
theorem inPcmFillParams_evolves (si : StreamIn) {config : PcmConfig} (h : config.rate ≠ 0) :
    Evolves si (inPcmFillParams si config) := by
  have hdivide := evolves_divide si .inPcmFillParams (.inr (.inr h))
  exact hdivide.trans (.of_same rfl rfl rfl)

/-- Opening the PCM does not change the settings of the input. -/
theorem doOpenPcmInput_settings (env : TinyHal.ReadEnv) (cm : ConfigMgr) (si : TinyHal.StreamIn) :
    inputSettings (TinyHal.doOpenPcmInput env cm si).2 = inputSettings si := by
  unfold TinyHal.doOpenPcmInput
  cases si.stream cm with
  | none => rfl
  | some s =>
    dsimp only
    split_ifs <;> rfl

theorem doOpenCompressPcmIn_settings (env : TinyHal.ReadEnv) (si : TinyHal.StreamIn) :
    inputSettings (TinyHal.doOpenCompressPcmIn env si).2 = inputSettings si := by
  unfold TinyHal.doOpenCompressPcmIn
  cases si.hw with
  | none => rfl
  | some hw => cases env.compressOpen <;> rfl

theorem doOpenPcmInput_evolves (env : ReadEnv) (cm : ConfigMgr) (si : StreamIn) :
    Evolves si (doOpenPcmInput env cm si).2 := by
  have hsettings := doOpenPcmInput_settings (env.answers cm si.input) cm si.input
  unfold doOpenPcmInput ReadEnv.pcmOpened
  generalize TinyHal.doOpenPcmInput (env.answers cm si.input) cm si.input = done at hsettings
  cases si.input.stream cm with
  | none => exact .of_same rfl hsettings rfl
  | some s =>
    rw [Option.bind_some]
    cases hopen : env.driver.pcmOpen s.cardNumber s.deviceNumber (inPcmConfig si.input s) with
    | none => exact .of_same rfl hsettings rfl
    | some chosen =>
      have hrunning : (inPcmConfig si.input s).rate ≠ 0 := PcmDriver.rate_ne_zero hopen
      have hfill : Evolves si (inPcmFillParams si
          { inPcmConfig si.input s with periodSize := chosen.1, periodCount := chosen.2 }) :=
        inPcmFillParams_evolves si hrunning
      exact hfill.trans (.of_same rfl hsettings rfl)

theorem startPcmInputStream_evolves (env : ReadEnv) (cm : ConfigMgr) (si : StreamIn) :
    Evolves si (startPcmInputStream env cm si).2 := by
  have hopen := doOpenPcmInput_evolves env cm si
  unfold startPcmInputStream
  dsimp only
  split_ifs
  · exact hopen.trans (.of_same rfl rfl rfl)
  · exact hopen
  · exact .refl si

theorem doInPcmRead_evolves (env : ReadEnv) (cm : ConfigMgr) (si : StreamIn) (bytes : Nat) :
    Evolves si (doInPcmRead env cm si bytes).2 := by
  have hframes := evolves_divide si .doInPcmRead (.inl rfl)
  have hstart := hframes.trans (startPcmInputStream_evolves env cm _)
  unfold doInPcmRead
  dsimp only
  split_ifs
  · exact hstart
  · exact hstart.trans (.of_same rfl rfl rfl)
  · exact hstart.trans (.of_same rfl rfl rfl)

theorem startCompressPcmInputStream_evolves (env : ReadEnv) (cm : ConfigMgr) (si : StreamIn) :
    Evolves si (startCompressPcmInputStream env cm si).2 := by
  have hopen : Evolves si (doOpenCompressPcmIn env cm si).2 :=
    .of_same rfl (doOpenCompressPcmIn_settings ..) rfl
  unfold startCompressPcmInputStream
  dsimp only
  split_ifs
  · exact hopen
  · have hwait := hopen.trans (evolves_divide _ .startCompressPcmInputStream (.inr (.inl rfl)))
    exact hwait.trans (.of_same rfl rfl rfl)
  · exact .refl si

theorem doInCompressPcmRead_evolves (env : ReadEnv) (cm : ConfigMgr) (si : StreamIn) (bytes : Nat) :
    Evolves si (doInCompressPcmRead env cm si bytes).2 := by
  have hstart := startCompressPcmInputStream_evolves env cm si
  unfold doInCompressPcmRead
  dsimp only
  by_cases hfailed : (startCompressPcmInputStream env cm si).1 < 0
  · rw [if_pos hfailed]
    exact hstart
  · rw [if_neg hfailed]
    generalize (startCompressPcmInputStream env cm si).2 = started at hstart
    have hread : Evolves si { started with
        input := started.input.note [.touch ⟨.compress, started.input.handle⟩] } :=
      hstart.trans (.of_same rfl rfl rfl)
    dsimp only
    split_ifs
    · exact hread.trans (doInRealtimeDelay_evolves ..)
    · exact hread

/-- A read, whichever way the input is open and whatever fails. -/
theorem inPcmRead_evolves (env : ReadEnv) (cm : ConfigMgr) (si : StreamIn) (bytes : Nat) :
    Evolves si (inPcmRead env cm si bytes).2 := by
  have hend (done : Int × StreamIn) (h : Evolves si done.2) :
      Evolves si (doInSetReadTimestamp env.readAt
        (if done.1 ≤ 0 then doInRealtimeDelay env.now done.2 bytes else done.2)) := by
    have hdelayed : Evolves si
        (if done.1 ≤ 0 then doInRealtimeDelay env.now done.2 bytes else done.2) := by
      split_ifs
      · exact h.trans (doInRealtimeDelay_evolves ..)
      · exact h
    exact hdelayed.trans (.of_same rfl rfl rfl)
  unfold inPcmRead
  dsimp only
  apply hend
  cases si.input.stream cm with
  | none => exact .refl si
  | some s =>
    dsimp only
    split_ifs
    · exact .refl si
    · exact doInCompressPcmRead_evolves env cm si bytes
    · exact doInPcmRead_evolves env cm si bytes

theorem inPcmStandby_settings (cm : ConfigMgr) (si : TinyHal.StreamIn) :
    inputSettings (TinyHal.inPcmStandby cm si) = inputSettings si := by
  unfold TinyHal.inPcmStandby doInCompressPcmStandby doInPcmStandby
  cases si.stream cm with
  | none => rfl
  | some s =>
    dsimp only
    split_ifs <;> rfl

theorem changeInputSourceLocked_settings (adev : AudioDevice) (k : Nat) (si : TinyHal.StreamIn)
    (newSource : Int) (devices : BitVec 32) :
    inputSettings (changeInputSourceLocked adev k si newSource devices).2.2 = inputSettings si := by
  unfold changeInputSourceLocked
  dsimp only
  split_ifs
  · rfl
  · rfl
  · cases (openSource adev si newSource devices).1 <;> rfl

theorem applyInputRouting_settings (adev : AudioDevice) (si : TinyHal.StreamIn)
    (routing : Option (BitVec 32)) (kvpairs : String) :
    inputSettings (applyInputRouting adev si routing kvpairs).2 = inputSettings si := by
  cases routing <;> rfl

theorem inPcmSetParameters_settings (strParms : StrParms) (adev : AudioDevice) (k : Nat)
    (si : TinyHal.StreamIn) (kvpairs : String) :
    inputSettings (TinyHal.inPcmSetParameters strParms adev k si kvpairs).2 = inputSettings si := by
  unfold TinyHal.inPcmSetParameters
  cases intParam strParms kvpairs "input_source" with
  | none => exact applyInputRouting_settings ..
  | some newSource =>
    dsimp only
    have hchanged := changeInputSourceLocked_settings adev k si newSource
      (sourceDevices adev.cm si (routingParam strParms kvpairs))
    split_ifs
    · exact hchanged
    · exact (applyInputRouting_settings ..).trans hchanged

/-- The step lemma for calls of an input. -/
theorem inputCall_evolves {strParms : StrParms} {adev adev' : AudioDevice} {call : StreamCall}
    (h : inputCall strParms adev si call = some (adev', ti)) : Evolves si ti := by
  cases call with
  | read env bytes =>
    cases h
    exact inPcmRead_evolves ..
  | standby =>
    cases h
    exact .of_same rfl (inPcmStandby_settings ..) rfl
  | setParameters kvpairs =>
    cases h
    exact .of_same rfl (inPcmSetParameters_settings ..) rfl
  | write => cases h
  | voice => cases h

end Divisors

section Handles

/-- A session on an input stream, and the device that has only this one. -/
inductive Represents : Session → InputDevice → Prop
  | intro {adev : AudioDevice} {si : StreamIn} : si.input.isOpen = true →
      Represents ⟨adev, some (.input si)⟩ ⟨adev, [si.input]⟩

/-- A timed session goes along with the session it stands for. -/
theorem sessionStep_represents {strParms : StrParms} {s t : Session} {d : InputDevice}
    {call : StreamCall} (h : Represents s d) (hstep : sessionStep strParms s call = some t) :
    ∃ c d', inputStep strParms d c = some d' ∧ Represents t d' := by
  cases h with
  | @intro adev si hopen =>
    have hinput : InputDevice.input ⟨adev, [si.input]⟩ 0 = some si.input := by
      simp [InputDevice.input, hopen]
    cases call with
    | voice e =>
      obtain ⟨adev', hvoice, rfl⟩ := Option.map_eq_some_iff.mp hstep
      refine ⟨.voice e, ⟨adev', [si.input]⟩, ?_, .intro hopen⟩
      rw [inputStep, hvoice]
      rfl
    | write env bytes => cases hstep
    | read env bytes =>
      cases hstep
      have hread := congrArg Prod.snd (inPcmRead_input env adev.cm si bytes)
      have hkept := (inPcmRead_evolves env adev.cm si bytes).isOpen hopen
      refine ⟨.read 0 (env.answers adev.cm si.input) bytes, _, ?_, .intro hkept⟩
      rw [inputStep, hinput]
      dsimp only at hread
      simp [hread]
    | standby =>
      cases hstep
      have hevolves : Evolves si (inPcmStandby adev.cm si) :=
        .of_same rfl (inPcmStandby_settings ..) rfl
      refine ⟨.standby 0, _, ?_, .intro (hevolves.isOpen hopen)⟩
      rw [inputStep, hinput]
      rfl
    | setParameters kvpairs =>
      cases hstep
      have hevolves : Evolves si (inPcmSetParameters strParms adev si kvpairs).2 :=
        .of_same rfl (inPcmSetParameters_settings ..) rfl
      refine ⟨.setParameters 0 kvpairs, _, ?_, .intro (hevolves.isOpen hopen)⟩
      rw [inputStep, hinput]
      rfl

theorem run_represents {strParms : StrParms} {calls : List StreamCall} {s t : Session}
    {d : InputDevice} (h : Represents s d) (hrun : run (sessionStep strParms) s calls = some t) :
    ∃ cs d', run (inputStep strParms) d cs = some d' ∧ Represents t d' := by
  induction calls generalizing s d with
  | nil =>
    cases hrun
    exact ⟨[], d, rfl, h⟩
  | cons call calls ih =>
    obtain ⟨u, hu, hrest⟩ := Option.bind_eq_some_iff.mp hrun
    obtain ⟨c, d₁, hc, hd₁⟩ := sessionStep_represents h hu
    obtain ⟨cs, d', hcs, hd'⟩ := ih hd₁ hrest
    refine ⟨c :: cs, d', ?_, hd'⟩
    rw [run_cons, hc]
    exact hcs

/-- Every session on an input stream is a run of the device with its handles and references. -/
theorem input_session_refines {strParms : StrParms} {frameSize : FrameSize} {adev : AudioDevice}
    {devices : BitVec 32} {config : AudioConfig} {calls : List StreamCall} {t : Session}
    (hrun : run (sessionStep strParms) (openStream frameSize adev (.input devices config)) calls =
      some t) :
    ∃ cs d, run (inputStep strParms) ⟨adev, []⟩ cs = some d ∧ Represents t d := by
  have hopened : Represents (openStream frameSize adev (.input devices config))
      ⟨adev, [TinyHal.adevOpenInputStream devices config]⟩ :=
    @Represents.intro adev (adevOpenInputStream frameSize devices config) rfl
  obtain ⟨cs, d, hcs, hd⟩ := run_represents hopened hrun
  exact ⟨.openStream devices config :: cs, d, hcs, hd⟩

end Handles

section Runs

variable {strParms : StrParms} {frameSize : FrameSize} {adev adev' : AudioDevice}

theorem word_mul_eq_zero (a b : Nat) : word (a * b) = 0 ↔ rateUnit a ∣ b := by
  have hpos : 0 < Nat.gcd 4294967296 a := Nat.gcd_pos_of_pos_left a (by decide)
  have hdvd : Nat.gcd 4294967296 a ∣ 4294967296 := Nat.gcd_dvd_left _ a
  unfold word rateUnit
  rw [← Nat.dvd_iff_mod_eq_zero, ← Nat.dvd_gcd_mul_iff_dvd_mul]
  exact (Nat.div_dvd_iff_dvd_mul hdvd hpos).symm

/-- No divisor so far is 0, and for an input stream none will be. -/
inductive Nonzero : OpenStream → Prop
  | output {out : StreamOut} : (∀ d ∈ out.divisions, d.divisor ≠ 0) → Nonzero (.output out)
  | input {si : StreamIn} : si.byteRate ≠ 0 → (∀ d ∈ si.divisions, d.divisor ≠ 0) → Nonzero (.input si)

/-- With the values set none of the divisors is 0. -/
theorem Nonzero.divisions {stream : OpenStream} (h : Nonzero stream) :
    ∀ d ∈ stream.divisions, d.divisor ≠ 0 := by
  cases h with
  | output hout => exact hout
  | input _ hin => exact hin

/-- With a byte rate there is a frame size, so that no new divisor is 0. -/
theorem Evolves.nonzero {si ti : StreamIn} (h : Evolves si ti) (hs : Nonzero (.input si)) :
    Nonzero (.input ti) := by
  cases hs with
  | input hrate hdivisions =>
    have hframe : si.frameSize ≠ 0 := by
      intro hzero
      apply hrate
      unfold StreamIn.byteRate
      rw [hzero, Nat.zero_mul]
      rfl
    refine .input (h.byteRate ▸ hrate) ?_
    intro d hd
    rcases h.divisions d hd with hmem | hnew | hnew | hnew
    · exact hdivisions d hmem
    · rw [hnew]
      exact hframe
    · rw [hnew]
      exact hrate
    · exact hnew

theorem startOutputPcm_nonzero (driver : PcmDriver) (s : Stream) {out : StreamOut}
    (h : ∀ d ∈ out.divisions, d.divisor ≠ 0) :
    ∀ d ∈ (startOutputPcm driver s out).2.divisions, d.divisor ≠ 0 := by
  unfold startOutputPcm
  dsimp only
  cases hopen : driver.pcmOpen s.cardNumber s.deviceNumber ⟨outPcmCfgChannelCount out, s.rate,
      outPcmCfgPeriodSize s, outPcmCfgPeriodCount s⟩ with
  | none => exact h
  | some chosen =>
    intro d hd
    rcases List.mem_append.mp hd with hmem | hlast
    · exact h d hmem
    · rw [List.mem_singleton.mp hlast]
      exact PcmDriver.rate_ne_zero hopen

/-- A write divides by the rate and the frame size of its own stream. -/
theorem outPcmWrite_nonzero (env : WriteEnv) (s : Stream) {out : StreamOut} (bytes : Nat)
    (h : ∀ d ∈ out.divisions, d.divisor ≠ 0) :
    ∀ d ∈ (outPcmWrite env s out bytes).2.divisions, d.divisor ≠ 0 := by
  have hstart := startOutputPcm_nonzero env.driver s h
  unfold outPcmWrite
  dsimp only
  by_cases hroutes : s.currentDevices = 0#32
  · rw [if_pos hroutes]
    exact h
  · rw [if_neg hroutes]
    by_cases hst : out.output.standby = true
    · rw [if_pos hst]
      by_cases hfailed : (startOutputPcm env.driver s out).1 ≠ 0
      · rw [if_pos hfailed]
        exact hstart
      · rw [if_neg hfailed]
        exact hstart
    · rw [if_neg hst]
      exact h

theorem outputCall_nonzero {out out' : StreamOut} {call : StreamCall}
    (h : outputCall strParms adev out call = some (adev', out')) (hs : Nonzero (.output out)) :
    Nonzero (.output out') := by
  cases hs with
  | output hout =>
    cases call with
    | write env bytes =>
      obtain ⟨s, -, hs⟩ := Option.map_eq_some_iff.mp h
      cases hs
      refine .output ?_
      split_ifs
      · exact outPcmWrite_nonzero env s bytes hout
      · exact hout
    | standby =>
      obtain ⟨s, -, hs⟩ := Option.map_eq_some_iff.mp h
      cases hs
      refine .output ?_
      split_ifs <;> exact hout
    | setParameters kvpairs =>
      cases h
      exact .output hout
    | read => cases h
    | voice => cases h

/-- A step leaves the stream alone, or is a call on it. -/
theorem sessionStep_cases {s t : Session} {call : StreamCall}
    (h : sessionStep strParms s call = some t) :
    t.stream = s.stream ∨
      (∃ out out', s.stream = some (.output out) ∧ t.stream = some (.output out') ∧
        outputCall strParms s.adev out call = some (t.adev, out')) ∨
      ∃ si ti, s.stream = some (.input si) ∧ t.stream = some (.input ti) ∧
        inputCall strParms s.adev si call = some (t.adev, ti) := by
  unfold sessionStep at h
  split at h
  · obtain ⟨adev, -, rfl⟩ := Option.map_eq_some_iff.mp h
    exact .inl rfl
  · obtain ⟨stream, hstream, hcall⟩ := Option.bind_eq_some_iff.mp h
    cases stream with
    | output out =>
      obtain ⟨done, hdone, rfl⟩ := Option.map_eq_some_iff.mp hcall
      exact .inr (.inl ⟨out, done.2, hstream, rfl, hdone⟩)
    | input si =>
      obtain ⟨done, hdone, rfl⟩ := Option.map_eq_some_iff.mp hcall
      exact .inr (.inr ⟨si, done.2, hstream, rfl, hdone⟩)

def Session.Nonzero (s : Session) : Prop := ∀ stream, s.stream = some stream → Timing.Nonzero stream

theorem sessionStep_nonzero {s t : Session} {call : StreamCall}
    (h : sessionStep strParms s call = some t) (hs : s.Nonzero) : t.Nonzero := by
  intro stream hstream
  rcases sessionStep_cases h with hsame | ⟨out, out', hout, hout', hcall⟩ | ⟨si, ti, hsi, hti, hcall⟩
  · rw [hsame] at hstream
    exact hs stream hstream
  · rw [hout'] at hstream
    cases hstream
    exact outputCall_nonzero hcall (hs _ hout)
  · rw [hti] at hstream
    cases hstream
    exact (inputCall_evolves hcall).nonzero (hs _ hsi)

theorem run_nonzero {calls : List StreamCall} {s t : Session}
    (h : run (sessionStep strParms) s calls = some t) (hs : s.Nonzero) : t.Nonzero := by
  induction calls generalizing s with
  | nil =>
    cases h
    exact hs
  | cons call calls ih =>
    obtain ⟨u, hu, hrest⟩ := Option.bind_eq_some_iff.mp h
    exact ih hrest (sessionStep_nonzero hu hs)

theorem Session.Nonzero.divisions {s : Session} (h : s.Nonzero) : ∀ d ∈ s.divisions, d.divisor ≠ 0 := by
  intro d hd
  unfold Session.divisions at hd
  cases hstream : s.stream with
  | none =>
    rw [hstream] at hd
    cases hd
  | some stream =>
    rw [hstream] at hd
    exact (h stream hstream).divisions d hd

/-- An output stream has one division behind it, if it is on PCM hardware. -/
theorem openOutput_divisions (frameSize : FrameSize) (adev : AudioDevice) (env : OutputEnv)
    (devices : BitVec 32) (config : AudioConfig) :
    (openStream frameSize adev (.output env devices config)).divisions =
      if opensPcm env adev.cm devices config then [⟨.doInitOutPcm, config.sampleRate⟩] else [] := by
  have htaking := getStream_taking adev.cm (devices &&& audioDeviceOutAll)
    (audioIsLinearPcm config.format)
  have hsome := getStream_isSome adev.cm (devices &&& audioDeviceOutAll)
    (audioIsLinearPcm config.format)
  unfold openStream adevOpenOutputStream opensPcm Session.divisions
  dsimp only
  generalize requestedType (devices &&& audioDeviceOutAll) (audioIsLinearPcm config.format) = type
    at htaking hsome
  generalize getStream adev.cm (devices &&& audioDeviceOutAll) (audioIsLinearPcm config.format) = got
    at htaking hsome
  cases htaking with
  | none =>
    have hnone : (env.calloc && offers adev.cm .outPcm && decide (type = .outPcm)) = false := by
      by_cases htype : type = .outPcm
      · subst htype
        rw [← hsome]
        simp
      · simp [htype]
    rw [hnone]
    rfl
  | @some i s cm' hs htype hfree hstreams =>
    have hhere : cm'.streams[i]? = some s.taken := by
      rw [hstreams, List.getElem?_modify, hs]
      simp
    have htaken : s.taken.type = type := htype
    have hoffers : offers adev.cm type = true := hsome.symm
    dsimp only
    rw [Option.bind_some, hhere, Option.map_some]
    dsimp only
    rw [htaken]
    cases hcalloc : env.calloc with
    | false => rfl
    | true =>
      by_cases hpcm : type = .outPcm
      · subst hpcm
        rw [hoffers]
        rfl
      · rw [if_pos rfl, if_neg hpcm, decide_eq_false hpcm, Bool.and_false]
        unfold doInitOutCompress doInitOutCommon
        dsimp only
        generalize TinyHal.doInitOutCompress env s.taken _ config = done
        by_cases hfailed : done.1 < 0
        · rw [if_pos hfailed]
          rfl
        · rw [if_neg hfailed]
          rfl

/-- Without a source a read takes its time, once there has been another. -/
theorem inPcmRead_without_source {si : StreamIn} {cm : ConfigMgr} (hnone : si.input.stream cm = none)
    (env : ReadEnv) (bytes : Nat) :
    (inPcmRead env cm si bytes).2 =
      doInSetReadTimestamp env.readAt (doInRealtimeDelay env.now si bytes) := by
  unfold inPcmRead
  rw [hnone]
  rfl

/-- The system refuses everything. -/
def refusingEnv : ReadEnv :=
  ⟨⟨fun _ _ _ => none, fun _ _ _ _ => rfl⟩, false, none, -1, false, 0, 0⟩

/-- Two reads from a stream that has no source yet divide by the byte rate. -/
theorem two_reads_divide (frameSize : FrameSize) (strParms : StrParms) (adev : AudioDevice)
    (devices : BitVec 32) (config : AudioConfig) : ∃ s,
    run (sessionStep strParms) (openStream frameSize adev (.input devices config))
      [.read refusingEnv 0, .read refusingEnv 0] = some s ∧
      ⟨.doInRealtimeDelay, (adevOpenInputStream frameSize devices config).byteRate⟩ ∈ s.divisions := by
  obtain ⟨si, hsi⟩ : ∃ si, si = adevOpenInputStream frameSize devices config := ⟨_, rfl⟩
  have hfirst : (inPcmRead refusingEnv adev.cm si 0).2 = { si with lastReadNs := 1 } := by
    subst hsi
    rw [inPcmRead_without_source rfl]
    rfl
  have hsecond : (inPcmRead refusingEnv adev.cm { si with lastReadNs := 1 } 0).2.divisions =
      [⟨.doInRealtimeDelay, si.byteRate⟩] := by
    subst hsi
    rw [inPcmRead_without_source rfl]
    rfl
  refine ⟨⟨adev, some (.input (inPcmRead refusingEnv adev.cm
    (inPcmRead refusingEnv adev.cm si 0).2 0).2)⟩, ?_, ?_⟩
  · subst hsi
    rfl
  · rw [← hsi]
    show _ ∈ (inPcmRead refusingEnv adev.cm (inPcmRead refusingEnv adev.cm si 0).2 0).2.divisions
    rw [hfirst, hsecond]
    exact List.mem_singleton_self _

end Runs

/-- In every run no divisor is 0, exactly if the request has a rate to divide by. -/
theorem divisors_iff (frameSize : FrameSize) (strParms : StrParms) (adev : AudioDevice)
    (request : Request) :
    (∀ calls s, run (sessionStep strParms) (openStream frameSize adev request) calls = some s →
      ∀ d ∈ s.divisions, d.divisor ≠ 0) ↔ request.Rated frameSize adev.cm := by
  cases request with
  | output env devices config =>
    have hopened := openOutput_divisions frameSize adev env devices config
    constructor
    · intro h hpcm
      rw [if_pos hpcm] at hopened
      apply h [] _ rfl ⟨.doInitOutPcm, config.sampleRate⟩
      rw [hopened]
      exact List.mem_singleton_self _
    · intro hrated calls s hrun
      refine (run_nonzero hrun ?_).divisions
      intro stream hstream
      obtain ⟨out, -, rfl⟩ := Option.map_eq_some_iff.mp hstream
      refine .output ?_
      intro d hd
      have hmem : d ∈ (openStream frameSize adev (.output env devices config)).divisions := by
        unfold Session.divisions
        rw [hstream]
        exact hd
      rw [hopened] at hmem
      by_cases hpcm : opensPcm env adev.cm devices config = true
      · rw [if_pos hpcm] at hmem
        rw [List.mem_singleton.mp hmem]
        exact hrated hpcm
      · rw [if_neg hpcm] at hmem
        cases hmem
  | input devices config =>
    obtain ⟨si, hsi⟩ : ∃ si, si = adevOpenInputStream frameSize devices config := ⟨_, rfl⟩
    have hrate : si.byteRate = 0 ↔
        rateUnit (frameSize config.format (inGetChannels config.channelMask)) ∣ config.sampleRate := by
      subst hsi
      exact word_mul_eq_zero _ _
    constructor
    · intro h hunit
      obtain ⟨s, hrun, hdelay⟩ := two_reads_divide frameSize strParms adev devices config
      rw [← hsi] at hdelay
      exact h _ s hrun _ hdelay (hrate.mpr hunit)
    · intro hrated calls s hrun
      refine (run_nonzero hrun ?_).divisions
      intro stream hstream
      cases hstream
      rw [← hsi]
      refine .input (fun hzero => hrated (hrate.mp hzero)) ?_
      subst hsi
      intro d hd
      cases hd

-- mono and stereo with 16 bits
example : rateUnit 2 = 2147483648 ∧ rateUnit 4 = 1073741824 := by decide +kernel

section Mocha

/-- A device that opens at every rate but 0. -/
def readyDriver : PcmDriver where
  pcmOpen _ _ config := if config.rate = 0 then none else some (config.periodSize, config.periodCount)
  rate_zero _ _ _ h := if_pos h

/-- What the microphone's device answers. -/
def micEnv (result : Int) : ReadEnv := ⟨readyDriver, true, none, result, false, 2000, 3000⟩

/-- Opened with its rate to be chosen by the hardware, an output stream divides by it, and an
input stream does when a read fails after another. -/
theorem default_rate_divides :
    (openStream pcm16FrameSize (newAudioDevice mochaConfig)
      (.output readyEnv 0x2#32 ⟨0, 0x3#32, 0x1#32⟩)).divisions = [⟨.doInitOutPcm, 0⟩] ∧
    (run (sessionStep pairParms) (openStream pcm16FrameSize (newAudioDevice mochaConfig)
      (.input audioDeviceInBuiltinMic ⟨0, 0x10#32, 0x1#32⟩))
      [.setParameters "input_source=1;routing=-2147483644", .read (micEnv 0) 512,
        .read (micEnv (-5)) 512]).map (fun s => s.divisions) =
      some [⟨.doInPcmRead, 2⟩, ⟨.inPcmFillParams, 48000⟩, ⟨.doInPcmRead, 2⟩,
        ⟨.doInRealtimeDelay, 0⟩] ∧
    ¬ ∀ request calls s, run (sessionStep pairParms)
      (openStream pcm16FrameSize (newAudioDevice mochaConfig) request) calls = some s →
        ∀ d ∈ s.divisions, d.divisor ≠ 0 := by
  refine ⟨by decide +kernel, by decide +kernel, ?_⟩
  intro h
  have hzero : ⟨.doInitOutPcm, 0⟩ ∈ (openStream pcm16FrameSize (newAudioDevice mochaConfig)
      (.output readyEnv 0x2#32 ⟨0, 0x3#32, 0x1#32⟩)).divisions := by decide +kernel
  exact h _ [] _ rfl _ hzero rfl

end Mocha

end TinyHal.Timing
