import Mocha.AudioControls
import Mocha.Mask
import Mocha.Transition

/-!
# Streams, devices and routes of the audio configuration

The configuration manager as the parser leaves it, and the calls on it:
`get_stream`, `get_named_stream`, `apply_route` and `release_stream`. Each call
holds the manager's lock while it changes anything, so a run is a sequence of
calls.

The field `walks` is history. Every pass over the devices adds one entry that
says which devices it handed to `apply_paths_by_id_l` and which of their paths
were applied.
-/
namespace TinyHal

def audioDeviceBitIn : BitVec 32 := 0x80000000#32
def audioDeviceOutAll : BitVec 32 := 0x47FFFFFF#32
def audioDeviceInAll : BitVec 32 := 0xC31FFFFF#32

/-- The paths "off" and "on" have fixed ids. -/
def pathIdOff : Int := 0
def pathIdOn : Int := 1

structure Path where
  id : Int
  ctls : List Ctl
  deriving DecidableEq, Repr

/-- Type 0 is the global device. -/
structure Device where
  type : BitVec 32
  useCount : Int
  paths : List Path
  deriving DecidableEq, Repr

structure SCase where
  name : String
  ctls : List Ctl
  deriving DecidableEq, Repr

structure Usecase where
  name : String
  cases : List SCase
  deriving DecidableEq, Repr

structure StreamControl where
  id : Nat
  index : Nat
  min : Nat
  max : Nat
  deriving DecidableEq, Repr

inductive StreamType where
  | outPcm
  | inPcm
  | outCompress
  | inCompress
  | outHw
  | inHw
  | global
  deriving DecidableEq, Repr

/-- A card or device number is `none` where the parser stores an uninitialised one. -/
structure Stream where
  type : StreamType
  cardNumber : Option (BitVec 8)
  deviceNumber : Option (BitVec 8)
  rate : Nat
  periodSize : Nat
  periodCount : Nat
  name : Option String
  refCount : Int
  maxRefCount : Int
  enablePath : Int
  disablePath : Int
  currentDevices : BitVec 32
  volumeLeft : StreamControl
  volumeRight : StreamControl
  usecases : List Usecase
  deriving DecidableEq, Repr

def streamIsInput (s : Stream) : Bool :=
  s.type = .inPcm || s.type = .inCompress || s.type = .inHw

/-- One `apply_paths_by_id_l`: the device's position and the paths applied to it. -/
structure Visit where
  device : Nat
  applied : List Path
  deriving DecidableEq, Repr

/-- One pass of `apply_paths_to_devices_l` or `apply_paths_to_global_l`. -/
structure Walk where
  firstId : Int
  secondId : Int
  visits : List Visit
  deriving DecidableEq, Repr

structure ConfigMgr where
  mixer : Mixer
  supportedOutputDevices : BitVec 32
  supportedInputDevices : BitVec 32
  devices : List Device
  streams : List Stream
  walks : List Walk
  deriving DecidableEq, Repr

/-- A device being worked on, the mixer, and the paths applied so far. -/
structure Applying where
  mixer : Mixer
  device : Device
  applied : List Path

/-- The path at position `p`; opening a control late changes the path's copy of it. -/
def applyPathL (a : Applying) (p : Nat) (path : Path) : Applying :=
  let done := applyCtlsL a.mixer path.ctls
  { mixer := done.1
    device := { a.device with paths := a.device.paths.set p { path with ctls := done.2 } }
    applied := a.applied ++ [path] }

/-- The on and off paths of a device are reference-counted. -/
def applyDevicePathL (a : Applying) (p : Nat) : Applying :=
  match a.device.paths[p]? with
  | none => a
  | some path =>
    if path.id = pathIdOff then
      let a := { a with device := { a.device with useCount := a.device.useCount - 1 } }
      if a.device.useCount > 0 then a else applyPathL a p path
    else if path.id = pathIdOn then
      let a := { a with device := { a.device with useCount := a.device.useCount + 1 } }
      if a.device.useCount > 1 then a else applyPathL a p path
    else applyPathL a p path

/-- Both paths are looked for in one walk of the list, which starts at position `p`. -/
def findPaths (firstId secondId : Int) (p : Nat) (found : Option Nat × Option Nat) :
    List Path → Option Nat × Option Nat
  | [] => found
  | path :: rest =>
    if path.id = firstId then
      if found.2.isSome ∨ firstId = secondId then (some p, found.2)
      else findPaths firstId secondId (p + 1) (some p, found.2) rest
    else if path.id = secondId then
      if found.1.isSome then (found.1, some p)
      else findPaths firstId secondId (p + 1) (found.1, some p) rest
    else findPaths firstId secondId (p + 1) found rest

def applyPathsByIdL (mixer : Mixer) (pdev : Device) (firstId secondId : Int) : Applying :=
  let found := findPaths firstId secondId 0 (none, none) pdev.paths
  let a : Applying := ⟨mixer, pdev, []⟩
  let a := match found.1 with
    | some p => applyDevicePathL a p
    | none => a
  match found.2 with
  | some p => applyDevicePathL a p
  | none => a

/-- `apply_paths_by_id_l` on the device at position `k` of the manager. -/
def visit (cm : ConfigMgr) (k : Nat) (pdev : Device) (firstId secondId : Int) : ConfigMgr × Visit :=
  let a := applyPathsByIdL cm.mixer pdev firstId secondId
  ({ cm with mixer := a.mixer, devices := cm.devices.set k a.device }, ⟨k, a.applied⟩)

/-- The loop of `apply_paths_to_devices_l` from position `k` on. -/
def applyPathsLoop (inputFlag : BitVec 32) (firstId secondId : Int) :
    Nat → Nat → BitVec 32 → ConfigMgr → ConfigMgr × List Visit
  | 0, _, _, cm => (cm, [])
  | devCount + 1, k, devices, cm =>
    if devices = 0#32 then (cm, [])
    else
      match cm.devices[k]? with
      | none => (cm, [])
      | some pdev =>
        if pdev.type &&& inputFlag = inputFlag ∧ pdev.type &&& devices ≠ 0#32 then
          let here := visit cm k pdev firstId secondId
          let rest := applyPathsLoop inputFlag firstId secondId devCount (k + 1)
            (devices &&& ~~~pdev.type) here.1
          (rest.1, here.2 :: rest.2)
        else applyPathsLoop inputFlag firstId secondId devCount (k + 1) devices cm

def applyPathsToDevicesL (cm : ConfigMgr) (devices : BitVec 32) (firstId secondId : Int) :
    ConfigMgr :=
  let inputFlag := devices &&& audioDeviceBitIn
  let done := applyPathsLoop inputFlag firstId secondId cm.devices.length 0
    (devices &&& ~~~audioDeviceBitIn) cm
  { done.1 with walks := done.1.walks ++ [⟨firstId, secondId, done.2⟩] }

/-- The position of the device that stands for the global settings. -/
def globalDevice (devices : List Device) : Option Nat := devices.findIdx? fun d => d.type = 0#32

def applyPathsToGlobalL (cm : ConfigMgr) (firstId secondId : Int) : ConfigMgr :=
  let done : ConfigMgr × List Visit :=
    match globalDevice cm.devices with
    | none => (cm, [])
    | some k =>
      match cm.devices[k]? with
      | none => (cm, [])
      | some pdev =>
        let here := visit cm k pdev firstId secondId
        (here.1, [here.2])
  { done.1 with walks := done.1.walks ++ [⟨firstId, secondId, done.2⟩] }

/-- `apply_route` goes on past its two direction checks. -/
def routeAccepted (s : Stream) (devices : BitVec 32) : Bool :=
  devices = 0#32 || (decide (devices &&& audioDeviceBitIn ≠ 0#32) == streamIsInput s)

/-- The device set that `apply_route` stores for the stream. -/
def routedDevices (devices : BitVec 32) : BitVec 32 :=
  if devices = 0#32 then devices
  else if devices &&& audioDeviceBitIn ≠ 0#32 then
    (devices &&& audioDeviceInAll) ||| audioDeviceBitIn
  else devices &&& audioDeviceOutAll

def setStream (cm : ConfigMgr) (i : Nat) (s : Stream) : ConfigMgr :=
  { cm with streams := cm.streams.set i s }

/-- The stream is at position `i`. -/
def applyRoute (cm : ConfigMgr) (i : Nat) (s : Stream) (devices : BitVec 32) : ConfigMgr :=
  let enabling := devices &&& ~~~s.currentDevices
  let disabling := ~~~devices &&& s.currentDevices
  if routeAccepted s devices then
    let cm := applyPathsToDevicesL cm disabling s.disablePath pathIdOff
    let cm := applyPathsToDevicesL cm enabling pathIdOn s.enablePath
    setStream cm i { s with currentDevices := routedDevices devices }
  else cm

def openStreamL (cm : ConfigMgr) (i : Nat) (s : Stream) : Bool × ConfigMgr :=
  if s.refCount < s.maxRefCount then
    let s := { s with refCount := s.refCount + 1 }
    let cm := setStream cm i s
    (true, if s.refCount = 1 then applyPathsToGlobalL cm pathIdOn s.enablePath else cm)
  else (false, cm)

/-- The search of `get_stream`, from position `n - 1` down to the first stream. -/
def getStreamLoop (type : StreamType) (cm : ConfigMgr) : Nat → Option Nat × ConfigMgr
  | 0 => (none, cm)
  | i + 1 =>
    match cm.streams[i]? with
    | none => getStreamLoop type cm i
    | some s =>
      if s.type = type then
        let opened := openStreamL cm i s
        if opened.1 then (some i, opened.2) else getStreamLoop type opened.2 i
      else getStreamLoop type cm i

/-- The type that `get_stream` looks for. -/
def requestedType (devices : BitVec 32) (pcm : Bool) : StreamType :=
  if devices &&& audioDeviceBitIn ≠ 0#32 then (if pcm then .inPcm else .inCompress)
  else (if pcm then .outPcm else .outCompress)

/-- Whether the format is linear PCM is the caller's argument. -/
def getStream (cm : ConfigMgr) (devices : BitVec 32) (pcm : Bool) : Option Nat × ConfigMgr :=
  getStreamLoop (requestedType devices pcm) cm cm.streams.length

def findNamedStream (cm : ConfigMgr) (name : String) : Option Nat :=
  cm.streams.findIdx? fun s => s.name = some name

def getNamedStream (cm : ConfigMgr) (name : String) : Option Nat × ConfigMgr :=
  match findNamedStream cm name with
  | none => (none, cm)
  | some i =>
    match cm.streams[i]? with
    | none => (none, cm)
    | some s =>
      let opened := openStreamL cm i s
      (if opened.1 then some i else none, opened.2)

/-- Giving back the last reference disables every path the stream was using. -/
def releaseStream (cm : ConfigMgr) (i : Nat) (s : Stream) : ConfigMgr :=
  let s := { s with refCount := s.refCount - 1 }
  if s.refCount = 0 then
    let cm := applyPathsToDevicesL cm s.currentDevices pathIdOff s.disablePath
    let cm := applyPathsToGlobalL cm s.disablePath pathIdOff
    setStream cm i { s with currentDevices := 0#32 }
  else setStream cm i s

inductive Call where
  | getStream (devices : BitVec 32) (pcm : Bool)
  | getNamedStream (name : String)
  | applyRoute (stream : Nat) (devices : BitVec 32)
  | releaseStream (stream : Nat)
  deriving DecidableEq, Repr

/-- The streams that a call to get one may open. -/
def Call.requests : Call → Stream → Bool
  | .getStream devices pcm, s => s.type = requestedType devices pcm
  | .getNamedStream name, s => s.name = some name
  | .applyRoute .., _ => false
  | .releaseStream .., _ => false

/-- A call on a stream is possible when that stream exists. -/
def step (cm : ConfigMgr) : Call → Option ConfigMgr
  | .getStream devices pcm => some (getStream cm devices pcm).2
  | .getNamedStream name => some (getNamedStream cm name).2
  | .applyRoute i devices => cm.streams[i]?.map fun s => applyRoute cm i s devices
  | .releaseStream i => cm.streams[i]?.map fun s => releaseStream cm i s

end TinyHal
