import Mathlib.Logic.Function.Basic
import Mocha.AudioRouting

/-!
# The configuration file parser

`parse_section_start` and `parse_section_end` as a machine over the element
events of an XML file, with every element's handler, and the loop of
`parse_config_file` over the files that `<codec_probe>` redirects to.

A handler that fails leaves a partly filled manager that is only freed, so a
failure carries the error code and no state. Using a null parent pointer is a
fault of its own.
-/
namespace TinyHal

inductive Elem where
  | ctl
  | path
  | device
  | stream
  | enable
  | disable
  | case
  | usecase
  | streamCtl
  | init
  | mixer
  | audiohal
  | codecProbe
  | codecCase
  deriving DecidableEq, Repr

inductive Attrib where
  | name
  | val
  | path
  | function
  | type
  | index
  | dir
  | card
  | device
  | instances
  | rate
  | periodSize
  | periodCount
  | min
  | max
  | file
  deriving DecidableEq, Repr

def Elem.all : List Elem :=
  [.ctl, .path, .device, .stream, .enable, .disable, .case, .usecase, .streamCtl, .init, .mixer,
    .audiohal, .codecProbe, .codecCase]

def Attrib.all : List Attrib :=
  [.name, .val, .path, .function, .type, .index, .dir, .card, .device, .instances, .rate,
    .periodSize, .periodCount, .min, .max, .file]

def Attrib.text : Attrib → String
  | .name => "name"
  | .val => "val"
  | .path => "path"
  | .function => "function"
  | .type => "type"
  | .index => "index"
  | .dir => "dir"
  | .card => "card"
  | .device => "device"
  | .instances => "instances"
  | .rate => "rate"
  | .periodSize => "period_size"
  | .periodCount => "period_count"
  | .min => "min"
  | .max => "max"
  | .file => "file"

/-- A row of `elem_table`, without the handlers. -/
structure ParseElement where
  name : String
  validAttribs : List Attrib
  requiredAttribs : List Attrib
  validSubelem : List Elem

def elemTable : Elem → ParseElement
  | .ctl => ⟨"ctl", [.name, .val, .index], [.name, .val], []⟩
  | .path => ⟨"path", [.name], [.name], [.ctl]⟩
  | .device => ⟨"device", [.name], [.name], [.path]⟩
  | .stream =>
    ⟨"stream", [.name, .type, .dir, .card, .device, .instances, .rate, .periodSize, .periodCount],
      [.type], [.streamCtl, .enable, .disable, .usecase]⟩
  | .enable => ⟨"enable", [.path], [.path], []⟩
  | .disable => ⟨"disable", [.path], [.path], []⟩
  | .case => ⟨"case", [.name], [.name], [.ctl]⟩
  | .usecase => ⟨"usecase", [.name], [.name], [.case]⟩
  | .streamCtl => ⟨"ctl", [.name, .function, .index, .min, .max], [.name, .function], []⟩
  | .init => ⟨"init", [], [], [.ctl]⟩
  | .mixer => ⟨"mixer", [.card], [], [.init]⟩
  | .audiohal => ⟨"audiohal", [], [], [.mixer, .codecProbe]⟩
  | .codecProbe => ⟨"codec_probe", [.file], [.file], [.codecCase]⟩
  | .codecCase => ⟨"case", [.name, .file], [.name, .file], []⟩

def deviceTable : List (String × BitVec 32) :=
  [("global", 0#32), ("speaker", 0x2#32), ("earpiece", 0x1#32), ("headset", 0x4#32),
    ("headset_in", 0x80000010#32), ("headphone", 0x8#32), ("sco", 0x70#32),
    ("sco_in", 0x80000008#32), ("a2dp", 0x380#32), ("usb", 0x4006000#32), ("mic", 0x80000004#32),
    ("back mic", 0x80000080#32), ("voice", 0x80000040#32), ("aux", 0x80000020#32)]

/-- Where a `<ctl>` is stored: the `<init>` path, or a path of a device. -/
inductive PathRef where
  | init
  | device (device path : Nat)
  deriving DecidableEq, Repr

structure CodecCase where
  codecName : String
  file : String
  deriving DecidableEq, Repr

/-- `maxCount` is the room that the array of cases has without growing. -/
structure CodecProbe where
  file : Option String
  newXmlFile : Option String
  cases : List CodecCase
  maxCount : Nat
  deriving DecidableEq, Repr

/-- The pointers to the current parent objects, as positions. -/
structure Current where
  device : Option Nat
  stream : Option Nat
  path : Option PathRef
  usecase : Option (Nat × Nat)
  scase : Option (Nat × Nat × Nat)
  codecProbe : Bool
  deriving DecidableEq, Repr

structure StackEntry where
  elem : Elem
  validSubelem : List Elem
  deriving DecidableEq, Repr

inductive Stop where
  | running
  | suspended
  | aborted
  deriving DecidableEq, Repr

structure ParseState where
  cm : ConfigMgr
  curXmlFile : String
  parseError : Int
  attribs : Attrib → Option String
  current : Current
  pathNames : List String
  initPath : Path
  initProbe : CodecProbe
  index : Int
  entry : Int → StackEntry
  stop : Stop

inductive XmlEvent where
  | start (name : String) (attribs : List (String × String))
  | finish (name : String)
  deriving DecidableEq, Repr

/-- The element events that expat finds, and whether it accepts the whole file. -/
structure XmlFile where
  events : List XmlEvent
  wellFormed : Bool
  deriving DecidableEq, Repr

/-- What the parser finds outside: files, the first line of a probe file, and sound cards. -/
structure Env where
  defaultFile : String
  files : String → Option XmlFile
  firstLine : String → Option String
  mixerOpen : Nat → Option Mixer

inductive Fault where
  | errno (e : Int)
  | nullParent
  deriving DecidableEq, Repr

abbrev Handler := ParseState → Except Fault ParseState

def maxParseDepth : Int := 6

/-- The size at which `dyn_array_extend` refuses to grow. -/
def dynArrayMax : Nat := 65520

def dynArrayExtend {α : Type} (array : List α) (x : α) : Except Fault (List α) :=
  if array.length < dynArrayMax then .ok (array ++ [x]) else .error (.errno (-enomem))

/-- A value through a pointer that may be null. -/
def deref {α : Type} : Option α → Except Fault α
  | some x => .ok x
  | none => .error .nullParent

/-- `attrib_to_uint` into a variable that holds `init`. -/
def attribToUint {α : Type} (st : ParseState) (a : Attrib) (init : α) (conv : Nat → α) :
    Except Fault α :=
  match stringToUint (st.attribs a) with
  | .ok v => .ok (conv v)
  | .error e => if e = -einval then .error (.errno (-einval)) else .ok init

/-- The position of a path name, searched from the last one. -/
def findPathName (st : ParseState) (name : String) : Option Nat :=
  match st.pathNames.reverse.findIdx? fun n => n = name with
  | some i => some (st.pathNames.length - 1 - i)
  | none => none

def addPathName (st : ParseState) (name : String) : Except Fault (Nat × ParseState) :=
  match findPathName st name with
  | some i => .ok (i, st)
  | none => do
    let names ← dynArrayExtend st.pathNames name
    return (st.pathNames.length, { st with pathNames := names })

def newCtl (name : String) : Ctl :=
  { id := uintMax, name := name, index := invalidCtlIndex, arrayCount := 0, type := .unknown,
    value := .string "" }

def newStream : Stream :=
  { type := .outPcm, cardNumber := none, deviceNumber := none, rate := 0, periodSize := 0,
    periodCount := 0, name := none, refCount := 0, maxRefCount := 0, enablePath := -1,
    disablePath := -1, currentDevices := 0#32, volumeLeft := ⟨uintMax, 0, 0, 0⟩,
    volumeRight := ⟨uintMax, 0, 0, 0⟩, usecases := [] }

def modifyDevice (cm : ConfigMgr) (d : Nat) (f : Device → Device) : ConfigMgr :=
  { cm with devices := cm.devices.modify d f }

def modifyStream (cm : ConfigMgr) (s : Nat) (f : Stream → Stream) : ConfigMgr :=
  { cm with streams := cm.streams.modify s f }

/-- The control array of the current path, or of the current case. -/
def ctlArray (st : ParseState) : Except Fault (List Ctl) :=
  match st.current.path with
  | some .init => .ok st.initPath.ctls
  | some (.device d p) => do
    let device ← deref st.cm.devices[d]?
    let path ← deref device.paths[p]?
    return path.ctls
  | none => do
    let (s, u, c) ← deref st.current.scase
    let stream ← deref st.cm.streams[s]?
    let usecase ← deref stream.usecases[u]?
    let scase ← deref usecase.cases[c]?
    return scase.ctls

def setCtlArray (st : ParseState) (ctls : List Ctl) : ParseState :=
  match st.current.path, st.current.scase with
  | some .init, _ => { st with initPath := { st.initPath with ctls := ctls } }
  | some (.device d p), _ =>
    { st with cm := modifyDevice st.cm d fun device =>
        { device with paths := device.paths.modify p fun path => { path with ctls := ctls } } }
  | none, some (s, u, c) =>
    { st with cm := modifyStream st.cm s fun stream =>
        { stream with usecases := stream.usecases.modify u fun usecase =>
          { usecase with cases := usecase.cases.modify c fun scase =>
            { scase with ctls := ctls } } } }
  | none, none => st

def parseCtlStart : Handler := fun st => do
  let array ← ctlArray st
  let c := newCtl ((st.attribs .name).getD "")
  let _ ← dynArrayExtend array c
  let index ← attribToUint st .index c.index id
  let c := { c with index := index, value := .string ((st.attribs .val).getD "") }
  let opened := ctlOpen st.cm.mixer c
  if opened.1 ≠ 0 ∧ opened.1 ≠ -enoent then throw (.errno opened.1)
  return setCtlArray st (array ++ [opened.2])

/-- This array is the only one that still grows after `dyn_array_fix`: its growth does not start
from a multiple of 16. -/
def newCodecCase (probe : CodecProbe) (cc : CodecCase) : Except Fault CodecProbe :=
  if probe.cases.length + 1 > probe.maxCount then
    if probe.maxCount > 65519 then .error (.errno (-enomem))
    else .ok { probe with cases := probe.cases ++ [cc], maxCount := probe.maxCount + 16 }
  else .ok { probe with cases := probe.cases ++ [cc] }

def parseCodecCaseStart : Handler := fun st => do
  if !st.current.codecProbe then throw .nullParent
  let probe ← newCodecCase st.initProbe
    ⟨(st.attribs .name).getD "", (st.attribs .file).getD ""⟩
  return { st with initProbe := probe }

/-- `dyn_array_fix` gives back the room that the cases do not take. -/
def compressProbe (probe : CodecProbe) : CodecProbe :=
  { probe with maxCount := probe.cases.length }

/-- `<init>` is a path that is applied once, at the end of parsing. -/
def parseInitStart : Handler := fun st =>
  return { st with current := { st.current with path := some .init } }

def probeTrimSpaces (str : String) : String :=
  String.ofList (((str.toList.dropWhile CString.isspace).reverse.dropWhile
    CString.isspace).reverse)

/-- Looks the codec up in the cases. A hit stops the parser. -/
def probeConfigFile (env : Env) (st : ParseState) : ParseState :=
  match st.initProbe.file.bind env.firstLine with
  | none => st
  | some line =>
    let codec := probeTrimSpaces line
    match st.initProbe.cases.find? fun cc => cc.codecName = codec with
    | none => { st with initProbe := { st.initProbe with newXmlFile := none } }
    | some cc =>
      if cc.file = st.curXmlFile then
        { st with initProbe := { st.initProbe with newXmlFile := none }, stop := .aborted }
      else
        { st with initProbe := { st.initProbe with newXmlFile := some cc.file }, stop := .suspended }

def parseCodecProbeStart : Handler := fun st => do
  if st.initProbe.file.isSome then throw (.errno (-einval))
  return { st with
    initProbe := { st.initProbe with file := some ((st.attribs .file).getD "") }
    current := { st.current with codecProbe := true } }

def parseCodecProbeEnd (env : Env) : Handler := fun st => do
  if !st.current.codecProbe then throw .nullParent
  return probeConfigFile env { st with
    initProbe := compressProbe st.initProbe
    current := { st.current with codecProbe := false } }

def parsePathStart : Handler := fun st => do
  let d ← deref st.current.device
  let (id, st) ← addPathName st ((st.attribs .name).getD "")
  let device ← deref st.cm.devices[d]?
  let paths ← dynArrayExtend device.paths ⟨id, []⟩
  return { st with
    cm := modifyDevice st.cm d fun device => { device with paths := paths }
    current := { st.current with path := some (.device d device.paths.length) } }

def parsePathEnd : Handler := fun st => do
  let _ ← deref st.current.path
  return { st with current := { st.current with path := none } }

def parseCaseStart : Handler := fun st => do
  let (s, u) ← deref st.current.usecase
  let stream ← deref st.cm.streams[s]?
  let usecase ← deref stream.usecases[u]?
  let cases ← dynArrayExtend usecase.cases ⟨(st.attribs .name).getD "", []⟩
  return { st with
    cm := modifyStream st.cm s fun stream =>
      { stream with usecases := stream.usecases.modify u fun usecase =>
        { usecase with cases := cases } }
    current := { st.current with scase := some (s, u, usecase.cases.length) } }

def parseCaseEnd : Handler := fun st => do
  let _ ← deref st.current.scase
  return { st with current := { st.current with scase := none } }

def parseUsecaseStart : Handler := fun st => do
  let s ← deref st.current.stream
  let stream ← deref st.cm.streams[s]?
  let usecases ← dynArrayExtend stream.usecases ⟨(st.attribs .name).getD "", []⟩
  return { st with
    cm := modifyStream st.cm s fun stream => { stream with usecases := usecases }
    current := { st.current with usecase := some (s, stream.usecases.length) } }

def parseUsecaseEnd : Handler := fun st => do
  let _ ← deref st.current.usecase
  return st

def parseEnableDisableStart (isEnable : Bool) : Handler := fun st => do
  match findPathName st ((st.attribs .path).getD "") with
  | none => throw (.errno (-einval))
  | some i =>
    let s ← deref st.current.stream
    return { st with cm := modifyStream st.cm s fun stream =>
      if isEnable then { stream with enablePath := i } else { stream with disablePath := i } }

def parseEnableStart : Handler := parseEnableDisableStart true

def parseDisableStart : Handler := parseEnableDisableStart false

/-- A limit of a volume control: the attribute, else the mixer's own. -/
def controlLimit (st : ParseState) (a : Attrib) (range : Int) : Except Fault Nat :=
  match stringToUint (st.attribs a) with
  | .ok v => .ok v
  | .error e =>
    if e = -einval then .error (.errno (-einval))
    else if range < 0 then .error (.errno range)
    else .ok range.toNat

def parseStreamCtlStart : Handler := fun st => do
  match mixerGetCtlByName st.cm.mixer ((st.attribs .name).getD "") with
  | none => throw (.errno (-einval))
  | some i =>
    let ctl ← deref st.cm.mixer[i]?
    let idxVal ← attribToUint st .index 0 id
    let s ← deref st.current.stream
    let function := (st.attribs .function).getD ""
    if function ≠ "leftvol" ∧ function ≠ "rightvol" then throw (.errno (-einval))
    let min ← controlLimit st .min (mixerCtlGetRangeMin ctl)
    let max ← controlLimit st .max (mixerCtlGetRangeMax ctl)
    let streamctl : StreamControl := ⟨i, idxVal, min, max⟩
    return { st with cm := modifyStream st.cm s fun stream =>
      if function = "leftvol" then { stream with volumeLeft := streamctl }
      else { stream with volumeRight := streamctl } }

/-- The direction attribute; only the global stream may leave it out. -/
def streamDir (st : ParseState) (global : Bool) : Except Fault Bool :=
  match st.attribs .dir with
  | none => if global then .ok true else .error (.errno (-einval))
  | some dir =>
    if dir = "out" then .ok true
    else if dir = "in" then .ok false
    else .error (.errno (-einval))

/-- The stream's type, and whether its card and device have a default. -/
def streamType (st : ParseState) (global out : Bool) : Except Fault (StreamType × Bool) :=
  let type := (st.attribs .type).getD ""
  if global then .ok (.global, false)
  else if type = "hw" then
    if (st.attribs .name).isNone then .error (.errno (-einval))
    else .ok (if out then .outHw else .inHw, false)
  else if type = "pcm" then .ok (if out then .outPcm else .inPcm, true)
  else if type = "compress" then .ok (if out then .outCompress else .inCompress, true)
  else .error (.errno (-einval))

def parseStreamStart : Handler := fun st => do
  let name := st.attribs .name
  if ((name.bind fun n => findNamedStream st.cm n).isSome) then throw (.errno (-einval))
  let _ ← dynArrayExtend st.cm.streams newStream
  let global := decide (name = some "global")
  let out ← streamDir st global
  let (type, numbered) ← streamType st global out
  let unset : Option (BitVec 8) := if numbered then some 0#8 else none
  let card ← attribToUint st .card unset fun v => some (BitVec.ofNat 8 v)
  let device ← attribToUint st .device unset fun v => some (BitVec.ofNat 8 v)
  let maxref ← attribToUint st .instances (2 ^ 31 - 1) id
  let rate ← attribToUint st .rate 0 id
  let periodCount ← attribToUint st .periodCount 0 id
  let periodSize ← attribToUint st .periodSize 0 id
  let s : Stream := { newStream with
    type := type, cardNumber := card, deviceNumber := device, rate := rate,
    periodSize := periodSize, periodCount := periodCount, name := name,
    maxRefCount := Int.bmod maxref (2 ^ 32) }
  return { st with
    cm := { st.cm with streams := st.cm.streams ++ [s] }
    current := { st.current with stream := some st.cm.streams.length } }

def parseStreamEnd : Handler := fun st => do
  let _ ← deref st.current.stream
  return st

def parseMatchDevice (name : String) : Option (BitVec 32) :=
  (deviceTable.find? fun p => p.1 = name).map fun p => p.2

/-- The manager with a device added to the list of supported ones, unless it is there. -/
def supportDevice (cm : ConfigMgr) (deviceFlag : BitVec 32) : Except Fault ConfigMgr :=
  if deviceFlag = 0#32 then .ok cm
  else if deviceFlag &&& audioDeviceBitIn ≠ 0#32 then
    if deviceFlag &&& cm.supportedInputDevices = deviceFlag then .error (.errno (-einval))
    else .ok { cm with supportedInputDevices := cm.supportedInputDevices ||| deviceFlag }
  else
    if deviceFlag &&& cm.supportedOutputDevices = deviceFlag then .error (.errno (-einval))
    else .ok { cm with supportedOutputDevices := cm.supportedOutputDevices ||| deviceFlag }

def parseDeviceStart : Handler := fun st => do
  match parseMatchDevice ((st.attribs .name).getD "") with
  | none => throw (.errno (-einval))
  | some deviceFlag =>
    let cm ← supportDevice st.cm deviceFlag
    let devices ← dynArrayExtend cm.devices ⟨deviceFlag, 0, []⟩
    return { st with
      cm := { cm with devices := devices }
      current := { st.current with device := some st.cm.devices.length } }

def parseDeviceEnd : Handler := fun st => do
  let _ ← deref st.current.device
  return st

/-- After `<mixer>` the root takes devices and streams, and no second `<mixer>`. -/
def parseMixerStart (env : Env) : Handler := fun st => do
  let card ← attribToUint st .card 0 id
  match env.mixerOpen card with
  | none => throw (.errno (-einval))
  | some mixer =>
    let root := st.entry (st.index - 1)
    return { st with
      cm := { st.cm with mixer := mixer }
      entry := Function.update st.entry (st.index - 1)
        { root with validSubelem := [.device, .stream] } }

def startFn (env : Env) : Elem → Handler
  | .ctl => parseCtlStart
  | .path => parsePathStart
  | .device => parseDeviceStart
  | .stream => parseStreamStart
  | .enable => parseEnableStart
  | .disable => parseDisableStart
  | .case => parseCaseStart
  | .usecase => parseUsecaseStart
  | .streamCtl => parseStreamCtlStart
  | .init => parseInitStart
  | .mixer => parseMixerStart env
  | .audiohal => fun st => .ok st
  | .codecProbe => parseCodecProbeStart
  | .codecCase => parseCodecCaseStart

def endFn (env : Env) : Elem → Handler
  | .path => parsePathEnd
  | .device => parseDeviceEnd
  | .stream => parseStreamEnd
  | .case => parseCaseEnd
  | .usecase => parseUsecaseEnd
  | .codecProbe => parseCodecProbeEnd env
  | .ctl | .enable | .disable | .streamCtl | .init | .mixer | .audiohal | .codecCase =>
    fun st => .ok st

/-- Attribute values by index; a later duplicate of a name wins. -/
def extractAttribs (e : Elem) (attribs : List (String × String)) :
    Option (Attrib → Option String) :=
  let find (n : String) := (elemTable e).validAttribs.find? fun a => a.text = n
  let value (a : Attrib) := (attribs.reverse.find? fun p => find p.1 = some a).map fun p => p.2
  if attribs.all fun p => (find p.1).isSome then
    if (elemTable e).requiredAttribs.all fun a => (value a).isSome then some value else none
  else none

/-- `none` is a null pointer dereference in a handler. -/
def settle (st : ParseState) : Except Fault ParseState → Option ParseState
  | .ok st' => some { st' with parseError := 0 }
  | .error (.errno e) => some { st with parseError := e }
  | .error .nullParent => none

def parseSectionStart (env : Env) (st : ParseState) (name : String)
    (attribs : List (String × String)) : Option ParseState :=
  if st.parseError ≠ 0 then some st
  else
    let validElems := (st.entry st.index).validSubelem
    match Elem.all.find? fun e => decide (e ∈ validElems) && decide ((elemTable e).name = name) with
    | none => some { st with parseError := -einval }
    | some e =>
      if st.index ≥ maxParseDepth then some { st with parseError := -einval }
      else
        let st := { st with
          index := st.index + 1
          entry := Function.update st.entry (st.index + 1) ⟨e, (elemTable e).validSubelem⟩ }
        match extractAttribs e attribs with
        | none => some { st with parseError := -einval }
        | some value =>
          let st := { st with attribs := value }
          settle st (startFn env e st)

def parseSectionEnd (env : Env) (st : ParseState) : Option ParseState :=
  if st.parseError ≠ 0 then some st
  else
    let i := (st.entry st.index).elem
    (settle st (endFn env i st)).map fun st => { st with index := st.index - 1 }

/-- A stopped parser delivers no more events. -/
def parseEvent (env : Env) (st : ParseState) : XmlEvent → Option ParseState
  | .start name attribs => if st.stop = .running then parseSectionStart env st name attribs else some st
  | .finish _ => if st.stop = .running then parseSectionEnd env st else some st

def parseEvents (env : Env) : ParseState → List XmlEvent → Option ParseState
  | st, [] => some st
  | st, e :: es => (parseEvent env st e).bind fun st => parseEvents env st es

def doParse (env : Env) (st : ParseState) (file : XmlFile) : Option (Int × ParseState) :=
  let root : StackEntry := { st.entry 0 with validSubelem := [.audiohal] }
  let st := { st with
    parseError := 0, index := 0, stop := .running, entry := Function.update st.entry 0 root }
  (parseEvents env st file.events).map fun st =>
    (if st.parseError < 0 ∨ st.stop = .aborted ∨ (st.stop = .running ∧ !file.wellFormed) then -einval
      else 0, st)

def newConfigMgr : ConfigMgr := ⟨[], 0#32, 0#32, [], [], []⟩

/-- The state after `init_state`, with "off" and "on" as the first path names. -/
def initState : ParseState :=
  { cm := newConfigMgr, curXmlFile := "", parseError := 0, attribs := fun _ => none
    current := ⟨none, none, none, none, none, false⟩, pathNames := ["off", "on"]
    initPath := ⟨0, []⟩, initProbe := ⟨none, none, [], 0⟩, index := 0
    entry := fun _ => ⟨.ctl, []⟩, stop := .running }

/-- The loop over configuration files, at most `fuel` of them. -/
def parseFiles (env : Env) : Nat → ParseState → Option (Int × ParseState)
  | 0, _ => none
  | fuel + 1, st =>
    let name := st.initProbe.newXmlFile.getD env.defaultFile
    match env.files name with
    | none => some (-enomem, st)
    | some file =>
      let probeFile := if st.initProbe.newXmlFile.isSome then none else st.initProbe.file
      let st := { st with
        curXmlFile := name
        initProbe := { st.initProbe with file := probeFile, newXmlFile := none } }
      (doParse env st file).bind fun done =>
        if done.2.initProbe.newXmlFile.isSome then parseFiles env fuel done.2 else some done

/-- `init_audio_config`: parse, and apply the `<init>` path. -/
def initAudioConfig (env : Env) (fuel : Nat) : Option (Option ConfigMgr) :=
  (parseFiles env fuel initState).map fun done =>
    if done.1 ≠ 0 then none
    else some { done.2.cm with mixer := (applyCtlsL done.2.cm.mixer done.2.initPath.ctls).1 }

/-- A configuration that the parser accepts. -/
def Parsed (cm : ConfigMgr) : Prop := ∃ env fuel, initAudioConfig env fuel = some (some cm)

end TinyHal
