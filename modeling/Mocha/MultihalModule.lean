import Mocha.Multihal
import Mocha.SensorTables

/-!
# The sensors module

Loading the sub-HALs, publishing their sensors, opening a poll context, and the
calls that are passed down to one sub-HAL. The module, device and queue vectors
are built in three loops, and one index runs through all of them.
-/
namespace Multihal

open SensorHandles

def enodev : Int := 19
def sensorsDeviceApiVersion10 : Nat := 0x01000001

section Loading

/-- A sub-HAL module, whose `get_sensors_list` always gives the same list. -/
structure SubModule where
  sensors : List Sensor
  deriving DecidableEq, Repr

/-- What `dlopen` and `dlsym` say to a line of the configuration file. -/
inductive Library where
  | unopened
  | symbolError
  | nullSymbol
  | loaded (m : SubModule)
  deriving DecidableEq, Repr

def Library.symbol : Library → Option SubModule
  | .loaded m => some m
  | _ => none

/-- The static variables of the module: `sub_hw_modules`, the sensor list with the handle maps, and
`global_sensors_count`. -/
structure Globals where
  subHwModules : Option (List SubModule)
  published : Option Published
  globalSensorsCount : Int

def Globals.start : Globals := ⟨none, none, -1⟩

def lazyInitModules (libraries : List Library) (g : Globals) : Globals :=
  match g.subHwModules with
  | some _ => g
  | none => { g with subHwModules := some (libraries.filterMap Library.symbol) }

/-- `lazy_init_sensors_list`: the first loop counts the sensors, the second one publishes them. -/
def lazyInitSensors (libraries : List Library) (g : Globals) : Globals :=
  match g.published with
  | some _ => g
  | none =>
    let g := lazyInitModules libraries g
    let lists := (g.subHwModules.getD []).map SubModule.sensors
    { g with
      globalSensorsCount := lists.foldl (fun count sensors => count + sensors.length) 0
      published := some (lazyInitSensorsList lists) }

/-- `module__get_sensors_list`: the count and the list. -/
def getSensorsList (libraries : List Library) (g : Globals) : Globals × Int × List Sensor :=
  let g := lazyInitSensors libraries g
  (g, g.globalSensorsCount, (g.published.map fun p => p.globalSensorsList).getD [])

end Loading

section Opening

/-- A sub-HAL device: its version, and which of its entries are there. -/
structure Device where
  id : Nat
  version : Nat
  close : Bool
  activate : Bool
  setDelay : Bool
  poll : Bool
  deriving DecidableEq, Repr

/-- What `open` of a sub-HAL returns and writes. -/
structure Opened where
  result : Int
  sub : Option Device
  deriving DecidableEq, Repr

/-- The error of one turn of the opening loop. -/
def Opened.error (o : Opened) : Int :=
  if o.result = 0 then
    match o.sub with
    | some sub =>
      if sub.version < sensorsDeviceApiVersion10 || !sub.close || !sub.activate || !sub.setDelay ||
          !sub.poll then -einval
      else 0
    | none => -enodev
  else o.result

/-- The opening loop: the devices that were opened, and the error that ended it. -/
def openSubs (opens : Nat → Opened) : Nat → List SubModule → List Device × Int
  | _, [] => ([], 0)
  | i, _ :: rest =>
    let error := (opens i).error
    if error ≠ 0 then ((opens i).sub.toList, error)
    else
      let r := openSubs opens (i + 1) rest
      ((opens i).sub.toList ++ r.1, r.2)

/-- The vectors of `sensors_poll_context_t`. A task is a `TaskContext`: the device that a writer
polls, and the number of the queue that it fills. -/
structure Context where
  subHwDevices : List Device
  queues : Nat
  consumedEvents : List UInt64
  tasks : List (Device × Nat)
  deriving DecidableEq, Repr

def addSubHwDevice (c : Context) (d : Device) : Context :=
  { subHwDevices := c.subHwDevices ++ [d]
    queues := c.queues + 1
    consumedEvents := c.consumedEvents ++ [0]
    tasks := c.tasks ++ [(d, c.queues)] }

/-- How `open_sensors` ends: the statics, the context or an error, and the devices it closed again. -/
structure Opening where
  globals : Globals
  result : Except Int Context
  closed : List Device

def openSensors (libraries : List Library) (g : Globals) (out name : Bool) (opens : Nat → Opened) :
    Opening :=
  if !out || !name then ⟨g, .error (-einval), []⟩
  else
    let g := lazyInitModules libraries g
    let modules := g.subHwModules.getD []
    if modules = [] then ⟨g, .error (-enodev), []⟩
    else
      let r := openSubs opens 0 modules
      if r.2 ≠ 0 then ⟨g, .error r.2, r.1.filter fun d => d.close⟩
      else ⟨lazyInitSensors libraries g, .ok (r.1.foldl addSubHwDevice ⟨[], 0, [], []⟩), []⟩

end Opening

section Routing

/-- A call of an entry of a sub-HAL device. -/
inductive Entry where
  | activate (enabled : Int)
  | setDelay (ns : Int)
  deriving DecidableEq, Repr

structure SubCall where
  device : Device
  localHandle : Int
  entry : Entry
  deriving DecidableEq, Repr

def getV0DeviceByHandle (p : Published) (c : Context) (handle : Int) : Option Device :=
  let subIndex := getModuleIndex p.tables handle
  if subIndex < 0 ∨ subIndex ≥ c.subHwDevices.length then none else c.subHwDevices[subIndex.toNat]?

def halIsCompliant (p : Published) (c : Context) (handle : Int) : Bool :=
  (getV0DeviceByHandle p c handle).any fun d =>
    decide (d.version ≥ sensorsDeviceApiVersion10) && d.activate && d.setDelay && d.poll

/-- The common part of `activate` and `setDelay`: the call that is passed down, if any. -/
def passDown (p : Published) (c : Context) (handle : Int) (entry : Entry) : Option SubCall :=
  let localHandle := getLocalHandle p.tables handle
  match getV0DeviceByHandle p c handle with
  | some v0 =>
    if halIsCompliant p c handle && decide (localHandle ≥ 0) then some ⟨v0, localHandle, entry⟩ else none
  | none => none

/-- The result of a call that was passed down, or the error when there was none. -/
def answered (answer : SubCall → Int) : Option SubCall → Int
  | some call => answer call
  | none => -einval

/-- `activate` of the context. On success it notes whether the sensor is active. -/
def contextActivate (p : Published) (c : Context) (s : State) (handle enabled : Int)
    (answer : SubCall → Int) : Int × Option SubCall × State :=
  let call := passDown p c handle (.activate enabled)
  let result := answered answer call
  (result, call,
    if call.isSome && decide (result = 0) then
      { s with activeSensors := fun h => if h = handle then enabled != 0 else s.activeSensors h }
    else s)

def setDelay (p : Published) (c : Context) (handle ns : Int) (answer : SubCall → Int) :
    Int × Option SubCall :=
  let call := passDown p c handle (.setDelay ns)
  (answered answer call, call)

def batch (p : Published) (c : Context) (handle flags periodNs timeout : Int) (answer : SubCall → Int) :
    Int × Option SubCall :=
  if flags ≠ 0 ∨ periodNs < 0 ∨ timeout < 0 ∨ (sensorByHandle p handle).isNone then (-einval, none)
  else setDelay p c handle periodNs answer

end Routing

end Multihal
