import Mathlib.Data.List.Basic

/-!
# Sensor events and global sensor handles

The event and sensor records of `sensors/multihal.cpp` and its two handle maps.
A `std::map` is a partial function; the maps are filled once, by
`lazy_init_sensors_list`, before any device is opened.
-/
namespace SensorHandles

/-- `meta_data_event_t`, the first two words of the payload union. -/
structure MetaData where
  what : Int
  sensor : Int
  deriving DecidableEq, Repr

/-- `sensors_event_t`. `data` holds the words of the payload behind `meta_data`. -/
structure Event where
  version : Int
  sensor : Int
  type : Int
  timestamp : Int
  metaData : MetaData
  data : List Int
  deriving DecidableEq, Repr

def sensorTypeMetaData : Int := 0
def metaDataFlushComplete : Int := 1
def metaDataVersion : Int := 2

/-- The fields of `sensor_t` that the adapter reads or rewrites. -/
structure Sensor where
  handle : Int
  type : Int
  minDelay : Int
  fifoReservedEventCount : Nat
  fifoMaxEventCount : Nat
  maxDelay : Int
  flags : Nat
  deriving DecidableEq, Repr

def reportingModeMask : Nat := 0xE
def flagWakeUp : Nat := 1
def flagContinuousMode : Nat := 0
def flagOnChangeMode : Nat := 2
def flagOneShotMode : Nat := 4
def flagSpecialReportingMode : Nat := 6

def typeLight : Int := 5
def typeProximity : Int := 8
def typeRelativeHumidity : Int := 12
def typeAmbientTemperature : Int := 13
def typeSignificantMotion : Int := 17
def typeStepDetector : Int := 18
def typeStepCounter : Int := 19

/-- The reporting mode of a sensor whose legacy record has no flags. -/
def legacyFlags (type minDelay : Int) : Nat :=
  if type = typeLight ∨ type = typeAmbientTemperature ∨ type = typeRelativeHumidity ∨
      type = typeStepCounter then flagOnChangeMode
  else if type = typeProximity then flagOnChangeMode ||| flagWakeUp
  else if type = typeSignificantMotion then flagOneShotMode ||| flagWakeUp
  else if type = typeStepDetector then flagSpecialReportingMode
  else if minDelay < 0 then flagOneShotMode
  else flagContinuousMode

def describeLegacySensor (sensor : Sensor) : Sensor :=
  { sensor with
    fifoReservedEventCount := 0
    fifoMaxEventCount := 0
    maxDelay := 0
    flags := legacyFlags sensor.type sensor.minDelay }

def isOneShot (sensor : Sensor) : Bool :=
  sensor.flags &&& reportingModeMask == flagOneShotMode

/-- A sensor, by module index and by the handle its module gave it. -/
structure FullHandle where
  moduleIndex : Int
  localHandle : Int
  deriving DecidableEq, Repr

structure Tables where
  globalToFull : Int → Option FullHandle
  fullToGlobal : FullHandle → Option Int
  nextGlobalHandle : Int

def Tables.empty : Tables := ⟨fun _ => none, fun _ => none, 1⟩

def assignGlobalHandle (t : Tables) (moduleIndex localHandle : Int) : Tables × Int :=
  let globalHandle := t.nextGlobalHandle
  let fullHandle : FullHandle := ⟨moduleIndex, localHandle⟩
  (⟨fun g => if g = globalHandle then some fullHandle else t.globalToFull g,
    fun f => if f = fullHandle then some globalHandle else t.fullToGlobal f,
    globalHandle + 1⟩, globalHandle)

/-- The local handle, or -1. -/
def getLocalHandle (t : Tables) (globalHandle : Int) : Int :=
  match t.globalToFull globalHandle with
  | some f => f.localHandle
  | none => -1

/-- The module index, or -1. -/
def getModuleIndex (t : Tables) (globalHandle : Int) : Int :=
  match t.globalToFull globalHandle with
  | some f => f.moduleIndex
  | none => -1

/-- The global handle, or -1. -/
def getGlobalHandle (t : Tables) (fullHandle : FullHandle) : Int :=
  match t.fullToGlobal fullHandle with
  | some g => g
  | none => -1

/-- The two maps with the published sensor list. -/
structure Published where
  tables : Tables
  globalSensorsList : List Sensor

def Published.empty : Published := ⟨.empty, []⟩

/-- Body of the inner loop of `lazy_init_sensors_list`. -/
def publishSensor (moduleIndex : Int) (p : Published) (localSensor : Sensor) : Published :=
  let r := assignGlobalHandle p.tables moduleIndex localSensor.handle
  ⟨r.1, p.globalSensorsList ++ [{ describeLegacySensor localSensor with handle := r.2 }]⟩

def publishModules : Int → Published → List (List Sensor) → Published
  | _, p, [] => p
  | i, p, sensors :: rest => publishModules (i + 1) (sensors.foldl (publishSensor i) p) rest

def lazyInitSensorsList (modules : List (List Sensor)) : Published :=
  publishModules 0 .empty modules

def sensorByHandle (p : Published) (handle : Int) : Option Sensor :=
  p.globalSensorsList.find? fun s => s.handle == handle

/-- Assigned handles are positive, and the map back undoes the map forth. -/
structure TablesWf (t : Tables) : Prop where
  next_pos : 1 ≤ t.nextGlobalHandle
  forth : ∀ f g, t.fullToGlobal f = some g →
    1 ≤ g ∧ g < t.nextGlobalHandle ∧ t.globalToFull g = some f

theorem empty_wf : TablesWf .empty :=
  ⟨by simp [Tables.empty], by intro f g h; simp [Tables.empty] at h⟩

/-- The handle given out is noted in both tables. -/
theorem assign_wf {t : Tables} (h : TablesWf t) (m l : Int) :
    TablesWf (assignGlobalHandle t m l).1 := by
  have hn := h.next_pos
  constructor
  · simp only [assignGlobalHandle]; omega
  · intro f g hf
    simp only [assignGlobalHandle] at hf ⊢
    split at hf
    · rename_i he
      obtain rfl : t.nextGlobalHandle = g := by simpa using hf
      exact ⟨hn, by omega, by simp [he]⟩
    · obtain ⟨h₁, h₂, h₃⟩ := h.forth f g hf
      exact ⟨h₁, by omega, by rw [if_neg (by omega)]; exact h₃⟩

/-- By induction on the modules. -/
theorem publishModules_wf (modules : List (List Sensor)) (i : Int) (p : Published)
    (h : TablesWf p.tables) : TablesWf (publishModules i p modules).tables := by
  induction modules generalizing i p with
  | nil => exact h
  | cons sensors rest ih =>
    apply ih
    clear ih
    induction sensors generalizing p with
    | nil => exact h
    | cons s sensors ih => exact ih (publishSensor i p s) (assign_wf h i s.handle)

theorem lazyInit_wf (modules : List (List Sensor)) :
    TablesWf (lazyInitSensorsList modules).tables :=
  publishModules_wf modules 0 .empty empty_wf

/-- A handle that is not -1 belongs to the module it was asked for. -/
theorem getModuleIndex_getGlobalHandle {t : Tables} (h : TablesWf t) (f : FullHandle)
    (hg : getGlobalHandle t f ≠ -1) : getModuleIndex t (getGlobalHandle t f) = f.moduleIndex := by
  unfold getGlobalHandle at hg ⊢
  cases hf : t.fullToGlobal f with
  | none => simp [hf] at hg
  | some g => simp [getModuleIndex, (h.forth f g hf).2.2]

end SensorHandles
