import Mathlib.Logic.Function.Basic
import Mocha.Barrier
import Mocha.SensorEventQueue
import Mocha.SensorHandles
import Mocha.Transition

/-!
# The multi-HAL poll context and its threads

One writer thread per sub-HAL, one framework reader, and callers of `flush` and
`activate`, all around `queue_mutex`. A thread that holds the mutex is the
`owner`; its loops run one turn at a time, so the states between two turns are
states of the model. Condition waits give the mutex up, keep a flag for a
broadcast issued after they started, and may also return without one.

The last three fields of the state are history. No step reads them.
-/
namespace Multihal

open SensorHandles
open SensorEventQueue (Queue)
open Barrier (Item)

def sensorEventQueueCapacity : Nat := 20
def einval : Int := 22

/-- The sub-HAL modules with their sensor lists. -/
structure Hal where
  modules : List (List Sensor)

def Hal.queueCount (hal : Hal) : Nat := hal.modules.length

def Hal.published (hal : Hal) : Published := lazyInitSensorsList hal.modules

def Hal.tables (hal : Hal) : Tables := hal.published.tables

structure PendingFlush where
  handle : Int
  moduleIndex : Nat
  afterEvent : UInt64
  deriving DecidableEq, Repr

inductive Thread where
  | reader
  | writer (m : Nat)
  deriving DecidableEq, Repr

/-- Where `writerTask` stands. `rest` are the events `write()` has not copied. -/
inductive Writer where
  | top
  | waitTop (woken : Bool)
  | polling
  | polled (batch : List Event)
  | writing (rest : List Event)
  | waitWrite (rest : List Event) (woken : Bool)
  deriving DecidableEq, Repr

/-- The locals of `poll`; `eventsRead` is the length of `data`. -/
structure PollLocals where
  maxReads : Nat
  empties : Nat
  data : List Event
  deriving DecidableEq, Repr

/-- Where `poll` stands. It parks only with nothing read. -/
inductive Reader where
  | idle
  | enter (maxReads : Nat)
  | scan (l : PollLocals)
  | parked (maxReads : Nat) (woken : Bool)
  deriving DecidableEq, Repr

/-- What one `poll` of a sub-HAL left in the writer's buffer, and its result. -/
abbrev PollResult := Int × Vector Event sensorEventQueueCapacity

structure State where
  queues : Nat → Queue Event
  consumedEvents : Nat → UInt64
  pendingFlushes : List PendingFlush
  activeSensors : Int → Bool
  nextReadIndex : Nat
  waitingForData : Bool
  owner : Option Thread
  writers : Nat → Writer
  reader : Reader
  returned : List Event
  polls : Nat → List PollResult
  arrivals : Nat → List (Item Event Int)

/-- The context that `open_sensors` returns, whatever the rings contain. -/
def Initial (s : State) : Prop :=
  (∀ m, ∃ data, s.queues m = SensorEventQueue.new sensorEventQueueCapacity data) ∧
  (∀ m, s.consumedEvents m = 0) ∧ s.pendingFlushes = [] ∧ (∀ h, s.activeSensors h = false) ∧
  s.nextReadIndex = 0 ∧ s.waitingForData = false ∧ s.owner = none ∧ (∀ m, s.writers m = .top) ∧
  s.reader = .idle ∧ s.returned = [] ∧ (∀ m, s.polls m = []) ∧ ∀ m, s.arrivals m = []

def Writer.wake : Writer → Writer
  | .waitTop _ => .waitTop true
  | .waitWrite rest _ => .waitWrite rest true
  | w => w

def Reader.wake : Reader → Reader
  | .parked n _ => .parked n true
  | r => r

def setWriter (s : State) (m : Nat) (w : Writer) : State :=
  { s with writers := Function.update s.writers m w }

def setQueue (s : State) (m : Nat) (q : Queue Event) : State :=
  { s with queues := Function.update s.queues m q }

/-- `pthread_cond_broadcast(&data_available_cond)`. -/
def broadcastData (s : State) : State := { s with reader := s.reader.wake }

/-- Broadcast of the space condition of queue `m`. -/
def broadcastSpace (s : State) (m : Nat) : State := setWriter s m (s.writers m).wake

def copyEventRemapHandle (t : Tables) (src : Event) (subIndex : Nat) : Event :=
  if src.type = sensorTypeMetaData then
    { src with metaData := { src.metaData with
        sensor := getGlobalHandle t ⟨subIndex, src.metaData.sensor⟩ } }
  else { src with sensor := getGlobalHandle t ⟨subIndex, src.sensor⟩ }

def flushComplete (handle : Int) : Event :=
  ⟨metaDataVersion, 0, sensorTypeMetaData, 0, ⟨metaDataFlushComplete, handle⟩, []⟩

def flushReady (consumed : Nat → UInt64) (p : PendingFlush) : Bool :=
  !decide (consumed p.moduleIndex < p.afterEvent)

/-- The emitted records, at most `count` of them, and the requests kept. -/
def emitReadyFlushes (consumed : Nat → UInt64) (pending : List PendingFlush) (count : Nat) :
    List Event × List PendingFlush :=
  let r := Barrier.drain (flushReady consumed) count pending
  (r.1.map fun p => flushComplete p.handle, r.2)

/-- `eventsRead += emit_ready_flushes(data + eventsRead, maxReads - eventsRead)`. -/
def emitInto (s : State) (l : PollLocals) : State × PollLocals :=
  let r := emitReadyFlushes s.consumedEvents s.pendingFlushes (l.maxReads - l.data.length)
  ({ s with pendingFlushes := r.2 }, { l with data := l.data ++ r.1 })

/-- `nextReadIndex = (nextReadIndex + 1) % queueCount`. -/
def advance (hal : Hal) (s : State) : State :=
  { s with nextReadIndex := (s.nextReadIndex + 1) % hal.queueCount }

/-- `queue->dequeue(); ++consumed_events[nextReadIndex]`. -/
def consume (s : State) : State :=
  let i := s.nextReadIndex
  let r := SensorEventQueue.dequeue (s.queues i)
  let s := setQueue s i r.1
  let s := if r.2 then broadcastSpace s i else s
  { s with consumedEvents := Function.update s.consumedEvents i (s.consumedEvents i + 1) }

/-- A delivered one-shot event disarms its sensor. -/
def disarmOneShot (hal : Hal) (s : State) (e : Event) : State :=
  match sensorByHandle hal.published e.sensor with
  | some sensor =>
    if isOneShot sensor then
      { s with activeSensors := fun h => if h = sensor.handle then false else s.activeSensors h }
    else s
  | none => s

/-- Read one event of the queue at `nextReadIndex`, if it has one. -/
def readQueue (hal : Hal) (s : State) (l : PollLocals) : State × PollLocals :=
  match SensorEventQueue.peek (s.queues s.nextReadIndex) with
  | none => (advance hal s, { l with empties := l.empties + 1 })
  | some event =>
    let dest := copyEventRemapHandle hal.tables event s.nextReadIndex
    if dest.sensor = -1 then (advance hal (consume s), { l with empties := 0 })
    else (advance hal (consume (disarmOneShot hal s dest)),
      { l with empties := 0, data := l.data ++ [dest] })

/-- One turn of the inner loop of `poll`. A full buffer ends the turn early; the
loop condition then ends the loop. -/
def pollTurn (hal : Hal) (s : State) (l : PollLocals) : State × PollLocals :=
  let r := emitInto s l
  if r.2.data.length = l.maxReads then r else readQueue hal r.1 r.2

/-- What follows the inner loop: wait with nothing read, else return. -/
def pollTail (s : State) (l : PollLocals) : State :=
  let r := emitInto s l
  if r.2.data.length = 0 then
    { r.1 with waitingForData := true, owner := none, reader := .parked l.maxReads false }
  else { r.1 with owner := none, reader := .idle, returned := r.1.returned ++ r.2.data }

/-- One step of `poll` with the mutex held. -/
def pollStep (hal : Hal) (s : State) (l : PollLocals) : State :=
  if l.empties < hal.queueCount ∧ l.data.length < l.maxReads then
    let r := pollTurn hal s l
    { r.1 with reader := .scan r.2 }
  else pollTail s l

/-- `poll` refuses a missing buffer, a non-positive size and an empty context. -/
def pollCall (hal : Hal) (s : State) (data : Bool) (maxReads : Int) : State :=
  if !data ∨ maxReads ≤ 0 ∨ hal.queueCount = 0 then s
  else { s with reader := .enter maxReads.toNat }

/-- `waitForSpace` at the head of the writer loop; both ways release the mutex. -/
def writerHead (s : State) (m : Nat) : State :=
  if SensorEventQueue.full (s.queues m) then setWriter s m (.waitTop false)
  else setWriter s m .polling

/-- The writer gets the mutex: at the head of its loop, to call `write()`, or
back from a condition wait. -/
def writerLock (s : State) (m : Nat) : Option State :=
  match s.writers m with
  | .top => some (writerHead s m)
  | .waitTop _ => some (writerHead s m)
  | .polled batch =>
    let s := setQueue s m (SensorEventQueue.beginWrite (s.queues m) batch.length)
    let s := { s with
      owner := some (.writer m)
      arrivals := Function.update s.arrivals m (s.arrivals m ++ batch.map .event) }
    some (setWriter s m (.writing batch))
  | .waitWrite rest _ => some (setWriter { s with owner := some (.writer m) } m (.writing rest))
  | _ => none

/-- `device->poll` returns, outside the lock. -/
def writerPolled (s : State) (m : Nat) (r : PollResult) : State :=
  let s := { s with polls := Function.update s.polls m (s.polls m ++ [r]) }
  if r.1 ≤ 0 ∨ r.1 > sensorEventQueueCapacity then setWriter s m .top
  else setWriter s m (.polled (r.2.toList.take r.1.toNat))

/-- One turn of the loop of `write()`, or its end. -/
def writeStep (s : State) (m : Nat) (rest : List Event) : State :=
  if (s.queues m).pendingSize > 0 then
    if SensorEventQueue.full (s.queues m) then
      setWriter { s with owner := none } m (.waitWrite rest false)
    else
      let r := SensorEventQueue.writeChunk (s.queues m) rest
      broadcastData (setWriter (setQueue s m r.1) m (.writing r.2))
  else setWriter { s with owner := none } m .top

def flush (hal : Hal) (s : State) (handle : Int) : Int × State :=
  let moduleIndex := getModuleIndex hal.tables handle
  match sensorByHandle hal.published handle with
  | none => (-einval, s)
  | some sensor =>
    if moduleIndex < 0 ∨ moduleIndex ≥ hal.queueCount ∨ isOneShot sensor then (-einval, s)
    else if !s.activeSensors handle then (-einval, s)
    else
      let m := moduleIndex.toNat
      let request : PendingFlush := ⟨handle, m, s.consumedEvents m +
        UInt64.ofNat (SensorEventQueue.getPendingSize (s.queues m))⟩
      let s := { s with
        pendingFlushes := s.pendingFlushes ++ [request]
        arrivals := Function.update s.arrivals m (s.arrivals m ++ [.mark handle]) }
      (0, broadcastData s)

/-- `activate`, given the result of the sub-HAL. Every device passed the checks
of `open_sensors`, so only the handle decides whether the call goes down. -/
def activate (hal : Hal) (s : State) (handle enabled subResult : Int) : Int × State :=
  let moduleIndex := getModuleIndex hal.tables handle
  if getLocalHandle hal.tables handle ≥ 0 ∧ 0 ≤ moduleIndex ∧ moduleIndex < hal.queueCount then
    if subResult = 0 then
      (0, { s with activeSensors := fun h => if h = handle then enabled != 0 else s.activeSensors h })
    else (subResult, s)
  else (-einval, s)

inductive Action where
  | writerLock (m : Nat)
  | writerPolled (m : Nat) (r : PollResult)
  | writerRun (m : Nat)
  | pollCall (data : Bool) (maxReads : Int)
  | readerLock
  | readerRun
  | flush (handle : Int)
  | activate (handle enabled subResult : Int)

def step (hal : Hal) (s : State) : Action → Option State
  | .writerLock m => if m < hal.queueCount ∧ s.owner = none then writerLock s m else none
  | .writerPolled m r => if s.writers m = .polling then some (writerPolled s m r) else none
  | .writerRun m =>
    match s.writers m with
    | .writing rest => if s.owner = some (.writer m) then some (writeStep s m rest) else none
    | _ => none
  | .pollCall data maxReads =>
    if s.reader = .idle then some (pollCall hal s data maxReads) else none
  | .readerLock =>
    if s.owner = none then
      match s.reader with
      | .enter n => some { s with owner := some .reader, reader := .scan ⟨n, 0, []⟩ }
      | .parked n _ =>
        some { s with waitingForData := false, owner := some .reader, reader := .scan ⟨n, 0, []⟩ }
      | _ => none
    else none
  | .readerRun =>
    match s.reader with
    | .scan l => if s.owner = some .reader then some (pollStep hal s l) else none
    | _ => none
  | .flush handle => if s.owner = none then some (flush hal s handle).2 else none
  | .activate handle enabled r => if s.owner = none then some (activate hal s handle enabled r).2 else none

def Reachable (hal : Hal) : State → Prop := Transition.Reachable (step hal) Initial

/-- An accelerometer in each of two modules, under the same local handle. -/
def sampleHal : Hal := ⟨[[⟨101, 1, 0, 0, 0, 0, 0⟩], [⟨101, 1, 0, 0, 0, 0, 0⟩]]⟩

def sampleEvent (sensor timestamp : Int) : Event := ⟨104, sensor, 1, timestamp, ⟨0, 0⟩, []⟩

def sampleInitial : State where
  queues := fun _ => SensorEventQueue.new sensorEventQueueCapacity fun _ => sampleEvent 0 0
  consumedEvents := fun _ => 0
  pendingFlushes := []
  activeSensors := fun _ => false
  nextReadIndex := 0
  waitingForData := false
  owner := none
  writers := fun _ => .top
  reader := .idle
  returned := []
  polls := fun _ => []
  arrivals := fun _ => []

theorem sampleInitial_initial : Initial sampleInitial := by
  refine ⟨fun m => ⟨_, rfl⟩, ?_⟩
  simp [sampleInitial]

def sampleRun (actions : List Action) : Option State :=
  Transition.run (step sampleHal) sampleInitial actions

theorem sampleRun_reachable (actions : List Action) (h : (sampleRun actions).isSome = true) :
    Reachable sampleHal ((sampleRun actions).get h) :=
  Transition.Reachable.run (.start sampleInitial_initial) (Option.some_get h).symm

/-- A batch of two events, the second of an unknown sensor, then a flush and a
`poll` that has read both events and emitted the completion. -/
def samplePair : List Action :=
  [.activate 1 1 0, .writerLock 0,
    .writerPolled 0 (2, Vector.ofFn fun i => sampleEvent (if i.val = 1 then 7 else 101) i.val),
    .writerLock 0, .writerRun 0, .writerRun 0, .flush 1, .pollCall true 8, .readerLock, .readerRun,
    .readerRun, .readerRun, .readerRun]

/-- A `poll` that finds both queues empty and parks. -/
def samplePark : List Action := [.pollCall true 4, .readerLock, .readerRun, .readerRun, .readerRun]

end Multihal
