import Mocha.Ring

/-!
# The fixed-size event queue

`SensorEventQueue` of `sensors/SensorEventQueue.cpp`, over an arbitrary event
type. Every function runs with the caller's mutex held; `write()` gives it up
only inside `waitForSpace`, so one turn of its loop is a function of its own.
The `int` fields are natural numbers: none of them is ever negative.
-/
namespace SensorEventQueue

variable {α : Type}

structure Queue (α : Type) where
  capacity : Nat
  start : Nat
  size : Nat
  pendingSize : Nat
  data : Nat → α

/-- The constructor leaves the contents of the array unspecified. -/
def new (capacity : Nat) (data : Nat → α) : Queue α := ⟨capacity, 0, 0, 0, data⟩

/-- First writable slot, if any, and length of the contiguous region. -/
def getWritableRegion (q : Queue α) (requestedLength : Nat) : Option Nat × Nat :=
  if q.size = q.capacity ∨ requestedLength = 0 then (none, 0)
  else
    let firstWritable := (q.start + q.size) % q.capacity
    let lastWritable := firstWritable + requestedLength - 1
    -- do not go past the end of the data array
    let lastWritable := if lastWritable > q.capacity - 1 then q.capacity - 1 else lastWritable
    -- do not go into the readable region
    let lastWritable :=
      if firstWritable < q.start ∧ lastWritable ≥ q.start then q.start - 1 else lastWritable
    (some firstWritable, lastWritable - firstWritable + 1)

def markAsWritten (q : Queue α) (count : Nat) : Queue α := { q with size := q.size + count }

/-- `mPendingSize = count`, the first statement of `write()`. -/
def beginWrite (q : Queue α) (count : Nat) : Queue α := { q with pendingSize := count }

/-- The condition on which `waitForSpace` keeps waiting. -/
def full (q : Queue α) : Bool := q.size == q.capacity

/-- One turn of the loop of `write()` once `waitForSpace` has returned: copy a
chunk of the remaining events and return the queue with the events still left. -/
def writeChunk (q : Queue α) (events : List α) : Queue α × List α :=
  let (destination, chunk) := getWritableRegion q q.pendingSize
  let data := match destination with
    | some first => Ring.copyAt q.data first (events.take chunk)
    | none => q.data
  let q := markAsWritten { q with data := data } chunk
  ({ q with pendingSize := q.pendingSize - chunk }, events.drop chunk)

def getSize (q : Queue α) : Nat := q.size

def getPendingSize (q : Queue α) : Nat := q.size + q.pendingSize

def peek (q : Queue α) : Option α := if q.size = 0 then none else some (q.data q.start)

/-- The flag tells whether `mSpaceAvailableCondition` was broadcast. -/
def dequeue (q : Queue α) : Queue α × Bool :=
  if q.size = 0 then (q, false)
  else ({ q with size := q.size - 1, start := (q.start + 1) % q.capacity }, q.size == q.capacity)

/-- The readable events, oldest first. -/
def readable (q : Queue α) : List α := Ring.window q.data q.capacity q.start q.size

/-- The bounds that every operation keeps. -/
structure Wf (q : Queue α) : Prop where
  start_lt : q.start < q.capacity
  size_le : q.size ≤ q.capacity

@[simp] theorem readable_length (q : Queue α) : (readable q).length = q.size := by
  simp [readable]

@[simp] theorem readable_beginWrite (q : Queue α) (n : Nat) :
    readable (beginWrite q n) = readable q := rfl

@[simp] theorem readable_new (c : Nat) (data : Nat → α) : readable (new c data) = [] := rfl

/-- A queue with room for an event is well formed. -/
theorem new_wf (c : Nat) (data : Nat → α) (hc : 0 < c) : Wf (new c data) := ⟨hc, Nat.zero_le _⟩

theorem beginWrite_wf {q : Queue α} (h : Wf q) (n : Nat) : Wf (beginWrite q n) :=
  ⟨h.start_lt, h.size_le⟩

theorem full_iff (q : Queue α) : full q = true ↔ q.size = q.capacity := by simp [full]

/-- `peek` and `dequeue` see the readable events as a list. -/
theorem peek_eq_head (q : Queue α) (h : Wf q) : peek q = (readable q).head? := by
  unfold peek readable
  cases hs : q.size with
  | zero => simp
  | succ n => simp [Ring.window_succ _ _ _ _ h.start_lt]

/-- There is nothing to look at exactly when nothing is readable. -/
theorem peek_none_iff (q : Queue α) : peek q = none ↔ q.size = 0 := by
  unfold peek
  split <;> simp_all

/-- Taking one event leaves the others in their order. -/
theorem dequeue_readable (q : Queue α) (h : Wf q) :
    readable (dequeue q).1 = (readable q).tail := by
  unfold dequeue readable
  cases hs : q.size with
  | zero => simp [hs]
  | succ n => simp [Ring.window_succ _ _ _ _ h.start_lt]

/-- The size never falls below zero. -/
theorem dequeue_wf {q : Queue α} (h : Wf q) : Wf (dequeue q).1 := by
  unfold dequeue
  split
  · exact h
  · exact ⟨Nat.mod_lt _ (by have := h.start_lt; omega), by have := h.size_le; simp only; omega⟩

@[simp] theorem dequeue_capacity (q : Queue α) : (dequeue q).1.capacity = q.capacity := by
  unfold dequeue; split <;> rfl

@[simp] theorem dequeue_pendingSize (q : Queue α) : (dequeue q).1.pendingSize = q.pendingSize := by
  unfold dequeue; split <;> rfl

/-- The space condition is broadcast exactly on leaving the full state. -/
theorem dequeue_broadcast (q : Queue α) (hne : q.size ≠ 0) :
    (dequeue q).2 = full q ∧ (dequeue q).1.size = q.size - 1 := by
  simp [dequeue, hne, full]

/-- With space left and something to write the region is not empty, fits in the
free slots, and ends inside the array. -/
theorem getWritableRegion_spec (q : Queue α) (h : Wf q) (n : Nat) (hn : 0 < n)
    (hspace : q.size < q.capacity) :
    ∃ k, getWritableRegion q n = (some ((q.start + q.size) % q.capacity), k) ∧ 1 ≤ k ∧ k ≤ n ∧
      q.size + k ≤ q.capacity ∧ (q.start + q.size) % q.capacity + k ≤ q.capacity := by
  have hs := h.start_lt
  have hslot := Ring.slot_cases q.capacity q.start q.size hs (by omega)
  simp only [getWritableRegion]
  rw [if_neg (by omega)]
  generalize (q.start + q.size) % q.capacity = first at hslot ⊢
  refine ⟨_, rfl, by omega, ?_, ?_, ?_⟩ <;> (split <;> split <;> omega)

/-- A chunk moves a non-empty prefix of the events behind the readable ones. -/
theorem writeChunk_spec (q : Queue α) (h : Wf q) (events : List α)
    (hlen : q.pendingSize = events.length) (hpos : 0 < q.pendingSize) (hspace : q.size < q.capacity) :
    ∃ k, 1 ≤ k ∧ k ≤ events.length ∧ (writeChunk q events).2 = events.drop k ∧
      readable (writeChunk q events).1 = readable q ++ events.take k ∧
      (writeChunk q events).1.capacity = q.capacity ∧
      (writeChunk q events).1.pendingSize = (events.drop k).length ∧ Wf (writeChunk q events).1 := by
  obtain ⟨k, hk, h1, hkn, hfit, hend⟩ := getWritableRegion_spec q h q.pendingSize hpos hspace
  have htake : (events.take k).length = k := by rw [List.length_take]; omega
  refine ⟨k, h1, by omega, by simp [writeChunk, hk], ?_, by simp [writeChunk, hk, markAsWritten],
    by rw [List.length_drop, ← hlen]; simp [writeChunk, hk, markAsWritten], ?_⟩
  · have hw := Ring.window_copyAt q.data q.capacity q.start q.size (events.take k) h.start_lt
      (by omega) (by omega)
    simpa only [writeChunk, hk, markAsWritten, readable, htake] using hw
  · exact ⟨by simpa [writeChunk, hk, markAsWritten] using h.start_lt,
      by simpa [writeChunk, hk, markAsWritten] using hfit⟩

end SensorEventQueue
