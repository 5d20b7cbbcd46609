import Mocha.SensorEventQueue

/-!
# The event queue in machine integers

`getWritableRegion()`, `markAsWritten()` and the loop of `write()` once more,
now with the fields as `int` and each sum formed in the order of the source. As
long as the sums stay within an `int`, this is the queue of natural numbers.
-/
namespace SensorEventQueue.Machine

variable {α : Type}

/-- What an operation on `int` yields for the exact value of the operation: the value itself
whenever it fits. Beyond that the language leaves the result open. -/
structure Arith where
  result : Int → Option Int
  exact : ∀ x, -2147483648 ≤ x → x ≤ 2147483647 → result x = some x

/-- An overflow has no result at all. -/
def strict : Arith where
  result x := if -2147483648 ≤ x ∧ x ≤ 2147483647 then some x else none
  exact _ hlow hhigh := if_pos ⟨hlow, hhigh⟩

/-- An overflow drops the upper bits, as the processor does. -/
def wrapping : Arith where
  result x := some (x.bmod 4294967296)
  exact x hlow hhigh := by
    have hx := Int.bmod_eq_of_le (n := x) (m := 4294967296) (by omega) (by omega)
    rw [hx]

structure Queue (α : Type) where
  capacity : Int
  start : Int
  size : Int
  pendingSize : Int
  data : Nat → α

/-- The bounds on `mStart` and `mSize`. -/
structure Valid (q : Queue α) : Prop where
  start_nonneg : 0 ≤ q.start
  start_lt : q.start < q.capacity
  size_nonneg : 0 ≤ q.size
  size_le : q.size ≤ q.capacity

/-- The slot of `*out`, with `none` for `NULL`, and the length. -/
def getWritableRegion (a : Arith) (q : Queue α) (requestedLength : Int) :
    Option (Option Int × Int) :=
  if q.size = q.capacity ∨ requestedLength ≤ 0 then some (none, 0)
  else do
    let readableEnd ← a.result (q.start + q.size)
    let firstWritable := readableEnd.tmod q.capacity
    let past ← a.result (firstWritable + requestedLength)
    let lastWritable ← a.result (past - 1)
    -- do not go past the end of the data array
    let lastSlot ← a.result (q.capacity - 1)
    let lastWritable := if lastWritable > lastSlot then lastSlot else lastWritable
    -- do not go into the readable region
    let lastWritable ←
      if firstWritable < q.start ∧ lastWritable ≥ q.start then a.result (q.start - 1)
      else some lastWritable
    let distance ← a.result (lastWritable - firstWritable)
    let length ← a.result (distance + 1)
    return (some firstWritable, length)

def markAsWritten (a : Arith) (q : Queue α) (count : Int) : Option (Queue α) := do
  let size ← a.result (q.size + count)
  return { q with size }

/-- `memcpy` of a chunk to a slot. There is no result when the chunk does not lie inside the
array, or is longer than the batch. -/
def copyChunk (q : Queue α) (destination : Option Int) (events : List α) (chunk : Int) :
    Option (Queue α) :=
  match destination with
  | none => if chunk = 0 then some q else none
  | some first =>
    if 0 ≤ first ∧ 0 ≤ chunk ∧ first + chunk ≤ q.capacity ∧ chunk ≤ events.length then
      some { q with data := Ring.copyAt q.data first.toNat (events.take chunk.toNat) }
    else none

/-- One turn of the loop of `write()` once `waitForSpace` has returned. -/
def writeChunk (a : Arith) (q : Queue α) (events : List α) : Option (Queue α × List α) := do
  let (destination, chunk) ← getWritableRegion a q q.pendingSize
  let q ← copyChunk q destination events chunk
  let q ← markAsWritten a q chunk
  let pendingSize ← a.result (q.pendingSize - chunk)
  return ({ q with pendingSize }, events.drop chunk.toNat)

/-- The slot of the readable event number `i`, the oldest being number 0. -/
def readableSlot (q : Queue α) (i : Int) : Int := (q.start + i) % q.capacity

/-- A region that may be written: not empty, no longer than asked for or than the free space,
inside the array, right behind the last readable slot, and apart from every readable slot. -/
structure SafeRegion (q : Queue α) (requestedLength first n : Int) : Prop where
  one_le : 1 ≤ n
  le_requested : n ≤ requestedLength
  le_space : n ≤ q.capacity - q.size
  inside : 0 ≤ first ∧ first + n ≤ q.capacity
  behind : first = readableSlot q q.size
  apart : ∀ i, 0 ≤ i → i < q.size →
    readableSlot q i < first ∨ first + n ≤ readableSlot q i

/-- The queue of natural numbers as a machine queue. -/
def ofQueue (q : SensorEventQueue.Queue α) : Queue α :=
  ⟨q.capacity, q.start, q.size, q.pendingSize, q.data⟩

def toQueue (q : Queue α) : SensorEventQueue.Queue α :=
  ⟨q.capacity.toNat, q.start.toNat, q.size.toNat, q.pendingSize.toNat, q.data⟩

theorem ofQueue_toQueue {q : Queue α} (h : Valid q) (hpending : 0 ≤ q.pendingSize) :
    ofQueue (toQueue q) = q := by
  obtain ⟨capacity, start, size, pendingSize, data⟩ := q
  obtain ⟨hstart, hlt, hsize, hle⟩ := h
  simp only [ofQueue, toQueue, Queue.mk.injEq, and_true]
  simp only at hstart hlt hsize hle hpending
  omega

theorem valid_ofQueue {q : SensorEventQueue.Queue α} (h : Wf q) : Valid (ofQueue q) := by
  have hstart := h.start_lt
  have hsize := h.size_le
  constructor <;> simp only [ofQueue] <;> omega

theorem wf_toQueue {q : Queue α} (h : Valid q) : Wf (toQueue q) := by
  obtain ⟨hstart, hlt, hsize, hle⟩ := h
  constructor <;> simp only [toQueue] <;> omega

/-- While the sums fit, the machine finds the region of the queue of natural numbers. -/
theorem getWritableRegion_ofQueue (a : Arith) {q : SensorEventQueue.Queue α} (h : Wf q) {n : Nat}
    (hfit : n + q.capacity ≤ 2147483647) (hsum : q.start + q.size ≤ 2147483647) :
    getWritableRegion a (ofQueue q) n =
      some ((SensorEventQueue.getWritableRegion q n).1.map Nat.cast,
        ((SensorEventQueue.getWritableRegion q n).2 : Int)) := by
  have hstart := h.start_lt
  have hsize := h.size_le
  have hfull : (ofQueue q).size = (ofQueue q).capacity ∨ (n : Int) ≤ 0 ↔
      q.size = q.capacity ∨ n = 0 := by
    simp only [ofQueue]
    omega
  rw [getWritableRegion, SensorEventQueue.getWritableRegion]
  simp only [hfull]
  by_cases hguard : q.size = q.capacity ∨ n = 0
  · rw [if_pos hguard, if_pos hguard]
    rfl
  rw [if_neg hguard, if_neg hguard]
  have hmod : ((q.start : Int) + q.size).tmod q.capacity =
      (((q.start + q.size) % q.capacity : Nat) : Int) := by
    rw [Int.tmod_eq_emod_of_nonneg (by omega)]
    simp
  have hfirst : (q.start + q.size) % q.capacity < q.capacity := Nat.mod_lt _ (by omega)
  simp only [ofQueue]
  rw [a.exact _ (by omega) (by omega)]
  simp only [Option.bind_eq_bind, Option.bind_some, hmod]
  generalize (q.start + q.size) % q.capacity = first at hfirst ⊢
  rw [a.exact _ (by omega) (by omega)]
  simp only [Option.bind_some]
  rw [a.exact _ (by omega) (by omega)]
  simp only [Option.bind_some]
  rw [a.exact _ (by omega) (by omega)]
  simp only [Option.bind_some]
  -- the end of the array, then the readable region
  have hend : (if (first : Int) + n - 1 > q.capacity - 1 then (q.capacity : Int) - 1
      else first + n - 1) =
      ((if first + n - 1 > q.capacity - 1 then q.capacity - 1 else first + n - 1 : Nat) : Int) := by
    split <;> split <;> omega
  have hlast : (if first + n - 1 > q.capacity - 1 then q.capacity - 1 else first + n - 1) ≤
      q.capacity - 1 ∧
      first ≤ (if first + n - 1 > q.capacity - 1 then q.capacity - 1 else first + n - 1) := by
    split <;> omega
  rw [hend]
  generalize (if first + n - 1 > q.capacity - 1 then q.capacity - 1 else first + n - 1) = last
    at hlast ⊢
  by_cases hread : first < q.start ∧ last ≥ q.start
  · rw [if_pos (by omega), if_pos hread, a.exact _ (by omega) (by omega)]
    simp only [Option.bind_some]
    rw [a.exact _ (by omega) (by omega)]
    simp only [Option.bind_some]
    rw [a.exact _ (by omega) (by omega)]
    simp only [Option.bind_some, Option.pure_def, Option.map_some, Option.some.injEq, Prod.mk.injEq,
      true_and]
    omega
  · rw [if_neg (by omega), if_neg hread, a.exact _ (by omega) (by omega)]
    simp only [Option.bind_some]
    rw [a.exact _ (by omega) (by omega)]
    simp only [Option.bind_some, Option.pure_def, Option.map_some, Option.some.injEq, Prod.mk.injEq,
      true_and]
    omega

/-- With space left the region is safe. -/
theorem safeRegion_ofQueue {q : SensorEventQueue.Queue α} (h : Wf q) {n : Nat} (hn : 0 < n)
    (hspace : q.size < q.capacity) :
    ∃ first k : Nat, SensorEventQueue.getWritableRegion q n = (some first, k) ∧
      SafeRegion (ofQueue q) n first k := by
  obtain ⟨k, hk, hone, hle, hroom, hend⟩ := getWritableRegion_spec q h n hn hspace
  have hstart := h.start_lt
  have hbehind := Ring.slot_cases q.capacity q.start q.size hstart (by omega)
  refine ⟨(q.start + q.size) % q.capacity, k, hk, ?_⟩
  constructor
  · omega
  · omega
  · simp only [ofQueue]
    omega
  · simp only [ofQueue]
    omega
  · simp [readableSlot, ofQueue]
  · intro i hi hsize
    obtain ⟨j, rfl⟩ := Int.eq_ofNat_of_zero_le hi
    have hslot : readableSlot (ofQueue q) j = ((q.start + j) % q.capacity : Nat) := by
      simp [readableSlot, ofQueue]
    have hj : j < q.size := by simpa [ofQueue] using hsize
    have hcases := Ring.slot_cases q.capacity q.start j hstart (by omega)
    rw [hslot]
    omega

/-- The region of a machine queue with space left. -/
theorem writableRegion_safe (a : Arith) {q : Queue α} (h : Valid q) {n : Nat} (hn : 0 < n)
    (hspace : q.size < q.capacity) (hfit : n + q.capacity ≤ 2147483647)
    (hsum : q.start + q.size ≤ 2147483647) :
    ∃ first k : Int, getWritableRegion a q n = some (some first, k) ∧ SafeRegion q n first k := by
  -- the pending size plays no part in the region
  have hcalm : Valid { q with pendingSize := 0 } :=
    ⟨h.start_nonneg, h.start_lt, h.size_nonneg, h.size_le⟩
  have hq := ofQueue_toQueue hcalm (Int.le_refl 0)
  have hwf := wf_toQueue hcalm
  generalize toQueue { q with pendingSize := 0 } = m at hq hwf
  obtain ⟨hcapacity, hstart, hsize, -, -⟩ := Queue.mk.inj hq
  obtain ⟨first, k, hk, hsafe⟩ := safeRegion_ofQueue hwf hn (by omega)
  have hregion := getWritableRegion_ofQueue a hwf
    (show n + m.capacity ≤ 2147483647 by omega) (by omega)
  rw [hk, hq] at hregion
  rw [hq] at hsafe
  exact ⟨first, k, hregion, ⟨hsafe.one_le, hsafe.le_requested, hsafe.le_space, hsafe.inside,
    hsafe.behind, hsafe.apart⟩⟩

/-- `markAsWritten(n)` keeps the bounds for every `n` that fits in the free space. -/
theorem markAsWritten_valid (a : Arith) {q : Queue α} (h : Valid q) {n : Int} (hn : 0 ≤ n)
    (hroom : n ≤ q.capacity - q.size) (hcapacity : q.capacity ≤ 2147483647) :
    ∃ q', markAsWritten a q n = some q' ∧ Valid q' ∧ q'.size = q.size + n := by
  obtain ⟨hstart, hlt, hsize, hle⟩ := h
  refine ⟨{ q with size := q.size + n }, ?_, ⟨hstart, hlt, ?_, ?_⟩, rfl⟩
  · rw [markAsWritten, a.exact _ (by omega) (by omega)]
    rfl
  · simp only
    omega
  · simp only
    omega

/-- While the sums fit, a turn of the loop of `write()` is that of the queue of natural numbers. -/
theorem writeChunk_ofQueue (a : Arith) {q : SensorEventQueue.Queue α} (h : Wf q) (events : List α)
    (hlen : q.pendingSize = events.length) (hpos : 0 < q.pendingSize) (hspace : q.size < q.capacity)
    (hfit : q.pendingSize + q.capacity ≤ 2147483647) (hsum : q.start + q.size ≤ 2147483647) :
    writeChunk a (ofQueue q) events =
      some (ofQueue (SensorEventQueue.writeChunk q events).1,
        (SensorEventQueue.writeChunk q events).2) := by
  obtain ⟨first, k, hk, hsafe⟩ := safeRegion_ofQueue h hpos hspace
  obtain ⟨hone, hle, hroom, hinside, -, -⟩ := hsafe
  have hregion : getWritableRegion a (ofQueue q) (ofQueue q).pendingSize =
      some (some (first : Int), (k : Int)) := by
    have hmachine := getWritableRegion_ofQueue a h hfit hsum
    rw [hk] at hmachine
    exact hmachine
  have hcopy : copyChunk (ofQueue q) (some (first : Int)) events k =
      some { ofQueue q with data := Ring.copyAt q.data first (events.take k) } := by
    rw [copyChunk, if_pos (by omega)]
    rfl
  simp only [ofQueue] at hroom hinside
  rw [writeChunk, hregion]
  simp only [Option.bind_eq_bind, Option.bind_some, hcopy]
  simp only [markAsWritten, ofQueue]
  rw [a.exact _ (by omega) (by omega)]
  simp only [Option.pure_def, Option.bind_eq_bind, Option.bind_some]
  rw [a.exact _ (by omega) (by omega)]
  have hpending : ((q.pendingSize - k : Nat) : Int) = q.pendingSize - k := by omega
  simp [SensorEventQueue.writeChunk, hk, SensorEventQueue.markAsWritten, hpending]

/-- A turn of the loop with space left leaves fewer events to write. -/
theorem writeChunk_decreases (a : Arith) {q : Queue α} (h : Valid q) (events : List α)
    (hlen : q.pendingSize = events.length) (hpos : 0 < q.pendingSize)
    (hspace : q.size < q.capacity) (hfit : q.pendingSize + q.capacity ≤ 2147483647)
    (hsum : q.start + q.size ≤ 2147483647) :
    ∃ q' rest, writeChunk a q events = some (q', rest) ∧ Valid q' ∧
      q'.pendingSize = rest.length ∧ q'.pendingSize < q.pendingSize := by
  have hq := ofQueue_toQueue h (by omega)
  have hwf := wf_toQueue h
  generalize toQueue q = n at hq hwf
  subst hq
  simp only [ofQueue] at hlen hpos hspace hfit hsum
  have hmachine := writeChunk_ofQueue a hwf events (by omega) (by omega) (by omega) (by omega)
    (by omega)
  obtain ⟨k, hone, hk, hrest, -, -, hpending, hwf'⟩ :=
    writeChunk_spec n hwf events (by omega) (by omega) (by omega)
  refine ⟨_, _, hmachine, valid_ofQueue hwf', ?_, ?_⟩
  · simp only [ofQueue, hpending, hrest]
  · simp only [ofQueue, hpending, List.length_drop]
    omega

/-- What `getWritableRegion` answers, and what the answer is good for. -/
structure Served (a : Arith) (q : Queue α) (requestedLength : Int) : Prop where
  /-- With space left, a region that may be written; it can be marked as written. -/
  space : q.size < q.capacity → ∃ first n,
    getWritableRegion a q requestedLength = some (some first, n) ∧
    SafeRegion q requestedLength first n ∧
    ∃ q', markAsWritten a q n = some q' ∧ Valid q' ∧ q'.size = q.size + n
  full : q.size = q.capacity → getWritableRegion a q requestedLength = some (none, 0)
  /-- As long as the request is what `write()` has left, its next turn writes some of it. -/
  turn : ∀ events : List α, q.pendingSize = events.length → q.pendingSize = requestedLength →
    q.size < q.capacity → ∃ q' rest, writeChunk a q events = some (q', rest) ∧ Valid q' ∧
      q'.pendingSize = rest.length ∧ q'.pendingSize < q.pendingSize

theorem getWritableRegion_full (a : Arith) {q : Queue α} (requestedLength : Int)
    (h : q.size = q.capacity) : getWritableRegion a q requestedLength = some (none, 0) := by
  rw [getWritableRegion, if_pos (.inl h)]

/-- A full queue has no region, and a request is served in every state in which the end of the
readable part fits in an `int`. -/
theorem getWritableRegion_served (a : Arith) (q : Queue α) (requestedLength : Int) (h : Valid q)
    (hpos : 0 < requestedLength) (hfit : requestedLength + q.capacity ≤ 2147483647) :
    (q.size = q.capacity → getWritableRegion a q requestedLength = some (none, 0)) ∧
    (q.start + q.size ≤ 2147483647 → Served a q requestedLength) := by
  refine ⟨getWritableRegion_full a requestedLength, fun hsum => ?_⟩
  constructor
  · intro hspace
    obtain ⟨m, rfl⟩ := Int.eq_ofNat_of_zero_le (show 0 ≤ requestedLength by omega)
    obtain ⟨first, k, hregion, hsafe⟩ := writableRegion_safe a h (by omega) hspace hfit hsum
    have hone := hsafe.one_le
    obtain ⟨q', hq', hvalid, hsize⟩ :=
      markAsWritten_valid a h (by omega) hsafe.le_space (by omega)
    exact ⟨first, k, hregion, hsafe, q', hq', hvalid, hsize⟩
  · exact getWritableRegion_full a requestedLength
  · intro events hlen hrequest hspace
    exact writeChunk_decreases a h events hlen (by omega) hspace (by omega) hsum

/-- The readable part wraps to slot 0, and there are two free slots behind it. -/
theorem served_wrapped : Served strict (⟨4, 3, 2, 5, fun _ => ()⟩ : Queue Unit) 5 :=
  (getWritableRegion_served strict _ 5 ⟨by decide, by decide, by decide, by decide⟩ (by decide)
    (by decide)).2 (by decide)

/-- A queue with one free slot. Its readable part ends past the largest `int`. -/
def farQueue : Queue Unit := ⟨1073741825, 1073741824, 1073741824, 1, fun _ => ()⟩

/-- A request of one event on this queue: the language gives no region, and with the upper bits
dropped the region starts before the array. -/
theorem farQueue_not_served :
    Valid farQueue ∧ 1 + farQueue.capacity ≤ 2147483647 ∧
      getWritableRegion strict farQueue 1 = none ∧ ¬ Served strict farQueue 1 ∧
      getWritableRegion wrapping farQueue 1 = some (some (-1073741823), 1) ∧
      ¬ Served wrapping farQueue 1 := by
  have hspace : farQueue.size < farQueue.capacity := by decide
  have hstrict : getWritableRegion strict farQueue 1 = none := by decide
  have hwrapping : getWritableRegion wrapping farQueue 1 = some (some (-1073741823), 1) := by decide
  refine ⟨⟨by decide, by decide, by decide, by decide⟩, by decide, hstrict, ?_, hwrapping, ?_⟩
  · intro hserved
    obtain ⟨first, n, hregion, -⟩ := hserved.space hspace
    rw [hstrict] at hregion
    cases hregion
  · intro hserved
    obtain ⟨first, n, hregion, hsafe, -⟩ := hserved.space hspace
    rw [hwrapping] at hregion
    cases hregion
    have hinside := hsafe.inside.1
    omega

end SensorEventQueue.Machine
