import Mocha.SensorRegion
import Mocha.Transition

/-!
# The event queue refines a list

One writer calls `write()` again and again while readers peek and dequeue. The
mutex is held through a call of `write()` except inside `waitForSpace`, so the
readers come in between the calls and while the writer sleeps or has not got
the mutex back yet.

The abstract queue is a list of items and the events that the current call of
`write()` still has to put behind them.
-/
namespace SensorEventQueue

variable {α : Type}

/-- Where the writer is, with the events that are still to be copied. -/
inductive Writer (α : Type) where
  /-- Outside `write()`. -/
  | idle
  /-- At the head of the loop, with the mutex. -/
  | writing (rest : List α)
  /-- Asleep in `waitForSpace`; the mutex is free. -/
  | waiting (rest : List α)
  /-- Awake in `waitForSpace`, before it has the mutex again. -/
  | woken (rest : List α)

def Writer.rest : Writer α → List α
  | .idle => []
  | .writing rest => rest
  | .waiting rest => rest
  | .woken rest => rest

/-- The same, with `none` outside `write()`. -/
def Writer.staged : Writer α → Option (List α)
  | .idle => none
  | .writing rest => some rest
  | .waiting rest => some rest
  | .woken rest => some rest

def Writer.holdsMutex : Writer α → Bool
  | .writing _ => true
  | _ => false

/-- What `pthread_cond_broadcast` does to the writer. -/
def Writer.wake : Writer α → Writer α
  | .waiting rest => .woken rest
  | w => w

/-- The queue and its writer. The three lists are history: the events of every call of `write()`,
the events copied into the array, and the events that were at the front when they were dequeued. -/
structure System (α : Type) where
  queue : Queue α
  writer : Writer α
  submitted : List α
  copied : List α
  taken : List α

def System.new (capacity : Nat) (data : Nat → α) : System α :=
  ⟨SensorEventQueue.new capacity data, .idle, [], [], []⟩

inductive Action (α : Type) where
  /-- A call of `write()`, with the mutex taken. -/
  | write (events : List α)
  /-- The writer goes on to the next chunk, to sleep, or out of `write()`. -/
  | turn
  /-- A spurious wake-up. -/
  | wake
  | peek
  | dequeue

def Action.isWrite : Action α → Bool
  | .write _ => true
  | _ => false

/-- `waitForSpace`, and the rest of the loop's body once there is space. -/
def writeTurn (s : System α) (rest : List α) : System α :=
  if full s.queue then { s with writer := .waiting rest }
  else
    let done := writeChunk s.queue rest
    { s with
      queue := done.1
      writer := .writing done.2
      copied := s.copied ++ rest.take (getWritableRegion s.queue s.queue.pendingSize).2 }

def readerDequeue (s : System α) : System α :=
  let done := dequeue s.queue
  { s with
    queue := done.1
    writer := if done.2 then s.writer.wake else s.writer
    taken := s.taken ++ (SensorEventQueue.peek s.queue).toList }

def step (s : System α) : Action α → Option (System α)
  | .write events =>
    match s.writer with
    | .idle => some { s with
        queue := beginWrite s.queue events.length
        writer := .writing events
        submitted := s.submitted ++ events }
    | _ => none
  | .turn =>
    match s.writer with
    | .writing rest =>
      if s.queue.pendingSize > 0 then some (writeTurn s rest) else some { s with writer := .idle }
    | .woken rest => some (writeTurn s rest)
    | .idle | .waiting _ => none
  | .wake =>
    match s.writer with
    | .waiting rest => some { s with writer := .woken rest }
    | _ => none
  | .peek => if s.writer.holdsMutex then none else some s
  | .dequeue => if s.writer.holdsMutex then none else some (readerDequeue s)

section Abstract

/-- A list of items, and what the current call of `write()` has not put behind them yet. -/
structure Fifo (α : Type) where
  items : List α
  staged : Option (List α)

def Fifo.empty : Fifo α := ⟨[], none⟩

/-- Items go in at the back and leave at the front; never more than `capacity` are held. -/
inductive Fifo.Step (capacity : Nat) : Fifo α → Action α → Fifo α → Prop
  | write (items events : List α) : Step capacity ⟨items, none⟩ (.write events) ⟨items, some events⟩
  | put (items : List α) {first : List α} (rest : List α) (hne : first ≠ [])
      (hroom : items.length + first.length ≤ capacity) :
      Step capacity ⟨items, some (first ++ rest)⟩ .turn ⟨items ++ first, some rest⟩
  | sleep {items rest : List α} (hne : rest ≠ []) (hfull : items.length = capacity) :
      Step capacity ⟨items, some rest⟩ .turn ⟨items, some rest⟩
  | finish (items : List α) : Step capacity ⟨items, some []⟩ .turn ⟨items, none⟩
  | wake (f : Fifo α) : Step capacity f .wake f
  | peek (f : Fifo α) : Step capacity f .peek f
  | dequeue (f : Fifo α) : Step capacity f .dequeue ⟨f.items.tail, f.staged⟩

inductive Fifo.Run (capacity : Nat) : Fifo α → List (Action α) → Fifo α → Prop
  | nil (f : Fifo α) : Run capacity f [] f
  | cons {f g h : Fifo α} {a : Action α} {as : List (Action α)} :
      Fifo.Step capacity f a g → Run capacity g as h → Run capacity f (a :: as) h

/-- The list that a queue and its writer stand for. -/
def System.fifo (s : System α) : Fifo α where
  items := readable s.queue
  staged := s.writer.staged

end Abstract

section Invariant

/-- What every step keeps. A sleeping writer has found the queue full, and it is woken before a
slot is free. -/
structure Ok (capacity : Nat) (s : System α) : Prop where
  capacity : s.queue.capacity = capacity
  wf : Wf s.queue
  pending : s.queue.pendingSize = s.writer.rest.length
  submitted : s.submitted = s.copied ++ s.writer.rest
  copied : s.copied = s.taken ++ readable s.queue
  asleep : ∀ rest, s.writer = .waiting rest → rest ≠ [] ∧ full s.queue = true
  woken : ∀ rest, s.writer = .woken rest → rest ≠ []

variable {capacity : Nat} {s t : System α}

theorem System.new_ok (hcap : 1 ≤ capacity) (data : Nat → α) : Ok capacity (System.new capacity data) where
  capacity := rfl
  wf := new_wf capacity data hcap
  pending := rfl
  submitted := rfl
  copied := rfl
  asleep := fun _ h => nomatch h
  woken := fun _ h => nomatch h

/-- A chunk of the events, and what it leaves. -/
theorem writeChunk_split (q : Queue α) (h : Wf q) (events : List α)
    (hlen : q.pendingSize = events.length) (hne : events ≠ []) (hspace : full q = false) :
    ∃ first rest, events = first ++ rest ∧ first ≠ [] ∧
      events.take (getWritableRegion q q.pendingSize).2 = first ∧ (writeChunk q events).2 = rest ∧
      readable (writeChunk q events).1 = readable q ++ first ∧
      (writeChunk q events).1.capacity = q.capacity ∧
      (writeChunk q events).1.pendingSize = rest.length ∧ Wf (writeChunk q events).1 := by
  have hpos : 0 < events.length := List.length_pos_of_ne_nil hne
  have hroom : q.size < q.capacity := by
    have := h.size_le
    simp only [full, beq_eq_false_iff_ne] at hspace
    omega
  obtain ⟨k, h1, hk, hrest, hread, hcapacity, hpending, hwf⟩ :=
    writeChunk_spec q h events hlen (by omega) hroom
  have hdrop : events.drop (getWritableRegion q q.pendingSize).2 = events.drop k := hrest
  have htake : events.take (getWritableRegion q q.pendingSize).2 = events.take k := by
    have hboth : events.take (getWritableRegion q q.pendingSize).2 ++ events.drop k =
        events.take k ++ events.drop k := by
      rw [List.take_append_drop, ← hdrop, List.take_append_drop]
    exact List.append_cancel_right hboth
  refine ⟨events.take k, events.drop k, (List.take_append_drop k events).symm, ?_, htake, hrest, hread,
    hcapacity, hpending, hwf⟩
  apply List.ne_nil_of_length_pos
  rw [List.length_take]
  omega

/-- A turn of the loop with events left: the writer goes to sleep, or puts some of them in. -/
theorem writeTurn_spec (hok : Ok capacity s) {rest : List α} (hrest : s.writer.rest = rest)
    (hne : rest ≠ []) :
    Ok capacity (writeTurn s rest) ∧
      Fifo.Step capacity ⟨readable s.queue, some rest⟩ .turn (writeTurn s rest).fifo := by
  have hlen : s.queue.pendingSize = rest.length := by rw [hok.pending, hrest]
  unfold writeTurn
  cases hfull : full s.queue with
  | true =>
    rw [if_pos rfl]
    constructor
    · refine ⟨hok.capacity, hok.wf, hlen, by rw [hok.submitted, hrest]; rfl, hok.copied, ?_, ?_⟩
      · rintro _ ⟨⟩
        exact ⟨hne, hfull⟩
      · exact fun _ h => nomatch h
    · refine Fifo.Step.sleep hne ?_
      rw [readable_length, (full_iff s.queue).mp hfull, hok.capacity]
  | false =>
    rw [if_neg Bool.false_ne_true]
    obtain ⟨first, left, rfl, hfirst, htake, hleft, hread, hcapacity, hpending, hwf⟩ :=
      writeChunk_split s.queue hok.wf rest hlen hne hfull
    dsimp only
    rw [htake, hleft]
    constructor
    · refine ⟨hcapacity.trans hok.capacity, hwf, hpending, ?_, ?_, ?_, ?_⟩
      · show s.submitted = (s.copied ++ first) ++ left
        rw [hok.submitted, hrest, List.append_assoc]
      · show s.copied ++ first = s.taken ++ readable (writeChunk s.queue (first ++ left)).1
        rw [hread, hok.copied, List.append_assoc]
      · exact fun _ h => nomatch h
      · exact fun _ h => nomatch h
    · show Fifo.Step capacity ⟨readable s.queue, some (first ++ left)⟩ .turn
        ⟨readable (writeChunk s.queue (first ++ left)).1, some left⟩
      rw [hread]
      apply Fifo.Step.put _ left hfirst
      have hsize := hwf.size_le
      rw [hcapacity, hok.capacity, ← readable_length, hread] at hsize
      simpa using hsize

/-- An event takes 104 bytes, and the array and a batch lie in one 32-bit address space, so the
sums of `getWritableRegion` stay within `int`. -/
theorem region_sums_fit {q : Queue α} (h : Wf q) {requestedLength : Nat}
    (hbytes : 104 * (q.capacity + requestedLength) < 4294967296) :
    requestedLength + q.capacity ≤ 2147483647 ∧ q.start + q.size ≤ 2147483647 := by
  have hstart := h.start_lt
  have hsize := h.size_le
  omega

/-- So the turn of the writer is the one that the machine makes, whatever an overflow would do. -/
theorem Ok.machine (hok : Ok capacity s) (a : Machine.Arith) {rest : List α}
    (hw : s.writer = .writing rest) (hne : rest ≠ []) (hfull : full s.queue = false)
    (hbytes : 104 * (capacity + rest.length) < 4294967296) :
    Machine.writeChunk a (Machine.ofQueue s.queue) rest =
      some (Machine.ofQueue (writeChunk s.queue rest).1, (writeChunk s.queue rest).2) := by
  have hlen : s.queue.pendingSize = rest.length := by
    rw [hok.pending, hw]
    rfl
  have hpos : 0 < rest.length := List.length_pos_iff.mpr hne
  have hspace : s.queue.size < s.queue.capacity := by
    have hle := hok.wf.size_le
    have hroom : s.queue.size ≠ s.queue.capacity := fun he => by
      rw [(full_iff s.queue).mpr he] at hfull
      cases hfull
    omega
  rw [← hok.capacity] at hbytes
  obtain ⟨hfit, hsum⟩ := region_sums_fit hok.wf hbytes
  exact Machine.writeChunk_ofQueue a hok.wf rest hlen (by omega) hspace (by omega) hsum

section Waking

variable (b : Bool) (w : Writer α)

theorem wake_rest : (if b then w.wake else w).rest = w.rest := by
  cases b <;> cases w <;> rfl

theorem wake_staged : (if b then w.wake else w).staged = w.staged := by
  cases b <;> cases w <;> rfl

theorem wake_waiting {rest : List α} (h : (if b then w.wake else w) = .waiting rest) :
    b = false ∧ w = .waiting rest := by
  cases b <;> cases w <;> simp_all [Writer.wake]

theorem wake_woken {rest : List α} (h : (if b then w.wake else w) = .woken rest) :
    w = .waiting rest ∨ w = .woken rest := by
  cases b <;> cases w <;> simp_all [Writer.wake]

end Waking

theorem readerDequeue_ok (hok : Ok capacity s) : Ok capacity (readerDequeue s) := by
  refine ⟨?_, dequeue_wf hok.wf, ?_, ?_, ?_, ?_, ?_⟩
  · exact (dequeue_capacity s.queue).trans hok.capacity
  · exact (dequeue_pendingSize s.queue).trans (hok.pending.trans (congrArg List.length (wake_rest _ _).symm))
  · exact hok.submitted.trans (congrArg (fun l => s.copied ++ l) (wake_rest _ _).symm)
  · show s.copied = (s.taken ++ (SensorEventQueue.peek s.queue).toList) ++ readable (dequeue s.queue).1
    rw [hok.copied, dequeue_readable s.queue hok.wf, peek_eq_head s.queue hok.wf, List.append_assoc]
    cases readable s.queue <;> rfl
  · -- A sleeping writer has found the queue full, so this dequeue wakes it.
    intro rest hwaiting
    obtain ⟨hflag, hw⟩ := wake_waiting _ _ hwaiting
    obtain ⟨-, hfull⟩ := hok.asleep rest hw
    have hsize : s.queue.size ≠ 0 := by
      have hcap := hok.wf.start_lt
      have hsame := (full_iff s.queue).mp hfull
      omega
    rw [(dequeue_broadcast s.queue hsize).1, hfull] at hflag
    cases hflag
  · intro rest hwoken
    rcases wake_woken _ _ hwoken with hw | hw
    · exact (hok.asleep rest hw).1
    · exact hok.woken rest hw

theorem readerDequeue_fifo (hok : Ok capacity s) :
    (readerDequeue s).fifo = ⟨s.fifo.items.tail, s.fifo.staged⟩ := by
  unfold System.fifo
  congr 1
  · exact dequeue_readable s.queue hok.wf
  · exact wake_staged _ _

theorem fifo_staged {rest : List α} (h : s.writer.staged = some rest) :
    s.fifo = ⟨readable s.queue, some rest⟩ := congrArg (Fifo.mk _) h

theorem write_spec (hok : Ok capacity s) (events : List α)
    (hstep : step s (.write events) = some t) :
    Ok capacity t ∧ Fifo.Step capacity s.fifo (.write events) t.fifo := by
  unfold step at hstep
  cases hw : s.writer with
  | idle =>
    simp only [hw, Option.some.injEq] at hstep
    subst hstep
    have hsubmitted := hok.submitted
    rw [hw] at hsubmitted
    constructor
    · refine ⟨hok.capacity, beginWrite_wf hok.wf _, rfl, ?_, hok.copied, ?_, ?_⟩
      · show s.submitted ++ events = s.copied ++ events
        rw [hsubmitted]
        exact congrArg (fun l => l ++ events) (List.append_nil s.copied)
      · exact fun _ h => nomatch h
      · exact fun _ h => nomatch h
    · unfold System.fifo
      rw [hw]
      exact Fifo.Step.write _ events
  | writing | waiting | woken => simp [hw] at hstep

/-- `write()` returns when nothing is left. -/
theorem finish_spec (hok : Ok capacity s) {rest : List α} (hw : s.writer = .writing rest)
    (hpos : ¬ s.queue.pendingSize > 0) :
    Ok capacity { s with writer := .idle } ∧
      Fifo.Step capacity s.fifo .turn { s with writer := .idle }.fifo := by
  have hpending := hok.pending
  have hsubmitted := hok.submitted
  rw [hw] at hpending hsubmitted
  have hlen : s.queue.pendingSize = rest.length := hpending
  have hnil : rest = [] := List.length_eq_zero_iff.mp (by omega)
  subst hnil
  constructor
  · refine ⟨hok.capacity, hok.wf, hpending, hsubmitted, hok.copied, ?_, ?_⟩
    · exact fun _ h => nomatch h
    · exact fun _ h => nomatch h
  · have hstaged : s.writer.staged = some [] := by rw [hw]; rfl
    rw [fifo_staged hstaged]
    exact Fifo.Step.finish _

theorem turn_spec (hok : Ok capacity s) (hstep : step s .turn = some t) :
    Ok capacity t ∧ Fifo.Step capacity s.fifo .turn t.fifo := by
  unfold step at hstep
  cases hw : s.writer with
  | writing rest =>
    have hrest : s.writer.rest = rest := by rw [hw]; rfl
    have hstaged : s.writer.staged = some rest := by rw [hw]; rfl
    simp only [hw] at hstep
    by_cases hpos : s.queue.pendingSize > 0
    · rw [if_pos hpos, Option.some.injEq] at hstep
      subst hstep
      rw [hok.pending, hrest] at hpos
      rw [fifo_staged hstaged]
      exact writeTurn_spec hok hrest (List.ne_nil_of_length_pos hpos)
    · rw [if_neg hpos, Option.some.injEq] at hstep
      subst hstep
      exact finish_spec hok hw hpos
  | woken rest =>
    have hrest : s.writer.rest = rest := by rw [hw]; rfl
    have hstaged : s.writer.staged = some rest := by rw [hw]; rfl
    simp only [hw, Option.some.injEq] at hstep
    subst hstep
    rw [fifo_staged hstaged]
    exact writeTurn_spec hok hrest (hok.woken rest hw)
  | idle | waiting => simp [hw] at hstep

theorem wake_spec (hok : Ok capacity s) (hstep : step s .wake = some t) :
    Ok capacity t ∧ Fifo.Step capacity s.fifo .wake t.fifo := by
  unfold step at hstep
  cases hw : s.writer with
  | waiting rest =>
    simp only [hw, Option.some.injEq] at hstep
    subst hstep
    have hpending := hok.pending
    have hsubmitted := hok.submitted
    rw [hw] at hpending hsubmitted
    constructor
    · refine ⟨hok.capacity, hok.wf, hpending, hsubmitted, hok.copied, ?_, ?_⟩
      · exact fun _ h => nomatch h
      · rintro _ ⟨⟩
        exact (hok.asleep rest hw).1
    · unfold System.fifo
      rw [hw]
      exact Fifo.Step.wake _
  | idle | writing | woken => simp [hw] at hstep

/-- Every step keeps the invariant and is a step of the list. -/
theorem step_spec (hok : Ok capacity s) {a : Action α} (hstep : step s a = some t) :
    Ok capacity t ∧ Fifo.Step capacity s.fifo a t.fifo := by
  cases a with
  | write events => exact write_spec hok events hstep
  | turn => exact turn_spec hok hstep
  | wake => exact wake_spec hok hstep
  | peek =>
    obtain ⟨-, hsame⟩ := Option.ite_none_left_eq_some.mp hstep
    cases hsame
    exact ⟨hok, Fifo.Step.peek _⟩
  | dequeue =>
    obtain ⟨-, hdone⟩ := Option.ite_none_left_eq_some.mp hstep
    cases hdone
    rw [readerDequeue_fifo hok]
    exact ⟨readerDequeue_ok hok, Fifo.Step.dequeue _⟩

end Invariant

section Runs

variable {capacity : Nat} {s t : System α}

theorem run_spec (hok : Ok capacity s) {actions : List (Action α)}
    (hrun : Transition.run step s actions = some t) :
    Ok capacity t ∧ Fifo.Run capacity s.fifo actions t.fifo := by
  induction actions generalizing s with
  | nil =>
    cases hrun
    exact ⟨hok, Fifo.Run.nil _⟩
  | cons a actions ih =>
    obtain ⟨u, hstep, hrest⟩ := Option.bind_eq_some_iff.mp hrun
    obtain ⟨hu, hone⟩ := step_spec hok hstep
    obtain ⟨ht, hmore⟩ := ih hu hrest
    exact ⟨ht, Fifo.Run.cons hone hmore⟩

/-- Outside `write()` everything that was submitted has been copied. -/
theorem Ok.idle (hok : Ok capacity s) (hidle : s.writer = .idle) :
    s.queue.pendingSize = 0 ∧ s.copied = s.submitted := by
  have hpending := hok.pending
  have hsubmitted := hok.submitted
  rw [hidle] at hpending hsubmitted
  exact ⟨hpending, (hsubmitted.trans (List.append_nil s.copied)).symm⟩

theorem step_submitted {a : Action α} (ha : a.isWrite = false) (hstep : step s a = some t) :
    t.submitted = s.submitted := by
  have hturn (rest : List α) : (writeTurn s rest).submitted = s.submitted := by
    unfold writeTurn
    split <;> rfl
  unfold step at hstep
  cases a with
  | write events => cases ha
  | turn =>
    cases hw : s.writer with
    | writing rest =>
      simp only [hw] at hstep
      split at hstep
      · cases hstep
        exact hturn rest
      · cases hstep
        rfl
    | woken rest =>
      simp only [hw, Option.some.injEq] at hstep
      subst hstep
      exact hturn rest
    | idle | waiting => simp [hw] at hstep
  | wake =>
    cases hw : s.writer with
    | waiting rest =>
      simp only [hw, Option.some.injEq] at hstep
      subst hstep
      rfl
    | idle | writing | woken => simp [hw] at hstep
  | peek | dequeue =>
    dsimp only at hstep
    split at hstep
    · cases hstep
    · cases hstep
      rfl

theorem run_submitted {actions : List (Action α)} (hactions : ∀ a ∈ actions, a.isWrite = false)
    (hrun : Transition.run step s actions = some t) : t.submitted = s.submitted := by
  induction actions generalizing s with
  | nil =>
    cases hrun
    rfl
  | cons a actions ih =>
    obtain ⟨u, hstep, hrest⟩ := Option.bind_eq_some_iff.mp hrun
    have hone := step_submitted (hactions a List.mem_cons_self) hstep
    exact (ih (fun b hb => hactions b (List.mem_cons_of_mem a hb)) hrest).trans hone

/-- One call of `write()`: when the writer is outside again, just the events of the call have been
copied, each once and in their order. -/
theorem write_copies {capacity : Nat} {s₀ : System α} (hok : Ok capacity s₀) {events : List α}
    {during : List (Action α)} (hduring : ∀ a ∈ during, a.isWrite = false)
    (hrun : Transition.run step s₀ (.write events :: during) = some s) (hidle : s.writer = .idle) :
    s.copied = s₀.copied ++ events := by
  obtain ⟨s₁, hstep, hrest⟩ := Option.bind_eq_some_iff.mp hrun
  have hok₁ := (step_spec hok hstep).1
  have hsame := run_submitted hduring hrest
  rw [((run_spec hok₁ hrest).1.idle hidle).2, hsame]
  cases hw : s₀.writer with
  | idle =>
    simp only [step, hw, Option.some.injEq] at hstep
    rw [(hok.idle hw).2, ← hstep]
  | writing | waiting | woken => simp [step, hw] at hstep

/-- In every run of one writer and any readers, over a queue of any capacity, the queue is a
list. With an array and a batch that exist, each turn of the writer is the one in `int`. -/
theorem queue_refines_fifo (hcap : 1 ≤ capacity) (data : Nat → α) {actions : List (Action α)}
    (hrun : Transition.run step (System.new capacity data) actions = some s) :
    Fifo.Run capacity Fifo.empty actions s.fifo ∧
    (s.queue.capacity = capacity ∧ s.queue.start < capacity ∧ s.queue.size ≤ capacity) ∧
    (readable s.queue = s.copied.drop s.taken.length ∧ (readable s.queue).length = s.queue.size ∧
      s.taken <+: s.copied) ∧
    peek s.queue = (s.copied.drop s.taken.length).head? ∧
    getPendingSize s.queue = (readable s.queue).length + s.writer.rest.length ∧
    s.submitted = s.copied ++ s.writer.rest ∧
    (s.writer = .idle → s.queue.pendingSize = 0 ∧ s.copied = s.submitted) ∧
    (∀ before events during s₀, actions = before ++ .write events :: during →
      (∀ a ∈ during, a.isWrite = false) →
      Transition.run step (System.new capacity data) before = some s₀ → s.writer = .idle →
      s.copied = s₀.copied ++ events) ∧
    ∀ a rest, s.writer = .writing rest → rest ≠ [] → full s.queue = false →
      104 * (capacity + rest.length) < 4294967296 →
      Machine.writeChunk a (Machine.ofQueue s.queue) rest =
        some (Machine.ofQueue (writeChunk s.queue rest).1, (writeChunk s.queue rest).2) := by
  have hnew := System.new_ok hcap data
  obtain ⟨hok, hfifo⟩ := run_spec hnew hrun
  have hread : readable s.queue = s.copied.drop s.taken.length := by
    rw [hok.copied, List.drop_left]
  have hlt := hok.wf.start_lt
  have hle := hok.wf.size_le
  rw [hok.capacity] at hlt hle
  refine ⟨hfifo, ⟨hok.capacity, hlt, hle⟩, ⟨hread, readable_length _, ?_⟩, ?_, ?_, hok.submitted,
    hok.idle, ?_, fun a _ hw hne hfull hbytes => hok.machine a hw hne hfull hbytes⟩
  · exact ⟨_, hok.copied.symm⟩
  · rw [peek_eq_head s.queue hok.wf, hread]
  · rw [readable_length, ← hok.pending]
    rfl
  · intro before events during s₀ hactions hduring hbefore hidle
    rw [hactions, Transition.run_append, hbefore, Option.bind_some] at hrun
    exact write_copies (run_spec hnew hbefore).1 hduring hrun hidle

/-- Three slots. The first batch leaves the start at the last slot; the second one wraps, sleeps
twice, and is woken once for nothing. -/
def wrapActions : List (Action Nat) :=
  [.write [1, 2], .turn, .turn, .dequeue, .peek, .dequeue, .write [3, 4, 5, 6, 7, 8], .turn, .turn, .turn,
    .dequeue, .dequeue, .turn, .turn, .turn, .wake, .turn, .dequeue, .turn, .turn]

theorem wrap_refines_fifo : ∃ s : System Nat,
    Transition.run step (System.new 3 fun _ => 0) wrapActions = some s ∧
    s.taken = [1, 2, 3, 4, 5] ∧ readable s.queue = [6, 7, 8] ∧
    Fifo.Run 3 Fifo.empty wrapActions s.fifo ∧ s.copied = s.submitted := by
  have hvalues : (Transition.run step (System.new 3 fun _ => 0) wrapActions).map
      (fun s => (s.taken, readable s.queue, s.writer.staged)) =
      some ([1, 2, 3, 4, 5], [6, 7, 8], none) := by decide +kernel
  obtain ⟨s, hrun, hs⟩ := Option.map_eq_some_iff.mp hvalues
  simp only [Prod.mk.injEq] at hs
  obtain ⟨htaken, hread, hstaged⟩ := hs
  have hidle : s.writer = .idle := by
    cases hw : s.writer with
    | idle => rfl
    | writing | waiting | woken => simp [hw, Writer.staged] at hstaged
  obtain ⟨hfifo, -, -, -, -, -, hdone, -, -⟩ := queue_refines_fifo (by decide) (fun _ => 0) hrun
  exact ⟨s, hrun, htaken, hread, hfifo, (hdone hidle).2⟩

end Runs

end SensorEventQueue
