import Mathlib.Algebra.Order.BigOperators.Group.Finset
import Mocha.Rotation
import Mocha.SensorDelivery

/-!
# The rotation of the queues

Each turn of the inner loop of `poll` inspects one queue, and then the index goes
on to the next one, whether the queue was empty, its event dropped, or its event
delivered. The index is a field of the context and stays where it is between two
calls. What `poll` writes to the caller's array is recorded slot by slot.
-/
namespace Multihal

open SensorHandles
open SensorEventQueue (Queue readable)

section Turns

/-- A turn of the inner loop that gets to `queues.at(nextReadIndex)`. -/
def inspects (hal : Hal) (s : State) (l : PollLocals) : Bool :=
  decide (l.empties < hal.queueCount ∧ l.data.length < l.maxReads) &&
    decide ((emitInto s l).2.data.length ≠ l.maxReads)

/-- The queue that a step inspects. -/
def inspected (hal : Hal) (s : State) : Action → List Nat
  | .readerRun =>
    match s.reader with
    | .scan l => if inspects hal s l then [s.nextReadIndex] else []
    | _ => []
  | _ => []

/-- The queue that a step takes an event from. -/
def consumed (hal : Hal) (s : State) (a : Action) : List Nat :=
  (inspected hal s a).filter fun q => (SensorEventQueue.peek (s.queues q)).isSome

/-- One step of `poll` with the mutex held: the ready flushes go out, and then the buffer is full, or
one queue is inspected, or the inner loop is over. -/
inductive PollTurn (hal : Hal) (s : State) (l : PollLocals) : State → Prop where
  | full (hi : inspects hal s l = false) (hlt : l.data.length < l.maxReads)
      (hlen : (emitInto s l).2.data.length = l.maxReads) :
      PollTurn hal s l { (emitInto s l).1 with reader := .scan (emitInto s l).2 }
  | skip (hi : inspects hal s l = true)
      (he : SensorEventQueue.peek (s.queues s.nextReadIndex) = none) :
      PollTurn hal s l { advance hal (emitInto s l).1 with
        reader := .scan { (emitInto s l).2 with empties := l.empties + 1 } }
  | drop (e : Event) (hi : inspects hal s l = true)
      (he : SensorEventQueue.peek (s.queues s.nextReadIndex) = some e)
      (hd : (copyEventRemapHandle hal.tables e s.nextReadIndex).sensor = -1) :
      PollTurn hal s l { advance hal (consume (emitInto s l).1) with
        reader := .scan { (emitInto s l).2 with empties := 0 } }
  | deliver (e : Event) (hi : inspects hal s l = true)
      (he : SensorEventQueue.peek (s.queues s.nextReadIndex) = some e)
      (hd : (copyEventRemapHandle hal.tables e s.nextReadIndex).sensor ≠ -1) :
      PollTurn hal s l { advance hal (consume (disarmOneShot hal (emitInto s l).1
          (copyEventRemapHandle hal.tables e s.nextReadIndex))) with
        reader := .scan { (emitInto s l).2 with
          empties := 0
          data := (emitInto s l).2.data ++ [copyEventRemapHandle hal.tables e s.nextReadIndex] } }
  | park (hi : inspects hal s l = false) (hd : (emitInto s l).2.data = []) :
      PollTurn hal s l { (emitInto s l).1 with
        waitingForData := true, owner := none, reader := .parked l.maxReads false }
  | ret (hi : inspects hal s l = false) (hd : (emitInto s l).2.data ≠ []) :
      PollTurn hal s l { (emitInto s l).1 with
        owner := none, reader := .idle, returned := s.returned ++ (emitInto s l).2.data }

theorem pollStep_turn (hal : Hal) (s : State) (l : PollLocals) :
    PollTurn hal s l (pollStep hal s l) := by
  unfold pollStep
  by_cases hguard : l.empties < hal.queueCount ∧ l.data.length < l.maxReads
  · rw [if_pos hguard]
    unfold pollTurn
    dsimp only
    by_cases hlen : (emitInto s l).2.data.length = l.maxReads
    · rw [if_pos hlen]
      exact .full (by simp [inspects, hlen]) hguard.2 hlen
    · rw [if_neg hlen]
      have hi : inspects hal s l = true := by simp [inspects, hguard, hlen]
      unfold readQueue
      split
      · rename_i he
        exact .skip hi he
      · rename_i e he
        dsimp only
        split
        · rename_i hd
          exact .drop e hi he hd
        · rename_i hd
          exact .deliver e hi he hd
  · rw [if_neg hguard]
    have hi : inspects hal s l = false := by simp [inspects, hguard]
    unfold pollTail
    dsimp only
    split
    · rename_i h0
      exact .park hi (List.eq_nil_of_length_eq_zero h0)
    · rename_i h0
      exact .ret hi fun he => h0 (by rw [he]; rfl)

theorem disarmOneShot_index (hal : Hal) (s : State) (e : Event) :
    (disarmOneShot hal s e).nextReadIndex = s.nextReadIndex := by
  obtain ⟨active, ha⟩ := disarmOneShot_frame hal s e
  rw [ha]

theorem consume_index (s : State) : (consume s).nextReadIndex = s.nextReadIndex := by
  simp only [consume]
  split <;> rfl

theorem PollTurn.index {hal : Hal} {s t : State} {l : PollLocals} (h : PollTurn hal s l t) :
    t.nextReadIndex =
      if inspects hal s l then (s.nextReadIndex + 1) % hal.queueCount else s.nextReadIndex := by
  cases h with
  | full hi => rw [hi]; rfl
  | skip hi => rw [hi]; rfl
  | drop e hi =>
    rw [hi, if_pos rfl]
    simp only [advance, consume_index]
    rfl
  | deliver e hi =>
    rw [hi, if_pos rfl]
    simp only [advance, consume_index, disarmOneShot_index]
    rfl
  | park hi => rw [hi]; rfl
  | ret hi => rw [hi]; rfl

end Turns

section Aside

/-- The buffer size of the call that is under way. -/
def Reader.limit : Reader → Nat
  | .idle => 0
  | .enter n => n
  | .scan l => l.maxReads
  | .parked n _ => n

/-- What the steps of the other threads leave alone. -/
structure Aside (s t : State) : Prop where
  index : t.nextReadIndex = s.nextReadIndex
  returned : t.returned = s.returned
  consumedEvents : t.consumedEvents = s.consumedEvents
  reader : s.reader ≠ .idle →
    t.reader ≠ .idle ∧ t.reader.limit = s.reader.limit ∧ t.reader.data = s.reader.data

theorem Aside.same {s t : State} (hi : t.nextReadIndex = s.nextReadIndex)
    (hd : t.returned = s.returned) (hc : t.consumedEvents = s.consumedEvents)
    (hr : t.reader = s.reader) : Aside s t :=
  ⟨hi, hd, hc, fun hne => by rw [hr]; exact ⟨hne, rfl, rfl⟩⟩

theorem Aside.wake {s t : State} (hi : t.nextReadIndex = s.nextReadIndex)
    (hd : t.returned = s.returned) (hc : t.consumedEvents = s.consumedEvents)
    (hr : t.reader = s.reader.wake) : Aside s t := by
  refine ⟨hi, hd, hc, fun hne => ?_⟩
  rw [hr]
  cases hs : s.reader with
  | idle => exact absurd hs hne
  | _ => exact ⟨by simp [Reader.wake], rfl, rfl⟩

theorem writerHead_aside (s : State) (m : Nat) : Aside s (writerHead s m) := by
  unfold writerHead
  split
  · exact .same rfl rfl rfl rfl
  · exact .same rfl rfl rfl rfl

theorem writerLock_aside {s t : State} {m : Nat} (h : writerLock s m = some t) : Aside s t := by
  unfold writerLock at h
  split at h <;> cases h
  · exact writerHead_aside s m
  · exact writerHead_aside s m
  · exact .same rfl rfl rfl rfl
  · exact .same rfl rfl rfl rfl

theorem writeStep_aside (s : State) (m : Nat) (rest : List Event) : Aside s (writeStep s m rest) := by
  unfold writeStep
  split
  · split
    · exact .same rfl rfl rfl rfl
    · exact .wake rfl rfl rfl rfl
  · exact .same rfl rfl rfl rfl

theorem flush_aside (hal : Hal) (s : State) (handle : Int) : Aside s (flush hal s handle).2 := by
  unfold flush
  dsimp only
  split
  · exact .same rfl rfl rfl rfl
  · split
    · exact .same rfl rfl rfl rfl
    · split
      · exact .same rfl rfl rfl rfl
      · exact .wake rfl rfl rfl rfl

theorem activate_aside (hal : Hal) (s : State) (handle enabled r : Int) :
    Aside s (activate hal s handle enabled r).2 := by
  unfold activate
  dsimp only
  split
  · split
    · exact .same rfl rfl rfl rfl
    · exact .same rfl rfl rfl rfl
  · exact .same rfl rfl rfl rfl

/-- A step is a turn of `poll`, or it leaves the call and the index alone. -/
theorem step_cases {hal : Hal} {s t : State} {a : Action} (h : step hal s a = some t) :
    (a ≠ .readerRun ∧ Aside s t) ∨
    ∃ l, a = .readerRun ∧ s.reader = .scan l ∧ PollTurn hal s l t := by
  cases a with
  | writerLock m =>
    obtain ⟨-, h⟩ := Option.ite_none_right_eq_some.mp h
    exact .inl ⟨by simp, writerLock_aside h⟩
  | writerPolled m r =>
    obtain ⟨-, h⟩ := Option.ite_none_right_eq_some.mp h
    cases h
    refine .inl ⟨by simp, ?_⟩
    unfold writerPolled
    dsimp only
    split
    · exact .same rfl rfl rfl rfl
    · exact .same rfl rfl rfl rfl
  | writerRun m =>
    simp only [step] at h
    split at h
    · obtain ⟨-, h⟩ := Option.ite_none_right_eq_some.mp h
      cases h
      exact .inl ⟨by simp, writeStep_aside s m _⟩
    · cases h
  | pollCall data n =>
    obtain ⟨hr, h⟩ := Option.ite_none_right_eq_some.mp h
    cases h
    refine .inl ⟨by simp, ?_⟩
    unfold pollCall
    split
    · exact .same rfl rfl rfl rfl
    · exact ⟨rfl, rfl, rfl, fun hne => absurd hr hne⟩
  | readerLock =>
    obtain ⟨-, h⟩ := Option.ite_none_right_eq_some.mp h
    refine .inl ⟨by simp, ?_⟩
    split at h
    · rename_i n hr
      cases h
      refine ⟨rfl, rfl, rfl, fun _ => ?_⟩
      rw [hr]
      exact ⟨by simp, rfl, rfl⟩
    · rename_i n woken hr
      cases h
      refine ⟨rfl, rfl, rfl, fun _ => ?_⟩
      rw [hr]
      exact ⟨by simp, rfl, rfl⟩
    · cases h
  | readerRun =>
    simp only [step] at h
    split at h
    · rename_i l hr
      obtain ⟨-, h⟩ := Option.ite_none_right_eq_some.mp h
      cases h
      exact .inr ⟨l, rfl, hr, pollStep_turn hal s l⟩
    · cases h
  | flush handle =>
    obtain ⟨-, h⟩ := Option.ite_none_right_eq_some.mp h
    cases h
    exact .inl ⟨by simp, flush_aside hal s handle⟩
  | activate handle enabled r =>
    obtain ⟨-, h⟩ := Option.ite_none_right_eq_some.mp h
    cases h
    exact .inl ⟨by simp, activate_aside hal s handle enabled r⟩

end Aside

section Rotating

theorem inspected_aside {hal : Hal} {s : State} {a : Action} (h : a ≠ .readerRun) :
    inspected hal s a = [] := by
  cases a with
  | readerRun => exact absurd rfl h
  | _ => rfl

theorem inspected_turn {hal : Hal} {s : State} {l : PollLocals} (h : s.reader = .scan l) :
    inspected hal s .readerRun = if inspects hal s l then [s.nextReadIndex] else [] := by
  simp only [inspected, h]

/-- The index goes on exactly when a queue is inspected. -/
theorem step_index {hal : Hal} {s t : State} {a : Action} (hok : Ok hal s)
    (h : step hal s a = some t) :
    (inspected hal s a = [] ∧ t.nextReadIndex = s.nextReadIndex) ∨
    (inspected hal s a = [s.nextReadIndex] ∧ s.nextReadIndex < hal.queueCount ∧
      t.nextReadIndex = (s.nextReadIndex + 1) % hal.queueCount) := by
  rcases step_cases h with ⟨ha, haside⟩ | ⟨l, rfl, hr, hturn⟩
  · exact .inl ⟨inspected_aside ha, haside.index⟩
  · have hindex := hturn.index
    rw [inspected_turn hr]
    by_cases hi : inspects hal s l = true
    · rw [if_pos hi] at hindex ⊢
      have hpos : 0 < hal.queueCount := by
        have hguard := of_decide_eq_true (Bool.and_eq_true_iff.mp hi).1
        omega
      exact .inr ⟨rfl, hok.index hpos, hindex⟩
    · rw [if_neg hi] at hindex ⊢
      exact .inl ⟨rfl, hindex⟩

/-- The inspections of a run are turns of the rotation, from where the index is. -/
theorem run_turns {hal : Hal} {s t : State} (hs : Reachable hal s) {as : List Action}
    (hrun : Transition.run (step hal) s as = some t) : ∃ k,
      Transition.trace (step hal) (inspected hal) s as =
        Rotation.turns hal.queueCount s.nextReadIndex k := by
  induction as generalizing s with
  | nil => exact ⟨0, rfl⟩
  | cons a as ih =>
    obtain ⟨u, hu, hrest⟩ := Option.bind_eq_some_iff.mp hrun
    obtain ⟨k, hk⟩ := ih (hs.next hu) hrest
    rw [Transition.trace_cons hu, hk]
    rcases step_index hs.ok hu with ⟨hi, hindex⟩ | ⟨hi, hlt, hindex⟩
    · rw [hi, hindex]
      exact ⟨k, rfl⟩
    · refine ⟨k + 1, ?_⟩
      rw [hi, hindex, Rotation.turns_succ, Nat.mod_eq_of_lt hlt]
      rfl

/-- A queue that is not empty and is not consumed has not been inspected. -/
theorem run_uninspected {hal : Hal} {s t : State} {as : List Action} {q : Nat}
    (hrun : Transition.run (step hal) s as = some t)
    (hfull : Transition.Along (step hal) (fun s _ _ => (s.queues q).size ≠ 0) s as)
    (hnot : q ∉ Transition.trace (step hal) (consumed hal) s as) :
    q ∉ Transition.trace (step hal) (inspected hal) s as := by
  induction as generalizing s with
  | nil => exact hnot
  | cons a as ih =>
    obtain ⟨u, hu, hrest⟩ := Option.bind_eq_some_iff.mp hrun
    obtain ⟨hsize, halong⟩ := hfull u hu
    rw [Transition.trace_cons hu, List.mem_append, not_or] at hnot ⊢
    refine ⟨fun hin => hnot.1 ?_, ih hrest halong hnot.2⟩
    refine List.mem_filter.mpr ⟨hin, ?_⟩
    rw [Option.isSome_iff_ne_none, Ne, SensorEventQueue.peek_none_iff]
    exact hsize

/-- What is consumed is what the counters of the context count. -/
theorem step_consumedEvents {hal : Hal} {s t : State} {a : Action} (h : step hal s a = some t)
    (q : Nat) :
    t.consumedEvents q = s.consumedEvents q + UInt64.ofNat ((consumed hal s a).count q) := by
  have hnone : s.consumedEvents q = s.consumedEvents q + UInt64.ofNat 0 := by simp
  have hbump (u : State) (hi : u.nextReadIndex = s.nextReadIndex)
      (hc : u.consumedEvents = s.consumedEvents) : (consume u).consumedEvents q =
        s.consumedEvents q + UInt64.ofNat ([s.nextReadIndex].count q) := by
    rw [consume_consumedEvents, hi, hc]
    by_cases hq : q = s.nextReadIndex
    · subst hq
      simp
    · simp [Function.update_of_ne hq, Ne.symm hq]
  rcases step_cases h with ⟨ha, haside⟩ | ⟨l, rfl, hr, hturn⟩
  · rw [consumed, inspected_aside ha, haside.consumedEvents]
    exact hnone
  · rw [consumed, inspected_turn hr]
    cases hturn with
    | full hi =>
      rw [hi]
      exact hnone
    | skip hi he =>
      rw [hi, if_pos rfl, List.filter_cons_of_neg (by simp [he])]
      exact hnone
    | drop e hi he =>
      rw [hi, if_pos rfl, List.filter_cons_of_pos (by simp [he])]
      exact hbump _ rfl rfl
    | deliver e hi he =>
      rw [hi, if_pos rfl, List.filter_cons_of_pos (by simp [he])]
      obtain ⟨active, ha⟩ := disarmOneShot_frame hal (emitInto s l).1
        (copyEventRemapHandle hal.tables e s.nextReadIndex)
      refine hbump _ ?_ ?_
      · rw [ha]
        rfl
      · rw [ha]
        rfl
    | park hi =>
      rw [hi]
      exact hnone
    | ret hi =>
      rw [hi]
      exact hnone

theorem run_consumedEvents {hal : Hal} {s t : State} {as : List Action}
    (hrun : Transition.run (step hal) s as = some t) (q : Nat) : t.consumedEvents q =
      s.consumedEvents q +
        UInt64.ofNat ((Transition.trace (step hal) (consumed hal) s as).count q) := by
  induction as generalizing s with
  | nil =>
    cases hrun
    simp [Transition.trace]
  | cons a as ih =>
    obtain ⟨u, hu, hrest⟩ := Option.bind_eq_some_iff.mp hrun
    rw [ih hrest, step_consumedEvents hu q, Transition.trace_cons hu, List.count_append,
      UInt64.ofNat_add, UInt64.add_assoc]

theorem consumed_sublist (hal : Hal) (s : State) (as : List Action) :
    (Transition.trace (step hal) (consumed hal) s as).Sublist
      (Transition.trace (step hal) (inspected hal) s as) := by
  induction as generalizing s with
  | nil => exact List.Sublist.refl _
  | cons a as ih =>
    cases hu : step hal s a with
    | none =>
      rw [Transition.trace, Transition.trace, hu]
      exact List.Sublist.refl _
    | some u =>
      rw [Transition.trace_cons hu, Transition.trace_cons hu]
      exact List.Sublist.append (List.filter_sublist) (ih u)

theorem writeStep_added {hal : Hal} {s : State} {m : Nat} {rest : List Event} (hok : Ok hal s)
    (hw : s.writers m = .writing rest) (q : Nat) :
    ∃ added, readable ((writeStep s m rest).queues q) = readable (s.queues q) ++ added := by
  have hsame : readable (s.queues q) = readable (s.queues q) ++ [] := (List.append_nil _).symm
  unfold writeStep
  split
  · rename_i hp
    split
    · exact ⟨[], hsame⟩
    · rename_i hf
      by_cases hq : q = m
      · subst hq
        obtain ⟨hwf, -, hpend⟩ := hok.queue q
        rw [hw] at hpend
        have hle := hwf.size_le
        have hne : (s.queues q).size ≠ (s.queues q).capacity := fun he =>
          hf ((SensorEventQueue.full_iff _).mpr he)
        obtain ⟨k, -, -, -, hread, -⟩ :=
          SensorEventQueue.writeChunk_spec _ hwf rest hpend hp (by omega)
        exact ⟨rest.take k, by simpa [broadcastData, setWriter, setQueue] using hread⟩
      · exact ⟨[], by simp [broadcastData, setWriter, setQueue, hq]⟩
  · exact ⟨[], hsame⟩

/-- Outside its own steps `poll` keeps the events of a queue; the writers put theirs behind. -/
theorem step_added {hal : Hal} {s t : State} {a : Action} (hok : Ok hal s) (ha : a ≠ .readerRun)
    (h : step hal s a = some t) (q : Nat) :
    ∃ added, readable (t.queues q) = readable (s.queues q) ++ added := by
  have hsame : t.queues = s.queues →
      ∃ added, readable (t.queues q) = readable (s.queues q) ++ added := fun hq =>
    ⟨[], by rw [hq, List.append_nil]⟩
  cases a with
  | writerLock m =>
    obtain ⟨-, h⟩ := Option.ite_none_right_eq_some.mp h
    unfold writerLock at h
    split at h <;> cases h
    · exact hsame (by unfold writerHead; split <;> rfl)
    · exact hsame (by unfold writerHead; split <;> rfl)
    · rename_i batch hw
      refine ⟨[], ?_⟩
      rw [List.append_nil]
      by_cases hq : q = m
      · subst hq
        simp [setWriter, setQueue]
      · simp [setWriter, setQueue, hq]
    · exact hsame rfl
  | writerPolled m r =>
    obtain ⟨-, h⟩ := Option.ite_none_right_eq_some.mp h
    cases h
    refine hsame ?_
    unfold writerPolled
    dsimp only
    split <;> rfl
  | writerRun m =>
    simp only [step] at h
    split at h
    · rename_i rest hw
      obtain ⟨-, h⟩ := Option.ite_none_right_eq_some.mp h
      cases h
      exact writeStep_added hok hw q
    · cases h
  | pollCall data n =>
    obtain ⟨-, h⟩ := Option.ite_none_right_eq_some.mp h
    cases h
    refine hsame ?_
    unfold pollCall
    split <;> rfl
  | readerLock =>
    obtain ⟨-, h⟩ := Option.ite_none_right_eq_some.mp h
    split at h <;> cases h
    · exact hsame rfl
    · exact hsame rfl
  | readerRun => exact absurd rfl ha
  | flush handle =>
    obtain ⟨-, h⟩ := Option.ite_none_right_eq_some.mp h
    cases h
    refine hsame ?_
    unfold flush
    dsimp only
    split
    · rfl
    · split
      · rfl
      · split <;> rfl
  | activate handle enabled r =>
    obtain ⟨-, h⟩ := Option.ite_none_right_eq_some.mp h
    cases h
    refine hsame ?_
    unfold activate
    dsimp only
    split
    · split <;> rfl
    · rfl

/-- A turn of `poll` takes the oldest event of the queue that it consumes, and no other event. -/
theorem PollTurn.removes {hal : Hal} {s t : State} {l : PollLocals} (hok : Ok hal s)
    (hr : s.reader = .scan l) (h : PollTurn hal s l t) (q : Nat) :
    ∃ removed, readable (s.queues q) = removed ++ readable (t.queues q) ∧
      removed.length = (consumed hal s .readerRun).count q := by
  have hstays {u : State} (hq : u.queues = s.queues) (hnone : consumed hal s .readerRun = []) :
      ∃ removed, readable (s.queues q) = removed ++ readable (u.queues q) ∧
        removed.length = (consumed hal s .readerRun).count q :=
    ⟨[], by rw [hq]; rfl, by rw [hnone]; rfl⟩
  have htakes {u v : State} {e : Event} (hi : inspects hal s l = true)
      (he : SensorEventQueue.peek (s.queues s.nextReadIndex) = some e)
      (hindex : v.nextReadIndex = s.nextReadIndex) (hv : v.queues = s.queues)
      (hu : u.queues = (consume v).queues) :
      ∃ removed, readable (s.queues q) = removed ++ readable (u.queues q) ∧
        removed.length = (consumed hal s .readerRun).count q := by
    have hone : consumed hal s .readerRun = [s.nextReadIndex] := by
      rw [consumed, inspected_turn hr, if_pos hi, List.filter_cons_of_pos (by simp [he])]
      rfl
    rw [hone, hu]
    by_cases hq : q = s.nextReadIndex
    · subst hq
      refine ⟨[e], ?_, by simp⟩
      rw [← hv] at he ⊢
      rw [← hindex] at he ⊢
      exact consume_readable (by rw [hv]; exact (hok.queue v.nextReadIndex).wf) e he
    · refine ⟨[], ?_, by simp [Ne.symm hq]⟩
      rw [consume_queues, hindex, Function.update_of_ne hq, hv]
      rfl
  have hidle (hi : inspects hal s l = false) : consumed hal s .readerRun = [] := by
    rw [consumed, inspected_turn hr, hi]
    rfl
  cases h with
  | full hi => exact hstays rfl (hidle hi)
  | skip hi he =>
    refine hstays rfl ?_
    rw [consumed, inspected_turn hr, if_pos hi, List.filter_cons_of_neg (by simp [he])]
    rfl
  | drop e hi he => exact htakes (v := (emitInto s l).1) hi he rfl rfl rfl
  | deliver e hi he =>
    obtain ⟨active, ha⟩ := disarmOneShot_frame hal (emitInto s l).1
      (copyEventRemapHandle hal.tables e s.nextReadIndex)
    exact htakes (v := disarmOneShot hal (emitInto s l).1
      (copyEventRemapHandle hal.tables e s.nextReadIndex)) hi he (by rw [ha]; rfl) (by rw [ha]; rfl) rfl
  | park hi => exact hstays rfl (hidle hi)
  | ret hi => exact hstays rfl (hidle hi)

/-- Over a run the consumed events of a queue are those that left its front. -/
theorem run_removes {hal : Hal} {s t : State} {as : List Action} (hs : Reachable hal s)
    (hrun : Transition.run (step hal) s as = some t) (q : Nat) :
    ∃ added removed, readable (s.queues q) ++ added = removed ++ readable (t.queues q) ∧
      removed.length = (Transition.trace (step hal) (consumed hal) s as).count q := by
  induction as generalizing s with
  | nil =>
    cases hrun
    exact ⟨[], [], List.append_nil _, rfl⟩
  | cons a as ih =>
    obtain ⟨u, hu, hrest⟩ := Option.bind_eq_some_iff.mp hrun
    obtain ⟨added, removed, hlater, hcount⟩ := ih (hs.next hu) hrest
    rw [Transition.trace_cons hu, List.count_append]
    rcases step_cases hu with ⟨ha, -⟩ | ⟨l, rfl, hr, hturn⟩
    · obtain ⟨new, hnew⟩ := step_added hs.ok ha hu q
      refine ⟨new ++ added, removed, ?_, ?_⟩
      · rw [← List.append_assoc, ← hnew, hlater]
      · rw [hcount, consumed, inspected_aside ha]
        simp
    · obtain ⟨taken, htaken, hone⟩ := hturn.removes hs.ok hr q
      refine ⟨added, taken ++ removed, ?_, ?_⟩
      · rw [htaken, List.append_assoc, hlater, List.append_assoc]
      · rw [List.length_append, hone, hcount]

end Rotating

section Output

/-- Records that are written to consecutive slots. -/
def written : Nat → List Event → List (Nat × Event)
  | _, [] => []
  | first, e :: es => (first, e) :: written (first + 1) es

/-- What a step writes to the array of the caller: the completions that are emitted, then the event
that is read, which keeps its slot only if its handle is known. -/
def slotWrites (hal : Hal) (s : State) : Action → List (Nat × Event)
  | .readerRun =>
    match s.reader with
    | .scan l =>
      written l.data.length
        (emitReadyFlushes s.consumedEvents s.pendingFlushes (l.maxReads - l.data.length)).1 ++
      if inspects hal s l then
        (SensorEventQueue.peek (s.queues s.nextReadIndex)).toList.map fun e =>
          ((emitInto s l).2.data.length, copyEventRemapHandle hal.tables e s.nextReadIndex)
      else []
    | _ => []
  | _ => []

/-- The array after some writes, where it was written. -/
def output (writes : List (Nat × Event)) : Nat → Option Event :=
  writes.foldl (fun slots w => Function.update slots w.1 (some w.2)) fun _ => none

/-- The writes of a call of size `n` are in bounds, leave the records in their slots, and touch
other slots only for events that are dropped. -/
structure Filled (n : Nat) (writes : List (Nat × Event)) (records : List Event) : Prop where
  length : records.length ≤ n
  bounds : ∀ w ∈ writes, w.1 < n
  kept : ∀ w ∈ writes, w.1 < records.length ∨ w.2.sensor = -1
  slots : ∀ i < records.length, output writes i = records[i]?

theorem Filled.start (n : Nat) : Filled n [] [] := ⟨Nat.zero_le n, by simp, by simp, by simp⟩

theorem output_snoc (writes : List (Nat × Event)) (w : Nat × Event) :
    output (writes ++ [w]) = Function.update (output writes) w.1 (some w.2) := by
  simp [output]

theorem Filled.push {n : Nat} {writes : List (Nat × Event)} {records : List Event}
    (h : Filled n writes records) (hlt : records.length < n) (e : Event) :
    Filled n (writes ++ [(records.length, e)]) (records ++ [e]) := by
  have hlen : (records ++ [e]).length = records.length + 1 := by simp
  refine ⟨by omega, ?_, ?_, ?_⟩
  · intro w hw
    rcases List.mem_append.mp hw with hw | hw
    · exact h.bounds w hw
    · rw [List.mem_singleton.mp hw]
      exact hlt
  · intro w hw
    rcases List.mem_append.mp hw with hw | hw
    · exact (h.kept w hw).imp_left fun hl => by omega
    · rw [List.mem_singleton.mp hw]
      exact .inl (by omega)
  · intro i hi
    rw [output_snoc]
    by_cases hlast : i = records.length
    · subst hlast
      simp
    · rw [Function.update_of_ne hlast, h.slots i (by omega),
        List.getElem?_append_left (by omega)]

theorem Filled.pushes {n : Nat} {writes : List (Nat × Event)} {records : List Event}
    (h : Filled n writes records) (es : List Event) (hle : records.length + es.length ≤ n) :
    Filled n (writes ++ written records.length es) (records ++ es) := by
  induction es generalizing writes records with
  | nil => simpa [written] using h
  | cons e es ih =>
    rw [List.length_cons] at hle
    have hrest := ih (h.push (by omega) e) (by rw [List.length_append, List.length_singleton]; omega)
    rw [List.length_append, List.length_singleton, List.append_assoc, List.append_assoc] at hrest
    exact hrest

/-- A dropped event leaves its slot to whatever is read next. -/
theorem Filled.drop {n : Nat} {writes : List (Nat × Event)} {records : List Event}
    (h : Filled n writes records) (hlt : records.length < n) {e : Event} (he : e.sensor = -1) :
    Filled n (writes ++ [(records.length, e)]) records := by
  refine ⟨h.length, ?_, ?_, ?_⟩
  · intro w hw
    rcases List.mem_append.mp hw with hw | hw
    · exact h.bounds w hw
    · rw [List.mem_singleton.mp hw]
      exact hlt
  · intro w hw
    rcases List.mem_append.mp hw with hw | hw
    · exact h.kept w hw
    · rw [List.mem_singleton.mp hw]
      exact .inr he
  · intro i hi
    rw [output_snoc, Function.update_of_ne (by simp only; omega)]
    exact h.slots i hi

/-- The ready flushes fill the next slots. -/
theorem Filled.emit {s : State} {l : PollLocals} {writes : List (Nat × Event)}
    (h : Filled l.maxReads writes l.data) : Filled l.maxReads
      (writes ++ written l.data.length
        (emitReadyFlushes s.consumedEvents s.pendingFlushes (l.maxReads - l.data.length)).1)
      (emitInto s l).2.data := by
  have hle := emitInto_length s l h.length
  simp only [emitInto, List.length_append] at hle ⊢
  exact h.pushes _ hle

theorem slotWrites_aside {hal : Hal} {s : State} {a : Action} (h : a ≠ .readerRun) :
    slotWrites hal s a = [] := by
  cases a with
  | readerRun => exact absurd rfl h
  | _ => rfl

/-- A turn keeps the records in their slots, and a call that returns hands out at least one. -/
theorem PollTurn.filled {hal : Hal} {s t : State} {l : PollLocals} (hturn : PollTurn hal s l t)
    (hr : s.reader = .scan l) {writes : List (Nat × Event)}
    (h : Filled l.maxReads writes l.data) :
    (t.reader ≠ .idle ∧ t.returned = s.returned ∧ t.reader.limit = l.maxReads ∧
      Filled l.maxReads (writes ++ slotWrites hal s .readerRun) t.reader.data) ∨
    (t.reader = .idle ∧ ∃ records, t.returned = s.returned ++ records ∧ records ≠ [] ∧
      Filled l.maxReads (writes ++ slotWrites hal s .readerRun) records) := by
  have hemit := h.emit (s := s)
  have hroom (hi : inspects hal s l = true) : (emitInto s l).2.data.length < l.maxReads := by
    have hne := of_decide_eq_true (Bool.and_eq_true_iff.mp hi).2
    have hle := emitInto_length s l h.length
    omega
  simp only [slotWrites, hr]
  rw [← List.append_assoc]
  cases hturn with
  | full hi hlt hlen =>
    rw [hi, if_neg (by decide), List.append_nil]
    exact .inl ⟨by simp, rfl, rfl, hemit⟩
  | skip hi he =>
    rw [hi, if_pos rfl, he]
    simp only [Option.toList_none, List.map_nil, List.append_nil]
    exact .inl ⟨by simp, rfl, rfl, hemit⟩
  | drop e hi he hd =>
    rw [hi, if_pos rfl, he]
    refine .inl ⟨by simp, ?_, rfl, hemit.drop (hroom hi) hd⟩
    simp only [advance, consume_returned]
    rfl
  | deliver e hi he hd =>
    rw [hi, if_pos rfl, he]
    refine .inl ⟨by simp, ?_, rfl, hemit.push (hroom hi) _⟩
    obtain ⟨active, ha⟩ := disarmOneShot_frame hal (emitInto s l).1
      (copyEventRemapHandle hal.tables e s.nextReadIndex)
    simp only [advance, ha, consume_returned]
    rfl
  | park hi hd =>
    rw [hi, if_neg (by decide), List.append_nil]
    rw [hd] at hemit
    exact .inl ⟨by simp, rfl, rfl, hemit⟩
  | ret hi hd =>
    rw [hi, if_neg (by decide), List.append_nil]
    exact .inr ⟨rfl, _, rfl, hd, hemit⟩

/-- The same for a whole call, from where it stands to its return. -/
theorem run_filled {hal : Hal} {s t : State} {as : List Action} {writes : List (Nat × Event)}
    (hrun : Transition.run (step hal) s as = some t)
    (hcall : Transition.Along (step hal) (fun s _ _ => s.reader ≠ .idle) s as)
    (hs : s.reader ≠ .idle) (ht : t.reader = .idle)
    (h : Filled s.reader.limit writes s.reader.data) :
    ∃ records, t.returned = s.returned ++ records ∧ records ≠ [] ∧ Filled s.reader.limit
      (writes ++ Transition.trace (step hal) (slotWrites hal) s as) records := by
  induction as generalizing s writes with
  | nil =>
    cases hrun
    exact absurd ht hs
  | cons a as ih =>
    obtain ⟨u, hu, hrest⟩ := Option.bind_eq_some_iff.mp hrun
    obtain ⟨-, halong⟩ := hcall u hu
    rw [Transition.trace_cons hu, ← List.append_assoc]
    rcases step_cases hu with ⟨ha, haside⟩ | ⟨l, rfl, hr, hturn⟩
    · obtain ⟨hne, hlimit, hdata⟩ := haside.reader hs
      rw [slotWrites_aside ha, List.append_nil, ← hlimit, ← haside.returned]
      refine ih hrest halong hne ?_
      rw [hlimit, hdata]
      exact h
    · rw [hr] at h ⊢
      rcases hturn.filled hr h with ⟨hne, hreturned, hlimit, hfilled⟩ | ⟨hidle, hrecords⟩
      · rw [← hreturned]
        have hnext := ih hrest halong hne (by rw [hlimit]; exact hfilled)
        rw [hlimit] at hnext
        exact hnext
      · cases as with
        | nil =>
          cases hrest
          obtain ⟨records, hreturned, hne, hfilled⟩ := hrecords
          exact ⟨records, hreturned, hne, by simpa [Transition.trace, Reader.limit] using hfilled⟩
        | cons b as =>
          obtain ⟨v, hv, -⟩ := Option.bind_eq_some_iff.mp hrest
          exact absurd hidle (halong v hv).1

end Output

section Progress

/-- The events in the queues that `poll` serves. -/
def load (hal : Hal) (s : State) : Nat :=
  (Finset.range hal.queueCount).sum fun q => (s.queues q).size

/-- What is left to do before the call returns or waits. -/
def left (hal : Hal) (s : State) (l : PollLocals) : Nat :=
  load hal s * (hal.queueCount + 1) + (hal.queueCount - l.empties) + (l.maxReads - l.data.length)

/-- A queue in the circle loses an event. -/
theorem load_consume {hal : Hal} {s u t : State} (hlt : s.nextReadIndex < hal.queueCount)
    (hne : (s.queues s.nextReadIndex).size ≠ 0) (hi : u.nextReadIndex = s.nextReadIndex)
    (hq : u.queues = s.queues) (ht : t.queues = (consume u).queues) : load hal t < load hal s := by
  have hsize := (SensorEventQueue.dequeue_broadcast _ hne).2
  unfold load
  rw [ht, consume_queues, hi, hq]
  apply Finset.sum_lt_sum
  · intro q _
    by_cases he : q = s.nextReadIndex
    · subst he
      rw [Function.update_self, hsize]
      omega
    · rw [Function.update_of_ne he]
  · refine ⟨s.nextReadIndex, Finset.mem_range.mpr hlt, ?_⟩
    rw [Function.update_self, hsize]
    omega

theorem left_consume {hal : Hal} {s t : State} {l k : PollLocals} (h : load hal t < load hal s)
    (hk : k.empties = 0) (hm : k.maxReads = l.maxReads) (hd : l.data.length ≤ k.data.length) :
    left hal t k < left hal s l := by
  have hmul := Nat.mul_le_mul_right (hal.queueCount + 1) (Nat.succ_le_of_lt h)
  rw [Nat.succ_mul] at hmul
  unfold left
  rw [hk, hm]
  omega

theorem emitInto_grows (s : State) (l : PollLocals) :
    l.data.length ≤ (emitInto s l).2.data.length := by
  simp only [emitInto, List.length_append]
  omega

theorem PollTurn.progress {hal : Hal} {s t : State} {l : PollLocals} (h : PollTurn hal s l t)
    (hok : Ok hal s) : t.reader = .idle ∨ (∃ n woken, t.reader = .parked n woken) ∨
      ∃ k, t.reader = .scan k ∧ left hal t k < left hal s l := by
  have hgrows := emitInto_grows s l
  have hguard (hi : inspects hal s l = true) :
      l.empties < hal.queueCount ∧ s.nextReadIndex < hal.queueCount := by
    have hlt := of_decide_eq_true (Bool.and_eq_true_iff.mp hi).1
    exact ⟨hlt.1, hok.index (by omega)⟩
  have hsize {e : Event} (he : SensorEventQueue.peek (s.queues s.nextReadIndex) = some e) :
      (s.queues s.nextReadIndex).size ≠ 0 := by
    intro h0
    rw [(SensorEventQueue.peek_none_iff _).mpr h0] at he
    cases he
  cases h with
  | full hi hlt hlen =>
    refine .inr (.inr ⟨_, rfl, ?_⟩)
    have hload : load hal { (emitInto s l).1 with reader := .scan (emitInto s l).2 } =
        load hal s := rfl
    have hempties : (emitInto s l).2.empties = l.empties := rfl
    have hmax : (emitInto s l).2.maxReads = l.maxReads := rfl
    unfold left
    rw [hload, hempties, hmax, hlen]
    omega
  | skip hi he =>
    refine .inr (.inr ⟨_, rfl, ?_⟩)
    have hlt := (hguard hi).1
    have hload : load hal { advance hal (emitInto s l).1 with
        reader := .scan { (emitInto s l).2 with empties := l.empties + 1 } } = load hal s := rfl
    have hmax : (emitInto s l).2.maxReads = l.maxReads := rfl
    unfold left
    rw [hload]
    dsimp only
    rw [hmax]
    omega
  | drop e hi he hd =>
    refine .inr (.inr ⟨_, rfl, ?_⟩)
    exact left_consume (load_consume (u := (emitInto s l).1) (hguard hi).2 (hsize he) rfl rfl rfl) rfl rfl hgrows
  | deliver e hi he hd =>
    refine .inr (.inr ⟨_, rfl, ?_⟩)
    obtain ⟨active, ha⟩ := disarmOneShot_frame hal (emitInto s l).1
      (copyEventRemapHandle hal.tables e s.nextReadIndex)
    have hload := load_consume (t := advance hal (consume (disarmOneShot hal (emitInto s l).1
      (copyEventRemapHandle hal.tables e s.nextReadIndex)))) (hguard hi).2 (hsize he)
      (by rw [ha]; rfl) (by rw [ha]; rfl) rfl
    refine left_consume hload rfl rfl ?_
    rw [List.length_append]
    omega
  | park hi hd => exact .inr (.inl ⟨_, _, rfl⟩)
  | ret hi hd => exact .inl rfl

/-- A call that holds the mutex returns, or waits for data, after finitely many steps of its own. -/
theorem poll_ends {hal : Hal} {s : State} {l : PollLocals} (hs : Reachable hal s)
    (hr : s.reader = .scan l) : ∃ k t,
      Transition.run (step hal) s (List.replicate k .readerRun) = some t ∧
      (t.reader = .idle ∨ ∃ n woken, t.reader = .parked n woken) := by
  induction hleft : left hal s l using Nat.strong_induction_on generalizing s l with
  | _ n ih =>
    have hstep : step hal s .readerRun = some (pollStep hal s l) := by
      simp only [step, hr]
      exact if_pos (hs.ok.readerHolds l hr)
    rcases (pollStep_turn hal s l).progress hs.ok with hidle | hparked | ⟨k, hscan, hless⟩
    · exact ⟨1, _, by simp [hstep], .inl hidle⟩
    · exact ⟨1, _, by simp [hstep], .inr hparked⟩
    · obtain ⟨m, t, hrun, ht⟩ := ih _ (hleft ▸ hless) (hs.next hstep) hscan rfl
      refine ⟨m + 1, t, ?_, ht⟩
      rw [List.replicate_succ, Transition.run_cons, hstep]
      exact hrun

end Progress

section Theorem

/-- The queues are inspected in strict rotation, whatever calls and other threads do in between. A
queue that is not empty waits for at most one event of each other queue. The events consumed of a
queue are those that left its front, and its counter has counted them. A call returns at least one
record and at most as many as it was asked for, in the first slots of its array, and it does not run
forever while it holds the mutex. -/
theorem poll_serves_in_rotation (hal : Hal) (s : State) (hs : Reachable hal s) (as : List Action)
    (t : State) (hrun : Transition.run (step hal) s as = some t) :
    (∃ k, Transition.trace (step hal) (inspected hal) s as =
      Rotation.turns hal.queueCount s.nextReadIndex k) ∧
    (∀ before mid after q,
      Transition.trace (step hal) (inspected hal) s as = before ++ q :: (mid ++ q :: after) →
      q ∉ mid → ∀ p < hal.queueCount, p ≠ q → mid.count p = 1) ∧
    (∀ q < hal.queueCount,
      Transition.Along (step hal) (fun s _ _ => (s.queues q).size ≠ 0) s as →
      q ∉ Transition.trace (step hal) (consumed hal) s as →
      ∀ p, (Transition.trace (step hal) (consumed hal) s as).count p ≤ 1) ∧
    (∀ q, t.consumedEvents q = s.consumedEvents q +
        UInt64.ofNat ((Transition.trace (step hal) (consumed hal) s as).count q) ∧
      ∃ added removed, readable (s.queues q) ++ added = removed ++ readable (t.queues q) ∧
        removed.length = (Transition.trace (step hal) (consumed hal) s as).count q) ∧
    (∀ n, s.reader = .enter n →
      Transition.Along (step hal) (fun s _ _ => s.reader ≠ .idle) s as → t.reader = .idle →
      ∃ records, t.returned = s.returned ++ records ∧ 1 ≤ records.length ∧
        Filled n (Transition.trace (step hal) (slotWrites hal) s as) records) ∧
    ∀ l, t.reader = .scan l → ∃ k u,
      Transition.run (step hal) t (List.replicate k .readerRun) = some u ∧
      (u.reader = .idle ∨ ∃ n woken, u.reader = .parked n woken) := by
  obtain ⟨k, hturns⟩ := run_turns hs hrun
  refine ⟨⟨k, hturns⟩, ?_, ?_, ?_, ?_, ?_⟩
  · intro before mid after q htrace hmid p hp hne
    rw [hturns] at htrace
    exact Rotation.turns_between htrace hmid hp hne
  · intro q hq hfull hnot p
    have hmissing := run_uninspected hrun hfull hnot
    rw [hturns] at hmissing
    have hnodup := Rotation.turns_without hq hmissing
    rw [← hturns] at hnodup
    exact List.nodup_iff_count_le_one.mp (hnodup.sublist (consumed_sublist hal s as)) p
  · intro q
    exact ⟨run_consumedEvents hrun q, run_removes hs hrun q⟩
  · intro n hr hcall hidle
    have hstart : Filled s.reader.limit [] s.reader.data := by
      rw [hr]
      exact .start n
    obtain ⟨records, hreturned, hne, hfilled⟩ := run_filled hrun hcall (by rw [hr]; simp) hidle hstart
    rw [List.nil_append, hr] at hfilled
    exact ⟨records, hreturned, List.length_pos_iff.mpr hne, hfilled⟩
  · intro l hl
    exact poll_ends (hs.run hrun) hl

/-- The rest of the call of `samplePair`, to its return. -/
def sampleReturn : List Action := samplePair.drop 8 ++ [.readerRun, .readerRun]

theorem samplePair_called : (sampleRun (samplePair.take 8)).isSome = true := by decide +kernel

theorem samplePair_ended : (Transition.run (step sampleHal)
    ((sampleRun (samplePair.take 8)).get samplePair_called) sampleReturn).isSome = true := by
  decide +kernel

/-- A call for eight records returns what is there. -/
theorem samplePair_returns : ∃ s t records, sampleRun (samplePair.take 8) = some s ∧
    Transition.run (step sampleHal) s sampleReturn = some t ∧
    t.returned = s.returned ++ records ∧ 1 ≤ records.length ∧
    Filled 8 (Transition.trace (step sampleHal) (slotWrites sampleHal) s sampleReturn) records := by
  have hall := poll_serves_in_rotation sampleHal _ (sampleRun_reachable _ samplePair_called)
    sampleReturn _ (Option.some_get samplePair_ended).symm
  obtain ⟨records, hreturned, hlen, hfilled⟩ :=
    hall.2.2.2.2.1 8 (by decide +kernel) (by decide +kernel) (by decide +kernel)
  exact ⟨_, _, records, (Option.some_get samplePair_called).symm,
    (Option.some_get samplePair_ended).symm, hreturned, hlen, hfilled⟩

end Theorem

end Multihal
