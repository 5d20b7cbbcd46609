import Mathlib.Logic.Relation
import Mocha.Multihal

/-!
# The moves of the poll context

Every step is one or two moves: a turn of `poll` first emits the flushes that
are ready and then reads one queue. The relation below is the only place where
the step function is unfolded; each invariant is a case analysis over it.
-/
namespace Multihal

open SensorHandles
open SensorEventQueue (Queue)
open Barrier (Item)

/-- No request is ready to be completed. -/
def NoneReady (s : State) : Prop := ∀ p ∈ s.pendingFlushes, flushReady s.consumedEvents p = false

/-- The writer stands where `waitForSpace` of its loop head is next. -/
def Writer.AtHead (w : Writer) : Prop := w = .top ∨ ∃ woken, w = .waitTop woken

inductive Move (hal : Hal) (s : State) : State → Prop where
  | waitTop (m : Nat) (hm : m < hal.queueCount) (ho : s.owner = none) (hw : (s.writers m).AtHead)
      (hf : (s.queues m).size = (s.queues m).capacity) : Move hal s (setWriter s m (.waitTop false))
  | startPoll (m : Nat) (hm : m < hal.queueCount) (ho : s.owner = none) (hw : (s.writers m).AtHead) :
      Move hal s (setWriter s m .polling)
  | badPoll (m : Nat) (r : PollResult) (hw : s.writers m = .polling)
      (hr : ¬(1 ≤ r.1 ∧ r.1 ≤ sensorEventQueueCapacity)) :
      Move hal s (setWriter { s with polls := Function.update s.polls m (s.polls m ++ [r]) } m .top)
  | goodPoll (m : Nat) (r : PollResult) (hw : s.writers m = .polling)
      (hr : 1 ≤ r.1 ∧ r.1 ≤ sensorEventQueueCapacity) :
      Move hal s (setWriter { s with polls := Function.update s.polls m (s.polls m ++ [r]) } m
        (.polled (r.2.toList.take r.1.toNat)))
  | beginWrite (m : Nat) (batch : List Event) (ho : s.owner = none) (hw : s.writers m = .polled batch) :
      Move hal s (setWriter (setQueue { s with
          owner := some (.writer m)
          arrivals := Function.update s.arrivals m (s.arrivals m ++ batch.map .event) }
        m (SensorEventQueue.beginWrite (s.queues m) batch.length)) m (.writing batch))
  | resumeWrite (m : Nat) (rest : List Event) (woken : Bool) (ho : s.owner = none)
      (hw : s.writers m = .waitWrite rest woken) :
      Move hal s (setWriter { s with owner := some (.writer m) } m (.writing rest))
  | parkWrite (m : Nat) (rest : List Event) (ho : s.owner = some (.writer m))
      (hw : s.writers m = .writing rest) (hf : (s.queues m).size = (s.queues m).capacity) :
      Move hal s (setWriter { s with owner := none } m (.waitWrite rest false))
  | chunk (m : Nat) (rest : List Event) (ho : s.owner = some (.writer m))
      (hw : s.writers m = .writing rest) (hp : 0 < (s.queues m).pendingSize)
      (hf : (s.queues m).size ≠ (s.queues m).capacity) :
      Move hal s (broadcastData (setWriter
        (setQueue s m (SensorEventQueue.writeChunk (s.queues m) rest).1) m
        (.writing (SensorEventQueue.writeChunk (s.queues m) rest).2)))
  | endWrite (m : Nat) (rest : List Event) (ho : s.owner = some (.writer m))
      (hw : s.writers m = .writing rest) (hp : (s.queues m).pendingSize = 0) :
      Move hal s (setWriter { s with owner := none } m .top)
  | pollCall (n : Nat) (hn : 0 < n) (hc : 0 < hal.queueCount) (hr : s.reader = .idle) :
      Move hal s { s with reader := .enter n }
  | enter (n : Nat) (ho : s.owner = none) (hr : s.reader = .enter n) :
      Move hal s { s with owner := some .reader, reader := .scan ⟨n, 0, []⟩ }
  | resume (n : Nat) (woken : Bool) (ho : s.owner = none) (hr : s.reader = .parked n woken) :
      Move hal s { s with waitingForData := false, owner := some .reader, reader := .scan ⟨n, 0, []⟩ }
  | emit (l : PollLocals) (ho : s.owner = some .reader) (hr : s.reader = .scan l) :
      Move hal s { (emitInto s l).1 with reader := .scan (emitInto s l).2 }
  | skip (l : PollLocals) (ho : s.owner = some .reader) (hr : s.reader = .scan l)
      (he : (s.queues s.nextReadIndex).size = 0) (hlt : l.empties < hal.queueCount) :
      Move hal s { advance hal s with reader := .scan { l with empties := l.empties + 1 } }
  | drop (l : PollLocals) (e : Event) (ho : s.owner = some .reader) (hr : s.reader = .scan l)
      (hready : NoneReady s) (he : SensorEventQueue.peek (s.queues s.nextReadIndex) = some e)
      (hd : (copyEventRemapHandle hal.tables e s.nextReadIndex).sensor = -1) :
      Move hal s { advance hal (consume s) with reader := .scan { l with empties := 0 } }
  | deliver (l : PollLocals) (e : Event) (ho : s.owner = some .reader) (hr : s.reader = .scan l)
      (hlen : l.data.length < l.maxReads) (hready : NoneReady s)
      (he : SensorEventQueue.peek (s.queues s.nextReadIndex) = some e)
      (hd : (copyEventRemapHandle hal.tables e s.nextReadIndex).sensor ≠ -1) :
      Move hal s { advance hal (consume (disarmOneShot hal s
          (copyEventRemapHandle hal.tables e s.nextReadIndex))) with
        reader := .scan { l with
          empties := 0
          data := l.data ++ [copyEventRemapHandle hal.tables e s.nextReadIndex] } }
  | park (l : PollLocals) (ho : s.owner = some .reader) (hr : s.reader = .scan l) (hd : l.data = [])
      (hready : NoneReady s) (hlt : hal.queueCount ≤ l.empties) :
      Move hal s { s with waitingForData := true, owner := none, reader := .parked l.maxReads false }
  | ret (l : PollLocals) (ho : s.owner = some .reader) (hr : s.reader = .scan l) (hd : l.data ≠ []) :
      Move hal s { s with owner := none, reader := .idle, returned := s.returned ++ l.data }
  | flush (handle : Int) (m : Nat) (ho : s.owner = none)
      (hm : getModuleIndex hal.tables handle = m) (hlt : m < hal.queueCount) :
      Move hal s (broadcastData { s with
        pendingFlushes := s.pendingFlushes ++ [⟨handle, m, s.consumedEvents m +
          UInt64.ofNat (SensorEventQueue.getPendingSize (s.queues m))⟩]
        arrivals := Function.update s.arrivals m (s.arrivals m ++ [.mark handle]) })
  | activate (active : Int → Bool) : Move hal s { s with activeSensors := active }

/-- What `poll` needs of its own locals: a buffer that is not empty and not overrun. -/
def Reader.Ok : Reader → Prop
  | .idle => True
  | .enter n => 0 < n
  | .scan l => 0 < l.maxReads ∧ l.data.length ≤ l.maxReads
  | .parked n _ => 0 < n

/-- No poll returns more records than were asked for. -/
theorem emitInto_length (s : State) (l : PollLocals) (h : l.data.length ≤ l.maxReads) :
    (emitInto s l).2.data.length ≤ l.maxReads := by
  have hd := Barrier.drain_length (flushReady s.consumedEvents) (l.maxReads - l.data.length)
    s.pendingFlushes
  simp only [emitInto, emitReadyFlushes, List.length_append, List.length_map]
  omega

/-- Emission that leaves room in the buffer leaves no request ready. -/
theorem emitInto_noneReady (s : State) (l : PollLocals) (h : (emitInto s l).2.data.length < l.maxReads) :
    NoneReady (emitInto s l).1 := by
  simp only [emitInto, emitReadyFlushes, List.length_append, List.length_map] at h
  have hd : (Barrier.drain (flushReady s.consumedEvents) (l.maxReads - l.data.length)
      s.pendingFlushes).1.length < l.maxReads - l.data.length := by omega
  exact Barrier.drain_exhausts _ _ _ hd

theorem writerHead_move (hal : Hal) (s : State) (m : Nat) (hm : m < hal.queueCount)
    (ho : s.owner = none) (hw : (s.writers m).AtHead) : Move hal s (writerHead s m) := by
  unfold writerHead
  split
  · rename_i hf
    exact .waitTop m hm ho hw ((SensorEventQueue.full_iff _).mp hf)
  · exact .startPoll m hm ho hw

theorem writerLock_move (hal : Hal) (s t : State) (m : Nat) (hm : m < hal.queueCount)
    (ho : s.owner = none) (h : writerLock s m = some t) : Move hal s t := by
  unfold writerLock at h
  split at h
  · rename_i hw
    cases h
    exact writerHead_move hal s m hm ho (.inl hw)
  · rename_i w hw
    cases h
    exact writerHead_move hal s m hm ho (.inr ⟨w, hw⟩)
  · rename_i batch hw
    cases h
    exact .beginWrite m batch ho hw
  · rename_i rest w hw
    cases h
    exact .resumeWrite m rest w ho hw
  · cases h

theorem writerPolled_move (hal : Hal) (s : State) (m : Nat) (r : PollResult)
    (hw : s.writers m = .polling) : Move hal s (writerPolled s m r) := by
  simp only [writerPolled]
  split
  · exact .badPoll m r hw (by omega)
  · exact .goodPoll m r hw (by omega)

theorem writeStep_move (hal : Hal) (s : State) (m : Nat) (rest : List Event)
    (ho : s.owner = some (.writer m)) (hw : s.writers m = .writing rest) :
    Move hal s (writeStep s m rest) := by
  unfold writeStep
  split
  · rename_i hp
    split
    · rename_i hf
      exact .parkWrite m rest ho hw ((SensorEventQueue.full_iff _).mp hf)
    · rename_i hf
      exact .chunk m rest ho hw hp (fun he => hf ((SensorEventQueue.full_iff _).mpr he))
  · rename_i hp
    exact .endWrite m rest ho hw (by omega)

/-- Reading a queue is one move once the ready flushes are out. -/
theorem readQueue_move (hal : Hal) (s : State) (l : PollLocals) (ho : s.owner = some .reader)
    (hr : s.reader = .scan l) (hready : NoneReady s) (hlt : l.empties < hal.queueCount)
    (hlen : l.data.length < l.maxReads) :
    Move hal s { (readQueue hal s l).1 with reader := .scan (readQueue hal s l).2 } := by
  unfold readQueue
  split
  · rename_i he
    exact .skip l ho hr ((SensorEventQueue.peek_none_iff _).mp he) hlt
  · rename_i e he
    simp only
    split
    · rename_i hd
      exact .drop l e ho hr hready he hd
    · rename_i hd
      exact .deliver l e ho hr hlen hready he hd

theorem disarmOneShot_reader (hal : Hal) (s : State) (e : Event) (r : Reader) :
    disarmOneShot hal { s with reader := r } e = { disarmOneShot hal s e with reader := r } := by
  unfold disarmOneShot
  split
  · split <;> rfl
  · rfl

theorem consume_reader (s : State) (r : Reader) :
    consume { s with reader := r } = { consume s with reader := r } := by
  simp only [consume]
  split <;> rfl

/-- Reading a queue does not look at where `poll` stands. -/
theorem readQueue_reader (hal : Hal) (s : State) (l : PollLocals) (r : Reader) :
    readQueue hal { s with reader := r } l =
      ({ (readQueue hal s l).1 with reader := r }, (readQueue hal s l).2) := by
  unfold readQueue
  simp only [disarmOneShot_reader, consume_reader]
  split
  · rfl
  · split <;> rfl

/-- One turn of the reader is a sequence of moves. -/
theorem pollStep_moves (hal : Hal) (s : State) (l : PollLocals) (ho : s.owner = some .reader)
    (hr : s.reader = .scan l) (hok : s.reader.Ok) :
    Relation.ReflTransGen (Move hal) s (pollStep hal s l) := by
  rw [hr] at hok
  have hemit : Move hal s { (emitInto s l).1 with reader := .scan (emitInto s l).2 } := .emit l ho hr
  have hle := emitInto_length s l hok.2
  apply Relation.ReflTransGen.head hemit
  unfold pollStep
  split
  · rename_i hc
    unfold pollTurn
    simp only
    split
    · exact .refl
    · rename_i hne
      have hm := readQueue_move hal { (emitInto s l).1 with reader := .scan (emitInto s l).2 }
        (emitInto s l).2 ho rfl (emitInto_noneReady s l (by omega)) hc.1
        (show (emitInto s l).2.data.length < l.maxReads by omega)
      rw [readQueue_reader] at hm
      exact .single hm
  · rename_i hc
    unfold pollTail
    simp only
    split
    · rename_i h0
      have hd : l.data.length = 0 := by simp only [emitInto, List.length_append] at h0; omega
      have hpos := hok.1
      have hlt : hal.queueCount ≤ l.empties := by omega
      exact .single (.park (emitInto s l).2 ho rfl (List.eq_nil_of_length_eq_zero h0)
        (emitInto_noneReady s l (by omega)) hlt)
    · rename_i h0
      exact .single (.ret (emitInto s l).2 ho rfl (fun he => h0 (by rw [he]; rfl)))

/-- A flush marks one queue or changes nothing. -/
theorem flush_moves (hal : Hal) (s : State) (handle : Int) (ho : s.owner = none) :
    Relation.ReflTransGen (Move hal) s (flush hal s handle).2 := by
  unfold flush
  simp only
  split
  · exact .refl
  · split
    · exact .refl
    · rename_i hrange
      split
      · exact .refl
      · have hm : getModuleIndex hal.tables handle =
            ((getModuleIndex hal.tables handle).toNat : Int) := by omega
        exact .single (.flush handle _ ho hm (by omega))

theorem activate_moves (hal : Hal) (s : State) (handle enabled r : Int) :
    Relation.ReflTransGen (Move hal) s (activate hal s handle enabled r).2 := by
  unfold activate
  simp only
  split
  · split
    · exact .single (.activate _)
    · exact .refl
  · exact .refl

/-- Every enabled step decomposes into moves. -/
theorem step_moves (hal : Hal) (s t : State) (a : Action) (hok : s.reader.Ok)
    (h : step hal s a = some t) : Relation.ReflTransGen (Move hal) s t := by
  cases a with
  | writerLock m =>
    simp only [step] at h
    split at h
    · rename_i hg
      exact .single (writerLock_move hal s t m hg.1 hg.2 h)
    · cases h
  | writerPolled m r =>
    simp only [step] at h
    split at h
    · rename_i hw
      cases h
      exact .single (writerPolled_move hal s m r hw)
    · cases h
  | writerRun m =>
    simp only [step] at h
    split at h
    · rename_i rest hw
      split at h
      · rename_i ho
        cases h
        exact .single (writeStep_move hal s m rest ho hw)
      · cases h
    · cases h
  | pollCall data n =>
    simp only [step] at h
    split at h
    · rename_i hr
      cases h
      unfold pollCall
      split
      · exact .refl
      · rename_i hn
        simp only [not_or, Bool.not_eq_true] at hn
        exact .single (.pollCall n.toNat (by omega) (by omega) hr)
    · cases h
  | readerLock =>
    simp only [step] at h
    split at h
    · rename_i ho
      split at h
      · rename_i n hr
        cases h
        exact .single (.enter n ho hr)
      · rename_i n w hr
        cases h
        exact .single (.resume n w ho hr)
      · cases h
    · cases h
  | readerRun =>
    simp only [step] at h
    split at h
    · rename_i l hr
      split at h
      · rename_i ho
        cases h
        exact pollStep_moves hal s l ho hr hok
      · cases h
    · cases h
  | flush handle =>
    simp only [step] at h
    split at h
    · rename_i ho
      cases h
      exact flush_moves hal s handle ho
    · cases h
  | activate handle enabled r =>
    simp only [step] at h
    split at h
    · cases h
      exact activate_moves hal s handle enabled r
    · cases h

/-- What a move can do to one queue and to the writer that feeds it. -/
inductive Local (q : Queue Event) : Writer → Queue Event → Writer → Prop where
  | same (w : Writer) : Local q w q w
  | waitTop (w : Writer) (hw : w.AtHead) (hf : q.size = q.capacity) : Local q w q (.waitTop false)
  | startPoll (w : Writer) (hw : w.AtHead) : Local q w q .polling
  | badPoll : Local q .polling q .top
  | goodPoll (batch : List Event) : Local q .polling q (.polled batch)
  | beginWrite (batch : List Event) :
      Local q (.polled batch) (SensorEventQueue.beginWrite q batch.length) (.writing batch)
  | resumeWrite (rest : List Event) (woken : Bool) : Local q (.waitWrite rest woken) q (.writing rest)
  | parkWrite (rest : List Event) (hf : q.size = q.capacity) :
      Local q (.writing rest) q (.waitWrite rest false)
  | chunk (rest : List Event) (hp : 0 < q.pendingSize) (hf : q.size ≠ q.capacity) :
      Local q (.writing rest) (SensorEventQueue.writeChunk q rest).1
        (.writing (SensorEventQueue.writeChunk q rest).2)
  | endWrite (rest : List Event) (hp : q.pendingSize = 0) : Local q (.writing rest) q .top
  | dequeue (w : Writer) (hne : q.size ≠ 0) :
      Local q w (SensorEventQueue.dequeue q).1 (if (SensorEventQueue.dequeue q).2 then w.wake else w)

/-- Consuming takes one event from the queue whose turn it is. -/
theorem consume_queues (s : State) : (consume s).queues =
    Function.update s.queues s.nextReadIndex (SensorEventQueue.dequeue (s.queues s.nextReadIndex)).1 := by
  simp only [consume]
  split <;> rfl

theorem consume_writers (s : State) : (consume s).writers =
    Function.update s.writers s.nextReadIndex
      (if (SensorEventQueue.dequeue (s.queues s.nextReadIndex)).2 then
        (s.writers s.nextReadIndex).wake else s.writers s.nextReadIndex) := by
  simp only [consume]
  split <;> simp [setQueue, broadcastSpace, setWriter]

@[simp] theorem consume_pendingFlushes (s : State) : (consume s).pendingFlushes = s.pendingFlushes := by
  simp only [consume]; split <;> rfl

@[simp] theorem consume_owner (s : State) : (consume s).owner = s.owner := by
  simp only [consume]; split <;> rfl

@[simp] theorem consume_returned (s : State) : (consume s).returned = s.returned := by
  simp only [consume]; split <;> rfl

@[simp] theorem consume_polls (s : State) : (consume s).polls = s.polls := by
  simp only [consume]; split <;> rfl

@[simp] theorem consume_arrivals (s : State) : (consume s).arrivals = s.arrivals := by
  simp only [consume]; split <;> rfl

theorem consume_consumedEvents (s : State) : (consume s).consumedEvents =
    Function.update s.consumedEvents s.nextReadIndex (s.consumedEvents s.nextReadIndex + 1) := by
  simp only [consume]; split <;> rfl

/-- Disarming a sensor touches the activation flags and nothing else. -/
theorem disarmOneShot_frame (hal : Hal) (s : State) (e : Event) :
    ∃ active, disarmOneShot hal s e = { s with activeSensors := active } := by
  unfold disarmOneShot
  split
  · split
    · exact ⟨_, rfl⟩
    · exact ⟨s.activeSensors, rfl⟩
  · exact ⟨s.activeSensors, rfl⟩

/-- Each module sees a move as a step of its own queue and writer. -/
theorem Move.local {hal : Hal} {s t : State} (h : Move hal s t) (m : Nat) :
    Local (s.queues m) (s.writers m) (t.queues m) (t.writers m) := by
  have hsame : Local (s.queues m) (s.writers m) (s.queues m) (s.writers m) := .same _
  cases h with
  | waitTop n hm ho hw hf =>
    by_cases he : m = n
    · subst he; simpa [setWriter] using Local.waitTop _ hw hf
    · simpa [setWriter, he] using hsame
  | startPoll n hm ho hw =>
    by_cases he : m = n
    · subst he; simpa [setWriter] using Local.startPoll _ hw
    · simpa [setWriter, he] using hsame
  | badPoll n r hw hr =>
    by_cases he : m = n
    · subst he; simpa [setWriter, hw] using Local.badPoll
    · simpa [setWriter, he] using hsame
  | goodPoll n r hw hr =>
    by_cases he : m = n
    · subst he; simpa [setWriter, hw] using Local.goodPoll _
    · simpa [setWriter, he] using hsame
  | beginWrite n batch ho hw =>
    by_cases he : m = n
    · subst he; simpa [setWriter, setQueue, hw] using Local.beginWrite batch
    · simpa [setWriter, setQueue, he] using hsame
  | resumeWrite n rest woken ho hw =>
    by_cases he : m = n
    · subst he; simpa [setWriter, hw] using Local.resumeWrite rest woken
    · simpa [setWriter, he] using hsame
  | parkWrite n rest ho hw hf =>
    by_cases he : m = n
    · subst he; simpa [setWriter, hw] using Local.parkWrite rest hf
    · simpa [setWriter, he] using hsame
  | chunk n rest ho hw hp hf =>
    by_cases he : m = n
    · subst he; simpa [setWriter, setQueue, broadcastData, hw] using Local.chunk rest hp hf
    · simpa [setWriter, setQueue, broadcastData, he] using hsame
  | endWrite n rest ho hw hp =>
    by_cases he : m = n
    · subst he; simpa [setWriter, hw] using Local.endWrite rest hp
    · simpa [setWriter, he] using hsame
  | drop l e ho hr hready hp hd =>
    have hne : (s.queues s.nextReadIndex).size ≠ 0 := by
      intro h0; simp [(SensorEventQueue.peek_none_iff _).mpr h0] at hp
    simp only [advance, consume_queues, consume_writers]
    by_cases he : m = s.nextReadIndex
    · subst he; simpa using Local.dequeue _ hne
    · simpa [he] using hsame
  | deliver l e ho hr hlen hready hp hd =>
    have hne : (s.queues s.nextReadIndex).size ≠ 0 := by
      intro h0; simp [(SensorEventQueue.peek_none_iff _).mpr h0] at hp
    obtain ⟨active, ha⟩ := disarmOneShot_frame hal s (copyEventRemapHandle hal.tables e s.nextReadIndex)
    simp only [advance, consume_queues, consume_writers, ha]
    by_cases he : m = s.nextReadIndex
    · subst he; simpa using Local.dequeue _ hne
    · simpa [he] using hsame
  | pollCall => exact hsame
  | enter => exact hsame
  | resume => exact hsame
  | emit => exact hsame
  | skip => exact hsame
  | park => exact hsame
  | ret => exact hsame
  | flush => exact hsame
  | activate => exact hsame

/-- The events that the current `write()` has not copied yet. -/
def Writer.rest : Writer → List Event
  | .writing rest => rest
  | .waitWrite rest _ => rest
  | _ => []

@[simp] theorem Writer.rest_wake (w : Writer) : w.wake.rest = w.rest := by cases w <;> rfl

theorem Writer.rest_atHead {w : Writer} (h : w.AtHead) : w.rest = [] := by
  rcases h with rfl | ⟨woken, rfl⟩ <;> rfl

/-- What a writer still has to write is not touched by the reader. -/
theorem consume_rest (s : State) (m : Nat) : ((consume s).writers m).rest = (s.writers m).rest := by
  rw [consume_writers]
  by_cases he : m = s.nextReadIndex
  · subst he
    rw [Function.update_self]
    split <;> simp
  · rw [Function.update_of_ne he]

theorem consume_readable {s : State} (hq : SensorEventQueue.Wf (s.queues s.nextReadIndex)) (e : Event)
    (he : SensorEventQueue.peek (s.queues s.nextReadIndex) = some e) :
    SensorEventQueue.readable (s.queues s.nextReadIndex) =
      e :: SensorEventQueue.readable ((consume s).queues s.nextReadIndex) := by
  have hhead := SensorEventQueue.peek_eq_head _ hq
  rw [he] at hhead
  rw [consume_queues, Function.update_self, SensorEventQueue.dequeue_readable _ hq]
  exact (List.cons_head?_tail hhead.symm).symm

/-- A queue in bounds whose pending size counts the events left to its writer. -/
structure QueueOk (q : Queue Event) (w : Writer) : Prop where
  wf : SensorEventQueue.Wf q
  capacity : q.capacity = sensorEventQueueCapacity
  pending : q.pendingSize = w.rest.length

/-- A queue and its writer go on together. -/
theorem Local.ok {q q' : Queue Event} {w w' : Writer} (h : Local q w q' w') (hq : QueueOk q w) :
    QueueOk q' w' := by
  obtain ⟨hwf, hc, hp⟩ := hq
  cases h with
  | same => exact ⟨hwf, hc, hp⟩
  | waitTop _ hw => exact ⟨hwf, hc, by rw [hp, Writer.rest_atHead hw]; rfl⟩
  | startPoll _ hw => exact ⟨hwf, hc, by rw [hp, Writer.rest_atHead hw]; rfl⟩
  | badPoll => exact ⟨hwf, hc, hp⟩
  | goodPoll batch => exact ⟨hwf, hc, hp⟩
  | beginWrite batch => exact ⟨SensorEventQueue.beginWrite_wf hwf _, hc, rfl⟩
  | resumeWrite rest woken => exact ⟨hwf, hc, hp⟩
  | parkWrite rest hf => exact ⟨hwf, hc, hp⟩
  | chunk rest h0 hf =>
    have hle := hwf.size_le
    obtain ⟨k, h1, hk, hrest, hread, hcap, hpend, hwf'⟩ :=
      SensorEventQueue.writeChunk_spec q hwf rest hp h0 (by omega)
    exact ⟨hwf', hcap.trans hc, by rw [hpend, hrest]; rfl⟩
  | endWrite rest h0 => exact ⟨hwf, hc, h0⟩
  | dequeue w hne =>
    refine ⟨SensorEventQueue.dequeue_wf hwf, by simpa using hc, ?_⟩
    rw [SensorEventQueue.dequeue_pendingSize, hp]
    split <;> simp

/-- The invariant that every other one builds on. -/
structure Ok (hal : Hal) (s : State) : Prop where
  queue : ∀ m, QueueOk (s.queues m) (s.writers m)
  reader : s.reader.Ok
  readerHolds : ∀ l, s.reader = .scan l → s.owner = some .reader
  index : 0 < hal.queueCount → s.nextReadIndex < hal.queueCount

theorem initial_ok (hal : Hal) (s : State) (h : Initial s) : Ok hal s := by
  obtain ⟨hq, -, -, -, hi, -, ho, hw, hr, -⟩ := h
  refine ⟨?_, by simp [hr, Reader.Ok], by simp [hr], by simp [hi]⟩
  intro m
  obtain ⟨data, hd⟩ := hq m
  rw [hd, hw m]
  exact ⟨SensorEventQueue.new_wf _ _ (by decide), rfl, rfl⟩

@[simp] theorem Reader.wake_ok (r : Reader) : r.wake.Ok ↔ r.Ok := by cases r <;> rfl

@[simp] theorem Reader.wake_eq_scan (r : Reader) (l : PollLocals) : r.wake = .scan l ↔ r = .scan l := by
  cases r <;> simp [Reader.wake]

/-- No move puts the reader where it cannot be. -/
theorem Move.reader_ok {hal : Hal} {s t : State} (h : Move hal s t) (hok : s.reader.Ok) :
    t.reader.Ok := by
  cases h with
  | chunk => simpa [broadcastData, setWriter, setQueue] using hok
  | flush => simpa [broadcastData] using hok
  | pollCall n hn hc hr => exact hn
  | enter n ho hr => rw [hr] at hok; exact ⟨hok, Nat.zero_le _⟩
  | resume n woken ho hr => rw [hr] at hok; exact ⟨hok, Nat.zero_le _⟩
  | emit l ho hr => rw [hr] at hok; exact ⟨hok.1, emitInto_length s l hok.2⟩
  | skip l ho hr => rw [hr] at hok; exact hok
  | drop l e ho hr => rw [hr] at hok; exact hok
  | deliver l e ho hr hlen =>
    rw [hr] at hok
    exact ⟨hok.1, by simp only [List.length_append, List.length_cons, List.length_nil]; omega⟩
  | park l ho hr => rw [hr] at hok; exact hok.1
  | ret => trivial
  | _ => exact hok

/-- While it scans the reader holds the lock. -/
theorem Move.readerHolds {hal : Hal} {s t : State} (h : Move hal s t) (hok : Ok hal s)
    (l : PollLocals) (hl : t.reader = .scan l) : t.owner = some .reader := by
  have hfree : s.owner = none → s.reader ≠ .scan l := by
    intro ho hr; simp [hok.readerHolds l hr] at ho
  have hother : ∀ m, s.owner = some (.writer m) → s.reader ≠ .scan l := by
    intro m ho hr; simp [hok.readerHolds l hr] at ho
  cases h with
  | beginWrite m batch ho hw => exact absurd hl (hfree ho)
  | resumeWrite m rest woken ho hw => exact absurd hl (hfree ho)
  | parkWrite m rest ho hw hf => exact absurd hl (hother m ho)
  | endWrite m rest ho hw hp => exact absurd hl (hother m ho)
  | chunk m rest ho hw hp hf =>
    exact absurd ((Reader.wake_eq_scan _ _).mp hl) (hother m ho)
  | flush handle m ho hm hlt => exact absurd ((Reader.wake_eq_scan _ _).mp hl) (hfree ho)
  | pollCall n hn hc hr => simp at hl
  | enter n ho hr => rfl
  | resume n woken ho hr => rfl
  | emit l ho hr => exact ho
  | skip l ho hr he hlt => exact ho
  | drop l e ho hr hready he hd => exact (consume_owner s).trans ho
  | deliver l e ho hr hlen hready he hd =>
    obtain ⟨active, ha⟩ := disarmOneShot_frame hal s (copyEventRemapHandle hal.tables e s.nextReadIndex)
    simp only [advance, ha, consume_owner]
    exact ho
  | park l ho hr hd hready hlt => simp at hl
  | ret l ho hr hd => simp at hl
  | _ => exact hok.readerHolds l hl

/-- The index of the next queue stays in range. -/
theorem Move.index {hal : Hal} {s t : State} (h : Move hal s t) (hc : 0 < hal.queueCount)
    (hi : s.nextReadIndex < hal.queueCount) : t.nextReadIndex < hal.queueCount := by
  cases h with
  | skip => exact Nat.mod_lt _ hc
  | drop => exact Nat.mod_lt _ hc
  | deliver => exact Nat.mod_lt _ hc
  | _ => exact hi

theorem Move.ok {hal : Hal} {s t : State} (h : Move hal s t) (hok : Ok hal s) : Ok hal t :=
  ⟨fun m => (h.local m).ok (hok.queue m), h.reader_ok hok.reader, h.readerHolds hok,
    fun hc => h.index hc (hok.index hc)⟩

/-- A chunk goes from the events left to `write()` to the end of the ring. -/
theorem Ok.chunk {hal : Hal} {s : State} {n : Nat} {rest : List Event} (hok : Ok hal s)
    (hw : s.writers n = .writing rest) (hp : 0 < (s.queues n).pendingSize)
    (hf : (s.queues n).size ≠ (s.queues n).capacity) :
    SensorEventQueue.readable (SensorEventQueue.writeChunk (s.queues n) rest).1 ++
      (SensorEventQueue.writeChunk (s.queues n) rest).2 =
    SensorEventQueue.readable (s.queues n) ++ rest := by
  obtain ⟨hwf, -, hpend⟩ := hok.queue n
  rw [hw] at hpend
  have hle := hwf.size_le
  obtain ⟨k, -, -, hrest, hread, -⟩ :=
    SensorEventQueue.writeChunk_spec _ hwf rest hpend hp (by omega)
  rw [hread, hrest, List.append_assoc, List.take_append_drop]

/-- `write()` ends with nothing left. -/
theorem Ok.written {hal : Hal} {s : State} {n : Nat} {rest : List Event} (hok : Ok hal s)
    (hw : s.writers n = .writing rest) (hp : (s.queues n).pendingSize = 0) : rest = [] := by
  have hpend := (hok.queue n).pending
  rw [hw, hp] at hpend
  exact List.eq_nil_of_length_eq_zero hpend.symm

/-- The invariant rule for the poll context: a property that every move keeps
holds in every reachable state. -/
theorem Reachable.of_moves {hal : Hal} (P : State → Prop) (hinit : ∀ s, Initial s → P s)
    (hmove : ∀ s t, Ok hal s → P s → Move hal s t → P t) {s : State} (h : Reachable hal s) :
    Ok hal s ∧ P s := by
  refine Transition.Reachable.invariant (fun s => Ok hal s ∧ P s) ?_ ?_ h
  · intro s hs
    exact ⟨initial_ok hal s hs, hinit s hs⟩
  · intro s a t _ hs ht
    have hmoves := step_moves hal s t a hs.1.reader ht
    clear ht
    induction hmoves with
    | refl => exact hs
    | tail _ hm ih => exact ⟨hm.ok ih.1, hmove _ _ ih.1 ih.2 hm⟩

theorem Reachable.ok {hal : Hal} {s : State} (h : Reachable hal s) : Ok hal s :=
  (Reachable.of_moves (fun _ => True) (fun _ _ => trivial) (fun _ _ _ _ _ => trivial) h).1

end Multihal
