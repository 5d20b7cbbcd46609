import Mocha.MultihalMoves

/-!
# End-to-end delivery of sensor events

Everything a sub-HAL reported in a valid batch is upstream, in its ring, in the
part of its batch that is not copied yet, or in a batch not yet begun: in this
order, nothing twice, and nothing missing but what no sensor is registered for.
-/
namespace Multihal

open SensorHandles
open SensorEventQueue (Queue readable)

/-- A batch that was polled and for which `write()` has not been called. -/
def Writer.batch : Writer → List Event
  | .polled batch => batch
  | _ => []

/-- The records of a `poll` that has not returned yet. -/
def Reader.data : Reader → List Event
  | .scan l => l.data
  | _ => []

/-- Every record handed upstream, in order. -/
def delivered (s : State) : List Event := s.returned ++ s.reader.data

/-- A registered event that is not META_DATA, under its global handle. -/
def publish (t : Tables) (m : Nat) (e : Event) : Option Event :=
  if e.type = sensorTypeMetaData then none
  else (t.fullToGlobal ⟨m, e.sensor⟩).map fun g => { e with sensor := g }

def isEventOf (t : Tables) (m : Nat) (e : Event) : Bool :=
  decide (e.type ≠ sensorTypeMetaData ∧ getModuleIndex t e.sensor = m)

/-- The delivered non-META_DATA events of the sensors of module `m`. -/
def deliveredFor (hal : Hal) (s : State) (m : Nat) : List Event :=
  (delivered s).filter (isEventOf hal.tables m)

/-- The events of the batches whose poll result was between 1 and the buffer size. -/
def validEvents (polls : List PollResult) : List Event :=
  polls.flatMap fun (r : PollResult) =>
    if 1 ≤ r.1 ∧ r.1 ≤ sensorEventQueueCapacity then r.2.toList.take r.1.toNat else []

/-- What module `m` reported and nobody has read yet, oldest first. -/
def transit (s : State) (m : Nat) : List Event :=
  readable (s.queues m) ++ (s.writers m).rest ++ (s.writers m).batch

def Conserved (hal : Hal) (s : State) : Prop :=
  ∀ m, deliveredFor hal s m ++ (transit s m).filterMap (publish hal.tables m) =
    (validEvents (s.polls m)).filterMap (publish hal.tables m)

@[simp] theorem Writer.batch_wake (w : Writer) : w.wake.batch = w.batch := by cases w <;> rfl

@[simp] theorem Reader.data_wake (r : Reader) : r.wake.data = r.data := by cases r <;> rfl

/-- A move of module `n` alone leaves the traffic of the others as it is. -/
theorem transit_same {s t : State} {n : Nat}
    (hq : ∀ m, m ≠ n → t.queues m = s.queues m) (hw : ∀ m, m ≠ n → t.writers m = s.writers m)
    (hn : transit t n = transit s n) (m : Nat) : transit t m = transit s m := by
  by_cases he : m = n
  · rw [he, hn]
  · simp only [transit, hq m he, hw m he]

/-- Writer `n` goes on to another place with the events that it has. -/
theorem transit_setWriter {s : State} {n : Nat} {w : Writer}
    (h : w.rest ++ w.batch = (s.writers n).rest ++ (s.writers n).batch) (m : Nat) :
    transit (setWriter s n w) m = transit s m := by
  refine transit_same (s := s) (n := n) ?_ ?_ ?_ m
  · intro m _; rfl
  · intro m hm; simp [setWriter, hm]
  · simp only [transit, setWriter, Function.update_self, List.append_assoc, h]

/-- The record `poll` builds is the published event, or carries -1. -/
theorem copyEvent_publish {t : Tables} (h : TablesWf t) (e : Event) (m : Nat)
    (he : e.type ≠ sensorTypeMetaData) :
    publish t m e = if (copyEventRemapHandle t e m).sensor = -1 then none
      else some (copyEventRemapHandle t e m) := by
  simp only [publish, copyEventRemapHandle, he, if_false, getGlobalHandle]
  cases hf : t.fullToGlobal ⟨m, e.sensor⟩ with
  | none => simp
  | some g =>
    have hg := (h.forth _ _ hf).1
    rw [if_neg (by simp only; omega)]
    rfl

/-- What reading an event of module `i` adds to the records of module `m`. -/
theorem isEventOf_copyEvent {t : Tables} (h : TablesWf t) (e : Event) (i m : Nat)
    (hd : (copyEventRemapHandle t e i).sensor ≠ -1) :
    [copyEventRemapHandle t e i].filter (isEventOf t m) =
      if m = i then (publish t i e).toList else [] := by
  by_cases he : e.type = sensorTypeMetaData
  · simp [isEventOf, copyEventRemapHandle, publish, he]
  · have hp := copyEvent_publish h e i he
    rw [if_neg hd] at hp
    have hi : getModuleIndex t (copyEventRemapHandle t e i).sensor = i := by
      simp only [copyEventRemapHandle, he, if_false] at hd ⊢
      exact getModuleIndex_getGlobalHandle h ⟨i, e.sensor⟩ hd
    have ht : (copyEventRemapHandle t e i).type = e.type := by simp [copyEventRemapHandle, he]
    rw [hp]
    by_cases hm : m = i
    · subst hm; simp [isEventOf, ht, he, hi]
    · have hne : (i : Int) ≠ m := by omega
      simp [isEventOf, ht, hi, hm, hne]

/-- A dropped event publishes nothing. -/
theorem publish_dropped {t : Tables} (h : TablesWf t) (e : Event) (i : Nat)
    (hd : (copyEventRemapHandle t e i).sensor = -1) : publish t i e = none := by
  by_cases he : e.type = sensorTypeMetaData
  · simp [publish, he]
  · rw [copyEvent_publish h e i he, if_pos hd]

/-- Flush completions are META_DATA records and so belong to no event stream. -/
theorem filter_emitted (t : Tables) (m : Nat) (ps : List PendingFlush) :
    (ps.map fun p => flushComplete p.handle).filter (isEventOf t m) = [] := by
  apply List.filter_eq_nil_iff.mpr
  intro e he
  obtain ⟨p, -, rfl⟩ := List.mem_map.mp he
  simp [isEventOf, flushComplete]

theorem consume_batch (s : State) (m : Nat) : ((consume s).writers m).batch = (s.writers m).batch := by
  rw [consume_writers]
  by_cases he : m = s.nextReadIndex
  · subst he
    rw [Function.update_self]
    split <;> simp
  · rw [Function.update_of_ne he]

theorem transit_consume {s : State} (hq : SensorEventQueue.Wf (s.queues s.nextReadIndex)) (e : Event)
    (he : SensorEventQueue.peek (s.queues s.nextReadIndex) = some e) (m : Nat) :
    transit s m = if m = s.nextReadIndex then e :: transit (consume s) m else transit (consume s) m := by
  simp only [transit, consume_rest, consume_batch]
  split
  · rename_i hm
    rw [hm, consume_readable hq e he]
    rfl
  · rename_i hm
    rw [consume_queues, Function.update_of_ne hm]

/-- The moves as the traffic sees them. -/
inductive Flow (hal : Hal) (s t : State) : Prop where
  | still (hd : delivered t = delivered s) (ht : ∀ m, transit t m = transit s m)
      (hv : ∀ m, validEvents (t.polls m) = validEvents (s.polls m))
      (hp : ∀ q ∈ t.pendingFlushes, q ∈ s.pendingFlushes ∨ getModuleIndex hal.tables q.handle ≠ -1)
  | polled (n : Nat) (batch : List Event) (hd : delivered t = delivered s)
      (ht : ∀ m, transit t m = transit s m ++ if m = n then batch else [])
      (hv : ∀ m, validEvents (t.polls m) = validEvents (s.polls m) ++ if m = n then batch else [])
      (hp : t.pendingFlushes = s.pendingFlushes)
  | emitted (ps : List PendingFlush)
      (hd : delivered t = delivered s ++ ps.map fun q => flushComplete q.handle)
      (hps : ∀ q ∈ ps, q ∈ s.pendingFlushes) (ht : ∀ m, transit t m = transit s m)
      (hv : t.polls = s.polls) (hp : ∀ q ∈ t.pendingFlushes, q ∈ s.pendingFlushes)
  | read (n : Nat) (e : Event) (ht : ∀ m, transit s m = if m = n then e :: transit t m else transit t m)
      (hd : delivered t = delivered s ++
        if (copyEventRemapHandle hal.tables e n).sensor = -1 then []
        else [copyEventRemapHandle hal.tables e n])
      (hv : t.polls = s.polls) (hp : t.pendingFlushes = s.pendingFlushes)

theorem Flow.quiet {hal : Hal} {s t : State} (hd : delivered t = delivered s)
    (ht : ∀ m, transit t m = transit s m) (hv : t.polls = s.polls)
    (hp : t.pendingFlushes = s.pendingFlushes) : Flow hal s t := by
  refine .still hd ht (fun m => by rw [hv]) ?_
  intro q hq
  rw [hp] at hq
  exact .inl hq

theorem Move.flow {hal : Hal} {s t : State} (hok : Ok hal s) (hm : Move hal s t) : Flow hal s t := by
  cases hm with
  | waitTop n hm ho hw hf =>
    refine .quiet rfl (transit_setWriter ?_) rfl rfl
    rcases hw with hw | ⟨woken, hw⟩ <;> simp [hw, Writer.rest, Writer.batch]
  | startPoll n hm ho hw =>
    refine .quiet rfl (transit_setWriter ?_) rfl rfl
    rcases hw with hw | ⟨woken, hw⟩ <;> simp [hw, Writer.rest, Writer.batch]
  | badPoll n r hw hr =>
    refine .still rfl (transit_setWriter ?_) ?_ (fun q hq => .inl hq)
    · simp [hw, Writer.rest, Writer.batch]
    · intro m
      by_cases hm : m = n
      · subst hm; simp [setWriter, validEvents, hr]
      · simp [setWriter, hm]
  | goodPoll n r hw hr =>
    refine .polled n (r.2.toList.take r.1.toNat) rfl ?_ ?_ rfl
    · intro m
      by_cases hm : m = n
      · subst hm; simp [transit, setWriter, hw, Writer.rest, Writer.batch]
      · simp [transit, setWriter, hm]
    · intro m
      by_cases hm : m = n
      · subst hm; simp [setWriter, validEvents, hr]
      · simp [setWriter, hm]
  | beginWrite n batch ho hw =>
    refine .quiet rfl (transit_same (n := n) ?_ ?_ ?_) rfl rfl
    · intro m hm; simp [setWriter, setQueue, hm]
    · intro m hm; simp [setWriter, setQueue, hm]
    · simp [transit, setWriter, setQueue, hw, Writer.rest, Writer.batch]
  | resumeWrite n rest woken ho hw =>
    exact .quiet rfl (transit_setWriter (by simp [hw, Writer.rest, Writer.batch])) rfl rfl
  | parkWrite n rest ho hw hf =>
    exact .quiet rfl (transit_setWriter (by simp [hw, Writer.rest, Writer.batch])) rfl rfl
  | chunk n rest ho hw hp hf =>
    have hchunk := hok.chunk hw hp hf
    refine .quiet (by simp [delivered, broadcastData, setWriter, setQueue])
      (transit_same (n := n) ?_ ?_ ?_) rfl rfl
    · intro m hm; simp [broadcastData, setWriter, setQueue, hm]
    · intro m hm; simp [broadcastData, setWriter, setQueue, hm]
    · simp [transit, broadcastData, setWriter, setQueue, hw, Writer.rest, Writer.batch, hchunk]
  | endWrite n rest ho hw hp =>
    obtain rfl := hok.written hw hp
    exact .quiet rfl (transit_setWriter (by simp [hw, Writer.rest, Writer.batch])) rfl rfl
  | pollCall n hn hc hr => exact .quiet (by simp [delivered, hr, Reader.data]) (fun _ => rfl) rfl rfl
  | enter n ho hr => exact .quiet (by simp [delivered, hr, Reader.data]) (fun _ => rfl) rfl rfl
  | resume n woken ho hr => exact .quiet (by simp [delivered, hr, Reader.data]) (fun _ => rfl) rfl rfl
  | emit l ho hr =>
    have hmem := Barrier.drain_subset (flushReady s.consumedEvents) (l.maxReads - l.data.length)
      s.pendingFlushes
    refine .emitted (Barrier.drain (flushReady s.consumedEvents) (l.maxReads - l.data.length)
      s.pendingFlushes).1 ?_ (fun q hq => hmem q (.inl hq)) (fun _ => rfl) rfl
      fun q hq => hmem q (.inr hq)
    simp [delivered, emitInto, emitReadyFlushes, hr, Reader.data]
  | skip l ho hr he hlt =>
    exact .quiet (by simp [delivered, hr, Reader.data, advance]) (fun _ => rfl) rfl rfl
  | drop l e ho hr hready he hd =>
    refine .read s.nextReadIndex e (transit_consume (hok.queue s.nextReadIndex).wf e he) ?_
      (consume_polls s) (consume_pendingFlushes s)
    simp [delivered, advance, consume_returned, hr, Reader.data, hd]
  | deliver l e ho hr hlen hready he hd =>
    obtain ⟨active, ha⟩ := disarmOneShot_frame hal s (copyEventRemapHandle hal.tables e s.nextReadIndex)
    rw [ha]
    refine .read s.nextReadIndex e (fun m => ?_) ?_ (consume_polls _) (consume_pendingFlushes _)
    · have htr := transit_consume (hok.queue s.nextReadIndex).wf e he m
      simpa only [transit, advance, consume_queues, consume_writers] using htr
    · simp [delivered, advance, consume_returned, hr, Reader.data, hd]
  | park l ho hr hd hready hlt =>
    exact .quiet (by simp [delivered, hr, Reader.data, hd]) (fun _ => rfl) rfl rfl
  | ret l ho hr hd => exact .quiet (by simp [delivered, hr, Reader.data]) (fun _ => rfl) rfl rfl
  | flush handle n ho hm hlt =>
    refine .still (by simp [delivered, broadcastData]) (fun _ => rfl) (fun _ => rfl) ?_
    intro q hq
    rcases List.mem_append.mp hq with hq | hq
    · exact .inl hq
    · rw [List.mem_singleton.mp hq, hm]
      exact .inr (by omega)
  | activate => exact .quiet rfl (fun _ => rfl) rfl rfl

theorem Conserved.flow {hal : Hal} {s t : State} (h : Conserved hal s) (hf : Flow hal s t) :
    Conserved hal t := by
  have hwf : TablesWf hal.tables := lazyInit_wf hal.modules
  intro m
  have hm := h m
  cases hf with
  | still hd ht hv hp => simpa only [deliveredFor, hd, ht, hv] using hm
  | polled n batch hd ht hv hp =>
    simp only [deliveredFor, hd, ht, hv, List.filterMap_append, ← List.append_assoc]
    rw [← hm]
    rfl
  | emitted ps hd hps ht hv hp =>
    simp only [deliveredFor, hd, ht, hv, List.filter_append, filter_emitted, List.append_nil]
    exact hm
  | read n e ht hd hv hp =>
    have htr := ht m
    have hfor : deliveredFor hal t m = deliveredFor hal s m ++
        if m = n then (publish hal.tables n e).toList else [] := by
      simp only [deliveredFor, hd, List.filter_append]
      split
      · rename_i hdrop
        rw [publish_dropped hwf e n hdrop]
        simp
      · rename_i hkeep
        rw [isEventOf_copyEvent hwf e n m hkeep]
    rw [hfor, hv, ← hm, htr]
    split
    · rename_i hn
      rw [hn, List.filterMap_cons, List.append_assoc]
      cases publish hal.tables n e <;> simp
    · simp

theorem initial_conserved (hal : Hal) (s : State) (h : Initial s) : Conserved hal s := by
  obtain ⟨hq, -, -, -, -, -, -, hw, hr, hret, hp, -⟩ := h
  intro m
  obtain ⟨data, hd⟩ := hq m
  simp [deliveredFor, delivered, transit, hr, hret, hp, hw, hd, Reader.data, Writer.rest, Writer.batch,
    validEvents]

theorem Reachable.conserved {hal : Hal} {s : State} (h : Reachable hal s) : Conserved hal s :=
  (Reachable.of_moves (Conserved hal) (initial_conserved hal)
    (fun _ _ hok hs hm => hs.flow (hm.flow hok)) h).2

/-- In every reachable state and for every module: what was delivered, then what
is readable, then what `write()` still has to copy, then a polled batch that is
waiting, is what the valid batches contained. -/
theorem events_delivered_in_order (hal : Hal) (s : State) (h : Reachable hal s) (m : Nat) :
    deliveredFor hal s m ++
      (readable (s.queues m)).filterMap (publish hal.tables m) ++
      (s.writers m).rest.filterMap (publish hal.tables m) ++
      (s.writers m).batch.filterMap (publish hal.tables m) =
    (validEvents (s.polls m)).filterMap (publish hal.tables m) := by
  have hc := h.conserved m
  simpa only [transit, List.filterMap_append, List.append_assoc] using hc

theorem pair_delivered_in_order :
    let s := (sampleRun samplePair).get (by decide)
    deliveredFor sampleHal s 0 = [sampleEvent 1 0] ∧
    deliveredFor sampleHal s 0 ++
      (readable (s.queues 0)).filterMap (publish sampleHal.tables 0) ++
      (s.writers 0).rest.filterMap (publish sampleHal.tables 0) ++
      (s.writers 0).batch.filterMap (publish sampleHal.tables 0) =
    (validEvents (s.polls 0)).filterMap (publish sampleHal.tables 0) :=
  ⟨by decide, events_delivered_in_order sampleHal _ (sampleRun_reachable samplePair _) 0⟩

end Multihal
