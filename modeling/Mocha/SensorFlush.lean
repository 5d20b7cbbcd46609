import Mathlib.Algebra.Group.Nat.Defs
import Mocha.SensorDelivery

/-!
# The software flush barrier

The arrivals of a module are the events that entered `write()` and the flush
requests that were accepted, in the order in which both happened. What `poll`
hands out for the module is always a prefix of them: each completion sits in
the stream of records exactly where its request sits among the arrivals.
-/
namespace Multihal

open SensorHandles
open SensorEventQueue (Queue readable)
open Barrier (Item events marks barriers)

/-- The record, if any, that an arrival becomes upstream. -/
def publishItem (t : Tables) (m : Nat) : Item Event Int → Option Event
  | .event e => publish t m e
  | .mark handle => some (flushComplete handle)

/-- A record about a sensor of module `m`: an event, or a META_DATA record. -/
def isRecordOf (t : Tables) (m : Nat) (e : Event) : Bool :=
  if e.type = sensorTypeMetaData then getModuleIndex t e.metaData.sensor == m
  else getModuleIndex t e.sensor == m

def recordsFor (hal : Hal) (s : State) (m : Nat) : List Event :=
  (delivered s).filter (isRecordOf hal.tables m)

/-- The requests of module `m` that are still pending, in queue order. -/
def pendingFor (s : State) (m : Nat) : List PendingFlush :=
  s.pendingFlushes.filter fun p => p.moduleIndex == m

/-- Events of module `m` that are in its ring or in the current `write()`. -/
def accepted (s : State) (m : Nat) : List Event := readable (s.queues m) ++ (s.writers m).rest

/-- The handle of a `flush` for module `m` that returns 0. -/
def flushed (hal : Hal) (m : Nat) (s : State) : Action → List Int
  | .flush handle =>
    if (flush hal s handle).1 = 0 ∧ getModuleIndex hal.tables handle = m then [handle] else []
  | _ => []

/-- No sub-HAL sent META_DATA, and no module 2^64 events. -/
def Legacy (s : State) : Prop :=
  ∀ m, (∀ e ∈ events (s.arrivals m), e.type ≠ sensorTypeMetaData) ∧
    (events (s.arrivals m)).length < 2 ^ 64

/-- The arrivals split into what `past` already was handed out and what is left. -/
structure Split (hal : Hal) (s : State) (m : Nat) (past left : List (Item Event Int)) : Prop where
  arrivals : s.arrivals m = past ++ left
  records : recordsFor hal s m = past.filterMap (publishItem hal.tables m)
  queued : events left = accepted s m
  pending : (pendingFor s m).map (fun p => (p.handle, p.afterEvent.toNat)) =
    barriers (events past).length left
  consumed : (s.consumedEvents m).toNat = (events past).length

structure Barred (hal : Hal) (s : State) : Prop where
  split : ∀ m, ∃ past left, Split hal s m past left
  owner : ∀ p ∈ s.pendingFlushes, getModuleIndex hal.tables p.handle = p.moduleIndex
  known : ∀ e ∈ delivered s, e.type = sensorTypeMetaData →
    ∃ m, getModuleIndex hal.tables e.metaData.sensor = (m : Nat)

theorem Move.arrivals_prefix {hal : Hal} {s t : State} (h : Move hal s t) (m : Nat) :
    s.arrivals m <+: t.arrivals m := by
  cases h with
  | beginWrite n batch ho hw =>
    by_cases he : m = n
    · subst he; simp [setWriter, setQueue]
    · simp [setWriter, setQueue, he]
  | flush handle n ho hm hlt =>
    by_cases he : m = n
    · subst he; simp [broadcastData]
    · simp [broadcastData, he]
  | drop => simp [advance]
  | deliver l e =>
    obtain ⟨active, ha⟩ := disarmOneShot_frame hal s (copyEventRemapHandle hal.tables e s.nextReadIndex)
    simp [advance, ha]
  | _ => exact List.prefix_rfl

/-- The assumption on the sub-HALs looks back: it held before every move. -/
theorem Legacy.back {hal : Hal} {s t : State} (h : Legacy t) (hm : Move hal s t) : Legacy s := by
  intro m
  obtain ⟨tail, ht⟩ := hm.arrivals_prefix m
  obtain ⟨h₁, h₂⟩ := h m
  rw [← ht, Barrier.events_append] at h₁ h₂
  rw [List.length_append] at h₂
  exact ⟨fun e he => h₁ e (List.mem_append_left _ he), by omega⟩

theorem Split.frame {hal : Hal} {s t : State} {m : Nat} {past left : List (Item Event Int)}
    (h : Split hal s m past left) (ha : t.arrivals m = s.arrivals m)
    (hr : recordsFor hal t m = recordsFor hal s m) (hq : accepted t m = accepted s m)
    (hp : pendingFor t m = pendingFor s m) (hc : t.consumedEvents m = s.consumedEvents m) :
    Split hal t m past left :=
  ⟨ha.trans h.arrivals, hr.trans h.records, h.queued.trans hq.symm, by rw [hp]; exact h.pending,
    by rw [hc]; exact h.consumed⟩

/-- Emitted completions for module `m` are those of its own requests. -/
theorem filter_completions {hal : Hal} (m : Nat) (ps : List PendingFlush)
    (h : ∀ p ∈ ps, getModuleIndex hal.tables p.handle = p.moduleIndex) :
    (ps.map fun p => flushComplete p.handle).filter (isRecordOf hal.tables m) =
      (ps.filter fun p => p.moduleIndex == m).map fun p => flushComplete p.handle := by
  rw [List.filter_map]
  congr 1
  apply List.filter_congr
  intro p hp
  have hi := h p hp
  simp only [Function.comp, isRecordOf, flushComplete, if_true, hi]
  by_cases he : p.moduleIndex = m
  · simp [he]
  · have hne : (p.moduleIndex : Int) ≠ m := by omega
    simp [he, hne]

/-- A request is ready exactly when as many events as it waits for were consumed. -/
theorem flushReady_iff (consumed : Nat → UInt64) (p : PendingFlush) :
    flushReady consumed p = true ↔ p.afterEvent.toNat ≤ (consumed p.moduleIndex).toNat := by
  simp [flushReady, UInt64.lt_iff_toNat_lt]

/-- The requests of a module: first those that are ready, which wait for nothing
but what was consumed, then those behind the next event. -/
theorem Split.ready {hal : Hal} {s : State} {m : Nat} {past left : List (Item Event Int)}
    (h : Split hal s m past left) :
    ∃ (hs : List Int) (rest : List (Item Event Int)) (r w : List PendingFlush),
      left = hs.map .mark ++ rest ∧ (rest = [] ∨ ∃ e tail, rest = .event e :: tail) ∧
      pendingFor s m = r ++ w ∧ r.map (fun p => p.handle) = hs ∧
      w.map (fun p => (p.handle, p.afterEvent.toNat)) = barriers (events past).length rest ∧
      (∀ p ∈ r, flushReady s.consumedEvents p = true ∧ p.afterEvent.toNat = (events past).length) ∧
      ∀ p ∈ w, flushReady s.consumedEvents p = false := by
  obtain ⟨hs, rest, rfl, hrest⟩ := Barrier.exists_due left
  have hp := h.pending
  rw [Barrier.barriers_append, Barrier.barriers_map_mark, Barrier.events_map_mark] at hp
  obtain ⟨r, w, hrw, hr, hw⟩ := List.map_eq_append_iff.mp hp
  have hmod : ∀ p ∈ r ++ w, p.moduleIndex = m := by
    intro p hp
    rw [← hrw] at hp
    simpa using (List.mem_filter.mp hp).2
  have hdue : ∀ p ∈ r, p.afterEvent.toNat = (events past).length := by
    intro p hp
    have hmem : (p.handle, p.afterEvent.toNat) ∈ hs.map fun h => (h, (events past).length) := by
      rw [← hr]; exact List.mem_map_of_mem hp
    obtain ⟨x, -, hx⟩ := List.mem_map.mp hmem
    exact (Prod.mk.inj hx).2.symm
  refine ⟨hs, rest, r, w, rfl, hrest, hrw, ?_, by simpa using hw, ?_, ?_⟩
  · have := congrArg (List.map Prod.fst) hr
    simpa [Function.comp_def] using this
  · intro p hp
    refine ⟨?_, hdue p hp⟩
    rw [flushReady_iff, hmod p (List.mem_append_left _ hp), h.consumed, hdue p hp]
  · intro p hp
    have hmem : (p.handle, p.afterEvent.toNat) ∈ barriers (events past).length rest := by
      have := List.mem_map_of_mem (f := fun p : PendingFlush => (p.handle, p.afterEvent.toNat)) hp
      simpa [hw] using this
    have hlt := Barrier.barriers_later _ _ hrest _ hmem
    rw [← Bool.not_eq_true, flushReady_iff, hmod p (List.mem_append_right _ hp), h.consumed]
    simp only at hlt
    omega

theorem Split.emit {hal : Hal} {s : State} {m : Nat} {past left : List (Item Event Int)}
    (h : Split hal s m past left) (l : PollLocals) (hr : s.reader = .scan l)
    (hown : ∀ p ∈ s.pendingFlushes, getModuleIndex hal.tables p.handle = p.moduleIndex) :
    ∃ past' left', Split hal { (emitInto s l).1 with reader := .scan (emitInto s l).2 } m past' left' := by
  obtain ⟨hs, rest, r, w, rfl, hrest, hrw, hhs, hw, hready, hwait⟩ := h.ready
  obtain ⟨k, h₁, h₂⟩ := Barrier.drain_filter (flushReady s.consumedEvents)
    (fun p => p.moduleIndex == m) (l.maxReads - l.data.length) s.pendingFlushes r w hrw
    (fun p hp => (hready p hp).1) hwait
  have hk : (hs.take k).map (fun h => flushComplete h) = (r.take k).map fun p => flushComplete p.handle := by
    rw [← hhs, ← List.map_take, List.map_map]; rfl
  refine ⟨past ++ (hs.take k).map .mark, (hs.drop k).map .mark ++ rest, ?_, ?_, ?_, ?_, ?_⟩
  · have hsplit : hs.map (Item.mark : Int → Item Event Int) =
        (hs.take k).map .mark ++ (hs.drop k).map .mark := by
      rw [← List.map_append, List.take_append_drop]
    rw [List.append_assoc, ← List.append_assoc ((hs.take k).map _), ← hsplit]
    exact h.arrivals
  · have hrec := h.records
    simp only [recordsFor, delivered, hr, Reader.data] at hrec
    simp only [recordsFor, delivered, emitInto, emitReadyFlushes, Reader.data, ← List.append_assoc]
    rw [List.filter_append, hrec, filter_completions m _ (fun p hp =>
      hown p (Barrier.drain_subset _ _ _ p (.inl hp))), h₁, List.filterMap_append, List.filterMap_map]
    congr 1
    rw [← hk]
    simp [Function.comp_def, publishItem, List.filterMap_eq_map']
  · have hq := h.queued
    rw [Barrier.events_append, Barrier.events_map_mark] at hq ⊢
    exact hq
  · have hpend : pendingFor { (emitInto s l).1 with reader := .scan (emitInto s l).2 } m =
        r.drop k ++ w := h₂
    have hdrop : (r.drop k).map (fun p => (p.handle, p.afterEvent.toNat)) =
        (hs.drop k).map fun h => (h, (events past).length) := by
      rw [← hhs, ← List.map_drop, List.map_map]
      apply List.map_congr_left
      intro p hp
      simp [(hready p (List.mem_of_mem_drop hp)).2]
    rw [hpend, List.map_append, hdrop, hw, Barrier.events_append, Barrier.events_map_mark,
      List.append_nil, Barrier.barriers_append, Barrier.barriers_map_mark, Barrier.events_map_mark]
    rfl
  · rw [Barrier.events_append, Barrier.events_map_mark, List.append_nil]
    exact h.consumed

/-- The next event of a module with no ready request is also its next arrival. -/
theorem Split.next {hal : Hal} {s : State} {m : Nat} {past left : List (Item Event Int)}
    (h : Split hal s m past left) (hready : NoneReady s) (e : Event) (tail : List Event)
    (he : accepted s m = e :: tail) : ∃ left', left = .event e :: left' ∧ events left' = tail := by
  obtain ⟨hs, rest, r, w, rfl, hrest, hrw, hhs, hw, hr, -⟩ := h.ready
  obtain rfl : r = [] := by
    cases r with
    | nil => rfl
    | cons p r =>
      have hmem : p ∈ pendingFor s m := by rw [hrw]; simp
      have h₁ := hready p (List.mem_filter.mp hmem).1
      have h₂ := (hr p (by simp)).1
      rw [h₁] at h₂
      exact absurd h₂ (by decide)
  obtain rfl : hs = [] := hhs.symm
  have hq := h.queued
  rw [he] at hq
  rcases hrest with rfl | ⟨e', left', rfl⟩
  · simp [events] at hq
  · simp only [List.map_nil, List.nil_append, events, List.cons.injEq] at hq
    exact ⟨left', by simp [hq.1], hq.2⟩

theorem Split.consume {hal : Hal} {s t : State} {past left : List (Item Event Int)}
    (h : Split hal s s.nextReadIndex past left) (hready : NoneReady s)
    (hq : SensorEventQueue.Wf (s.queues s.nextReadIndex)) (e : Event)
    (he : SensorEventQueue.peek (s.queues s.nextReadIndex) = some e)
    (hlen : (events (s.arrivals s.nextReadIndex)).length < 2 ^ 64)
    (ha : t.arrivals = s.arrivals) (hp : t.pendingFlushes = s.pendingFlushes)
    (hacc : accepted t s.nextReadIndex = accepted (consume s) s.nextReadIndex)
    (hc : t.consumedEvents = (Multihal.consume s).consumedEvents)
    (hrec : recordsFor hal t s.nextReadIndex =
      recordsFor hal s s.nextReadIndex ++ (publish hal.tables s.nextReadIndex e).toList) :
    ∃ past' left', Split hal t s.nextReadIndex past' left' := by
  have hhead : accepted s s.nextReadIndex = e :: accepted t s.nextReadIndex := by
    rw [hacc]
    simp only [accepted, consume_rest, consume_readable hq e he]
    rfl
  obtain ⟨left', rfl, hleft⟩ := h.next hready e _ hhead
  have hpast : events (past ++ [Item.event e]) = events past ++ [e] := by
    rw [Barrier.events_append]; rfl
  refine ⟨past ++ [.event e], left', ?_, ?_, hleft, ?_, ?_⟩
  · rw [ha, h.arrivals]; simp
  · rw [hrec, h.records, List.filterMap_append]
    simp only [List.filterMap_cons, List.filterMap_nil, publishItem]
    cases publish hal.tables s.nextReadIndex e <;> rfl
  · have hpend := h.pending
    simp only [barriers] at hpend
    simpa only [pendingFor, hp, hpast, List.length_append, List.length_cons, List.length_nil] using hpend
  · rw [h.arrivals, Barrier.events_append, List.length_append] at hlen
    simp only [events, List.length_cons] at hlen
    rw [hc, consume_consumedEvents, Function.update_self, hpast, List.length_append]
    have hcons := h.consumed
    rw [UInt64.toNat_add, hcons]
    simp only [UInt64.toNat_one, List.length_cons, List.length_nil]
    omega

theorem Barred.frame {hal : Hal} {s t : State} (h : Barred hal s) (hd : delivered t = delivered s)
    (hp : t.pendingFlushes = s.pendingFlushes) (hc : t.consumedEvents = s.consumedEvents)
    (ha : t.arrivals = s.arrivals) (hq : ∀ m, accepted t m = accepted s m) : Barred hal t := by
  refine ⟨?_, by rw [hp]; exact h.owner, by rw [hd]; exact h.known⟩
  intro m
  obtain ⟨past, left, hs⟩ := h.split m
  exact ⟨past, left, hs.frame (by rw [ha]) (by simp only [recordsFor, hd]) (hq m)
    (by simp only [pendingFor, hp]) (by rw [hc])⟩

/-- A move of writer `n` alone keeps what the modules have accepted. -/
theorem accepted_same {s t : State} {n : Nat}
    (hq : ∀ m, m ≠ n → t.queues m = s.queues m) (hw : ∀ m, m ≠ n → t.writers m = s.writers m)
    (hn : accepted t n = accepted s n) (m : Nat) : accepted t m = accepted s m := by
  by_cases he : m = n
  · rw [he, hn]
  · simp only [accepted, hq m he, hw m he]

theorem accepted_setWriter {s : State} {n : Nat} {w : Writer} (h : w.rest = (s.writers n).rest)
    (m : Nat) : accepted (setWriter s n w) m = accepted s m := by
  refine accepted_same (s := s) (n := n) ?_ ?_ ?_ m
  · intro m _; rfl
  · intro m hm; simp [setWriter, hm]
  · simp only [accepted, setWriter, Function.update_self, h]

theorem Split.beginWrite {hal : Hal} {s : State} {m n : Nat} {past left : List (Item Event Int)}
    (h : Split hal s m past left) (batch : List Event) (hw : s.writers n = .polled batch) :
    ∃ past' left', Split hal (setWriter (setQueue { s with
        owner := some (.writer n)
        arrivals := Function.update s.arrivals n (s.arrivals n ++ batch.map .event) }
      n (SensorEventQueue.beginWrite (s.queues n) batch.length)) n (.writing batch)) m past' left' := by
  by_cases he : m = n
  · subst he
    refine ⟨past, left ++ batch.map .event, ?_, h.records, ?_, ?_, h.consumed⟩
    · simp [setWriter, setQueue, h.arrivals]
    · rw [Barrier.events_append, Barrier.events_map_event, h.queued]
      simp [accepted, setWriter, setQueue, hw, Writer.rest]
    · rw [Barrier.barriers_append, Barrier.barriers_map_event, List.append_nil]
      exact h.pending
  · exact ⟨past, left, h.frame (by simp [setWriter, setQueue, he]) rfl
      (by simp [accepted, setWriter, setQueue, he]) rfl rfl⟩

theorem Split.flush {hal : Hal} {s : State} {m n : Nat} {past left : List (Item Event Int)}
    (h : Split hal s m past left) (hok : Ok hal s) (handle : Int)
    (hlen : (events (s.arrivals m)).length < 2 ^ 64) :
    ∃ past' left', Split hal (broadcastData { s with
        pendingFlushes := s.pendingFlushes ++ [⟨handle, n, s.consumedEvents n +
          UInt64.ofNat (SensorEventQueue.getPendingSize (s.queues n))⟩]
        arrivals := Function.update s.arrivals n (s.arrivals n ++ [.mark handle]) }) m past' left' := by
  have hrec : ∀ t : State, t.returned = s.returned → t.reader = s.reader.wake →
      recordsFor hal t m = recordsFor hal s m := by
    intro t h₁ h₂; simp [recordsFor, delivered, h₁, h₂]
  by_cases he : m = n
  · subst he
    refine ⟨past, left ++ [.mark handle], ?_, ?_, ?_, ?_, h.consumed⟩
    · simp [broadcastData, h.arrivals]
    · exact Eq.trans (hrec (broadcastData _) rfl rfl) h.records
    · rw [Barrier.events_append, h.queued]; simp [accepted, broadcastData, events]
    · have hsize : SensorEventQueue.getPendingSize (s.queues m) = (events left).length := by
        rw [h.queued, accepted, List.length_append, SensorEventQueue.readable_length,
          ← (hok.queue m).pending]
        rfl
      rw [h.arrivals, Barrier.events_append, List.length_append] at hlen
      have hafter : (s.consumedEvents m + UInt64.ofNat
          (SensorEventQueue.getPendingSize (s.queues m))).toNat =
          (events past).length + (events left).length := by
        rw [UInt64.toNat_add, h.consumed, hsize, UInt64.toNat_ofNat']
        omega
      have hp := h.pending
      simp only [pendingFor] at hp
      rw [Barrier.barriers_append, ← hp]
      simp [pendingFor, broadcastData, barriers, hafter]
  · have hpend : pendingFor (broadcastData { s with
        pendingFlushes := s.pendingFlushes ++ [⟨handle, n, s.consumedEvents n +
          UInt64.ofNat (SensorEventQueue.getPendingSize (s.queues n))⟩]
        arrivals := Function.update s.arrivals n (s.arrivals n ++ [.mark handle]) }) m =
        pendingFor s m := by
      simp [pendingFor, broadcastData, Ne.symm he]
    exact ⟨past, left, h.frame (by simp [broadcastData, he]) (hrec _ rfl rfl) rfl hpend rfl⟩

/-- A read of the queue at `nextReadIndex` that adds `records` to the output. -/
theorem Barred.consume {hal : Hal} {s t : State} (h : Barred hal s) (hok : Ok hal s) (hl : Legacy s)
    (hready : NoneReady s) (e : Event)
    (he : SensorEventQueue.peek (s.queues s.nextReadIndex) = some e) (records : List Event)
    (hq : t.queues = (Multihal.consume s).queues) (hw : t.writers = (Multihal.consume s).writers)
    (hc : t.consumedEvents = (Multihal.consume s).consumedEvents)
    (ha : t.arrivals = s.arrivals) (hp : t.pendingFlushes = s.pendingFlushes)
    (hd : delivered t = delivered s ++ records)
    (hnormal : ∀ r ∈ records, r.type ≠ sensorTypeMetaData)
    (hrec : ∀ m, records.filter (isEventOf hal.tables m) =
      if m = s.nextReadIndex then (publish hal.tables s.nextReadIndex e).toList else []) :
    Barred hal t := by
  have hsame : ∀ m, records.filter (isRecordOf hal.tables m) = records.filter (isEventOf hal.tables m) := by
    intro m
    apply List.filter_congr
    intro r hr
    simp [isRecordOf, isEventOf, hnormal r hr, beq_eq_decide]
  have hrecords : ∀ m, recordsFor hal t m = recordsFor hal s m ++
      if m = s.nextReadIndex then (publish hal.tables s.nextReadIndex e).toList else [] := by
    intro m
    simp only [recordsFor, hd, List.filter_append, hsame, hrec]
  refine ⟨?_, by rw [hp]; exact h.owner, ?_⟩
  · intro m
    obtain ⟨past, left, hs⟩ := h.split m
    by_cases hm : m = s.nextReadIndex
    · subst hm
      refine hs.consume hready (hok.queue _).wf e he (hl _).2 ha hp ?_ hc ?_
      · simp only [accepted, hq, hw]
      · rw [hrecords, if_pos rfl]
    · refine ⟨past, left, hs.frame (by rw [ha]) (by rw [hrecords, if_neg hm, List.append_nil]) ?_
        (by simp only [pendingFor, hp]) ?_⟩
      · simp only [accepted, hq, hw, consume_rest, consume_queues, Function.update_of_ne hm]
      · rw [hc, consume_consumedEvents, Function.update_of_ne hm]
  · intro r hr hmeta
    rw [hd] at hr
    rcases List.mem_append.mp hr with hr | hr
    · exact h.known r hr hmeta
    · exact absurd hmeta (hnormal r hr)

theorem Barred.move {hal : Hal} {s t : State} (h : Barred hal s) (hok : Ok hal s) (hl : Legacy s)
    (hm : Move hal s t) : Barred hal t := by
  have hwf : TablesWf hal.tables := lazyInit_wf hal.modules
  cases hm with
  | waitTop n hm ho hw hf =>
    exact h.frame rfl rfl rfl rfl (accepted_setWriter (Writer.rest_atHead hw).symm)
  | startPoll n hm ho hw =>
    exact h.frame rfl rfl rfl rfl (accepted_setWriter (Writer.rest_atHead hw).symm)
  | badPoll n r hw hr => exact h.frame rfl rfl rfl rfl (accepted_setWriter (by simp [hw, Writer.rest]))
  | goodPoll n r hw hr => exact h.frame rfl rfl rfl rfl (accepted_setWriter (by simp [hw, Writer.rest]))
  | resumeWrite n rest woken ho hw =>
    exact h.frame rfl rfl rfl rfl (accepted_setWriter (by simp [hw, Writer.rest]))
  | parkWrite n rest ho hw hf =>
    exact h.frame rfl rfl rfl rfl (accepted_setWriter (by simp [hw, Writer.rest]))
  | chunk n rest ho hw hp hf =>
    have hchunk := hok.chunk hw hp hf
    refine h.frame (by simp [delivered, broadcastData, setWriter, setQueue]) rfl rfl rfl
      (accepted_same (n := n) ?_ ?_ ?_)
    · intro m hm; simp [broadcastData, setWriter, setQueue, hm]
    · intro m hm; simp [broadcastData, setWriter, setQueue, hm]
    · simp [accepted, broadcastData, setWriter, setQueue, hw, Writer.rest, hchunk]
  | endWrite n rest ho hw hp =>
    obtain rfl := hok.written hw hp
    exact h.frame rfl rfl rfl rfl (accepted_setWriter (by simp [hw, Writer.rest]))
  | pollCall n hn hc hr =>
    exact h.frame (by simp [delivered, hr, Reader.data]) rfl rfl rfl (fun _ => rfl)
  | enter n ho hr => exact h.frame (by simp [delivered, hr, Reader.data]) rfl rfl rfl (fun _ => rfl)
  | resume n woken ho hr =>
    exact h.frame (by simp [delivered, hr, Reader.data]) rfl rfl rfl (fun _ => rfl)
  | skip l ho hr he hlt =>
    exact h.frame (by simp [delivered, hr, Reader.data, advance]) rfl rfl rfl (fun _ => rfl)
  | park l ho hr hd hready hlt =>
    exact h.frame (by simp [delivered, hr, Reader.data, hd]) rfl rfl rfl (fun _ => rfl)
  | ret l ho hr hd => exact h.frame (by simp [delivered, hr, Reader.data]) rfl rfl rfl (fun _ => rfl)
  | activate => exact h.frame rfl rfl rfl rfl (fun _ => rfl)
  | beginWrite n batch ho hw =>
    refine ⟨?_, h.owner, h.known⟩
    intro m
    obtain ⟨past, left, hs⟩ := h.split m
    exact hs.beginWrite batch hw
  | flush handle n ho hn hlt =>
    refine ⟨?_, ?_, ?_⟩
    · intro m
      obtain ⟨past, left, hs⟩ := h.split m
      exact hs.flush hok handle (hl m).2
    · intro p hp
      rcases List.mem_append.mp hp with hp | hp
      · exact h.owner p hp
      · rw [List.mem_singleton.mp hp]; exact hn
    · intro e he
      exact h.known e (by simpa [delivered, broadcastData] using he)
  | emit l ho hr =>
    refine ⟨?_, ?_, ?_⟩
    · intro m
      obtain ⟨past, left, hs⟩ := h.split m
      exact hs.emit l hr h.owner
    · intro p hp
      exact h.owner p (Barrier.drain_subset _ _ _ p (.inr hp))
    · intro e he hmeta
      simp only [delivered, emitInto, emitReadyFlushes, Reader.data, ← List.append_assoc] at he
      rcases List.mem_append.mp he with he | he
      · exact h.known e (by simpa [delivered, hr, Reader.data] using he) hmeta
      · obtain ⟨p, hp, rfl⟩ := List.mem_map.mp he
        exact ⟨p.moduleIndex, h.owner p (Barrier.drain_subset _ _ _ p (.inl hp))⟩
  | drop l e ho hr hready he hd =>
    refine h.consume hok hl hready e he [] rfl rfl rfl (consume_arrivals s) (consume_pendingFlushes s)
      ?_ (by simp) ?_
    · simp [delivered, advance, hr, Reader.data]
    · intro m
      rw [publish_dropped hwf e s.nextReadIndex hd]
      simp
  | deliver l e ho hr hlen hready he hd =>
    obtain ⟨active, ha⟩ := disarmOneShot_frame hal s (copyEventRemapHandle hal.tables e s.nextReadIndex)
    have hnormal : e.type ≠ sensorTypeMetaData := by
      obtain ⟨past, left, hs⟩ := h.split s.nextReadIndex
      have hread := consume_readable (hok.queue s.nextReadIndex).wf e he
      have hmem : e ∈ events left := by rw [hs.queued, accepted, hread]; simp
      exact (hl s.nextReadIndex).1 e (by rw [hs.arrivals, Barrier.events_append]; simp [hmem])
    rw [ha]
    refine h.consume hok hl hready e he [copyEventRemapHandle hal.tables e s.nextReadIndex]
      ?_ ?_ ?_ ?_ ?_ ?_ ?_ ?_
    · simp only [advance, consume_queues]
    · simp only [advance, consume_writers]
    · simp only [advance, consume_consumedEvents]
    · simp only [advance, consume_arrivals]
    · simp only [advance, consume_pendingFlushes]
    · simp [delivered, advance, hr, Reader.data]
    · simp [copyEventRemapHandle, hnormal]
    · intro m
      exact isEventOf_copyEvent hwf e s.nextReadIndex m hd

theorem initial_barred (hal : Hal) (s : State) (h : Initial s) : Barred hal s := by
  obtain ⟨hq, hc, hp, -, -, -, -, hw, hr, hret, -, ha⟩ := h
  refine ⟨?_, by simp [hp], by simp [delivered, hr, hret, Reader.data]⟩
  intro m
  obtain ⟨data, hd⟩ := hq m
  refine ⟨[], [], by simp [ha], ?_, ?_, by simp [pendingFor, hp, barriers], by simp [hc, events]⟩
  · simp [recordsFor, delivered, hr, hret, Reader.data]
  · simp [accepted, hw, hd, Writer.rest, events]

theorem Reachable.barred {hal : Hal} {s : State} (h : Reachable hal s) (hl : Legacy s) : Barred hal s :=
  (Reachable.of_moves (fun s => Legacy s → Barred hal s) (fun s hs _ => initial_barred hal s hs)
    (fun _ _ hok hs hm hl => (hs (hl.back hm)).move hok (hl.back hm) hm) h).2 hl

/-- The handles of a stream of records that are flush completions. -/
def completions (records : List Event) : List Int :=
  (records.filter fun e => e.type == sensorTypeMetaData).map fun e => e.metaData.sensor

theorem completions_publish (t : Tables) (m : Nat) (items : List (Item Event Int)) :
    completions (items.filterMap (publishItem t m)) = marks items := by
  induction items with
  | nil => rfl
  | cons x items ih =>
    cases x with
    | mark h => simpa [publishItem, marks, completions, flushComplete] using ih
    | event e =>
      simp only [List.filterMap_cons, publishItem, marks]
      cases hp : publish t m e with
      | none => exact ih
      | some r =>
        have hr : r.type ≠ sensorTypeMetaData := by
          simp only [publish] at hp
          split at hp
          · cases hp
          · obtain ⟨g, -, rfl⟩ := Option.map_eq_some_iff.mp hp
            assumption
        simpa [completions, hr] using ih

theorem readQueue_arrivals (hal : Hal) (s : State) (l : PollLocals) :
    (readQueue hal s l).1.arrivals = s.arrivals := by
  unfold readQueue
  split
  · rfl
  · rename_i e he
    obtain ⟨active, ha⟩ :=
      disarmOneShot_frame hal s (copyEventRemapHandle hal.tables e s.nextReadIndex)
    dsimp only
    split
    · exact consume_arrivals s
    · rw [ha]
      exact consume_arrivals _

theorem pollStep_arrivals (hal : Hal) (s : State) (l : PollLocals) :
    (pollStep hal s l).arrivals = s.arrivals := by
  unfold pollStep
  split
  · unfold pollTurn
    dsimp only
    split
    · rfl
    · exact readQueue_arrivals hal (emitInto s l).1 (emitInto s l).2
  · unfold pollTail
    dsimp only
    split <;> rfl

/-- `flush` returns 0 exactly when it makes its request. -/
theorem flush_marks (hal : Hal) (s : State) (handle : Int) (m : Nat) :
    marks ((flush hal s handle).2.arrivals m) =
      marks (s.arrivals m) ++ flushed hal m s (.flush handle) := by
  have hrefused {r : Int × State} (hr : r = (-einval, s)) : marks (r.2.arrivals m) =
      marks (s.arrivals m) ++
        if r.1 = 0 ∧ getModuleIndex hal.tables handle = m then [handle] else [] := by
    have hne : ¬(-einval = 0 ∧ getModuleIndex hal.tables handle = m) := fun h => absurd h.1 (by decide)
    rw [hr, if_neg hne, List.append_nil]
  unfold flushed flush
  dsimp only
  split
  · exact hrefused rfl
  · split
    · exact hrefused rfl
    · rename_i hindex
      simp only [not_or] at hindex
      split
      · exact hrefused rfl
      · have hm : (m : Int) = getModuleIndex hal.tables handle ↔
            m = (getModuleIndex hal.tables handle).toNat := by omega
        by_cases he : m = (getModuleIndex hal.tables handle).toNat
        · rw [if_pos ⟨rfl, (hm.mpr he).symm⟩]
          simp [broadcastData, ← he, marks, Barrier.marks_append]
        · rw [if_neg (fun h => he (hm.mp h.2.symm))]
          simp [broadcastData, he]

/-- The requests of a module are the calls of `flush` for it that returned 0. -/
theorem step_marks {hal : Hal} {s t : State} {a : Action} (h : step hal s a = some t) (m : Nat) :
    marks (t.arrivals m) = marks (s.arrivals m) ++ flushed hal m s a := by
  have hsame (ha : flushed hal m s a = []) (ht : t.arrivals = s.arrivals) :
      marks (t.arrivals m) = marks (s.arrivals m) ++ flushed hal m s a := by
    rw [ha, ht, List.append_nil]
  cases a with
  | writerLock n =>
    obtain ⟨-, h⟩ := Option.ite_none_right_eq_some.mp h
    unfold writerLock at h
    split at h <;> cases h
    · exact hsame rfl (by unfold writerHead; split <;> rfl)
    · exact hsame rfl (by unfold writerHead; split <;> rfl)
    · rename_i batch hw
      have hnone : flushed hal m s (.writerLock n) = [] := rfl
      rw [hnone, List.append_nil]
      by_cases hm : m = n
      · subst hm
        simp [setWriter, setQueue]
      · simp [setWriter, setQueue, hm]
    · exact hsame rfl rfl
  | writerPolled n r =>
    obtain ⟨-, h⟩ := Option.ite_none_right_eq_some.mp h
    cases h
    exact hsame rfl (by unfold writerPolled; dsimp only; split <;> rfl)
  | writerRun n =>
    simp only [step] at h
    split at h
    · obtain ⟨-, h⟩ := Option.ite_none_right_eq_some.mp h
      cases h
      refine hsame rfl ?_
      unfold writeStep
      split
      · split <;> rfl
      · rfl
    · cases h
  | pollCall data n =>
    obtain ⟨-, h⟩ := Option.ite_none_right_eq_some.mp h
    cases h
    exact hsame rfl (by unfold pollCall; split <;> rfl)
  | readerLock =>
    obtain ⟨-, h⟩ := Option.ite_none_right_eq_some.mp h
    split at h <;> cases h
    · exact hsame rfl rfl
    · exact hsame rfl rfl
  | readerRun =>
    simp only [step] at h
    split at h
    · rename_i l hr
      obtain ⟨-, h⟩ := Option.ite_none_right_eq_some.mp h
      cases h
      exact hsame rfl (pollStep_arrivals hal s l)
    · cases h
  | flush handle =>
    obtain ⟨-, h⟩ := Option.ite_none_right_eq_some.mp h
    cases h
    exact flush_marks hal s handle m
  | activate handle enabled r =>
    obtain ⟨-, h⟩ := Option.ite_none_right_eq_some.mp h
    cases h
    refine hsame rfl ?_
    unfold activate
    dsimp only
    split
    · split <;> rfl
    · rfl

/-- In every reachable state, for every module: completions handed out, then
requests pending, are the accepted requests in order; and the completion of any
request is preceded by exactly the records of what arrived before it. No
META_DATA record exists that is not such a completion. What any step adds to the
accepted requests is the `flush` that returns 0. -/
theorem flush_is_barrier (hal : Hal) (s : State) (h : Reachable hal s) (hl : Legacy s) :
    (∀ m, completions (recordsFor hal s m) ++ (pendingFor s m).map (fun p => p.handle) =
      marks (s.arrivals m)) ∧
    (∀ m before handle after, s.arrivals m = before ++ .mark handle :: after →
      (∃ done todo, after = done ++ todo ∧
        recordsFor hal s m = before.filterMap (publishItem hal.tables m) ++
          [flushComplete handle] ++ done.filterMap (publishItem hal.tables m) ∧
        (pendingFor s m).map (fun p => p.handle) = marks todo ∧ events todo = accepted s m) ∨
      ∃ done todo, before = done ++ todo ∧
        recordsFor hal s m = done.filterMap (publishItem hal.tables m) ∧
        (pendingFor s m).map (fun p => p.handle) = marks todo ++ handle :: marks after ∧
        events todo ++ events after = accepted s m) ∧
    (∀ e ∈ delivered s, e.type = sensorTypeMetaData →
      ∃ m handle, e = flushComplete handle ∧ .mark handle ∈ s.arrivals m ∧
        getModuleIndex hal.tables handle = (m : Nat)) ∧
    ∀ a t m, step hal s a = some t →
      marks (t.arrivals m) = marks (s.arrivals m) ++ flushed hal m s a := by
  have hb := h.barred hl
  have hpend : ∀ m past left, Split hal s m past left →
      (pendingFor s m).map (fun p => p.handle) = marks left := by
    intro m past left hs
    have := congrArg (List.map Prod.fst) hs.pending
    simpa [Function.comp_def] using this
  refine ⟨?_, ?_, ?_, fun a t m ht => step_marks ht m⟩
  · intro m
    obtain ⟨past, left, hs⟩ := hb.split m
    rw [hpend m past left hs, hs.records, hs.arrivals, completions_publish, Barrier.marks_append]
  · intro m before handle after he
    obtain ⟨past, left, hs⟩ := hb.split m
    have hp := hpend m past left hs
    have hq := hs.queued
    rw [hs.arrivals] at he
    rcases Barrier.item_place (publishItem hal.tables m) past left before after _ he with
      ⟨done, todo, rfl, rfl, hf⟩ | ⟨done, todo, rfl, rfl, hf⟩
    · exact .inl ⟨done, left, rfl, hs.records.trans hf, hp, hq⟩
    · refine .inr ⟨done, todo, rfl, hs.records.trans hf, ?_, ?_⟩
      · rw [hp, Barrier.marks_append]; rfl
      · rw [← hq, Barrier.events_append]; rfl
  · intro e he hmeta
    obtain ⟨m, hm⟩ := hb.known e he hmeta
    obtain ⟨past, left, hs⟩ := hb.split m
    have hrec : e ∈ recordsFor hal s m := List.mem_filter.mpr ⟨he, by simp [isRecordOf, hmeta, hm]⟩
    rw [hs.records] at hrec
    obtain ⟨x, hx, hpub⟩ := List.mem_filterMap.mp hrec
    cases x with
    | mark handle =>
      obtain rfl : flushComplete handle = e := by simpa [publishItem] using hpub
      exact ⟨m, handle, rfl, by rw [hs.arrivals]; simp [hx], hm⟩
    | event e' =>
      simp only [publishItem, publish] at hpub
      split at hpub
      · cases hpub
      · obtain ⟨g, -, rfl⟩ := Option.map_eq_some_iff.mp hpub
        exact absurd hmeta (by assumption)

theorem pair_is_legacy : Legacy ((sampleRun samplePair).get (by decide)) := by
  intro m
  cases m with
  | zero => exact ⟨by decide, by decide⟩
  | succ m =>
    have he : ((sampleRun samplePair).get (by decide)).arrivals (m + 1) = [] := rfl
    rw [he]
    exact ⟨by simp [events], by simp [events]⟩

theorem pair_flush_is_barrier :
    let s := (sampleRun samplePair).get (by decide)
    recordsFor sampleHal s 0 = [sampleEvent 1 0, flushComplete 1] ∧
    completions (recordsFor sampleHal s 0) ++ (pendingFor s 0).map (fun p => p.handle) =
      marks (s.arrivals 0) :=
  ⟨by decide, (flush_is_barrier sampleHal _ (sampleRun_reachable samplePair _) pair_is_legacy).1 0⟩

end Multihal
