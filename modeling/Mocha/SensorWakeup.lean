import Mocha.MultihalMoves

/-!
# No lost wake-up

A broadcast only reaches the threads that wait when it is issued. The data
condition is broadcast after every chunk and every flush request, the space
condition only when a full queue loses an event; the reader decides to wait
after finding as many consecutive empty queues as there are.
-/
namespace Multihal

open SensorHandles
open SensorEventQueue (Queue)

/-- Parked in `waitForSpace`, with no broadcast since. -/
def Writer.Parked (w : Writer) : Prop := w = .waitTop false ∨ ∃ rest, w = .waitWrite rest false

/-- How many queues were visited after queue `m`, when `next` is next. -/
def age (n next m : Nat) : Nat := if m < next then next - 1 - m else next + n - 1 - m

/-- Nothing at all is deliverable. -/
def Idle (hal : Hal) (s : State) : Prop :=
  (∀ m, m < hal.queueCount → (s.queues m).size = 0) ∧ NoneReady s

structure Awake (hal : Hal) (s : State) : Prop where
  reader : ∀ n, s.reader = .parked n false → Idle hal s
  scan : ∀ l, s.reader = .scan l → ∀ m, m < hal.queueCount →
    age hal.queueCount s.nextReadIndex m < l.empties → (s.queues m).size = 0
  writer : ∀ m, (s.writers m).Parked → (s.queues m).size = (s.queues m).capacity

theorem Writer.not_parked_wake (w : Writer) : ¬w.wake.Parked := by
  cases w <;> simp [Writer.wake, Writer.Parked]

theorem Reader.not_parked_wake (r : Reader) (n : Nat) : r.wake ≠ .parked n false := by
  cases r <;> simp [Reader.wake]

/-- A writer parks on a full queue, and is woken when the queue stops being full. -/
theorem Local.parked {q q' : Queue Event} {w w' : Writer} (h : Local q w q' w')
    (hq : w.Parked → q.size = q.capacity) (hp : w'.Parked) : q'.size = q'.capacity := by
  cases h with
  | same => exact hq hp
  | waitTop _ _ hf => exact hf
  | parkWrite _ hf => exact hf
  | dequeue w hne =>
    obtain ⟨hb, -⟩ := SensorEventQueue.dequeue_broadcast q hne
    rw [hb] at hp
    split at hp
    · exact absurd hp w.not_parked_wake
    · rename_i hf
      exact absurd ((SensorEventQueue.full_iff q).mpr (hq hp)) hf
  | startPoll | badPoll | goodPoll | beginWrite | resumeWrite | chunk | endWrite =>
    simp [Writer.Parked] at hp

/-- Every queue is younger than one whole round. -/
theorem age_lt (n next m : Nat) (hm : m < n) (hn : next < n) : age n next m < n := by
  unfold age; split <;> omega

/-- Visiting queue `next` makes it the youngest and the others one older. -/
theorem age_advance (n next m e : Nat) (hm : m < n) (hn : next < n)
    (h : age n ((next + 1) % n) m < e + 1) : m = next ∨ age n next m < e := by
  have hmod : (next + 1 < n ∧ (next + 1) % n = next + 1) ∨ (next + 1 = n ∧ (next + 1) % n = 0) := by
    by_cases hlt : next + 1 < n
    · exact .inl ⟨hlt, Nat.mod_eq_of_lt hlt⟩
    · have he : next + 1 = n := by omega
      exact .inr ⟨he, by rw [he, Nat.mod_self]⟩
  unfold age at h ⊢
  rcases hmod with ⟨hlt, he⟩ | ⟨hlt, he⟩ <;> rw [he] at h <;> split at h <;> split <;> omega

/-- A reader parks only when all queues are empty. -/
theorem Move.awake_reader {hal : Hal} {s t : State} (h : Move hal s t) (hok : Ok hal s)
    (ha : Awake hal s) (n : Nat) (hn : t.reader = .parked n false) : Idle hal t := by
  cases h with
  | chunk => exact absurd hn (Reader.not_parked_wake _ _)
  | flush => exact absurd hn (Reader.not_parked_wake _ _)
  | beginWrite m batch ho hw =>
    obtain ⟨hq, hready⟩ := ha.reader n hn
    refine ⟨?_, hready⟩
    intro i hi
    by_cases he : i = m
    · subst he; simpa [setWriter, setQueue, SensorEventQueue.beginWrite] using hq i hi
    · simpa [setWriter, setQueue, he] using hq i hi
  | park l ho hr hd hready hlt =>
    refine ⟨?_, hready⟩
    intro m hm
    have hi := hok.index (by omega)
    have := age_lt hal.queueCount s.nextReadIndex m hm hi
    exact ha.scan l hr m hm (by omega)
  | pollCall | enter | resume | emit | skip | drop | deliver | ret => simp at hn
  | _ => exact ha.reader n hn

/-- While the reader scans, the queues that it has found empty still are. -/
theorem Move.awake_scan {hal : Hal} {s t : State} (h : Move hal s t) (hok : Ok hal s)
    (ha : Awake hal s) (l : PollLocals) (hl : t.reader = .scan l) (m : Nat) (hm : m < hal.queueCount)
    (hage : age hal.queueCount t.nextReadIndex m < l.empties) : (t.queues m).size = 0 := by
  have hholds : ∀ l, s.reader = .scan l → s.owner = some .reader := hok.readerHolds
  cases h with
  | beginWrite n batch ho hw => simp [hholds l hl] at ho
  | chunk n rest ho hw hp hf => simp [hholds l ((Reader.wake_eq_scan _ _).mp hl)] at ho
  | flush handle n ho hn hlt => simp [hholds l ((Reader.wake_eq_scan _ _).mp hl)] at ho
  | enter n ho hr => cases hl; simp at hage
  | resume n woken ho hr => cases hl; simp at hage
  | emit l' ho hr => cases hl; exact ha.scan l' hr m hm hage
  | skip l' ho hr he hlt =>
    cases hl
    rcases age_advance _ _ _ _ hm (hok.index (by omega)) hage with rfl | hold
    · exact he
    · exact ha.scan l' hr m hm hold
  | drop l' e ho hr hready he hd => cases hl; simp at hage
  | deliver l' e ho hr hlen hready he hd => cases hl; simp at hage
  | pollCall | park | ret => simp at hl
  | _ => exact ha.scan l hl m hm hage

theorem Awake.move {hal : Hal} {s t : State} (ha : Awake hal s) (hok : Ok hal s)
    (h : Move hal s t) : Awake hal t :=
  ⟨h.awake_reader hok ha, h.awake_scan hok ha, fun m => (h.local m).parked (ha.writer m)⟩

theorem initial_awake (hal : Hal) (s : State) (h : Initial s) : Awake hal s := by
  obtain ⟨-, -, -, -, -, -, -, hw, hr, -⟩ := h
  exact ⟨by simp [hr], by simp [hr], by simp [hw, Writer.Parked]⟩

theorem Reachable.awake {hal : Hal} {s : State} (h : Reachable hal s) : Awake hal s :=
  (Reachable.of_moves (Awake hal) (initial_awake hal) (fun _ _ hok ha hm => ha.move hok hm) h).2

/-- A reader that parks has not been woken yet. -/
theorem pollStep_parked (hal : Hal) (s : State) (l : PollLocals) (n : Nat) (woken : Bool)
    (h : (pollStep hal s l).reader = .parked n woken) : woken = false := by
  unfold pollStep pollTail at h
  split at h
  · simp at h
  · simp only at h
    split at h <;> simp_all

/-- A parked reader with no wake-up pending has nothing to deliver, a parked
writer with none pending has a full queue, so never both; and a turn of `poll`
that parks leaves nothing deliverable behind. -/
theorem no_lost_wakeup (hal : Hal) (s : State) (h : Reachable hal s) :
    (∀ n, s.reader = .parked n false →
      (∀ m, m < hal.queueCount → SensorEventQueue.peek (s.queues m) = none) ∧
      ∀ p ∈ s.pendingFlushes, flushReady s.consumedEvents p = false) ∧
    (∀ m, (s.writers m).Parked → SensorEventQueue.full (s.queues m) = true) ∧
    (∀ n m, m < hal.queueCount → ¬(s.reader = .parked n false ∧ (s.writers m).Parked)) ∧
    (∀ l n woken, s.reader = .scan l → (pollStep hal s l).reader = .parked n woken →
      (∀ m, m < hal.queueCount → SensorEventQueue.peek ((pollStep hal s l).queues m) = none) ∧
      ∀ p ∈ (pollStep hal s l).pendingFlushes,
        flushReady (pollStep hal s l).consumedEvents p = false) := by
  have hok := h.ok
  have ha := h.awake
  have hidle : ∀ t, Idle hal t → (∀ m, m < hal.queueCount → SensorEventQueue.peek (t.queues m) = none) ∧
      ∀ p ∈ t.pendingFlushes, flushReady t.consumedEvents p = false := by
    intro t ht
    exact ⟨fun m hm => (SensorEventQueue.peek_none_iff _).mpr (ht.1 m hm), ht.2⟩
  refine ⟨fun n hn => hidle s (ha.reader n hn), ?_, ?_, ?_⟩
  · intro m hm
    exact (SensorEventQueue.full_iff _).mpr (ha.writer m hm)
  · rintro n m hm ⟨hr, hw⟩
    have h₁ := (ha.reader n hr).1 m hm
    have h₂ := ha.writer m hw
    have h₃ := (hok.queue m).capacity
    rw [h₁, h₃] at h₂
    exact absurd h₂ (by decide)
  · intro l n woken hl hp
    have ht : Reachable hal (pollStep hal s l) := by
      have hs : step hal s .readerRun = some (pollStep hal s l) := by
        simp [step, hl, hok.readerHolds l hl]
      exact Transition.Reachable.next h hs
    obtain rfl := pollStep_parked hal s l n woken hp
    exact hidle _ (ht.awake.reader n hp)

theorem parked_poll_missed_nothing :
    let s := (sampleRun samplePark).get (by decide)
    s.reader = .parked 4 false ∧
    (∀ m, m < sampleHal.queueCount → SensorEventQueue.peek (s.queues m) = none) ∧
    ∀ p ∈ s.pendingFlushes, flushReady s.consumedEvents p = false :=
  ⟨by decide, (no_lost_wakeup sampleHal _ (sampleRun_reachable samplePark _)).1 4 (by decide)⟩

end Multihal
