import Mathlib.Algebra.Ring.Nat
import Mathlib.Data.Fintype.Card
import Mathlib.Logic.Function.Basic
import Mocha.Transition

/-!
# Condition variables

`pthread_cond.cpp`. A condition variable is one word: two flags, and a counter of the
signals and broadcasts that wraps around. A wait remembers the word, gives the mutex back
and asks the kernel to sleep as long as the word is the same. Threads take their steps in
any order; the mutex and the futex queue are the kernel's.
-/
namespace Bionic

open Transition

def einval : Int := 22
def eagain : Int := 11
def intMax : Nat := 2147483647

def condSharedMask : BitVec 32 := 0x0001#32
def condClockMask : BitVec 32 := 0x0002#32
def condCounterStep : BitVec 32 := 0x0004#32
def condFlagsMask : BitVec 32 := condSharedMask ||| condClockMask

def condIsShared (c : BitVec 32) : Bool := c &&& condSharedMask ≠ 0#32
def condGetClock (c : BitVec 32) : BitVec 32 := (c &&& condClockMask) >>> 1
def condSetClock (attr clock : BitVec 32) : BitVec 32 := attr ||| (clock <<< 1)

def pthreadProcessPrivate : BitVec 32 := 0#32
def pthreadProcessShared : BitVec 32 := 1#32
def clockRealtime : BitVec 32 := 0#32
def clockMonotonic : BitVec 32 := 1#32

section Attributes

def pthreadCondattrInit : BitVec 32 := 0#32 ||| pthreadProcessPrivate ||| (clockRealtime <<< 1)

/-- The result and the attribute. -/
def pthreadCondattrSetpshared (attr pshared : BitVec 32) : Int × BitVec 32 :=
  if pshared ≠ pthreadProcessShared ∧ pshared ≠ pthreadProcessPrivate then (einval, attr)
  else (0, attr ||| pshared)

def pthreadCondattrSetclock (attr clock : BitVec 32) : Int × BitVec 32 :=
  if clock ≠ clockMonotonic ∧ clock ≠ clockRealtime then (einval, attr)
  else (0, condSetClock attr clock)

inductive AttrCall where
  | setpshared (pshared : BitVec 32)
  | setclock (clock : BitVec 32)
  deriving DecidableEq, Repr

def attrStep (attr : BitVec 32) : AttrCall → BitVec 32
  | .setpshared pshared => (pthreadCondattrSetpshared attr pshared).2
  | .setclock clock => (pthreadCondattrSetclock attr clock).2

/-- The word of a new condition variable. -/
def pthreadCondInit (attr : Option (BitVec 32)) : BitVec 32 := attr.elim 0#32 (· &&& condFlagsMask)

end Attributes

section Threads

/-- Where a thread is. Inside a wait it remembers the word; `seen` is history, the number of pulses
before it looked. -/
inductive Phase where
  | running
  | entered (old : BitVec 32) (seen : Nat)
  | released (old : BitVec 32) (seen : Nat)
  | asleep
  | returned (status : Int)
  | pulsed (count : Nat)
  deriving DecidableEq, Repr

/-- The threads of a system around one condition variable, its mutex and the condition that they
wait for. A sleeper is queued under the kind of futex that it has asked for. A thread owes a
broadcast from the moment that it makes the condition true; `pulses` is history. -/
structure System (τ : Type) where
  word : BitVec 32
  owner : Option τ
  phase : τ → Phase
  queue : List (τ × Bool)
  ready : Bool
  owes : τ → Bool
  pulses : Nat

inductive Act (τ : Type) where
  | lock (t : τ)
  | unlock (t : τ)
  | establish (t : τ)
  | withdraw (t : τ)
  | load (t : τ)
  | release (t : τ)
  | futexWait (t : τ)
  | interrupt (t : τ) (status : Int)
  | relock (t : τ)
  | pulse (t : τ) (count : Nat)
  | futexWake (t : τ) (chosen : List τ)
  deriving DecidableEq, Repr

variable {τ : Type} [DecidableEq τ]

def System.put (s : System τ) (t : τ) (phase : Phase) : System τ :=
  { s with phase := Function.update s.phase t phase }

def System.drop (s : System τ) (woken : List τ) : System τ :=
  { s with
    phase := fun t => if t ∈ woken then .returned 0 else s.phase t
    queue := s.queue.filter fun e => e.1 ∉ woken }

/-- The sleepers that a wake with this kind of futex finds. -/
def System.sleepers (s : System τ) (shared : Bool) : List τ :=
  (s.queue.filter fun e => e.2 = shared).map Prod.fst

/-- `pthread_cond_wait` is `load`, `release`, `futexWait` and `relock`, and is only called with
the mutex and for a condition that does not hold; `pthread_cond_signal` and
`pthread_cond_broadcast` are `pulse` and `futexWake`. The kernel chooses whom it wakes. -/
def systemStep (s : System τ) : Act τ → Option (System τ)
  | .lock t =>
    if s.phase t = .running ∧ s.owner = none then some { s with owner := some t } else none
  | .unlock t =>
    if s.phase t = .running ∧ s.owner = some t then some { s with owner := none } else none
  | .establish t =>
    if s.phase t = .running ∧ s.owner = some t then
      some { s with ready := true, owes := Function.update s.owes t true }
    else none
  | .withdraw t =>
    if s.phase t = .running ∧ s.owner = some t then some { s with ready := false } else none
  | .load t =>
    if s.phase t = .running ∧ s.owner = some t ∧ s.ready = false then
      some (s.put t (.entered s.word s.pulses))
    else none
  | .release t =>
    match s.phase t with
    | .entered old seen => some { s.put t (.released old seen) with owner := none }
    | _ => none
  | .futexWait t =>
    match s.phase t with
    | .released old _ =>
      if s.word = old then
        some { s.put t .asleep with queue := s.queue ++ [(t, condIsShared s.word)] }
      else some (s.put t (.returned (-eagain)))
    | _ => none
  | .interrupt t status =>
    if s.phase t = .asleep then some ((s.drop [t]).put t (.returned status)) else none
  | .relock t =>
    match s.phase t with
    | .returned _ => if s.owner = none then some { s.put t .running with owner := some t } else none
    | _ => none
  | .pulse t count =>
    if s.phase t = .running then
      some { s.put t (.pulsed count) with
        word := s.word + condCounterStep
        owes := if count = intMax then Function.update s.owes t false else s.owes
        pulses := s.pulses + 1 }
    else none
  | .futexWake t chosen =>
    match s.phase t with
    | .pulsed count =>
      if chosen.Nodup ∧ (∀ u ∈ chosen, u ∈ s.sleepers (condIsShared s.word)) ∧
          chosen.length = min count (s.sleepers (condIsShared s.word)).length then
        some ((s.drop chosen).put t .running)
      else none
    | _ => none

def newSystem (word : BitVec 32) : System τ where
  word := word
  owner := none
  phase := fun _ => .running
  queue := []
  ready := false
  owes := fun _ => false
  pulses := 0

/-- A thread goes to sleep although the condition variable was pulsed after it had looked. -/
def laps (s : System τ) : Act τ → Bool
  | .futexWait t =>
    match s.phase t with
    | .released old seen => s.word = old && s.pulses ≠ seen
    | _ => false
  | _ => false

end Threads

section Word

/-- The word after so many pulses. -/
def counted (word : BitVec 32) (n : Nat) : BitVec 32 := word + BitVec.ofNat 32 (4 * n)

theorem counted_toNat (word : BitVec 32) (n : Nat) :
    (counted word n).toNat = (word.toNat + 4 * n) % 4294967296 := by
  rw [counted, BitVec.toNat_add, BitVec.toNat_ofNat]
  omega

@[simp] theorem counted_zero (word : BitVec 32) : counted word 0 = word := by simp [counted]

theorem counted_succ (word : BitVec 32) (n : Nat) :
    counted word (n + 1) = counted word n + condCounterStep := by
  apply BitVec.eq_of_toNat_eq
  rw [counted_toNat, BitVec.toNat_add, counted_toNat]
  change _ = (_ + 4) % 4294967296
  omega

/-- The counter has 30 bits. -/
theorem counted_eq_iff (word : BitVec 32) {m n : Nat} (h : m ≤ n) :
    counted word n = counted word m ↔ (n - m) % 1073741824 = 0 := by
  rw [← BitVec.toNat_inj, counted_toNat, counted_toNat]
  omega

theorem and_mask_toNat (c : BitVec 32) (k : Nat) (hk : k < 32) :
    (c &&& BitVec.ofNat 32 (2 ^ k - 1)).toNat = c.toNat % 2 ^ k := by
  have hsmall : 2 ^ k - 1 < 2 ^ 32 := by
    have := Nat.pow_lt_pow_right (a := 2) (by omega) hk
    omega
  rw [BitVec.toNat_and, BitVec.toNat_ofNat, Nat.mod_eq_of_lt hsmall,
    Nat.and_two_pow_sub_one_eq_mod]

/-- The flags stay, also when the counter wraps around. -/
theorem counted_flags (word : BitVec 32) (n : Nat) :
    counted word n &&& condFlagsMask = word &&& condFlagsMask := by
  apply BitVec.eq_of_toNat_eq
  have hnow := and_mask_toNat (counted word n) 2 (by omega)
  have hfirst := and_mask_toNat word 2 (by omega)
  change (counted word n &&& condFlagsMask).toNat = _ at hnow
  change (word &&& condFlagsMask).toNat = _ at hfirst
  rw [hnow, hfirst, counted_toNat]
  omega

theorem condIsShared_flags (c : BitVec 32) :
    condIsShared c = condIsShared (c &&& condFlagsMask) := by
  have hmask : condFlagsMask &&& condSharedMask = condSharedMask := by decide
  rw [condIsShared, condIsShared, BitVec.and_assoc, hmask]

theorem condGetClock_flags (c : BitVec 32) :
    condGetClock c = condGetClock (c &&& condFlagsMask) := by
  have hmask : condFlagsMask &&& condClockMask = condClockMask := by decide
  rw [condGetClock, condGetClock, BitVec.and_assoc, hmask]

theorem counted_shared (word : BitVec 32) (n : Nat) :
    condIsShared (counted word n) = condIsShared word := by
  rw [condIsShared_flags, counted_flags, ← condIsShared_flags]

end Word

section Waits

variable {τ : Type}

def System.asleep (s : System τ) : List τ := s.queue.map Prod.fst

/-- The part of the invariant that every step keeps. `waits` is about a thread inside a wait. -/
structure Base (w : BitVec 32) (s : System τ) : Prop where
  word : s.word = counted w s.pulses
  asleep : ∀ t, s.phase t = .asleep ↔ t ∈ s.asleep
  nodup : s.asleep.Nodup
  kind : ∀ e ∈ s.queue, e.2 = condIsShared w
  entered : ∀ t old seen, s.phase t = .entered old seen →
    s.owner = some t ∧ s.ready = false ∧ old = counted w seen ∧ seen ≤ s.pulses
  released : ∀ t old seen, s.phase t = .released old seen →
    old = counted w seen ∧ seen ≤ s.pulses

/-- While the condition holds a broadcast is owed, or has at least pulsed the variable. -/
def Awake (s : System τ) : Prop :=
  s.ready = true → (∃ t, s.owes t = true) ∨
    ((∀ t old seen, s.phase t = .released old seen → seen < s.pulses) ∧
      (s.queue = [] ∨ ∃ t, s.phase t = .pulsed intMax))

theorem newSystem_base (w : BitVec 32) : Base w (newSystem w : System τ) :=
  ⟨(counted_zero w).symm, by simp [newSystem, System.asleep], List.nodup_nil,
    by simp [newSystem], by simp [newSystem], by simp [newSystem]⟩

theorem newSystem_awake (w : BitVec 32) : Awake (newSystem w : System τ) := by
  simp [Awake, newSystem]

/-- The sleepers that a wake can find are all of them. -/
theorem Base.sleepers {w : BitVec 32} {s : System τ} (h : Base w s) :
    s.sleepers (condIsShared s.word) = s.asleep := by
  have hall : (s.queue.filter fun e => e.2 = condIsShared s.word) = s.queue := by
    rw [List.filter_eq_self]
    intro e he
    rw [h.word, counted_shared, h.kind e he]
    simp
  rw [System.sleepers, hall, System.asleep]

/-- The owner is no thread inside `load` and `release`, unless it is the one that is looked at. -/
theorem Base.not_entered {w : BitVec 32} {s : System τ} (h : Base w s) {t u : τ} {old : BitVec 32}
    {seen : Nat} (howner : s.owner = some t) (hrunning : s.phase t = .running) :
    s.phase u ≠ .entered old seen := by
  intro hu
  have hsame := (h.entered u old seen hu).1
  rw [howner] at hsame
  cases hsame
  rw [hrunning] at hu
  cases hu

/-- No wakeup is lost: while the condition holds and all broadcasts for it are done, no thread
sleeps or is about to. The flags of the variable are as they were, a sleeper waits for the kind
of futex that is woken, and a thread before its `futex_wait` finds the word that it remembers
exactly if the variable has not been pulsed since, or a multiple of 2 ^ 30 times. -/
structure System.Sound (w : BitVec 32) (s : System τ) : Prop where
  flags : s.word &&& condFlagsMask = w &&& condFlagsMask
  kind : ∀ e ∈ s.queue, e.2 = condIsShared s.word
  word : ∀ t old seen, s.phase t = .released old seen →
    (s.word = old ↔ (s.pulses - seen) % 1073741824 = 0)
  awake : s.ready = true → (∀ t, s.owes t = false ∧ s.phase t ≠ .pulsed intMax) →
    s.queue = [] ∧ ∀ t old seen, s.phase t = .released old seen → seen < s.pulses

theorem Base.sound {w : BitVec 32} {s : System τ} (h : Base w s) (hawake : Awake s) : s.Sound w where
  flags := by rw [h.word, counted_flags]
  kind e he := by rw [h.kind e he, h.word, counted_shared]
  word t old seen ht := by
    obtain ⟨hold, hseen⟩ := h.released t old seen ht
    rw [h.word, hold]
    exact counted_eq_iff w hseen
  awake hready hdone := by
    rcases hawake hready with ⟨t, ht⟩ | ⟨hseen, hqueue⟩
    · rw [(hdone t).1] at ht
      cases ht
    · rcases hqueue with hempty | ⟨t, ht⟩
      · exact ⟨hempty, hseen⟩
      · exact absurd ht (hdone t).2

/-- While a running thread has the mutex nobody is on its way into a wait. -/
theorem Base.holds {w : BitVec 32} {s : System τ} (h : Base w s) {t : τ}
    (hrunning : s.phase t = .running) (howner : s.owner = some t) (owner : Option τ) (ready : Bool)
    (owes : τ → Bool) : Base w { s with owner := owner, ready := ready, owes := owes } :=
  ⟨h.word, h.asleep, h.nodup, h.kind,
    fun _ _ _ hu => absurd hu (h.not_entered howner hrunning), h.released⟩

theorem Base.taken {w : BitVec 32} {s : System τ} (h : Base w s) (hfree : s.owner = none) (t : τ) :
    Base w { s with owner := some t } := by
  refine ⟨h.word, h.asleep, h.nodup, h.kind, fun u old seen hu => ?_, h.released⟩
  have howner := (h.entered u old seen hu).1
  rw [hfree] at howner
  cases howner

variable [DecidableEq τ]

/-- A step that moves one thread between two phases outside the queue. -/
theorem Base.put {w : BitVec 32} {s : System τ} (h : Base w s) {t : τ} {phase : Phase}
    (hbefore : s.phase t ≠ .asleep) (hafter : phase ≠ .asleep)
    (hentered : ∀ old seen, phase = .entered old seen →
      s.owner = some t ∧ s.ready = false ∧ old = counted w seen ∧ seen ≤ s.pulses)
    (hreleased : ∀ old seen, phase = .released old seen → old = counted w seen ∧ seen ≤ s.pulses) :
    Base w (s.put t phase) where
  word := h.word
  asleep u := by
    by_cases hu : u = t
    · subst hu
      have hnot : u ∉ s.asleep := fun hmem => hbefore ((h.asleep u).mpr hmem)
      simp [System.put, hafter]
      exact hnot
    · simp only [System.put, Function.update_of_ne hu]
      exact h.asleep u
  nodup := h.nodup
  kind := h.kind
  entered u old seen hu := by
    by_cases hut : u = t
    · subst hut
      simp only [System.put, Function.update_self] at hu
      exact hentered old seen hu
    · simp only [System.put, Function.update_of_ne hut] at hu
      exact h.entered u old seen hu
  released u old seen hu := by
    by_cases hut : u = t
    · subst hut
      simp only [System.put, Function.update_self] at hu
      exact hreleased old seen hu
    · simp only [System.put, Function.update_of_ne hut] at hu
      exact h.released u old seen hu

theorem mem_drop_asleep {s : System τ} {woken : List τ} {t : τ} :
    t ∈ (s.drop woken).asleep ↔ t ∈ s.asleep ∧ t ∉ woken := by
  simp only [System.asleep, System.drop, List.mem_map, List.mem_filter, decide_eq_true_eq]
  constructor
  · rintro ⟨e, ⟨he, hnot⟩, rfl⟩
    exact ⟨⟨e, he, rfl⟩, hnot⟩
  · rintro ⟨⟨e, he, rfl⟩, hnot⟩
    exact ⟨e, ⟨he, hnot⟩, rfl⟩

/-- A thread goes to sleep. -/
theorem Base.sleeps {w : BitVec 32} {s : System τ} (h : Base w s) {t : τ} (hnot : t ∉ s.asleep) :
    Base w { s.put t .asleep with queue := s.queue ++ [(t, condIsShared s.word)] } where
  word := h.word
  asleep u := by
    by_cases hu : u = t
    · subst hu
      simp [System.put, System.asleep]
    · have hmem : u ∈ (s.queue ++ [(t, condIsShared s.word)]).map Prod.fst ↔ u ∈ s.asleep := by
        simp [System.asleep, hu]
      simp only [System.put, Function.update_of_ne hu, h.asleep u]
      exact hmem.symm
  nodup := by
    simp only [System.asleep, List.map_append, List.map_cons, List.map_nil]
    exact List.nodup_append.mpr ⟨h.nodup, List.nodup_singleton t, by
      intro a ha b hb
      rw [List.mem_singleton.mp hb]
      rintro rfl
      exact hnot ha⟩
  kind e he := by
    rcases List.mem_append.mp he with he | he
    · exact h.kind e he
    · rw [List.mem_singleton.mp he, h.word, counted_shared]
  entered u old seen hu := by
    by_cases hut : u = t
    · simp [System.put, hut] at hu
    · simp only [System.put, Function.update_of_ne hut] at hu
      exact h.entered u old seen hu
  released u old seen hu := by
    by_cases hut : u = t
    · simp [System.put, hut] at hu
    · simp only [System.put, Function.update_of_ne hut] at hu
      exact h.released u old seen hu

/-- Sleepers are woken. -/
theorem Base.drop {w : BitVec 32} {s : System τ} (h : Base w s) (woken : List τ) :
    Base w (s.drop woken) where
  word := h.word
  asleep t := by
    rw [mem_drop_asleep, ← h.asleep]
    by_cases ht : t ∈ woken
    · simp [System.drop, ht]
    · simp [System.drop, ht]
  nodup := h.nodup.sublist (List.filter_sublist.map Prod.fst)
  kind e he := h.kind e (List.mem_of_mem_filter he)
  entered t old seen ht := by
    by_cases hmem : t ∈ woken
    · simp [System.drop, hmem] at ht
    · simp only [System.drop, hmem, if_false] at ht
      exact h.entered t old seen ht
  released t old seen ht := by
    by_cases hmem : t ∈ woken
    · simp [System.drop, hmem] at ht
    · simp only [System.drop, hmem, if_false] at ht
      exact h.released t old seen ht

/-- The steps that are enabled, with what each does. -/
inductive SystemMove (s : System τ) : Act τ → System τ → Prop
  | lock {t : τ} : s.owner = none → SystemMove s (.lock t) { s with owner := some t }
  | unlock {t : τ} : s.phase t = .running → s.owner = some t →
      SystemMove s (.unlock t) { s with owner := none }
  | establish {t : τ} : s.phase t = .running → s.owner = some t →
      SystemMove s (.establish t)
        { s with ready := true, owes := Function.update s.owes t true }
  | withdraw {t : τ} : s.phase t = .running → s.owner = some t →
      SystemMove s (.withdraw t) { s with ready := false }
  | load {t : τ} : s.phase t = .running → s.owner = some t → s.ready = false →
      SystemMove s (.load t) (s.put t (.entered s.word s.pulses))
  | release {t : τ} {old : BitVec 32} {seen : Nat} : s.phase t = .entered old seen →
      SystemMove s (.release t) { s.put t (.released old seen) with owner := none }
  | sleep {t : τ} {old : BitVec 32} {seen : Nat} : s.phase t = .released old seen → s.word = old →
      SystemMove s (.futexWait t)
        { s.put t .asleep with queue := s.queue ++ [(t, condIsShared s.word)] }
  | again {t : τ} {old : BitVec 32} {seen : Nat} : s.phase t = .released old seen →
      SystemMove s (.futexWait t) (s.put t (.returned (-eagain)))
  | interrupt {t : τ} {status : Int} : s.phase t = .asleep →
      SystemMove s (.interrupt t status) ((s.drop [t]).put t (.returned status))
  | relock {t : τ} {status : Int} : s.phase t = .returned status → s.owner = none →
      SystemMove s (.relock t) { s.put t .running with owner := some t }
  | pulse {t : τ} {count : Nat} : s.phase t = .running →
      SystemMove s (.pulse t count) { s.put t (.pulsed count) with
        word := s.word + condCounterStep
        owes := if count = intMax then Function.update s.owes t false else s.owes
        pulses := s.pulses + 1 }
  | wake {t : τ} {count : Nat} {chosen : List τ} : s.phase t = .pulsed count → chosen.Nodup →
      (∀ u ∈ chosen, u ∈ s.sleepers (condIsShared s.word)) →
      chosen.length = min count (s.sleepers (condIsShared s.word)).length →
      SystemMove s (.futexWake t chosen) ((s.drop chosen).put t .running)

theorem systemStep_moves {s s' : System τ} {a : Act τ} (h : systemStep s a = some s') :
    SystemMove s a s' := by
  cases a with
  | lock t =>
    simp only [systemStep, Option.ite_none_right_eq_some, Option.some.injEq] at h
    obtain ⟨⟨-, hfree⟩, rfl⟩ := h
    exact .lock hfree
  | unlock t =>
    simp only [systemStep, Option.ite_none_right_eq_some, Option.some.injEq] at h
    obtain ⟨⟨hrunning, howner⟩, rfl⟩ := h
    exact .unlock hrunning howner
  | establish t =>
    simp only [systemStep, Option.ite_none_right_eq_some, Option.some.injEq] at h
    obtain ⟨⟨hrunning, howner⟩, rfl⟩ := h
    exact .establish hrunning howner
  | withdraw t =>
    simp only [systemStep, Option.ite_none_right_eq_some, Option.some.injEq] at h
    obtain ⟨⟨hrunning, howner⟩, rfl⟩ := h
    exact .withdraw hrunning howner
  | load t =>
    simp only [systemStep, Option.ite_none_right_eq_some, Option.some.injEq] at h
    obtain ⟨⟨hrunning, howner, hready⟩, rfl⟩ := h
    exact .load hrunning howner hready
  | release t =>
    simp only [systemStep] at h
    split at h
    case h_1 old seen hphase =>
      cases h
      exact .release hphase
    case h_2 => cases h
  | futexWait t =>
    simp only [systemStep] at h
    split at h
    case h_1 old seen hphase =>
      split at h
      case isTrue hsame =>
        cases h
        exact .sleep hphase hsame
      case isFalse =>
        cases h
        exact .again hphase
    case h_2 => cases h
  | interrupt t status =>
    simp only [systemStep, Option.ite_none_right_eq_some, Option.some.injEq] at h
    obtain ⟨hphase, rfl⟩ := h
    exact .interrupt hphase
  | relock t =>
    simp only [systemStep] at h
    split at h
    case h_1 status hphase =>
      simp only [Option.ite_none_right_eq_some, Option.some.injEq] at h
      obtain ⟨hfree, rfl⟩ := h
      exact .relock hphase hfree
    case h_2 => cases h
  | pulse t count =>
    simp only [systemStep, Option.ite_none_right_eq_some, Option.some.injEq] at h
    obtain ⟨hphase, rfl⟩ := h
    exact .pulse hphase
  | futexWake t chosen =>
    simp only [systemStep] at h
    split at h
    case h_1 count hphase =>
      simp only [Option.ite_none_right_eq_some, Option.some.injEq] at h
      obtain ⟨⟨hnodup, hchosen, hlength⟩, rfl⟩ := h
      exact .wake hphase hnodup hchosen hlength
    case h_2 => cases h

theorem Base.freed {w : BitVec 32} {s : System τ} (h : Base w s) {t : τ} {old : BitVec 32}
    {seen : Nat} (hphase : s.phase t = .entered old seen) :
    Base w { s.put t (.released old seen) with owner := none } := by
  obtain ⟨howner, -, hold, hseen⟩ := h.entered t old seen hphase
  have hmoved : Base w (s.put t (.released old seen)) := by
    refine h.put (by simp [hphase]) (by simp) (by simp) ?_
    rintro old' seen' ⟨⟩
    exact ⟨hold, hseen⟩
  refine ⟨hmoved.word, hmoved.asleep, hmoved.nodup, hmoved.kind, ?_, hmoved.released⟩
  intro u old' seen' hu
  have hother := (hmoved.entered u old' seen' hu).1
  have hsame : u = t := by
    change s.owner = some u at hother
    rw [howner] at hother
    exact (Option.some.inj hother).symm
  subst hsame
  simp [System.put] at hu

theorem Base.pulsed {w : BitVec 32} {s : System τ} (h : Base w s) {t : τ}
    (hphase : s.phase t = .running) (count : Nat) (owes : τ → Bool) :
    Base w { s.put t (.pulsed count) with
      word := s.word + condCounterStep, owes := owes, pulses := s.pulses + 1 } := by
  have hmoved : Base w (s.put t (.pulsed count)) :=
    h.put (by simp [hphase]) (by simp) (by simp) (by simp)
  refine ⟨?_, hmoved.asleep, hmoved.nodup, hmoved.kind, ?_, ?_⟩
  · change s.word + condCounterStep = _
    rw [counted_succ, h.word]
  · intro u old seen hu
    obtain ⟨howner, hready, hold, hseen⟩ := hmoved.entered u old seen hu
    exact ⟨howner, hready, hold, Nat.le_succ_of_le hseen⟩
  · intro u old seen hu
    obtain ⟨hold, hseen⟩ := hmoved.released u old seen hu
    exact ⟨hold, Nat.le_succ_of_le hseen⟩

/-- The thread that wakes is not among those it wakes. -/
theorem Base.woken {w : BitVec 32} {s : System τ} (h : Base w s) {t : τ} {count : Nat}
    (hphase : s.phase t = .pulsed count) {chosen : List τ} (hchosen : ∀ u ∈ chosen, u ∈ s.asleep) :
    (s.drop chosen).phase t = .pulsed count := by
  have hnot : t ∉ chosen := by
    intro hmem
    have hasleep := (h.asleep t).mpr (hchosen t hmem)
    rw [hphase] at hasleep
    cases hasleep
  simp [System.drop, hnot, hphase]

theorem base_step {w : BitVec 32} {s s' : System τ} {a : Act τ} (h : Base w s)
    (hstep : systemStep s a = some s') : Base w s' := by
  cases systemStep_moves hstep with
  | lock hfree => exact h.taken hfree _
  | unlock hrunning howner => exact h.holds hrunning howner none s.ready s.owes
  | establish hrunning howner => exact h.holds hrunning howner s.owner true _
  | withdraw hrunning howner => exact h.holds hrunning howner s.owner false s.owes
  | load hrunning howner hready =>
    refine h.put (by simp [hrunning]) (by simp) ?_ (by simp)
    rintro old seen ⟨⟩
    exact ⟨howner, hready, h.word, Nat.le_refl _⟩
  | release hphase => exact h.freed hphase
  | @sleep t old seen hphase hsame =>
    have hnot : t ∉ s.asleep := by
      intro hmem
      rw [← h.asleep, hphase] at hmem
      cases hmem
    exact h.sleeps hnot
  | again hphase => exact h.put (by simp [hphase]) (by simp) (by simp) (by simp)
  | @interrupt t status hphase =>
    refine (h.drop [t]).put ?_ (by simp) (by simp) (by simp)
    simp [System.drop]
  | @relock t status hphase hfree =>
    have hmoved : Base w (s.put t .running) :=
      h.put (by simp [hphase]) (by simp) (by simp) (by simp)
    exact hmoved.taken hfree t
  | pulse hphase => exact h.pulsed hphase _ _
  | @wake t count chosen hphase hnodup hchosen hlength =>
    rw [h.sleepers] at hchosen
    refine (h.drop chosen).put ?_ (by simp) (by simp) (by simp)
    simp [h.woken hphase hchosen]

/-- A step of one thread that neither releases nor pulses nor queues. -/
theorem Awake.put {s : System τ} (h : Awake s) {t : τ} {phase : Phase}
    (hreleased : ∀ old seen, phase = .released old seen → s.ready = false)
    (hbefore : s.phase t ≠ .pulsed intMax) : Awake (s.put t phase) := by
  intro hready
  rcases h hready with howes | ⟨hseen, hqueue⟩
  · exact .inl howes
  · refine .inr ⟨?_, ?_⟩
    · intro u old seen hu
      by_cases hut : u = t
      · subst hut
        simp only [System.put, Function.update_self] at hu
        have hnot := hreleased old seen hu
        change s.ready = true at hready
        rw [hready] at hnot
        cases hnot
      · simp only [System.put, Function.update_of_ne hut] at hu
        exact hseen u old seen hu
    · rcases hqueue with hempty | ⟨u, hu⟩
      · exact .inl hempty
      · have hut : u ≠ t := by
          rintro rfl
          exact hbefore hu
        exact .inr ⟨u, by simpa only [System.put, Function.update_of_ne hut] using hu⟩

theorem Awake.drop {s : System τ} (h : Awake s) (woken : List τ)
    (hwoken : ∀ t ∈ woken, s.phase t = .asleep) : Awake (s.drop woken) := by
  intro hready
  rcases h hready with howes | ⟨hseen, hqueue⟩
  · exact .inl howes
  · refine .inr ⟨?_, ?_⟩
    · intro u old seen hu
      by_cases hmem : u ∈ woken
      · simp [System.drop, hmem] at hu
      · simp only [System.drop, hmem, if_false] at hu
        exact hseen u old seen hu
    · rcases hqueue with hempty | ⟨u, hu⟩
      · exact .inl (by simp [System.drop, hempty])
      · have hnot : u ∉ woken := by
          intro hmem
          have hasleep := hwoken u hmem
          rw [hu] at hasleep
          cases hasleep
        exact .inr ⟨u, by simpa only [System.drop, hnot, if_false] using hu⟩

/-- A broadcast that finds the sleepers wakes them all: there are fewer threads than it asks for. -/
theorem broadcast_empties [Fintype τ] (hcard : Fintype.card τ ≤ intMax) {w : BitVec 32}
    {s : System τ} (h : Base w s) {chosen : List τ} (hnodup : chosen.Nodup)
    (hchosen : ∀ u ∈ chosen, u ∈ s.asleep) (hlength : chosen.length = min intMax s.asleep.length) :
    (s.drop chosen).queue = [] := by
  have hfew : s.asleep.length ≤ intMax := Nat.le_trans h.nodup.length_le_card hcard
  have hall : ∀ u ∈ s.asleep, u ∈ chosen := by
    have hperm : chosen.Subperm s.asleep := List.subperm_of_subset hnodup hchosen
    have hsame : chosen.Perm s.asleep := hperm.perm_of_length_le (by omega)
    intro u hu
    exact hsame.mem_iff.mpr hu
  simp only [System.drop, List.filter_eq_nil_iff, decide_eq_true_eq, not_not]
  intro e he
  exact hall e.1 (List.mem_map_of_mem he)

theorem Awake.pulsed {w : BitVec 32} {s : System τ} (h : Base w s) (hawake : Awake s) {t : τ}
    (hphase : s.phase t = .running) (count : Nat) :
    Awake { s.put t (.pulsed count) with
      word := s.word + condCounterStep
      owes := if count = intMax then Function.update s.owes t false else s.owes
      pulses := s.pulses + 1 } := by
  have hseen : ∀ u old seen, (s.put t (.pulsed count)).phase u = .released old seen →
      seen < s.pulses + 1 := by
    intro u old seen hu
    have hut : u ≠ t := by
      rintro rfl
      simp [System.put] at hu
    simp only [System.put, Function.update_of_ne hut] at hu
    exact Nat.lt_succ_of_le (h.released u old seen hu).2
  intro hready
  by_cases hcount : count = intMax
  · refine .inr ⟨hseen, .inr ⟨t, ?_⟩⟩
    simp [System.put, hcount]
  · have hmoved : Awake (s.put t (.pulsed count)) := hawake.put (by simp) (by simp [hphase])
    rcases hmoved hready with ⟨u, hu⟩ | ⟨-, hqueue⟩
    · refine .inl ⟨u, ?_⟩
      simp only [hcount, if_false]
      exact hu
    · exact .inr ⟨hseen, hqueue⟩

/-- A wake leaves somebody awake: a broadcast empties the queue, a signal is not the last. -/
theorem Awake.woken [Fintype τ] (hcard : Fintype.card τ ≤ intMax) {w : BitVec 32} {s : System τ}
    (h : Base w s) (hawake : Awake s) {t : τ} {count : Nat} (hphase : s.phase t = .pulsed count)
    {chosen : List τ} (hnodup : chosen.Nodup) (hchosen : ∀ u ∈ chosen, u ∈ s.asleep)
    (hlength : chosen.length = min count s.asleep.length) :
    Awake ((s.drop chosen).put t .running) := by
  have hdropped := hawake.drop chosen fun u hu => (h.asleep u).mpr (hchosen u hu)
  by_cases hcount : count = intMax
  · rw [hcount] at hlength
    have hempty := broadcast_empties hcard h hnodup hchosen hlength
    intro hready
    rcases hdropped hready with howes | ⟨hseen, -⟩
    · exact .inl howes
    · refine .inr ⟨?_, .inl hempty⟩
      intro u old seen hu
      by_cases hut : u = t
      · simp [System.put, hut] at hu
      · simp only [System.put, Function.update_of_ne hut] at hu
        exact hseen u old seen hu
  · refine hdropped.put (by simp) ?_
    simp [h.woken hphase hchosen, hcount]

theorem awake_step [Fintype τ] (hcard : Fintype.card τ ≤ intMax) {w : BitVec 32}
    {s s' : System τ} {a : Act τ} (h : Base w s) (hawake : Awake s)
    (hstep : systemStep s a = some s') (hlaps : laps s a = false) : Awake s' := by
  cases systemStep_moves hstep with
  | lock => exact hawake
  | unlock => exact hawake
  | @establish t => exact fun _ => .inl ⟨t, Function.update_self ..⟩
  | withdraw =>
    intro hready
    cases hready
  | load hrunning => exact hawake.put (by simp) (by simp [hrunning])
  | @release t old seen hphase =>
    obtain ⟨-, hunready, -, -⟩ := h.entered t old seen hphase
    intro hready
    change s.ready = true at hready
    rw [hunready] at hready
    cases hready
  | @sleep t old seen hphase hsame =>
    have hnew : s.pulses = seen := by simpa [laps, hphase, hsame] using hlaps
    intro hready
    rcases hawake hready with howes | ⟨hseen, -⟩
    · exact .inl howes
    · have hlater := hseen t old seen hphase
      omega
  | again hphase => exact hawake.put (by simp) (by simp [hphase])
  | @interrupt t status hphase =>
    refine (hawake.drop [t] (by simpa using hphase)).put (by simp) ?_
    simp [System.drop]
  | @relock t status hphase =>
    have hmoved : Awake (s.put t .running) := hawake.put (by simp) (by simp [hphase])
    exact hmoved
  | pulse hphase => exact hawake.pulsed h hphase _
  | wake hphase hnodup hchosen hlength =>
    rw [h.sleepers] at hchosen hlength
    exact hawake.woken hcard h hphase hnodup hchosen hlength

/-- The run lemma of the part that needs no condition on the steps. -/
theorem base_run {w : BitVec 32} {acts : List (Act τ)} {s : System τ}
    (hrun : run systemStep (newSystem w) acts = some s) : Base w s := by
  have hreach : Reachable systemStep (newSystem w = ·) s := (Reachable.start rfl).run hrun
  refine hreach.invariant (Base w) ?_ fun s a t _ h hstep => base_step h hstep
  rintro _ rfl
  exact newSystem_base _

theorem cond_sound {τ : Type} [DecidableEq τ] [Fintype τ] (hcard : Fintype.card τ ≤ intMax)
    (w : BitVec 32) (acts : List (Act τ)) {s : System τ}
    (hlaps : Along systemStep (fun s a _ => laps s a = false) (newSystem w) acts)
    (hrun : run systemStep (newSystem w) acts = some s) : s.Sound w := by
  have hboth := hlaps.invariant (fun s => Base w s ∧ Awake s)
    (fun s a t h hstep hlap => ⟨base_step h.1 hstep, awake_step hcard h.1 h.2 hstep hlap⟩)
    ⟨newSystem_base w, newSystem_awake w⟩ hrun
  exact hboth.1.sound hboth.2

/-- One thread waits, the other makes the condition true and broadcasts. -/
def handover : List (Act Bool) :=
  [.lock true, .load true, .release true, .futexWait true, .lock false, .establish false,
    .unlock false, .pulse false intMax, .futexWake false [true], .relock true]

theorem handover_sound : ∃ s, run systemStep (newSystem 2#32) handover = some s ∧
    s.Sound (2#32) ∧ s.ready = true ∧ s.phase true = .running := by
  obtain ⟨s, hs⟩ : ∃ s, run systemStep (newSystem 2#32) handover = some s := by
    rw [← Option.isSome_iff_exists]
    decide +kernel
  have hready : (run systemStep (newSystem 2#32) handover).map
      (fun s => (s.ready, s.phase true)) = some (true, .running) := by decide +kernel
  rw [hs] at hready
  have hpair : (s.ready, s.phase true) = (true, .running) := Option.some.inj hready
  refine ⟨s, hs, ?_, congrArg Prod.fst hpair, congrArg Prod.snd hpair⟩
  exact cond_sound (by decide) (2#32) handover (by decide +kernel) hs

end Waits

section Laps

variable {τ : Type} [DecidableEq τ]

def broadcasts (t : τ) : Nat → List (Act τ)
  | 0 => []
  | n + 1 => .pulse t intMax :: .futexWake t [] :: broadcasts t n

/-- What a broadcast changes when nobody sleeps. -/
def System.broadcast (s : System τ) (t : τ) : System τ :=
  { s with
    word := s.word + condCounterStep
    owes := Function.update s.owes t false
    pulses := s.pulses + 1 }

theorem run_broadcast {s : System τ} {t : τ} (hphase : s.phase t = .running)
    (hqueue : s.queue = []) (rest : List (Act τ)) :
    run systemStep s (.pulse t intMax :: .futexWake t [] :: rest) =
      run systemStep (s.broadcast t) rest := by
  have hback : Function.update (Function.update s.phase t (.pulsed intMax)) t .running = s.phase := by
    rw [Function.update_idem, ← hphase, Function.update_eq_self]
  simp [systemStep, hphase, System.put, System.drop, System.sleepers, hqueue, hback,
    System.broadcast]

theorem run_broadcasts {s : System τ} {t : τ} (hphase : s.phase t = .running)
    (hqueue : s.queue = []) (n : Nat) : run systemStep s (broadcasts t n) = some { s with
      word := counted s.word n
      owes := if n = 0 then s.owes else Function.update s.owes t false
      pulses := s.pulses + n } := by
  induction n generalizing s with
  | zero => simp [broadcasts]
  | succ n ih =>
    rw [broadcasts, run_broadcast hphase hqueue, ih (s := s.broadcast t) hphase hqueue]
    have hword : counted (s.word + condCounterStep) n = counted s.word (n + 1) := by
      apply BitVec.eq_of_toNat_eq
      rw [counted_toNat, counted_toNat, BitVec.toNat_add]
      change ((_ + 4) % 4294967296 + _) % 4294967296 = _
      omega
    simp only [System.broadcast, hword, Option.some.injEq]
    congr 1
    · cases n with
      | zero => simp
      | succ n => simp
    · omega

/-- A thread looks at the variable and gives the mutex back, another makes the condition true and
broadcasts so many times, and only then the first asks the kernel to sleep. -/
def preempted (waiter notifier : τ) (n : Nat) : List (Act τ) :=
  [.lock waiter, .load waiter, .release waiter, .lock notifier, .establish notifier,
    .unlock notifier] ++ broadcasts notifier n ++ [.futexWait waiter]

/-- The schedule can be run, whatever the number, and leaves nothing to be done. -/
theorem preempted_runs {waiter notifier : τ} (hne : waiter ≠ notifier) (w : BitVec 32) {n : Nat} (hn : 0 < n) :
    ∃ s, run systemStep (newSystem w) (preempted waiter notifier n) = some s ∧ s.ready = true ∧
      (∀ t, s.owes t = false ∧ s.phase t ≠ .pulsed intMax) ∧
      (s.phase waiter = .asleep ↔ n % 1073741824 = 0) := by
  obtain ⟨s, hs⟩ : ∃ s : System τ, s = { newSystem w with
    phase := Function.update (fun _ => .running) waiter (.released w 0)
    ready := true
    owes := Function.update (fun _ => false) notifier true } := ⟨_, rfl⟩
  have hnotifier : s.phase notifier = .running := by simp [hs, Function.update_of_ne hne.symm]
  have hqueue : s.queue = [] := by rw [hs]; rfl
  have hbegun : ∀ rest, run systemStep (newSystem w) ([.lock waiter, .load waiter, .release waiter,
      .lock notifier, .establish notifier, .unlock notifier] ++ rest) = run systemStep s rest := by
    intro rest
    simp [hs, newSystem, systemStep, System.put, Function.update_of_ne hne.symm]
  have hwrapped : counted w n = w ↔ n % 1073741824 = 0 := by
    have hiff := counted_eq_iff w (Nat.zero_le n)
    rw [counted_zero, Nat.sub_zero] at hiff
    exact hiff
  rw [preempted, List.append_assoc, hbegun, run_append, run_broadcasts hnotifier hqueue]
  have hwaiter : s.phase waiter = .released w 0 := by simp [hs]
  have hword : s.word = w := by rw [hs]; rfl
  have howes : ∀ t, Function.update s.owes notifier false t = false := by
    intro t
    by_cases ht : t = notifier <;> simp [hs, ht]
  have hpulsed : ∀ t, s.phase t ≠ .pulsed intMax := by
    intro t
    by_cases ht : t = waiter <;> simp [hs, ht]
  have hready : s.ready = true := by rw [hs]
  simp only [Option.bind_some, run_cons, run_nil, systemStep, hwaiter, hword,
    if_neg (Nat.pos_iff_ne_zero.mp hn)]
  by_cases hsame : counted w n = w
  · rw [if_pos hsame]
    refine ⟨_, rfl, hready, fun t => ⟨howes t, ?_⟩, ?_⟩
    · by_cases ht : t = waiter
      · simp [System.put, ht]
      · simpa [System.put, ht] using hpulsed t
    · simpa [System.put] using hwrapped.mp hsame
  · rw [if_neg hsame]
    refine ⟨_, rfl, hready, fun t => ⟨howes t, ?_⟩, ?_⟩
    · by_cases ht : t = waiter
      · simp [System.put, ht]
      · simpa [System.put, ht] using hpulsed t
    · simpa [System.put] using fun h => hsame (hwrapped.mpr h)

/-- The thread has looked at the variable and has not yet asked the kernel to sleep. -/
def Remembers (t : τ) (old : BitVec 32) (seen : Nat) (s : System τ) : Prop :=
  s.phase t = .entered old seen ∨ s.phase t = .released old seen

def Act.isPulse : Act τ → Bool
  | .pulse _ _ => true
  | _ => false

theorem Remembers.put {t u : τ} {old : BitVec 32} {seen : Nat} {s : System τ}
    (h : Remembers t old seen s) (hne : t ≠ u) (phase : Phase) :
    Remembers t old seen (s.put u phase) := by
  simpa only [Remembers, System.put, Function.update_of_ne hne] using h

omit [DecidableEq τ] in
/-- A thread that only remembers the word is in no other phase. -/
theorem Remembers.ne {t u : τ} {old : BitVec 32} {seen : Nat} {s : System τ} {phase : Phase}
    (h : Remembers t old seen s) (hu : s.phase u = phase)
    (hentered : phase ≠ .entered old seen) (hreleased : phase ≠ .released old seen) : t ≠ u := by
  rintro rfl
  rcases h with h | h
  · exact hentered (hu.symm.trans h)
  · exact hreleased (hu.symm.trans h)

/-- Until it asks the kernel itself, no step of another thread makes it forget the word, and only
the pulses are counted. -/
theorem remembers_step {w : BitVec 32} {t : τ} {old : BitVec 32} {seen : Nat} {s s' : System τ}
    {a : Act τ} (hbase : Base w s) (h : Remembers t old seen s) (ha : a ≠ .futexWait t)
    (hstep : systemStep s a = some s') :
    Remembers t old seen s' ∧ s'.pulses = s.pulses + if a.isPulse then 1 else 0 := by
  cases systemStep_moves hstep with
  | lock => exact ⟨h, rfl⟩
  | unlock => exact ⟨h, rfl⟩
  | establish => exact ⟨h, rfl⟩
  | withdraw => exact ⟨h, rfl⟩
  | load hrunning => exact ⟨h.put (h.ne hrunning (by simp) (by simp)) _, rfl⟩
  | @release u old' seen' hphase =>
    refine ⟨?_, rfl⟩
    by_cases htu : t = u
    · subst htu
      rcases h with h | h
      · rw [hphase] at h
        cases h
        exact .inr (Function.update_self ..)
      · rw [hphase] at h
        cases h
    · exact h.put htu _
  | @sleep u => exact ⟨h.put (by rintro rfl; exact ha rfl) _, rfl⟩
  | @again u => exact ⟨h.put (by rintro rfl; exact ha rfl) _, rfl⟩
  | @interrupt u status hphase =>
    have hne := h.ne hphase (by simp) (by simp)
    have hdropped : Remembers t old seen (s.drop [u]) := by
      simpa [Remembers, System.drop, hne] using h
    exact ⟨hdropped.put hne _, rfl⟩
  | relock hphase => exact ⟨h.put (h.ne hphase (by simp) (by simp)) _, rfl⟩
  | pulse hrunning => exact ⟨h.put (h.ne hrunning (by simp) (by simp)) _, rfl⟩
  | @wake u count chosen hphase hnodup hchosen hlength =>
    have hnot : t ∉ chosen := by
      intro hmem
      rw [hbase.sleepers] at hchosen
      exact h.ne ((hbase.asleep t).mpr (hchosen t hmem)) (by simp) (by simp) rfl
    have hdropped : Remembers t old seen (s.drop chosen) := by
      simpa [Remembers, System.drop, hnot] using h
    exact ⟨hdropped.put (h.ne hphase (by simp) (by simp)) _, rfl⟩

theorem remembers_run {w : BitVec 32} {t : τ} {old : BitVec 32} {seen : Nat} {s s' : System τ}
    {acts : List (Act τ)} (hbase : Base w s) (h : Remembers t old seen s)
    (hacts : .futexWait t ∉ acts) (hrun : run systemStep s acts = some s') :
    Base w s' ∧ Remembers t old seen s' ∧ s'.pulses = s.pulses + acts.countP Act.isPulse := by
  induction acts generalizing s with
  | nil =>
    cases hrun
    exact ⟨hbase, h, rfl⟩
  | cons a acts ih =>
    rw [run_cons] at hrun
    obtain ⟨s₁, hstep, hrest⟩ := Option.bind_eq_some_iff.mp hrun
    rw [List.mem_cons, not_or] at hacts
    obtain ⟨h₁, hpulses⟩ := remembers_step hbase h (Ne.symm hacts.1) hstep
    obtain ⟨hbase', h', hcount⟩ := ih (base_step hbase hstep) h₁ hacts.2 hrest
    refine ⟨hbase', h', ?_⟩
    rw [hcount, hpulses, List.countP_cons]
    omega

/-- Whatever the others do between its look at the variable and its `futex_wait`, a thread goes to
sleep exactly if a multiple of 2 ^ 30 pulses came in between. So a wakeup is missed by a thread that
is preempted there for some broadcasts, with the condition true and nobody left to broadcast, exactly
if their number is such a multiple. -/
theorem preempted_misses_iff {τ : Type} [DecidableEq τ] (w : BitVec 32) :
    (∀ (waiter : τ) (before between : List (Act τ)) (s : System τ), .futexWait waiter ∉ between →
      run systemStep (newSystem w) (before ++ .load waiter :: (between ++ [.futexWait waiter])) =
        some s → (s.phase waiter = .asleep ↔ between.countP Act.isPulse % 1073741824 = 0)) ∧
    ∀ waiter notifier : τ, waiter ≠ notifier → ∀ n, 0 < n →
      ∃ s, run systemStep (newSystem w) (preempted waiter notifier n) = some s ∧ s.ready = true ∧
        (∀ t, s.owes t = false ∧ s.phase t ≠ .pulsed intMax) ∧
        (s.phase waiter = .asleep ↔ n % 1073741824 = 0) := by
  refine ⟨?_, fun waiter notifier hne n hn => preempted_runs hne w hn⟩
  intro waiter before between s hbetween hrun
  rw [run_append] at hrun
  obtain ⟨s₀, hbefore, hrun⟩ := Option.bind_eq_some_iff.mp hrun
  rw [run_cons] at hrun
  obtain ⟨s₁, hload, hrun⟩ := Option.bind_eq_some_iff.mp hrun
  rw [run_append] at hrun
  obtain ⟨s₂, hmid, hlast⟩ := Option.bind_eq_some_iff.mp hrun
  have hbase₀ := base_run hbefore
  have hbase₁ := base_step hbase₀ hload
  cases systemStep_moves hload with
  | load hrunning howner hready =>
    have hlooked : Remembers waiter s₀.word s₀.pulses
        (s₀.put waiter (.entered s₀.word s₀.pulses)) := .inl (Function.update_self ..)
    obtain ⟨hbase₂, hasked, hcount⟩ := remembers_run hbase₁ hlooked hbetween hmid
    have hpulses : s₂.pulses = s₀.pulses + between.countP Act.isPulse := hcount
    have hsame : s₂.word = s₀.word ↔ between.countP Act.isPulse % 1073741824 = 0 := by
      rw [hbase₂.word, hbase₀.word, counted_eq_iff w (by omega), hpulses, Nat.add_sub_cancel_left]
    simp only [run_cons, run_nil, Option.bind_fun_some] at hlast
    rcases hasked with hphase | hphase
    · simp [systemStep, hphase] at hlast
    · simp only [systemStep, hphase] at hlast
      rw [← hsame]
      split at hlast
      case isTrue heq =>
        cases hlast
        simp [System.put, heq]
      case isFalse hneq =>
        cases hlast
        simp [System.put, hneq]

/-- After three broadcasts the thread does not go to sleep. -/
theorem preempted_returns : ∃ s, run systemStep (newSystem 0#32) (preempted true false 3) = some s ∧
    s.ready = true ∧ s.phase true ≠ .asleep := by
  obtain ⟨s, hs, hready, -, hiff⟩ :=
    (preempted_misses_iff (0#32)).2 true false (by decide) 3 (by decide)
  refine ⟨s, hs, hready, fun hasleep => ?_⟩
  exact absurd (hiff.mp hasleep) (by decide)

end Laps

section Flags

theorem condGetClock_bit (c : BitVec 32) :
    condGetClock c = if c.getLsbD 1 then clockMonotonic else clockRealtime := by
  have hmask : condClockMask = BitVec.twoPow 32 1 := by decide
  rw [condGetClock, hmask, BitVec.and_twoPow]
  split <;> decide

theorem condIsShared_bit (c : BitVec 32) : condIsShared c = c.getLsbD 0 := by
  have hmask : condSharedMask = BitVec.twoPow 32 0 := by decide
  rw [condIsShared, hmask, BitVec.and_twoPow]
  cases c.getLsbD 0 <;> decide

/-- A call sets one flag at most, and clears none. -/
theorem attrStep_bits (attr : BitVec 32) (call : AttrCall) :
    ((attrStep attr call).getLsbD 0 = true ↔
      attr.getLsbD 0 = true ∨ call = .setpshared pthreadProcessShared) ∧
    ((attrStep attr call).getLsbD 1 = true ↔
      attr.getLsbD 1 = true ∨ call = .setclock clockMonotonic) := by
  cases call with
  | setpshared pshared =>
    by_cases hshared : pshared = pthreadProcessShared
    · subst hshared
      simp [attrStep, pthreadCondattrSetpshared, pthreadProcessShared]
    · by_cases hprivate : pshared = pthreadProcessPrivate
      · subst hprivate
        simp [attrStep, pthreadCondattrSetpshared, pthreadProcessPrivate, pthreadProcessShared]
      · simp [attrStep, pthreadCondattrSetpshared, hshared, hprivate]
  | setclock clock =>
    by_cases hmonotonic : clock = clockMonotonic
    · subst hmonotonic
      simp [attrStep, pthreadCondattrSetclock, condSetClock, clockMonotonic]
    · by_cases hrealtime : clock = clockRealtime
      · subst hrealtime
        simp [attrStep, pthreadCondattrSetclock, condSetClock, clockMonotonic, clockRealtime]
      · simp [attrStep, pthreadCondattrSetclock, hmonotonic, hrealtime]

/-- The flags of an attribute, by the calls that have set them. -/
theorem attrCalls_bits (calls : List AttrCall) (attr : BitVec 32) :
    ((calls.foldl attrStep attr).getLsbD 0 = true ↔
      attr.getLsbD 0 = true ∨ .setpshared pthreadProcessShared ∈ calls) ∧
    ((calls.foldl attrStep attr).getLsbD 1 = true ↔
      attr.getLsbD 1 = true ∨ .setclock clockMonotonic ∈ calls) := by
  induction calls generalizing attr with
  | nil => simp
  | cons call calls ih =>
    obtain ⟨hshared, hclock⟩ := ih (attrStep attr call)
    obtain ⟨hshared₁, hclock₁⟩ := attrStep_bits attr call
    rw [List.foldl_cons, hshared, hclock, hshared₁, hclock₁, List.mem_cons, List.mem_cons,
      or_assoc, or_assoc, eq_comm (a := call), eq_comm (a := call)]
    exact ⟨Iff.rfl, Iff.rfl⟩

/-- The clock and the kind of a condition variable were chosen once and for all: the calls that
ask for the other choice never change it back, and no signal or broadcast touches it. -/
theorem condFlags_iff {τ : Type} [DecidableEq τ] (calls : List AttrCall) (acts : List (Act τ))
    {s : System τ} (hrun : run systemStep
      (newSystem (pthreadCondInit (some (calls.foldl attrStep pthreadCondattrInit)))) acts = some s) :
    (condGetClock s.word =
      if .setclock clockMonotonic ∈ calls then clockMonotonic else clockRealtime) ∧
    (condIsShared s.word = true ↔ .setpshared pthreadProcessShared ∈ calls) := by
  generalize hattr : calls.foldl attrStep pthreadCondattrInit = attr at hrun
  obtain ⟨hshared, hclock⟩ := attrCalls_bits calls pthreadCondattrInit
  rw [hattr] at hshared hclock
  have hbase := base_run hrun
  have hflags : s.word &&& condFlagsMask = attr &&& condFlagsMask := by
    rw [hbase.word, counted_flags]
    change attr &&& condFlagsMask &&& condFlagsMask = _
    rw [BitVec.and_assoc, BitVec.and_self]
  constructor
  · rw [condGetClock_flags, hflags, ← condGetClock_flags, condGetClock_bit]
    have hinit : pthreadCondattrInit.getLsbD 1 = false := by decide
    simp only [hclock, hinit, Bool.false_eq_true, false_or]
  · rw [condIsShared_flags, hflags, ← condIsShared_flags, condIsShared_bit, hshared]
    have hinit : pthreadCondattrInit.getLsbD 0 = false := by decide
    simp only [hinit, Bool.false_eq_true, false_or]

/-- Asking for the default again does not give it back. -/
theorem condFlags_sticky : ∃ s, run systemStep (newSystem (pthreadCondInit (some
    ([.setclock clockMonotonic, .setclock clockRealtime].foldl attrStep pthreadCondattrInit))))
      [Act.pulse true 1, .futexWake true []] = some s ∧ condGetClock s.word = clockMonotonic := by
  obtain ⟨s, hs⟩ : ∃ s, run systemStep (newSystem (pthreadCondInit (some
      ([.setclock clockMonotonic, .setclock clockRealtime].foldl attrStep pthreadCondattrInit))))
      [Act.pulse true 1, .futexWake true []] = some s := by
    rw [← Option.isSome_iff_exists]
    decide +kernel
  refine ⟨s, hs, ?_⟩
  rw [(condFlags_iff [.setclock clockMonotonic, .setclock clockRealtime] _ hs).1]
  decide

end Flags

end Bionic
