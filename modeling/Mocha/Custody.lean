import Mathlib.Data.List.Basic

/-!
# Resources that are acquired, used and given back

A log of what one holder does with resources. The same resource may be acquired
several times, and each acquisition asks for one release. A disciplined log uses
and releases only what is held.
-/
namespace Custody

variable {α : Type} [DecidableEq α]

inductive Use (α : Type) where
  | acquire (r : α)
  | touch (r : α)
  | release (r : α)
  deriving DecidableEq, Repr

/-- What is held after one more entry. -/
def after (held : List α) : Use α → List α
  | .acquire r => r :: held
  | .touch _ => held
  | .release r => held.erase r

def outstandingFrom (held : List α) (log : List (Use α)) : List α := log.foldl after held

def outstanding (log : List (Use α)) : List α := outstandingFrom [] log

def Legal (held : List α) : Use α → Prop
  | .acquire _ => True
  | .touch r => r ∈ held
  | .release r => r ∈ held

instance (held : List α) : ∀ u : Use α, Decidable (Legal held u)
  | .acquire _ => isTrue trivial
  | .touch r => inferInstanceAs (Decidable (r ∈ held))
  | .release r => inferInstanceAs (Decidable (r ∈ held))

def DisciplinedFrom (held : List α) : List (Use α) → Prop
  | [] => True
  | u :: log => Legal held u ∧ DisciplinedFrom (after held u) log

def Disciplined (log : List (Use α)) : Prop := DisciplinedFrom [] log

instance DisciplinedFrom.decidable : ∀ (held : List α) (log : List (Use α)),
    Decidable (DisciplinedFrom held log)
  | _, [] => isTrue trivial
  | held, u :: log =>
    have := DisciplinedFrom.decidable (after held u) log
    inferInstanceAs (Decidable (Legal held u ∧ DisciplinedFrom (after held u) log))

instance (log : List (Use α)) : Decidable (Disciplined log) := DisciplinedFrom.decidable [] log

/-- How many acquisitions of a resource a log has beyond its releases. -/
def balance (log : List (Use α)) (r : α) : Int := log.count (.acquire r) - log.count (.release r)

@[simp] theorem balance_nil (r : α) : balance [] r = 0 := rfl

theorem balance_append (log more : List (Use α)) (r : α) :
    balance (log ++ more) r = balance log r + balance more r := by
  simp only [balance, List.count_append]
  omega

theorem balance_acquire (q r : α) : balance [.acquire q] r = if r = q then 1 else 0 := by
  by_cases h : r = q
  · subst h
    simp [balance]
  · simp [balance, Ne.symm h, h]

theorem balance_release (q r : α) : balance [.release q] r = if r = q then -1 else 0 := by
  by_cases h : r = q
  · subst h
    simp [balance]
  · simp [balance, Ne.symm h, h]

theorem balance_touch (q r : α) (log : List (Use α)) : balance (.touch q :: log) r = balance log r := by
  simp [balance]

/-- A log is gone through in two parts, the second from where the first ended. -/
theorem outstandingFrom_append (held : List α) (log more : List (Use α)) :
    outstandingFrom held (log ++ more) = outstandingFrom (outstandingFrom held log) more :=
  List.foldl_append

/-- A log is disciplined when both parts are, the second from what the first left held. -/
theorem disciplinedFrom_append (held : List α) (log more : List (Use α)) :
    DisciplinedFrom held (log ++ more) ↔
      DisciplinedFrom held log ∧ DisciplinedFrom (outstandingFrom held log) more := by
  induction log generalizing held with
  | nil => simp [DisciplinedFrom, outstandingFrom]
  | cons u log ih =>
    simp only [List.cons_append, DisciplinedFrom, ih, and_assoc]
    rfl

theorem outstanding_append (log more : List (Use α)) :
    outstanding (log ++ more) = outstandingFrom (outstanding log) more :=
  outstandingFrom_append [] log more

theorem disciplined_append (log more : List (Use α)) :
    Disciplined (log ++ more) ↔ Disciplined log ∧ DisciplinedFrom (outstanding log) more :=
  disciplinedFrom_append [] log more

/-- Nothing is lost and nothing given back twice: every acquisition is either outstanding or
answered by one release. -/
theorem disciplinedFrom_count {held : List α} {log : List (Use α)} (h : DisciplinedFrom held log)
    (r : α) : held.count r + log.count (.acquire r) =
      (outstandingFrom held log).count r + log.count (.release r) := by
  induction log generalizing held with
  | nil => simp [outstandingFrom]
  | cons u log ih =>
    obtain ⟨hlegal, hrest⟩ := h
    have hlog := ih hrest
    have hout : outstandingFrom held (u :: log) = outstandingFrom (after held u) log := rfl
    rw [hout]
    cases u with
    | acquire q =>
      by_cases hq : q = r
      · subst hq
        simp [after] at hlog ⊢
        omega
      · simp [after, hq] at hlog ⊢
        omega
    | touch q =>
      simp [after] at hlog ⊢
      omega
    | release q =>
      by_cases hq : q = r
      · subst hq
        have hpos : 0 < held.count q := List.count_pos_iff.mpr hlegal
        simp [after] at hlog ⊢
        omega
      · simp [after, hq, List.count_erase_of_ne (Ne.symm hq)] at hlog ⊢
        omega

/-- Each acquisition is either released or still outstanding. -/
theorem disciplined_count {log : List (Use α)} (h : Disciplined log) (r : α) :
    log.count (.acquire r) = (outstanding log).count r + log.count (.release r) := by
  have hcount := disciplinedFrom_count h r
  rw [List.count_nil, Nat.zero_add] at hcount
  exact hcount

/-- What is held was held before or has been acquired. -/
theorem acquire_of_mem_outstandingFrom {held : List α} {log : List (Use α)} {r : α}
    (h : r ∈ outstandingFrom held log) : r ∈ held ∨ .acquire r ∈ log := by
  induction log generalizing held with
  | nil => exact .inl h
  | cons u log ih =>
    rcases ih h with hheld | hlog
    · cases u with
      | acquire q =>
        rcases List.mem_cons.mp hheld with rfl | hmem
        · exact .inr List.mem_cons_self
        · exact .inl hmem
      | touch q => exact .inl hheld
      | release q => exact .inl (List.mem_of_mem_erase hheld)
    · exact .inr (List.mem_cons_of_mem u hlog)

theorem acquire_of_outstanding {log : List (Use α)} {r : α} (h : r ∈ outstanding log) :
    .acquire r ∈ log := (acquire_of_mem_outstandingFrom h).resolve_left List.not_mem_nil

/-- Whether an entry changes what is held. -/
def Use.moves : Use α → Bool
  | .acquire _ | .release _ => true
  | .touch _ => false

/-- Touching a resource does not change who holds it. -/
theorem outstandingFrom_moves (held : List α) (log : List (Use α)) :
    outstandingFrom held (log.filter Use.moves) = outstandingFrom held log := by
  induction log generalizing held with
  | nil => rfl
  | cons u log ih =>
    cases u with
    | acquire r => exact ih (r :: held)
    | touch r => exact ih held
    | release r => exact ih (held.erase r)

/-- A disciplined log after which these resources are held. -/
structure Holding (log : List (Use α)) (held : List α) : Prop where
  disciplined : Disciplined log
  outstanding : outstanding log = held

theorem holding_nil : Holding ([] : List (Use α)) [] := ⟨trivial, rfl⟩

/-- What follows a log need only be legal from what the log left held. -/
theorem Holding.append {log more : List (Use α)} {held : List α} (h : Holding log held)
    (hmore : DisciplinedFrom held more) : Holding (log ++ more) (outstandingFrom held more) where
  disciplined := by
    rw [disciplined_append, h.outstanding]
    exact ⟨h.disciplined, hmore⟩
  outstanding := by
    rw [outstanding_append, h.outstanding]

theorem Holding.snoc {log : List (Use α)} {held : List α} (h : Holding log held) {u : Use α}
    (hlegal : Legal held u) : Holding (log ++ [u]) (after held u) :=
  h.append ⟨hlegal, trivial⟩

theorem Holding.acquire {log : List (Use α)} {held : List α} (h : Holding log held) (r : α) :
    Holding (log ++ [.acquire r]) (r :: held) := h.snoc trivial

theorem Holding.touch {log : List (Use α)} {held : List α} (h : Holding log held) {r : α}
    (hr : r ∈ held) : Holding (log ++ [.touch r]) held := h.snoc hr

theorem Holding.release {log : List (Use α)} {held : List α} (h : Holding log held) {r : α}
    (hr : r ∈ held) : Holding (log ++ [.release r]) (held.erase r) := h.snoc hr

/-- The only resource that is held goes back. -/
theorem Holding.giveBack {log : List (Use α)} {r : α} (h : Holding log [r]) :
    Holding (log ++ [.release r]) [] := by
  have hreleased := h.release (List.mem_singleton_self r)
  have hnone : [r].erase r = [] := List.erase_cons_head ..
  rw [hnone] at hreleased
  exact hreleased

/-- The only resource that is held goes back after a last use. -/
theorem Holding.finish {log : List (Use α)} {r : α} (h : Holding log [r]) :
    Holding (log ++ [.touch r, .release r]) [] := by
  have hmem : r ∈ [r] := List.mem_singleton_self r
  have hfinished : Holding (log ++ [.touch r, .release r])
      (outstandingFrom [r] [.touch r, .release r]) := h.append ⟨hmem, hmem, trivial⟩
  have hnone : outstandingFrom [r] [.touch r, .release r] = [] := List.erase_cons_head ..
  rw [hnone] at hfinished
  exact hfinished

/-- No resource is acquired a second time. -/
def Once (log : List (Use α)) : Prop := ∀ r, log.count (.acquire r) ≤ 1

theorem once_nil : Once ([] : List (Use α)) := fun _ => Nat.zero_le 1

/-- A further use keeps the law unless it acquires something a second time. -/
theorem Once.snoc {log : List (Use α)} (h : Once log) {u : Use α}
    (hu : ∀ r, u = .acquire r → .acquire r ∉ log) : Once (log ++ [u]) := by
  intro r
  rw [List.count_append]
  by_cases hr : u = .acquire r
  · rw [List.count_eq_zero_of_not_mem (hu r hr), hr]
    simp
  · rw [List.count_singleton, if_neg (by simpa using hr), Nat.add_zero]
    exact h r

end Custody
