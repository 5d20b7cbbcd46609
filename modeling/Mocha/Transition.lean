import Mathlib.Order.Basic

/-!
# Guarded transition systems

A system is a partial step function: `step s a` is the state after action `a`,
or `none` when `a` is not enabled in `s`. Nothing here bounds the number of
steps, the action type, or the state space.
-/
namespace Transition

variable {σ α β : Type}

/-- Execute a list of actions; `none` means that one of them was not enabled. -/
def run (step : σ → α → Option σ) : σ → List α → Option σ
  | s, [] => some s
  | s, a :: as => (step s a).bind fun t => run step t as

@[simp] theorem run_nil (step : σ → α → Option σ) (s : σ) : run step s [] = some s := rfl
@[simp] theorem run_cons (step : σ → α → Option σ) (s : σ) (a : α) (as : List α) :
    run step s (a :: as) = (step s a).bind fun t => run step t as := rfl

theorem run_append (step : σ → α → Option σ) (s : σ) (as bs : List α) :
    run step s (as ++ bs) = (run step s as).bind fun t => run step t bs := by
  induction as generalizing s with
  | nil => rfl
  | cons a as ih => simp only [List.cons_append, run_cons, ih, Option.bind_assoc]

/-- What the steps of a run give out, in order. -/
def trace (step : σ → α → Option σ) (f : σ → α → List β) : σ → List α → List β
  | _, [] => []
  | s, a :: as => (step s a).elim [] fun t => f s a ++ trace step f t as

theorem trace_cons {step : σ → α → Option σ} {s t : σ} {a : α} (h : step s a = some t)
    (f : σ → α → List β) (as : List α) : trace step f s (a :: as) = f s a ++ trace step f t as := by
  rw [trace, h]
  rfl

/-- The states that some finite sequence of enabled actions leads to. -/
inductive Reachable (step : σ → α → Option σ) (init : σ → Prop) : σ → Prop where
  | start {s : σ} : init s → Reachable step init s
  | next {s t : σ} {a : α} : Reachable step init s → step s a = some t → Reachable step init t

/-- Runs prolong reachability, so an executed trace is a proof of it. -/
theorem Reachable.run {step : σ → α → Option σ} {init : σ → Prop} {s t : σ} {as : List α}
    (hs : Reachable step init s) (h : run step s as = some t) : Reachable step init t := by
  induction as generalizing s with
  | nil => cases h; exact hs
  | cons a as ih =>
    rw [run_cons] at h
    obtain ⟨u, hu, ht⟩ := Option.bind_eq_some_iff.mp h
    exact ih (hs.next hu) ht

/-- Every step of the run from a state satisfies a property of its source, action and target. -/
def Along (step : σ → α → Option σ) (P : σ → α → σ → Prop) : σ → List α → Prop
  | _, [] => True
  | s, a :: as => ∀ t, step s a = some t → P s a t ∧ Along step P t as

instance Along.decidable (step : σ → α → Option σ) (P : σ → α → σ → Prop)
    [∀ s a t, Decidable (P s a t)] : ∀ s as, Decidable (Along step P s as)
  | _, [] => isTrue trivial
  | s, a :: as =>
    match h : step s a with
    | none => isTrue fun t ht => by rw [h] at ht; cases ht
    | some t =>
      have := Along.decidable step P t as
      decidable_of_iff (P s a t ∧ Along step P t as)
        ⟨fun hp u hu => by rw [h] at hu; cases hu; exact hp, fun hp => hp t h⟩

theorem Along.and {step : σ → α → Option σ} {P Q : σ → α → σ → Prop} {s : σ} {as : List α}
    (hP : Along step P s as) (hQ : Along step Q s as) :
    Along step (fun s a t => P s a t ∧ Q s a t) s as := by
  induction as generalizing s with
  | nil => trivial
  | cons a as ih =>
    intro t ht
    obtain ⟨hPt, hPrest⟩ := hP t ht
    obtain ⟨hQt, hQrest⟩ := hQ t ht
    exact ⟨⟨hPt, hQt⟩, ih hPrest hQrest⟩

/-- A property of steps that is proved together with an invariant. -/
theorem Along.mono {step : σ → α → Option σ} {P Q : σ → α → σ → Prop} (I : σ → Prop)
    (h : ∀ s a t, I s → step s a = some t → P s a t → Q s a t ∧ I t) {s : σ} {as : List α}
    (hs : I s) (hP : Along step P s as) : Along step Q s as := by
  induction as generalizing s with
  | nil => trivial
  | cons a as ih =>
    intro t ht
    obtain ⟨hPt, hrest⟩ := hP t ht
    obtain ⟨hQt, hIt⟩ := h s a t hs ht hPt
    exact ⟨hQt, ih hIt hrest⟩

/-- The invariant rule for runs all of whose steps have a property. -/
theorem Along.invariant {step : σ → α → Option σ} {P : σ → α → σ → Prop} (I : σ → Prop)
    (h : ∀ s a t, I s → step s a = some t → P s a t → I t) {s t : σ} {as : List α}
    (hs : I s) (hP : Along step P s as) (hrun : Transition.run step s as = some t) : I t := by
  induction as generalizing s with
  | nil =>
    cases hrun
    exact hs
  | cons a as ih =>
    obtain ⟨u, hu, hrest⟩ := Option.bind_eq_some_iff.mp hrun
    obtain ⟨hPu, hPrest⟩ := hP u hu
    exact ih (h s a u hs hu hPu) hPrest hrest

/-- A property that a step keeps exactly when the step has another property. It holds at the
end of a run if all steps do. -/
theorem along_iff {step : σ → α → Option σ} {P : σ → Prop} {Q : σ → α → σ → Prop} (I : σ → Prop)
    (h : ∀ s a t, I s → step s a = some t → I t ∧ (P t ↔ P s ∧ Q s a t)) {s t : σ} {as : List α}
    (hs : I s) (hrun : Transition.run step s as = some t) :
    I t ∧ (P t ↔ P s ∧ Along step Q s as) := by
  induction as generalizing s with
  | nil =>
    cases hrun
    exact ⟨hs, fun hP => ⟨hP, trivial⟩, fun hP => hP.1⟩
  | cons a as ih =>
    obtain ⟨u, hu, hrest⟩ := Option.bind_eq_some_iff.mp hrun
    obtain ⟨hIu, hPu⟩ := h s a u hs hu
    obtain ⟨hIt, hPt⟩ := ih hIu hrest
    have hcons : Along step Q s (a :: as) ↔ Q s a u ∧ Along step Q u as := by
      constructor
      · intro halong
        exact halong u hu
      · intro halong v hv
        cases hu.symm.trans hv
        exact halong
    refine ⟨hIt, ?_⟩
    rw [hPt, hPu, hcons, and_assoc]

/-- The invariant rule. The step case may use that its source is reachable. -/
theorem Reachable.invariant {step : σ → α → Option σ} {init : σ → Prop} (P : σ → Prop)
    (hinit : ∀ s, init s → P s)
    (hstep : ∀ s a t, Reachable step init s → P s → step s a = some t → P t)
    {s : σ} (h : Reachable step init s) : P s := by
  induction h with
  | start h => exact hinit _ h
  | next hs ht ih => exact hstep _ _ _ hs ih ht

end Transition
