import Mathlib.Logic.Relation
import Mathlib.Order.WellFounded
import Mathlib.Data.Set.Finite.Lemmas

/-!
# Chains of a partial function

A partial function `next` leads from each element to at most one other. Followed
from an element until it leads nowhere, it lists a chain. On a finite set that
it does not leave, and without a cycle, every chain ends.
-/
namespace Chain

variable {α : Type} {next : α → Option α}

/-- `l` lists the elements from `a` to the one that leads nowhere. -/
inductive Follows (next : α → Option α) : α → List α → Prop
  | stop {a : α} : next a = none → Follows next a [a]
  | hop {a b : α} {l : List α} : next a = some b → Follows next b l → Follows next a (a :: l)

/-- Two neighbours of a chain. -/
theorem Follows.hop_inv {a b : α} {l : List α} (h : Follows next a (a :: b :: l)) :
    next a = some b ∧ Follows next b (b :: l) := by
  cases h with
  | hop hnext hrest =>
    cases hrest with
    | stop hnone => exact ⟨hnext, .stop hnone⟩
    | hop hnext' hrest => exact ⟨hnext, .hop hnext' hrest⟩

theorem Follows.unique {a : α} {l l' : List α} (h : Follows next a l) (h' : Follows next a l') :
    l = l' := by
  induction h generalizing l' with
  | stop hnone =>
    cases h' with
    | stop _ => rfl
    | hop hnext _ => rw [hnone] at hnext; cases hnext
  | hop hnext _ ih =>
    cases h' with
    | stop hnone => rw [hnext] at hnone; cases hnone
    | hop hnext' hrest =>
      rw [hnext] at hnext'
      cases hnext'
      rw [ih hrest]

/-- `b` is what `a` leads to, both in the set. -/
def Behind (next : α → Option α) (names : List α) (b a : {x // x ∈ names}) : Prop :=
  next a.val = some b.val

/-- Without a cycle the steps inside a finite set cannot go on for ever. -/
theorem wellFounded_behind {names : List α}
    (hacyclic : ∀ a, ¬ Relation.TransGen (fun a b => next a = some b) a a) :
    WellFounded (Behind next names) := by
  have hfinite : Finite {x // x ∈ names} := (List.finite_toSet names).to_subtype
  have hirrefl : Std.Irrefl (Relation.TransGen (Behind next names)) := by
    refine ⟨fun a hcycle => hacyclic a.val ?_⟩
    exact (Relation.transGen_swap.mp hcycle).lift Subtype.val fun _ _ hstep => hstep
  have hwf := Finite.wellFounded_of_trans_of_irrefl (Relation.TransGen (Behind next names))
  exact Subrelation.wf (fun hstep => Relation.TransGen.single hstep) hwf

/-- Every chain of a finite set ends, unless there is a cycle. -/
theorem exists_follows {names : List α} (hclosed : ∀ a ∈ names, ∀ b, next a = some b → b ∈ names)
    (hacyclic : ∀ a, ¬ Relation.TransGen (fun a b => next a = some b) a a) {a : α}
    (ha : a ∈ names) : ∃ l, Follows next a l := by
  have hall : ∀ x : {x // x ∈ names}, ∃ l, Follows next x.val l := by
    intro x
    induction x using (wellFounded_behind hacyclic).induction with
    | _ x ih =>
      cases hnext : next x.val with
      | none => exact ⟨[x.val], .stop hnext⟩
      | some b =>
        obtain ⟨l, hl⟩ := ih ⟨b, hclosed x.val x.property b hnext⟩ hnext
        exact ⟨x.val :: l, .hop hnext hl⟩
  exact hall ⟨a, ha⟩

end Chain
