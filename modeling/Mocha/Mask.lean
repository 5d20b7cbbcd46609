import Mathlib.Data.List.Basic

/-!
# Bit masks, and walks that use a mask up

A walk goes once through a list of masks. It picks every selected mask that
still shares a bit with the wanted one, and clears the bits of what it picked.
What it picks is a question about single bits: the first selected mask that
holds a wanted bit takes it.
-/
namespace Mask

variable {w : Nat}

/-- Two masks share a bit. -/
def Meets (a b : BitVec w) : Prop := a &&& b ≠ 0#w

instance (a b : BitVec w) : Decidable (Meets a b) := inferInstanceAs (Decidable (_ ≠ _))

theorem eq_zero_iff (a : BitVec w) : a = 0#w ↔ ∀ i, a.getLsbD i = false := by
  constructor
  · intro h i
    rw [h]
    exact BitVec.getLsbD_zero
  · intro h
    apply BitVec.eq_of_getLsbD_eq
    intro i _
    rw [h i, BitVec.getLsbD_zero]

/-- Two masks meet where both have a bit. -/
theorem meets_iff (a b : BitVec w) :
    Meets a b ↔ ∃ i, a.getLsbD i = true ∧ b.getLsbD i = true := by
  unfold Meets
  rw [Ne, eq_zero_iff]
  push Not
  constructor
  · rintro ⟨i, hi⟩
    rw [BitVec.getLsbD_and] at hi
    exact ⟨i, by simpa using hi⟩
  · rintro ⟨i, ha, hb⟩
    exact ⟨i, by rw [BitVec.getLsbD_and, ha, hb]; decide⟩

/-- `a &&& b = a` says that `b` has every bit of `a`. -/
theorem and_eq_left_iff (a b : BitVec w) :
    a &&& b = a ↔ ∀ i, a.getLsbD i = true → b.getLsbD i = true := by
  constructor
  · intro h i ha
    rw [← h, BitVec.getLsbD_and] at ha
    exact ((Bool.and_eq_true _ _).mp ha).2
  · intro h
    apply BitVec.eq_of_getLsbD_eq
    intro i _
    rw [BitVec.getLsbD_and]
    cases ha : a.getLsbD i with
    | false => rfl
    | true => rw [h i ha]; rfl

/-- What is contained in a mask is contained in a larger one. -/
theorem and_or_eq_left {a b : BitVec w} (c : BitVec w) (h : a &&& b = a) : a &&& (b ||| c) = a := by
  rw [and_eq_left_iff] at h ⊢
  intro i ha
  rw [BitVec.getLsbD_or, h i ha]
  rfl

theorem and_or_self (a b : BitVec w) : a &&& (b ||| a) = a := by
  rw [and_eq_left_iff]
  intro i ha
  rw [BitVec.getLsbD_or, ha, Bool.or_true]

/-- A bit of `a &&& ~~~b` is a bit of `a` that `b` lacks. -/
theorem getLsbD_diff (a b : BitVec w) (i : Nat) :
    (a &&& ~~~b).getLsbD i = true ↔ a.getLsbD i = true ∧ b.getLsbD i = false := by
  constructor
  · intro h
    rw [BitVec.getLsbD_and, BitVec.getLsbD_not] at h
    simp only [Bool.and_eq_true, decide_eq_true_eq, Bool.not_eq_true'] at h
    exact ⟨h.1, h.2.2⟩
  · rintro ⟨ha, hb⟩
    have hi : i < w := BitVec.lt_of_getLsbD ha
    rw [BitVec.getLsbD_and, BitVec.getLsbD_not, ha, hb]
    simpa using hi

/-- What meets the rest of a mask meets the mask. -/
theorem Meets.of_diff {a b c : BitVec w} (h : Meets c (a &&& ~~~b)) : Meets c a := by
  obtain ⟨i, hc, hi⟩ := (meets_iff _ _).mp h
  exact (meets_iff _ _).mpr ⟨i, hc, ((getLsbD_diff a b i).mp hi).1⟩

/-- A mask that meets `a` and not `b` meets the difference. -/
theorem Meets.diff {a b c : BitVec w} (ha : Meets c a) (hb : ¬Meets c b) : Meets c (a &&& ~~~b) := by
  obtain ⟨i, hc, hi⟩ := (meets_iff _ _).mp ha
  refine (meets_iff _ _).mpr ⟨i, hc, (getLsbD_diff a b i).mpr ⟨hi, ?_⟩⟩
  rw [← Bool.not_eq_true]
  exact fun h => hb ((meets_iff _ _).mpr ⟨i, hc, h⟩)

/-- Positions, counted from `k`, that the walk over a list of masks picks. -/
def picks (sel : BitVec w → Bool) (want : BitVec w) (k : Nat) : List (BitVec w) → List Nat
  | [] => []
  | t :: ts =>
    if want = 0#w then []
    else if sel t = true ∧ Meets t want then k :: picks sel (want &&& ~~~t) (k + 1) ts
    else picks sel want (k + 1) ts

/-- An empty mask picks nothing. -/
theorem picks_zero (sel : BitVec w → Bool) (k : Nat) (ts : List (BitVec w)) :
    picks sel 0#w k ts = [] := by
  cases ts with
  | nil => rfl
  | cons t ts => simp [picks]

theorem picks_ge {sel : BitVec w → Bool} {want : BitVec w} {k j : Nat} {ts : List (BitVec w)}
    (h : j ∈ picks sel want k ts) : k ≤ j := by
  induction ts generalizing want k with
  | nil => simp [picks] at h
  | cons t ts ih =>
    simp only [picks] at h
    split at h
    · simp at h
    · split at h
      · rcases List.mem_cons.mp h with h | h
        · omega
        · exact Nat.le_trans (Nat.le_succ k) (ih h)
      · exact Nat.le_trans (Nat.le_succ k) (ih h)

/-- Nothing is picked twice, as the places only go up. -/
theorem picks_nodup (sel : BitVec w → Bool) (want : BitVec w) (k : Nat) (ts : List (BitVec w)) :
    (picks sel want k ts).Nodup := by
  induction ts generalizing want k with
  | nil => exact List.nodup_nil
  | cons t ts ih =>
    simp only [picks]
    split
    · exact List.nodup_nil
    · split
      · refine List.nodup_cons.mpr ⟨?_, ih _ _⟩
        intro h
        have := picks_ge h
        omega
      · exact ih _ _

/-- The first selected mask that holds a wanted bit is the one that takes it. -/
def Takes (sel : BitVec w → Bool) (want : BitVec w) (ts : List (BitVec w)) (j : Nat) : Prop :=
  ∃ t, ts[j]? = some t ∧ sel t = true ∧ ∃ i, t.getLsbD i = true ∧ want.getLsbD i = true ∧
    ∀ j' < j, ∀ t', ts[j']? = some t' → sel t' = true → t'.getLsbD i = false

theorem takes_zero (sel : BitVec w → Bool) (want t : BitVec w) (ts : List (BitVec w)) :
    Takes sel want (t :: ts) 0 ↔ sel t = true ∧ Meets t want := by
  rw [meets_iff]
  constructor
  · rintro ⟨u, hu, hs, i, hi, hw, -⟩
    cases hu
    exact ⟨hs, i, hi, hw⟩
  · rintro ⟨hs, i, hi, hw⟩
    exact ⟨t, rfl, hs, i, hi, hw, fun j' h => absurd h (Nat.not_lt_zero j')⟩

/-- The first type takes its bits, and the others are asked for the rest. -/
theorem takes_succ (sel : BitVec w → Bool) (want t : BitVec w) (ts : List (BitVec w)) (j : Nat) :
    Takes sel want (t :: ts) (j + 1) ↔
      Takes sel (if sel t = true then want &&& ~~~t else want) ts j := by
  constructor
  · rintro ⟨u, hu, hs, i, hi, hw, hfirst⟩
    refine ⟨u, hu, hs, i, hi, ?_, ?_⟩
    · split
      case isTrue ht =>
        exact (getLsbD_diff want t i).mpr ⟨hw, hfirst 0 (Nat.succ_pos j) t rfl ht⟩
      case isFalse => exact hw
    · intro j' hj t' ht' hs'
      exact hfirst (j' + 1) (Nat.succ_lt_succ hj) t' ht' hs'
  · rintro ⟨u, hu, hs, i, hi, hw, hfirst⟩
    refine ⟨u, hu, hs, i, hi, ?_, ?_⟩
    · split at hw
      case isTrue => exact ((getLsbD_diff want t i).mp hw).1
      case isFalse => exact hw
    · intro j' hj t' ht' hs'
      cases j' with
      | zero =>
        cases ht'
        rw [if_pos hs'] at hw
        exact ((getLsbD_diff want t i).mp hw).2
      | succ j' => exact hfirst j' (Nat.lt_of_succ_lt_succ hj) t' ht' hs'

theorem not_takes_of_zero (sel : BitVec w → Bool) (ts : List (BitVec w)) (j : Nat) :
    ¬ Takes sel 0#w ts j := by
  rintro ⟨t, -, -, i, -, hw, -⟩
  rw [BitVec.getLsbD_zero] at hw
  cases hw

/-- Clearing the bits of a mask that shares none changes nothing. -/
theorem diff_of_not_meets {a b : BitVec w} (h : ¬ Meets b a) : a &&& ~~~b = a := by
  apply BitVec.eq_of_getLsbD_eq
  intro i hi
  rw [Bool.eq_iff_iff, getLsbD_diff]
  constructor
  · exact fun h => h.1
  · intro ha
    refine ⟨ha, ?_⟩
    cases hb : b.getLsbD i with
    | false => rfl
    | true => exact absurd ((meets_iff b a).mpr ⟨i, hb, ha⟩) h

/-- The list of the walk is the relation; by induction on the types. -/
theorem mem_picks (sel : BitVec w → Bool) (want : BitVec w) (k j : Nat) (ts : List (BitVec w)) :
    k + j ∈ picks sel want k ts ↔ Takes sel want ts j := by
  induction ts generalizing want k j with
  | nil => simp [picks, Takes]
  | cons t ts ih =>
    by_cases hz : want = 0#w
    · subst hz
      rw [picks_zero]
      exact iff_of_false (List.not_mem_nil) (not_takes_of_zero sel _ j)
    · simp only [picks, if_neg hz]
      cases j with
      | zero =>
        rw [takes_zero]
        split
        case isTrue h => simp [h]
        case isFalse h =>
          refine iff_of_false ?_ h
          intro hmem
          have := picks_ge hmem
          omega
      | succ j =>
        rw [takes_succ, ← ih _ (k + 1) j, show k + 1 + j = k + (j + 1) by omega]
        split
        case isTrue h => simp [h.1]
        case isFalse h =>
          by_cases hs : sel t = true
          · have hm : ¬ Meets t want := fun hm => h ⟨hs, hm⟩
            rw [if_pos hs, diff_of_not_meets hm]
          · rw [if_neg hs]

end Mask
