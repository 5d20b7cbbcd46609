import Mathlib.Data.List.Count
import Mathlib.Data.List.Nodup
import Mathlib.Data.Nat.ModEq

/-!
# Strict rotation

A server goes through `n` places in a circle and never skips one. What it serves
from some place on is a list of residues; between two turns of one place every
other place has one turn.
-/
namespace Rotation

/-- The first `k` turns from the place `start`. -/
def turns (n start k : Nat) : List Nat := (List.range k).map fun j => (start + j) % n

@[simp] theorem turns_zero (n start : Nat) : turns n start 0 = [] := rfl

@[simp] theorem length_turns (n start k : Nat) : (turns n start k).length = k := by simp [turns]

theorem turns_succ (n start k : Nat) :
    turns n start (k + 1) = start % n :: turns n ((start + 1) % n) k := by
  rw [turns, List.range_succ_eq_map, List.map_cons, List.map_map, turns, Nat.add_zero]
  congr 1
  apply List.map_congr_left
  intro j _
  simp only [Function.comp_apply, Nat.mod_add_mod]
  congr 1
  omega

theorem turns_add (n start k l : Nat) :
    turns n start (k + l) = turns n start k ++ turns n (start + k) l := by
  induction l with
  | zero => simp
  | succ l ih =>
    have hlast (start l : Nat) : turns n start (l + 1) = turns n start l ++ [(start + l) % n] := by
      rw [turns, List.range_succ, List.map_append]
      rfl
    rw [← Nat.add_assoc, hlast, ih, hlast, List.append_assoc, Nat.add_assoc]

theorem mod_eq_of_add {n a d : Nat} (h : (a + d) % n = a % n) (hd : d < n) : d = 0 := by
  have hmod : (a + d) % n = (a + 0) % n := h
  have hzero : d % n = 0 % n := Nat.ModEq.add_left_cancel' a hmod
  rwa [Nat.mod_eq_of_lt hd, Nat.zero_mod] at hzero

/-- Fewer than a full round of turns has no place twice. -/
theorem turns_nodup {n start k : Nat} (h : k ≤ n) : (turns n start k).Nodup := by
  rw [turns, List.nodup_map_iff_inj_on List.nodup_range]
  have hlt : ∀ i j, i < j → j < k → (start + i) % n ≠ (start + j) % n := by
    intro i j hij hj heq
    have hsplit : start + i + (j - i) = start + j := by omega
    have hzero := mod_eq_of_add (a := start + i) (d := j - i) (by rw [hsplit, heq]) (by omega)
    omega
  intro i hi j hj heq
  rw [List.mem_range] at hi hj
  rcases Nat.lt_trichotomy i j with hij | hij | hij
  · exact absurd heq (hlt i j hij hj)
  · exact hij
  · exact absurd heq.symm (hlt j i hij hi)

/-- A full round has every place. -/
theorem mem_turns {n start k q : Nat} (hq : q < n) (h : n ≤ k) : q ∈ turns n start k := by
  rw [turns, List.mem_map]
  have hpos : 0 < n := by omega
  have hstart := Nat.mod_lt start hpos
  have hmod (d : Nat) : (start + d) % n = (start % n + d) % n := (Nat.mod_add_mod start n d).symm
  by_cases hle : start % n ≤ q
  · refine ⟨q - start % n, List.mem_range.mpr (by omega), ?_⟩
    rw [hmod, Nat.add_sub_cancel' hle, Nat.mod_eq_of_lt hq]
  · refine ⟨q + n - start % n, List.mem_range.mpr (by omega), ?_⟩
    have hsum : start % n + (q + n - start % n) = q + n := by omega
    rw [hmod, hsum, Nat.add_mod_right, Nat.mod_eq_of_lt hq]

/-- Turns without the place `q` are fewer than a round, and have no place twice. -/
theorem turns_without {n start k q : Nat} (hq : q < n) (h : q ∉ turns n start k) :
    (turns n start k).Nodup := by
  apply turns_nodup
  by_contra hk
  exact h (mem_turns hq (by omega))

/-- Between two turns of one place every other place has exactly one. -/
theorem turns_between {n start k q : Nat} {before mid after : List Nat}
    (h : turns n start k = before ++ q :: (mid ++ q :: after)) (hmid : q ∉ mid) {p : Nat}
    (hp : p < n) (hne : p ≠ q) : mid.count p = 1 := by
  have hlen : k = before.length + (mid.length + 1 + after.length + 1) := by
    have hcongr := congrArg List.length h
    simp only [length_turns, List.length_append, List.length_cons] at hcongr
    omega
  rw [hlen, turns_add] at h
  obtain ⟨-, htail⟩ := List.append_inj h (length_turns _ _ _)
  rw [turns_succ, turns_add] at htail
  obtain ⟨hfirst, hrest⟩ := List.cons.inj htail
  have hsnoc : mid ++ q :: after = (mid ++ [q]) ++ after := by simp
  rw [hsnoc] at hrest
  obtain ⟨hround, -⟩ := List.append_inj hrest (by simp)
  have hlast := turns_add n ((start + before.length + 1) % n) mid.length 1
  rw [hround] at hlast
  obtain ⟨hmids, hq⟩ := List.append_inj hlast (length_turns _ _ _).symm
  have hq' : q = ((start + before.length + 1) % n + mid.length) % n := (List.cons.inj hq).1
  have hfull : n ≤ mid.length + 1 := by
    by_contra hlt
    have hagain : (start + before.length + (mid.length + 1)) % n =
        (start + before.length) % n := by
      rw [hfirst, hq', Nat.mod_add_mod]
      congr 1
      omega
    have hzero := mod_eq_of_add hagain (by omega)
    omega
  have hmem : p ∈ mid ++ [q] := by
    rw [← hround]
    exact mem_turns hp hfull
  have hin : p ∈ mid := by
    rcases List.mem_append.mp hmem with hm | hm
    · exact hm
    · exact absurd (List.mem_singleton.mp hm) hne
  have hqn : q < n := by
    rw [hq']
    exact Nat.mod_lt _ (by omega)
  rw [hmids] at hmid hin ⊢
  exact List.count_eq_one_of_mem (turns_without hqn hmid) hin

end Rotation
