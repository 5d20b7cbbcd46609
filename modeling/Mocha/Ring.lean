import Mathlib.Data.List.Basic
import Mathlib.Data.List.Range

/-!
# Windows of a circular memory

A circular memory is a total function on slot numbers. A window of `size` slots
starts at `start` and wraps at `capacity`; its contents are read oldest first.
-/
namespace Ring

variable {α : Type}

/-- The `size` slots from `start` on, wrapping at `capacity`. -/
def window (data : Nat → α) (capacity start size : Nat) : List α :=
  (List.range size).map fun i => data ((start + i) % capacity)

/-- Overwrite consecutive slots from `first` on, as `memcpy` does. -/
def copyAt (data : Nat → α) (first : Nat) (xs : List α) : Nat → α :=
  fun j => if h : first ≤ j ∧ j - first < xs.length then xs.get ⟨j - first, h.2⟩ else data j

@[simp] theorem window_length (data : Nat → α) (c s n : Nat) : (window data c s n).length = n := by
  simp [window]

@[simp] theorem window_zero (data : Nat → α) (c s : Nat) : window data c s 0 = [] := rfl

/-- The oldest element is the slot at `start`; the rest is the window behind it. -/
theorem window_succ (data : Nat → α) (c s n : Nat) (hs : s < c) :
    window data c s (n + 1) = data s :: window data c ((s + 1) % c) n := by
  simp only [window, List.range_succ_eq_map, List.map_cons, List.map_map, Nat.add_zero,
    Nat.mod_eq_of_lt hs, List.cons.injEq, true_and]
  apply List.map_congr_left
  intro i hi
  simp only [Function.comp, Nat.succ_eq_add_one]
  rw [Nat.mod_add_mod, show s + (i + 1) = s + 1 + i by omega]

theorem copyAt_outside (data : Nat → α) (first j : Nat) (xs : List α)
    (h : j < first ∨ first + xs.length ≤ j) : copyAt data first xs j = data j := by
  simp only [copyAt]
  rw [dif_neg]
  omega

theorem copyAt_inside (data : Nat → α) (first i : Nat) (xs : List α) (hi : i < xs.length) :
    copyAt data first xs (first + i) = xs.get ⟨i, hi⟩ := by
  simp only [copyAt]
  rw [dif_pos ⟨by omega, by omega⟩]
  congr 2
  omega

/-- Offset `i` from `start` is the slot `start + i`, or that slot minus one turn. -/
theorem slot_cases (c s i : Nat) (hs : s < c) (hi : i ≤ c) :
    ((s + i) % c = s + i ∧ s + i < c) ∨ ((s + i) % c = s + i - c ∧ c ≤ s + i) := by
  by_cases h : s + i < c
  · exact .inl ⟨Nat.mod_eq_of_lt h, h⟩
  · refine .inr ⟨?_, by omega⟩
    rw [Nat.mod_eq_sub_mod (by omega)]
    exact Nat.mod_eq_of_lt (by omega)

/-- Copying behind the window, without passing the end of the memory or running
into the oldest slot, appends to its contents. -/
theorem window_copyAt (data : Nat → α) (c s n : Nat) (xs : List α) (hs : s < c)
    (hroom : n + xs.length ≤ c) (hend : (s + n) % c + xs.length ≤ c) :
    window (copyAt data ((s + n) % c) xs) c s (n + xs.length) = window data c s n ++ xs := by
  apply List.ext_get
  · simp
  intro i hi hj
  simp only [window_length] at hi
  have hn := slot_cases c s n hs (by omega)
  have hslot := slot_cases c s i hs (by omega)
  simp only [window, List.get_eq_getElem, List.getElem_map, List.getElem_range, List.getElem_append,
    List.length_map, List.length_range]
  split
  · exact copyAt_outside _ _ _ _ (by omega)
  · have hoff : (s + i) % c = (s + n) % c + (i - n) := by omega
    rw [hoff]
    exact copyAt_inside _ _ _ _ (by omega)

/-! ## The ring as a queue

Two parties share the memory. `put` is all that one of them has stored, `got` all that the other
has fetched; element `j` of `put` lies in slot `j` modulo the capacity until it is fetched. -/

structure Fifo (data : Nat → α) (c : Nat) (put got : List α) : Prop where
  fetched : got = put.take got.length
  room : put.length ≤ got.length + c
  slots : ∀ j x, got.length ≤ j → put[j]? = some x → data (j % c) = x

theorem fifo_nil (data : Nat → α) (c : Nat) : Fifo data c [] [] where
  fetched := rfl
  room := Nat.zero_le _
  slots := fun _ _ _ h => nomatch h

section Fifo

variable {data : Nat → α} {c : Nat} {put got : List α}

theorem Fifo.le (h : Fifo data c put got) : got.length ≤ put.length := by
  have hlen := congrArg List.length h.fetched
  rw [List.length_take] at hlen
  omega

theorem Fifo.isPrefix (h : Fifo data c put got) : got <+: put :=
  List.prefix_iff_eq_take.mpr h.fetched

/-- Two places of the stream that are less than a turn apart lie in different slots. -/
theorem slot_ne {i j : Nat} (hij : i < j) (hj : j < i + c) : i % c ≠ j % c := by
  intro heq
  have hmod : (j - i) % c = 0 := by
    rw [← Nat.sub_mod_eq_zero_of_mod_eq heq.symm]
  rw [Nat.mod_eq_of_lt (by omega)] at hmod
  omega

/-- Storing behind the stored, without passing the end of the memory or reaching what is not yet
fetched. -/
theorem Fifo.store (h : Fifo data c put got) (xs : List α)
    (hroom : put.length + xs.length ≤ got.length + c) (hend : put.length % c + xs.length ≤ c) :
    Fifo (copyAt data (put.length % c) xs) c (put ++ xs) got where
  fetched := by
    rw [List.take_append_of_le_length h.le]
    exact h.fetched
  room := by
    rw [List.length_append]
    exact hroom
  slots := by
    intro j x hj hx
    by_cases hold : j < put.length
    · rw [List.getElem?_append_left hold] at hx
      rw [copyAt_outside]
      · exact h.slots j x hj hx
      · by_contra hnot
        have hslot : j % c ≠ (put.length + (j % c - put.length % c)) % c :=
          slot_ne (by omega) (by omega)
        apply hslot
        rw [← Nat.mod_add_mod, show put.length % c + (j % c - put.length % c) = j % c by omega,
          Nat.mod_mod]
    · have hlt : j < (put ++ xs).length := by
        by_contra hge
        rw [List.getElem?_eq_none (Nat.le_of_not_lt hge)] at hx
        cases hx
      rw [List.length_append] at hlt
      rw [List.getElem?_append_right (by omega)] at hx
      have hslot : j % c = put.length % c + (j - put.length) := by
        have hturn : put.length % c + (j - put.length) < c := by omega
        rw [show j = put.length + (j - put.length) by omega, ← Nat.mod_add_mod,
          Nat.mod_eq_of_lt (by omega)]
        omega
      rw [hslot, copyAt_inside _ _ _ _ (by omega)]
      rw [List.getElem?_eq_getElem (by omega)] at hx
      exact Option.some.inj hx

/-- One more element. -/
theorem Fifo.storeOne (h : Fifo data c put got) (x : α) (hroom : put.length < got.length + c) :
    Fifo (copyAt data (put.length % c) [x]) c (put ++ [x]) got := by
  have hturn : put.length % c < c := Nat.mod_lt _ (by have := h.le; omega)
  exact h.store [x] (by simp; omega) (by simp; omega)

/-- The slots that come next hold the next of what was stored. -/
theorem Fifo.window_eq (h : Fifo data c put got) {n : Nat} (hn : got.length + n ≤ put.length) :
    window data c (got.length % c) n = (put.drop got.length).take n := by
  apply List.ext_getElem
  · simp
    omega
  · intro i hi hj
    simp only [window_length] at hi
    simp only [window, List.getElem_map, List.getElem_range, List.getElem_take, List.getElem_drop,
      Nat.mod_add_mod]
    exact h.slots (got.length + i) _ (by omega) (List.getElem?_eq_getElem (by omega))

/-- Fetching what comes next. -/
theorem Fifo.fetch (h : Fifo data c put got) {n : Nat} (hn : got.length + n ≤ put.length) :
    Fifo data c put (got ++ window data c (got.length % c) n) where
  fetched := by
    rw [h.window_eq hn, List.length_append, List.length_take, List.length_drop,
      Nat.min_eq_left (by omega), List.take_add, ← h.fetched]
  room := by
    have hroom := h.room
    simp
    omega
  slots := by
    intro j x hj hx
    rw [List.length_append] at hj
    exact h.slots j x (by omega) hx

end Fifo

end Ring
