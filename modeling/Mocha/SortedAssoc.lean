import Mathlib.Order.Lattice
import Mocha.Assoc

/-!
# Sorted association lists

A finite map whose keys ascend. `put` adds a key at its place, or gives a key that is
there a new value. A sorted list is rebuilt by putting its entries one after the other.
-/
namespace Assoc

variable {κ β : Type}

section Lookup

variable [DecidableEq κ]

@[simp] theorem get_nil (k : κ) : get ([] : Assoc κ β) k = none := rfl

theorem get_cons (e : κ × β) (m : Assoc κ β) (k : κ) :
    get (e :: m) k = if e.1 = k then some e.2 else get m k := by
  by_cases h : e.1 = k <;> simp [get, h]

/-- An erased key is gone, the others are found as before. -/
theorem get_erase (m : Assoc κ β) (j k : κ) :
    get (m.erase k) j = if j = k then none else get m j := by
  induction m with
  | nil => simp [Assoc.erase]
  | cons e m ih =>
    by_cases hek : e.1 = k
    · have hstep : Assoc.erase (e :: m) k = Assoc.erase m k := by simp [Assoc.erase, hek]
      rw [hstep, ih, get_cons, hek]
      by_cases hjk : j = k
      · rw [if_pos hjk, if_pos hjk]
      · rw [if_neg hjk, if_neg hjk, if_neg (Ne.symm hjk)]
    · have hstep : Assoc.erase (e :: m) k = e :: Assoc.erase m k := by simp [Assoc.erase, hek]
      rw [hstep, get_cons, ih, get_cons]
      by_cases hje : e.1 = j
      · rw [if_pos hje, if_pos hje, if_neg (hje ▸ hek)]
      · rw [if_neg hje, if_neg hje]

end Lookup

variable [LinearOrder κ]

def put (k : κ) (b : β) : Assoc κ β → Assoc κ β
  | [] => [(k, b)]
  | e :: m =>
    if k < e.1 then (k, b) :: e :: m
    else if k = e.1 then (k, b) :: m
    else e :: put k b m

def Ascending (m : Assoc κ β) : Prop := m.Pairwise fun d e => d.1 < e.1

/-- Putting adds the one entry and no other. -/
theorem mem_put {k : κ} {b : β} {m : Assoc κ β} {e : κ × β} (h : e ∈ put k b m) :
    e = (k, b) ∨ e ∈ m := by
  induction m with
  | nil => exact .inl (List.mem_singleton.mp h)
  | cons d m ih =>
    simp only [put] at h
    split_ifs at h
    · simpa using h
    · rcases List.mem_cons.mp h with rfl | hmem
      · exact .inl rfl
      · exact .inr (List.mem_cons_of_mem d hmem)
    · rcases List.mem_cons.mp h with rfl | hmem
      · exact .inr List.mem_cons_self
      · exact (ih hmem).imp_right (List.mem_cons_of_mem d)

/-- Insertion keeps the order, so no key occurs twice. -/
theorem Ascending.put {m : Assoc κ β} (hm : Ascending m) (k : κ) (b : β) :
    Ascending (put k b m) := by
  induction m with
  | nil => exact List.pairwise_singleton _ _
  | cons d m ih =>
    obtain ⟨hd, hrest⟩ := List.pairwise_cons.mp hm
    simp only [Assoc.put]
    split_ifs with hlt heq
    · refine List.pairwise_cons.mpr ⟨fun e he => ?_, hm⟩
      rcases List.mem_cons.mp he with rfl | hmem
      · exact hlt
      · exact hlt.trans (hd e hmem)
    · exact List.pairwise_cons.mpr ⟨fun e he => heq ▸ hd e he, hrest⟩
    · refine List.pairwise_cons.mpr ⟨fun e he => ?_, ih hrest⟩
      rcases mem_put he with rfl | hmem
      · exact lt_of_le_of_ne (not_lt.mp hlt) (Ne.symm heq)
      · exact hd e hmem

/-- A key above all the others goes to the end. -/
theorem put_last {m : Assoc κ β} {k : κ} (b : β) (h : ∀ e ∈ m, e.1 < k) :
    put k b m = m ++ [(k, b)] := by
  induction m with
  | nil => rfl
  | cons e m ih =>
    have he : e.1 < k := h e List.mem_cons_self
    have hrest := ih fun d hd => h d (List.mem_cons_of_mem e hd)
    rw [put, if_neg (not_lt.mpr he.le), if_neg he.ne', hrest, List.cons_append]

/-- Putting the entries of a sorted list in their order gives the list again. -/
theorem foldl_put {m n : Assoc κ β} (h : Ascending (m ++ n)) :
    n.foldl (fun acc e => put e.1 e.2 acc) m = m ++ n := by
  induction n generalizing m with
  | nil => simp
  | cons e n ih =>
    have hlast : ∀ d ∈ m, d.1 < e.1 := fun d hd =>
      (List.pairwise_append.mp h).2.2 d hd e List.mem_cons_self
    have hnext : Ascending ((m ++ [e]) ++ n) := by
      rw [List.append_assoc]
      exact h
    rw [List.foldl_cons, put_last e.2 hlast, ih hnext, List.append_assoc]
    rfl

theorem Ascending.erase [DecidableEq κ] {m : Assoc κ β} (hm : Ascending m) (k : κ) :
    Ascending (m.erase k) :=
  List.Pairwise.filter _ hm

/-- A put is seen under its own key and under no other. -/
theorem get_put [DecidableEq κ] (m : Assoc κ β) (j k : κ) (b : β) :
    get (put k b m) j = if j = k then some b else get m j := by
  induction m with
  | nil =>
    rw [put, get_cons]
    simp only [eq_comm]
  | cons e m ih =>
    have hself : (k = j) = (j = k) := propext eq_comm
    rw [put]
    by_cases hlt : k < e.1
    · rw [if_pos hlt, get_cons]
      simp only [hself]
    · by_cases heq : k = e.1
      · rw [if_neg hlt, if_pos heq, get_cons, get_cons e, ← heq]
        simp only [hself]
        by_cases hjk : j = k
        · rw [if_pos hjk, if_pos hjk]
        · rw [if_neg hjk, if_neg hjk, if_neg hjk]
      · rw [if_neg hlt, if_neg heq, get_cons, get_cons e, ih]
        by_cases hje : e.1 = j
        · have hjk : j ≠ k := fun h => heq (h.symm.trans hje.symm)
          rw [if_pos hje, if_pos hje, if_neg hjk]
        · rw [if_neg hje, if_neg hje]

end Assoc
