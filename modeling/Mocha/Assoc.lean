import Mathlib.Data.List.Nodup

/-!
# Association lists

A finite map with keys in insertion order. The lemmas are about maps whose keys
are distinct; `adjust` and `erase` keep them so.
-/
abbrev Assoc (κ β : Type) := List (κ × β)

namespace Assoc

variable {κ β : Type}

def keys (m : Assoc κ β) : List κ := m.map fun e => e.1

def values (m : Assoc κ β) : List β := m.map fun e => e.2

@[simp] theorem keys_append (m n : Assoc κ β) : keys (m ++ n) = m.keys ++ n.keys := by
  simp [keys]

theorem mem_keys {m : Assoc κ β} {e : κ × β} (h : e ∈ m) : e.1 ∈ m.keys := List.mem_map_of_mem h

/-- Distinct keys: an entry is determined by its key. -/
theorem eq_of_mem {m : Assoc κ β} (hm : m.keys.Nodup) {d e : κ × β} (hd : d ∈ m) (he : e ∈ m)
    (h : d.1 = e.1) : d = e :=
  List.inj_on_of_nodup_map hm hd he h

variable [DecidableEq κ]

def get (m : Assoc κ β) (k : κ) : Option β := (m.find? fun e => e.1 = k).map fun e => e.2

/-- Change the value under a key that is present. -/
def adjust (m : Assoc κ β) (k : κ) (f : β → β) : Assoc κ β :=
  m.map fun e => if e.1 = k then (e.1, f e.2) else e

def erase (m : Assoc κ β) (k : κ) : Assoc κ β := m.filter fun e => e.1 ≠ k

/-- What is looked up is there. -/
theorem mem_of_get {m : Assoc κ β} {k : κ} {b : β} (h : m.get k = some b) : (k, b) ∈ m := by
  obtain ⟨e, he, rfl⟩ := Option.map_eq_some_iff.mp h
  have hk : e.1 = k := by simpa using List.find?_some he
  subst hk
  exact List.mem_of_find?_eq_some he

/-- Nothing is found exactly under a key that does not occur. -/
theorem get_eq_none_iff (m : Assoc κ β) (k : κ) : m.get k = none ↔ k ∉ m.keys := by
  simp only [get, keys, Option.map_eq_none_iff, List.find?_eq_none, List.mem_map, decide_eq_true_eq]
  constructor
  · rintro h ⟨e, he, rfl⟩
    exact h e he rfl
  · rintro h e he rfl
    exact h ⟨e, he, rfl⟩

theorem get_of_mem {m : Assoc κ β} (hm : m.keys.Nodup) {k : κ} {b : β} (h : (k, b) ∈ m) :
    m.get k = some b := by
  cases hg : m.get k with
  | none => exact absurd (mem_keys h) ((get_eq_none_iff m k).mp hg)
  | some c =>
    have heq := eq_of_mem hm (mem_of_get hg) h rfl
    cases heq
    rfl

@[simp] theorem keys_adjust (m : Assoc κ β) (k : κ) (f : β → β) : (m.adjust k f).keys = m.keys := by
  simp only [keys, adjust, List.map_map]
  apply List.map_congr_left
  intro e _
  by_cases h : e.1 = k <;> simp [h]

theorem keys_erase_sublist (m : Assoc κ β) (k : κ) : (m.erase k).keys.Sublist m.keys :=
  List.filter_sublist.map _

/-- Erasing takes every entry of the key, and only these. -/
theorem mem_erase {m : Assoc κ β} {k : κ} {e : κ × β} : e ∈ m.erase k ↔ e ∈ m ∧ e.1 ≠ k := by
  simp [erase]

/-- Adjusting changes the values under the key and keeps the other entries. -/
theorem mem_adjust {m : Assoc κ β} {k : κ} {f : β → β} {e : κ × β} :
    e ∈ m.adjust k f ↔ (e ∈ m ∧ e.1 ≠ k) ∨ ∃ b, (k, b) ∈ m ∧ e = (k, f b) := by
  simp only [adjust, List.mem_map]
  constructor
  · rintro ⟨d, hd, rfl⟩
    by_cases h : d.1 = k
    · rw [if_pos h]
      subst h
      exact .inr ⟨d.2, hd, rfl⟩
    · rw [if_neg h]
      exact .inl ⟨hd, h⟩
  · rintro (⟨he, hk⟩ | ⟨b, hb, rfl⟩)
    · exact ⟨e, he, by rw [if_neg hk]⟩
    · exact ⟨(k, b), hb, by simp⟩

theorem adjust_of_not_mem {m : Assoc κ β} {k : κ} (h : k ∉ m.keys) (f : β → β) : m.adjust k f = m := by
  induction m with
  | nil => rfl
  | cons e m ih =>
    have hne : e.1 ≠ k := fun he => h (he ▸ mem_keys List.mem_cons_self)
    have hrest : k ∉ keys m := fun hm => h (List.mem_cons_of_mem e.1 hm)
    have htail := ih hrest
    simp only [adjust, List.map_cons, if_neg hne] at htail ⊢
    rw [htail]

/-- A changed value contributes what it did before, and something new. -/
theorem flatMap_adjust_perm {γ : Type} {m : Assoc κ β} (hm : m.keys.Nodup) {k : κ} {b : β}
    (h : (k, b) ∈ m) {f : β → β} {g : β → List γ} {extra : List γ}
    (hg : (g (f b)).Perm (g b ++ extra)) :
    ((m.adjust k f).values.flatMap g).Perm (m.values.flatMap g ++ extra) := by
  induction m with
  | nil => cases h
  | cons e m ih =>
    obtain ⟨hfresh, hrest⟩ : e.1 ∉ keys m ∧ (keys m).Nodup := List.nodup_cons.mp hm
    rcases List.mem_cons.mp h with rfl | hmem
    · have hid : adjust m k f = m := adjust_of_not_mem hfresh f
      have hcons : adjust ((k, b) :: m) k f = (k, f b) :: adjust m k f := by simp [adjust]
      rw [hcons, hid]
      simp only [values, List.map_cons, List.flatMap_cons, List.append_assoc]
      refine (hg.append_right _).trans ?_
      rw [List.append_assoc]
      exact List.perm_append_comm.append_left _
    · have hne : e.1 ≠ k := by
        intro he
        rw [he] at hfresh
        exact hfresh (mem_keys hmem)
      have hcons : adjust (e :: m) k f = e :: adjust m k f := by simp [adjust, hne]
      rw [hcons]
      simp only [values, List.map_cons, List.flatMap_cons, List.append_assoc]
      exact (ih hrest hmem).append_left _

/-- The adjusted value is what is found afterwards. -/
theorem get_adjust_same {m : Assoc κ β} (hm : m.keys.Nodup) {k : κ} {b : β} (h : m.get k = some b)
    (f : β → β) : (m.adjust k f).get k = some (f b) := by
  have hm' : (m.adjust k f).keys.Nodup := by
    rw [keys_adjust]
    exact hm
  exact get_of_mem hm' (mem_adjust.mpr (.inr ⟨b, mem_of_get h, rfl⟩))

theorem get_adjust_ne {m : Assoc κ β} (hm : m.keys.Nodup) {j k : κ} {b : β} (h : m.get j = some b)
    (hjk : j ≠ k) (f : β → β) : (m.adjust k f).get j = some b := by
  have hm' : (m.adjust k f).keys.Nodup := by
    rw [keys_adjust]
    exact hm
  exact get_of_mem hm' (mem_adjust.mpr (.inl ⟨mem_of_get h, hjk⟩))

end Assoc
