import Mathlib.Data.List.Basic

/-!
# A first-in first-out channel with markers

Data and markers travel through one channel. A consumer that only counts data
can still honour the markers: each one carries the number of data items that
were ahead of it, and is let through once that many have been consumed.
-/
namespace Barrier

inductive Item (ε μ : Type) where
  | event : ε → Item ε μ
  | mark : μ → Item ε μ
  deriving DecidableEq, Repr

variable {ε μ α : Type}

def events : List (Item ε μ) → List ε
  | [] => []
  | .event e :: rest => e :: events rest
  | .mark _ :: rest => events rest

def marks : List (Item ε μ) → List μ
  | [] => []
  | .event _ :: rest => marks rest
  | .mark h :: rest => h :: marks rest

/-- Every marker with the count at which it is due, when `c` items came before. -/
def barriers (c : Nat) : List (Item ε μ) → List (μ × Nat)
  | [] => []
  | .event _ :: rest => barriers (c + 1) rest
  | .mark h :: rest => (h, c) :: barriers c rest

@[simp] theorem events_append (a b : List (Item ε μ)) : events (a ++ b) = events a ++ events b := by
  induction a with
  | nil => rfl
  | cons x a ih => cases x <;> simp [events, ih]

@[simp] theorem marks_append (a b : List (Item ε μ)) : marks (a ++ b) = marks a ++ marks b := by
  induction a with
  | nil => rfl
  | cons x a ih => cases x <;> simp [marks, ih]

@[simp] theorem events_map_event (xs : List ε) : events (xs.map (.event : ε → Item ε μ)) = xs := by
  induction xs with
  | nil => rfl
  | cons x xs ih => simp [events, ih]

@[simp] theorem marks_map_event (xs : List ε) : marks (xs.map (.event : ε → Item ε μ)) = [] := by
  induction xs with
  | nil => rfl
  | cons x xs ih => simp [marks, ih]

@[simp] theorem events_map_mark (hs : List μ) : events (hs.map (.mark : μ → Item ε μ)) = [] := by
  induction hs with
  | nil => rfl
  | cons x xs ih => simp [events, ih]

theorem barriers_append (c : Nat) (a b : List (Item ε μ)) :
    barriers c (a ++ b) = barriers c a ++ barriers (c + (events a).length) b := by
  induction a generalizing c with
  | nil => simp [barriers, events]
  | cons x a ih =>
    cases x with
    | event e => simp [barriers, events, ih, Nat.add_comm, Nat.add_left_comm]
    | mark h => simp [barriers, events, ih]

@[simp] theorem barriers_map_event (c : Nat) (xs : List ε) :
    barriers c (xs.map (.event : ε → Item ε μ)) = [] := by
  induction xs generalizing c with
  | nil => rfl
  | cons x xs ih => simp [barriers, ih]

@[simp] theorem barriers_map_mark (c : Nat) (hs : List μ) :
    barriers c (hs.map (.mark : μ → Item ε μ)) = hs.map fun h => (h, c) := by
  induction hs with
  | nil => rfl
  | cons x xs ih => simp [barriers, ih]

@[simp] theorem barriers_fst (c : Nat) (a : List (Item ε μ)) : (barriers c a).map Prod.fst = marks a := by
  induction a generalizing c with
  | nil => rfl
  | cons x a ih => cases x <;> simp [barriers, marks, ih]

/-- No marker is due before what was consumed, nor after what is queued. -/
theorem barriers_bounds (c : Nat) (a : List (Item ε μ)) (b : μ × Nat) (hb : b ∈ barriers c a) :
    c ≤ b.2 ∧ b.2 ≤ c + (events a).length := by
  induction a generalizing c with
  | nil => simp [barriers] at hb
  | cons x a ih =>
    cases x with
    | event e =>
      have h := ih (c + 1) hb
      simp only [events, List.length_cons]
      omega
    | mark h =>
      rcases List.mem_cons.mp hb with rfl | hb
      · simp
      · simpa [events] using ih c hb

/-- Markers that are due stand in front of the next data item. -/
theorem exists_due (a : List (Item ε μ)) :
    ∃ (hs : List μ) (rest : List (Item ε μ)), a = hs.map .mark ++ rest ∧
      (rest = [] ∨ ∃ e tail, rest = .event e :: tail) := by
  induction a with
  | nil => exact ⟨[], [], rfl, .inl rfl⟩
  | cons x a ih =>
    cases x with
    | event e => exact ⟨[], .event e :: a, rfl, .inr ⟨e, a, rfl⟩⟩
    | mark h =>
      obtain ⟨hs, rest, he, hr⟩ := ih
      exact ⟨h :: hs, rest, by simp [he], hr⟩

/-- Behind the first data item every marker is due strictly later. -/
theorem barriers_later (c : Nat) (rest : List (Item ε μ))
    (h : rest = [] ∨ ∃ e tail, rest = .event e :: tail) (b : μ × Nat) (hb : b ∈ barriers c rest) :
    c < b.2 := by
  rcases h with rfl | ⟨e, tail, rfl⟩
  · simp [barriers] at hb
  · have := barriers_bounds (c + 1) tail b hb
    omega

/-- Take out at most `n` ready elements in list order; keep the others in place. -/
def drain (ready : α → Bool) : Nat → List α → List α × List α
  | 0, xs => ([], xs)
  | _ + 1, [] => ([], [])
  | n + 1, x :: xs =>
    if ready x then
      let r := drain ready n xs
      (x :: r.1, r.2)
    else
      let r := drain ready (n + 1) xs
      (r.1, x :: r.2)

theorem drain_length (ready : α → Bool) (n : Nat) (xs : List α) : (drain ready n xs).1.length ≤ n := by
  induction xs generalizing n with
  | nil => cases n <;> simp [drain]
  | cons x xs ih =>
    cases n with
    | zero => simp [drain]
    | succ n =>
      simp only [drain]
      split
      · simpa using ih n
      · exact ih (n + 1)

/-- A drain that stopped early left nothing ready behind. -/
theorem drain_exhausts (ready : α → Bool) (n : Nat) (xs : List α)
    (h : (drain ready n xs).1.length < n) : ∀ x ∈ (drain ready n xs).2, ready x = false := by
  induction xs generalizing n with
  | nil => cases n <;> simp [drain]
  | cons x xs ih =>
    cases n with
    | zero => simp [drain] at h
    | succ n =>
      simp only [drain] at h ⊢
      split
      · rename_i hx
        simp only [hx, if_true, List.length_cons] at h
        exact ih n (by omega)
      · rename_i hx
        simp only [hx] at h
        intro y hy
        rcases List.mem_cons.mp hy with rfl | hy
        · simpa using hx
        · exact ih (n + 1) (by simpa using h) y hy

/-- Whatever is kept was there before. -/
theorem drain_subset (ready : α → Bool) (n : Nat) (xs : List α) :
    ∀ x, x ∈ (drain ready n xs).1 ∨ x ∈ (drain ready n xs).2 → x ∈ xs := by
  induction xs generalizing n with
  | nil => cases n <;> simp [drain]
  | cons x xs ih =>
    cases n with
    | zero => simp [drain]
    | succ n =>
      intro y hy
      simp only [drain] at hy
      split at hy
      · have := ih n y
        simp only [List.mem_cons] at hy ⊢
        tauto
      · have := ih (n + 1) y
        simp only [List.mem_cons] at hy ⊢
        tauto

/-- On a class of elements whose ready ones come first, draining takes a prefix
of the ready ones. -/
theorem drain_filter (ready f : α → Bool) (n : Nat) (xs r w : List α)
    (hsplit : xs.filter f = r ++ w) (hr : ∀ x ∈ r, ready x = true) (hw : ∀ x ∈ w, ready x = false) :
    ∃ k, (drain ready n xs).1.filter f = r.take k ∧ (drain ready n xs).2.filter f = r.drop k ++ w := by
  induction xs generalizing n r w with
  | nil =>
    obtain ⟨rfl, rfl⟩ : r = [] ∧ w = [] := by simpa using hsplit.symm
    exact ⟨0, by cases n <;> simp [drain]⟩
  | cons x xs ih =>
    cases n with
    | zero => exact ⟨0, by simp [drain], by simpa [drain] using hsplit⟩
    | succ n =>
      by_cases hf : f x = true
      · rw [List.filter_cons_of_pos hf] at hsplit
        cases r with
        | nil =>
          -- the class has nothing ready left, so `x` waits and so do the others
          have hx : ready x = false := hw x (by rw [← List.nil_append w, ← hsplit]; simp)
          obtain ⟨k, h₁, h₂⟩ := ih (n + 1) [] (xs.filter f) rfl (by simp)
            (fun z hz => hw z (by rw [← List.nil_append w, ← hsplit]; simp [hz]))
          refine ⟨k, by simpa [drain, hx] using h₁, ?_⟩
          simp only [List.drop_nil, List.nil_append] at h₂ hsplit ⊢
          simp [drain, hx, hf, h₂, ← hsplit]
        | cons y r =>
          rw [List.cons_append] at hsplit
          obtain ⟨rfl, hrest⟩ := List.cons.inj hsplit
          have hx : ready x = true := hr x (by simp)
          obtain ⟨k, h₁, h₂⟩ := ih n r w hrest (fun z hz => hr z (by simp [hz])) hw
          exact ⟨k + 1, by simp [drain, hx, hf, h₁], by simp [drain, hx, h₂]⟩
      · rw [List.filter_cons_of_neg hf] at hsplit
        by_cases hx : ready x = true
        · obtain ⟨k, h₁, h₂⟩ := ih n r w hsplit hr hw
          exact ⟨k, by simp [drain, hx, hf, h₁], by simp [drain, hx, h₂]⟩
        · obtain ⟨k, h₁, h₂⟩ := ih (n + 1) r w hsplit hr hw
          exact ⟨k, by simp [drain, hx, h₁], by simp [drain, hx, hf, h₂]⟩

/-- Where one item of the channel stands: its output follows that of everything
before it and precedes that of everything after it, or it is still to come. -/
theorem item_place {α β : Type} (f : α → Option β) (past left before after : List α) (x : α)
    (h : past ++ left = before ++ x :: after) :
    (∃ done todo, after = done ++ todo ∧ left = todo ∧
      past.filterMap f = before.filterMap f ++ (f x).toList ++ done.filterMap f) ∨
    ∃ done todo, before = done ++ todo ∧ left = todo ++ x :: after ∧
      past.filterMap f = done.filterMap f := by
  rcases List.append_eq_append_iff.mp h with ⟨a, rfl, hb⟩ | ⟨c, rfl, hc⟩
  · exact .inr ⟨past, a, rfl, hb, rfl⟩
  · cases c with
    | nil => exact .inr ⟨before, [], by simp, by simpa using hc.symm, by simp⟩
    | cons y c =>
      obtain ⟨rfl, hafter⟩ := List.cons.inj hc
      refine .inl ⟨c, left, hafter, rfl, ?_⟩
      simp only [List.filterMap_append, List.filterMap_cons, List.append_assoc]
      cases f x <;> rfl

end Barrier
