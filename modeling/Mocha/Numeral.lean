import Mocha.CString
import Mathlib.Data.Nat.Digits.Defs

/-!
# The numerals that `strtoul` reads

The grammar of base 0: white space, a sign, and decimal, octal or hexadecimal
digits. `strtoul` reads a string to its end exactly when the string is such a
numeral.
-/
namespace CString

/-- The characters of a row of digits and their values. -/
def Digits (base : Nat) : List Char → List Nat → Prop :=
  List.Forall₂ fun c d => digitIn base c = some d

/-- What digits stand for, the most significant one first. -/
def magnitude (base : Nat) (ds : List Nat) : Nat := Nat.ofDigits base ds.reverse

/-- A numeral without white space and sign, and its magnitude. -/
inductive Unsigned : List Char → Nat → Prop
  | decimal {c cs ds} : c ≠ '0' → Digits 10 (c :: cs) ds → Unsigned (c :: cs) (magnitude 10 ds)
  | octal {cs ds} : Digits 8 ('0' :: cs) ds → Unsigned ('0' :: cs) (magnitude 8 ds)
  | hexadecimal {x c cs ds} : x = 'x' ∨ x = 'X' → Digits 16 (c :: cs) ds →
      Unsigned ('0' :: x :: c :: cs) (magnitude 16 ds)

/-- A sign, and whether it is a minus. -/
inductive Sign : List Char → Bool → Prop
  | none : Sign [] false
  | plus : Sign ['+'] false
  | minus : Sign ['-'] true

/-- A whole string as a numeral: whether it has a minus, and its magnitude. -/
def Numeral (str : List Char) (negative : Bool) (m : Nat) : Prop :=
  ∃ space signs body, str = space ++ (signs ++ body) ∧ (∀ c ∈ space, isspace c = true) ∧
    Sign signs negative ∧ Unsigned body m

/-- What a signed magnitude is modulo `2^32`. -/
def residue (negative : Bool) (m : Nat) : Nat :=
  ((if negative then -(m : Int) else m) % 4294967296).toNat

@[simp] theorem magnitude_nil (base : Nat) : magnitude base [] = 0 := rfl

theorem magnitude_cons (base d : Nat) (ds : List Nat) :
    magnitude base (d :: ds) = magnitude base ds + base ^ ds.length * d := by
  simp [magnitude, Nat.ofDigits_append]

/-- A text of digits is read to its end. -/
theorem digits_complete {base : Nat} {cs : List Char} {ds : List Nat} (h : Digits base cs ds)
    (acc : Nat) : digits base acc cs = (acc * base ^ ds.length + magnitude base ds, []) := by
  induction h generalizing acc with
  | nil => simp [digits]
  | cons hd _ ih =>
    simp only [digits, hd, ih, List.length_cons, magnitude_cons]
    congr 1
    ring

/-- What is read to its end is a text of digits. -/
theorem digits_sound {base : Nat} (cs : List Char) {acc v : Nat}
    (h : digits base acc cs = (v, [])) :
    ∃ ds, Digits base cs ds ∧ v = acc * base ^ ds.length + magnitude base ds := by
  induction cs generalizing acc with
  | nil =>
    cases h
    exact ⟨[], .nil, by simp⟩
  | cons c cs ih =>
    cases hd : digitIn base c with
    | none =>
      simp only [digits, hd] at h
      cases h
    | some d =>
      simp only [digits, hd] at h
      obtain ⟨ds, hds, hv⟩ := ih h
      refine ⟨d :: ds, .cons hd hds, ?_⟩
      rw [hv, List.length_cons, magnitude_cons]
      ring

theorem digitIn_x (base : Nat) {x : Char} (hx : x = 'x' ∨ x = 'X') : digitIn base x = none := by
  cases hx with
  | inl h => rw [h, digitIn, show digit 'x' = none by decide]; rfl
  | inr h => rw [h, digitIn, show digit 'X' = none by decide]; rfl

/-- A text that does not begin with 0 is decimal. -/
theorem radix_decimal {c : Char} (cs : List Char) (hc : c ≠ '0') :
    radix (c :: cs) = (10, c :: cs) := by
  unfold radix
  split
  · exact absurd (List.cons.inj ‹_›).1 hc
  · exact absurd (List.cons.inj ‹_›).1 hc
  · rfl

/-- A leading 0 makes it octal. -/
theorem radix_octal {cs : List Char} {ds : List Nat} (h : Digits 8 ('0' :: cs) ds) :
    radix ('0' :: cs) = (8, '0' :: cs) := by
  match cs with
  | [] => rfl
  | [_] => rfl
  | x :: c :: cs =>
    rw [radix, if_neg]
    intro hx
    cases h with
    | cons _ h =>
      cases h with
      | cons hd _ =>
        rw [digitIn_x 8 hx.1] at hd
        cases hd

theorem radix_hexadecimal {x c : Char} {cs : List Char} {ds : List Nat} (hx : x = 'x' ∨ x = 'X')
    (h : Digits 16 (c :: cs) ds) : radix ('0' :: x :: c :: cs) = (16, c :: cs) := by
  rw [radix, if_pos]
  cases h with
  | cons hd _ => exact ⟨hx, by rw [hd]; rfl⟩

/-- The digits behind the prefix that gives the base are those of the numeral. -/
theorem radix_complete {body : List Char} {m : Nat} (h : Unsigned body m) :
    (radix body).2 ≠ [] ∧ digits (radix body).1 0 (radix body).2 = (m, []) := by
  cases h with
  | decimal hc hd =>
    rw [radix_decimal _ hc]
    exact ⟨by simp, by rw [digits_complete hd]; simp⟩
  | octal hd =>
    rw [radix_octal hd]
    exact ⟨by simp, by rw [digits_complete hd]; simp⟩
  | hexadecimal hx hd =>
    rw [radix_hexadecimal hx hd]
    exact ⟨by simp, by rw [digits_complete hd]; simp⟩

/-- A text whose digits are all read is one of the three spellings. -/
theorem radix_sound (body : List Char) {m : Nat} (hne : (radix body).2 ≠ [])
    (h : digits (radix body).1 0 (radix body).2 = (m, [])) : Unsigned body m := by
  revert hne h
  unfold radix
  split
  · rename_i x c cs
    by_cases hx : (x = 'x' ∨ x = 'X') ∧ (digitIn 16 c).isSome
    · rw [if_pos hx]
      intro _ h
      obtain ⟨ds, hds, hm⟩ := digits_sound _ h
      rw [hm, Nat.zero_mul, Nat.zero_add]
      exact .hexadecimal hx.1 hds
    · rw [if_neg hx]
      intro _ h
      obtain ⟨ds, hds, hm⟩ := digits_sound _ h
      rw [hm, Nat.zero_mul, Nat.zero_add]
      exact .octal hds
  · intro _ h
    obtain ⟨ds, hds, hm⟩ := digits_sound _ h
    rw [hm, Nat.zero_mul, Nat.zero_add]
    exact .octal hds
  · rename_i hhex hzero
    intro hne h
    obtain ⟨ds, hds, hm⟩ := digits_sound _ h
    rw [hm, Nat.zero_mul, Nat.zero_add]
    cases body with
    | nil => exact absurd rfl hne
    | cons c cs => exact .decimal (fun hc => hzero cs (by rw [hc])) hds

theorem Digits.head {base : Nat} {c : Char} {cs : List Char} {ds : List Nat}
    (h : Digits base (c :: cs) ds) : (digit c).isSome := by
  cases h with
  | cons hd _ =>
    rw [digitIn] at hd
    cases hc : digit c with
    | none => rw [hc] at hd; cases hd
    | some d => rfl

/-- A numeral starts with a digit. -/
theorem Unsigned.head {body : List Char} {m : Nat} (h : Unsigned body m) :
    ∃ c cs, body = c :: cs ∧ (digit c).isSome := by
  cases h with
  | decimal hc hd => exact ⟨_, _, rfl, hd.head⟩
  | octal hd => exact ⟨_, _, rfl, hd.head⟩
  | hexadecimal hx hd => exact ⟨_, _, rfl, by decide⟩

theorem digit_space {c : Char} (h : isspace c = true) : digit c = none := by
  simp only [isspace, Bool.or_eq_true, decide_eq_true_eq] at h
  rcases h with ((((rfl | rfl) | rfl) | rfl) | rfl) | rfl <;> decide

/-- What is taken for the sign is an optional sign. -/
theorem sign_sound (cs : List Char) :
    ∃ signs, Sign signs (sign cs).1 ∧ cs = signs ++ (sign cs).2 := by
  unfold sign
  split
  · exact ⟨['-'], .minus, rfl⟩
  · exact ⟨['+'], .plus, rfl⟩
  · exact ⟨[], .none, rfl⟩

/-- A sign before a digit is taken as such. -/
theorem sign_complete {signs : List Char} {negative : Bool} (h : Sign signs negative) {c : Char}
    (cs : List Char) (hc : (digit c).isSome) : sign (signs ++ c :: cs) = (negative, c :: cs) := by
  cases h with
  | none =>
    rw [List.nil_append]
    unfold sign
    split
    · rename_i heq
      cases heq
      cases hc
    · rename_i heq
      cases heq
      cases hc
    · rfl
  | plus => rfl
  | minus => rfl

theorem sign_not_space {signs : List Char} {negative : Bool} (h : Sign signs negative) {c : Char}
    (cs : List Char) (hc : (digit c).isSome) :
    (signs ++ c :: cs).dropWhile isspace = signs ++ c :: cs := by
  cases h with
  | none =>
    have hspace : isspace c = false := by
      cases hs : isspace c with
      | false => rfl
      | true => rw [digit_space hs] at hc; cases hc
    simp [hspace]
  | plus => rfl
  | minus => rfl

theorem residue_eq (negative : Bool) {m : Nat} (hm : m ≤ ulongMax) :
    residue negative m = if negative then (4294967296 - m) % 4294967296 else m := by
  have hmax : ulongMax = 4294967295 := rfl
  cases negative with
  | false =>
    simp only [residue, Bool.false_eq_true, if_false]
    omega
  | true =>
    simp only [residue, if_true]
    omega

/-- The steps of `strtoul` on a numeral. -/
theorem numeral_steps {str : List Char} {negative : Bool} {m : Nat} (h : Numeral str negative m) :
    ∃ body, sign (str.dropWhile isspace) = (negative, body) ∧ (radix body).2 ≠ [] ∧
      digits (radix body).1 0 (radix body).2 = (m, []) := by
  obtain ⟨space, signs, body, rfl, hspace, hsign, hbody⟩ := h
  obtain ⟨c, cs, rfl, hc⟩ := hbody.head
  refine ⟨c :: cs, ?_, radix_complete hbody⟩
  rw [List.dropWhile_append_of_pos hspace, sign_not_space hsign cs hc, sign_complete hsign cs hc]

/-- A string is a numeral in one way only. -/
theorem numeral_unique {str : List Char} {negative negative' : Bool} {m m' : Nat}
    (h : Numeral str negative m) (h' : Numeral str negative' m') :
    negative = negative' ∧ m = m' := by
  obtain ⟨body, hsign, -, hdigits⟩ := numeral_steps h
  obtain ⟨body', hsign', -, hdigits'⟩ := numeral_steps h'
  rw [hsign] at hsign'
  cases hsign'
  rw [hdigits] at hdigits'
  cases hdigits'
  exact ⟨rfl, rfl⟩

/-- `strtoul` reads a numeral to its end; a magnitude that does not fit becomes the largest one. -/
theorem strtoul_numeral {str : List Char} {negative : Bool} {m : Nat} (h : Numeral str negative m) :
    strtoul str = (if ulongMax < m then ulongMax else residue negative m, []) := by
  obtain ⟨body, hsign, hne, hdigits⟩ := numeral_steps h
  have hlen : ([] : List Char).length ≠ (radix body).2.length := by
    intro hlen
    exact hne (List.length_eq_zero_iff.mp hlen.symm)
  simp only [strtoul, hsign, hdigits]
  rw [if_neg hlen]
  by_cases hbig : ulongMax < m
  · rw [if_pos hbig, if_pos hbig]
  · rw [if_neg hbig, if_neg hbig, residue_eq negative (by omega)]
    cases negative with
    | false => rfl
    | true => rfl

/-- A string that `strtoul` reads to its end is a numeral. -/
theorem numeral_of_strtoul {str : List Char} (hend : (strtoul str).2 = []) (hne : str ≠ []) :
    ∃ negative m, Numeral str negative m := by
  obtain ⟨signs, hsign, hsplit⟩ := sign_sound (str.dropWhile isspace)
  have hstr : str = str.takeWhile isspace ++ (signs ++ (sign (str.dropWhile isspace)).2) := by
    rw [← hsplit, List.takeWhile_append_dropWhile]
  simp only [strtoul] at hend
  generalize sign (str.dropWhile isspace) = signed at hsign hstr hend
  generalize hnumber : digits (radix signed.2).1 0 (radix signed.2).2 = number at hend
  have hlen : number.2.length ≠ (radix signed.2).2.length := by
    intro hlen
    rw [if_pos hlen] at hend
    exact hne hend
  have hrest : number.2 = [] := by
    rw [if_neg hlen] at hend
    by_cases hbig : ulongMax < number.1
    · rwa [if_pos hbig] at hend
    · rw [if_neg hbig] at hend
      cases hneg : signed.1 with
      | true => rwa [hneg, if_pos rfl] at hend
      | false => rwa [hneg, if_neg Bool.false_ne_true] at hend
  have hsome : (radix signed.2).2 ≠ [] := by
    intro hnone
    rw [hrest, hnone] at hlen
    exact hlen rfl
  have hbody : Unsigned signed.2 number.1 :=
    radix_sound signed.2 hsome (by rw [hnumber, ← hrest])
  exact ⟨signed.1, number.1, str.takeWhile isspace, signs, signed.2, hstr,
    fun c hc => List.all_eq_true.mp List.all_takeWhile c hc, hsign, hbody⟩

end CString
