import Mathlib.Data.Nat.Digits.Lemmas
import Mocha.Numeral

/-!
# Signed numbers: `strtol` and `%d`

`strtol` for a 32-bit `long`, in base 10 or in base 0, and the decimal numerals that
`printf` writes. A printed number is read back, whatever follows it, as long as that is
not another digit.
-/
namespace CString

def longMin : Int := -2147483648
def longMax : Int := 2147483647

/-- A number outside the range of `long` is the nearest bound. -/
def clampLong (value : Int) : Int :=
  if value < longMin then longMin else if longMax < value then longMax else value

def signedValue (negative : Bool) (m : Nat) : Int := if negative then -(m : Int) else m

/-- Base 0 finds the base in the string. With no digits the end pointer is the string itself. -/
def strtol (base : Nat) (str : List Char) : Int × List Char :=
  let signed := sign (str.dropWhile isspace)
  let based := if base = 0 then radix signed.2 else (base, signed.2)
  let number := digits based.1 0 based.2
  if number.2.length = based.2.length then (0, str)
  else (clampLong (signedValue signed.1 number.1), number.2)

/-- The digits of a number, the most significant one first. -/
def decimalDigits (n : Nat) : List Nat := if n = 0 then [0] else (Nat.digits 10 n).reverse

/-- What `%u` prints. -/
def printUnsigned (n : Nat) : List Char := (decimalDigits n).map Nat.digitChar

/-- What `%d` prints. -/
def printDecimal (value : Int) : List Char :=
  (if value < 0 then ['-'] else []) ++ printUnsigned value.natAbs

theorem digitIn_digitChar {d : Nat} (hd : d < 10) : digitIn 10 d.digitChar = some d := by
  interval_cases d <;> decide

theorem decimalDigits_lt {n d : Nat} (h : d ∈ decimalDigits n) : d < 10 := by
  rw [decimalDigits] at h
  split_ifs at h with hn
  · rw [List.mem_singleton.mp h]
    omega
  · exact Nat.digits_lt_base (by omega) (List.mem_reverse.mp h)

/-- The digits of a number have the number as their value. -/
theorem magnitude_decimalDigits (n : Nat) : magnitude 10 (decimalDigits n) = n := by
  by_cases hn : n = 0
  · subst hn
    rfl
  · rw [decimalDigits, if_neg hn, magnitude, List.reverse_reverse, Nat.ofDigits_digits]

/-- A printed number is zero, or it starts with another digit than zero. -/
theorem decimalDigits_cases (n : Nat) :
    decimalDigits n = [0] ∨ ∃ d ds, d ≠ 0 ∧ decimalDigits n = d :: ds := by
  by_cases hn : n = 0
  · exact .inl (by rw [decimalDigits, if_pos hn])
  · right
    have hne : Nat.digits 10 n ≠ [] := Nat.digits_ne_nil_iff_ne_zero.mpr hn
    have hlast := Nat.getLast_digit_ne_zero 10 hn
    refine ⟨(Nat.digits 10 n).getLast hne, (Nat.digits 10 n).dropLast.reverse, hlast, ?_⟩
    rw [decimalDigits, if_neg hn]
    nth_rewrite 1 [← List.dropLast_append_getLast hne]
    rw [List.reverse_append]
    rfl

theorem digits_of_lt {ds : List Nat} (h : ∀ d ∈ ds, d < 10) :
    Digits 10 (ds.map Nat.digitChar) ds := by
  induction ds with
  | nil => exact .nil
  | cons d ds ih =>
    exact .cons (digitIn_digitChar (h d List.mem_cons_self))
      (ih fun e he => h e (List.mem_cons_of_mem d he))

theorem printUnsigned_digits (n : Nat) : Digits 10 (printUnsigned n) (decimalDigits n) :=
  digits_of_lt fun _ => decimalDigits_lt

/-- A printed number is a decimal numeral: it has no leading 0. -/
theorem unsigned_print (n : Nat) : Unsigned (printUnsigned n) n := by
  have hdigits := printUnsigned_digits n
  have hvalue := magnitude_decimalDigits n
  rcases decimalDigits_cases n with hzero | ⟨d, ds, hd, hcons⟩
  · have hn : n = 0 := by rw [← hvalue, hzero]; rfl
    subst hn
    have hone : Digits 8 ['0'] [0] := .cons (by decide) .nil
    exact .octal hone
  · have hlt : d < 10 := decimalDigits_lt (n := n) (by rw [hcons]; exact List.mem_cons_self)
    have hchar : d.digitChar ≠ '0' := by
      interval_cases d <;> first | exact absurd rfl hd | decide
    rw [printUnsigned, hcons, List.map_cons] at hdigits ⊢
    rw [← hvalue, hcons]
    exact .decimal hchar hdigits

theorem printUnsigned_cons (n : Nat) :
    ∃ c cs, printUnsigned n = c :: cs ∧ (digit c).isSome :=
  (unsigned_print n).head

theorem sign_print (value : Int) :
    Sign (if value < 0 then ['-'] else []) (decide (value < 0)) := by
  by_cases h : value < 0
  · rw [if_pos h, decide_eq_true h]
    exact .minus
  · rw [if_neg h, decide_eq_false h]
    exact .none

/-- A printed integer is a numeral with its sign and magnitude. -/
theorem numeral_print (value : Int) :
    Numeral (printDecimal value) (decide (value < 0)) value.natAbs :=
  ⟨[], _, _, rfl, by simp, sign_print value, unsigned_print value.natAbs⟩

theorem printUnsigned_digit {n : Nat} {c : Char} (h : c ∈ printUnsigned n) :
    (digit c).isSome := by
  obtain ⟨d, hd, rfl⟩ := List.mem_map.mp h
  have hlt := decimalDigits_lt hd
  interval_cases d <;> decide

/-- Printed integers consist of digits and at most a minus. -/
theorem mem_printDecimal {value : Int} {c : Char} (h : c ∈ printDecimal value) :
    c = '-' ∨ (digit c).isSome := by
  rcases List.mem_append.mp h with hsign | hdigit
  · left
    split_ifs at hsign
    · exact List.mem_singleton.mp hsign
    · cases hsign
  · exact .inr (printUnsigned_digit hdigit)

/-- What follows a row of digits does not change them. -/
theorem digits_stop {base : Nat} {cs rest : List Char} {ds : List Nat} (h : Digits base cs ds)
    (hrest : ∀ c ∈ rest.head?, digitIn base c = none) (acc : Nat) :
    digits base acc (cs ++ rest) = (acc * base ^ ds.length + magnitude base ds, rest) := by
  induction h generalizing acc with
  | nil =>
    cases rest with
    | nil => simp [digits]
    | cons c rest => simp [digits, hrest c rfl]
  | cons hd _ ih =>
    simp only [List.cons_append, digits, hd, ih, List.length_cons, magnitude_cons]
    congr 1
    ring

/-- What fits `long` is not clamped. -/
theorem clampLong_print {value : Int} (hlo : longMin ≤ value) (hhi : value ≤ longMax) :
    clampLong (signedValue (decide (value < 0)) value.natAbs) = value := by
  have habs : signedValue (decide (value < 0)) value.natAbs = value := by
    rw [signedValue]
    by_cases h : value < 0
    · rw [decide_eq_true h, if_pos rfl]
      omega
    · rw [decide_eq_false h, if_neg (by decide)]
      omega
  rw [habs, clampLong, if_neg (by omega), if_neg (by omega)]

/-- The steps of `strtol` where there is a digit. -/
theorem strtol_steps {base b m : Nat} {str body cs rest : List Char} {negative : Bool}
    (hsign : sign (str.dropWhile isspace) = (negative, body))
    (hbase : (if base = 0 then radix body else (base, body)) = (b, cs))
    (hread : digits b 0 cs = (m, rest)) (hmoved : rest.length ≠ cs.length) :
    strtol base str = (clampLong (signedValue negative m), rest) := by
  simp only [strtol, hsign, hbase, hread]
  rw [if_neg hmoved]

theorem digits_length (base acc : Nat) (cs : List Char) :
    (digits base acc cs).2.length ≤ cs.length := by
  induction cs generalizing acc with
  | nil => exact Nat.le_refl _
  | cons c cs ih =>
    rw [digits]
    cases digitIn base c with
    | none => exact Nat.le_refl _
    | some d => exact (ih _).trans (Nat.le_succ _)

theorem sign_length (cs : List Char) : (sign cs).2.length ≤ cs.length := by
  obtain ⟨signs, -, hcs⟩ := sign_sound cs
  have hlen := congrArg List.length hcs
  rw [List.length_append] at hlen
  omega

/-- The end pointer is in the string. -/
theorem strtol_length (str : List Char) : (strtol 10 str).2.length ≤ str.length := by
  have hspace : (str.dropWhile isspace).length ≤ str.length :=
    (List.dropWhile_sublist isspace).length_le
  have hsign := sign_length (str.dropWhile isspace)
  have hdigits := digits_length 10 0 (sign (str.dropWhile isspace)).2
  have hbase : ¬(10 = 0) := by decide
  simp only [strtol, if_neg hbase]
  split_ifs
  · exact Nat.le_refl _
  · exact (hdigits.trans hsign).trans hspace

/-- A number printed with `%d` is read back, and the end pointer is at what follows it. -/
theorem strtol_print {value : Int} (hlo : longMin ≤ value) (hhi : value ≤ longMax)
    {rest : List Char} (hrest : ∀ c ∈ rest.head?, digitIn 10 c = none) :
    strtol 10 (printDecimal value ++ rest) = (value, rest) := by
  obtain ⟨c, cs, hcons, hc⟩ := printUnsigned_cons value.natAbs
  have hsplit : printDecimal value ++ rest =
      (if value < 0 then ['-'] else []) ++ c :: (cs ++ rest) := by
    rw [printDecimal, hcons, List.append_assoc, List.cons_append]
  have hsign : sign ((printDecimal value ++ rest).dropWhile isspace) =
      (decide (value < 0), c :: (cs ++ rest)) := by
    rw [hsplit, sign_not_space (sign_print value) _ hc, sign_complete (sign_print value) _ hc]
  have hread : digits 10 0 (c :: (cs ++ rest)) = (value.natAbs, rest) := by
    rw [← List.cons_append, ← hcons, digits_stop (printUnsigned_digits _) hrest,
      magnitude_decimalDigits, Nat.zero_mul, Nat.zero_add]
  have hmoved : rest.length ≠ (c :: (cs ++ rest)).length := by
    rw [List.length_cons, List.length_append]
    omega
  rw [strtol_steps hsign (if_neg (by decide)) hread hmoved, clampLong_print hlo hhi]

/-- In base 0, too, when nothing follows: no printed number looks octal but zero. -/
theorem strtol_zero_print {value : Int} (hlo : longMin ≤ value) (hhi : value ≤ longMax) :
    strtol 0 (printDecimal value) = (value, []) := by
  obtain ⟨body, hsign, hne, hread⟩ := numeral_steps (numeral_print value)
  have hmoved : ([] : List Char).length ≠ (radix body).2.length := by
    intro hlen
    exact hne (List.length_eq_zero_iff.mp hlen.symm)
  rw [strtol_steps hsign (if_pos rfl) hread hmoved, clampLong_print hlo hhi]

end CString
