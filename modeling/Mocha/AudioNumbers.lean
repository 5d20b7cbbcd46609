import Mocha.Numeral
import Mocha.AudioControls

/-!
# The numbers of the configuration file

Every number attribute goes through `string_to_uint`. It refuses what is not a
numeral, but not a numeral that is too large: `strtoul` has made that the
largest `unsigned long` before the comparison sees it.
-/
namespace TinyHal

open CString

/-- `string_to_uint(&result, str)`: the code it returns, and `result` afterwards. -/
def stringToUintInto (result : Nat) (str : Option String) : Int × Nat :=
  match stringToUint str with
  | .ok v => (0, v)
  | .error e => (e, result)

/-- The string is a numeral, with the given sign and magnitude, that fits in 32 bits. -/
def Fits (str : String) (negative : Bool) (m : Nat) : Prop :=
  Numeral str.toList negative m ∧ m ≤ 0xFFFFFFFF

/-- Exactly a numeral that fits is stored; anything else is refused and stores nothing. -/
structure AcceptsNumbers (str : String) : Prop where
  zero_iff : ∀ result, (stringToUintInto result (some str)).1 = 0 ↔ ∃ negative m, Fits str negative m
  stored : ∀ result negative m, Fits str negative m →
    stringToUintInto result (some str) = (0, residue negative m)
  refused : ∀ result, (¬ ∃ negative m, Fits str negative m) →
    stringToUintInto result (some str) = (-einval, result)

theorem stringToUint_strtoul {str : String} {v : Nat} (h : stringToUint (some str) = .ok v) :
    v = (strtoul str.toList).1 ∧ v ≤ 0xFFFFFFFF := by
  simp only [stringToUint] at h
  by_cases hok : (strtoul str.toList).2 = [] ∧
      (strtoul str.toList).2.length ≠ str.toList.length ∧ (strtoul str.toList).1 ≤ 0xFFFFFFFF
  · rw [if_pos hok] at h
    cases h
    exact ⟨rfl, hok.2.2⟩
  · rw [if_neg hok] at h
    cases h

theorem stringToUint_lt {str : Option String} {v : Nat} (h : stringToUint str = .ok v) :
    v < 4294967296 := by
  cases str with
  | none => cases h
  | some str =>
    have hle := (stringToUint_strtoul h).2
    omega

/-- A numeral is always accepted. -/
theorem stringToUint_numeral {str : String} {negative : Bool} {m : Nat}
    (h : Numeral str.toList negative m) :
    stringToUint (some str) = .ok (if ulongMax < m then ulongMax else residue negative m) := by
  have hne : str.toList.length ≠ 0 := by
    obtain ⟨space, signs, body, hstr, -, -, hbody⟩ := h
    obtain ⟨c, cs, rfl, -⟩ := hbody.head
    rw [hstr]
    simp
  have hle : (if ulongMax < m then ulongMax else residue negative m) ≤ 0xFFFFFFFF := by
    have hmax : ulongMax = 4294967295 := rfl
    split
    · omega
    · simp only [residue]
      omega
  rw [stringToUint, strtoul_numeral h]
  exact if_pos ⟨rfl, fun hlen => hne hlen.symm, hle⟩

/-- Anything else is refused. -/
theorem stringToUint_not_numeral {str : String} (h : ¬ ∃ negative m, Numeral str.toList negative m) :
    stringToUint (some str) = .error (-einval) := by
  simp only [stringToUint]
  rw [if_neg]
  rintro ⟨hend, hlen, -⟩
  have hne : str.toList ≠ [] := by
    intro hnone
    rw [hend, hnone] at hlen
    exact hlen rfl
  exact h (numeral_of_strtoul hend hne)

/-- The largest `unsigned long` stands in for a numeral that does not fit. -/
theorem stringToUintInto_large {str : String} {negative : Bool} {m : Nat}
    (h : Numeral str.toList negative m) (hlarge : 0xFFFFFFFF < m) (result : Nat) :
    stringToUintInto result (some str) = (0, 0xFFFFFFFF) := by
  have hmax : ulongMax < m := hlarge
  rw [stringToUintInto, stringToUint_numeral h, if_pos hmax]
  rfl

theorem not_acceptsNumbers {str : String} {negative : Bool} {m : Nat}
    (h : Numeral str.toList negative m) (hlarge : 0xFFFFFFFF < m) : ¬ AcceptsNumbers str := by
  rintro ⟨hzero, -, -⟩
  have hcode := stringToUintInto_large h hlarge 0
  obtain ⟨negative', m', hnum, hle⟩ := (hzero 0).mp (by rw [hcode])
  obtain ⟨-, rfl⟩ := numeral_unique h hnum
  omega

/-- What `string_to_uint` accepts are the numbers that fit, unless the string is a numeral above
`0xFFFFFFFF`. -/
theorem acceptsNumbers_iff (str : String) :
    AcceptsNumbers str ↔ ¬ ∃ negative m, Numeral str.toList negative m ∧ 0xFFFFFFFF < m := by
  constructor
  · rintro haccepts ⟨negative, m, hnum, hlarge⟩
    exact not_acceptsNumbers hnum hlarge haccepts
  · intro hsmall
    have hfits : (∃ negative m, Numeral str.toList negative m) → ∃ negative m, Fits str negative m := by
      rintro ⟨negative, m, hnum⟩
      exact ⟨negative, m, hnum, Nat.le_of_not_lt fun hlarge => hsmall ⟨negative, m, hnum, hlarge⟩⟩
    have hstored : ∀ result negative m, Fits str negative m →
        stringToUintInto result (some str) = (0, residue negative m) := by
      rintro result negative m ⟨hnum, hle⟩
      have hmax : ¬ ulongMax < m := Nat.not_lt.mpr hle
      rw [stringToUintInto, stringToUint_numeral hnum, if_neg hmax]
    have hrefused : ∀ result, (¬ ∃ negative m, Fits str negative m) →
        stringToUintInto result (some str) = (-einval, result) := by
      intro result hnot
      rw [stringToUintInto, stringToUint_not_numeral fun hnum => hnot (hfits hnum)]
    refine ⟨fun result => ⟨fun hcode => ?_, ?_⟩, hstored, hrefused⟩
    · by_contra hnot
      rw [hrefused result hnot] at hcode
      cases hcode
    · rintro ⟨negative, m, hfit⟩
      rw [hstored result negative m hfit]

/-- The code of the last number that fits and of the next one are the same. -/
theorem stringToUintInto_overflow :
    stringToUintInto 7 (some "4294967296") = (0, 4294967295) ∧ ¬ AcceptsNumbers "4294967296" := by
  have hcode : stringToUintInto 7 (some "4294967296") = (0, 4294967295) := by decide
  have hdigits : Digits 10 "4294967296".toList [4, 2, 9, 4, 9, 6, 7, 2, 9, 6] := by
    unfold Digits
    decide
  have hbody : Unsigned "4294967296".toList (magnitude 10 [4, 2, 9, 4, 9, 6, 7, 2, 9, 6]) :=
    .decimal (by decide) hdigits
  have hnum : Numeral "4294967296".toList false 4294967296 :=
    ⟨[], [], _, rfl, by simp, .none, hbody⟩
  exact ⟨hcode, not_acceptsNumbers hnum (by decide)⟩

end TinyHal
