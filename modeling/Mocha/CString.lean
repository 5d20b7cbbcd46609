import Mathlib.Algebra.Group.Nat.Defs
import Mathlib.Data.List.Basic

/-!
# The C string functions of the configuration parser

`strtoul` in base 0 for a 32-bit `unsigned long`, and the tokens of `strtok`.
A string is its list of characters, and an end pointer is the rest of it.
-/
namespace CString

def ulongMax : Nat := 0xFFFFFFFF

def isspace (c : Char) : Bool :=
  c = ' ' || c = '\t' || c = '\n' || c = '\x0b' || c = '\x0c' || c = '\r'

/-- The value of a digit of some base up to sixteen. -/
def digit (c : Char) : Option Nat :=
  if '0' ≤ c ∧ c ≤ '9' then some (c.toNat - '0'.toNat)
  else if 'a' ≤ c ∧ c ≤ 'f' then some (c.toNat - 'a'.toNat + 10)
  else if 'A' ≤ c ∧ c ≤ 'F' then some (c.toNat - 'A'.toNat + 10)
  else none

def digitIn (base : Nat) (c : Char) : Option Nat :=
  (digit c).bind fun d => if d < base then some d else none

/-- The digits at the front, read on top of `acc`, and what follows them. -/
def digits (base acc : Nat) : List Char → Nat × List Char
  | [] => (acc, [])
  | c :: cs =>
    match digitIn base c with
    | some d => digits base (acc * base + d) cs
    | none => (acc, c :: cs)

/-- The sign, if one is there: whether it is a minus, and what follows it. -/
def sign : List Char → Bool × List Char
  | '-' :: cs => (true, cs)
  | '+' :: cs => (false, cs)
  | cs => (false, cs)

/-- The base that base 0 stands for, and what follows the `0x` of base sixteen. -/
def radix : List Char → Nat × List Char
  | '0' :: x :: h :: cs =>
    if (x = 'x' ∨ x = 'X') ∧ (digitIn 16 h).isSome then (16, h :: cs) else (8, '0' :: x :: h :: cs)
  | '0' :: cs => (8, '0' :: cs)
  | cs => (10, cs)

/-- `strtoul(str, &endptr, 0)`. With no digits the end pointer is the string itself. -/
def strtoul (str : List Char) : Nat × List Char :=
  let signed := sign (str.dropWhile isspace)
  let based := radix signed.2
  let number := digits based.1 0 based.2
  if number.2.length = based.2.length then (0, str)
  else if ulongMax < number.1 then (ulongMax, number.2)
  else if signed.1 then ((2 ^ 32 - number.1) % 2 ^ 32, number.2)
  else number

/-- `atoi`, for a 32-bit `long`: a number outside its range is the nearest bound. -/
def atoi (str : List Char) : Int :=
  let signed := sign (str.dropWhile isspace)
  let number : Int := (digits 10 0 signed.2).1
  let value := if signed.1 then -number else number
  if value < -2147483648 then -2147483648 else if 2147483647 < value then 2147483647 else value

/-- The tokens `strtok` returns: the non-empty pieces between separators. -/
def strtok (sep : Char) (str : List Char) : List (List Char) :=
  (str.splitOn sep).filter fun t => !t.isEmpty

end CString
