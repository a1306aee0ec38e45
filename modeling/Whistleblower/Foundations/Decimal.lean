import Mathlib.Data.List.Basic
import Mathlib.Data.UInt

/-!
# Decimal texts of unsigned 64-bit integers

Printing and parsing, with the conventions of a standard library: a parser takes an optional plus
sign and at least one digit, nothing else, and fails on overflow. So a printed number is parsed
back, but a parsed text need not be the printed one: `+7` and `007` are parsed as well.
-/

namespace Decimal

/-- The decimal text of a number. -/
def render (n : UInt64) : String :=
  String.ofList (Nat.toDigits 10 n.toNat)

/-- Parse digits, at least one. -/
def parseDigits (digits : List Char) : Option UInt64 :=
  if digits ≠ [] ∧ digits.all Char.isDigit ∧ Nat.ofDigitChars 10 digits 0 < 2 ^ 64 then
    some (UInt64.ofNat (Nat.ofDigitChars 10 digits 0))
  else none

/-- Parse a decimal text. -/
def parse (s : String) : Option UInt64 :=
  match s.toList with
  | '+' :: digits => parseDigits digits
  | digits => parseDigits digits

/-- **A printed number is parsed back.** -/
theorem parse_render (n : UInt64) : parse (render n) = some n := by
  have hdigits : ∀ c ∈ Nat.toDigits 10 n.toNat, c.isDigit := fun c hc ↦
    Nat.isDigit_of_mem_toDigits (by decide) (by decide) hc
  have hvalue : Nat.ofDigitChars 10 (Nat.toDigits 10 n.toNat) 0 = n.toNat :=
    Nat.ofDigitChars_ten_toDigits
  have hparse : parseDigits (Nat.toDigits 10 n.toNat) = some n := by
    rw [parseDigits, hvalue, if_pos ⟨Nat.toDigits_ne_nil, List.all_eq_true.2 hdigits, n.toNat_lt⟩,
      UInt64.ofNat_toNat]
  rw [parse, render, String.toList_ofList]
  split
  · next digits heq =>
    rw [heq] at hdigits
    exact absurd (hdigits '+' List.mem_cons_self) (by decide)
  · exact hparse

end Decimal
