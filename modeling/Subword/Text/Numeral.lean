import Subword.Text.Basic

/-!
Natural numbers in decimal and hexadecimal digits. Main statement: the digits of a number give it back,
so no two numbers share them.
-/
namespace Subword.Text

def decimal (n : Nat) : Text := Nat.toDigits 10 n

/-- A natural number in lower case hexadecimal, without leading zeros. -/
def hexadecimal (n : Nat) : Text := Nat.toDigits 16 n

def ofDecimal (digits : Text) : Nat := Nat.ofDigitChars 10 digits 0

@[simp] theorem ofDecimal_decimal (n : Nat) : ofDecimal (decimal n) = n :=
  Nat.ofDigitChars_ten_toDigits

theorem decimal_injective {m n : Nat} (h : decimal m = decimal n) : m = n := by
  simpa using congrArg ofDecimal h

/-- The value of a digit in any base up to 36, if the character is one. -/
def digitValue? (c : Char) : Option Nat :=
  if c.isDigit then some (c.toNat - '0'.toNat)
  else if 'a' ≤ c ∧ c ≤ 'z' then some (c.toNat - 'a'.toNat + 10)
  else if 'A' ≤ c ∧ c ≤ 'Z' then some (c.toNat - 'A'.toNat + 10)
  else none

def digitIn? (base : Nat) (c : Char) : Option Nat :=
  (digitValue? c).filter (· < base)

/-- The number that digits of a base spell, the most significant first. -/
def ofDigits (base : Nat) (digits : List Nat) : Nat :=
  digits.foldl (fun n d => n * base + d) 0

end Subword.Text
