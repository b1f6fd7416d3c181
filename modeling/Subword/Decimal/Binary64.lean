import Subword.Decimal.Rounding

/-!
Doubles, given by their 64 bits. A finite double is `±m * 2 ^ q` with `m < 2 ^ 53`; rounding to the
nearest double is done on natural numbers.
-/
namespace Subword

/-- A double, as the word that holds its sign, exponent and fraction. -/
structure Binary64 where
  bits : UInt64
  deriving DecidableEq, Repr

namespace Binary64

inductive Magnitude where
  | finite (m : Nat) (q : Int)
  | infinite
  | undefined
  deriving DecidableEq, Repr

def negative (x : Binary64) : Bool := Nat.pow 2 63 ≤ x.bits.toNat

/-- The biased exponent, from 0 to 2047. -/
def exponentField (x : Binary64) : Nat := x.bits.toNat / Nat.pow 2 52 % Nat.pow 2 11

def fractionField (x : Binary64) : Nat := x.bits.toNat % Nat.pow 2 52

def magnitude (x : Binary64) : Magnitude :=
  if x.exponentField = 2047 then
    if x.fractionField = 0 then .infinite else .undefined
  else if x.exponentField = 0 then .finite x.fractionField (-1074)
  else .finite (Nat.pow 2 52 + x.fractionField) (x.exponentField - 1075 : Int)

def zero : Binary64 := ⟨0⟩

/-- Half a unit in the last place above the largest finite double: no number from here on rounds to a
finite double. -/
def overflowBound : Nat := Nat.pow 2 1024 - Nat.pow 2 970

/-- A natural number rounded to 53 significant bits. -/
def roundNat (n : Nat) : Nat :=
  if n.log2 ≤ 52 then n
  else Decimal.roundDiv n (Nat.pow 2 (n.log2 - 52)) * Nat.pow 2 (n.log2 - 52)

theorem roundNat_of_lt {n : Nat} (h : n < Nat.pow 2 53) : roundNat n = n := by
  by_cases hn : n = 0
  · subst hn; rfl
  · have : n.log2 < 53 := (Nat.log2_lt hn).2 h
    simp [roundNat, Nat.le_of_lt_succ this]

/-- The double nearest to `n / d`, an even mantissa on a tie, for a quotient of 0 or within the normal
range. A mantissa that rounds up to 2 ^ 53 carries into the exponent field. -/
def ofRatio (n d : Nat) : Binary64 :=
  if n = 0 then zero
  else
    let shift : Int := 52 + d.log2 - n.log2
    let shift :=
      if n * Nat.pow 2 shift.toNat < Nat.pow 2 52 * d * Nat.pow 2 (-shift).toNat then shift + 1
      else shift
    let m := Decimal.roundDiv (n * Nat.pow 2 shift.toNat) (d * Nat.pow 2 (-shift).toNat)
    ⟨UInt64.ofNat ((1075 - shift).toNat * Nat.pow 2 52 + m - Nat.pow 2 52)⟩

end Binary64

end Subword
