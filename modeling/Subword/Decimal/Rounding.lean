import Subword.Text.Basic

/-!
Rounding a quotient of natural numbers to the nearest integer. Main statements: the result is within
half a unit of the quotient, and of two nearest integers it is the even one.
-/
namespace Subword.Decimal

/-- The integer nearest to `n / d`; halfway between two integers, the even one. -/
def roundDiv (n d : Nat) : Nat :=
  let q := n / d
  let twice := 2 * (n % d)
  if twice < d then q
  else if d < twice then q + 1
  else if q % 2 = 0 then q else q + 1

theorem roundDiv_within {n d : Nat} (h : 0 < d) :
    2 * n ≤ (2 * roundDiv n d + 1) * d ∧ (2 * roundDiv n d) * d ≤ 2 * n + d := by
  have hn := Nat.div_add_mod n d
  have hm := Nat.mod_lt n h
  simp only [roundDiv]
  generalize n / d = q at *
  generalize n % d = r at *
  subst hn
  split
  · constructor <;> grind
  · split
    · constructor <;> grind
    · split <;> constructor <;> grind

theorem roundDiv_even_of_tie {n d : Nat} (h : 2 * (n % d) = d) : roundDiv n d % 2 = 0 := by
  simp only [roundDiv, h, Nat.lt_irrefl, if_false]
  split <;> omega

@[simp] theorem roundDiv_one (n : Nat) : roundDiv n 1 = n := by
  simp [roundDiv, Nat.mod_one]

end Subword.Decimal
