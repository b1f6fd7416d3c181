/-!
Texts, byte strings, and sets of characters given by ranges of code points.
-/
namespace Subword

/-- A text is the list of its Unicode scalar values. -/
abbrev Text := List Char

abbrev Bytes := List UInt8

/-- A set of code points, as the inclusive ranges that make it up. -/
abbrev CodeRanges := List (Nat × Nat)

def CodeRanges.covers (ranges : CodeRanges) (c : Char) : Bool :=
  ranges.any fun r => r.1 ≤ c.toNat && c.toNat ≤ r.2

theorem CodeRanges.covers_iff {ranges : CodeRanges} {c : Char} :
    ranges.covers c = true ↔ ∃ r ∈ ranges, r.1 ≤ c.toNat ∧ c.toNat ≤ r.2 := by
  simp [CodeRanges.covers, List.any_eq_true]

end Subword
