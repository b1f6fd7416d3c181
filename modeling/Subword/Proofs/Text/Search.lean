import Mathlib.Data.List.Infix
import Mathlib.Tactic.ByContra
import Subword.Text.Basic

/-!
Searching a text for a word. Main statements: the search gives the first position at which the word stands, and it
finds the word exactly if it stands in the text.
-/
namespace Subword.Text

/-- The position at which a word first stands in a text. -/
def position? (word t : Text) : Option Nat :=
  (List.range (t.length + 1)).find? fun i => word.isPrefixOf (t.drop i)

def occurs (word t : Text) : Bool := (position? word t).isSome

variable {word t : Text} {i : Nat}

theorem position?_eq_some_iff : position? word t = some i ↔
    i ≤ t.length ∧ word <+: t.drop i ∧ ∀ j < i, ¬word <+: t.drop j := by
  unfold position?
  rw [List.find?_range_eq_some]
  simp only [List.isPrefixOf_iff_prefix, List.mem_range, Nat.lt_succ_iff, Bool.not_eq_true',
    ← Bool.not_eq_true]
  exact and_left_comm

theorem le_length_of_prefix_drop (hword : word ≠ []) (h : word <+: t.drop i) : i ≤ t.length := by
  by_contra hlt
  rw [List.drop_of_length_le (by omega)] at h
  exact hword (List.prefix_nil.mp h)

/-- A word that stands in a text is found where it stands, or before. -/
theorem exists_position? (hword : word ≠ []) (h : word <+: t.drop i) :
    ∃ j ≤ i, position? word t = some j := by
  have hi := le_length_of_prefix_drop hword h
  cases hfound : position? word t with
  | none =>
    have hnone := List.find?_range_eq_none.mp hfound i (by omega)
    rw [List.isPrefixOf_iff_prefix.mpr h] at hnone
    cases hnone
  | some j =>
    obtain ⟨-, -, hbefore⟩ := position?_eq_some_iff.mp hfound
    have hle : j ≤ i := by
      by_contra hlt
      exact hbefore i (by omega) h
    exact ⟨j, hle, rfl⟩

theorem occurs_iff (hword : word ≠ []) : occurs word t = true ↔ word <:+: t := by
  unfold occurs
  rw [Option.isSome_iff_exists]
  constructor
  · rintro ⟨i, hi⟩
    obtain ⟨-, hstands, -⟩ := position?_eq_some_iff.mp hi
    exact hstands.isInfix.trans (List.drop_suffix i t).isInfix
  · rintro ⟨before, behind, rfl⟩
    have hstands : word <+: (before ++ word ++ behind).drop before.length := by
      rw [List.append_assoc, List.drop_left]
      exact List.prefix_append word behind
    obtain ⟨j, -, hj⟩ := exists_position? hword hstands
    exact ⟨j, hj⟩

end Subword.Text
