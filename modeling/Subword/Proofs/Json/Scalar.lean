import Subword.Json.Basic
import Subword.Proofs.Text.Numeral

/-!
The texts of numbers in a document. Main statements: they are made of characters that neither start nor
separate any other value, and the text of a double is never that of a natural.
-/
namespace Subword.Json

/-- The characters of numbers and of the word in the place of a double that is no number. -/
def isBare (c : Char) : Bool := c.isDigit || "-+.enul".toList.contains c

def Bare (t : Text) : Prop := ∀ c ∈ t, isBare c = true

/-- A text that can stand behind a value: nothing, or a comma or a new line and more. -/
def Closes (rest : Text) : Prop := ∀ c ∈ rest.head?, c = ',' ∨ c = '\n'

variable {s t rest rest' : Text}

theorem bare_nil : Bare [] := fun _ hc => absurd hc List.not_mem_nil

theorem Bare.cons {c : Char} (hc : isBare c = true) (ht : Bare t) : Bare (c :: t) :=
  List.forall_mem_cons.mpr ⟨hc, ht⟩

theorem Bare.append (hs : Bare s) (ht : Bare t) : Bare (s ++ t) :=
  List.forall_mem_append.mpr ⟨hs, ht⟩

theorem Bare.take (ht : Bare t) (n : Nat) : Bare (t.take n) :=
  fun c hc => ht c (List.mem_of_mem_take hc)

theorem Bare.drop (ht : Bare t) (n : Nat) : Bare (t.drop n) :=
  fun c hc => ht c (List.mem_of_mem_drop hc)

theorem bare_zeros (n : Nat) : Bare (List.replicate n '0') := by
  intro c hc
  rw [List.eq_of_mem_replicate hc]
  decide

theorem bare_decimal (n : Nat) : Bare (Text.decimal n) := by
  intro c hc
  have hdigit := Text.isDigit_of_mem_decimal c hc
  simp [isBare, hdigit]

theorem bare_signedExponent (e : Int) : Bare (Binary64.signedExponent e) := by
  refine .cons ?_ (bare_decimal _)
  split <;> decide

theorem bare_writeScientific (x : Decimal.Scientific) : Bare (Binary64.writeScientific x) := by
  have hdigits := bare_decimal x.coefficient
  unfold Binary64.writeScientific
  dsimp only
  split
  · have hpoint : Bare "0.".toList := .cons rfl (.cons rfl bare_nil)
    exact (hpoint.append (bare_zeros _)).append hdigits
  · split
    · split
      · have hpoint : Bare ".0".toList := .cons rfl (.cons rfl bare_nil)
        exact (hdigits.append (bare_zeros _)).append hpoint
      · exact (hdigits.take _).append (.cons rfl (hdigits.drop _))
    · have hexponent := bare_signedExponent (x.scale + (Text.decimal x.coefficient).length - 1)
      refine ((hdigits.take 1).append ?_).append (.cons rfl hexponent)
      split
      · exact bare_nil
      · exact .cons rfl (hdigits.drop 1)

theorem bare_double (x : Binary64) : Bare (x.shortest?.getD "null".toList) := by
  have hnull : Bare "null".toList := List.all_eq_true.mp (by decide)
  have hzero : Bare "0.0".toList := List.all_eq_true.mp (by decide)
  have hsign : Bare x.sign := by
    unfold Binary64.sign
    split
    · exact .cons rfl bare_nil
    · exact bare_nil
  unfold Binary64.shortest?
  split
  · rw [Option.getD_some]
    refine hsign.append ?_
    split
    · exact hzero
    · exact bare_writeScientific _
  · exact hnull
  · exact hnull

theorem exists_mem_writeScientific (x : Decimal.Scientific) :
    ∃ c ∈ Binary64.writeScientific x, c.isDigit = false := by
  unfold Binary64.writeScientific
  dsimp only
  split
  · exact ⟨'.', by simp, rfl⟩
  · split
    · split <;> exact ⟨'.', by simp, rfl⟩
    · exact ⟨'e', by simp, rfl⟩

theorem exists_mem_double (x : Binary64) :
    ∃ c ∈ x.shortest?.getD "null".toList, c.isDigit = false := by
  unfold Binary64.shortest?
  split
  · rw [Option.getD_some]
    split
    · exact ⟨'.', by simp, rfl⟩
    · obtain ⟨c, hc, hd⟩ := exists_mem_writeScientific (Decimal.shortest _ _)
      exact ⟨c, List.mem_append_right _ hc, hd⟩
  · exact ⟨'n', by simp, rfl⟩
  · exact ⟨'n', by simp, rfl⟩

/-- A double has a point, an exponent or letters, so its text is not that of a natural. -/
theorem decimal_ne_double (n : Nat) (x : Binary64) :
    Text.decimal n ≠ x.shortest?.getD "null".toList := by
  intro h
  obtain ⟨c, hc, hd⟩ := exists_mem_double x
  rw [← h] at hc
  rw [Text.isDigit_of_mem_decimal c hc] at hd
  cases hd

theorem Closes.not_bare (h : Closes rest) : ∀ c ∈ rest.head?, isBare c = false := by
  intro c hc
  rcases h c hc with rfl | rfl <;> decide

/-- A number ends where the first character stands that it cannot have. -/
theorem bare_append_inj (hs : Bare s) (ht : Bare t) (hr : Closes rest) (hr' : Closes rest')
    (h : s ++ rest = t ++ rest') : s = t ∧ rest = rest' :=
  Text.run_append_inj hs ht hr.not_bare hr'.not_bare h

end Subword.Json
