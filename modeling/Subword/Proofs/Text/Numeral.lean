import Mathlib.Data.List.Basic
import Subword.Text.Numeral

/-!
The digits of a natural number: there is one, they are digits of their base, and the first of them is zero for
zero only. In front of anything but another digit they give the number back.
-/
namespace Subword.Text

theorem decimal_ne_nil (n : Nat) : decimal n ≠ [] := Nat.toDigits_ne_nil

theorem isDigit_of_mem_decimal {n : Nat} : ∀ c ∈ decimal n, c.isDigit = true :=
  fun _ hc => Nat.isDigit_of_mem_toDigits (by decide) (by decide) hc

theorem head_decimal {n : Nat} (hn : 0 < n) : (decimal n).head? ≠ some '0' := by
  induction n using Nat.strongRecOn with
  | ind n ih =>
    unfold decimal at ih ⊢
    rw [Nat.toDigits_eq_if (by decide)]
    split
    · rename_i hlt
      have hdigit : ∀ k < 10, 0 < k → [Nat.digitChar k].head? ≠ some '0' := by decide
      exact hdigit n hlt hn
    · rw [List.head?_append_of_ne_nil _ Nat.toDigits_ne_nil]
      exact ih (n / 10) (by omega) (by omega)

/-- Only zero starts with a zero. -/
theorem length_decimal_of_head {n : Nat} (h : (decimal n).head? = some '0') : (decimal n).length = 1 := by
  rcases Nat.eq_zero_or_pos n with rfl | hn
  · rfl
  · exact absurd h (head_decimal hn)

theorem le_ofDigitChars (digits : Text) (n : Nat) : n ≤ Nat.ofDigitChars 10 digits n := by
  rw [Nat.ofDigitChars_eq_ofDigitChars_zero]
  calc
    n ≤ 10 ^ digits.length * n := Nat.le_mul_of_pos_left n (Nat.pow_pos (by decide))
    _ ≤ 10 ^ digits.length * n + Nat.ofDigitChars 10 digits 0 := Nat.le_add_right _ _

variable {s t rest rest' : Text} {m n : Nat}

/-- A run of characters ends at the first one that is not of its class. -/
theorem run_append {p : Char → Bool} (hs : ∀ c ∈ s, p c = true) (hr : ∀ c ∈ rest.head?, p c = false) :
    (s ++ rest).takeWhile p = s ∧ (s ++ rest).dropWhile p = rest := by
  rw [List.takeWhile_append_of_pos hs, List.dropWhile_append_of_pos hs]
  cases rest with
  | nil => exact ⟨List.append_nil s, rfl⟩
  | cons c rest =>
    have hc : ¬p c = true := Bool.eq_false_iff.mp (hr c rfl)
    rw [List.takeWhile_cons_of_neg hc, List.dropWhile_cons_of_neg hc, List.append_nil]
    exact ⟨rfl, rfl⟩

theorem run_append_inj {p : Char → Bool} (hs : ∀ c ∈ s, p c = true) (ht : ∀ c ∈ t, p c = true)
    (hr : ∀ c ∈ rest.head?, p c = false) (hr' : ∀ c ∈ rest'.head?, p c = false)
    (h : s ++ rest = t ++ rest') : s = t ∧ rest = rest' := by
  obtain ⟨htake, hdrop⟩ := run_append hs hr
  obtain ⟨htake', hdrop'⟩ := run_append ht hr'
  rw [h] at htake hdrop
  exact ⟨htake.symm.trans htake', hdrop.symm.trans hdrop'⟩

theorem decimal_append_inj (hr : ∀ c ∈ rest.head?, c.isDigit = false)
    (hr' : ∀ c ∈ rest'.head?, c.isDigit = false) (h : decimal m ++ rest = decimal n ++ rest') :
    m = n ∧ rest = rest' := by
  obtain ⟨hdigits, hrest⟩ :=
    run_append_inj isDigit_of_mem_decimal isDigit_of_mem_decimal hr hr' h
  exact ⟨decimal_injective hdigits, hrest⟩

theorem digitIn?_digitChar : ∀ n < 16, digitIn? 16 (Nat.digitChar n) = some n := by decide

theorem hexadecimal_eq (n : Nat) : hexadecimal n =
    if n < 16 then [n.digitChar] else hexadecimal (n / 16) ++ [(n % 16).digitChar] :=
  Nat.toDigits_eq_if (by decide)

/-- Every digit has a value, and the values spell the number. -/
theorem hexadecimal_values (n : Nat) : (∀ c ∈ hexadecimal n, (digitIn? 16 c).isSome = true) ∧
    ofDigits 16 ((hexadecimal n).filterMap (digitIn? 16)) = n := by
  induction n using Nat.strongRecOn with
  | ind n ih =>
    rw [hexadecimal_eq]
    split
    · rename_i hlt
      have hdigit := digitIn?_digitChar n hlt
      constructor
      · simp [hdigit]
      · simp [hdigit, ofDigits]
    · have hdigit := digitIn?_digitChar (n % 16) (Nat.mod_lt n (by decide))
      obtain ⟨hall, hvalue⟩ := ih (n / 16) (by omega)
      constructor
      · refine List.forall_mem_append.mpr ⟨hall, ?_⟩
        simp [hdigit]
      · unfold ofDigits at hvalue ⊢
        simp only [List.filterMap_append, List.foldl_append, hvalue, List.filterMap_cons, hdigit,
          List.filterMap_nil, List.foldl_cons, List.foldl_nil]
        omega

end Subword.Text
