import Mathlib.Data.List.TakeWhile
import Subword.Json.Basic
import Subword.Json.Lexeme
import Subword.Proofs.Text.Numeral

/-!
Reading back the smallest parts of a document. Main statements: a quoted text is read as this text, and the
decimal digits of a natural of 64 bits as this natural, whatever stands behind them.
-/
namespace Subword.Json

def Gap (ws : Text) : Prop := ∀ c ∈ ws, isSpace c = true

/-- A text that can stand behind a value: it does not go on with a number. -/
def Ends (rest : Text) : Prop :=
  ∀ c ∈ rest.head?, c.isDigit = false ∧ c ≠ '.' ∧ c ≠ 'e' ∧ c ≠ 'E'

theorem gap_nil : Gap [] := fun _ hc => absurd hc List.not_mem_nil

theorem skipSpace_gap {ws s : Text} {c : Char} (hw : Gap ws) (hc : isSpace c = false) :
    skipSpace (ws ++ c :: s) = c :: s := by
  rw [skipSpace, List.dropWhile_append_of_pos hw, List.dropWhile_cons_of_neg (by simp [hc])]

theorem skipSpace_of_gap {ws : Text} (hw : Gap ws) : skipSpace ws = [] := by
  rw [skipSpace, List.dropWhile_eq_nil_iff]
  exact hw

theorem readString_escape {c : Char} {s rest : Text} (h : readEscape s = .ok (c, rest)) :
    readString ('\\' :: s) = (readString rest).map fun p => (c :: p.1, p.2) := by
  rw [readString, if_neg (by decide), if_pos rfl]
  split
  · rename_i he
    cases he.symm.trans h
  · rename_i hd
    cases hd.symm.trans h
    rfl

theorem readString_plain {c : Char} (hq : c ≠ '"') (hb : c ≠ '\\') (hc : ¬c.toNat < 0x20) (s : Text) :
    readString (c :: s) = (readString s).map fun p => (c :: p.1, p.2) := by
  rw [readString, if_neg hq, if_neg hb, if_neg hc]

theorem readUnit_control {n : Nat} (hn : n < 0x20) (s : Text) :
    readUnit ('0' :: '0' :: Nat.digitChar (n / 16) :: Nat.digitChar (n % 16) :: s) = .ok (n, s) := by
  have hzero : Text.digitIn? 16 '0' = some 0 := by decide
  have hhigh := Text.digitIn?_digitChar (n / 16) (by omega)
  have hlow := Text.digitIn?_digitChar (n % 16) (by omega)
  have hvalue : Text.ofDigits 16 [0, 0, n / 16, n % 16] = n := by
    simp only [Text.ofDigits, List.foldl_cons, List.foldl_nil]
    omega
  simp [readUnit, hzero, hhigh, hlow, hvalue]

/-- The escape of a control character by its code point. -/
theorem readEscape_control {c : Char} (hc : c.toNat < 0x20) (s : Text) :
    readEscape ("u00".toList ++
      Nat.digitChar (c.toNat / 16) :: Nat.digitChar (c.toNat % 16) :: s) = .ok (c, s) := by
  have hunit := readUnit_control hc s
  have hhigh : isHighSurrogate c.toNat = false := by simp [isHighSurrogate]; omega
  have hlow : isLowSurrogate c.toNat = false := by simp [isLowSurrogate]; omega
  simp [readEscape, hunit, hhigh, hlow]

theorem readString_quoteChar (c : Char) (s : Text) :
    readString (quoteChar c ++ s) = (readString s).map fun p => (c :: p.1, p.2) := by
  unfold quoteChar
  -- the seven escapes of one letter
  iterate 7
    split
    · subst c
      exact readString_escape rfl
  split
  · rename_i hc
    exact readString_escape (readEscape_control hc s)
  · rename_i hq hb _ _ _ _ _ hc
    exact readString_plain hq hb hc s

/-- A quoted text is read as this text. -/
theorem readString_quoted (t rest : Text) :
    readString (t.flatMap quoteChar ++ '"' :: rest) = .ok (t, rest) := by
  induction t with
  | nil => rw [List.flatMap_nil, List.nil_append, readString, if_pos rfl]
  | cons c t ih =>
    rw [List.flatMap_cons, List.append_assoc, readString_quoteChar, ih]
    rfl

theorem Ends.noDigit {rest : Text} (h : Ends rest) : ∀ c ∈ rest.head?, c.isDigit = false :=
  fun c hc => (h c hc).1

/-- Digits are read up to the first character that is none. -/
theorem readDigits_append {ds rest : Text} (hne : ds ≠ []) (hd : ∀ c ∈ ds, c.isDigit = true)
    (hr : ∀ c ∈ rest.head?, c.isDigit = false) : readDigits (ds ++ rest) = .ok (ds, rest) := by
  obtain ⟨hdigits, hbehind⟩ := Text.run_append hd hr
  cases ds with
  | nil => exact absurd rfl hne
  | cons c ds =>
    rw [List.cons_append] at hdigits hbehind ⊢
    simp only [readDigits, hd c List.mem_cons_self, if_true, digits, behindDigits, hdigits, hbehind]

theorem readWhole_decimal (n : Nat) {rest : Text} (hr : Ends rest) :
    readWhole (Text.decimal n ++ rest) = .ok (Text.decimal n, rest) := by
  have hzero : ¬((Text.decimal n).head? = some '0' ∧ (Text.decimal n).length ≠ 1) :=
    fun h => h.2 (Text.length_decimal_of_head h.1)
  rw [readWhole, readDigits_append (Text.decimal_ne_nil n) Text.isDigit_of_mem_decimal hr.noDigit]
  simp only [if_neg hzero]

theorem readFraction_of_ends {rest : Text} (hr : Ends rest) : readFraction rest = .ok (none, rest) := by
  unfold readFraction
  split
  · exact absurd rfl (hr '.' rfl).2.1
  · rfl

theorem readExponent_of_ends {rest : Text} (hr : Ends rest) : readExponent rest = .ok (none, rest) := by
  cases rest with
  | nil => rfl
  | cons c rest =>
    obtain ⟨-, -, he, hE⟩ := hr c rfl
    simp [readExponent, he, hE]

theorem gather_eq {ds : Text} {n : Nat} (h : Nat.ofDigitChars 10 ds n < UInt64.size) :
    gather n ds = (Nat.ofDigitChars 10 ds n, ds.length) := by
  induction ds generalizing n with
  | nil => rfl
  | cons d ds ih =>
    rw [Nat.ofDigitChars_cons, Nat.mul_comm] at h ⊢
    have hfit := Nat.lt_of_le_of_lt (Text.le_ofDigitChars ds (n * 10 + (d.toNat - '0'.toNat))) h
    rw [gather]
    simp only [if_pos hfit, ih h, List.length_cons]

/-- The digits of a natural of 64 bits are read as this natural. -/
theorem readNumber_decimal {n : Nat} (hn : n < UInt64.size) {rest : Text} (hr : Ends rest) :
    readNumber (Text.decimal n ++ rest) = .ok (.natural n, rest) := by
  have hvalue : Nat.ofDigitChars 10 (Text.decimal n) 0 = n := Nat.ofDigitChars_ten_toDigits
  have hgather : gather 0 (Text.decimal n) = (n, (Text.decimal n).length) := by
    rw [gather_eq (by rw [hvalue]; exact hn), hvalue]
  rw [readNumber, readWhole_decimal n hr]
  simp only [bind, Except.bind, readFraction_of_ends hr, readExponent_of_ends hr, hgather]
  rfl

end Subword.Json
