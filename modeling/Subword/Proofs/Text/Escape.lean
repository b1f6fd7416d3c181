import Subword.Proofs.Text.Numeral
import Subword.Text.Escape

/-!
Shown tokens are read back. Whether a character starts its token decides how it is shown, but not how what is
shown is read, and a quote that ends a token is never part of what is shown. Main statement: quoted tokens with
anything behind them are the same text only if the tokens are the same.
-/
namespace Subword.Text

def readEscape : Text → Option (Char × Text)
  | [] => none
  | letter :: rest =>
    if letter = '0' then some ('\x00', rest)
    else if letter = 't' then some ('\t', rest)
    else if letter = 'r' then some ('\r', rest)
    else if letter = 'n' then some ('\n', rest)
    else if letter = 'u' then
      let digits := (rest.drop 1).takeWhile fun c => (digitIn? 16 c).isSome
      some (Char.ofNat (ofDigits 16 (digits.filterMap (digitIn? 16))), rest.drop (digits.length + 2))
    else some (letter, rest)

/-- Reads the next character of a shown token and gives the rest, unless a quote ends the token there. -/
def readShown : Text → Option (Char × Text)
  | [] => none
  | c :: rest =>
    if c = '"' then none else if c = '\\' then readEscape rest else some (c, rest)

/-- Characters as they are shown one after the other; `first` tells that they start a token. -/
def shown (first : Bool) : Text → Text
  | [] => []
  | c :: rest => escapeChar first c ++ shown false rest

variable {a b rest rest' s t : Text}

theorem readShown_codePoint (c : Char) (s : Text) :
    readShown (escapeCodePoint c ++ s) = some (c, s) := by
  obtain ⟨hdigits, hvalue⟩ := hexadecimal_values c.toNat
  have hrun : (hexadecimal c.toNat ++ '\x7d' :: s).takeWhile (fun c => (digitIn? 16 c).isSome) =
      hexadecimal c.toNat := by
    rw [List.takeWhile_append_of_pos hdigits, List.takeWhile_cons_of_neg (by decide), List.append_nil]
  have htext : escapeCodePoint c ++ s =
      '\\' :: 'u' :: '\x7b' :: (hexadecimal c.toNat ++ '\x7d' :: s) := by
    unfold escapeCodePoint
    simp
  rw [htext]
  simp only [readShown, readEscape, List.drop_succ_cons, List.drop_zero, hrun, hvalue]
  simp [Char.ofNat_toNat]

/-- A shown character is read back, at the start of its token or behind it. -/
theorem readShown_escapeChar (first : Bool) (c : Char) (s : Text) :
    readShown (escapeChar first c ++ s) = some (c, s) := by
  unfold escapeChar
  -- the four escapes by a letter, the three characters that stand for themselves behind a backslash
  iterate 4
    split
    · subst c
      rfl
  split
  · rename_i hself
    rcases hself with rfl | rfl | rfl <;> rfl
  split
  · exact readShown_codePoint c s
  · rename_i hself _
    rw [not_or, not_or] at hself
    rw [List.singleton_append, readShown, if_neg hself.2.1, if_neg hself.1]

theorem escapeChar_append_inj {first first' : Bool} {c d : Char}
    (h : escapeChar first c ++ s = escapeChar first' d ++ t) : c = d ∧ s = t := by
  have hread := readShown_escapeChar first c s
  rw [h, readShown_escapeChar, Option.some.injEq, Prod.mk.injEq] at hread
  exact ⟨hread.1.symm, hread.2.symm⟩

theorem quote_ne_escapeChar_append (first : Bool) (c : Char) (s rest : Text) :
    '"' :: rest ≠ escapeChar first c ++ s := by
  intro h
  have hread := readShown_escapeChar first c s
  rw [← h] at hread
  cases hread

theorem flatMap_escapeChar (t : Text) : t.flatMap (escapeChar false) = shown false t := by
  induction t with
  | nil => rfl
  | cons c t ih => rw [List.flatMap_cons, ih, shown]

theorem escape_eq_shown (t : Text) : escape t = shown true t := by
  cases t with
  | nil => rfl
  | cons c t => rw [escape, shown, flatMap_escapeChar]

theorem shown_append_inj {first first' : Bool}
    (h : shown first a ++ '"' :: rest = shown first' b ++ '"' :: rest') : a = b ∧ rest = rest' := by
  induction a generalizing b first first' with
  | nil =>
    cases b with
    | nil => exact ⟨rfl, (List.cons.inj h).2⟩
    | cons d b =>
      rw [shown, shown, List.append_assoc] at h
      exact absurd h (quote_ne_escapeChar_append first' d _ rest)
  | cons c a ih =>
    rw [shown, List.append_assoc] at h
    cases b with
    | nil => exact absurd h.symm (quote_ne_escapeChar_append first c _ rest')
    | cons d b =>
      rw [shown, List.append_assoc] at h
      obtain ⟨rfl, htail⟩ := escapeChar_append_inj h
      obtain ⟨rfl, hrest⟩ := ih htail
      exact ⟨rfl, hrest⟩

/-- A shown token ends at the first quote that is not escaped. -/
theorem escape_append_inj (h : escape a ++ '"' :: rest = escape b ++ '"' :: rest') :
    a = b ∧ rest = rest' := by
  rw [escape_eq_shown, escape_eq_shown] at h
  exact shown_append_inj h

end Subword.Text
