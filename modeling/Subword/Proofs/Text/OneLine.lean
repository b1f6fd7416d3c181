import Subword.Proofs.Text.Escape

/-!
Texts that keep to the line they are written on. Main statement: a token as it is shown does so, whatever it
is made of. A control character or separator is escaped at the start of its token as well as behind it, and the
escapes are made of printable ASCII.
-/
namespace Subword.Text

/-- The control characters, the line separator and the paragraph separator. -/
def breakingRanges : CodeRanges := [(0x0, 0x1f), (0x7f, 0x9f), (0x2028, 0x2029)]

/-- What is written behind the character stays on the same line. -/
def keepsLine (c : Char) : Bool := !breakingRanges.covers c

/-- The text keeps to its line: no control character and no separator of lines is in it. -/
def OneLine (t : Text) : Prop := ∀ c ∈ t, keepsLine c = true

variable {s t : Text} {c : Char}

theorem keepsLine_iff : keepsLine c = true ↔
    ¬(c.toNat ≤ 0x1f ∨ (0x7f ≤ c.toNat ∧ c.toNat ≤ 0x9f) ∨ c.toNat = 0x2028 ∨ c.toNat = 0x2029) := by
  have hcovers : breakingRanges.covers c = true ↔ c.toNat ≤ 0x1f ∨
      (0x7f ≤ c.toNat ∧ c.toNat ≤ 0x9f) ∨ (0x2028 ≤ c.toNat ∧ c.toNat ≤ 0x2029) := by
    rw [CodeRanges.covers_iff]
    simp [breakingRanges]
  unfold keepsLine
  rw [Bool.not_eq_true', ← Bool.not_eq_true, hcovers]
  omega

theorem oneLine_nil : OneLine [] := fun _ hc => absurd hc List.not_mem_nil

theorem OneLine.cons (hc : keepsLine c = true) (ht : OneLine t) : OneLine (c :: t) :=
  List.forall_mem_cons.mpr ⟨hc, ht⟩

theorem OneLine.append (hs : OneLine s) (ht : OneLine t) : OneLine (s ++ t) :=
  List.forall_mem_append.mpr ⟨hs, ht⟩

/-- A text behind a label that is spelled out. -/
theorem OneLine.labelled {label : Text} (hl : label.all keepsLine = true) (ht : OneLine t) :
    OneLine (label ++ t) := by
  have hlabel : OneLine label := List.all_eq_true.mp hl
  exact hlabel.append ht

theorem newline_not_mem_lines {lines : List Text} (h : ∀ line ∈ lines, OneLine line) :
    ∀ line ∈ lines, '\n' ∉ line := by
  intro line hline hmem
  have hkeeps := h line hline '\n' hmem
  exact absurd hkeeps (by decide)

theorem oneLine_toDigits {base : Nat} (hl : 1 < base) (hu : base ≤ 16) (n : Nat) :
    OneLine (Nat.toDigits base n) := by
  have hdigit : ∀ k < 16, keepsLine k.digitChar = true := by decide
  induction n using Nat.strongRecOn with
  | ind n ih =>
    rw [Nat.toDigits_eq_if hl]
    split
    · exact .cons (hdigit n (by omega)) oneLine_nil
    · have hlast : n % base < base := Nat.mod_lt n (by omega)
      have hfront := ih (n / base) (Nat.div_lt_self (by omega) hl)
      exact hfront.append (.cons (hdigit (n % base) (by omega)) oneLine_nil)

theorem oneLine_decimal (n : Nat) : OneLine (decimal n) :=
  oneLine_toDigits (by decide) (by decide) n

theorem oneLine_escapeCodePoint (c : Char) : OneLine (escapeCodePoint c) := by
  have hopen : OneLine "\\u\x7b".toList := List.all_eq_true.mp (by decide)
  have hclose : OneLine "\x7d".toList := List.all_eq_true.mp (by decide)
  have hdigits : OneLine (hexadecimal c.toNat) := oneLine_toDigits (by decide) (by decide) c.toNat
  exact (hopen.append hdigits).append hclose

/-- What breaks a line has no glyph, unless it has an escape of its own. -/
theorem keepsLine_of_printable (h : isUnprintable c = false) (ht : c ≠ '\t') (hn : c ≠ '\n')
    (hr : c ≠ '\r') : keepsLine c = true := by
  have htab : c.toNat ≠ 0x9 := fun he => ht (Char.toNat_inj.mp he)
  have hfeed : c.toNat ≠ 0xa := fun he => hn (Char.toNat_inj.mp he)
  have hreturn : c.toNat ≠ 0xd := fun he => hr (Char.toNat_inj.mp he)
  have houtside : ∀ r ∈ unprintableRanges, ¬(r.1 ≤ c.toNat ∧ c.toNat ≤ r.2) := by
    intro r hr hin
    have hcovers : unprintableRanges.covers c = true := CodeRanges.covers_iff.mpr ⟨r, hr, hin⟩
    exact absurd (h.symm.trans hcovers) (by decide)
  have hlow := houtside (0x0, 0x8) (by decide)
  have htabulation := houtside (0xb, 0xc) (by decide)
  have hcontrol := houtside (0xe, 0x1f) (by decide)
  have hdelete := houtside (0x7f, 0xa0) (by decide)
  have hseparator := houtside (0x2028, 0x202f) (by decide)
  rw [keepsLine_iff]
  omega

theorem oneLine_escapeChar (first : Bool) (c : Char) : OneLine (escapeChar first c) := by
  unfold escapeChar
  -- the four escapes by a letter
  split
  · exact List.all_eq_true.mp (by decide)
  split
  · exact List.all_eq_true.mp (by decide)
  split
  · exact List.all_eq_true.mp (by decide)
  split
  · exact List.all_eq_true.mp (by decide)
  split
  · rename_i hself
    rcases hself with rfl | rfl | rfl <;> exact List.all_eq_true.mp (by decide)
  split
  · exact oneLine_escapeCodePoint c
  · rename_i ht hr hn _ hshown
    rw [Bool.or_eq_true, not_or, Bool.not_eq_true] at hshown
    exact .cons (keepsLine_of_printable hshown.1 ht hn hr) oneLine_nil

theorem oneLine_shown (first : Bool) (t : Text) : OneLine (shown first t) := by
  induction t generalizing first with
  | nil => exact oneLine_nil
  | cons c t ih => exact (oneLine_escapeChar first c).append (ih false)

/-- A token as it is shown keeps to its line. -/
theorem oneLine_escape (t : Text) : OneLine (escape t) := by
  rw [escape_eq_shown]
  exact oneLine_shown true t

end Subword.Text
