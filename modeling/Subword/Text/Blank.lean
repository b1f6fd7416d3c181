import Subword.Text.Basic

/-!
White space, and removing it from both ends of a text. Main statements: no white space stands first
after `trimStart` or last after `trimEnd`, and a text without it there stays as it is.
-/
namespace Subword.Text

/-- The code points of Unicode property `White_Space`. -/
def blankRanges : CodeRanges :=
  [(0x9, 0xd), (0x20, 0x20), (0x85, 0x85), (0xa0, 0xa0), (0x1680, 0x1680), (0x2000, 0x200a),
   (0x2028, 0x2029), (0x202f, 0x202f), (0x205f, 0x205f), (0x3000, 0x3000)]

def isBlank (c : Char) : Bool := blankRanges.covers c

def trimStart (t : Text) : Text := t.dropWhile isBlank

def trimEnd (t : Text) : Text := (t.reverse.dropWhile isBlank).reverse

def trim (t : Text) : Text := trimEnd (trimStart t)

theorem trimStart_of_head {t : Text} (h : ∀ c ∈ t.head?, isBlank c = false) : trimStart t = t := by
  cases t with
  | nil => rfl
  | cons c r => simp [trimStart, h c rfl]

theorem trimEnd_of_last {t : Text} (h : ∀ c ∈ t.getLast?, isBlank c = false) : trimEnd t = t := by
  have hr : trimStart t.reverse = t.reverse := trimStart_of_head (by simpa using h)
  simpa [trimEnd, trimStart] using congrArg List.reverse hr

theorem head_trimStart (t : Text) : ∀ c ∈ (trimStart t).head?, isBlank c = false := by
  intro c hc
  have := List.head?_dropWhile_not isBlank t
  rw [Option.mem_def] at hc
  rw [trimStart] at hc
  simpa [hc] using this

theorem last_trimEnd (t : Text) : ∀ c ∈ (trimEnd t).getLast?, isBlank c = false := by
  intro c hc
  exact head_trimStart t.reverse c (by simpa [trimEnd, trimStart] using hc)

end Subword.Text
