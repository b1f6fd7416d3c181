import Subword.Encoding.Basic
import Subword.Text.Escape

/-!
Lists of tokens on one line, cut off behind a limit. What is cut off is told by a marker.
-/
namespace Subword.Breakdown

/-- How many strings and how many ids of a list are shown. -/
structure Limits where
  strings : Nat := 20
  ids : Nat := 30
  deriving DecidableEq, Repr

def brackets (items : List Text) : Text :=
  '[' :: List.intercalate ", ".toList items ++ [']']

/-- Tells how many of `total` items stand behind the limit, if any does. -/
def marker? (total limit : Nat) : Option Text :=
  if limit < total then
    some ("... (".toList ++ Text.decimal (total - limit) ++ " more)".toList)
  else none

def quoted (token : Text) : Text := '"' :: Text.escape token ++ ['"']

def allIds (ids : List TokenId) : Text := brackets (ids.map fun id => Text.decimal id.toNat)

/-- The first token strings, quoted; the marker is the last item. -/
def strings (tokens : List Text) (limit : Nat) : Text :=
  brackets ((tokens.take limit).map quoted ++ (marker? tokens.length limit).toList)

/-- The first ids; the marker stands behind the list. -/
def ids (all : List TokenId) (limit : Nat) : Text :=
  allIds (all.take limit) ++ ((marker? all.length limit).map (' ' :: ·)).getD []

end Subword.Breakdown
