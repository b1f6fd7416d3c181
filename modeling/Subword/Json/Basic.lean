import Subword.Decimal.Notation

/-!
The documents that the library writes: JSON values with their members in a fixed order, and their
layout over indented lines. Strings keep every character that JSON lets stand for itself.
-/
namespace Subword

/-- A JSON value; its numbers are naturals and doubles. -/
inductive Json where
  | natural (n : Nat)
  | double (x : Binary64)
  | string (s : Text)
  | array (items : List Json)
  | object (members : List (Text × Json))

namespace Json

def quoteChar (c : Char) : Text :=
  if c = '"' then "\\\"".toList
  else if c = '\\' then "\\\\".toList
  else if c = '\x08' then "\\b".toList
  else if c = '\x0c' then "\\f".toList
  else if c = '\n' then "\\n".toList
  else if c = '\r' then "\\r".toList
  else if c = '\t' then "\\t".toList
  else if c.toNat < 0x20 then
    "\\u00".toList ++ [Nat.digitChar (c.toNat / 16), Nat.digitChar (c.toNat % 16)]
  else [c]

def quote (t : Text) : Text := '"' :: t.flatMap quoteChar ++ ['"']

/-- A new line at the given depth, two spaces a level. -/
def newline (depth : Nat) : Text := '\n' :: List.replicate (2 * depth) ' '

mutual

/-- A value whose first line stands at the given depth. -/
def layout (depth : Nat) : Json → Text
  | natural n => Text.decimal n
  | double x => x.shortest?.getD "null".toList
  | string s => quote s
  | array [] => "[]".toList
  | array (x :: xs) => '[' :: layoutItems (depth + 1) [] (x :: xs) ++ newline depth ++ [']']
  | object [] => "\x7b\x7d".toList
  | object (m :: ms) =>
    '\x7b' :: layoutMembers (depth + 1) [] (m :: ms) ++ newline depth ++ ['\x7d']

/-- The items of an array, a line each, after what ends the line before. -/
def layoutItems (depth : Nat) (ending : Text) : List Json → Text
  | [] => []
  | x :: xs => ending ++ newline depth ++ layout depth x ++ layoutItems depth [','] xs

def layoutMembers (depth : Nat) (ending : Text) : List (Text × Json) → Text
  | [] => []
  | (key, x) :: ms =>
    ending ++ newline depth ++ quote key ++ ": ".toList ++ layout depth x ++
      layoutMembers depth [','] ms

end

/-- A whole document, without a final newline. -/
def pretty (j : Json) : Text := layout 0 j

end Json

end Subword
