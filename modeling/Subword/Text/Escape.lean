import Subword.Text.Combining
import Subword.Text.Numeral
import Subword.Text.Unprintable

/-!
Showing a token on one line: quotes, backslashes and everything without a glyph are escaped, and so
is a combining character that would otherwise join the quote before it.
-/
namespace Subword.Text

def escapeCodePoint (c : Char) : Text :=
  "\\u\x7b".toList ++ hexadecimal c.toNat ++ "\x7d".toList

/-- How a character is shown; `first` tells that it starts its token. -/
def escapeChar (first : Bool) (c : Char) : Text :=
  if c = '\x00' then "\\0".toList
  else if c = '\t' then "\\t".toList
  else if c = '\r' then "\\r".toList
  else if c = '\n' then "\\n".toList
  else if c = '\\' ∨ c = '"' ∨ c = '\'' then ['\\', c]
  else if isUnprintable c || (first && isCombining c) then escapeCodePoint c
  else [c]

def escape : Text → Text
  | [] => []
  | c :: rest => escapeChar true c ++ rest.flatMap (escapeChar false)

end Subword.Text
