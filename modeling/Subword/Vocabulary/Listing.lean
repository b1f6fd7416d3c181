import Subword.Vocabulary.Basic

/-!
Listings: vocabularies as text, a token on each line with its bytes in hexadecimal and its id in decimal.
-/
namespace Subword.Vocabulary

def bytesOfHex? : Text → Option Bytes
  | [] => some []
  | [_] => none
  | a :: b :: rest => do
    let high ← Text.digitIn? 16 a
    let low ← Text.digitIn? 16 b
    let bytes ← bytesOfHex? rest
    return UInt8.ofNat (16 * high + low) :: bytes

def ofLine? (line : Text) : Option (Bytes × TokenId) := do
  let bytes ← bytesOfHex? (line.takeWhile (· ≠ ' '))
  let id := (line.dropWhile (· ≠ ' ')).drop 1
  if id ≠ [] ∧ id.all Char.isDigit then some (bytes, UInt32.ofNat (Text.ofDecimal id)) else none

/-- The vocabulary of a listing. A listing has no rule to split a text, which is then one piece. -/
def ofListing? (lines : List Text) (special : List (Text × TokenId)) : Option Vocabulary :=
  (lines.mapM ofLine?).map fun ordinary => ofTables [] ordinary special

end Subword.Vocabulary
