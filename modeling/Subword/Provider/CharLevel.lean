import Subword.Provider.Basic

/-!
The provider with a token for each character: its id is the code point.
-/
namespace Subword.Provider

def isControl (c : Char) : Bool := c.toNat < 0x20 || (0x7F ≤ c.toNat && c.toNat ≤ 0x9F)

/-- The character with this code point, if there is one. -/
def scalar? (id : TokenId) : Option Char :=
  if h : id.isValidChar then some ⟨id, h⟩ else none

/-- Encodes each character as its code point. Control characters but the line feed are dropped, so that a
text may encode to nothing; a null character counts as a special token. -/
def charLevel : Provider :=
  let one (id : TokenId) : Except EncodingError Text :=
    match scalar? id with
    | some c => .ok [c]
    | none => .error (.decode ("invalid token id ".toList ++ Text.decimal id.toNat))
  { name := "char_level".toList
    encode := fun t =>
      if '\x00' ∈ t then .error (.disallowedSpecialToken "\\0".toList)
      else .ok ((t.filter fun c => !isControl c || c = '\n').map (·.val))
    decode := decodeEach one
    decodeOne := one }

end Subword.Provider
