import Std.Data.HashMap
import Subword.Text.Utf8
import Subword.Vocabulary.Merge

/-!
Vocabularies: the byte strings that are tokens, with their ids as ranks, and the rule that splits a text
into pieces. Encoding merges each piece for itself; decoding concatenates the bytes of the tokens.
-/
namespace Subword

structure Vocabulary where
  /-- The id of an ordinary token, which is also its rank in merging. -/
  rank? : Bytes → Option TokenId
  /-- The bytes of a token, ordinary or special. -/
  bytes? : TokenId → Option Bytes
  /-- The pieces of a text, in order. -/
  pieces : Text → List Text

namespace Vocabulary

inductive DecodeFault where
  | unknownToken (id : TokenId)
  | notUtf8 (fault : Utf8.Fault)
  deriving DecidableEq

def DecodeFault.message : DecodeFault → Text
  | unknownToken id => "Invalid token for decoding: ".toList ++ Text.decimal id.toNat
  | notUtf8 fault => "Unable to decode into a valid UTF-8 string: ".toList ++ fault.message

/-- The tokens of one piece: itself if it is a token, else what merging makes of its bytes. -/
def encodePiece (v : Vocabulary) (piece : Bytes) : List TokenId :=
  match v.rank? piece with
  | some id => [id]
  | none => (mergeAll v.rank? (piece.map ([·]))).filterMap v.rank?

/-- The tokens of a text, special tokens not looked for. -/
def encode (v : Vocabulary) (t : Text) : List TokenId :=
  (v.pieces t).flatMap fun piece => v.encodePiece (Utf8.encode piece)

def spell (v : Vocabulary) (id : TokenId) : Except DecodeFault Bytes :=
  match v.bytes? id with
  | some bytes => .ok bytes
  | none => .error (.unknownToken id)

def spellAll (v : Vocabulary) : List TokenId → Except DecodeFault Bytes
  | [] => .ok []
  | id :: ids => do
    let bytes ← v.spell id
    let rest ← v.spellAll ids
    return bytes ++ rest

def decode (v : Vocabulary) (ids : List TokenId) : Except DecodeFault Text :=
  match v.spellAll ids with
  | .error e => .error e
  | .ok bytes => (Utf8.decode bytes).mapError .notUtf8

/-- The text of one token; bytes that are not UTF-8 are replaced. -/
def decodeOne (v : Vocabulary) (id : TokenId) : Except DecodeFault Text :=
  (v.spell id).map Utf8.decodeLossy

/-- The vocabulary of finite tables: the pieces of the texts that may be asked for, the ordinary tokens
and the special ones. A text that is not listed is one piece. -/
def ofTables (pieces : List (Text × List Text)) (ordinary : List (Bytes × TokenId))
    (special : List (Text × TokenId)) : Vocabulary :=
  let ranks := Std.HashMap.ofList ordinary
  let spellings := Std.HashMap.ofList
    (special.map (fun s => (s.2, Utf8.encode s.1)) ++ ordinary.map fun o => (o.2, o.1))
  { rank? := fun bytes => ranks[bytes]?
    bytes? := fun id => spellings[id]?
    pieces := fun t => (pieces.lookup t).getD [t] }

end Vocabulary

end Subword
