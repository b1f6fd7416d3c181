import Subword.Provider.Basic

/-!
Providers given by finite tables of answers.
-/
namespace Subword.Provider

/-- The provider that gives the listed answers: a text that is not listed cannot be encoded, and an id
that is not listed is unknown. -/
def ofTables (name : Text) (encodings : List (Text × Except EncodingError (List TokenId)))
    (strings : List (TokenId × Except EncodingError Text)) : Provider :=
  let one (id : TokenId) : Except EncodingError Text :=
    (strings.lookup id).getD
      (.error (.decode ("unknown id ".toList ++ Text.decimal id.toNat)))
  { name := name
    encode := fun t => (encodings.lookup t).getD (.error (.load name "no entry".toList))
    decode := decodeEach one
    decodeOne := one }

end Subword.Provider
