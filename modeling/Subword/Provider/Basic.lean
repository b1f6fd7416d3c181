import Subword.Encoding.Error
import Subword.Vocabulary.Basic

/-!
Providers: what turns texts into tokens and back, under a name. The provider of a named encoding refuses
special tokens and works on the encoding's vocabulary.
-/
namespace Subword

structure Provider where
  name : Text
  encode : Text → Except EncodingError (List TokenId)
  decode : List TokenId → Except EncodingError Text
  /-- The text of one token by itself. -/
  decodeOne : TokenId → Except EncodingError Text

namespace Provider

/-- Decodes each token by itself and concatenates; the first failure counts. -/
def decodeEach (one : TokenId → Except EncodingError Text) (ids : List TokenId) :
    Except EncodingError Text :=
  (ids.mapM one).map List.flatten

def ofVocabulary (e : Encoding) (v : Vocabulary) : Provider where
  name := e.name
  encode t :=
    match e.leftmostSpecial? t with
    | some token => .error (.disallowedSpecialToken token)
    | none => .ok (v.encode t)
  decode ids := (v.decode ids).mapError fun fault => .decode fault.message
  decodeOne id := (v.decodeOne id).mapError fun fault => .decode fault.message

/-- Where vocabularies come from: the vocabulary of an encoding, or why it cannot be had. -/
abbrev Source := Encoding → Except EncodingError Vocabulary

def load (vocabulary : Source) (name : Text) : Except EncodingError Provider :=
  match Encoding.named? name with
  | none => .error (.unknownEncoding name)
  | some e => (vocabulary e).map (ofVocabulary e)

def loadStandard (vocabulary : Source) : Except EncodingError Provider :=
  (vocabulary .standard).map (ofVocabulary .standard)

end Provider

end Subword
