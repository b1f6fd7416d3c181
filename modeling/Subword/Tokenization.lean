import Subword.Breakdown
import Subword.Json.Basic
import Subword.Provider.Basic

/-!
Tokenizations: a text with its tokens, each of them decoded by itself. A tokenization is written as a
report or as a document; a failure to tokenize is a document of its own.
-/
namespace Subword

structure Tokenization where
  text : Text
  encoding : Text
  tokenCount : Nat
  tokenIds : List TokenId
  tokenStrings : List Text
  charCount : Nat
  charsPerToken : Binary64

namespace Tokenization

/-- Characters per token as a double, zero without tokens. Both counts are rounded before they are
divided. -/
def charRatio (chars tokens : Nat) : Binary64 :=
  if tokens = 0 then .zero
  else .ofRatio (Binary64.roundNat chars) (Binary64.roundNat tokens)

/-- Encodes a text and decodes each of its tokens; the first failure counts. -/
def build (p : Provider) (text : Text) : Except EncodingError Tokenization := do
  let ids ← p.encode text
  let strings ← ids.mapM p.decodeOne
  return {
    text := text
    encoding := p.name
    tokenCount := ids.length
    tokenIds := ids
    tokenStrings := strings
    charCount := text.length
    charsPerToken := charRatio text.length ids.length }

/-- The writes of the report. The text stands in the first of them as it is. -/
def reportWrites (r : Tokenization) : List Text :=
  ["Text: ".toList ++ r.text ++ "\n".toList,
    "Tokens: ".toList ++ Text.decimal r.tokenCount ++ "\n".toList,
    "Token IDs: ".toList ++ Breakdown.allIds r.tokenIds ++ "\n".toList,
    "Characters: ".toList ++ Text.decimal r.charCount ++ "\n".toList,
    "Chars/Token: ".toList ++ r.charsPerToken.fixedTwo ++ "\n".toList]

def report (r : Tokenization) : Text := r.reportWrites.flatten

/-- The writes of the breakdown that a session shows, with its lists cut off behind the limits. -/
def sessionWrites (r : Tokenization) (limits : Breakdown.Limits) : List Text :=
  ["\n--- Tokenization Results ---\n".toList,
    "Token count: ".toList ++ Text.decimal r.tokenCount ++ "\n".toList,
    "Characters: ".toList ++ Text.decimal r.charCount ++ "\n".toList,
    "Avg chars/token: ".toList ++ r.charsPerToken.fixedTwo ++ "\n\n".toList,
    "Tokens (".toList ++ Text.decimal r.tokenCount ++ "): ".toList ++
      Breakdown.strings r.tokenStrings limits.strings ++ "\n\n".toList,
    "Token IDs: ".toList ++ Breakdown.ids r.tokenIds limits.ids ++ "\n".toList]

def sessionReport (r : Tokenization) (limits : Breakdown.Limits) : Text :=
  (r.sessionWrites limits).flatten

def toJson (r : Tokenization) : Json :=
  .object [
    ("text".toList, .string r.text),
    ("encoding".toList, .string r.encoding),
    ("token_count".toList, .natural r.tokenCount),
    ("tokens".toList, .array (r.tokenIds.map fun id => .natural id.toNat)),
    ("token_strings".toList, .array (r.tokenStrings.map .string)),
    ("char_count".toList, .natural r.charCount),
    ("chars_per_token".toList, .double r.charsPerToken)]

inductive Outcome where
  | success (result : Tokenization)
  | error (message : Text)

def Outcome.of (p : Provider) (text : Text) : Outcome :=
  match build p text with
  | .ok r => .success r
  | .error e => .error e.message

/-- The outcome under a provider that may have failed to load. -/
def Outcome.ofLoaded (p : Except EncodingError Provider) (text : Text) : Outcome :=
  match p with
  | .ok p => .of p text
  | .error e => .error e.message

/-- The document of an outcome; an error has its message as the only member. -/
def Outcome.toJson : Outcome → Json
  | success r => r.toJson
  | error message => .object [("error".toList, .string message)]

def Outcome.isError : Outcome → Bool
  | success _ => false
  | error _ => true

end Tokenization

end Subword
