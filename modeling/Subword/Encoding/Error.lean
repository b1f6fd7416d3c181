import Subword.Encoding.Basic

/-!
What can go wrong between a text and its tokens.
-/
namespace Subword

/-- Why an encoding could not be had, or could not encode or decode. -/
inductive EncodingError where
  | unknownEncoding (name : Text)
  /-- The encoding's vocabulary could not be had. -/
  | load (name reason : Text)
  | disallowedSpecialToken (token : Text)
  /-- The tokens spell no text. -/
  | decode (reason : Text)
  deriving DecidableEq

def EncodingError.message : EncodingError → Text
  | unknownEncoding name => "Unknown encoding '".toList ++ name ++ "'".toList
  | load name reason => "Failed to load encoding '".toList ++ name ++ "': ".toList ++ reason
  | disallowedSpecialToken token =>
    "Encountered text corresponding to disallowed special token '".toList ++ token ++ "'".toList
  | decode reason => "Decode error: ".toList ++ reason

end Subword
