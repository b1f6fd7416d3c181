import Subword.Json.Basic
import Subword.Provider.Basic
import Subword.Text.Lines

/-!
Batches: the prompts of a file, one on each line that is not blank, with their tokens. A batch is
written as a document.
-/
namespace Subword

/-- A prompt with its tokens and their number, which is a word of 64 bits of its own. -/
structure Batch.Record where
  text : Text
  tokens : List TokenId
  tokenCount : UInt64
  deriving DecidableEq

structure Batch where
  prompts : List Batch.Record
  deriving DecidableEq

namespace Batch

def Record.encode (p : Provider) (text : Text) : Except EncodingError Record :=
  (p.encode text).map fun ids => ⟨text, ids, ids.length.toUInt64⟩

/-- The prompts of a content: its lines, trimmed, that are not blank. -/
def promptLines (content : Text) : List Text :=
  ((Text.lines content).map Text.trim).filter (· ≠ [])

/-- Encodes the prompts of a content; the first failure counts. -/
def ofLines (p : Provider) (content : Text) : Except EncodingError Batch :=
  ((promptLines content).mapM (Record.encode p)).map Batch.mk

/-- The sum of the token counts, in words of 64 bits. -/
def totalTokens (b : Batch) : UInt64 :=
  b.prompts.foldl (fun total r => total + r.tokenCount) 0

def Record.toJson (r : Record) : Json :=
  .object [
    ("text".toList, .string r.text),
    ("tokens".toList, .array (r.tokens.map fun id => .natural id.toNat)),
    ("token_count".toList, .natural r.tokenCount.toNat)]

def toJson (b : Batch) : Json :=
  .object [("prompts".toList, .array (b.prompts.map Record.toJson))]

end Batch

end Subword
