import Subword.Batch.Basic
import Subword.Json.Reader

/-!
Reading batches from their documents. Members may come in any order and others may stand between them;
a member that is missing or comes twice is a fault, and so is a number out of range.
-/
namespace Subword.Batch

open Subword.Json (Fault Read)

/-- The members of a record that have been read. -/
structure Record.Draft where
  text : Option Text := none
  tokens : Option (List TokenId) := none
  tokenCount : Option UInt64 := none

def readTokenId (s : Text) : Read TokenId :=
  (Json.readNatural UInt32.size s).map fun p => (UInt32.ofNat p.1, p.2)

def readCount (s : Text) : Read UInt64 :=
  (Json.readNatural UInt64.size s).map fun p => (UInt64.ofNat p.1, p.2)

def readTokens (s : Text) : Read (List TokenId) := Json.readList readTokenId s

namespace Record

def Draft.member (key : Text) (d : Draft) (s : Text) : Read Draft :=
  if key = "text".toList then
    (Json.readField d.text Json.readText s).map fun p => ({ d with text := some p.1 }, p.2)
  else if key = "tokens".toList then
    (Json.readField d.tokens readTokens s).map fun p => ({ d with tokens := some p.1 }, p.2)
  else if key = "token_count".toList then
    (Json.readField d.tokenCount readCount s).map fun p => ({ d with tokenCount := some p.1 }, p.2)
  else Json.skipMember d s

/-- The record, if no member is missing. -/
def Draft.finish (d : Draft) : Except Fault Record :=
  match d.text, d.tokens, d.tokenCount with
  | some text, some tokens, some count => .ok ⟨text, tokens, count⟩
  | _, _, _ => .error .mismatched

/-- The members of a record by position. -/
def readPositional (s : Text) : Except Fault (Record × Text) := do
  let (text, s) ← Json.readItem true Json.readText s
  let (tokens, s) ← Json.readItem false readTokens s
  let (count, s) ← Json.readItem false readCount s
  return (⟨text, tokens, count⟩, s)

def read (s : Text) : Read Record :=
  Json.readParts Draft.member Draft.finish {} readPositional s

end Record

def readMember (key : Text) (draft : Option (List Record)) (s : Text) : Read (Option (List Record)) :=
  if key = "prompts".toList then
    (Json.readField draft (Json.readList Record.read) s).map fun p => (some p.1, p.2)
  else Json.skipMember draft s

def finish : Option (List Record) → Except Fault Batch
  | some prompts => .ok ⟨prompts⟩
  | none => .error .mismatched

def readPositional (s : Text) : Read Batch :=
  (Json.readItem true (Json.readList Record.read) s).map fun p => (⟨p.1⟩, p.2)

def read (s : Text) : Read Batch := Json.readParts readMember finish none readPositional s

/-- The batch that a document holds, or the first fault of the document. -/
def ofDocument (document : Text) : Except Fault Batch := Json.readDocument read document

end Subword.Batch
