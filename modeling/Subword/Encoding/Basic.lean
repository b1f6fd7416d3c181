import Subword.Text.Basic

/-!
The five named encodings, their special tokens, and the special token that stands first in a text.
-/
namespace Subword

abbrev TokenId := UInt32

inductive Encoding where
  | cl100kBase
  | o200kBase
  | p50kBase
  | p50kEdit
  | r50kBase
  deriving DecidableEq, Repr

namespace Encoding

def all : List Encoding := [cl100kBase, o200kBase, p50kBase, p50kEdit, r50kBase]

def name : Encoding → Text
  | cl100kBase => "cl100k_base".toList
  | o200kBase => "o200k_base".toList
  | p50kBase => "p50k_base".toList
  | p50kEdit => "p50k_edit".toList
  | r50kBase => "r50k_base".toList

/-- The encoding that is used when none is named. -/
def standard : Encoding := cl100kBase

def named? (name : Text) : Option Encoding := all.find? fun e => e.name = name

@[simp] theorem named?_name (e : Encoding) : named? e.name = some e := by
  cases e <;> rfl

theorem name_of_named? {n : Text} {e : Encoding} (h : named? n = some e) : e.name = n := by
  simpa using List.find?_some h

/-- The texts that stand for control tokens and may not occur in a text to encode. -/
def specialTokens : Encoding → List Text
  | cl100kBase =>
    ["<|endoftext|>".toList, "<|fim_prefix|>".toList, "<|fim_middle|>".toList,
      "<|fim_suffix|>".toList, "<|endofprompt|>".toList]
  | o200kBase => ["<|endoftext|>".toList, "<|endofprompt|>".toList]
  | p50kEdit =>
    ["<|endoftext|>".toList, "<|fim_prefix|>".toList, "<|fim_middle|>".toList,
      "<|fim_suffix|>".toList]
  | p50kBase | r50kBase => ["<|endoftext|>".toList]

def specialAtStart? (e : Encoding) (t : Text) : Option Text :=
  e.specialTokens.find? (·.isPrefixOf t)

/-- The special token at the lowest position of a text. -/
def leftmostSpecial? (e : Encoding) : Text → Option Text
  | [] => none
  | c :: rest =>
    match e.specialAtStart? (c :: rest) with
    | some token => some token
    | none => leftmostSpecial? e rest

end Encoding

end Subword
