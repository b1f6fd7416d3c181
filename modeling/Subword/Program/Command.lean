import Subword.Program.Arguments
import Subword.Sink
import Subword.Tokenization

/-!
Commands: what a program is to do, by its arguments.
-/
namespace Subword

inductive TextSource where
  | argument (text : Text)
  /-- All of standard input. -/
  | standardInput
  deriving DecidableEq

/-- The text of a source; standard input has to be UTF-8. -/
def TextSource.read (stdin : Bytes) : TextSource → Except IoError Text
  | argument text => .ok text
  | standardInput => (Utf8.decode stdin).mapError fun _ => .notUtf8

inductive Command where
  | interactive
  | json (source : TextSource)
  | count (text : Text)
  | report (text : Text)
  | precompute (input output : Text)
  deriving DecidableEq

/-- An argument that the command needs is missing. -/
inductive UsageError where
  | missingJsonText
  | missingCountText
  | missingPrecomputePaths
  deriving DecidableEq, Repr

namespace UsageError

def message : UsageError → Text
  | missingJsonText | missingCountText => "No text provided".toList
  | missingPrecomputePaths => "Usage: precompute-tokens <input_file> <output_file>".toList

/-- What the program writes, in the form of the command's own output. -/
def report (e : UsageError) : Text :=
  match e with
  | missingJsonText => (Tokenization.Outcome.error e.message).toJson.pretty ++ "\n".toList
  | missingCountText => "0\n".toList
  | missingPrecomputePaths => e.message ++ "\n".toList

end UsageError

namespace Arguments

def inspectCommand (a : Arguments) : Except UsageError Command :=
  if a.occurs .json then
    match a.value? .json with
    | none => .error .missingJsonText
    | some text => .ok (.json (if text = ['-'] then .standardInput else .argument text))
  else if a.occurs .count then
    match a.value? .count with
    | none => .error .missingCountText
    | some text => .ok (.count text)
  else match a.value? .text with
    | some text => .ok (.report text)
    | none => .ok .interactive

def precomputeCommand (a : Arguments) : Except UsageError Command :=
  match a.value? .input, a.value? .output with
  | some input, some output => .ok (.precompute input output)
  | _, _ => .error .missingPrecomputePaths

def command (p : Program) (a : Arguments) : Except UsageError Command :=
  match p with
  | .inspect => a.inspectCommand
  | .precompute => a.precomputeCommand

end Arguments

end Subword
