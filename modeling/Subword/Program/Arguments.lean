import Subword.Text.Basic

/-!
The arguments of the two programs: options with values, flags, and positional arguments. Arguments are
taken one by one; an option or positional argument is settled when the next one starts.
-/
namespace Subword

inductive Program where
  /-- Shows the tokens of a text. -/
  | inspect
  /-- Encodes a file of prompts. -/
  | precompute
  deriving DecidableEq, Repr

/-- What an argument can belong to. -/
inductive Slot where
  | json
  | count
  | encoding
  | config
  | text
  | input
  | output
  | rest
  deriving DecidableEq, Repr

def Slot.valueIsOptional : Slot → Bool
  | json | count => true
  | _ => false

/-- The value is a path, which may not be empty. -/
def Slot.isPath : Slot → Bool
  | config | input | output => true
  | _ => false

namespace Program

def option? (p : Program) (name : Text) : Option Slot :=
  if name = "encoding".toList then some .encoding
  else if name = "config".toList then some .config
  else if p = .inspect ∧ name = "json".toList then some .json
  else if p = .inspect ∧ name = "count".toList then some .count
  else none

/-- The positional arguments in order; all further ones go to the rest. -/
def positionals : Program → List Slot
  | inspect => [.text]
  | precompute => [.input, .output]

/-- What is given to the slot may look like an option. -/
def takesHyphens (p : Program) (slot : Slot) : Bool :=
  p = .inspect && (slot = .json || slot = .count || slot = .text || slot = .rest)

end Program

namespace Arguments

inductive Stop where
  | help
  | version
  | invalidValue
  | argumentConflict
  | unknownArgument
  | tooManyValues
  deriving DecidableEq, Repr

def flag? (name : Text) : Option Stop :=
  if name = "help".toList then some .help
  else if name = "version".toList then some .version
  else none

end Arguments

/-- Arguments by slot, in the order in which they were settled. -/
structure Arguments where
  given : List (Slot × Option Text) := []
  rest : List Text := []
  deriving DecidableEq

namespace Arguments

/-- The slot was given, with a value or without. -/
def occurs (a : Arguments) (slot : Slot) : Bool := a.given.any (·.1 = slot)

def value? (a : Arguments) (slot : Slot) : Option Text := (a.given.lookup slot).join

structure Reading where
  /-- Everything from here on is positional. -/
  trailing : Bool := false
  /-- What the next argument may be a value of. -/
  waiting : Option Slot := none
  /-- What is to be settled next. -/
  pending : Option (Slot × Option Text) := none
  /-- The positional arguments still to come, before the rest. -/
  due : List Slot
  arguments : Arguments := {}

namespace Reading

/-- Settles what is pending: a value that is needed has to be there, no slot is given twice, and a path is
not empty. -/
def settle (r : Reading) : Except Stop Reading :=
  match r.pending with
  | none => .ok r
  | some (slot, value) =>
    if value = none ∧ !slot.valueIsOptional then .error .invalidValue
    else if r.arguments.occurs slot then .error .argumentConflict
    else if slot.isPath ∧ value = some [] then .error .invalidValue
    else .ok { r with
      pending := none
      arguments := { r.arguments with given := r.arguments.given ++ [(slot, value)] } }

def positional (r : Reading) (a : Text) : Except Stop Reading := do
  let r ← r.settle
  match r.due with
  | slot :: due => return { r with pending := some (slot, some a), waiting := none, due := due }
  | [] =>
    return { r with
      waiting := some .rest
      arguments := { r.arguments with rest := r.arguments.rest ++ [a] } }

def valueOrPositional (r : Reading) (a : Text) : Except Stop Reading :=
  match r.waiting with
  | none | some .rest => r.positional a
  | some slot => .ok { r with pending := some (slot, some a), waiting := none }

def takeOption (r : Reading) (slot : Slot) (value : Option Text) : Except Stop Reading := do
  let r ← r.settle
  match value with
  | some v => settle { r with pending := some (slot, some v), waiting := none }
  | none => return { r with pending := some (slot, none), waiting := some slot }

def takeFlag (r : Reading) (stop : Stop) : Except Stop Reading := do
  let _ ← r.settle
  throw stop

/-- Takes an argument that starts with two hyphens; `body` stands behind them. -/
def takeLong (p : Program) (r : Reading) (body : Text) : Except Stop Reading :=
  let name := body.takeWhile (· ≠ '=')
  let value := (body.dropWhile (· ≠ '=')).tail?
  match p.option? name, flag? name with
  | some slot, _ => r.takeOption slot value
  | none, some stop => if value.isSome then .error .tooManyValues else r.takeFlag stop
  | none, none =>
    match p with
    | .inspect => r.valueOrPositional ("--".toList ++ body)
    | .precompute => .error .unknownArgument

/-- Takes an argument that starts with one hyphen, with the letters `c :: rest` behind it. -/
def takeShort (p : Program) (r : Reading) (c : Char) (rest : Text) : Except Stop Reading :=
  if p = .inspect ∧ !(c :: rest).all (· ∈ ['e', 'h', 'V']) then
    r.valueOrPositional ('-' :: c :: rest)
  else if c = 'h' then r.takeFlag .help
  else if c = 'V' then r.takeFlag .version
  else if c = 'e' then
    r.takeOption .encoding <|
      match rest with
      | [] => none
      | '=' :: value => some value
      | value => some value
  else .error .unknownArgument

def take (p : Program) (r : Reading) (a : Text) : Except Stop Reading :=
  if r.trailing then r.positional a
  else if r.waiting.any p.takesHyphens then r.valueOrPositional a
  else match a with
    | ['-', '-'] => .ok { r with trailing := true }
    | '-' :: '-' :: body => takeLong p r body
    | '-' :: c :: rest => takeShort p r c rest
    | a => r.valueOrPositional a

end Reading

def read (p : Program) (args : List Text) : Except Stop Arguments := do
  let r ← args.foldlM (Reading.take p) { due := p.positionals }
  let r ← r.settle
  return r.arguments

end Arguments

end Subword
