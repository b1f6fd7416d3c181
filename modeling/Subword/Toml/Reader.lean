import Subword.Toml.Basic
import Subword.Toml.Lexeme

/-!
Reading TOML documents. Arrays and tables between braces nest to a depth of at most 79, and a key has at
most 79 names.
-/
namespace Subword.Toml

/-- How deep values may nest, and how many names a key may have. -/
def depthLimit : Nat := 79

def readKey (s : Text) : Read Key :=
  match readNames depthLimit s with
  | some (names, rest) => names.getLast?.map fun name => (⟨names.dropLast, name⟩, rest)
  | none => none

def readNumber (s : Text) : Read Toml :=
  match skipDateTime s with
  | some rest => some (dateTime, rest)
  | none =>
    match skipFloat s with
    | some rest => some (float, rest)
    | none => (readInteger s).map fun p => (integer p.1, p.2)

def readScalar (s : Text) : Read Toml :=
  match s with
  | [] => none
  | c :: _ =>
    if c = '"' ∨ c = '\'' then (readString s).map fun p => (string p.1, p.2)
    else if c = 't' then (word? "true".toList s).map fun rest => (boolean true, rest)
    else if c = 'f' then (word? "false".toList s).map fun rest => (boolean false, rest)
    else readNumber s

mutual

/-- A value; `room` tells how deep further values may nest in it, `fuel` bounds the values and lists
entered. -/
def readValue : (fuel room : Nat) → Text → Read Toml
  | 0, _, _ => none
  | fuel + 1, room, s =>
    match s with
    | '[' :: s =>
      match room with
      | 0 => none
      | room + 1 => (readItems fuel room (skipLines false s)).map fun p => (array p.1, p.2)
    | '\x7b' :: s =>
      match room with
      | 0 => none
      | room + 1 =>
        match skipBlank s with
        | '\x7d' :: s => some (table .inline [], s)
        | s => (readPairs fuel room [] s).map fun p => (table .inline p.1, p.2)
    | s => readScalar s

/-- The items of an array and its closing bracket; a comma may stand behind the last. -/
def readItems : (fuel room : Nat) → Text → Read (List Toml)
  | 0, _, _ => none
  | fuel + 1, room, s =>
    match s with
    | ']' :: s => some ([], s)
    | s =>
      match readValue fuel room s with
      | none => none
      | some (item, s) =>
        match skipLines false s with
        | ']' :: s => some ([item], s)
        | ',' :: s => (readItems fuel room (skipLines false s)).map fun p => (item :: p.1, p.2)
        | _ => none

/-- The pairs of a table between braces, added to those before, and its closing brace; no comma may stand
behind the last. -/
def readPairs : (fuel room : Nat) → Entries → Text → Read Entries
  | 0, _, _, _ => none
  | fuel + 1, room, entries, s =>
    match readKey s with
    | none => none
    | some (key, s) =>
      match s with
      | '=' :: s =>
        match readValue fuel room (skipBlank s) with
        | none => none
        | some (value, s) =>
          match addDotted key.name value key.path entries with
          | none => none
          | some entries =>
            match skipBlank s with
            | '\x7d' :: s => some (entries, s)
            | ',' :: s => readPairs fuel room entries s
            | _ => none
      | _ => none

end

def readLine (s : Text) : Read Line :=
  match s with
  | '[' :: '[' :: s =>
    match readKey s with
    | some (key, ']' :: ']' :: s) => (lineEnd? s).map fun rest => (.element key, rest)
    | _ => none
  | '[' :: s =>
    match readKey s with
    | some (key, ']' :: s) => (lineEnd? s).map fun rest => (.header key, rest)
    | _ => none
  | s =>
    match lineEnd? s with
    | some rest => some (.blank, rest)
    | none =>
      match readKey s with
      | some (key, '=' :: s) =>
        match readValue (2 * s.length + 2) depthLimit (skipBlank s) with
        | some (value, s) => (lineEnd? s).map fun rest => (.pair key value, rest)
        | none => none
      | _ => none

def readLines : (fuel : Nat) → Draft → Text → Option Entries
  | 0, _, _ => none
  | fuel + 1, draft, s =>
    match skipBlank s with
    | [] => some draft.root
    | s =>
      match readLine s with
      | none => none
      | some (line, s) =>
        match draft.take line with
        | none => none
        | some draft => readLines fuel draft s

/-- The root table of a document. A byte order mark in front does not count. -/
def ofDocument? (document : Text) : Option Entries :=
  let s := match document with
    | '\ufeff' :: s => s
    | s => s
  readLines (s.length + 1) {} s

end Subword.Toml
