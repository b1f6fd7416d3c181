import Subword.Text.Basic

/-!
TOML documents: values, tables with the way in which each was made, and adding to a table. A table may be
added to only in the ways that its making allows, and no key may be given twice.
-/
namespace Subword

/-- How a table was made. -/
inductive Toml.Form where
  /-- By its own header, or as an element of an array of tables. -/
  | header
  /-- As the parent of a table with a header. -/
  | parent
  /-- As the parent of a dotted key. -/
  | dotted
  /-- Between braces. -/
  | inline
  deriving DecidableEq, Repr

inductive Toml where
  | string (s : Text)
  | integer (i : Int)
  | boolean (b : Bool)
  | float
  | dateTime
  | array (items : List Toml)
  | table (form : Toml.Form) (entries : List (Text × Toml))
  /-- The tables of equal headers in double brackets, in order. -/
  | tables (first : List (List (Text × Toml))) (last : List (Text × Toml))

namespace Toml

/-- The entries of a table, in the order of their keys' first mention. -/
abbrev Entries := List (Text × Toml)

def replace (key : Text) (value : Toml) (entries : Entries) : Entries :=
  entries.map fun e => if e.1 = key then (key, value) else e

/-- Adds a value at a key, below the tables that a dotted key names before it. Such a table is made if it
is missing; a table of a header, or between braces, is closed to it, and so is a parent of a header as
the last table of the path. -/
def addDotted (key : Text) (value : Toml) : (path : List Text) → Entries → Option Entries
  | [], entries =>
    if (entries.lookup key).isSome then none else some (entries ++ [(key, value)])
  | name :: path, entries =>
    match entries.lookup name with
    | none =>
      (addDotted key value path []).map fun sub => entries ++ [(name, table .dotted sub)]
    | some (table form sub) =>
      if form = .dotted ∨ (form = .parent ∧ path ≠ []) then
        (addDotted key value path sub).map fun sub => replace name (table form sub) entries
      else none
    | some (tables first last) =>
      if path = [] then none
      else (addDotted key value path last).map fun last =>
        replace name (tables first last) entries
    | some _ => none

/-- Changes the entries of the table at a path of headers. A missing table is made as a parent; in an
array of tables the last one counts. -/
def change (f : Entries → Option Entries) : (path : List Text) → Entries → Option Entries
  | [], entries => f entries
  | name :: path, entries =>
    match entries.lookup name with
    | none => (change f path []).map fun sub => entries ++ [(name, table .parent sub)]
    | some (table form sub) =>
      if form = .inline then none
      else (change f path sub).map fun sub => replace name (table form sub) entries
    | some (tables first last) =>
      (change f path last).map fun last => replace name (tables first last) entries
    | some _ => none

/-- Opens the table of a header: a new one, or one that has been the parent of a header so far. -/
def openTable (key : Text) (entries : Entries) : Option Entries :=
  match entries.lookup key with
  | none => some (entries ++ [(key, table .header [])])
  | some (table .parent sub) => some (replace key (table .header sub) entries)
  | some _ => none

def openElement (key : Text) (entries : Entries) : Option Entries :=
  match entries.lookup key with
  | none => some (entries ++ [(key, tables [] [])])
  | some (tables first last) => some (replace key (tables (first ++ [last]) []) entries)
  | some _ => none

/-- A key of one or more names: all but the last, and the last. -/
structure Key where
  path : List Text
  name : Text
  deriving DecidableEq, Repr

inductive Line where
  | blank
  | pair (key : Key) (value : Toml)
  | header (key : Key)
  | element (key : Key)

/-- A document so far: its root, and the table that pairs go to. -/
structure Draft where
  root : Entries := []
  place : List Text := []

def Draft.take (d : Draft) : Line → Option Draft
  | .blank => some d
  | .pair key value =>
    (change (addDotted key.name value key.path) d.place d.root).map fun root => { d with root }
  | .header key =>
    (change (openTable key.name) key.path d.root).map fun root => ⟨root, key.path ++ [key.name]⟩
  | .element key =>
    (change (openElement key.name) key.path d.root).map fun root => ⟨root, key.path ++ [key.name]⟩

end Toml

end Subword
