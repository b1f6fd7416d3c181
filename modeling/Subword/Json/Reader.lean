import Subword.Json.Lexeme

/-!
Reading JSON by shape: a value that does not matter, a natural, a text, a list, the members of an
object, and the items of an array of fixed length. The text is read from left to right and the first
fault decides.
-/
namespace Subword.Json

mutual

/-- The text behind a value that does not matter; `fuel` bounds the values and lists entered. -/
def skipValue : (fuel : Nat) → Text → Except Fault Text
  | 0, _ => .error .ended
  | fuel + 1, s =>
    match skipSpace s with
    | [] => .error .ended
    | c :: s =>
      if c = 'n' then readWord "ull".toList s
      else if c = 't' then readWord "rue".toList s
      else if c = 'f' then readWord "alse".toList s
      else if c = '"' then skipString s
      else if c = '-' then skipNumber s
      else if c.isDigit then skipNumber (c :: s)
      else if c = '[' then
        match skipSpace s with
        | [] => .error .ended
        | d :: s => if d = ']' then .ok s else skipItems fuel (d :: s)
      else if c = '\x7b' then
        match skipSpace s with
        | [] => .error .ended
        | d :: s => if d = '\x7d' then .ok s else skipMembers fuel (d :: s)
      else .error .malformed

def skipItems : (fuel : Nat) → Text → Except Fault Text
  | 0, _ => .error .ended
  | fuel + 1, s =>
    match skipValue fuel s with
    | .error e => .error e
    | .ok s =>
      match skipSpace s with
      | [] => .error .ended
      | c :: s =>
        if c = ',' then skipItems fuel s
        else if c = ']' then .ok s
        else .error .malformed

def skipMembers : (fuel : Nat) → Text → Except Fault Text
  | 0, _ => .error .ended
  | fuel + 1, s =>
    match skipSpace s with
    | [] => .error .ended
    | q :: s =>
      if q ≠ '"' then .error .malformed
      else match skipString s with
      | .error e => .error e
      | .ok s =>
        match skipSpace s with
        | [] => .error .ended
        | c :: s =>
          if c ≠ ':' then .error .malformed
          else match skipValue fuel s with
          | .error e => .error e
          | .ok s =>
            match skipSpace s with
            | [] => .error .ended
            | d :: s =>
              if d = ',' then skipMembers fuel s
              else if d = '\x7d' then .ok s
              else .error .malformed

end

/-- The text behind a value that does not matter. A value enters at most two readers a character. -/
def skip (s : Text) : Except Fault Text := skipValue (2 * s.length + 2) s

/-- What is wrong with a value of another shape than the one asked for, if the text starts with it. A
scalar is read before its shape is faulted. -/
def misfit (s : Text) : Fault :=
  let outcome : Except Fault Unit :=
    match s with
    | [] => .error .ended
    | c :: s =>
      if c = 'n' then (readWord "ull".toList s).map fun _ => ()
      else if c = 't' then (readWord "rue".toList s).map fun _ => ()
      else if c = 'f' then (readWord "alse".toList s).map fun _ => ()
      else if c = '"' then (readString s).map fun _ => ()
      else if c = '-' then (readNumber s).map fun _ => ()
      else if c.isDigit then (readNumber (c :: s)).map fun _ => ()
      else if c = '[' ∨ c = '\x7b' then .ok ()
      else .error .malformed
  match outcome with
  | .error e => e
  | .ok () => .mismatched

def readNatural (bound : Nat) (s : Text) : Read Nat :=
  match skipSpace s with
  | [] => .error .ended
  | c :: s =>
    if c.isDigit then
      match readNumber (c :: s) with
      | .error e => .error e
      | .ok (.natural n, rest) => if n < bound then .ok (n, rest) else .error .mismatched
      | .ok (.other, _) => .error .mismatched
    else .error (misfit (c :: s))

def readText (s : Text) : Read Text :=
  match skipSpace s with
  | [] => .error .ended
  | c :: s => if c = '"' then readString s else .error (misfit (c :: s))

/-- Where an item of an array is due: the text where it starts, or behind the closing bracket. -/
inductive Due where
  | item (s : Text)
  | closed (s : Text)

/-- Looks for the next item of an array; `first` tells that none came before. -/
def nextItem (first : Bool) (s : Text) : Except Fault Due :=
  match skipSpace s with
  | [] => .error .ended
  | c :: s =>
    if c = ']' then .ok (.closed s)
    else if first then .ok (.item (c :: s))
    else if c = ',' then
      match skipSpace s with
      | [] => .error .ended
      | d :: s => if d = ']' then .error .malformed else .ok (.item (d :: s))
    else .error .malformed

def readItems {α : Type} (item : Text → Read α) : (fuel : Nat) → (first : Bool) → Text → Read (List α)
  | 0, _, _ => .error .ended
  | fuel + 1, first, s =>
    match nextItem first s with
    | .error e => .error e
    | .ok (.closed s) => .ok ([], s)
    | .ok (.item s) =>
      match item s with
      | .error e => .error e
      | .ok (x, s) => (readItems item fuel false s).map fun p => (x :: p.1, p.2)

def readList {α : Type} (item : Text → Read α) (s : Text) : Read (List α) :=
  match skipSpace s with
  | [] => .error .ended
  | c :: s =>
    if c = '[' then readItems item (s.length + 1) true s else .error (misfit (c :: s))

/-- The next item of an array that has to have one. -/
def readItem {α : Type} (first : Bool) (item : Text → Read α) (s : Text) : Read α :=
  match nextItem first s with
  | .error e => .error e
  | .ok (.closed _) => .error .mismatched
  | .ok (.item s) => item s

def closeArray (s : Text) : Except Fault Text :=
  match skipSpace s with
  | [] => .error .ended
  | c :: s => if c = ']' then .ok s else .error .malformed

def readColon (s : Text) : Except Fault Text :=
  match skipSpace s with
  | [] => .error .ended
  | c :: s => if c = ':' then .ok s else .error .malformed

/-- Where a member of an object is due: the text behind the quote of its key, or behind the closing
brace. -/
def nextMember (first : Bool) (s : Text) : Except Fault Due :=
  match skipSpace s with
  | [] => .error .ended
  | c :: s =>
    if c = '\x7d' then .ok (.closed s)
    else if first then
      if c = '"' then .ok (.item s) else .error .malformed
    else if c = ',' then
      match skipSpace s with
      | [] => .error .ended
      | d :: s => if d = '"' then .ok (.item s) else .error .malformed
    else .error .malformed

/-- Reads the members of an object behind its opening brace into a draft: `member` takes each key with
the text behind it, `finish` the draft at the closing brace; `fuel` bounds the number of members. -/
def readMembers {σ α : Type} (member : Text → σ → Text → Read σ) (finish : σ → Except Fault α) :
    (fuel : Nat) → (first : Bool) → σ → Text → Read α
  | 0, _, _, _ => .error .ended
  | fuel + 1, first, draft, s =>
    match nextMember first s with
    | .error e => .error e
    | .ok (.closed s) => (finish draft).map fun x => (x, s)
    | .ok (.item s) =>
      match readString s with
      | .error e => .error e
      | .ok (key, s) =>
        match member key draft s with
        | .error e => .error e
        | .ok (draft, s) => readMembers member finish fuel false draft s

/-- The value of a member that may occur once only. -/
def readField {α : Type} (current : Option α) (value : Text → Read α) (s : Text) : Read α :=
  if current.isSome then .error .mismatched
  else match readColon s with
  | .error e => .error e
  | .ok s => value s

def skipMember {σ : Type} (draft : σ) (s : Text) : Read σ :=
  match readColon s with
  | .error e => .error e
  | .ok s => (skip s).map fun rest => (draft, rest)

/-- A value of named parts: an object, or an array of the parts in order. -/
def readParts {σ α : Type} (member : Text → σ → Text → Read σ) (finish : σ → Except Fault α)
    (start : σ) (positional : Text → Read α) (s : Text) : Read α :=
  match skipSpace s with
  | [] => .error .ended
  | c :: s =>
    if c = '[' then
      match positional s with
      | .error e => .error e
      | .ok (x, s) => (closeArray s).map fun rest => (x, rest)
    else if c = '\x7b' then readMembers member finish (s.length + 1) true start s
    else .error (misfit (c :: s))

/-- A value that is the whole text but for blanks. -/
def readDocument {α : Type} (value : Text → Read α) (s : Text) : Except Fault α :=
  match value s with
  | .error e => .error e
  | .ok (x, rest) => if skipSpace rest = [] then .ok x else .error .malformed

end Subword.Json
