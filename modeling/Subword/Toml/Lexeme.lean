import Subword.Decimal.Binary64
import Subword.Text.Numeral

/-!
Reading the parts of a TOML text that hold no other values: blanks, comments, strings, keys, numbers and
dates. Every reader takes the text from where it stands and gives the text behind what it has read, or
nothing if the text is not as the format has it.
-/
namespace Subword.Toml

abbrev Read (α : Type) := Option (α × Text)

def isBlank (c : Char) : Bool := c = ' ' ∨ c = '\t'

def skipBlank (s : Text) : Text := s.dropWhile isBlank

/-- The character may stand in a comment: no control character but the tab. -/
def isCommentChar (c : Char) : Bool := c = '\t' ∨ (0x20 ≤ c.toNat ∧ c.toNat ≠ 0x7F)

def newline? : Text → Option Text
  | '\n' :: s => some s
  | '\r' :: '\n' :: s => some s
  | _ => none

/-- The text behind blanks, a comment and the end of the line, all that may stand behind a pair. -/
def lineEnd? (s : Text) : Option Text :=
  let s := skipBlank s
  let s := match s with
    | '#' :: s => s.dropWhile isCommentChar
    | s => s
  match s with
  | [] => some []
  | s => newline? s

/-- The text behind blanks, comments and line ends, all that may stand between the items of an array;
`inComment` tells that it starts inside a comment. -/
def skipLines : (inComment : Bool) → Text → Text
  | _, [] => []
  | _, '\n' :: s => skipLines false s
  | _, '\r' :: '\n' :: s => skipLines false s
  | false, c :: s =>
    if isBlank c then skipLines false s else if c = '#' then skipLines true s else c :: s
  | true, c :: s => if isCommentChar c then skipLines true s else c :: s

def word? : (word : Text) → Text → Option Text
  | [], s => some s
  | _ :: _, [] => none
  | w :: word, c :: s => if c = w then word? word s else none

def readCodePoint (width : Nat) (s : Text) : Option (Char × Text) := do
  let digits ← (s.take width).mapM (Text.digitIn? 16)
  let n := Text.ofDigits 16 digits
  if digits.length = width ∧ n.isValidChar then some (Char.ofNat n, s.drop width) else none

theorem readCodePoint_length {width : Nat} {s rest : Text} {c : Char}
    (h : readCodePoint width s = some (c, rest)) : rest.length ≤ s.length := by
  simp only [readCodePoint, Option.bind_eq_bind, Option.bind_eq_some_iff] at h
  obtain ⟨digits, _, h⟩ := h
  split at h
  · simp only [Option.some.injEq, Prod.mk.injEq] at h
    simp [← h.2]
  · simp at h

def shortEscape? (c : Char) : Option Char :=
  if c = '"' ∨ c = '\\' then some c
  else if c = 'b' then some '\x08'
  else if c = 't' then some '\t'
  else if c = 'n' then some '\n'
  else if c = 'f' then some '\x0c'
  else if c = 'r' then some '\r'
  else none

def readEscape : Text → Read Char
  | [] => none
  | c :: s =>
    if c = 'u' then readCodePoint 4 s
    else if c = 'U' then readCodePoint 8 s
    else (shortEscape? c).map fun d => (d, s)

theorem readEscape_length {s rest : Text} {c : Char} (h : readEscape s = some (c, rest)) :
    rest.length < s.length := by
  cases s with
  | nil => simp [readEscape] at h
  | cons d s =>
    simp only [readEscape] at h
    split at h
    · exact Nat.lt_succ_of_le (readCodePoint_length h)
    · split at h
      · exact Nat.lt_succ_of_le (readCodePoint_length h)
      · obtain ⟨_, _, h⟩ := Option.map_eq_some_iff.1 h
        simp only [Prod.mk.injEq] at h
        simp [h.2]

/-- The content of a string on one line, behind its opening double quote. -/
def readBasic : Text → Read Text
  | [] => none
  | c :: s =>
    if c = '"' then some ([], s)
    else if c = '\\' then
      match h : readEscape s with
      | none => none
      | some (d, rest) =>
        have := readEscape_length h
        (readBasic rest).map fun p => (d :: p.1, p.2)
    else if isCommentChar c then (readBasic s).map fun p => (c :: p.1, p.2)
    else none
  termination_by s => s.length

def readLiteral : Text → Read Text
  | [] => none
  | c :: s =>
    if c = '\'' then some ([], s)
    else if isCommentChar c then (readLiteral s).map fun p => (c :: p.1, p.2)
    else none

def skipFold : Text → Text
  | '\n' :: s => skipFold s
  | '\r' :: '\n' :: s => skipFold s
  | c :: s => if isBlank c then skipFold s else c :: s
  | [] => []

/-- What a backslash at the end of a line removes, from behind the backslash: blanks, the end of the line,
and all blanks and line ends after it. -/
def skipFolded? (s : Text) : Option Text := (newline? (skipBlank s)).map skipFold

/-- The end of a string of several lines: how many quotes still belong to it, up to two, and the text
behind the closing three. -/
def closing? (quote : Char) (s : Text) : Read Nat :=
  let n := (s.takeWhile (· = quote)).length
  if n < 3 then none else some (min (n - 3) 2, s.drop (min n 5))

theorem newline?_length {s rest : Text} (h : newline? s = some rest) : rest.length < s.length := by
  unfold newline? at h
  split at h
  · obtain rfl := Option.some.inj h
    exact Nat.lt_succ_self _
  · obtain rfl := Option.some.inj h
    simp only [List.length_cons]
    omega
  · simp at h

theorem skipFold_length (s : Text) : (skipFold s).length ≤ s.length := by
  fun_induction skipFold s <;> simp_all <;> omega

theorem skipFolded?_length {s rest : Text} (h : skipFolded? s = some rest) :
    rest.length < s.length := by
  obtain ⟨behind, hb, rfl⟩ := Option.map_eq_some_iff.1 h
  have h₁ := newline?_length hb
  have h₂ := skipFold_length behind
  have h₃ : (skipBlank s).length ≤ s.length := (List.dropWhile_sublist isBlank).length_le
  omega

/-- The content of a string of several lines, behind its opening quotes. A line end reads as a line
feed. -/
def readBasicLines : Text → Read Text
  | [] => none
  | c :: s =>
    if c = '"' then
      match closing? '"' (c :: s) with
      | some (n, rest) => some (List.replicate n '"', rest)
      | none => (readBasicLines s).map fun p => (c :: p.1, p.2)
    else if c = '\\' then
      match hf : skipFolded? s with
      | some rest =>
        have := skipFolded?_length hf
        readBasicLines rest
      | none =>
        match he : readEscape s with
        | none => none
        | some (d, rest) =>
          have := readEscape_length he
          (readBasicLines rest).map fun p => (d :: p.1, p.2)
    else match hn : newline? (c :: s) with
    | some rest =>
      have : rest.length ≤ s.length := Nat.le_of_lt_succ (newline?_length hn)
      (readBasicLines rest).map fun p => ('\n' :: p.1, p.2)
    | none =>
      if isCommentChar c then (readBasicLines s).map fun p => (c :: p.1, p.2) else none
  termination_by s => s.length

def readLiteralLines : Text → Read Text
  | [] => none
  | c :: s =>
    if c = '\'' then
      match closing? '\'' (c :: s) with
      | some (n, rest) => some (List.replicate n '\'', rest)
      | none => (readLiteralLines s).map fun p => (c :: p.1, p.2)
    else match hn : newline? (c :: s) with
    | some rest =>
      have : rest.length ≤ s.length := Nat.le_of_lt_succ (newline?_length hn)
      (readLiteralLines rest).map fun p => ('\n' :: p.1, p.2)
    | none =>
      if isCommentChar c then (readLiteralLines s).map fun p => (c :: p.1, p.2) else none
  termination_by s => s.length

def dropNewline (s : Text) : Text := (newline? s).getD s

def readString : Text → Read Text
  | '"' :: '"' :: '"' :: s => readBasicLines (dropNewline s)
  | '"' :: s => readBasic s
  | '\'' :: '\'' :: '\'' :: s => readLiteralLines (dropNewline s)
  | '\'' :: s => readLiteral s
  | _ => none

def isBareChar (c : Char) : Bool := c.isAlphanum ∨ c = '-' ∨ c = '_'

def readName : Text → Read Text
  | [] => none
  | c :: s =>
    if c = '"' then readBasic s
    else if c = '\'' then readLiteral s
    else if isBareChar c then some ((c :: s).takeWhile isBareChar, (c :: s).dropWhile isBareChar)
    else none

/-- The names of a key, parted by dots, with blanks around each; `most` bounds their number. -/
def readNames : (most : Nat) → Text → Read (List Text)
  | 0, _ => none
  | most + 1, s =>
    match readName (skipBlank s) with
    | none => none
    | some (name, s) =>
      match skipBlank s with
      | '.' :: s => (readNames most s).map fun p => (name :: p.1, p.2)
      | s => some ([name], s)

/-- Digits with single underscores between them, which do not count. -/
def readDigits (isDigit : Char → Bool) (s : Text) : Read Text :=
  match s with
  | [] => none
  | c :: s => if isDigit c then some (c :: (more s).1, (more s).2) else none
where
  more : Text → Text × Text
    | '_' :: d :: s => if isDigit d then (d :: (more s).1, (more s).2) else ([], '_' :: d :: s)
    | c :: s => if isDigit c then (c :: (more s).1, (more s).2) else ([], c :: s)
    | [] => ([], [])

/-- A sign in front of a number; true for minus. -/
def readSign : Text → Bool × Text
  | '-' :: s => (true, s)
  | '+' :: s => (false, s)
  | s => (false, s)

/-- Decimal digits that start with a zero only if they are one. -/
def readWhole (s : Text) : Read Text :=
  match readDigits Char.isDigit s with
  | some (digits, rest) =>
    if digits.head? = some '0' ∧ digits.length ≠ 1 then none else some (digits, rest)
  | none => none

def readBased (base : Nat) (s : Text) : Read Int :=
  match readDigits (fun c => (Text.digitIn? base c).isSome) s with
  | some (digits, rest) =>
    some (Text.ofDigits base (digits.filterMap (Text.digitIn? base)), rest)
  | none => none

/-- An integer, decimal with a sign or in another base without. -/
def readInteger (s : Text) : Read Int :=
  let read : Read Int := match s with
    | '0' :: 'x' :: s => readBased 16 s
    | '0' :: 'o' :: s => readBased 8 s
    | '0' :: 'b' :: s => readBased 2 s
    | s =>
      (readWhole (readSign s).2).map fun p =>
        let n : Int := Text.ofDecimal p.1
        (if (readSign s).1 then -n else n, p.2)
  read.filter fun p => -0x8000000000000000 ≤ p.1 ∧ p.1 < 0x8000000000000000

/-- The number `m * 10 ^ e` rounds to a double beyond all finite ones. -/
def isInfinite (m : Nat) (e : Int) : Bool :=
  let size := (Text.decimal m).length + e
  m ≠ 0 &&
    (310 < size ||
      (300 < size && Binary64.overflowBound * Nat.pow 10 (-e).toNat ≤ m * Nat.pow 10 e.toNat))

def readFraction : Text → Read Text
  | '.' :: s => readDigits Char.isDigit s
  | _ => none

def readExponent : Text → Read Int
  | [] => none
  | c :: s =>
    if c = 'e' ∨ c = 'E' then
      (readDigits Char.isDigit (readSign s).2).map fun p =>
        let e : Int := Text.ofDecimal p.1
        (if (readSign s).1 then -e else e, p.2)
    else none

/-- The text behind a float. A float has a fraction, an exponent or both; a positive one may not be beyond
the finite doubles. -/
def skipFloat (s : Text) : Option Text :=
  let (minus, s) := readSign s
  match (word? "inf".toList s).or (word? "nan".toList s) with
  | some rest => some rest
  | none =>
    match readWhole s with
    | none => none
    | some (whole, s) =>
      let fraction := readFraction s
      let s := (fraction.map (·.2)).getD s
      let exponent := readExponent s
      let s := (exponent.map (·.2)).getD s
      let digits := whole ++ (fraction.map (·.1)).getD []
      let scale := (exponent.map (·.1)).getD 0 - ((fraction.map (·.1)).getD []).length
      if fraction.isNone ∧ exponent.isNone then none
      else if !minus && isInfinite (Text.ofDecimal digits) scale then none
      else some s

/-- A number of exactly `width` decimal digits between two bounds. -/
def readField (width low high : Nat) (s : Text) : Read Nat :=
  let digits := s.take width
  let n := Text.ofDecimal digits
  if digits.length = width ∧ digits.all Char.isDigit ∧ low ≤ n ∧ n ≤ high then some (n, s.drop width)
  else none

def daysIn (year month : Nat) : Nat :=
  if month = 2 then
    if year % 4 = 0 ∧ (year % 100 ≠ 0 ∨ year % 400 = 0) then 29 else 28
  else if month = 4 ∨ month = 6 ∨ month = 9 ∨ month = 11 then 30
  else 31

def skipDate (s : Text) : Option Text := do
  let (year, s) ← readField 4 0 9999 s
  let s ← word? ['-'] s
  let (month, s) ← readField 2 1 12 s
  let s ← word? ['-'] s
  let (_, s) ← readField 2 1 (daysIn year month) s
  return s

/-- The text behind a time of day; a second may be a leap second and may have a fraction. -/
def skipTime (s : Text) : Option Text := do
  let (_, s) ← readField 2 0 23 s
  let s ← word? [':'] s
  let (_, s) ← readField 2 0 59 s
  let s ← word? [':'] s
  let (_, s) ← readField 2 0 60 s
  match s with
  | '.' :: d :: rest => if d.isDigit then return rest.dropWhile Char.isDigit else return s
  | _ => return s

def skipOffset (s : Text) : Text :=
  match s with
  | [] => []
  | c :: rest =>
    if c = 'Z' ∨ c = 'z' then rest
    else if c = '+' ∨ c = '-' then
      let behind : Option Text := do
        let (_, s) ← readField 2 0 23 rest
        let s ← word? [':'] s
        let (_, s) ← readField 2 0 59 s
        return s
      behind.getD s
    else s

/-- The text behind a date, a time, or a date and a time. -/
def skipDateTime (s : Text) : Option Text :=
  match skipDate s with
  | some behind =>
    match behind with
    | [] => some []
    | c :: rest =>
      if c = 'T' ∨ c = 't' ∨ c = ' ' then
        match skipTime rest with
        | some s => some (skipOffset s)
        | none => some (c :: rest)
      else some (c :: rest)
  | none => skipTime s

end Subword.Toml
