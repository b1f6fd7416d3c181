import Subword.Decimal.Binary64
import Subword.Text.Numeral
import Subword.Text.Utf8

/-!
Reading the smallest parts of a JSON text: blanks, words, strings and numbers. Every reader takes the
text from where it stands and gives the text behind what it has read.
-/
namespace Subword.Json

inductive Fault where
  | ended
  | malformed
  /-- The JSON has another shape than what was asked for. -/
  | mismatched
  deriving DecidableEq, Repr

/-- The outcome of reading: a value and the text behind it, or the first fault. -/
abbrev Read (α : Type) := Except Fault (α × Text)

def isSpace (c : Char) : Bool := c = ' ' ∨ c = '\t' ∨ c = '\n' ∨ c = '\r'

def skipSpace (s : Text) : Text := s.dropWhile isSpace

def readWord : (word : Text) → Text → Except Fault Text
  | [], s => .ok s
  | _ :: _, [] => .error .ended
  | w :: word, c :: s => if c = w then readWord word s else .error .malformed

def shortEscape? (c : Char) : Option Char :=
  if c = '"' ∨ c = '\\' ∨ c = '/' then some c
  else if c = 'b' then some '\x08'
  else if c = 'f' then some '\x0c'
  else if c = 'n' then some '\n'
  else if c = 'r' then some '\r'
  else if c = 't' then some '\t'
  else none

/-- Four hexadecimal digits. A text of fewer than four bytes has ended too early, whatever it holds. -/
def readUnit (s : Text) : Read Nat :=
  match s with
  | a :: b :: c :: d :: rest =>
    match [a, b, c, d].mapM (Text.digitIn? 16) with
    | some digits => .ok (Text.ofDigits 16 digits, rest)
    | none => .error .malformed
  | _ => if (Utf8.encode s).length < 4 then .error .ended else .error .malformed

def isHighSurrogate (n : Nat) : Bool := 0xD800 ≤ n && n ≤ 0xDBFF

def isLowSurrogate (n : Nat) : Bool := 0xDC00 ≤ n && n ≤ 0xDFFF

def readLowSurrogate (high : Nat) : Text → Read Char
  | [] | ['\\'] => .error .ended
  | '\\' :: 'u' :: s =>
    match readUnit s with
    | .error e => .error e
    | .ok (low, rest) =>
      if isLowSurrogate low then
        .ok (Char.ofNat ((high - 0xD800) * 0x400 + (low - 0xDC00) + 0x10000), rest)
      else .error .malformed
  | _ => .error .malformed

/-- The character of an escape, behind its backslash. Surrogates count in pairs only. -/
def readEscape : Text → Read Char
  | [] => .error .ended
  | 'u' :: s =>
    match readUnit s with
    | .error e => .error e
    | .ok (n, rest) =>
      if isHighSurrogate n then readLowSurrogate n rest
      else if isLowSurrogate n then .error .malformed
      else .ok (Char.ofNat n, rest)
  | c :: s =>
    match shortEscape? c with
    | some d => .ok (d, s)
    | none => .error .malformed

/-- An escape in a string whose content does not matter: surrogates may stand alone. -/
def skipEscape : Text → Except Fault Text
  | [] => .error .ended
  | 'u' :: s => (readUnit s).map (·.2)
  | c :: s => if (shortEscape? c).isSome then .ok s else .error .malformed

theorem readUnit_length {s rest : Text} {n : Nat} (h : readUnit s = .ok (n, rest)) :
    rest.length < s.length := by
  unfold readUnit at h
  split at h
  · split at h
    · simp only [Except.ok.injEq, Prod.mk.injEq] at h
      simp [← h.2]
      omega
    · simp at h
  · split at h <;> simp at h

theorem readLowSurrogate_length {s rest : Text} {high : Nat} {c : Char}
    (h : readLowSurrogate high s = .ok (c, rest)) : rest.length < s.length := by
  unfold readLowSurrogate at h
  split at h
  · simp at h
  · simp at h
  · split at h
    · simp at h
    · rename_i hu
      have := readUnit_length hu
      split at h
      · simp only [Except.ok.injEq, Prod.mk.injEq] at h
        simp [← h.2]
        omega
      · simp at h
  · simp at h

theorem readEscape_length {s rest : Text} {c : Char} (h : readEscape s = .ok (c, rest)) :
    rest.length < s.length := by
  unfold readEscape at h
  split at h
  · simp at h
  · split at h
    · simp at h
    · rename_i hu
      have := readUnit_length hu
      split at h
      · have := readLowSurrogate_length h
        simp
        omega
      · split at h
        · simp at h
        · simp only [Except.ok.injEq, Prod.mk.injEq] at h
          simp [← h.2]
          omega
  · split at h
    · simp only [Except.ok.injEq, Prod.mk.injEq] at h
      simp [h.2]
    · simp at h

theorem skipEscape_length {s rest : Text} (h : skipEscape s = .ok rest) :
    rest.length < s.length := by
  unfold skipEscape at h
  split at h
  · simp at h
  · rename_i s
    cases hu : readUnit s with
    | error e => simp [hu, Except.map] at h
    | ok p =>
      have := readUnit_length hu
      simp [hu, Except.map] at h
      simp [← h]
      omega
  · split at h
    · simp only [Except.ok.injEq] at h
      simp [h]
    · simp at h

def readString : Text → Read Text
  | [] => .error .ended
  | c :: s =>
    if c = '"' then .ok ([], s)
    else if c = '\\' then
      match h : readEscape s with
      | .error e => .error e
      | .ok (d, rest) =>
        have := readEscape_length h
        (readString rest).map fun p => (d :: p.1, p.2)
    else if c.toNat < 0x20 then .error .malformed
    else (readString s).map fun p => (c :: p.1, p.2)
  termination_by s => s.length

def skipString : Text → Except Fault Text
  | [] => .error .ended
  | c :: s =>
    if c = '"' then .ok s
    else if c = '\\' then
      match h : skipEscape s with
      | .error e => .error e
      | .ok rest =>
        have := skipEscape_length h
        skipString rest
    else if c.toNat < 0x20 then .error .malformed
    else skipString s
  termination_by s => s.length

/-- A number, as far as the documents of this library care: a natural of 64 bits or another one. -/
inductive Number where
  | natural (n : Nat)
  | other
  deriving DecidableEq, Repr

/-- Appends digits to a number as long as it fits 64 bits; gives how many went in. -/
def gather (n : Nat) : Text → Nat × Nat
  | [] => (n, 0)
  | d :: digits =>
    let m := n * 10 + (d.toNat - '0'.toNat)
    if m < UInt64.size then
      let g := gather m digits
      (g.1, g.2 + 1)
    else (n, 0)

/-- The product of the doubles nearest to `significand` and `10 ^ exponent` is beyond all doubles. -/
def overflows (significand : Nat) (exponent : Int) : Bool :=
  significand ≠ 0 &&
    (308 < exponent ||
      (0 ≤ exponent &&
        Binary64.overflowBound ≤
          Binary64.roundNat significand * Binary64.roundNat (Nat.pow 10 exponent.toNat)))

def digits (s : Text) : Text := s.takeWhile Char.isDigit

def behindDigits (s : Text) : Text := s.dropWhile Char.isDigit

def readDigits (s : Text) : Read Text :=
  match s with
  | [] => .error .ended
  | c :: _ => if c.isDigit then .ok (digits s, behindDigits s) else .error .malformed

/-- The whole part of a number: a single zero, or digits that do not start with one. -/
def readWhole (s : Text) : Read Text :=
  match readDigits s with
  | .error e => .error e
  | .ok (ds, rest) =>
    if ds.head? = some '0' ∧ ds.length ≠ 1 then .error .malformed else .ok (ds, rest)

def readFraction (s : Text) : Read (Option Text) :=
  match s with
  | '.' :: s => (readDigits s).map fun p => (some p.1, p.2)
  | _ => .ok (none, s)

def readExponent (s : Text) : Read (Option Int) :=
  match s with
  | c :: s' =>
    if c = 'e' ∨ c = 'E' then
      let unsigned := match s' with
        | '+' :: u | '-' :: u => u
        | u => u
      (readDigits unsigned).map fun p =>
        let e : Int := Text.ofDecimal p.1
        (some (if s'.head? = some '-' then -e else e), p.2)
    else .ok (none, s)
  | [] => .ok (none, s)

/-- A number behind its sign. One whose double is infinite is no number. -/
def readNumber (s : Text) : Except Fault (Number × Text) := do
  let (whole, s) ← readWhole s
  let (fraction, s) ← readFraction s
  let (exponent, s) ← readExponent s
  let (n, kept) := gather 0 whole
  let (significand, places) := gather n (fraction.getD [])
  if fraction = none ∧ exponent = none ∧ kept = whole.length then
    return (.natural n, s)
  else if overflows significand (whole.length - kept - places + exponent.getD 0) then
    throw .malformed
  else
    return (.other, s)

/-- The text behind a number whose value does not matter, from behind its sign. Wherever such a number
breaks off, it is malformed. -/
def skipNumber (s : Text) : Except Fault Text :=
  let parts : Except Fault Text := do
    let (_, s) ← readWhole s
    let (_, s) ← readFraction s
    let (_, s) ← readExponent s
    return s
  parts.mapError fun _ => .malformed

end Subword.Json
