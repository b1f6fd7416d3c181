import Subword.Text.Numeral

/-!
UTF-8: writing a text, reading it strictly with the place of the first fault, and reading it lossily
with a replacement character for each fault.
-/
namespace Subword.Utf8

def encode (t : Text) : Bytes := t.flatMap String.utf8EncodeChar

@[simp] theorem encode_nil : encode [] = [] := rfl

@[simp] theorem encode_cons (c : Char) (t : Text) :
    encode (c :: t) = String.utf8EncodeChar c ++ encode t := rfl

@[simp] theorem encode_append (s t : Text) : encode (s ++ t) = encode s ++ encode t :=
  List.flatMap_append

/-- The sequences that a lead byte starts: how many bytes follow, the bounds of the first of them,
and the value bits of the lead byte. -/
structure Lead where
  more : Nat
  low : UInt8
  high : UInt8
  value : Nat
  deriving Repr

/-- What a byte of 0x80 or more starts, if a sequence may start with it. -/
def Lead.ofByte? (b : UInt8) : Option Lead :=
  if b < 0xC2 then none
  else if b < 0xE0 then some ⟨1, 0x80, 0xBF, b.toNat % 32⟩
  else if b = 0xE0 then some ⟨2, 0xA0, 0xBF, 0⟩
  else if b = 0xED then some ⟨2, 0x80, 0x9F, 13⟩
  else if b < 0xF0 then some ⟨2, 0x80, 0xBF, b.toNat % 16⟩
  else if b = 0xF0 then some ⟨3, 0x90, 0xBF, 0⟩
  else if b < 0xF4 then some ⟨3, 0x80, 0xBF, b.toNat % 8⟩
  else if b = 0xF4 then some ⟨3, 0x80, 0x8F, 4⟩
  else none

inductive Front where
  /-- A character, and the bytes behind it. -/
  | char (c : Char) (rest : Bytes)
  /-- The `width` bytes of a sequence that the next byte cannot continue. -/
  | invalid (width : Nat) (rest : Bytes)
  /-- A sequence that the end of the bytes cuts off. -/
  | incomplete

/-- Reads the continuation bytes of a started sequence: `owed` are missing, the next lies between
`low` and `high`, `width` are read and give `value`. -/
def continuation : (owed : Nat) → (low high : UInt8) → (value width : Nat) → Bytes → Front
  | 0, _, _, value, _, rest => .char (Char.ofNat value) rest
  | _ + 1, _, _, _, _, [] => .incomplete
  | owed + 1, low, high, value, width, b :: rest =>
    if low ≤ b ∧ b ≤ high then
      continuation owed 0x80 0xBF (value * 64 + b.toNat % 64) (width + 1) rest
    else .invalid width (b :: rest)

def front (b : UInt8) (rest : Bytes) : Front :=
  if b < 0x80 then .char (Char.ofNat b.toNat) rest
  else match Lead.ofByte? b with
    | none => .invalid 1 rest
    | some l => continuation l.more l.low l.high l.value 1 rest

def Front.rest : Front → Bytes
  | .char _ rest | .invalid _ rest => rest
  | .incomplete => []

theorem continuation_rest (owed : Nat) (low high : UInt8) (value width : Nat) (bytes : Bytes) :
    (continuation owed low high value width bytes).rest.length ≤ bytes.length := by
  induction owed generalizing low high value width bytes with
  | zero => simp [continuation, Front.rest]
  | succ owed ih =>
    cases bytes with
    | nil => simp [continuation, Front.rest]
    | cons b rest =>
      unfold continuation
      split
      · exact Nat.le_succ_of_le (ih ..)
      · simp [Front.rest]

theorem front_rest (b : UInt8) (rest : Bytes) : (front b rest).rest.length ≤ rest.length := by
  unfold front
  split
  · simp [Front.rest]
  · split
    · simp [Front.rest]
    · exact continuation_rest ..

/-- Why bytes are not UTF-8, and at which index the faulty sequence starts. -/
inductive Fault where
  /-- The `width` bytes at `index` start no sequence that goes on with the byte behind them. -/
  | invalid (width index : Nat)
  /-- The bytes end inside the sequence at `index`. -/
  | incomplete (index : Nat)
  deriving DecidableEq, Repr

def Fault.message : Fault → Text
  | .invalid width index =>
    "invalid utf-8 sequence of ".toList ++ Text.decimal width ++ " bytes from index ".toList ++
      Text.decimal index
  | .incomplete index => "incomplete utf-8 byte sequence from index ".toList ++ Text.decimal index

/-- Reads bytes that start at `index` of the whole. -/
def decodeFrom (index : Nat) : Bytes → Except Fault Text
  | [] => .ok []
  | b :: rest =>
    match h : front b rest with
    | .char c behind =>
      have : behind.length ≤ rest.length := by simpa [h, Front.rest] using front_rest b rest
      (decodeFrom (index + (rest.length + 1 - behind.length)) behind).map (c :: ·)
    | .invalid width _ => .error (.invalid width index)
    | .incomplete => .error (.incomplete index)
  termination_by bytes => bytes.length

def decode (bytes : Bytes) : Except Fault Text := decodeFrom 0 bytes

def replacement : Char := '\ufffd'

/-- The text that the bytes spell, with one replacement character for each faulty sequence. -/
def decodeLossy : Bytes → Text
  | [] => []
  | b :: rest =>
    match h : front b rest with
    | .char c behind =>
      have : behind.length ≤ rest.length := by simpa [h, Front.rest] using front_rest b rest
      c :: decodeLossy behind
    | .invalid _ behind =>
      have : behind.length ≤ rest.length := by simpa [h, Front.rest] using front_rest b rest
      replacement :: decodeLossy behind
    | .incomplete => [replacement]
  termination_by bytes => bytes.length

end Subword.Utf8
