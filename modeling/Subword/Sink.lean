import Subword.Text.Utf8

/-!
Output: a sink keeps the bytes written to it, up to its capacity. A write that does not fit keeps what
fits and fails; a write of nothing never fails. Main statement: writes made one by one, up to the first that
fails, leave what one write of all of them leaves.
-/
namespace Subword

inductive IoError where
  | notFound
  | notADirectory
  | isADirectory
  | nameTooLong
  | nulInPath
  | notUtf8
  | sinkFull
  | readFailed
  deriving DecidableEq, Repr

def IoError.message : IoError → Text
  | notFound => "No such file or directory (os error 2)".toList
  | notADirectory => "Not a directory (os error 20)".toList
  | isADirectory => "Is a directory (os error 21)".toList
  | nameTooLong => "File name too long (os error 36)".toList
  | nulInPath => "file name contained an unexpected NUL byte".toList
  | notUtf8 => "stream did not contain valid UTF-8".toList
  | sinkFull => "sink full".toList
  | readFailed => "read failed".toList

/-- An output, with the bytes that it keeps and the number that it still takes, if that is limited. -/
structure Sink where
  kept : Bytes := []
  room : Option Nat := none
  deriving DecidableEq, Repr

namespace Sink

def unlimited : Sink := {}

def limited (n : Nat) : Sink := { room := some n }

/-- Writes bytes: the sink afterwards, as an error if it could not take them all. -/
def write (s : Sink) (bytes : Bytes) : Except Sink Sink :=
  match s.room with
  | none => .ok { s with kept := s.kept ++ bytes }
  | some n =>
    let after : Sink := ⟨s.kept ++ bytes.take n, some (n - bytes.length)⟩
    if bytes.length ≤ n then .ok after else .error after

def print (s : Sink) (t : Text) : Except Sink Sink := s.write (Utf8.encode t)

/-- Makes writes one by one, up to the first that fails. -/
def printAll (s : Sink) (writes : List Text) : Except Sink Sink := writes.foldlM print s

theorem write_unlimited (kept bytes : Bytes) :
    write ⟨kept, none⟩ bytes = .ok ⟨kept ++ bytes, none⟩ := rfl

theorem write_some (kept bytes : Bytes) (n : Nat) : write ⟨kept, some n⟩ bytes =
    if bytes.length ≤ n then .ok ⟨kept ++ bytes.take n, some (n - bytes.length)⟩
    else .error ⟨kept ++ bytes.take n, some (n - bytes.length)⟩ := rfl

theorem write_nil (s : Sink) : s.write [] = .ok s := by
  obtain ⟨kept, _ | n⟩ := s
  · rw [write_unlimited, List.append_nil]
  · have hfits : ([] : Bytes).length ≤ n := Nat.zero_le n
    rw [write_some, if_pos hfits, List.take_nil, List.append_nil]
    rfl

/-- Two writes in a row are one write of both. -/
theorem write_append (s : Sink) (a b : Bytes) :
    (s.write a).bind (·.write b) = s.write (a ++ b) := by
  obtain ⟨kept, _ | n⟩ := s
  · simp [write_unlimited, Except.bind]
  have htake : (a ++ b).take n = a.take n ++ b.take (n - a.length) := List.take_append
  rw [write_some, write_some, htake, List.length_append]
  by_cases ha : a.length ≤ n
  · have hboth : b.length ≤ n - a.length ↔ a.length + b.length ≤ n := by omega
    rw [if_pos ha]
    simp only [Except.bind, write_some, hboth, List.append_assoc, Nat.sub_sub]
  · -- nothing of the second is kept, and the room that is left is none either way
    have hroom : n - a.length = 0 := by omega
    have hroom' : n - (a.length + b.length) = 0 := by omega
    rw [if_neg ha, if_neg (by omega), hroom, hroom', List.take_zero, List.append_nil]
    rfl

theorem print_append (s : Sink) (a b : Text) : (s.print a).bind (·.print b) = s.print (a ++ b) := by
  simp only [print, Utf8.encode_append]
  exact write_append s _ _

/-- Writes made one by one, up to the first that fails, are one write of all of them. -/
theorem printAll_eq (s : Sink) (writes : List Text) : s.printAll writes = s.print writes.flatten := by
  induction writes generalizing s with
  | nil => exact (write_nil s).symm
  | cons t writes ih =>
    have hrest : (fun s : Sink => s.printAll writes) = (·.print writes.flatten) := funext ih
    rw [List.flatten_cons, ← print_append, ← hrest]
    rfl

theorem printAll_unlimited (kept : Bytes) (writes : List Text) :
    printAll ⟨kept, none⟩ writes = .ok ⟨kept ++ Utf8.encode writes.flatten, none⟩ := by
  rw [printAll_eq, print, write_unlimited]

end Sink

end Subword
