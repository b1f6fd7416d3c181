import Subword.Proofs.Utf8.Decoding
import Subword.Sink

/-!
A sink with a limit against one without. Main statement: a sink of `n` bytes keeps the first `n` of all the
bytes that are ever offered to it, and a write to it fails exactly if it has something to write and the bytes
offered by then are more than `n`.
-/
namespace Subword.Sink

/-- The sink of `n` bytes to which these bytes have been offered in all. -/
def offered (n : Nat) (bytes : Bytes) : Sink := ⟨bytes.take n, some (n - bytes.length)⟩

/-- Two runs that write the same, one to a sink without a limit and one to a sink of `n` bytes, each given by
its outcome and its sink: the second keeps the first `n` bytes of the first and ends like it, or as `blocked`
if there are more. The first never ends as `blocked`. -/
structure Truncates {α : Type} (n : Nat) (blocked : α) (full limited : α × Sink) : Prop where
  kept : limited.2.kept = full.2.kept.take n
  unblocked : full.1 ≠ blocked
  fits : full.2.kept.length ≤ n → limited.1 = full.1
  cut : n < full.2.kept.length → limited.1 = blocked

variable {n : Nat} {kept : Bytes} {writes : List Text}

theorem offered_nil (n : Nat) : offered n [] = limited n := by
  simp [offered, limited]

theorem write_offered (n : Nat) (kept bytes : Bytes) :
    (offered n kept).write bytes =
      if bytes.length ≤ n - kept.length then .ok (offered n (kept ++ bytes))
      else .error (offered n (kept ++ bytes)) := by
  have hafter : offered n (kept ++ bytes) = ⟨kept.take n ++ bytes.take (n - kept.length),
      some (n - kept.length - bytes.length)⟩ := by
    rw [offered, List.take_append, List.length_append, Nat.sub_sub]
  rw [hafter]
  rfl

theorem printAll_offered_of_le (h : (kept ++ Utf8.encode writes.flatten).length ≤ n) :
    (offered n kept).printAll writes = .ok (offered n (kept ++ Utf8.encode writes.flatten)) := by
  rw [List.length_append] at h
  rw [printAll_eq, print, write_offered, if_pos (by omega)]

theorem printAll_offered_of_lt (hwrites : Utf8.encode writes.flatten ≠ [])
    (h : n < (kept ++ Utf8.encode writes.flatten).length) :
    (offered n kept).printAll writes = .error (offered n (kept ++ Utf8.encode writes.flatten)) := by
  have hpos := List.length_pos_iff.mpr hwrites
  rw [List.length_append] at h
  rw [printAll_eq, print, write_offered, if_neg (by omega)]

/-- One of the writes that cross the limit fails. -/
theorem printAll_offered_of_cross (hkept : kept.length ≤ n)
    (h : n < (kept ++ Utf8.encode writes.flatten).length) :
    (offered n kept).printAll writes = .error (offered n (kept ++ Utf8.encode writes.flatten)) := by
  refine printAll_offered_of_lt ?_ h
  intro hnil
  rw [hnil, List.append_nil] at h
  omega

theorem print_unlimited (t : Text) : unlimited.print t = .ok ⟨Utf8.encode t, none⟩ := rfl

theorem print_unlimited_inj {s t : Text} : unlimited.print s = unlimited.print t ↔ s = t := by
  refine ⟨fun h => ?_, congrArg _⟩
  rw [print_unlimited, print_unlimited] at h
  have hbytes : Utf8.encode s = Utf8.encode t := congrArg kept (Except.ok.inj h)
  exact Utf8.encode_injective hbytes

theorem truncates_of_silent {α : Type} {outcome blocked : α} (h : outcome ≠ blocked) (n : Nat) :
    Truncates n blocked (outcome, unlimited) (outcome, limited n) :=
  ⟨List.take_nil.symm, h, fun _ => rfl, fun hcut => absurd hcut (Nat.not_lt_zero n)⟩

end Subword.Sink
