import Subword.Proofs.Utf8.Decoding

/-!
Reading UTF-8 with a replacement character for each faulty sequence. A replacement character takes as many
bytes as the longest faulty sequence. Main statements: lossy reading never makes a byte string shorter, it
keeps a byte string exactly when this is UTF-8, and it leaves a replacement character in any other.
-/
namespace Subword.Utf8

private theorem exists_of_continuation_eq_invalid {owed : Nat} {low high : UInt8}
    {value width width' : Nat} {bytes behind : Bytes}
    (h : continuation owed low high value width bytes = .invalid width' behind) :
    ∃ read, bytes = read ++ behind ∧ read.length < owed := by
  induction owed generalizing low high value width bytes with
  | zero => cases h
  | succ owed ih =>
    cases bytes with
    | nil => cases h
    | cons b rest =>
      unfold continuation at h
      split at h
      · obtain ⟨read, rfl, hlen⟩ := ih h
        exact ⟨b :: read, rfl, by simpa using hlen⟩
      · cases h
        exact ⟨[], rfl, by simp⟩

private theorem length_lt_of_continuation_eq_incomplete {owed : Nat} {low high : UInt8}
    {value width : Nat} {bytes : Bytes}
    (h : continuation owed low high value width bytes = .incomplete) : bytes.length < owed := by
  induction owed generalizing low high value width bytes with
  | zero => cases h
  | succ owed ih =>
    cases bytes with
    | nil => simp
    | cons b rest =>
      unfold continuation at h
      split at h
      · simpa using ih h
      · cases h

private theorem Lead.more_le {b : UInt8} {l : Lead} (h : Lead.ofByte? b = some l) : l.more ≤ 3 := by
  have := Lead.ofByte?_bounds h
  omega

theorem exists_of_front_eq_invalid {b : UInt8} {rest behind : Bytes} {width : Nat}
    (h : front b rest = .invalid width behind) :
    ∃ faulty, b :: rest = faulty ++ behind ∧ faulty.length ≤ 3 := by
  unfold front at h
  split at h
  · cases h
  split at h
  · cases h
    exact ⟨[b], rfl, by simp⟩
  · rename_i l hl
    have hm := Lead.more_le hl
    obtain ⟨read, rfl, hlen⟩ := exists_of_continuation_eq_invalid h
    exact ⟨b :: read, rfl, by simp only [List.length_cons]; omega⟩

theorem length_le_of_front_eq_incomplete {b : UInt8} {rest : Bytes}
    (h : front b rest = .incomplete) : rest.length + 1 ≤ 3 := by
  unfold front at h
  split at h
  · cases h
  split at h
  · cases h
  · rename_i l hl
    have hm := Lead.more_le hl
    have hlen := length_lt_of_continuation_eq_incomplete h
    omega

theorem length_encode_replacement : (String.utf8EncodeChar replacement).length = 3 := by decide

/-- Lossy reading never makes a byte string shorter. -/
theorem length_le_length_encode_decodeLossy (bytes : Bytes) :
    bytes.length ≤ (encode (decodeLossy bytes)).length := by
  fun_induction decodeLossy bytes with
  | case1 => simp
  | case2 b rest c behind h _ ih =>
    rw [eq_encodeChar_of_front h, encode_cons, List.length_append, List.length_append]
    omega
  | case3 b rest width behind h _ ih =>
    obtain ⟨faulty, hf, hlen⟩ := exists_of_front_eq_invalid h
    rw [hf, encode_cons, List.length_append, List.length_append, length_encode_replacement]
    omega
  | case4 b rest h =>
    have hlen := length_le_of_front_eq_incomplete h
    rw [encode_cons, List.length_append, length_encode_replacement]
    simp only [List.length_cons]
    omega

theorem decodeLossy_of_front_char {b : UInt8} {rest behind : Bytes} {c : Char}
    (h : front b rest = .char c behind) : decodeLossy (b :: rest) = c :: decodeLossy behind := by
  rw [decodeLossy]
  split
  · rename_i hf
    cases hf.symm.trans h
    rfl
  all_goals
    rename_i hf
    cases hf.symm.trans h

theorem decodeLossy_of_front_incomplete {b : UInt8} {rest : Bytes}
    (h : front b rest = .incomplete) : decodeLossy (b :: rest) = [replacement] := by
  rw [decodeLossy]
  split
  all_goals
    rename_i hf
    cases hf.symm.trans h
  rfl

@[simp] theorem decodeLossy_encode (t : Text) : decodeLossy (encode t) = t := by
  induction t with
  | nil => rw [encode_nil, decodeLossy]
  | cons c t ih =>
    obtain ⟨b, rest, hc⟩ := exists_encodeChar_eq_cons c
    have hf : front b (rest ++ encode t) = .char c (encode t) :=
      front_of_eq_encodeChar (by rw [hc]; rfl)
    rw [encode_cons, hc, List.cons_append, decodeLossy_of_front_char hf, ih]

/-- Lossy reading keeps a byte string exactly when this is UTF-8. -/
theorem encode_decodeLossy_eq_iff {bytes : Bytes} :
    encode (decodeLossy bytes) = bytes ↔ ∃ t, encode t = bytes := by
  constructor
  · exact fun h => ⟨_, h⟩
  · rintro ⟨t, rfl⟩
    rw [decodeLossy_encode]

/-- Bytes that are not UTF-8 are read with a replacement character. -/
theorem replacement_mem_decodeLossy {bytes : Bytes} (h : ¬∃ t, encode t = bytes) :
    replacement ∈ decodeLossy bytes := by
  fun_induction decodeLossy bytes with
  | case1 => exact absurd ⟨[], rfl⟩ h
  | case2 b rest c behind hf _ ih =>
    -- the character is spelled by the bytes before the rest, so the fault is in the rest
    have hrest : ¬∃ t, encode t = behind := by
      rintro ⟨t, rfl⟩
      exact h ⟨c :: t, (eq_encodeChar_of_front hf).symm⟩
    exact List.mem_cons_of_mem c (ih hrest)
  | case3 => exact List.mem_cons_self
  | case4 => exact List.mem_cons_self

end Subword.Utf8
