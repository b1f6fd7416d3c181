import Subword.Proofs.Except
import Subword.Text.Utf8

/-!
Reading UTF-8 undoes writing it. Main statement: bytes decode to a text exactly when they are the bytes of
that text.
-/
namespace Subword.Utf8

private theorem toNat_ofNat_val {n : Nat} (h : n.isValidChar) : (Char.ofNat n).val.toNat = n := by
  rw [Char.ofNat, dif_pos h]
  rfl

theorem encodeChar_one {n : Nat} (h : n < 0x80) :
    String.utf8EncodeChar (Char.ofNat n) = [UInt8.ofNat n] := by
  have hn : (Char.ofNat n).val.toNat = n := toNat_ofNat_val (by simp [Nat.isValidChar]; omega)
  unfold String.utf8EncodeChar
  simp only [hn]
  rw [if_pos (by omega)]

theorem encodeChar_two {n : Nat} (hl : 0x80 ≤ n) (hu : n < 0x800) :
    String.utf8EncodeChar (Char.ofNat n) =
      [UInt8.ofNat (n / 64 + 192), UInt8.ofNat (n % 64 + 128)] := by
  have hn : (Char.ofNat n).val.toNat = n := toNat_ofNat_val (by simp [Nat.isValidChar]; omega)
  unfold String.utf8EncodeChar
  simp only [hn]
  rw [if_neg (by omega), if_pos (by omega), Nat.mod_eq_of_lt (by omega : n / 64 < 32)]

theorem encodeChar_three {n : Nat} (hl : 0x800 ≤ n) (hu : n < 0x10000)
    (hs : n < 0xD800 ∨ 0xDFFF < n) :
    String.utf8EncodeChar (Char.ofNat n) =
      [UInt8.ofNat (n / 4096 + 224), UInt8.ofNat (n / 64 % 64 + 128), UInt8.ofNat (n % 64 + 128)] := by
  have hn : (Char.ofNat n).val.toNat = n := toNat_ofNat_val (by simp [Nat.isValidChar]; omega)
  unfold String.utf8EncodeChar
  simp only [hn]
  rw [if_neg (by omega), if_neg (by omega), if_pos (by omega),
    Nat.mod_eq_of_lt (by omega : n / 4096 < 16)]

theorem encodeChar_four {n : Nat} (hl : 0x10000 ≤ n) (hu : n < 0x110000) :
    String.utf8EncodeChar (Char.ofNat n) =
      [UInt8.ofNat (n / 262144 + 240), UInt8.ofNat (n / 4096 % 64 + 128),
        UInt8.ofNat (n / 64 % 64 + 128), UInt8.ofNat (n % 64 + 128)] := by
  have hn : (Char.ofNat n).val.toNat = n := toNat_ofNat_val (by simp [Nat.isValidChar]; omega)
  unfold String.utf8EncodeChar
  simp only [hn]
  rw [if_neg (by omega), if_neg (by omega), if_neg (by omega),
    Nat.mod_eq_of_lt (by omega : n / 262144 < 8)]

/-- A lead byte carries its value above a mark. The bounds of the byte behind it are narrower where a
longer form than needed, a surrogate or a number beyond the last character would begin. -/
theorem Lead.ofByte?_bounds {b : UInt8} {l : Lead} (h : Lead.ofByte? b = some l) :
    (l.more = 1 ∧ b.toNat = l.value + 192 ∧ 2 ≤ l.value ∧ l.value < 32 ∧
      l.low.toNat = 0x80 ∧ l.high.toNat = 0xBF) ∨
    (l.more = 2 ∧ b.toNat = l.value + 224 ∧ l.value < 16 ∧
      (l.low.toNat = 0xA0 ∧ l.value = 0 ∨ l.low.toNat = 0x80 ∧ l.value ≠ 0) ∧
      (l.high.toNat = 0x9F ∧ l.value = 13 ∨ l.high.toNat = 0xBF ∧ l.value ≠ 13)) ∨
    (l.more = 3 ∧ b.toNat = l.value + 240 ∧ l.value < 5 ∧
      (l.low.toNat = 0x90 ∧ l.value = 0 ∨ l.low.toNat = 0x80 ∧ l.value ≠ 0) ∧
      (l.high.toNat = 0x8F ∧ l.value = 4 ∨ l.high.toNat = 0xBF ∧ l.value ≠ 4)) := by
  unfold Lead.ofByte? at h
  simp only [UInt8.lt_iff_toNat_lt, ← UInt8.toNat_inj, UInt8.reduceToNat] at h
  repeat' split at h
  all_goals cases h
  all_goals simp
  all_goals omega

theorem Lead.ofByte?_eq_none {b : UInt8} (h : Lead.ofByte? b = none) :
    b.toNat < 0xC2 ∨ 0xF4 < b.toNat := by
  unfold Lead.ofByte? at h
  simp only [UInt8.lt_iff_toNat_lt, ← UInt8.toNat_inj, UInt8.reduceToNat] at h
  repeat' split at h
  all_goals first | omega | cases h

private theorem exists_of_continuation_eq_char {owed : Nat} {low high : UInt8} {value width : Nat}
    {bytes behind : Bytes} {c : Char}
    (h : continuation (owed + 1) low high value width bytes = .char c behind) :
    ∃ b rest, bytes = b :: rest ∧ low.toNat ≤ b.toNat ∧ b.toNat ≤ high.toNat ∧
      continuation owed 0x80 0xBF (value * 64 + b.toNat % 64) (width + 1) rest = .char c behind := by
  cases bytes with
  | nil => cases h
  | cons b rest =>
    simp only [continuation, UInt8.le_iff_toNat_le] at h
    split at h
    · rename_i hb
      exact ⟨b, rest, rfl, hb.1, hb.2, h⟩
    · cases h

private theorem ofNat_eq_of_toNat {b : UInt8} {n : Nat} (h : n = b.toNat) : UInt8.ofNat n = b := by
  rw [h, UInt8.ofNat_toNat]

/-- A character that is read at the front is spelled by the bytes before the rest. -/
theorem eq_encodeChar_of_front {b : UInt8} {rest behind : Bytes} {c : Char}
    (h : front b rest = .char c behind) : b :: rest = String.utf8EncodeChar c ++ behind := by
  unfold front at h
  split at h
  · rename_i hb
    rw [UInt8.lt_iff_toNat_lt] at hb
    cases h
    rw [encodeChar_one hb, UInt8.ofNat_toNat]
    rfl
  split at h
  · cases h
  rename_i l hl
  rcases Lead.ofByte?_bounds hl with ⟨hm, hb, hv, hv', hlo, hhi⟩ | ⟨hm, hb, hv, hlo, hhi⟩ |
    ⟨hm, hb, hv, hlo, hhi⟩
  all_goals
    rw [hm] at h
    obtain ⟨x, r, rfl, hx, hx', h⟩ := exists_of_continuation_eq_char h
  · cases h
    rw [encodeChar_two (by omega) (by omega), ofNat_eq_of_toNat (b := b) (by omega),
      ofNat_eq_of_toNat (b := x) (by omega)]
    rfl
  · obtain ⟨y, s, rfl, hy, hy', h⟩ := exists_of_continuation_eq_char h
    simp only [UInt8.reduceToNat] at hy hy'
    cases h
    rw [encodeChar_three (by omega) (by omega) (by omega), ofNat_eq_of_toNat (b := b) (by omega),
      ofNat_eq_of_toNat (b := x) (by omega), ofNat_eq_of_toNat (b := y) (by omega)]
    rfl
  · obtain ⟨y, s, rfl, hy, hy', h⟩ := exists_of_continuation_eq_char h
    obtain ⟨z, u, rfl, hz, hz', h⟩ := exists_of_continuation_eq_char h
    simp only [UInt8.reduceToNat] at hy hy' hz hz'
    cases h
    rw [encodeChar_four (by omega) (by omega), ofNat_eq_of_toNat (b := b) (by omega),
      ofNat_eq_of_toNat (b := x) (by omega), ofNat_eq_of_toNat (b := y) (by omega),
      ofNat_eq_of_toNat (b := z) (by omega)]
    rfl

private theorem toNat_ofNat {n : Nat} (h : n < 256) : (UInt8.ofNat n).toNat = n :=
  UInt8.toNat_ofNat_of_lt' h

private theorem front_of_lead {n : Nat} (rest : Bytes) (hl : 0xC2 ≤ n) (hu : n ≤ 0xF4) :
    ∃ l, Lead.ofByte? (UInt8.ofNat n) = some l ∧
      front (UInt8.ofNat n) rest = continuation l.more l.low l.high l.value 1 rest := by
  have hn : (UInt8.ofNat n).toNat = n := toNat_ofNat (by omega)
  cases h : Lead.ofByte? (UInt8.ofNat n) with
  | none =>
    have := Lead.ofByte?_eq_none h
    omega
  | some l =>
    have hb : ¬ UInt8.ofNat n < 0x80 := by
      simp only [UInt8.lt_iff_toNat_lt, UInt8.reduceToNat]
      omega
    refine ⟨l, rfl, ?_⟩
    unfold front
    rw [if_neg hb]
    simp only [h]

private theorem continuation_cons {owed n : Nat} {low high : UInt8} {value width : Nat} {rest : Bytes}
    (hn : n < 64) (hl : low.toNat ≤ n + 128) (hu : n + 128 ≤ high.toNat) :
    continuation (owed + 1) low high value width (UInt8.ofNat (n + 128) :: rest) =
      continuation owed 0x80 0xBF (value * 64 + n) (width + 1) rest := by
  have hb : (UInt8.ofNat (n + 128)).toNat = n + 128 := toNat_ofNat (by omega)
  rw [continuation, if_pos (by simp only [UInt8.le_iff_toNat_le, hb]; exact ⟨hl, hu⟩), hb]
  congr 2
  omega

/-- The spelling of a character is read as this character, whatever stands behind it. -/
theorem front_of_eq_encodeChar {b : UInt8} {rest behind : Bytes} {c : Char}
    (h : b :: rest = String.utf8EncodeChar c ++ behind) : front b rest = .char c behind := by
  obtain ⟨n, rfl, hn⟩ : ∃ n, Char.ofNat n = c ∧ n.isValidChar :=
    ⟨c.toNat, Char.ofNat_toNat c, c.valid⟩
  simp only [Nat.isValidChar] at hn
  by_cases h1 : n < 0x80
  · have hb : (UInt8.ofNat n).toNat = n := toNat_ofNat (by omega)
    rw [encodeChar_one h1] at h
    cases h
    unfold front
    rw [if_pos (by rw [UInt8.lt_iff_toNat_lt, hb]; exact h1), hb]
    rfl
  by_cases h2 : n < 0x800
  · have hb : (UInt8.ofNat (n / 64 + 192)).toNat = n / 64 + 192 := toNat_ofNat (by omega)
    rw [encodeChar_two (by omega) h2] at h
    cases h
    obtain ⟨l, hl, hf⟩ := front_of_lead ([UInt8.ofNat (n % 64 + 128)] ++ behind)
      (n := n / 64 + 192) (by omega) (by omega)
    have hv := Lead.ofByte?_bounds hl
    refine hf.trans ?_
    rw [show l.more = 1 by omega, List.cons_append, continuation_cons (by omega) (by omega) (by omega),
      continuation, show l.value * 64 + n % 64 = n by omega]
    rfl
  by_cases h3 : n < 0x10000
  · have hb : (UInt8.ofNat (n / 4096 + 224)).toNat = n / 4096 + 224 := toNat_ofNat (by omega)
    rw [encodeChar_three (by omega) h3 (by omega)] at h
    cases h
    obtain ⟨l, hl, hf⟩ := front_of_lead
      ([UInt8.ofNat (n / 64 % 64 + 128), UInt8.ofNat (n % 64 + 128)] ++ behind)
      (n := n / 4096 + 224) (by omega) (by omega)
    have hv := Lead.ofByte?_bounds hl
    refine hf.trans ?_
    rw [show l.more = 2 by omega, List.cons_append, continuation_cons (by omega) (by omega) (by omega),
      List.cons_append, continuation_cons (by omega) (by simp) (by simp; omega), continuation,
      show (l.value * 64 + n / 64 % 64) * 64 + n % 64 = n by omega]
    rfl
  · have hb : (UInt8.ofNat (n / 262144 + 240)).toNat = n / 262144 + 240 := toNat_ofNat (by omega)
    rw [encodeChar_four (by omega) (by omega)] at h
    cases h
    obtain ⟨l, hl, hf⟩ := front_of_lead
      ([UInt8.ofNat (n / 4096 % 64 + 128), UInt8.ofNat (n / 64 % 64 + 128),
        UInt8.ofNat (n % 64 + 128)] ++ behind) (n := n / 262144 + 240) (by omega) (by omega)
    have hv := Lead.ofByte?_bounds hl
    refine hf.trans ?_
    rw [show l.more = 3 by omega, List.cons_append, continuation_cons (by omega) (by omega) (by omega),
      List.cons_append, continuation_cons (by omega) (by simp) (by simp; omega),
      List.cons_append, continuation_cons (by omega) (by simp) (by simp; omega), continuation,
      show ((l.value * 64 + n / 4096 % 64) * 64 + n / 64 % 64) * 64 + n % 64 = n by omega]
    rfl

theorem encode_flatten (ts : List Text) : encode ts.flatten = ts.flatMap encode := by
  induction ts with
  | nil => rfl
  | cons t ts ih => rw [List.flatten_cons, encode_append, ih, List.flatMap_cons]

theorem exists_encodeChar_eq_cons (c : Char) : ∃ b rest, String.utf8EncodeChar c = b :: rest :=
  List.exists_cons_of_ne_nil String.utf8EncodeChar_ne_nil

theorem decodeFrom_of_front_char {index : Nat} {b : UInt8} {rest behind : Bytes} {c : Char}
    (h : front b rest = .char c behind) :
    decodeFrom index (b :: rest) =
      (decodeFrom (index + (rest.length + 1 - behind.length)) behind).map (c :: ·) := by
  rw [decodeFrom]
  split
  · rename_i hf
    cases hf.symm.trans h
    rfl
  all_goals
    rename_i hf
    cases hf.symm.trans h

theorem decodeFrom_encode (index : Nat) (t : Text) : decodeFrom index (encode t) = .ok t := by
  induction t generalizing index with
  | nil => rw [encode_nil, decodeFrom]
  | cons c t ih =>
    obtain ⟨b, rest, hc⟩ := exists_encodeChar_eq_cons c
    have hf : front b (rest ++ encode t) = .char c (encode t) :=
      front_of_eq_encodeChar (by rw [hc]; rfl)
    rw [encode_cons, hc, List.cons_append, decodeFrom_of_front_char hf, ih]
    rfl

theorem encode_of_decodeFrom {index : Nat} {bytes : Bytes} {t : Text}
    (h : decodeFrom index bytes = .ok t) : encode t = bytes := by
  fun_induction decodeFrom index bytes generalizing t with
  | case1 => cases h; rfl
  | case2 index b rest c behind hf _ ih =>
    obtain ⟨u, hu, rfl⟩ := Except.map_eq_ok_iff.mp h
    rw [encode_cons, ih hu, eq_encodeChar_of_front hf]
  | case3 => cases h
  | case4 => cases h

/-- Bytes decode to a text exactly when they are the bytes of that text. -/
theorem decode_eq_ok_iff {bytes : Bytes} {t : Text} : decode bytes = .ok t ↔ encode t = bytes := by
  constructor
  · exact encode_of_decodeFrom
  · rintro rfl
    exact decodeFrom_encode 0 t

@[simp] theorem decode_encode (t : Text) : decode (encode t) = .ok t := decode_eq_ok_iff.mpr rfl

theorem exists_decode_eq_error {bytes : Bytes} (h : ¬∃ t, encode t = bytes) :
    ∃ fault, decode bytes = .error fault := by
  cases hd : decode bytes with
  | ok t => exact absurd ⟨t, decode_eq_ok_iff.mp hd⟩ h
  | error fault => exact ⟨fault, rfl⟩

theorem encode_injective {s t : Text} (h : encode s = encode t) : s = t := by
  have hs := decode_encode s
  rw [h, decode_encode] at hs
  exact (Except.ok.inj hs).symm

end Subword.Utf8
