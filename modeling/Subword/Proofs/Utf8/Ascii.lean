import Subword.Proofs.Utf8.Decoding
import Subword.Text.Lines

/-!
Characters below 0x80 in UTF-8. Such a character is a byte of its own, and this byte is part of no other
character, so that it is found in the bytes of a text exactly where the character is found in the text.
-/
namespace Subword.Utf8

variable {c : Char} {t : Text}

theorem encodeChar_ascii (hc : c.toNat < 0x80) : String.utf8EncodeChar c = [UInt8.ofNat c.toNat] := by
  have hone := encodeChar_one hc
  rwa [Char.ofNat_toNat] at hone

/-- Every byte of a longer spelling has its highest bit set. -/
theorem le_toNat_of_mem_encodeChar (hc : 0x80 ≤ c.toNat) {b : UInt8}
    (hb : b ∈ String.utf8EncodeChar c) : 0x80 ≤ b.toNat := by
  obtain ⟨n, rfl, hn⟩ : ∃ n, Char.ofNat n = c ∧ n.isValidChar :=
    ⟨c.toNat, Char.ofNat_toNat c, c.valid⟩
  have hvalue : (Char.ofNat n).toNat = n := by
    rw [Char.ofNat, dif_pos hn]
    rfl
  rw [hvalue] at hc
  simp only [Nat.isValidChar] at hn
  have hbyte : ∀ m, 0x80 ≤ m → m < 256 → 0x80 ≤ (UInt8.ofNat m).toNat := by
    intro m hlow hhigh
    rwa [UInt8.toNat_ofNat_of_lt' hhigh]
  by_cases h2 : n < 0x800
  · rw [encodeChar_two hc h2] at hb
    rcases List.mem_pair.mp hb with rfl | rfl
    · apply hbyte <;> omega
    · apply hbyte <;> omega
  by_cases h3 : n < 0x10000
  · rw [encodeChar_three (by omega) h3 (by omega)] at hb
    simp only [List.mem_cons, List.not_mem_nil, or_false] at hb
    rcases hb with rfl | rfl | rfl <;> apply hbyte <;> omega
  · rw [encodeChar_four (by omega) (by omega)] at hb
    simp only [List.mem_cons, List.not_mem_nil, or_false] at hb
    rcases hb with rfl | rfl | rfl | rfl <;> apply hbyte <;> omega

theorem ascii_mem_encodeChar_iff (hc : c.toNat < 0x80) (d : Char) :
    UInt8.ofNat c.toNat ∈ String.utf8EncodeChar d ↔ c = d := by
  have hbyte : ∀ n, n < 256 → (UInt8.ofNat n).toNat = n := fun n h => UInt8.toNat_ofNat_of_lt' h
  have hbc := hbyte c.toNat (by omega)
  by_cases hd : d.toNat < 0x80
  · rw [encodeChar_ascii hd, List.mem_singleton, ← UInt8.toNat_inj, hbc, hbyte d.toNat (by omega)]
    exact Char.toNat_inj
  · constructor
    · intro hmem
      have hhigh := le_toNat_of_mem_encodeChar (by omega) hmem
      omega
    · rintro rfl
      exact absurd hc hd

theorem ascii_mem_encode_iff (hc : c.toNat < 0x80) : UInt8.ofNat c.toNat ∈ encode t ↔ c ∈ t := by
  unfold encode
  rw [List.mem_flatMap]
  constructor
  · rintro ⟨d, hd, hmem⟩
    rwa [(ascii_mem_encodeChar_iff hc d).mp hmem]
  · intro hmem
    exact ⟨c, hmem, (ascii_mem_encodeChar_iff hc c).mpr rfl⟩

theorem getLast?_encode_eq_ascii_iff (hc : c.toNat < 0x80) :
    (encode t).getLast? = some (UInt8.ofNat c.toNat) ↔ t.getLast? = some c := by
  rcases List.eq_nil_or_concat' t with rfl | ⟨s, d, rfl⟩
  · simp
  have hlast : (encode (s ++ [d])).getLast? = (String.utf8EncodeChar d).getLast? := by
    rw [encode_append, encode_cons, encode_nil, List.append_nil]
    exact List.getLast?_append_of_ne_nil _ String.utf8EncodeChar_ne_nil
  rw [hlast, List.getLast?_concat]
  constructor
  · intro h
    have heq := (ascii_mem_encodeChar_iff hc d).mp (List.mem_of_getLast? h)
    rw [heq]
  · intro h
    cases h
    rw [encodeChar_ascii hc]
    rfl

theorem dropLastIf_encode (hc : c.toNat < 0x80) (t : Text) :
    dropLastIf (UInt8.ofNat c.toNat) (encode t) = encode (dropLastIf c t) := by
  unfold dropLastIf
  by_cases hlast : t.getLast? = some c
  · have ht : encode t = encode t.dropLast ++ [UInt8.ofNat c.toNat] := by
      have hjoin := List.dropLast_append_getLast? c hlast
      rw [← encodeChar_ascii hc]
      conv_lhs => rw [← hjoin]
      simp
    rw [if_pos hlast, if_pos ((getLast?_encode_eq_ascii_iff hc).mpr hlast), ht, List.dropLast_concat]
  · rw [if_neg hlast, if_neg (mt (getLast?_encode_eq_ascii_iff hc).mp hlast)]

end Subword.Utf8
