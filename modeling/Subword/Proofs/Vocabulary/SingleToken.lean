import Subword.Proofs.Text.Numeral
import Subword.Proofs.Text.Search
import Subword.Proofs.Vocabulary.TokenStrings

/-!
One token decoded as a text against one token decoded by itself. The wording of a fault tells apart tokens that are not
known and tokens that cut a character, whichever token it names and wherever the bytes go wrong. Main statement:
decoding a token by itself fails only for an unknown token, with the failure that it has as a text.
-/
namespace Subword.Vocabulary

variable {v : Vocabulary} {id : TokenId} {bytes : Bytes}

theorem spellAll_singleton (h : v.bytes? id = some bytes) : v.spellAll [id] = .ok bytes := by
  have hspelling : [id].flatMap v.spelling = bytes := by
    rw [List.flatMap_singleton, spelling_eq h]
  have hknown : ∀ i ∈ [id], (v.bytes? i).isSome := by
    intro i hi
    rw [List.mem_singleton.mp hi, h]
    rfl
  rw [spellAll_of_known hknown, hspelling]

theorem decode_singleton (h : v.bytes? id = some bytes) :
    v.decode [id] = (Utf8.decode bytes).mapError .notUtf8 := by
  unfold decode
  rw [spellAll_singleton h]

theorem decode_singleton_of_unknown (h : v.bytes? id = none) :
    v.decode [id] = .error (.unknownToken id) := by
  unfold decode spellAll spell
  rw [h]
  rfl

theorem decodeOne_of_unknown (h : v.bytes? id = none) : v.decodeOne id = .error (.unknownToken id) := by
  unfold decodeOne spell
  rw [h]
  rfl

/-- The wording names UTF-8 exactly if the bytes are the fault, and not for the number of any token. -/
theorem DecodeFault.occurs_message_iff (fault : DecodeFault) :
    Text.occurs "UTF-8".toList fault.message = true ↔ ∃ f, fault = .notUtf8 f := by
  rw [Text.occurs_iff (by decide)]
  cases fault with
  | unknownToken id =>
    have hletter : 'U' ∉ (DecodeFault.unknownToken id).message := by
      intro hmem
      rcases List.mem_append.mp hmem with hwords | hnumber
      · exact absurd hwords (by decide)
      · exact absurd (Text.isDigit_of_mem_decimal 'U' hnumber) (by decide)
    constructor
    · intro h
      exact absurd (h.subset List.mem_cons_self) hletter
    · rintro ⟨f, hf⟩
      cases hf
  | notUtf8 f =>
    have hwords : "UTF-8".toList <:+: "Unable to decode into a valid UTF-8 string: ".toList := by decide
    have hmessage : "UTF-8".toList <:+: (DecodeFault.notUtf8 f).message :=
      hwords.trans (List.prefix_append _ _).isInfix
    exact ⟨fun _ => ⟨f, rfl⟩, fun _ => hmessage⟩

end Subword.Vocabulary

namespace Subword.Provider

/-- Decodes a token as a text and, where that fails, goes by the wording of the fault: if it names UTF-8, the bytes of the
token are looked up and read lossily, and else the failure stays. Nothing comes of looking up an unknown token. -/
def decodeOneByWording? (v : Vocabulary) (id : TokenId) : Option (Except EncodingError Text) :=
  match v.decode [id] with
  | .ok t => some (.ok t)
  | .error fault =>
    if Text.occurs "UTF-8".toList fault.message then
      (v.bytes? id).map fun bytes => .ok (Utf8.decodeLossy bytes)
    else some (.error (.decode fault.message))

variable {v : Vocabulary} {id : TokenId} {bytes : Bytes} {fault : Utf8.Fault} {s : Text}

theorem decode_singleton_eq_ok_iff (e : Encoding) (h : v.bytes? id = some bytes) :
    (ofVocabulary e v).decode [id] = .ok s ↔ Utf8.encode s = bytes := by
  unfold ofVocabulary
  simp only [Vocabulary.decode_singleton h, Except.mapError_eq_ok_iff]
  exact Utf8.decode_eq_ok_iff

theorem decode_singleton_of_fault (e : Encoding) (h : v.bytes? id = some bytes)
    (hf : Utf8.decode bytes = .error fault) : (ofVocabulary e v).decode [id] =
      .error (.decode (Vocabulary.DecodeFault.notUtf8 fault).message) := by
  have hdecode : v.decode [id] = .error (.notUtf8 fault) := by
    rw [Vocabulary.decode_singleton h, hf]
    rfl
  unfold ofVocabulary
  simp only [hdecode]
  rfl

theorem decodeOne_of_bytes (e : Encoding) (h : v.bytes? id = some bytes) :
    (ofVocabulary e v).decodeOne id = .ok (Utf8.decodeLossy bytes) := by
  have hknown : (v.bytes? id).isSome := by
    rw [h]
    rfl
  have hone := Vocabulary.decodeOne_of_known hknown
  rw [Vocabulary.spelling_eq h] at hone
  exact Except.mapError_eq_ok_iff.mpr hone

/-- A token that is not known fails alike as a text and by itself. -/
theorem decode_singleton_of_unknown (e : Encoding) (h : v.bytes? id = none) :
    (ofVocabulary e v).decode [id] =
        .error (.decode (Vocabulary.DecodeFault.unknownToken id).message) ∧
      (ofVocabulary e v).decodeOne id = (ofVocabulary e v).decode [id] := by
  unfold ofVocabulary
  simp only [Vocabulary.decode_singleton_of_unknown h, Vocabulary.decodeOne_of_unknown h]
  exact ⟨rfl, trivial⟩

/-- Going by the wording always comes to an answer, the one that the bytes of the token give. -/
theorem decodeOneByWording?_eq (e : Encoding) (v : Vocabulary) (id : TokenId) :
    decodeOneByWording? v id = some ((ofVocabulary e v).decodeOne id) := by
  unfold decodeOneByWording?
  cases h : v.bytes? id with
  | none =>
    have hunnamed : ¬Text.occurs "UTF-8".toList (Vocabulary.DecodeFault.unknownToken id).message := by
      rw [Vocabulary.DecodeFault.occurs_message_iff]
      rintro ⟨f, hf⟩
      cases hf
    obtain ⟨htext, hone⟩ := decode_singleton_of_unknown e h
    rw [Vocabulary.decode_singleton_of_unknown h, hone, htext]
    exact if_neg hunnamed
  | some bytes =>
    rw [decodeOne_of_bytes e h, Vocabulary.decode_singleton h]
    cases hd : Utf8.decode bytes with
    | ok t =>
      obtain rfl := Utf8.decode_eq_ok_iff.mp hd
      rw [Utf8.decodeLossy_encode]
      rfl
    | error f =>
      have hnamed : Text.occurs "UTF-8".toList (Vocabulary.DecodeFault.notUtf8 f).message :=
        (Vocabulary.DecodeFault.occurs_message_iff _).mpr ⟨f, rfl⟩
      exact if_pos hnamed

/-- Decoding a token by itself gives its text if it has one, and else what lossy reading makes of its bytes. Only an
unknown token fails, as it does when it is decoded as a text; going by the wording of the failure comes to the same. -/
theorem decodeOne_agrees (e : Encoding) (v : Vocabulary) (id : TokenId) :
    let p := ofVocabulary e v
    (∀ s, p.decode [id] = .ok s → p.decodeOne id = .ok s) ∧
    (∀ bytes, v.bytes? id = some bytes → (¬∃ t, Utf8.encode t = bytes) →
      (∃ fault, Utf8.decode bytes = .error fault ∧ p.decode [id] =
        .error (.decode ("Unable to decode into a valid UTF-8 string: ".toList ++ fault.message))) ∧
      p.decodeOne id = .ok (Utf8.decodeLossy bytes) ∧
      Utf8.replacement ∈ Utf8.decodeLossy bytes) ∧
    (v.bytes? id = none →
      p.decode [id] =
        .error (.decode ("Invalid token for decoding: ".toList ++ Text.decimal id.toNat)) ∧
      p.decodeOne id = p.decode [id]) ∧
    ((∃ failure, p.decodeOne id = .error failure) ↔ v.bytes? id = none) ∧
    decodeOneByWording? v id = some (p.decodeOne id) := by
  intro p
  refine ⟨?_, ?_, decode_singleton_of_unknown e, ?_, decodeOneByWording?_eq e v id⟩
  · intro s hs
    cases h : v.bytes? id with
    | none =>
      rw [(decode_singleton_of_unknown e h).1] at hs
      cases hs
    | some bytes =>
      obtain rfl := (decode_singleton_eq_ok_iff e h).mp hs
      have hone := decodeOne_of_bytes e h
      rw [Utf8.decodeLossy_encode] at hone
      exact hone
  · intro bytes h hcut
    obtain ⟨fault, hf⟩ := Utf8.exists_decode_eq_error hcut
    exact ⟨⟨fault, hf, decode_singleton_of_fault e h hf⟩, decodeOne_of_bytes e h,
      Utf8.replacement_mem_decodeLossy hcut⟩
  · constructor
    · rintro ⟨failure, hfailure⟩
      cases h : v.bytes? id with
      | none => rfl
      | some bytes =>
        rw [decodeOne_of_bytes e h] at hfailure
        cases hfailure
    · intro h
      obtain ⟨htext, hone⟩ := decode_singleton_of_unknown e h
      exact ⟨_, hone.trans htext⟩

/-- Of the sample, a special token is a text, the first half of the crab is not, and 7 is not known. -/
theorem decodeOne_agrees_crab :
    let p := ofVocabulary .cl100kBase .crab
    (p.decode [100257] = .ok "<|endoftext|>".toList ∧ p.decodeOne 100257 = .ok "<|endoftext|>".toList) ∧
    ((∃ failure, p.decode [9468] = .error failure) ∧
      p.decodeOne 9468 = .ok (Utf8.decodeLossy [0xF0, 0x9F]) ∧
      Utf8.replacement ∈ Utf8.decodeLossy [0xF0, 0x9F]) ∧
    p.decode [7] = .error (.decode "Invalid token for decoding: 7".toList) ∧
      p.decodeOne 7 = p.decode [7] := by
  have hspecial : Vocabulary.crab.bytes? 100257 = some (Utf8.encode "<|endoftext|>".toList) := by
    rw [Vocabulary.crab_bytes?]
    decide
  have hhalf : Vocabulary.crab.bytes? 9468 = some [0xF0, 0x9F] := by
    rw [Vocabulary.crab_bytes?]
    decide
  have hunknown : Vocabulary.crab.bytes? 7 = none := by
    rw [Vocabulary.crab_bytes?]
    decide
  have hcut : ¬∃ t, Utf8.encode t = [0xF0, 0x9F] := by
    have hfront : Utf8.front 0xF0 [0x9F] = .incomplete := rfl
    rw [← Utf8.encode_decodeLossy_eq_iff, Utf8.decodeLossy_of_front_incomplete hfront]
    decide
  have htext := (decode_singleton_eq_ok_iff .cl100kBase hspecial).mpr rfl
  obtain ⟨⟨fault, -, hfails⟩, hlossy⟩ := (decodeOne_agrees .cl100kBase .crab 9468).2.1 _ hhalf hcut
  refine ⟨⟨htext, (decodeOne_agrees .cl100kBase .crab 100257).1 _ htext⟩, ⟨⟨_, hfails⟩, hlossy⟩, ?_⟩
  exact (decodeOne_agrees .cl100kBase .crab 7).2.2.1 hunknown

end Subword.Provider
