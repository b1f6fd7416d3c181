import Mathlib.Algebra.Order.BigOperators.Group.List
import Mathlib.Algebra.Order.Group.Nat
import Subword.Proofs.Except
import Subword.Proofs.Utf8.Replacement
import Subword.Proofs.Vocabulary.RoundTrip
import Subword.Tokenization

/-!
Tokens decoded one by one against tokens decoded together. Main statement: the strings of the tokens spell
the text of the tokens exactly when each token is a text by itself. A cut character makes the strings
longer than the text, and no other token makes them shorter again.
-/
namespace Subword.Vocabulary

/-- The bytes of the token are the UTF-8 of a text: it cuts no character. -/
def Whole (v : Vocabulary) (id : TokenId) : Prop :=
  ∃ t, v.bytes? id = some (Utf8.encode t)

variable {v : Vocabulary} {ids : List TokenId}

theorem whole_iff {id : TokenId} (known : (v.bytes? id).isSome) :
    v.Whole id ↔ Utf8.encode (Utf8.decodeLossy (v.spelling id)) = v.spelling id := by
  obtain ⟨a, ha⟩ := Option.isSome_iff_exists.mp known
  rw [Utf8.encode_decodeLossy_eq_iff, spelling_eq ha, Whole, ha]
  constructor
  · rintro ⟨t, h⟩
    exact ⟨t, (Option.some.inj h).symm⟩
  · rintro ⟨t, rfl⟩
    exact ⟨t, rfl⟩

theorem decode_eq_ok_iff (known : ∀ id ∈ ids, (v.bytes? id).isSome) {s : Text} :
    v.decode ids = .ok s ↔ Utf8.encode s = ids.flatMap v.spelling := by
  unfold decode
  rw [spellAll_of_known known]
  exact Except.mapError_eq_ok_iff.trans Utf8.decode_eq_ok_iff

theorem decodeOne_of_known {id : TokenId} (known : (v.bytes? id).isSome) :
    v.decodeOne id = .ok (Utf8.decodeLossy (v.spelling id)) := by
  obtain ⟨a, ha⟩ := Option.isSome_iff_exists.mp known
  rw [decodeOne, spell, ha, spelling_eq ha]
  rfl

theorem known_of_decodeOne {id : TokenId} {s : Text} (h : v.decodeOne id = .ok s) :
    (v.bytes? id).isSome := by
  obtain ⟨a, ha, -⟩ := Except.map_eq_ok_iff.mp h
  unfold spell at ha
  split at ha
  · rename_i hb
    rw [hb]
    rfl
  · cases ha

private theorem eq_of_flatMap_eq {α β : Type} {f g : α → List β} {xs : List α}
    (hle : ∀ x ∈ xs, (f x).length ≤ (g x).length) (h : xs.flatMap f = xs.flatMap g) :
    ∀ x ∈ xs, f x = g x := by
  induction xs with
  | nil => simp
  | cons x xs ih =>
    obtain ⟨hx, hxs⟩ := List.forall_mem_cons.mp hle
    rw [List.flatMap_cons, List.flatMap_cons] at h
    have htail : (xs.flatMap f).length ≤ (xs.flatMap g).length := by
      rw [List.length_flatMap, List.length_flatMap]
      exact List.sum_le_sum hxs
    have htotal := congrArg List.length h
    rw [List.length_append, List.length_append] at htotal
    -- a longer head on the right would need a shorter tail there
    obtain ⟨head, tail⟩ := List.append_inj h (by omega)
    exact List.forall_mem_cons.mpr ⟨head, ih hxs tail⟩

/-- The strings of known tokens have the bytes of the tokens exactly when no token cuts a character. -/
theorem encode_strings_eq_iff (known : ∀ id ∈ ids, (v.bytes? id).isSome) :
    Utf8.encode (ids.map fun id => Utf8.decodeLossy (v.spelling id)).flatten =
      ids.flatMap v.spelling ↔ ∀ id ∈ ids, v.Whole id := by
  have hstrings : Utf8.encode (ids.map fun id => Utf8.decodeLossy (v.spelling id)).flatten =
      ids.flatMap fun id => Utf8.encode (Utf8.decodeLossy (v.spelling id)) := by
    rw [Utf8.encode_flatten, List.flatMap_map]
  rw [hstrings]
  constructor
  · intro h id hm
    have heach := eq_of_flatMap_eq
      (fun id _ => Utf8.length_le_length_encode_decodeLossy (v.spelling id)) h.symm
    exact (whole_iff (known id hm)).mpr (heach id hm).symm
  · intro h
    exact List.flatMap_congr fun id hm => (whole_iff (known id hm)).mp (h id hm)

end Subword.Vocabulary

namespace Subword.Provider

variable {v : Vocabulary} {ids : List TokenId}

theorem known_of_mapM_decodeOne {e : Encoding} {strings : List Text}
    (h : ids.mapM (ofVocabulary e v).decodeOne = .ok strings) :
    ∀ id ∈ ids, (v.bytes? id).isSome := by
  intro id hm
  obtain ⟨s, hs⟩ := Except.exists_eq_ok_of_mapM h id hm
  exact Vocabulary.known_of_decodeOne (Except.mapError_eq_ok_iff.mp hs)

theorem mapM_decodeOne_of_known (e : Encoding) (known : ∀ id ∈ ids, (v.bytes? id).isSome) :
    ids.mapM (ofVocabulary e v).decodeOne =
      .ok (ids.map fun id => Utf8.decodeLossy (v.spelling id)) := by
  induction ids with
  | nil => rfl
  | cons id ids ih =>
    obtain ⟨hid, hids⟩ := List.forall_mem_cons.mp known
    have hone : (ofVocabulary e v).decodeOne id = .ok (Utf8.decodeLossy (v.spelling id)) :=
      Except.mapError_eq_ok_iff.mpr (Vocabulary.decodeOne_of_known hid)
    rw [List.mapM_cons, hone, ih hids]
    rfl

theorem decode_ofVocabulary_eq_ok_iff {e : Encoding} (known : ∀ id ∈ ids, (v.bytes? id).isSome)
    {s : Text} :
    (ofVocabulary e v).decode ids = .ok s ↔ Utf8.encode s = ids.flatMap v.spelling :=
  Except.mapError_eq_ok_iff.trans (Vocabulary.decode_eq_ok_iff known)

/-- Known tokens decode to the concatenation of their strings exactly when none of them cuts a
character. The strings of a tokenization that decodes to its text therefore spell the text exactly then. -/
theorem decode_eq_flatten_iff (e : Encoding) (v : Vocabulary) :
    (∀ ids : List TokenId, (∀ id ∈ ids, (v.bytes? id).isSome) →
      ((∃ s strings, (ofVocabulary e v).decode ids = .ok s ∧
          ids.mapM (ofVocabulary e v).decodeOne = .ok strings ∧ s = strings.flatten) ↔
        ∀ id ∈ ids, v.Whole id)) ∧
    ∀ t r, Tokenization.build (ofVocabulary e v) t = .ok r →
      (ofVocabulary e v).decode r.tokenIds = .ok t →
      (r.tokenStrings.flatten = t ↔ ∀ id ∈ r.tokenIds, v.Whole id) := by
  constructor
  · intro ids known
    rw [← Vocabulary.encode_strings_eq_iff known]
    have hstrings := mapM_decodeOne_of_known e known
    constructor
    · rintro ⟨s, strings, hs, hone, rfl⟩
      cases hone.symm.trans hstrings
      exact (decode_ofVocabulary_eq_ok_iff known).mp hs
    · intro h
      exact ⟨_, _, (decode_ofVocabulary_eq_ok_iff known).mpr h, hstrings, rfl⟩
  · intro t r hbuild hdecode
    obtain ⟨ids, -, hrest⟩ := Except.bind_eq_ok_iff.mp hbuild
    obtain ⟨strings, hone, hr⟩ := Except.bind_eq_ok_iff.mp hrest
    cases hr
    have known := known_of_mapM_decodeOne hone
    cases hone.symm.trans (mapM_decodeOne_of_known e known)
    have ht := (decode_ofVocabulary_eq_ok_iff known).mp hdecode
    rw [← Vocabulary.encode_strings_eq_iff known, ← ht]
    exact ⟨congrArg Utf8.encode, fun h => Utf8.encode_injective h⟩

/-- Of the sample, a special token is whole and the first half of the crab is not. -/
theorem decode_eq_flatten_iff_crab :
    (∃ s strings, (ofVocabulary .cl100kBase .crab).decode [100257] = .ok s ∧
      [100257].mapM (ofVocabulary .cl100kBase .crab).decodeOne = .ok strings ∧ s = strings.flatten) ∧
    (¬∃ s strings, (ofVocabulary .cl100kBase .crab).decode [9468, 99, 222] = .ok s ∧
      [9468, 99, 222].mapM (ofVocabulary .cl100kBase .crab).decodeOne = .ok strings ∧
        s = strings.flatten) ∧
    ∃ r, Tokenization.build (ofVocabulary .cl100kBase .crab) "🦀".toList = .ok r ∧
      (ofVocabulary .cl100kBase .crab).decode r.tokenIds = .ok "🦀".toList ∧
      r.tokenStrings.flatten ≠ "🦀".toList := by
  have special : Vocabulary.crab.Whole 100257 := ⟨"<|endoftext|>".toList, by
    rw [Vocabulary.crab_bytes?]
    decide⟩
  have half : ¬Vocabulary.crab.Whole 9468 := by
    have hbytes : Vocabulary.crab.bytes? 9468 = some [0xF0, 0x9F] := by
      rw [Vocabulary.crab_bytes?]
      decide
    have hfront : Utf8.front 0xF0 [0x9F] = .incomplete := rfl
    rw [Vocabulary.whole_iff (by rw [hbytes]; rfl), Vocabulary.spelling_eq hbytes,
      Utf8.decodeLossy_of_front_incomplete hfront]
    decide
  -- lists are gone through, not every id there is
  have known : ∀ id ∈ [9468, 99, 222], (Vocabulary.crab.bytes? id).isSome := by
    rw [Vocabulary.crab_bytes?]
    exact List.all_eq_true.mp (by decide)
  have knownSpecial : ∀ id ∈ [100257], (Vocabulary.crab.bytes? id).isSome := by
    rw [Vocabulary.crab_bytes?]
    exact List.all_eq_true.mp (by decide)
  have together : (ofVocabulary .cl100kBase .crab).decode [9468, 99, 222] = .ok "🦀".toList := by
    rw [decode_ofVocabulary_eq_ok_iff known]
    unfold Vocabulary.spelling
    rw [Vocabulary.crab_bytes?]
    decide
  have built : ∃ r, Tokenization.build (ofVocabulary .cl100kBase .crab) "🦀".toList = .ok r ∧
      r.tokenIds = [9468, 99, 222] := by
    rw [Tokenization.build, encode_crab]
    simp only [bind, Except.bind]
    rw [mapM_decodeOne_of_known _ known]
    exact ⟨_, rfl, rfl⟩
  obtain ⟨spells, builds⟩ := decode_eq_flatten_iff .cl100kBase .crab
  obtain ⟨r, hr, hids⟩ := built
  rw [← hids] at together
  refine ⟨?_, ?_, r, hr, together, ?_⟩
  · refine (spells [100257] knownSpecial).mpr ?_
    simpa using special
  · rw [spells [9468, 99, 222] known]
    exact fun h => half (h 9468 (by simp))
  · rw [ne_eq, builds _ r hr together, hids]
    exact fun h => half (h 9468 (by simp))

end Subword.Provider
