import Mathlib.Data.List.Basic
import Subword.Proofs.Utf8.Decoding
import Subword.Proofs.Vocabulary.Tables
import Subword.Provider.Basic

/-!
Decoding undoes encoding. Merging keeps every part a token as long as it starts from tokens, whichever pair
it joins; the tokens of a piece therefore spell the piece, and those of a text the text.
-/
namespace Subword.Vocabulary

/-- A step of merging joins two neighbours that have a rank together and leaves the other parts. -/
theorem exists_of_mergeLowest? {rank? : Bytes → Option TokenId} {parts merged : List Bytes}
    {r : TokenId} (h : mergeLowest? rank? parts = some (r, merged)) :
    ∃ before a b after, parts = before ++ a :: b :: after ∧ rank? (a ++ b) = some r ∧
      merged = before ++ (a ++ b) :: after := by
  fun_induction mergeLowest? rank? parts generalizing r merged with
  | case1 => cases h
  | case2 a b rest s later hl _ ih | case5 a b rest _ s later hl _ _ ih =>
    cases h
    obtain ⟨before, x, y, after, hp, hr, hm⟩ := ih hl
    exact ⟨a :: before, x, y, after, by rw [hp]; rfl, hr, by rw [hm]; rfl⟩
  | case3 a b rest s _ hr | case4 a b rest s _ _ _ hr =>
    cases h
    exact ⟨[], a, b, rest, rfl, hr, rfl⟩
  | case6 => cases h

/-- Merging that starts from tokens ends with tokens. -/
theorem ranked_mergeAll {rank? : Bytes → Option TokenId} {parts : List Bytes}
    (hp : ∀ part ∈ parts, (rank? part).isSome) :
    ∀ part ∈ mergeAll rank? parts, (rank? part).isSome := by
  fun_induction mergeAll rank? parts with
  | case1 => exact hp
  | case2 parts r merged h _ ih =>
    obtain ⟨before, a, b, after, rfl, hr, rfl⟩ := exists_of_mergeLowest? h
    apply ih
    intro part hm
    rcases List.mem_append.mp hm with hm | hm
    · exact hp part (List.mem_append_left _ hm)
    rcases List.mem_cons.mp hm with rfl | hm
    · rw [hr]
      rfl
    · exact hp part (by simp [hm])

theorem mergeAll_of_eq_some {rank? : Bytes → Option TokenId} {parts merged : List Bytes} {r : TokenId}
    (h : mergeLowest? rank? parts = some (r, merged)) :
    mergeAll rank? parts = mergeAll rank? merged := by
  rw [mergeAll]
  split
  all_goals
    rename_i hl
    cases hl.symm.trans h
  rfl

theorem mergeAll_of_eq_none {rank? : Bytes → Option TokenId} {parts : List Bytes}
    (h : mergeLowest? rank? parts = none) : mergeAll rank? parts = parts := by
  rw [mergeAll]
  split
  · rfl
  · rename_i hl
    cases hl.symm.trans h

/-- The bytes of a token; an unknown one has none. -/
def spelling (v : Vocabulary) (id : TokenId) : Bytes := (v.bytes? id).getD []

theorem spelling_eq {v : Vocabulary} {id : TokenId} {a : Bytes} (h : v.bytes? id = some a) :
    v.spelling id = a := by
  rw [spelling, h, Option.getD_some]

theorem spellAll_of_known {v : Vocabulary} {ids : List TokenId}
    (h : ∀ id ∈ ids, (v.bytes? id).isSome) : v.spellAll ids = .ok (ids.flatMap v.spelling) := by
  induction ids with
  | nil => rfl
  | cons id ids ih =>
    obtain ⟨hid, hids⟩ := List.forall_mem_cons.mp h
    obtain ⟨a, ha⟩ := Option.isSome_iff_exists.mp hid
    rw [spellAll, ih hids, spell, ha, List.flatMap_cons, spelling_eq ha]
    rfl

theorem flatMap_filterMap_rank? {v : Vocabulary} {special : List (Text × TokenId)}
    (hv : v.Paired special) {parts : List Bytes} (hp : ∀ part ∈ parts, (v.rank? part).isSome) :
    (parts.filterMap v.rank?).flatMap v.spelling = parts.flatten := by
  induction parts with
  | nil => rfl
  | cons part parts ih =>
    obtain ⟨hpart, hparts⟩ := List.forall_mem_cons.mp hp
    obtain ⟨id, hid⟩ := Option.isSome_iff_exists.mp hpart
    rw [List.filterMap_cons_some hid, List.flatMap_cons, ih hparts,
      spelling_eq (hv.bytes?_of_rank? hid), List.flatten_cons]

/-- Every token of a piece has a rank, and together they spell the piece. -/
theorem encodePiece_spelling {v : Vocabulary} {special : List (Text × TokenId)}
    (hv : v.Paired special) {piece : Bytes} (hs : ∀ b ∈ piece, (v.rank? [b]).isSome) :
    (v.encodePiece piece).flatMap v.spelling = piece ∧
      ∀ id ∈ v.encodePiece piece, ∃ a, v.rank? a = some id := by
  unfold encodePiece
  split
  · rename_i id hid
    refine ⟨by simp [spelling_eq (hv.bytes?_of_rank? hid)], ?_⟩
    intro id' hm
    rw [List.mem_singleton.mp hm]
    exact ⟨piece, hid⟩
  · have hp : ∀ part ∈ piece.map ([·]), (v.rank? part).isSome := by
      intro part hm
      obtain ⟨b, hb, rfl⟩ := List.mem_map.mp hm
      exact hs b hb
    constructor
    · rw [flatMap_filterMap_rank? hv (ranked_mergeAll hp), flatten_mergeAll, ← List.flatMap_def,
        List.flatMap_singleton']
    · intro id hm
      obtain ⟨a, _, ha⟩ := List.mem_filterMap.mp hm
      exact ⟨a, ha⟩

/-- Every token of a text is known, and together they spell the text. -/
theorem encode_spelling {v : Vocabulary} {special : List (Text × TokenId)} (hv : v.Paired special)
    {t : Text} (ht : v.Covers t) :
    (v.encode t).flatMap v.spelling = Utf8.encode t ∧ ∀ id ∈ v.encode t, (v.bytes? id).isSome := by
  constructor
  · calc
      (v.encode t).flatMap v.spelling =
          (v.pieces t).flatMap fun p => (v.encodePiece (Utf8.encode p)).flatMap v.spelling :=
        List.flatMap_assoc
      _ = (v.pieces t).flatMap Utf8.encode :=
        List.flatMap_congr fun p hp => (encodePiece_spelling hv (ht.single p hp)).1
      _ = Utf8.encode (v.pieces t).flatten := (Utf8.encode_flatten _).symm
      _ = Utf8.encode t := by rw [ht.flatten_pieces]
  · intro id hm
    obtain ⟨piece, hp, hm⟩ := List.mem_flatMap.mp hm
    obtain ⟨a, ha⟩ := (encodePiece_spelling hv (ht.single piece hp)).2 id hm
    exact hv.known ha

end Subword.Vocabulary

namespace Subword.Provider

/-- What a vocabulary encodes decodes to the same text, whichever pieces it is split into and wherever
tokens cut its characters. -/
theorem decode_of_encode_eq_ok (e : Encoding) {v : Vocabulary} {special : List (Text × TokenId)}
    (hv : v.Paired special) {t : Text} (ht : v.Covers t) {ids : List TokenId}
    (h : (ofVocabulary e v).encode t = .ok ids) : (ofVocabulary e v).decode ids = .ok t := by
  have hids : ids = v.encode t := by
    simp only [ofVocabulary] at h
    split at h
    · cases h
    · exact (Except.ok.inj h).symm
  obtain ⟨hs, hk⟩ := Vocabulary.encode_spelling hv ht
  simp only [ofVocabulary, Vocabulary.decode]
  rw [hids, Vocabulary.spellAll_of_known hk, hs]
  simp only [Utf8.decode_encode]
  rfl

theorem encode_crab : (ofVocabulary .cl100kBase .crab).encode "🦀".toList = .ok [9468, 99, 222] := by
  have hbytes : Utf8.encode "🦀".toList = [0xF0, 0x9F, 0xA6, 0x80] := by decide
  have hpiece : Vocabulary.crab.rank? [0xF0, 0x9F, 0xA6, 0x80] = none := by
    rw [Vocabulary.crab_rank?]
    decide
  have hjoin : Vocabulary.mergeLowest? Vocabulary.crab.rank? [[0xF0], [0x9F], [0xA6], [0x80]] =
      some (9468, [[0xF0, 0x9F], [0xA6], [0x80]]) := by
    rw [Vocabulary.crab_rank?]
    decide
  have hend : Vocabulary.mergeLowest? Vocabulary.crab.rank? [[0xF0, 0x9F], [0xA6], [0x80]] = none := by
    rw [Vocabulary.crab_rank?]
    decide
  have hids : [[0xF0, 0x9F], [0xA6], [0x80]].filterMap Vocabulary.crab.rank? = [9468, 99, 222] := by
    rw [Vocabulary.crab_rank?]
    decide
  have hmerge := (Vocabulary.mergeAll_of_eq_some hjoin).trans (Vocabulary.mergeAll_of_eq_none hend)
  have hv : Vocabulary.crab.encode "🦀".toList = [9468, 99, 222] := by
    rw [Vocabulary.encode, Vocabulary.crab_pieces, List.flatMap_singleton, hbytes,
      Vocabulary.encodePiece, hpiece]
    exact (congrArg (List.filterMap Vocabulary.crab.rank?) hmerge).trans hids
  have hn : Encoding.cl100kBase.leftmostSpecial? "🦀".toList = none := by decide
  simp only [ofVocabulary, hn, hv]

theorem decode_of_encode_eq_ok_crab :
    (ofVocabulary .cl100kBase .crab).encode "🦀".toList = .ok [9468, 99, 222] ∧
      (ofVocabulary .cl100kBase .crab).decode [9468, 99, 222] = .ok "🦀".toList :=
  ⟨encode_crab, decode_of_encode_eq_ok .cl100kBase Vocabulary.crab_paired
    Vocabulary.crab_covers encode_crab⟩

end Subword.Provider
