import Subword.Vocabulary.Basic

/-!
Vocabularies of tables. Main statement: where tables list no byte string and no id twice, tokens and their
bytes determine each other.
-/
namespace Subword.Vocabulary

/-- Tokens and their bytes determine each other: no two byte strings share an id, no ordinary id is that
of a special token, and a known id has the bytes of its ordinary or else of its special token. -/
structure Paired (v : Vocabulary) (special : List (Text × TokenId)) : Prop where
  injective : ∀ {a b id}, v.rank? a = some id → v.rank? b = some id → a = b
  apart : ∀ {a id t}, v.rank? a = some id → (t, id) ∉ special
  known : ∀ {a id}, v.rank? a = some id → (v.bytes? id).isSome
  source : ∀ {a id}, v.bytes? id = some a →
    v.rank? a = some id ∨ ∃ t, (t, id) ∈ special ∧ Utf8.encode t = a

/-- The pieces of a text lose nothing of it, and merging can start from each of their bytes. -/
structure Covers (v : Vocabulary) (t : Text) : Prop where
  flatten_pieces : (v.pieces t).flatten = t
  single : ∀ piece ∈ v.pieces t, ∀ b ∈ Utf8.encode piece, (v.rank? [b]).isSome

theorem Paired.bytes?_of_rank? {v : Vocabulary} {special : List (Text × TokenId)}
    (hv : v.Paired special) {a : Bytes} {id : TokenId} (h : v.rank? a = some id) :
    v.bytes? id = some a := by
  obtain ⟨b, hb⟩ := Option.isSome_iff_exists.mp (hv.known h)
  rcases hv.source hb with hr | ⟨t, ht, -⟩
  · rw [hv.injective h hr, hb]
  · exact absurd ht (hv.apart h)

private theorem getElem?_ofList_eq_some_iff {α β : Type} [BEq α] [LawfulBEq α] [Hashable α]
    {l : List (α × β)} (hl : (l.map Prod.fst).Nodup) {a : α} {b : β} :
    (Std.HashMap.ofList l)[a]? = some b ↔ (a, b) ∈ l := by
  have distinct : l.Pairwise (fun x y => (x.1 == y.1) = false) := by
    rw [List.nodup_iff_pairwise_ne, List.pairwise_map] at hl
    exact hl.imp fun h => beq_false_of_ne h
  constructor
  · intro h
    have hm : a ∈ Std.HashMap.ofList l := by
      rw [Std.HashMap.mem_iff_isSome_getElem?, h]
      rfl
    rw [Std.HashMap.mem_ofList, List.contains_iff_mem] at hm
    obtain ⟨⟨_, c⟩, hp, rfl⟩ := List.mem_map.mp hm
    rw [Std.HashMap.getElem?_ofList_of_mem BEq.rfl distinct hp] at h
    cases h
    exact hp
  · exact Std.HashMap.getElem?_ofList_of_mem BEq.rfl distinct

/-- Tables that list no byte string and no id twice make a vocabulary whose tokens and bytes determine
each other. -/
theorem ofTables_paired (pieces : List (Text × List Text)) {ordinary : List (Bytes × TokenId)}
    {special : List (Text × TokenId)} (hb : (ordinary.map Prod.fst).Nodup)
    (hid : (special.map Prod.snd ++ ordinary.map Prod.snd).Nodup) :
    (ofTables pieces ordinary special).Paired special := by
  have hrank : ∀ {a id}, (ofTables pieces ordinary special).rank? a = some id ↔ (a, id) ∈ ordinary :=
    getElem?_ofList_eq_some_iff hb
  have hbytes : ∀ {a id}, (ofTables pieces ordinary special).bytes? id = some a ↔
      (∃ t, (t, id) ∈ special ∧ Utf8.encode t = a) ∨ (a, id) ∈ ordinary := by
    intro a id
    refine (getElem?_ofList_eq_some_iff (by simpa [Function.comp_def] using hid)).trans ?_
    rw [List.mem_append, List.mem_map, List.mem_map]
    constructor
    · rintro (⟨⟨t, _⟩, ht, h⟩ | ⟨⟨_, _⟩, ho, h⟩)
      · cases h
        exact Or.inl ⟨t, ht, rfl⟩
      · cases h
        exact Or.inr ho
    · rintro (⟨t, ht, rfl⟩ | ho)
      · exact Or.inl ⟨(t, id), ht, rfl⟩
      · exact Or.inr ⟨(a, id), ho, rfl⟩
  constructor
  · intro a b id ha hb
    have hba := (hbytes.mpr (Or.inr (hrank.mp ha))).symm.trans (hbytes.mpr (Or.inr (hrank.mp hb)))
    exact Option.some.inj hba
  · intro a id t ha ht
    exact (List.nodup_append.mp hid).2.2 id (List.mem_map.mpr ⟨(t, id), ht, rfl⟩) id
      (List.mem_map.mpr ⟨(a, id), hrank.mp ha, rfl⟩) rfl
  · intro a id ha
    rw [hbytes.mpr (Or.inr (hrank.mp ha))]
    rfl
  · intro a id ha
    rcases hbytes.mp ha with hs | ho
    · exact Or.inr hs
    · exact Or.inl (hrank.mpr ho)

private theorem getElem?_ofList_eq_lookup {α β : Type} [BEq α] [LawfulBEq α] [Hashable α]
    {l : List (α × β)} (hl : (l.map Prod.fst).Nodup) (a : α) :
    (Std.HashMap.ofList l)[a]? = l.lookup a := by
  cases h : l.lookup a with
  | none =>
    apply Std.HashMap.getElem?_ofList_of_contains_eq_false
    simp only [List.contains_eq_mem, List.mem_map, decide_eq_false_iff_not]
    rintro ⟨p, hp, rfl⟩
    simpa using List.lookup_eq_none_iff.mp h p hp
  | some b =>
    obtain ⟨before, behind, rfl, -⟩ := List.lookup_eq_some_iff.mp h
    exact (getElem?_ofList_eq_some_iff hl).mpr (by simp)

theorem rank?_ofTables (pieces : List (Text × List Text)) {ordinary : List (Bytes × TokenId)}
    (special : List (Text × TokenId)) (hb : (ordinary.map Prod.fst).Nodup) :
    (ofTables pieces ordinary special).rank? = (ordinary.lookup ·) :=
  funext fun a => getElem?_ofList_eq_lookup hb a

theorem bytes?_ofTables (pieces : List (Text × List Text)) {ordinary : List (Bytes × TokenId)}
    {special : List (Text × TokenId)}
    (hid : (special.map Prod.snd ++ ordinary.map Prod.snd).Nodup) :
    (ofTables pieces ordinary special).bytes? =
      ((special.map (fun s => (s.2, Utf8.encode s.1)) ++ ordinary.map fun o => (o.2, o.1)).lookup ·) :=
  funext fun id => getElem?_ofList_eq_lookup (by simpa [Function.comp_def] using hid) id

/-- Tables for a text whose one character takes three tokens, with a special token besides. -/
def crab : Vocabulary :=
  ofTables [("🦀".toList, ["🦀".toList])]
    [([0xA6], 99), ([0xF0], 172), ([0x80], 222), ([0x9F], 253), ([0xF0, 0x9F], 9468)]
    [("<|endoftext|>".toList, 100257)]

theorem crab_paired : crab.Paired [("<|endoftext|>".toList, 100257)] :=
  ofTables_paired _ (by decide) (by decide)

theorem crab_pieces : crab.pieces "🦀".toList = ["🦀".toList] := by decide

theorem crab_rank? : crab.rank? =
    ([([0xA6], 99), ([0xF0], 172), ([0x80], 222), ([0x9F], 253), ([0xF0, 0x9F], 9468)].lookup ·) :=
  rank?_ofTables _ _ (by decide)

theorem crab_bytes? : crab.bytes? =
    ([(100257, Utf8.encode "<|endoftext|>".toList), (99, [0xA6]), (172, [0xF0]), (222, [0x80]),
      (253, [0x9F]), (9468, [0xF0, 0x9F])].lookup ·) :=
  bytes?_ofTables _ (by decide)

theorem crab_covers : crab.Covers "🦀".toList := by
  constructor
  · rw [crab_pieces]
    rfl
  · rw [crab_pieces, crab_rank?, List.forall_mem_singleton]
    -- a list is gone through, not every byte there is
    exact List.all_eq_true.mp (by decide)

end Subword.Vocabulary
