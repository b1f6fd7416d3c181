import Subword.Proofs.Encoding.SpecialToken
import Subword.Proofs.Text.Search
import Subword.Proofs.Vocabulary.Tables
import Subword.Provider.Basic

/-!
Texts that are rejected for a special token. Searching a text for one special token after the other and comparing
the positions finds the token that stands first. Main statement: a text is rejected exactly for this token, and stays
rejected for it whatever is written behind the text, since no special token reaches into another.
-/
namespace Subword

namespace Encoding

/-- The special tokens that stand in a text, each searched for by itself, with their first positions. -/
def positions (e : Encoding) (t : Text) : List (Nat × Text) :=
  e.specialTokens.filterMap fun token => (Text.position? token t).map (·, token)

/-- The special token of the lowest position, the one that is listed first of equals. -/
def nearestSpecial? (e : Encoding) (t : Text) : Option Text :=
  ((e.positions t).minOn? Prod.fst).map Prod.snd

variable {e : Encoding} {token other a b t : Text} {i : Nat}

theorem mem_positions_iff : (i, token) ∈ e.positions t ↔
    token ∈ e.specialTokens ∧ Text.position? token t = some i := by
  unfold positions
  rw [List.mem_filterMap]
  constructor
  · rintro ⟨word, hword, h⟩
    obtain ⟨j, hj, heq⟩ := Option.map_eq_some_iff.mp h
    cases heq
    exact ⟨hword, hj⟩
  · rintro ⟨htoken, h⟩
    exact ⟨token, htoken, Option.map_eq_some_iff.mpr ⟨i, h, rfl⟩⟩

theorem standsFirst_of_minOn? (h : (e.positions t).minOn? Prod.fst = some (i, token)) :
    e.StandsFirst token t := by
  obtain ⟨htoken, hposition⟩ := mem_positions_iff.mp (List.minOn?_mem h)
  obtain ⟨-, hstands, -⟩ := Text.position?_eq_some_iff.mp hposition
  refine ⟨htoken, i, hstands, ?_⟩
  intro j hj other hother hbefore
  -- the other token would have been found at `j` or before, and its position would be the lower one
  obtain ⟨k, hk, hfound⟩ := Text.exists_position? (special_ne_nil hother) hbefore
  have hmem : (k, other) ∈ e.positions t := mem_positions_iff.mpr ⟨hother, hfound⟩
  have hle : i ≤ k := by
    have hmin := List.apply_minOn_le_of_mem (f := Prod.fst) hmem
    rw [List.minOn_eq_of_minOn?_eq_some h] at hmin
    exact hmin
  omega

theorem standsFirst_unique (h : e.StandsFirst token t) (h' : e.StandsFirst other t) :
    token = other := by
  have hfound := leftmostSpecial?_eq_some_iff.mpr h
  rw [leftmostSpecial?_eq_some_iff.mpr h'] at hfound
  exact (Option.some.inj hfound).symm

/-- Searching for each special token by itself finds the one that stands first. -/
theorem nearestSpecial?_eq_some_iff : e.nearestSpecial? t = some token ↔ e.StandsFirst token t := by
  unfold nearestSpecial?
  rw [Option.map_eq_some_iff]
  constructor
  · rintro ⟨⟨i, word⟩, hmin, rfl⟩
    exact standsFirst_of_minOn? hmin
  · intro h
    obtain ⟨i, hstands, -⟩ := h.position
    obtain ⟨j, -, hfound⟩ := Text.exists_position? (special_ne_nil h.special) hstands
    have hmem : (j, token) ∈ e.positions t := mem_positions_iff.mpr ⟨h.special, hfound⟩
    have hsome : ((e.positions t).minOn? Prod.fst).isSome := List.isSome_minOn?_of_mem hmem
    obtain ⟨⟨k, word⟩, hmin⟩ := Option.isSome_iff_exists.mp hsome
    exact ⟨(k, word), hmin, standsFirst_unique (standsFirst_of_minOn? hmin) h⟩

theorem leftmostSpecial?_eq_nearestSpecial? (e : Encoding) (t : Text) :
    e.leftmostSpecial? t = e.nearestSpecial? t := by
  apply Option.ext
  intro token
  rw [leftmostSpecial?_eq_some_iff, nearestSpecial?_eq_some_iff]

/-- A special token that reaches across the end of a text does not start before the one that stands first in the
text: it would have this one in it. -/
theorem StandsFirst.append (h : e.StandsFirst token a) (b : Text) : e.StandsFirst token (a ++ b) := by
  obtain ⟨htoken, i, hstands, hbefore⟩ := h
  have hi := Text.le_length_of_prefix_drop (special_ne_nil htoken) hstands
  have hdrop : ∀ j ≤ i, (a ++ b).drop j = a.drop j ++ b :=
    fun j hj => List.drop_append_of_le_length (hj.trans hi)
  refine ⟨htoken, i, ?_, ?_⟩
  · rw [hdrop i le_rfl]
    exact hstands.trans (List.prefix_append _ b)
  intro j hj other hother hp
  rw [hdrop j hj.le] at hp
  rcases List.prefix_or_prefix_of_prefix hp (List.prefix_append (a.drop j) b) with hinside | hacross
  · exact hbefore j hj other hother hinside
  · have hoffset : a.drop i = (a.drop j).drop (i - j) := by
      rw [List.drop_drop, Nat.add_sub_cancel' hj.le]
    have hin : token <+: other.drop (i - j) := by
      rw [hoffset] at hstands
      exact hstands.trans (hacross.drop (i - j))
    obtain rfl := special_eq_of_infix htoken hother (hin.isInfix.trans (List.drop_suffix _ _).isInfix)
    have hlength := hin.length_le
    have hpos := List.length_pos_iff.mpr (special_ne_nil htoken)
    rw [List.length_drop] at hlength
    omega

end Encoding

namespace Provider

/-- A text is rejected exactly for the special token that stands first in it, and no text without one is rejected. What
is written behind a rejected text does not change the token. Searching for each special token by itself and taking the
one at the lowest position leads to the same. -/
theorem encode_rejects_iff (e : Encoding) (v : Vocabulary) :
    let encode := (ofVocabulary e v).encode
    (∀ a b token, encode a = .error (.disallowedSpecialToken token) →
      encode (a ++ b) = .error (.disallowedSpecialToken token)) ∧
    (∀ t token, encode t = .error (.disallowedSpecialToken token) ↔ e.StandsFirst token t) ∧
    (∀ t token other, e.StandsFirst token t → e.StandsFirst other t → token = other) ∧
    (∀ t, encode t = .ok (v.encode t) ↔ ∀ token ∈ e.specialTokens, ¬token <:+: t) ∧
    ∀ t, encode t = match e.nearestSpecial? t with
      | some token => .error (.disallowedSpecialToken token)
      | none => .ok (v.encode t) := by
  intro encode
  have hencode : ∀ t, encode t = match e.leftmostSpecial? t with
      | some token => .error (.disallowedSpecialToken token)
      | none => .ok (v.encode t) := fun t => rfl
  have hrejects : ∀ t token, encode t = .error (.disallowedSpecialToken token) ↔
      e.StandsFirst token t := by
    intro t token
    rw [hencode, ← Encoding.leftmostSpecial?_eq_some_iff]
    cases e.leftmostSpecial? t <;> simp
  refine ⟨?_, hrejects, ?_, ?_, ?_⟩
  · intro a b token h
    exact (hrejects _ _).mpr (((hrejects _ _).mp h).append b)
  · exact fun t token other h h' => Encoding.standsFirst_unique h h'
  · intro t
    rw [hencode, ← Encoding.leftmostSpecial?_eq_none_iff]
    cases e.leftmostSpecial? t <;> simp
  · intro t
    rw [hencode, Encoding.leftmostSpecial?_eq_nearestSpecial?]

/-- A token that only the text behind completes does not come before the one that is there already. -/
theorem encode_rejects_iff_across_end :
    (ofVocabulary .cl100kBase .crab).encode "<|fim_<|endoftext|><|fim_".toList =
      .error (.disallowedSpecialToken "<|endoftext|>".toList) ∧
    (ofVocabulary .cl100kBase .crab).encode ("<|fim_<|endoftext|><|fim_".toList ++ "prefix|>".toList) =
      .error (.disallowedSpecialToken "<|endoftext|>".toList) ∧
    (ofVocabulary .r50kBase .crab).encode "<|endoftext\n|><|endofprompt|>".toList =
      .ok (Vocabulary.crab.encode "<|endoftext\n|><|endofprompt|>".toList) := by
  have hfirst : Encoding.StandsFirst .cl100kBase "<|endoftext|>".toList
      "<|fim_<|endoftext|><|fim_".toList := Encoding.leftmostSpecial?_eq_some_iff.mp (by decide)
  have hnone : ∀ token ∈ Encoding.specialTokens .r50kBase,
      ¬token <:+: "<|endoftext\n|><|endofprompt|>".toList :=
    Encoding.leftmostSpecial?_eq_none_iff.mp (by decide)
  obtain ⟨hextends, hrejects, -⟩ := encode_rejects_iff .cl100kBase .crab
  obtain ⟨-, -, -, haccepts, -⟩ := encode_rejects_iff .r50kBase .crab
  have h := (hrejects _ _).mpr hfirst
  exact ⟨h, hextends _ _ _ h, (haccepts _).mpr hnone⟩

end Provider
end Subword
