import Subword.Proofs.Batch.Composition
import Subword.Proofs.Encoding.SpecialToken
import Subword.Proofs.Vocabulary.Tables

/-!
Special tokens in a file of prompts. Main statement: the batch of a content fails exactly if a special token
stands anywhere in the content, and the failure names the one that stands first.
-/
namespace Subword.Batch

/-- The result is the failure for the special token that has been found, or a batch if there is none. -/
def Rejects : Option Text → Except EncodingError Batch → Prop
  | some token, result => result = .error (.disallowedSpecialToken token)
  | none, result => ∃ batch, result = .ok batch

variable {e : Encoding} {v : Vocabulary} {line a b : Text} {found found' : Option Text}

theorem rejects_line (e : Encoding) (v : Vocabulary) (hm : '\n' ∉ line) :
    Rejects (e.leftmostSpecial? line) (ofLines (.ofVocabulary e v) line) := by
  have hlines := ofLines_byLines (.ofVocabulary e v)
  rw [← Encoding.leftmostSpecial?_trim]
  by_cases hblank : Text.trim line = []
  · rw [hlines.blank line hm hblank, hblank]
    exact ⟨_, rfl⟩
  rw [hlines.prompt line hm hblank]
  simp only [Provider.ofVocabulary]
  cases e.leftmostSpecial? (Text.trim line) with
  | some token => rfl
  | none => exact ⟨_, rfl⟩

/-- The failure of the first content counts, as does what stands first in it. -/
theorem rejects_joined {p : Provider} (ha : Rejects found (ofLines p a))
    (hb : Rejects found' (ofLines p b)) : Rejects (found.or found') (ofLines p (a ++ '\n' :: b)) := by
  rw [(ofLines_byLines p).joined]
  cases found with
  | some token =>
    unfold Rejects at ha
    rw [ha]
    rfl
  | none =>
    obtain ⟨first, hfirst⟩ := ha
    rw [hfirst, Option.none_or]
    cases found' with
    | some token =>
      unfold Rejects at hb
      rw [hb]
      rfl
    | none =>
      obtain ⟨second, hsecond⟩ := hb
      rw [hsecond]
      exact ⟨_, rfl⟩

theorem rejects_ofLines (e : Encoding) (v : Vocabulary) (content : Text) :
    Rejects (e.leftmostSpecial? content) (ofLines (.ofVocabulary e v) content) := by
  have hnewline : e.Foreign '\n' := Encoding.foreign_of_isBlank e rfl
  induction content using induction_on_lines '\n' with
  | line l hm => exact rejects_line e v hm
  | joined a b ha hb =>
    rw [Encoding.leftmostSpecial?_append hnewline]
    exact rejects_joined ha hb

/-- The batch of a content fails with the special token that stands first in all of it, wherever its lines and
their margins end, and it succeeds if none stands in it. The content as one text fails alike. -/
theorem ofLines_rejects_iff (e : Encoding) (v : Vocabulary) (content : Text) :
    let result := ofLines (.ofVocabulary e v) content
    (∀ token, result = .error (.disallowedSpecialToken token) ↔ e.StandsFirst token content) ∧
    ((∃ token, result = .error (.disallowedSpecialToken token)) ↔
      ∃ token ∈ e.specialTokens, token <:+: content) ∧
    ((∃ batch, result = .ok batch) ↔ ¬∃ token ∈ e.specialTokens, token <:+: content) ∧
    ∀ failure, result = .error failure ↔
      (Provider.ofVocabulary e v).encode content = .error failure := by
  intro result
  have hrejects : Rejects (e.leftmostSpecial? content) result := rejects_ofLines e v content
  have hnone := Encoding.leftmostSpecial?_eq_none_iff (e := e) (t := content)
  simp only [← Encoding.leftmostSpecial?_eq_some_iff]
  have hexists : (∃ token ∈ e.specialTokens, token <:+: content) ↔
      e.leftmostSpecial? content ≠ none := by
    rw [Ne, hnone]
    push Not
    rfl
  rw [hexists]
  simp only [Provider.ofVocabulary]
  cases hfound : e.leftmostSpecial? content with
  | some token =>
    rw [hfound] at hrejects
    unfold Rejects at hrejects
    simp [hrejects]
  | none =>
    rw [hfound] at hrejects
    obtain ⟨batch, hbatch⟩ := hrejects
    simp [hbatch]

theorem ofLines_rejects_iff_second_line :
    ofLines (.ofVocabulary .cl100kBase .crab) "a\r\n <|fim_prefix|><|endoftext|>\n".toList =
      .error (.disallowedSpecialToken "<|fim_prefix|>".toList) ∧
    ∃ batch, ofLines (.ofVocabulary .r50kBase .crab) "<|endoftext\n|><|endofprompt|>".toList =
      .ok batch := by
  constructor
  · have hfirst : Encoding.StandsFirst .cl100kBase "<|fim_prefix|>".toList
        "a\r\n <|fim_prefix|><|endoftext|>\n".toList :=
      Encoding.leftmostSpecial?_eq_some_iff.mp (by decide)
    exact ((ofLines_rejects_iff _ _ _).1 _).mpr hfirst
  · have hnone : ∀ token ∈ Encoding.specialTokens .r50kBase,
        ¬token <:+: "<|endoftext\n|><|endofprompt|>".toList :=
      Encoding.leftmostSpecial?_eq_none_iff.mp (by decide)
    refine (ofLines_rejects_iff _ _ _).2.2.1.mpr ?_
    intro ⟨token, htoken, hin⟩
    exact hnone token htoken hin

end Subword.Batch
