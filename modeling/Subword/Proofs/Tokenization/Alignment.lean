import Subword.Proofs.Except
import Subword.Provider.Listed
import Subword.Tokenization

/-!
The parts of a tokenization belong together. Main statement: a text has a tokenization exactly if it can be
encoded and each of its tokens can be decoded by itself. Token strings then stand at the places of their ids;
otherwise the first failure is all there is.
-/
namespace Subword.Tokenization

/-- The tokenization is that of the text. Each token string is what the id at its place stands for. -/
structure Aligned (p : Provider) (t : Text) (r : Tokenization) : Prop where
  text : r.text = t
  encoding : r.encoding = p.name
  tokenIds : p.encode t = .ok r.tokenIds
  tokenCount : r.tokenCount = r.tokenIds.length
  stringCount : r.tokenStrings.length = r.tokenCount
  tokenStrings : ∀ (i : Nat) id, r.tokenIds[i]? = some id →
    ∃ s, r.tokenStrings[i]? = some s ∧ p.decodeOne id = .ok s
  charCount : r.charCount = t.length
  charsPerToken : r.charsPerToken = charRatio r.charCount r.tokenCount

/-- The first failure on the way to a tokenization: that of encoding the text, or that of the token at the
lowest place of those that cannot be decoded. -/
inductive FirstError (p : Provider) (t : Text) (e : EncodingError) : Prop
  | encode (h : p.encode t = .error e)
  | decodeOne (ids : List TokenId) (i : Nat) (id : TokenId) (hids : p.encode t = .ok ids)
      (hid : ids[i]? = some id) (before : ∀ j < i, ∀ b, ids[j]? = some b → ∃ s, p.decodeOne b = .ok s)
      (h : p.decodeOne id = .error e)

variable {p : Provider} {t : Text} {r : Tokenization} {e : EncodingError}

theorem aligned_of_mapM {ids : List TokenId} {strings : List Text} (hids : p.encode t = .ok ids)
    (hstrings : ids.mapM p.decodeOne = .ok strings) :
    Aligned p t ⟨t, p.name, ids.length, ids, strings, t.length, charRatio t.length ids.length⟩ := by
  obtain ⟨hlength, hget⟩ := Except.mapM_eq_ok_iff_getElem?.mp hstrings
  exact ⟨rfl, rfl, hids, rfl, hlength, hget, rfl, rfl⟩

theorem Aligned.mapM_eq (h : Aligned p t r) : r.tokenIds.mapM p.decodeOne = .ok r.tokenStrings :=
  Except.mapM_eq_ok_iff_getElem?.mpr ⟨h.stringCount.trans h.tokenCount, h.tokenStrings⟩

/-- An aligned tokenization is fixed by its ids and their strings. -/
theorem Aligned.eq (h : Aligned p t r) : r = ⟨t, p.name, r.tokenIds.length, r.tokenIds, r.tokenStrings,
    t.length, charRatio t.length r.tokenIds.length⟩ := by
  have hratio : r.charsPerToken = charRatio t.length r.tokenIds.length := by
    rw [h.charsPerToken, h.charCount, h.tokenCount]
  calc
    r = ⟨r.text, r.encoding, r.tokenCount, r.tokenIds, r.tokenStrings, r.charCount, r.charsPerToken⟩ := rfl
    _ = _ := by rw [h.text, h.encoding, h.tokenCount, h.charCount, hratio]

theorem build_eq_ok_iff : build p t = .ok r ↔ Aligned p t r := by
  constructor
  · intro h
    obtain ⟨ids, hids, hrest⟩ := Except.bind_eq_ok_iff.mp h
    obtain ⟨strings, hstrings, hr⟩ := Except.bind_eq_ok_iff.mp hrest
    cases hr
    exact aligned_of_mapM hids hstrings
  · intro h
    rw [h.eq]
    refine Except.bind_eq_ok_iff.mpr ⟨r.tokenIds, h.tokenIds, ?_⟩
    exact Except.bind_eq_ok_iff.mpr ⟨r.tokenStrings, h.mapM_eq, rfl⟩

theorem build_eq_error_iff : build p t = .error e ↔ FirstError p t e := by
  constructor
  · intro h
    rcases Except.bind_eq_error_iff.mp h with hencode | ⟨ids, hids, hrest⟩
    · exact .encode hencode
    rcases Except.bind_eq_error_iff.mp hrest with hstrings | ⟨strings, -, hr⟩
    · obtain ⟨i, id, hid, hbefore, hdecode⟩ := Except.mapM_eq_error_iff_getElem?.mp hstrings
      exact .decodeOne ids i id hids hid hbefore hdecode
    · cases hr
  · rintro (hencode | ⟨ids, i, id, hids, hid, hbefore, hdecode⟩)
    · exact Except.bind_eq_error_iff.mpr (Or.inl hencode)
    · have hstrings : ids.mapM p.decodeOne = .error e :=
        Except.mapM_eq_error_iff_getElem?.mpr ⟨i, id, hid, hbefore, hdecode⟩
      refine Except.bind_eq_error_iff.mpr (Or.inr ⟨ids, hids, ?_⟩)
      exact Except.bind_eq_error_iff.mpr (Or.inl hstrings)

theorem exists_build_eq_ok_iff : (∃ r, build p t = .ok r) ↔
    ∃ ids, p.encode t = .ok ids ∧ ∀ id ∈ ids, ∃ s, p.decodeOne id = .ok s := by
  constructor
  · rintro ⟨r, h⟩
    have haligned := build_eq_ok_iff.mp h
    exact ⟨r.tokenIds, haligned.tokenIds, Except.exists_eq_ok_of_mapM haligned.mapM_eq⟩
  · rintro ⟨ids, hids, hall⟩
    cases hstrings : ids.mapM p.decodeOne with
    | ok strings => exact ⟨_, build_eq_ok_iff.mpr (aligned_of_mapM hids hstrings)⟩
    | error e =>
      obtain ⟨before, id, behind, rfl, -, hdecode⟩ := Except.mapM_eq_error_iff.mp hstrings
      obtain ⟨s, hs⟩ := hall id (List.mem_append_right _ List.mem_cons_self)
      rw [hs] at hdecode
      cases hdecode

theorem Outcome.of_eq_success_iff : Outcome.of p t = .success r ↔ build p t = .ok r := by
  unfold Outcome.of
  cases build p t <;> simp

theorem Outcome.of_eq_error_iff {message : Text} :
    Outcome.of p t = .error message ↔ ∃ e, build p t = .error e ∧ e.message = message := by
  unfold Outcome.of
  cases build p t <;> simp

/-- A text is tokenized exactly if it can be encoded and each of its tokens can be decoded by itself. The
tokenization is then the one that is aligned; otherwise its outcome is the message of the first failure. -/
theorem build_aligned_iff (p : Provider) (t : Text) :
    ((∃ r, build p t = .ok r) ↔
      ∃ ids, p.encode t = .ok ids ∧ ∀ id ∈ ids, ∃ s, p.decodeOne id = .ok s) ∧
    (∀ r, build p t = .ok r ↔ Aligned p t r) ∧
    (∀ e, build p t = .error e ↔ FirstError p t e) ∧
    (∀ r, Outcome.of p t = .success r ↔ Aligned p t r) ∧
    ∀ message, Outcome.of p t = .error message ↔ ∃ e, FirstError p t e ∧ e.message = message := by
  refine ⟨exists_build_eq_ok_iff, fun _ => build_eq_ok_iff, fun _ => build_eq_error_iff, ?_, ?_⟩
  · intro r
    rw [Outcome.of_eq_success_iff, build_eq_ok_iff]
  · intro message
    rw [Outcome.of_eq_error_iff]
    simp only [build_eq_error_iff]

/-- Two of the ids are unknown, and the one that is known comes twice. -/
example : build (.ofTables [] [("ab".toList, .ok [7, 8, 7, 9])] [(7, .ok "a".toList)]) "ab".toList =
    .error (.decode "unknown id 8".toList) := rfl

end Subword.Tokenization
