import Subword.Proofs.Json.Unambiguous
import Subword.Proofs.Tokenization.Alignment

/-!
The document of an outcome identifies it. Main statement: outcomes with the same document are both
tokenizations or both errors and agree in all but the characters per token, which the two counts determine
in every tokenization that is built.
-/
namespace Subword.Tokenization

/-- The tokenizations have everything in common but perhaps the characters per token. -/
structure Agrees (r r' : Tokenization) : Prop where
  text : r.text = r'.text
  encoding : r.encoding = r'.encoding
  tokenCount : r.tokenCount = r'.tokenCount
  tokenIds : r.tokenIds = r'.tokenIds
  tokenStrings : r.tokenStrings = r'.tokenStrings
  charCount : r.charCount = r'.charCount

def Outcome.Agrees : Outcome → Outcome → Prop
  | .success r, .success r' => r.Agrees r'
  | .error message, .error message' => message = message'
  | .success _, .error _ | .error _, .success _ => False

variable {r r' : Tokenization}

private theorem eq_of_alike_string {s t : Text} (h : Json.Alike (.string s) (.string t)) : s = t := by
  cases h
  rfl

private theorem eq_of_alike_natural {m n : Nat} (h : Json.Alike (.natural m) (.natural n)) : m = n := by
  cases h
  rfl

private theorem eq_of_alike_array {α : Type} {f : α → Json} {xs ys : List α}
    (hf : ∀ a b, Json.Alike (f a) (f b) → a = b)
    (h : Json.Alike (.array (xs.map f)) (.array (ys.map f))) : xs = ys := by
  cases h with
  | array hitems =>
    rw [List.forall₂_map_left_iff, List.forall₂_map_right_iff] at hitems
    exact List.forall₂_eq_eq_eq ▸ hitems.imp hf

theorem agrees_of_alike (h : Json.Alike r.toJson r'.toJson) : r.Agrees r' := by
  cases h with
  | object _ hvalues =>
    simp only [List.map_cons, List.map_nil, List.forall₂_cons] at hvalues
    obtain ⟨htext, hencoding, hcount, hids, hstrings, hchars, -, -⟩ := hvalues
    constructor
    · exact eq_of_alike_string htext
    · exact eq_of_alike_string hencoding
    · exact eq_of_alike_natural hcount
    · exact eq_of_alike_array (fun a b hab => UInt32.toNat_inj.mp (eq_of_alike_natural hab)) hids
    · exact eq_of_alike_array (fun a b hab => eq_of_alike_string hab) hstrings
    · exact eq_of_alike_natural hchars

theorem Outcome.agrees_of_alike {a b : Outcome} (h : Json.Alike a.toJson b.toJson) : a.Agrees b := by
  cases a with
  | success r =>
    cases b with
    | success r' => exact Tokenization.agrees_of_alike h
    | error message =>
      -- seven members against one
      cases h with
      | object hkeys _ => cases hkeys
  | error message =>
    cases b with
    | success r' =>
      cases h with
      | object hkeys _ => cases hkeys
    | error message' =>
      cases h with
      | object _ hvalues =>
        simp only [List.map_cons, List.map_nil, List.forall₂_cons] at hvalues
        exact eq_of_alike_string hvalues.1

theorem Outcome.agrees_of_document_eq {a b : Outcome} (h : a.toJson.pretty = b.toJson.pretty) :
    a.Agrees b :=
  agrees_of_alike (Json.alike_of_pretty_eq h)

theorem charsPerToken_of_ofLoaded {p : Except EncodingError Provider} {t : Text}
    (h : Outcome.ofLoaded p t = .success r) : r.charsPerToken = charRatio r.charCount r.tokenCount := by
  cases p with
  | error e => cases h
  | ok p =>
    have hbuild : build p t = .ok r := Outcome.of_eq_success_iff.mp h
    exact (build_eq_ok_iff.mp hbuild).charsPerToken

theorem Agrees.eq (h : r.Agrees r') (hr : r.charsPerToken = charRatio r.charCount r.tokenCount)
    (hr' : r'.charsPerToken = charRatio r'.charCount r'.tokenCount) : r = r' := by
  have hratio : r.charsPerToken = r'.charsPerToken := by rw [hr, hr', h.charCount, h.tokenCount]
  cases r
  cases r'
  obtain ⟨rfl, rfl, rfl, rfl, rfl, rfl⟩ := h
  cases hratio
  rfl

theorem Outcome.eq_of_agrees_error {o : Outcome} {message : Text} (h : o.Agrees (.error message)) :
    o = .error message := by
  cases o with
  | success r => exact h.elim
  | error m => exact congrArg _ h

theorem Outcome.exists_of_agrees_success {o : Outcome} (h : o.Agrees (.success r)) :
    ∃ r', o = .success r' ∧ r'.Agrees r := by
  cases o with
  | success r' => exact ⟨r', rfl, h⟩
  | error m => exact h.elim

theorem Outcome.eq_of_document_eq {p p' : Except EncodingError Provider} {t t' : Text}
    (h : (ofLoaded p t).toJson.pretty = (ofLoaded p' t').toJson.pretty) :
    ofLoaded p t = ofLoaded p' t' := by
  have hagrees := agrees_of_document_eq h
  cases hb : ofLoaded p' t' with
  | success r' =>
    rw [hb] at hagrees
    obtain ⟨r, ha, hr⟩ := exists_of_agrees_success hagrees
    rw [ha, hr.eq (charsPerToken_of_ofLoaded ha) (charsPerToken_of_ofLoaded hb)]
  | error message =>
    rw [hb] at hagrees
    exact eq_of_agrees_error hagrees

/-- Outcomes of any contents with the same document are of one kind and agree in all but the characters
per token; outcomes that come from a provider, or from the failure to load one, are then equal. -/
theorem Outcome.agrees_and_eq_of_document_eq :
    (∀ a b : Outcome, a.toJson.pretty = b.toJson.pretty → a.Agrees b) ∧
    ∀ (p p' : Except EncodingError Provider) (t t' : Text),
      (ofLoaded p t).toJson.pretty = (ofLoaded p' t').toJson.pretty →
        ofLoaded p t = ofLoaded p' t' :=
  ⟨fun _ _ => agrees_of_document_eq, fun _ _ _ _ => eq_of_document_eq⟩

/-- Doubles that are no number are all written alike, and a provider that cannot encode gives the document
of one that cannot be loaded. -/
theorem Outcome.agrees_and_eq_of_document_eq_undefined :
    (Outcome.success ⟨"\"".toList, [], 1, [5], ["a".toList], 7, ⟨0x7FF8000000000000⟩⟩).Agrees
      (.success ⟨"\"".toList, [], 1, [5], ["a".toList], 7, ⟨0x7FF8000000000001⟩⟩) ∧
    ofLoaded (.error (.decode "x".toList)) [] =
      ofLoaded (.ok (.ofTables [] [("y".toList, .error (.decode "x".toList))] [])) "y".toList := by
  obtain ⟨hagree, heq⟩ := Outcome.agrees_and_eq_of_document_eq
  constructor
  · refine hagree _ _ ?_
    rfl
  · refine heq _ _ _ _ ?_
    rfl

end Subword.Tokenization
