import Subword.Batch.Reader
import Subword.Proofs.Json.Layout
import Subword.Proofs.Utf8.Decoding

/-!
A batch is read back from the document that is written for it.
-/
namespace Subword.Batch

open Subword.Json (Spells)

theorem spells_tokenId (id : TokenId) : Spells readTokenId (Text.decimal id.toNat) id := by
  have h := (Json.spells_decimal (UInt32.toNat_lt_size id) (by decide)).map UInt32.ofNat
  rw [UInt32.ofNat_toNat] at h
  exact h

theorem spells_count (n : UInt64) : Spells readCount (Text.decimal n.toNat) n := by
  have h := (Json.spells_decimal (UInt64.toNat_lt_size n) Nat.le.refl).map UInt64.ofNat
  rw [UInt64.ofNat_toNat] at h
  exact h

theorem spells_tokens (depth : Nat) (ids : List TokenId) :
    Spells readTokens (Json.layout depth (.array (ids.map fun id => .natural id.toNat))) ids := by
  apply Json.spells_layout_array
  intro id _
  rw [Json.layout]
  exact spells_tokenId id

theorem spells_text (depth : Nat) (t : Text) :
    Spells Json.readText (Json.layout depth (.string t)) t := by
  rw [Json.layout]
  exact Json.spells_quote t

namespace Record

variable {d : Draft} {s : Text}

theorem takes_text (hd : d.text = none) {t : Text} (h : Json.Fills Json.readText s t) :
    Json.Takes Draft.member "text".toList d s { d with text := some t } := by
  intro rest hr
  rw [Draft.member, if_pos rfl, hd, h rest hr]
  rfl

theorem takes_tokens (hd : d.tokens = none) {ids : List TokenId} (h : Json.Fills readTokens s ids) :
    Json.Takes Draft.member "tokens".toList d s { d with tokens := some ids } := by
  intro rest hr
  rw [Draft.member, if_neg (by decide), if_pos rfl, hd, h rest hr]
  rfl

theorem takes_count (hd : d.tokenCount = none) {n : UInt64} (h : Json.Fills readCount s n) :
    Json.Takes Draft.member "token_count".toList d s { d with tokenCount := some n } := by
  intro rest hr
  rw [Draft.member, if_neg (by decide), if_neg (by decide), if_pos rfl, hd, h rest hr]
  rfl

end Record

/-- A laid out record is read back, at any depth. -/
theorem spells_record (depth : Nat) (r : Record) :
    Spells Record.read (Json.layout depth r.toJson) r := by
  have hnumber : Spells readCount (Json.layout (depth + 1) (.natural r.tokenCount.toNat))
      r.tokenCount := by
    rw [Json.layout]
    exact spells_count r.tokenCount
  have htext := Record.takes_text (d := {}) rfl (spells_text (depth + 1) r.text).fills_layout
  have htokens := Record.takes_tokens (d := ⟨some r.text, none, none⟩) rfl
    (spells_tokens (depth + 1) r.tokens).fills_layout
  have hcount := Record.takes_count (d := ⟨some r.text, some r.tokens, none⟩) rfl hnumber.fills_layout
  have hmembers := Json.members_layoutMembers_cons (Json.separator_first (depth + 1)) htext
    (Json.members_layoutMembers_cons (Json.separator_comma (depth + 1)) htokens
      (Json.members_layoutMembers_cons (Json.separator_comma (depth + 1)) hcount
        (Json.members_layoutMembers_nil (depth + 1) depth false [','] _)))
  exact Json.spells_layout_object Record.readPositional hmembers rfl

theorem takes_prompts {s : Text} {prompts : List Record}
    (h : Json.Fills (Json.readList Record.read) s prompts) :
    Json.Takes readMember "prompts".toList none s (some prompts) := by
  intro rest hr
  rw [readMember, if_pos rfl, h rest hr]
  rfl

/-- A laid out batch is read back, at any depth. -/
theorem spells_batch (depth : Nat) (b : Batch) : Spells read (Json.layout depth b.toJson) b := by
  have hprompts : Spells (Json.readList Record.read)
      (Json.layout (depth + 1) (.array (b.prompts.map Record.toJson))) b.prompts :=
    Json.spells_layout_array fun r _ => spells_record (depth + 2) r
  have hmembers := Json.members_layoutMembers_cons (Json.separator_first (depth + 1))
    (takes_prompts hprompts.fills_layout)
    (Json.members_layoutMembers_nil (depth + 1) depth false [','] _)
  exact Json.spells_layout_object readPositional hmembers rfl

/-- What is written for a batch is UTF-8, and reading it gives this batch. -/
theorem ofDocument_pretty (b : Batch) :
    Utf8.decode (Utf8.encode b.toJson.pretty) = .ok b.toJson.pretty ∧
      ofDocument b.toJson.pretty = .ok b := by
  have h := Json.readDocument_of_spells (spells_batch 0 b) Json.gap_nil Json.gap_nil
  rw [List.nil_append, List.append_nil] at h
  exact ⟨Utf8.decode_encode _, h⟩

end Subword.Batch
