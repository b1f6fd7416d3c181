import Subword.Proofs.Batch.Composition

/-!
The normal form of batches. Main statement: the batches of contents are those whose prompts are trimmed lines
that are not blank, with their tokens. Such a batch is the batch of its own prompts, and neither carriage returns
before the line feeds of a content nor white space around its lines change the batch.
-/
namespace Subword.Batch

/-- The record holds a trimmed line that is not blank, with its tokens and their number. -/
structure Record.Normal (p : Provider) (r : Record) : Prop where
  nonempty : r.text ≠ []
  one_line : '\n' ∉ r.text
  starts : ∀ c ∈ r.text.head?, Text.isBlank c = false
  ends : ∀ c ∈ r.text.getLast?, Text.isBlank c = false
  tokens : p.encode r.text = .ok r.tokens
  tokenCount : r.tokenCount = r.tokens.length.toUInt64

/-- The prompts of a batch, one on each line. -/
def joined (b : Batch) : Text := ['\n'].intercalate (b.prompts.map (·.text))

def withReturns (t : Text) : Text := t.flatMap fun c => if c = '\n' then ['\r', '\n'] else [c]

/-- White space is added at the start and the end of a line. The end may be before a carriage return. -/
inductive Padded : Text → Text → Prop
  | around (before line behind : Text) (hbefore : Text.Blank before) (hbehind : Text.Blank behind) :
    Padded line (before ++ (line ++ behind))
  | beforeReturn (before line behind : Text) (hbefore : Text.Blank before)
      (hbehind : Text.Blank behind) :
    Padded (line ++ ['\r']) (before ++ (line ++ (behind ++ ['\r'])))

/-- The contents have the same lines, but for white space that is added around those of the first. -/
structure Pads (content padded : Text) (lines : List Text) (tail : Text) (lines' : List Text)
    (tail' : Text) : Prop where
  content : Cut '\n' content lines tail
  padded : Cut '\n' padded lines' tail'
  lines : List.Forall₂ Padded (lines ++ [tail]) (lines' ++ [tail'])

variable {p : Provider} {batch : Batch} {content padded line line' t : Text}

theorem blank_return : Text.Blank ['\r'] := List.forall_mem_singleton.mpr rfl

theorem Padded.trim_eq (h : Padded line line') : Text.trim line' = Text.trim line := by
  cases h with
  | around before _ behind hbefore hbehind =>
    rw [Text.trim_blank_append _ hbefore, Text.trim_append_blank _ hbehind]
  | beforeReturn before line behind hbefore hbehind =>
    rw [Text.trim_blank_append _ hbefore, ← List.append_assoc, Text.trim_append_blank _ blank_return,
      Text.trim_append_blank _ hbehind, Text.trim_append_blank _ blank_return]

theorem Pads.promptLines_eq {lines lines' : List Text} {tail tail' : Text}
    (h : Pads content padded lines tail lines' tail') : promptLines padded = promptLines content := by
  have htrims : (lines' ++ [tail']).map Text.trim = (lines ++ [tail]).map Text.trim := by
    have hall := h.lines
    generalize lines ++ [tail] = ls at hall
    generalize lines' ++ [tail'] = ls' at hall
    induction hall with
    | nil => rfl
    | cons hline _ ih => rw [List.map_cons, List.map_cons, hline.trim_eq, ih]
  rw [promptLines_of_cut h.padded, promptLines_of_cut h.content, htrims]

theorem withReturns_of_not_mem (h : '\n' ∉ t) : withReturns t = t := by
  unfold withReturns
  induction t with
  | nil => rfl
  | cons c t ih =>
    obtain ⟨hc, ht⟩ := List.ne_and_not_mem_of_not_mem_cons h
    rw [List.flatMap_cons, if_neg hc.symm, ih ht]
    rfl

/-- A carriage return before the line feed is white space at the end of the line. -/
theorem pads_withReturns {lines : List Text} {tail : Text} (h : Cut '\n' content lines tail) :
    Pads content (withReturns content) lines tail (lines.map (· ++ ['\r'])) tail := by
  refine ⟨h, ⟨?_, ?_, h.open_tail⟩, ?_⟩
  · obtain ⟨rfl, hlines, htail⟩ := h
    induction lines with
    | nil => exact (withReturns_of_not_mem htail).symm
    | cons line lines ih =>
      obtain ⟨hline, hrest⟩ := List.forall_mem_cons.mp hlines
      have hsplit : ∀ a b : Text, withReturns (a ++ b) = withReturns a ++ withReturns b :=
        fun a b => List.flatMap_append
      simp only [List.map_cons, List.flatMap_cons, hsplit, List.append_assoc, ih hrest,
        withReturns_of_not_mem hline]
      rfl
  · intro line hline
    obtain ⟨line, hmem, rfl⟩ := List.mem_map.mp hline
    have hreturn : '\n' ∉ ['\r'] := by decide
    exact fun hm => (List.mem_append.mp hm).elim (h.unmarked line hmem) hreturn
  · have hnone : Text.Blank [] := fun c hc => absurd hc List.not_mem_nil
    refine List.rel_append ?_ (.cons ?_ .nil)
    · rw [List.forall₂_map_right_iff]
      exact List.forall₂_same.mpr fun line _ => .around [] line ['\r'] hnone blank_return
    · simpa using Padded.around [] tail [] hnone hnone

theorem normal_of_mem_promptLines {r : Record} (hr : Records p t r) (ht : t ∈ promptLines content) :
    r.Normal p := by
  obtain ⟨lines, tail, hcut⟩ := exists_cut '\n' content
  rw [promptLines_of_cut hcut, List.mem_filter, List.mem_map] at ht
  obtain ⟨⟨line, hline, rfl⟩, hne⟩ := ht
  have hfeed : '\n' ∉ line := by
    rcases List.mem_append.mp hline with hline | hline
    · exact hcut.unmarked line hline
    · exact List.mem_singleton.mp hline ▸ hcut.open_tail
  obtain ⟨htext, htokens, hcount⟩ := hr
  refine ⟨?_, ?_, ?_, ?_, ?_, hcount⟩
  · rw [htext]
    exact of_decide_eq_true hne
  · rw [htext]
    exact mt Text.mem_of_mem_trim hfeed
  · rw [htext]
    exact Text.head_trim line
  · rw [htext]
    exact Text.last_trim line
  · rw [htext]
    exact htokens

theorem normal_of_ofLines (h : ofLines p content = .ok batch) : ∀ r ∈ batch.prompts, r.Normal p := by
  obtain ⟨hlength, hget⟩ := List.forall₂_iff_get.mp (ofLines_eq_ok_iff.mp h)
  intro r hr
  obtain ⟨i, hi, rfl⟩ := List.getElem_of_mem hr
  have hi' : i < (promptLines content).length := hlength ▸ hi
  exact normal_of_mem_promptLines (hget i hi' hi) (List.getElem_mem hi')

theorem Record.Normal.records {r : Record} (h : r.Normal p) : Records p r.text r :=
  ⟨rfl, h.tokens, h.tokenCount⟩

theorem Record.Normal.promptLines_eq {r : Record} (h : r.Normal p) : promptLines r.text = [r.text] := by
  rw [promptLines_of_not_mem h.one_line, Text.trim_of_ends h.starts h.ends]
  simp [h.nonempty]

theorem promptLines_intercalate {rs : List Record} (h : ∀ r ∈ rs, r.Normal p) :
    promptLines (['\n'].intercalate (rs.map (·.text))) = rs.map (·.text) := by
  induction rs with
  | nil => rfl
  | cons r rs ih =>
    obtain ⟨hr, hrs⟩ := List.forall_mem_cons.mp h
    cases rs with
    | nil =>
      rw [List.map_singleton, List.intercalate_singleton]
      exact hr.promptLines_eq
    | cons s rs =>
      have hjoin : ['\n'].intercalate ((r :: s :: rs).map (·.text)) =
          r.text ++ '\n' :: ['\n'].intercalate ((s :: rs).map (·.text)) := by
        simp [List.intercalate_cons_cons]
      rw [hjoin, promptLines_append_newline, hr.promptLines_eq, ih hrs]
      rfl

/-- A batch in normal form is the batch of its own prompts. -/
theorem ofLines_joined (h : ∀ r ∈ batch.prompts, r.Normal p) : ofLines p batch.joined = .ok batch := by
  apply ofLines_eq_ok_iff.mpr
  rw [joined, promptLines_intercalate h, List.forall₂_map_left_iff]
  exact List.forall₂_same.mpr fun r hr => (h r hr).records

theorem ofLines_of_pads {lines lines' : List Text} {tail tail' : Text}
    (h : Pads content padded lines tail lines' tail') : ofLines p padded = ofLines p content := by
  rw [ofLines, ofLines, h.promptLines_eq]

theorem ofLines_withReturns (p : Provider) (content : Text) :
    ofLines p (withReturns content) = ofLines p content := by
  obtain ⟨lines, tail, hcut⟩ := exists_cut '\n' content
  exact ofLines_of_pads (pads_withReturns hcut)

theorem foldl_tokenCount {rs : List Record} (h : ∀ r ∈ rs, r.tokenCount = r.tokens.length.toUInt64)
    (n : Nat) : rs.foldl (fun total r => total + r.tokenCount) n.toUInt64 =
      (n + (rs.flatMap (·.tokens)).length).toUInt64 := by
  induction rs generalizing n with
  | nil => rfl
  | cons r rs ih =>
    obtain ⟨hr, hrs⟩ := List.forall_mem_cons.mp h
    have hadd : n.toUInt64 + r.tokens.length.toUInt64 = (n + r.tokens.length).toUInt64 :=
      (UInt64.ofNat_add _ _).symm
    rw [List.foldl_cons, hr, hadd, ih hrs, List.flatMap_cons, List.length_append, Nat.add_assoc]

theorem totalTokens_of_normal (h : ∀ r ∈ batch.prompts, r.Normal p) :
    batch.totalTokens = (batch.prompts.flatMap (·.tokens)).length.toUInt64 := by
  have hfold := foldl_tokenCount (fun r hr => (h r hr).tokenCount) 0
  rwa [Nat.zero_add] at hfold

theorem length_tokens_le {r : Record} (hr : r ∈ batch.prompts) :
    r.tokens.length ≤ (batch.prompts.flatMap (·.tokens)).length := by
  rw [List.flatMap_def]
  exact (List.sublist_flatten_of_mem (List.mem_map_of_mem hr)).length_le

/-- The batches of contents are those in normal form. Such a batch counts all of its tokens; it is the batch of
its own prompts, and of each content that has carriage returns before its line feeds or white space around its
lines besides. Counts are words of 64 bits, which are the numbers themselves as long as these fit. -/
theorem ofLines_normalForm (p : Provider) (batch : Batch) :
    ((∃ content, ofLines p content = .ok batch) ↔ ∀ r ∈ batch.prompts, r.Normal p) ∧
    ∀ content, ofLines p content = .ok batch →
      let tokens := batch.prompts.flatMap (·.tokens)
      batch.totalTokens = tokens.length.toUInt64 ∧
      (tokens.length < UInt64.size → batch.totalTokens.toNat = tokens.length ∧
        ∀ r ∈ batch.prompts, r.tokenCount.toNat = r.tokens.length) ∧
      ofLines p batch.joined = .ok batch ∧
      ofLines p (withReturns content) = .ok batch ∧
      ∀ padded lines tail lines' tail', Pads content padded lines tail lines' tail' →
        ofLines p padded = .ok batch := by
  constructor
  · constructor
    · rintro ⟨content, h⟩
      exact normal_of_ofLines h
    · intro h
      exact ⟨batch.joined, ofLines_joined h⟩
  intro content h tokens
  have hnormal := normal_of_ofLines h
  have htotal : batch.totalTokens = tokens.length.toUInt64 := totalTokens_of_normal hnormal
  refine ⟨htotal, ?_, ofLines_joined hnormal, ?_, ?_⟩
  · intro hfits
    constructor
    · rw [htotal]
      exact UInt64.toNat_ofNat_of_lt' hfits
    · intro r hr
      have hle : r.tokens.length ≤ tokens.length := length_tokens_le hr
      rw [(hnormal r hr).tokenCount]
      exact UInt64.toNat_ofNat_of_lt' (Nat.lt_of_le_of_lt hle hfits)
  · rw [ofLines_withReturns, h]
  · intro padded lines tail lines' tail' hpads
    rw [ofLines_of_pads hpads, h]

/-- One carriage return ends a line and another stands inside a prompt. White space is added before the first and
at the end of the content. -/
theorem ofLines_normalForm_returns :
    let batch : Batch := ⟨[⟨"ab".toList, [97, 98], 2⟩, ⟨"c\rd".toList, [99, 100], 2⟩]⟩
    ofLines .charLevel "ab\r\nc\rd".toList = .ok batch ∧
    (∀ r ∈ batch.prompts, r.Normal .charLevel) ∧ batch.totalTokens.toNat = 4 ∧
    ofLines .charLevel "ab\nc\rd".toList = .ok batch ∧
    ofLines .charLevel "ab\r\r\nc\rd".toList = .ok batch ∧
    ofLines .charLevel " ab\u3000\r\nc\rd\t".toList = .ok batch := by
  intro batch
  have hbatch : ofLines .charLevel "ab\r\nc\rd".toList = .ok batch := rfl
  obtain ⟨hnormal, hcontents⟩ := ofLines_normalForm .charLevel batch
  obtain ⟨-, hcounts, hjoined, hreturns, hpads⟩ := hcontents _ hbatch
  have hcut : Cut '\n' "ab\r\nc\rd".toList ["ab\r".toList] "c\rd".toList :=
    ⟨by decide, by decide, by decide⟩
  have hcut' : Cut '\n' " ab\u3000\r\nc\rd\t".toList [" ab\u3000\r".toList] "c\rd\t".toList :=
    ⟨by decide, by decide, by decide⟩
  have hfirst : Padded "ab\r".toList " ab\u3000\r".toList :=
    .beforeReturn [' '] "ab".toList ['\u3000'] (List.forall_mem_singleton.mpr rfl)
      (List.forall_mem_singleton.mpr rfl)
  have hsecond : Padded "c\rd".toList "c\rd\t".toList :=
    .around [] "c\rd".toList ['\t'] (fun c hc => absurd hc List.not_mem_nil)
      (List.forall_mem_singleton.mpr rfl)
  refine ⟨hbatch, hnormal.mp ⟨_, hbatch⟩, (hcounts (by decide)).1, hjoined, hreturns, ?_⟩
  exact hpads _ _ _ _ _ ⟨hcut, hcut', .cons hfirst (.cons hsecond .nil)⟩

end Subword.Batch
