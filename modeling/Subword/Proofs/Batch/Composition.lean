import Subword.Batch.Basic
import Subword.Proofs.Except
import Subword.Proofs.Text.Blank
import Subword.Proofs.Text.Lines
import Subword.Provider.CharLevel

/-!
Batches compose. Main statement: a content that is joined of two by a line feed has the prompts of the first
and then those of the second, or the first failure of the two. Together with the batch of one line this fixes
the batch of every content.
-/
namespace Subword.Batch

/-- Contents get their batches line by line: a line that is not blank is one prompt, and at a line feed the
batches of what stands before and behind it are put together, unless one of them fails. -/
structure ByLines (p : Provider) (batch : Text → Except EncodingError Batch) : Prop where
  blank : ∀ line, '\n' ∉ line → Text.trim line = [] → batch line = .ok ⟨[]⟩
  prompt : ∀ line, '\n' ∉ line → Text.trim line ≠ [] → batch line =
    match p.encode (Text.trim line) with
    | .error e => .error e
    | .ok ids => .ok ⟨[⟨Text.trim line, ids, ids.length.toUInt64⟩]⟩
  joined : ∀ a b, batch (a ++ '\n' :: b) =
    match batch a with
    | .error e => .error e
    | .ok first =>
      match batch b with
      | .error e => .error e
      | .ok second => .ok ⟨first.prompts ++ second.prompts⟩

structure Records (p : Provider) (prompt : Text) (r : Record) : Prop where
  text : r.text = prompt
  tokens : p.encode prompt = .ok r.tokens
  tokenCount : r.tokenCount = r.tokens.length.toUInt64

variable {p : Provider} {content line a b t : Text} {lines : List Text} {tail : Text}

theorem trim_dropLastIf_return (line : Text) : Text.trim (dropLastIf '\r' line) = Text.trim line := by
  have hreturn : Text.Blank (if line.getLast? = some '\r' then ['\r'] else []) := by
    split
    · exact List.forall_mem_singleton.mpr rfl
    · exact fun c hc => absurd hc List.not_mem_nil
  have hline := dropLastIf_append_ite '\r' line
  calc
    Text.trim (dropLastIf '\r' line) = Text.trim (dropLastIf '\r' line ++ _) :=
      (Text.trim_append_blank _ hreturn).symm
    _ = Text.trim line := by rw [hline]

theorem promptLines_of_not_mem (hm : '\n' ∉ line) :
    promptLines line = [Text.trim line].filter (· ≠ []) := by
  unfold promptLines
  by_cases hline : line = []
  · subst hline
    rfl
  · rw [Text.lines_of_not_mem hline hm, List.map_singleton]

theorem promptLines_cons (hm : '\n' ∉ line) (rest : Text) :
    promptLines (line ++ '\n' :: rest) = [Text.trim line].filter (· ≠ []) ++ promptLines rest := by
  unfold promptLines
  rw [Text.lines_append_newline hm, List.map_cons, trim_dropLastIf_return, ← List.filter_append,
    List.singleton_append]

theorem promptLines_of_cut (h : Cut '\n' content lines tail) :
    promptLines content = ((lines ++ [tail]).map Text.trim).filter (· ≠ []) := by
  obtain ⟨rfl, hlines, htail⟩ := h
  induction lines with
  | nil => exact promptLines_of_not_mem htail
  | cons line lines ih =>
    obtain ⟨hline, hrest⟩ := List.forall_mem_cons.mp hlines
    have hcontent : (line :: lines).flatMap (· ++ ['\n']) ++ tail =
        line ++ '\n' :: (lines.flatMap (· ++ ['\n']) ++ tail) := by simp
    rw [hcontent, promptLines_cons hline, ih hrest, ← List.filter_append]
    rfl

/-- A line feed parts the prompts of a content, wherever it stands. -/
theorem promptLines_append_newline (a b : Text) :
    promptLines (a ++ '\n' :: b) = promptLines a ++ promptLines b := by
  obtain ⟨before, last, ha⟩ := exists_cut '\n' a
  obtain ⟨lines, tail, hb⟩ := exists_cut '\n' b
  have hlines : ∀ line ∈ before ++ [last], '\n' ∉ line :=
    List.forall_mem_append.mpr ⟨ha.unmarked, List.forall_mem_singleton.mpr ha.open_tail⟩
  have hjoined : (before ++ [last]).flatMap (· ++ ['\n']) ++ b = a ++ '\n' :: b := by
    rw [← ha.joined]
    simp
  have hcut := hb.append_lines hlines
  rw [hjoined] at hcut
  rw [promptLines_of_cut hcut, promptLines_of_cut ha, promptLines_of_cut hb, ← List.filter_append,
    ← List.map_append, List.append_assoc]

theorem ofLines_byLines (p : Provider) : ByLines p (ofLines p) := by
  constructor
  · intro line hm hblank
    unfold ofLines
    rw [promptLines_of_not_mem hm, hblank]
    rfl
  · intro line hm hblank
    have hprompts : promptLines line = [Text.trim line] := by
      rw [promptLines_of_not_mem hm]
      simp [hblank]
    unfold ofLines
    rw [hprompts, List.mapM_cons, List.mapM_nil]
    unfold Record.encode
    cases p.encode (Text.trim line) <;> rfl
  · intro a b
    unfold ofLines
    rw [promptLines_append_newline, List.mapM_append]
    cases (promptLines a).mapM (Record.encode p) with
    | error e => rfl
    | ok first => cases (promptLines b).mapM (Record.encode p) <;> rfl

/-- There is one way only to go line by line. -/
theorem ByLines.unique {batch batch' : Text → Except EncodingError Batch} (h : ByLines p batch)
    (h' : ByLines p batch') : batch = batch' := by
  funext content
  induction content using induction_on_lines '\n' with
  | line l hm =>
    by_cases hblank : Text.trim l = []
    · rw [h.blank l hm hblank, h'.blank l hm hblank]
    · rw [h.prompt l hm hblank, h'.prompt l hm hblank]
  | joined a b ha hb => rw [h.joined, h'.joined, ha, hb]

theorem encode_eq_ok_iff {prompt : Text} {r : Record} :
    Record.encode p prompt = .ok r ↔ Records p prompt r := by
  unfold Record.encode
  rw [Except.map_eq_ok_iff]
  constructor
  · rintro ⟨ids, hids, rfl⟩
    exact ⟨rfl, hids, rfl⟩
  · rintro ⟨htext, htokens, hcount⟩
    refine ⟨r.tokens, htokens, ?_⟩
    rw [← htext, ← hcount]

theorem exists_encode_eq_ok_iff {prompt : Text} :
    (∃ r, Record.encode p prompt = .ok r) ↔ ∃ ids, p.encode prompt = .ok ids := by
  unfold Record.encode
  cases p.encode prompt <;> simp [Except.map]

theorem encode_eq_error_iff {prompt : Text} {e : EncodingError} :
    Record.encode p prompt = .error e ↔ p.encode prompt = .error e := by
  unfold Record.encode
  cases p.encode prompt <;> simp [Except.map]

theorem ofLines_eq_ok_iff {batch : Batch} :
    ofLines p content = .ok batch ↔ List.Forall₂ (Records p) (promptLines content) batch.prompts := by
  have hrecords : List.Forall₂ (fun t r => Record.encode p t = .ok r) (promptLines content)
      batch.prompts ↔ List.Forall₂ (Records p) (promptLines content) batch.prompts := by
    simp only [encode_eq_ok_iff]
  unfold ofLines
  rw [Except.map_eq_ok_iff, ← hrecords, ← Except.mapM_eq_ok_iff]
  constructor
  · rintro ⟨prompts, hprompts, rfl⟩
    exact hprompts
  · intro h
    exact ⟨batch.prompts, h, rfl⟩

theorem ofLines_eq_error_iff {e : EncodingError} :
    ofLines p content = .error e ↔ ∃ before prompt behind,
      promptLines content = before ++ prompt :: behind ∧
      (∀ t ∈ before, ∃ ids, p.encode t = .ok ids) ∧ p.encode prompt = .error e := by
  have hmap : ofLines p content = .error e ↔
      (promptLines content).mapM (Record.encode p) = .error e := by
    unfold ofLines
    cases (promptLines content).mapM (Record.encode p) <;> simp [Except.map]
  rw [hmap, Except.mapM_eq_error_iff]
  simp only [exists_encode_eq_ok_iff, encode_eq_error_iff]

/-- Batches are made line by line, and nothing else is. Whatever the lines of a content are, each of them that
is not blank gives one record, in their order, and the failure is that of the first of them that fails. -/
theorem ofLines_composes (p : Provider) :
    ByLines p (ofLines p) ∧
    (∀ batch, ByLines p batch → batch = ofLines p) ∧
    ∀ content lines tail, Cut '\n' content lines tail →
      let prompts := ((lines ++ [tail]).map Text.trim).filter (· ≠ [])
      (∀ batch, ofLines p content = .ok batch ↔
        List.Forall₂ (Records p) prompts batch.prompts) ∧
      ∀ e, ofLines p content = .error e ↔ ∃ before prompt behind,
        prompts = before ++ prompt :: behind ∧ (∀ t ∈ before, ∃ ids, p.encode t = .ok ids) ∧
        p.encode prompt = .error e := by
  have hlines := ofLines_byLines p
  refine ⟨hlines, fun batch h => h.unique hlines, ?_⟩
  intro content lines tail hcut
  have hprompts := promptLines_of_cut hcut
  constructor
  · intro batch
    rw [← hprompts]
    exact ofLines_eq_ok_iff
  · intro e
    rw [← hprompts]
    exact ofLines_eq_error_iff

/-- A carriage return and a line feed, a line of white space and a line without an end; a null character in the
second of three lines. -/
theorem ofLines_composes_crlf :
    ofLines .charLevel "a\r\n\u3000\n\tb".toList =
      .ok ⟨[⟨"a".toList, [97], 1⟩, ⟨"b".toList, [98], 1⟩]⟩ ∧
    ofLines .charLevel "a\n\x00\nb".toList = .error (.disallowedSpecialToken "\\0".toList) := by
  obtain ⟨-, -, hcontent⟩ := ofLines_composes .charLevel
  constructor
  · have hcut : Cut '\n' "a\r\n\u3000\n\tb".toList ["a\r".toList, ['\u3000']] "\tb".toList :=
      ⟨by decide, by decide, by decide⟩
    have hprompts : (["a\r".toList, ['\u3000'], "\tb".toList].map Text.trim).filter (· ≠ []) =
        ["a".toList, "b".toList] := by decide
    refine ((hcontent _ _ _ hcut).1 _).mpr ?_
    rw [List.cons_append, List.cons_append, List.nil_append, hprompts]
    exact .cons ⟨rfl, rfl, rfl⟩ (.cons ⟨rfl, rfl, rfl⟩ .nil)
  · have hcut : Cut '\n' "a\n\x00\nb".toList ["a".toList, ['\x00']] "b".toList :=
      ⟨by decide, by decide, by decide⟩
    have hprompts : (["a".toList, ['\x00'], "b".toList].map Text.trim).filter (· ≠ []) =
        ["a".toList] ++ ['\x00'] :: ["b".toList] := by decide
    have hfirst : ∀ t ∈ ["a".toList], ∃ ids, Provider.charLevel.encode t = .ok ids :=
      List.forall_mem_singleton.mpr ⟨[97], rfl⟩
    exact ((hcontent _ _ _ hcut).2 _).mpr ⟨_, _, _, hprompts, hfirst, rfl⟩

end Subword.Batch
