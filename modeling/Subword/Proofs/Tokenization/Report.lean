import Subword.Proofs.Breakdown
import Subword.Proofs.Sink
import Subword.Proofs.Text.Lines
import Subword.Proofs.Text.OneLine
import Subword.Proofs.Utf8.Decoding
import Subword.Session.Basic

/-!
The two reports of a tokenization, line by line. The single-shot report shows its text as it is and four lines
of figures behind it; the report of a session shows tokens escaped. Main statements: the figures and with them
the text are read back from the end of a single-shot report, and a session report has its nine lines whatever the
text and the tokens are.
-/
namespace Subword

namespace Breakdown

theorem oneLine_brackets {items : List Text} (h : ∀ item ∈ items, Text.OneLine item) :
    Text.OneLine (brackets items) := by
  have hopen : Text.OneLine "[".toList := List.all_eq_true.mp (by decide)
  have hclose : Text.OneLine "]".toList := List.all_eq_true.mp (by decide)
  have hcomma : Text.OneLine ", ".toList := List.all_eq_true.mp (by decide)
  have hitems : Text.OneLine (List.intercalate ", ".toList items) := by
    cases items with
    | nil => exact Text.oneLine_nil
    | cons item items =>
      obtain ⟨hitem, hrest⟩ := List.forall_mem_cons.mp h
      rw [intercalate_cons]
      refine hitem.append fun c hc => ?_
      obtain ⟨s, hs, hcs⟩ := List.mem_flatMap.mp hc
      exact hcomma.append (hrest s hs) c hcs
  exact hopen.append (hitems.append hclose)

theorem oneLine_more (count : Nat) : Text.OneLine (more count) := by
  have hopen : Text.OneLine "... (".toList := List.all_eq_true.mp (by decide)
  have hclose : Text.OneLine " more)".toList := List.all_eq_true.mp (by decide)
  exact (hopen.append (Text.oneLine_decimal count)).append hclose

theorem oneLine_entry (x : Entry) : Text.OneLine x.text := by
  cases x with
  | token t =>
    have hquote : Text.OneLine "\"".toList := List.all_eq_true.mp (by decide)
    exact hquote.append ((Text.oneLine_escape t).append hquote)
  | more count => exact oneLine_more count

/-- All tokens stay on one line, whatever they are made of. -/
theorem oneLine_strings (tokens : List Text) (limit : Nat) : Text.OneLine (strings tokens limit) := by
  rw [strings_eq]
  apply oneLine_brackets
  intro item hitem
  obtain ⟨x, -, rfl⟩ := List.mem_map.mp hitem
  exact oneLine_entry x

theorem oneLine_allIds (ids : List TokenId) : Text.OneLine (allIds ids) := by
  apply oneLine_brackets
  intro item hitem
  obtain ⟨id, -, rfl⟩ := List.mem_map.mp hitem
  exact Text.oneLine_decimal id.toNat

theorem oneLine_ids (all : List TokenId) (limit : Nat) : Text.OneLine (ids all limit) := by
  have hshown := oneLine_allIds (all.take limit)
  unfold ids
  rw [marker?_eq]
  apply hshown.append
  cases leftOut? all.length limit with
  | none => exact Text.oneLine_nil
  | some count =>
    have hmore : Text.OneLine (' ' :: more count) := .cons rfl (oneLine_more count)
    exact hmore

theorem allIds_injective {ids ids' : List TokenId} (h : allIds ids = allIds ids') : ids = ids' :=
  (brackets_append_inj selfDelimiting_id (congrArg (· ++ []) h)).1

end Breakdown

theorem Binary64.oneLine_fixedTwo (x : Binary64) : Text.OneLine x.fixedTwo := by
  have hsign : Text.OneLine x.sign := by
    unfold Binary64.sign
    split
    · exact .cons rfl Text.oneLine_nil
    · exact Text.oneLine_nil
  have hinfinite : Text.OneLine "inf".toList := List.all_eq_true.mp (by decide)
  have hundefined : Text.OneLine "NaN".toList := List.all_eq_true.mp (by decide)
  unfold Binary64.fixedTwo
  split
  · have hpoint : ∀ n, Text.OneLine ('.' :: Text.decimal n) := fun n => .cons rfl (Text.oneLine_decimal n)
    exact ((hsign.append (Text.oneLine_decimal _)).append (hpoint _)).append (Text.oneLine_decimal _)
  · exact hsign.append hinfinite
  · exact hundefined

namespace Tokenization

/-- The lines of the single-shot report behind the text. -/
def figures (r : Tokenization) : List Text :=
  ["Tokens: ".toList ++ Text.decimal r.tokenCount,
    "Token IDs: ".toList ++ Breakdown.allIds r.tokenIds,
    "Characters: ".toList ++ Text.decimal r.charCount,
    "Chars/Token: ".toList ++ r.charsPerToken.fixedTwo]

theorem report_eq (r : Tokenization) :
    r.report = "Text: ".toList ++ r.text ++ r.figures.flatMap ('\n' :: ·) ++ ['\n'] := by
  have hend : "\n".toList = ['\n'] := by decide
  unfold report reportWrites figures
  rw [hend]
  simp only [List.flatten_cons, List.flatten_nil, List.flatMap_cons, List.flatMap_nil, List.append_assoc,
    List.cons_append, List.nil_append, List.append_nil]

theorem oneLine_figures (r : Tokenization) : ∀ line ∈ r.figures, Text.OneLine line := by
  unfold figures
  simp only [List.forall_mem_cons]
  refine ⟨?_, ?_, ?_, ?_, fun _ h => absurd h List.not_mem_nil⟩
  · exact .labelled (by decide) (Text.oneLine_decimal _)
  · exact .labelled (by decide) (Breakdown.oneLine_allIds _)
  · exact .labelled (by decide) (Text.oneLine_decimal _)
  · exact .labelled (by decide) (Binary64.oneLine_fixedTwo _)

theorem figures_eq_iff {r r' : Tokenization} : r.figures = r'.figures ↔
    r.tokenCount = r'.tokenCount ∧ r.tokenIds = r'.tokenIds ∧ r.charCount = r'.charCount ∧
      r.charsPerToken.fixedTwo = r'.charsPerToken.fixedTwo := by
  have hdecimal : ∀ {m n : Nat}, Text.decimal m = Text.decimal n ↔ m = n :=
    fun {m n} => ⟨Text.decimal_injective, congrArg _⟩
  have hids : ∀ {ids ids' : List TokenId}, Breakdown.allIds ids = Breakdown.allIds ids' ↔ ids = ids' :=
    fun {ids ids'} => ⟨Breakdown.allIds_injective, congrArg _⟩
  unfold figures
  simp only [List.cons.injEq, and_true, List.append_cancel_left_eq, hdecimal, hids]

/-- Two tokenizations have the same report exactly if they have the same text and the same figures. The text may
imitate the lines of figures behind it, or a whole report: the figures are the last four lines. -/
theorem report_eq_iff (r r' : Tokenization) :
    Sink.unlimited.print r.report = Sink.unlimited.print r'.report ↔
      r.text = r'.text ∧ r.tokenCount = r'.tokenCount ∧ r.tokenIds = r'.tokenIds ∧
        r.charCount = r'.charCount ∧ r.charsPerToken.fixedTwo = r'.charsPerToken.fixedTwo := by
  rw [← figures_eq_iff, Sink.print_unlimited_inj]
  constructor
  · intro hreport
    rw [report_eq, report_eq] at hreport
    have hlength : r.figures.length = r'.figures.length := rfl
    have hlines := Text.newline_not_mem_lines (oneLine_figures r)
    have hlines' := Text.newline_not_mem_lines (oneLine_figures r')
    obtain ⟨htext, hfigures⟩ :=
      append_lines_inj hlength hlines hlines' (List.append_cancel_right hreport)
    exact ⟨List.append_cancel_left htext, hfigures⟩
  · rintro ⟨htext, hfigures⟩
    rw [report_eq, report_eq, htext, hfigures]

def sessionLines (r : Tokenization) (limits : Breakdown.Limits) : List Text :=
  [[],
    "--- Tokenization Results ---".toList,
    "Token count: ".toList ++ Text.decimal r.tokenCount,
    "Characters: ".toList ++ Text.decimal r.charCount,
    "Avg chars/token: ".toList ++ r.charsPerToken.fixedTwo,
    [],
    "Tokens (".toList ++ Text.decimal r.tokenCount ++ "): ".toList ++
      Breakdown.strings r.tokenStrings limits.strings,
    [],
    "Token IDs: ".toList ++ Breakdown.ids r.tokenIds limits.ids]

theorem sessionReport_eq (r : Tokenization) (limits : Breakdown.Limits) :
    r.sessionReport limits = (r.sessionLines limits).flatMap (· ++ ['\n']) := by
  have hheading : "\n--- Tokenization Results ---\n".toList =
      '\n' :: "--- Tokenization Results ---".toList ++ ['\n'] := by decide
  have hend : "\n".toList = ['\n'] := by decide
  have hblank : "\n\n".toList = ['\n', '\n'] := by decide
  unfold sessionReport sessionWrites sessionLines
  rw [hheading, hend, hblank]
  simp only [List.flatten_cons, List.flatten_nil, List.flatMap_cons, List.flatMap_nil, List.append_assoc,
    List.cons_append, List.nil_append, List.append_nil]

theorem oneLine_sessionLines (r : Tokenization) (limits : Breakdown.Limits) :
    ∀ line ∈ r.sessionLines limits, Text.OneLine line := by
  have hheading : Text.OneLine "--- Tokenization Results ---".toList := List.all_eq_true.mp (by decide)
  have hcount : Text.OneLine ("Tokens (".toList ++ Text.decimal r.tokenCount) :=
    .labelled (by decide) (Text.oneLine_decimal _)
  have hcolon : Text.OneLine "): ".toList := List.all_eq_true.mp (by decide)
  unfold sessionLines
  simp only [List.forall_mem_cons]
  refine ⟨Text.oneLine_nil, hheading, ?_, ?_, ?_, Text.oneLine_nil, ?_, Text.oneLine_nil, ?_,
    fun _ h => absurd h List.not_mem_nil⟩
  · exact .labelled (by decide) (Text.oneLine_decimal _)
  · exact .labelled (by decide) (Text.oneLine_decimal _)
  · exact .labelled (by decide) (Binary64.oneLine_fixedTwo _)
  · exact (hcount.append hcolon).append (Breakdown.oneLine_strings _ _)
  · exact .labelled (by decide) (Breakdown.oneLine_ids _ _)

theorem cut_sessionReport (r : Tokenization) (limits : Breakdown.Limits) :
    Cut '\n' (r.sessionReport limits) (r.sessionLines limits) [] := by
  refine ⟨?_, ?_, List.not_mem_nil⟩
  · rw [sessionReport_eq, List.append_nil]
  · exact Text.newline_not_mem_lines (oneLine_sessionLines r limits)

/-- The report of a turn is nine lines, whatever the text and the tokens contain: cut behind its line feeds it is
the blank lines, the heading, the three figures, all tokens on one line and all ids on another. Besides the nine
line feeds there is no control character in it and no separator of lines. -/
theorem render_report_lines (r : Tokenization) (limits : Breakdown.Limits) :
    ∃ sink t, Sink.unlimited.print ((Session.Turn.report r).render limits) = .ok sink ∧
      Utf8.decode sink.kept = .ok t ∧ t.count '\n' = 9 ∧
      (∀ c ∈ t, c = '\n' ∨ Text.keepsLine c = true) ∧
      cutBehind (· == '\n') t = (r.sessionLines limits).map (· ++ ['\n']) := by
  have hcut := cut_sessionReport r limits
  have hrender : (Session.Turn.report r).render limits = r.sessionReport limits := rfl
  have hprint := Sink.print_unlimited (r.sessionReport limits)
  have hcount : (r.sessionReport limits).count '\n' = 9 := hcut.count_mark
  rw [hrender]
  refine ⟨⟨Utf8.encode (r.sessionReport limits), none⟩, r.sessionReport limits, hprint, ?_, hcount, ?_, ?_⟩
  · rw [Utf8.decode_encode]
  · intro c hc
    rw [sessionReport_eq] at hc
    obtain ⟨line, hline, hmem⟩ := List.mem_flatMap.mp hc
    rcases List.mem_append.mp hmem with hinside | hend
    · exact Or.inr (oneLine_sessionLines r limits line hline c hinside)
    · exact Or.inl (List.mem_singleton.mp hend)
  · rw [hcut.cutBehind_eq, if_pos rfl, List.append_nil]

end Tokenization
end Subword
