import Mathlib.Data.List.Basic
import Mathlib.Data.List.Induction
import Subword.Text.Lines

/-!
Cuts behind each end mark. A list is some lines, each with a mark behind it, and a tail without one; cutting
gives back the lines with their marks, and the tail unless it is empty. The lines of a text are read off its
line feeds in this way, one at a time. Lines behind a list that has marks of its own are read off its end.
-/
namespace Subword

/-- The list is made up of these lines, each with the mark behind it, and the tail; no mark stands inside
a line or in the tail. -/
structure Cut {α : Type} (mark : α) (l : List α) (lines : List (List α)) (tail : List α) : Prop where
  joined : lines.flatMap (· ++ [mark]) ++ tail = l
  unmarked : ∀ line ∈ lines, mark ∉ line
  open_tail : mark ∉ tail

theorem exists_cut {α : Type} (mark : α) (l : List α) : ∃ lines tail, Cut mark l lines tail := by
  induction l with
  | nil => exact ⟨[], [], rfl, by simp, by simp⟩
  | cons a l ih =>
    obtain ⟨lines, tail, rfl, hlines, htail⟩ := ih
    by_cases ha : a = mark
    · subst ha
      exact ⟨[] :: lines, tail, rfl, by simpa using hlines, htail⟩
    · cases lines with
      | nil => exact ⟨[], a :: tail, rfl, by simp, by simp [Ne.symm ha, htail]⟩
      | cons line lines =>
        obtain ⟨hline, hrest⟩ := List.forall_mem_cons.mp hlines
        refine ⟨(a :: line) :: lines, tail, rfl, ?_, htail⟩
        exact List.forall_mem_cons.mpr ⟨by simp [Ne.symm ha, hline], hrest⟩

theorem Cut.append_lines {α : Type} {mark : α} {l tail : List α} {before lines : List (List α)}
    (h : Cut mark l lines tail) (hb : ∀ line ∈ before, mark ∉ line) :
    Cut mark (before.flatMap (· ++ [mark]) ++ l) (before ++ lines) tail := by
  refine ⟨?_, ?_, h.open_tail⟩
  · rw [List.flatMap_append, List.append_assoc, h.joined]
  · intro line hm
    rcases List.mem_append.mp hm with hm | hm
    · exact hb line hm
    · exact h.unmarked line hm

/-- What holds of a single line and is kept where two lists are joined by the mark holds of every list. -/
theorem induction_on_lines {α : Type} (mark : α) {motive : List α → Prop}
    (line : ∀ l, mark ∉ l → motive l)
    (joined : ∀ a b, motive a → motive b → motive (a ++ mark :: b)) (l : List α) : motive l := by
  obtain ⟨lines, tail, rfl, hlines, htail⟩ := exists_cut mark l
  induction lines with
  | nil => exact line tail htail
  | cons first lines ih =>
    obtain ⟨hfirst, hrest⟩ := List.forall_mem_cons.mp hlines
    have hjoined := joined first _ (line first hfirst) (ih hrest)
    simpa using hjoined

variable {α : Type} [BEq α] [LawfulBEq α] {mark : α}

theorem cutBehind_of_not_mem {l : List α} (hl : l ≠ []) (hm : mark ∉ l) :
    cutBehind (· == mark) l = [l] := by
  induction l with
  | nil => exact absurd rfl hl
  | cons a l ih =>
    obtain ⟨ha, hrest⟩ := List.ne_and_not_mem_of_not_mem_cons hm
    have hne : (a == mark) = false := beq_false_of_ne ha.symm
    rw [cutBehind, hne]
    cases l with
    | nil => rfl
    | cons b l => simp [ih (by simp) hrest]

theorem cutBehind_append_mark {line : List α} (hm : mark ∉ line) (rest : List α) :
    cutBehind (· == mark) (line ++ mark :: rest) =
      (line ++ [mark]) :: cutBehind (· == mark) rest := by
  induction line with
  | nil => simp [cutBehind]
  | cons a line ih =>
    obtain ⟨ha, hline⟩ := List.ne_and_not_mem_of_not_mem_cons hm
    have hne : (a == mark) = false := beq_false_of_ne ha.symm
    rw [List.cons_append, cutBehind, hne, ih hline]
    rfl

/-- Cutting gives the lines with their marks, and the tail unless it is empty. -/
theorem Cut.cutBehind_eq {l tail : List α} {lines : List (List α)} (h : Cut mark l lines tail) :
    cutBehind (· == mark) l = lines.map (· ++ [mark]) ++ if tail = [] then [] else [tail] := by
  obtain ⟨rfl, hlines, htail⟩ := h
  induction lines with
  | nil =>
    by_cases ht : tail = []
    · subst ht
      rfl
    · simpa [ht] using cutBehind_of_not_mem ht htail
  | cons line lines ih =>
    obtain ⟨hline, hrest⟩ := List.forall_mem_cons.mp hlines
    simp only [List.flatMap_cons, List.append_assoc, List.cons_append, List.nil_append, List.map_cons]
    rw [cutBehind_append_mark hline, ih hrest]

/-- There are as many marks as there are lines that end with one. -/
theorem Cut.count_mark {l tail : List α} {lines : List (List α)} (h : Cut mark l lines tail) :
    l.count mark = lines.length := by
  obtain ⟨rfl, hlines, htail⟩ := h
  induction lines with
  | nil => exact List.count_eq_zero.mpr htail
  | cons line lines ih =>
    obtain ⟨hline, hrest⟩ := List.forall_mem_cons.mp hlines
    have hnone : line.count mark = 0 := List.count_eq_zero.mpr hline
    have hcount := ih hrest
    simp only [List.flatMap_cons, List.append_assoc, List.count_append, hnone] at hcount ⊢
    rw [hcount, List.count_singleton_self, List.length_cons]
    omega

/-- What a list ends with is what its tail ends with, unless it is the mark. -/
theorem Cut.getLast?_eq_some_iff {α : Type} {mark a : α} {l tail : List α} {lines : List (List α)}
    (h : Cut mark l lines tail) (ha : a ≠ mark) :
    l.getLast? = some a ↔ tail.getLast? = some a := by
  obtain ⟨rfl, -, -⟩ := h
  by_cases htail : tail = []
  · subst htail
    rcases List.eq_nil_or_concat' lines with rfl | ⟨before, line, rfl⟩
    · rfl
    · have hlast : (before ++ [line]).flatMap (· ++ [mark]) =
          before.flatMap (· ++ [mark]) ++ line ++ [mark] := by simp
      rw [List.append_nil, hlast, List.getLast?_concat]
      simp [ha.symm]
  · rw [List.getLast?_append_of_ne_nil _ htail]

/-- A line is read off the end of a list, whatever stands before its mark. -/
theorem append_mark_inj {α : Type} {mark : α} {a b s t : List α} (hs : mark ∉ s) (ht : mark ∉ t)
    (h : a ++ mark :: s = b ++ mark :: t) : a = b ∧ s = t := by
  -- were one front longer than the other, the line of the other would have a mark in it
  rcases List.append_eq_append_iff.mp h with ⟨x, rfl, hx⟩ | ⟨x, rfl, hx⟩
  · cases x with
    | nil => exact ⟨(List.append_nil a).symm, (List.cons.inj hx).2⟩
    | cons y x =>
      obtain ⟨-, rfl⟩ := List.cons.inj hx
      exact absurd (List.mem_append_right x List.mem_cons_self) hs
  · cases x with
    | nil => exact ⟨List.append_nil b, (List.cons.inj hx).2.symm⟩
    | cons y x =>
      obtain ⟨-, rfl⟩ := List.cons.inj hx
      exact absurd (List.mem_append_right x List.mem_cons_self) ht

/-- Lines are read off the end of a list one after the other, if their number is known. -/
theorem append_lines_inj {α : Type} {mark : α} {a b : List α} {ls ms : List (List α)}
    (hlength : ls.length = ms.length) (hls : ∀ line ∈ ls, mark ∉ line)
    (hms : ∀ line ∈ ms, mark ∉ line)
    (h : a ++ ls.flatMap (mark :: ·) = b ++ ms.flatMap (mark :: ·)) : a = b ∧ ls = ms := by
  induction ls using List.reverseRecOn generalizing ms with
  | nil =>
    obtain rfl := List.length_eq_zero_iff.mp hlength.symm
    exact ⟨by simpa using h, rfl⟩
  | append_singleton ls last ih =>
    rcases List.eq_nil_or_concat' ms with rfl | ⟨ms, last', rfl⟩
    · simp at hlength
    obtain ⟨hfront, hlast⟩ := List.forall_mem_append.mp hls
    obtain ⟨hfront', hlast'⟩ := List.forall_mem_append.mp hms
    have hmark : mark ∉ last := hlast last List.mem_cons_self
    have hmark' : mark ∉ last' := hlast' last' List.mem_cons_self
    simp only [List.flatMap_append, List.flatMap_singleton, ← List.append_assoc] at h
    obtain ⟨hbefore, rfl⟩ := append_mark_inj hmark hmark' h
    obtain ⟨rfl, rfl⟩ := ih (by simpa using hlength) hfront hfront' hbefore
    exact ⟨rfl, rfl⟩

theorem dropLastIf_append_ite {β : Type} [DecidableEq β] (b : β) (l : List β) :
    dropLastIf b l ++ (if l.getLast? = some b then [b] else []) = l := by
  unfold dropLastIf
  split
  · rename_i h
    have hlast : b ∈ l.getLast? := h
    exact List.dropLast_append_getLast? b hlast
  · exact List.append_nil l

theorem Text.lines_of_not_mem {t : Text} (ht : t ≠ []) (hm : '\n' ∉ t) : Text.lines t = [t] := by
  have hlast : t.getLast? ≠ some '\n' := fun h => hm (List.mem_of_getLast? h)
  unfold Text.lines
  rw [cutBehind_of_not_mem ht hm, List.map_singleton, if_neg hlast]

/-- A line feed ends the line before it, whatever stands behind. -/
theorem Text.lines_append_newline {line : Text} (hm : '\n' ∉ line) (rest : Text) :
    Text.lines (line ++ '\n' :: rest) = dropLastIf '\r' line :: Text.lines rest := by
  have hlast : (line ++ ['\n']).getLast? = some '\n' := List.getLast?_concat
  unfold Text.lines
  rw [cutBehind_append_mark hm, List.map_cons, if_pos hlast, List.dropLast_concat]

theorem Text.lines_of_cut {t tail : Text} {lines : List Text} (h : Cut '\n' t lines tail) :
    Text.lines t = lines.map (dropLastIf '\r') ++ if tail = [] then [] else [tail] := by
  obtain ⟨rfl, hlines, htail⟩ := h
  induction lines with
  | nil =>
    by_cases hempty : tail = []
    · subst hempty
      rfl
    · simpa [hempty] using Text.lines_of_not_mem hempty htail
  | cons line lines ih =>
    obtain ⟨hline, hrest⟩ := List.forall_mem_cons.mp hlines
    have hcons : (line :: lines).flatMap (· ++ ['\n']) ++ tail =
        line ++ '\n' :: (lines.flatMap (· ++ ['\n']) ++ tail) := by simp
    rw [hcons, Text.lines_append_newline hline, ih hrest]
    rfl

end Subword
