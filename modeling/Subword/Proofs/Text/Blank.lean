import Mathlib.Data.List.TakeWhile
import Subword.Text.Blank

/-!
Trimming takes blanks away and nothing else. Main statements: a text is its trimmed text between blanks, a
trimmed text has no blank at either end, and blanks there do not change what trimming leaves.
-/
namespace Subword.Text

def Blank (t : Text) : Prop := ∀ c ∈ t, isBlank c = true

variable {t ws : Text}

theorem trimStart_of_blank (h : Blank t) : trimStart t = [] := List.dropWhile_eq_nil_iff.mpr h

theorem trimEnd_append_blank (t : Text) (h : Blank ws) : trimEnd (t ++ ws) = trimEnd t := by
  have hrev : ∀ c ∈ ws.reverse, isBlank c = true := fun c hc => h c (List.mem_reverse.mp hc)
  unfold trimEnd
  rw [List.reverse_append, List.dropWhile_append_of_pos hrev]

theorem trim_blank_append (t : Text) (h : Blank ws) : trim (ws ++ t) = trim t := by
  unfold trim trimStart
  rw [List.dropWhile_append_of_pos h]

theorem trim_append_blank (t : Text) (h : Blank ws) : trim (t ++ ws) = trim t := by
  have hstart : trimStart (t ++ ws) =
      if (trimStart t).isEmpty then trimStart ws else trimStart t ++ ws := List.dropWhile_append
  unfold trim
  rw [hstart]
  split
  · rename_i hempty
    rw [trimStart_of_blank h, List.isEmpty_iff.mp hempty]
  · exact trimEnd_append_blank _ h

theorem exists_trimEnd (t : Text) : ∃ behind, trimEnd t ++ behind = t ∧ Blank behind := by
  refine ⟨(t.reverse.takeWhile isBlank).reverse, ?_, ?_⟩
  · unfold trimEnd
    rw [← List.reverse_append, List.takeWhile_append_dropWhile, List.reverse_reverse]
  · exact fun c hc => List.mem_takeWhile_imp (List.mem_reverse.mp hc)

/-- What trimming takes away on either side is blank. -/
theorem exists_trim (t : Text) :
    ∃ before behind, before ++ (trim t ++ behind) = t ∧ Blank before ∧ Blank behind := by
  obtain ⟨behind, hbehind, hblank⟩ := exists_trimEnd (trimStart t)
  have hstart : t.takeWhile isBlank ++ trimStart t = t := List.takeWhile_append_dropWhile
  refine ⟨t.takeWhile isBlank, behind, ?_, fun c hc => List.mem_takeWhile_imp hc, hblank⟩
  unfold trim
  rw [hbehind, hstart]

theorem mem_of_mem_trim {t : Text} {c : Char} (h : c ∈ trim t) : c ∈ t := by
  obtain ⟨before, behind, ht, -, -⟩ := exists_trim t
  rw [← ht]
  exact List.mem_append_right before (List.mem_append_left behind h)

theorem head_trim (t : Text) : ∀ c ∈ (trim t).head?, isBlank c = false := by
  intro c hc
  obtain ⟨behind, hbehind, -⟩ := exists_trimEnd (trimStart t)
  have hhead : (trimStart t).head? = some c := by
    rw [← hbehind, List.head?_append, show (trimEnd (trimStart t)).head? = some c from hc]
    rfl
  exact head_trimStart t c hhead

theorem last_trim (t : Text) : ∀ c ∈ (trim t).getLast?, isBlank c = false := last_trimEnd (trimStart t)

theorem trim_of_ends (hhead : ∀ c ∈ t.head?, isBlank c = false)
    (hlast : ∀ c ∈ t.getLast?, isBlank c = false) : trim t = t := by
  unfold trim
  rw [trimStart_of_head hhead, trimEnd_of_last hlast]

end Subword.Text
