import Mathlib.Data.List.Infix
import Subword.Encoding.Basic
import Subword.Proofs.Text.Blank

/-!
Special tokens in a text. Main statements: the one that is found is the one at the lowest position, and a
character that no special token has in it, such as white space, parts a text into two that can be searched one
after the other.
-/
namespace Subword.Encoding

/-- The special token stands in the text, and none stands at a lower position. -/
structure StandsFirst (e : Encoding) (token t : Text) : Prop where
  special : token ∈ e.specialTokens
  position : ∃ i, token <+: t.drop i ∧ ∀ j < i, ∀ other ∈ e.specialTokens, ¬other <+: t.drop j

def Foreign (e : Encoding) (c : Char) : Prop := ∀ token ∈ e.specialTokens, c ∉ token

variable {e : Encoding} {token other t a b : Text} {c : Char}

theorem special_ne_nil (h : token ∈ e.specialTokens) : token ≠ [] := by
  have hall : ∀ token ∈ e.specialTokens, token ≠ [] := by cases e <;> decide
  exact hall token h

/-- No special token has another one in it. -/
theorem special_eq_of_infix (h : token ∈ e.specialTokens) (h' : other ∈ e.specialTokens)
    (hin : token <:+: other) : token = other := by
  have hall : ∀ a ∈ e.specialTokens, ∀ b ∈ e.specialTokens, a <:+: b → a = b := by cases e <;> decide
  exact hall token h other h' hin

theorem special_eq_of_start (h : token ∈ e.specialTokens) (h' : other ∈ e.specialTokens)
    (hp : token <+: other) : token = other := special_eq_of_infix h h' hp.isInfix

theorem foreign_of_isBlank (e : Encoding) (h : Text.isBlank c = true) : e.Foreign c := by
  have hall : e.specialTokens.all (·.all (!Text.isBlank ·)) = true := by cases e <;> decide
  intro token htoken hc
  have hnot := List.all_eq_true.mp (List.all_eq_true.mp hall token htoken) c hc
  rw [h] at hnot
  cases hnot

/-- A text starts with one special token at most. -/
theorem specialAtStart?_eq_some_iff :
    e.specialAtStart? t = some token ↔ token ∈ e.specialTokens ∧ token <+: t := by
  unfold specialAtStart?
  constructor
  · intro h
    have hp := List.find?_some h
    exact ⟨List.mem_of_find?_eq_some h, List.isPrefixOf_iff_prefix.mp hp⟩
  · rintro ⟨htoken, hp⟩
    cases h : e.specialTokens.find? (·.isPrefixOf t) with
    | none =>
      have hnone := List.find?_eq_none.mp h token htoken
      exact absurd (List.isPrefixOf_iff_prefix.mpr hp) hnone
    | some other =>
      have hother := List.mem_of_find?_eq_some h
      have hp' := List.find?_some h
      rw [List.isPrefixOf_iff_prefix] at hp'
      rcases List.prefix_or_prefix_of_prefix hp' hp with hle | hle
      · rw [special_eq_of_start hother htoken hle]
      · rw [special_eq_of_start htoken hother hle]

theorem specialAtStart?_eq_none_iff :
    e.specialAtStart? t = none ↔ ∀ token ∈ e.specialTokens, ¬token <+: t := by
  unfold specialAtStart?
  rw [List.find?_eq_none]
  simp only [List.isPrefixOf_iff_prefix]

theorem specialAtStart?_nil (e : Encoding) : e.specialAtStart? [] = none := by
  rw [specialAtStart?_eq_none_iff]
  intro token htoken hp
  exact special_ne_nil htoken (List.prefix_nil.mp hp)

theorem leftmostSpecial?_of_some (h : e.specialAtStart? (c :: t) = some token) :
    e.leftmostSpecial? (c :: t) = some token := by
  rw [leftmostSpecial?, h]

theorem leftmostSpecial?_of_none (h : e.specialAtStart? (c :: t) = none) :
    e.leftmostSpecial? (c :: t) = e.leftmostSpecial? t := by
  rw [leftmostSpecial?, h]

theorem standsFirst_nil : ¬e.StandsFirst token [] := by
  rintro ⟨htoken, i, hp, -⟩
  rw [List.drop_nil] at hp
  exact special_ne_nil htoken (List.prefix_nil.mp hp)

theorem standsFirst_of_start (htoken : token ∈ e.specialTokens) (hp : token <+: t) :
    e.StandsFirst other t ↔ other = token := by
  constructor
  · rintro ⟨hother, i, hp', hbefore⟩
    cases i with
    | zero =>
      rcases List.prefix_or_prefix_of_prefix hp' hp with hle | hle
      · exact special_eq_of_start hother htoken hle
      · exact (special_eq_of_start htoken hother hle).symm
    | succ i => exact absurd hp (hbefore 0 i.succ_pos token htoken)
  · rintro rfl
    exact ⟨htoken, 0, hp, fun j hj => absurd hj (Nat.not_lt_zero j)⟩

/-- Where no special token starts, the search goes on one character further. -/
theorem standsFirst_cons_iff (h : ∀ other ∈ e.specialTokens, ¬other <+: c :: t) :
    e.StandsFirst token (c :: t) ↔ e.StandsFirst token t := by
  constructor
  · rintro ⟨htoken, i, hp, hbefore⟩
    cases i with
    | zero => exact absurd hp (h token htoken)
    | succ i => exact ⟨htoken, i, hp, fun j hj => hbefore (j + 1) (Nat.succ_lt_succ hj)⟩
  · rintro ⟨htoken, i, hp, hbefore⟩
    refine ⟨htoken, i + 1, hp, fun j hj => ?_⟩
    cases j with
    | zero => exact h
    | succ j => exact hbefore j (Nat.lt_of_succ_lt_succ hj)

/-- The search finds the special token that stands first, and finds one if there is one. -/
theorem leftmostSpecial?_eq_some_iff : e.leftmostSpecial? t = some token ↔ e.StandsFirst token t := by
  induction t with
  | nil =>
    constructor
    · intro h
      cases h
    · intro h
      exact absurd h standsFirst_nil
  | cons c t ih =>
    cases h : e.specialAtStart? (c :: t) with
    | some other =>
      obtain ⟨hother, hp⟩ := specialAtStart?_eq_some_iff.mp h
      rw [leftmostSpecial?_of_some h, standsFirst_of_start hother hp, Option.some.injEq]
      exact eq_comm
    | none =>
      rw [leftmostSpecial?_of_none h, ih, standsFirst_cons_iff (specialAtStart?_eq_none_iff.mp h)]

theorem leftmostSpecial?_eq_none_iff :
    e.leftmostSpecial? t = none ↔ ∀ token ∈ e.specialTokens, ¬token <:+: t := by
  induction t with
  | nil =>
    refine ⟨fun _ token htoken hin => ?_, fun _ => rfl⟩
    exact special_ne_nil htoken (List.infix_nil.mp hin)
  | cons c t ih =>
    simp only [List.infix_cons_iff, not_or]
    cases h : e.specialAtStart? (c :: t) with
    | some token =>
      obtain ⟨htoken, hp⟩ := specialAtStart?_eq_some_iff.mp h
      rw [leftmostSpecial?_of_some h]
      constructor
      · intro hnone
        cases hnone
      · intro hall
        exact absurd hp (hall token htoken).1
    | none =>
      have hnone := specialAtStart?_eq_none_iff.mp h
      rw [leftmostSpecial?_of_none h, ih]
      exact ⟨fun hall token htoken => ⟨hnone token htoken, hall token htoken⟩,
        fun hall token htoken => (hall token htoken).2⟩

theorem prefix_append_cons_iff (hc : c ∉ token) : token <+: a ++ c :: b ↔ token <+: a := by
  constructor
  · intro h
    rcases List.prefix_or_prefix_of_prefix h (List.prefix_append a (c :: b)) with hle | ⟨s, rfl⟩
    · exact hle
    -- what the token has behind `a` would have to start with the character
    have hs : s <+: c :: b := (List.prefix_append_right_inj a).mp h
    cases s with
    | nil => simp
    | cons d s =>
      have hd : d = c := (List.cons_prefix_cons.mp hs).1
      exact absurd (by simp [hd]) hc
  · intro h
    exact h.trans (List.prefix_append a _)

theorem specialAtStart?_append (h : e.Foreign c) (a b : Text) :
    e.specialAtStart? (a ++ c :: b) = e.specialAtStart? a := by
  apply Option.ext
  intro token
  rw [specialAtStart?_eq_some_iff, specialAtStart?_eq_some_iff]
  exact and_congr_right fun htoken => prefix_append_cons_iff (h token htoken)

/-- No special token reaches across a character that none has in it. -/
theorem leftmostSpecial?_append (h : e.Foreign c) (a b : Text) :
    e.leftmostSpecial? (a ++ c :: b) = (e.leftmostSpecial? a).or (e.leftmostSpecial? b) := by
  induction a with
  | nil =>
    have hstart := (specialAtStart?_append h [] b).trans (specialAtStart?_nil e)
    exact leftmostSpecial?_of_none hstart
  | cons d a ih =>
    have hstart : e.specialAtStart? (d :: (a ++ c :: b)) = e.specialAtStart? (d :: a) :=
      specialAtStart?_append h (d :: a) b
    rw [List.cons_append]
    cases hd : e.specialAtStart? (d :: a) with
    | some token =>
      rw [leftmostSpecial?_of_some (hstart.trans hd), leftmostSpecial?_of_some hd]
      rfl
    | none => rw [leftmostSpecial?_of_none (hstart.trans hd), leftmostSpecial?_of_none hd, ih]

theorem leftmostSpecial?_blank_append {ws : Text} (h : Text.Blank ws) (t : Text) :
    e.leftmostSpecial? (ws ++ t) = e.leftmostSpecial? t := by
  induction ws with
  | nil => rfl
  | cons c ws ih =>
    obtain ⟨hc, hws⟩ := List.forall_mem_cons.mp h
    have hfirst := leftmostSpecial?_append (foreign_of_isBlank e hc) [] (ws ++ t)
    exact hfirst.trans (ih hws)

theorem leftmostSpecial?_append_blank {ws : Text} (h : Text.Blank ws) (t : Text) :
    e.leftmostSpecial? (t ++ ws) = e.leftmostSpecial? t := by
  cases ws with
  | nil => rw [List.append_nil]
  | cons c ws =>
    obtain ⟨hc, hws⟩ := List.forall_mem_cons.mp h
    have hnone : e.leftmostSpecial? ws = none := by
      have hblank := leftmostSpecial?_blank_append (e := e) hws []
      rw [List.append_nil] at hblank
      exact hblank
    rw [leftmostSpecial?_append (foreign_of_isBlank e hc), hnone, Option.or_none]

/-- Trimming neither hides a special token nor brings one to light. -/
theorem leftmostSpecial?_trim (e : Encoding) (t : Text) :
    e.leftmostSpecial? (Text.trim t) = e.leftmostSpecial? t := by
  obtain ⟨before, behind, ht, hbefore, hbehind⟩ := Text.exists_trim t
  calc
    e.leftmostSpecial? (Text.trim t) = e.leftmostSpecial? (Text.trim t ++ behind) :=
      (leftmostSpecial?_append_blank hbehind _).symm
    _ = e.leftmostSpecial? (before ++ (Text.trim t ++ behind)) :=
      (leftmostSpecial?_blank_append hbefore _).symm
    _ = e.leftmostSpecial? t := by rw [ht]

end Subword.Encoding
