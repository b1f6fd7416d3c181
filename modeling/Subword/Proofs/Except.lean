import Mathlib.Data.List.Forall2
import Subword.Text.Basic

/-!
Steps that can fail: when a mapped step, or a list of steps, succeeds, and with which failure it ends.
-/
namespace Subword.Except

variable {ε ε' α β : Type}

theorem map_eq_ok_iff {f : α → β} {x : Except ε α} {b : β} :
    x.map f = .ok b ↔ ∃ a, x = .ok a ∧ f a = b := by
  cases x <;> simp [Except.map]

theorem mapError_eq_ok_iff {f : ε → ε'} {x : Except ε α} {a : α} :
    x.mapError f = .ok a ↔ x = .ok a := by
  cases x with
  | ok b => exact ⟨fun h => congrArg _ (Except.ok.inj h), fun h => congrArg _ (Except.ok.inj h)⟩
  | error e =>
    constructor
    · intro h
      cases h
    · intro h
      cases h

theorem bind_eq_ok_iff {f : α → Except ε β} {x : Except ε α} {b : β} :
    x >>= f = .ok b ↔ ∃ a, x = .ok a ∧ f a = .ok b := by
  cases x <;> simp [bind, Except.bind]

theorem bind_eq_error_iff {f : α → Except ε β} {x : Except ε α} {e : ε} :
    x >>= f = .error e ↔ x = .error e ∨ ∃ a, x = .ok a ∧ f a = .error e := by
  cases x <;> simp [bind, Except.bind]

/-- A list is gone through without a failure exactly if each of its elements succeeds. -/
theorem mapM_eq_ok_iff {f : α → Except ε β} {xs : List α} {ys : List β} :
    xs.mapM f = .ok ys ↔ List.Forall₂ (fun x y => f x = .ok y) xs ys := by
  induction xs generalizing ys with
  | nil =>
    rw [List.mapM_nil, List.forall₂_nil_left_iff]
    exact ⟨fun h => (Except.ok.inj h).symm, fun h => h ▸ rfl⟩
  | cons x xs ih =>
    rw [List.mapM_cons, bind_eq_ok_iff, List.forall₂_cons_left_iff]
    refine exists_congr fun y => ?_
    rw [bind_eq_ok_iff]
    constructor
    · rintro ⟨hy, rest, hrest, h⟩
      exact ⟨rest, hy, ih.mp hrest, (Except.ok.inj h).symm⟩
    · rintro ⟨rest, hy, hrest, rfl⟩
      exact ⟨hy, rest, ih.mpr hrest, rfl⟩

theorem exists_eq_ok_of_mapM {f : α → Except ε β} {xs : List α} {ys : List β}
    (h : xs.mapM f = .ok ys) : ∀ x ∈ xs, ∃ y, f x = .ok y := by
  have hall := mapM_eq_ok_iff.mp h
  clear h
  induction hall with
  | nil => exact fun x hx => absurd hx List.not_mem_nil
  | cons hy _ ih => exact List.forall_mem_cons.mpr ⟨⟨_, hy⟩, ih⟩

/-- The failure of a list is that of its first element that fails. -/
theorem mapM_eq_error_iff {f : α → Except ε β} {xs : List α} {e : ε} :
    xs.mapM f = .error e ↔ ∃ before x behind, xs = before ++ x :: behind ∧
      (∀ b ∈ before, ∃ y, f b = .ok y) ∧ f x = .error e := by
  induction xs with
  | nil =>
    constructor
    · intro h
      cases h
    · rintro ⟨before, x, behind, h, -, -⟩
      exact absurd h (by simp)
  | cons x xs ih =>
    rw [List.mapM_cons, bind_eq_error_iff]
    constructor
    · rintro (hx | ⟨y, hy, h⟩)
      · exact ⟨[], x, xs, rfl, by simp, hx⟩
      rcases bind_eq_error_iff.mp h with hrest | ⟨ys, -, h⟩
      · obtain ⟨before, z, behind, rfl, hbefore, hz⟩ := ih.mp hrest
        exact ⟨x :: before, z, behind, rfl, List.forall_mem_cons.mpr ⟨⟨y, hy⟩, hbefore⟩, hz⟩
      · cases h
    · rintro ⟨before, z, behind, heq, hbefore, hz⟩
      cases before with
      | nil =>
        cases heq
        exact Or.inl hz
      | cons b before =>
        cases heq
        obtain ⟨⟨y, hy⟩, hrest⟩ := List.forall_mem_cons.mp hbefore
        have htail := ih.mpr ⟨before, z, behind, rfl, hrest, hz⟩
        exact Or.inr ⟨y, hy, bind_eq_error_iff.mpr (Or.inl htail)⟩

/-- The results of a list stand at the places of what they are the results of. -/
theorem mapM_eq_ok_iff_getElem? {f : α → Except ε β} {xs : List α} {ys : List β} :
    xs.mapM f = .ok ys ↔ ys.length = xs.length ∧
      ∀ (i : Nat) x, xs[i]? = some x → ∃ y, ys[i]? = some y ∧ f x = .ok y := by
  rw [mapM_eq_ok_iff, List.forall₂_iff_get]
  constructor
  · rintro ⟨hlength, hget⟩
    refine ⟨hlength.symm, ?_⟩
    intro i x hx
    obtain ⟨hi, rfl⟩ := List.getElem?_eq_some_iff.mp hx
    have hi' : i < ys.length := hlength ▸ hi
    exact ⟨ys[i], List.getElem?_eq_getElem hi', hget i hi hi'⟩
  · rintro ⟨hlength, hget⟩
    refine ⟨hlength.symm, ?_⟩
    intro i hi hi'
    obtain ⟨y, hy, hf⟩ := hget i xs[i] (List.getElem?_eq_getElem hi)
    obtain ⟨_, rfl⟩ := List.getElem?_eq_some_iff.mp hy
    exact hf

/-- The failure of a list is that at the lowest place where there is one. -/
theorem mapM_eq_error_iff_getElem? {f : α → Except ε β} {xs : List α} {e : ε} :
    xs.mapM f = .error e ↔ ∃ (i : Nat) (x : α), xs[i]? = some x ∧
      (∀ j < i, ∀ b, xs[j]? = some b → ∃ y, f b = .ok y) ∧ f x = .error e := by
  rw [mapM_eq_error_iff]
  constructor
  · rintro ⟨before, x, behind, rfl, hbefore, hx⟩
    refine ⟨before.length, x, ?_, ?_, hx⟩
    · simp
    · intro j hj b hb
      rw [List.getElem?_append_left hj] at hb
      exact hbefore b (List.mem_of_getElem? hb)
  · rintro ⟨i, x, hi, hbefore, hx⟩
    obtain ⟨hlt, rfl⟩ := List.getElem?_eq_some_iff.mp hi
    refine ⟨xs.take i, xs[i], xs.drop (i + 1), ?_, ?_, hx⟩
    · rw [← List.drop_eq_getElem_cons hlt, List.take_append_drop]
    · intro b hb
      obtain ⟨j, hj⟩ := List.mem_iff_getElem?.mp hb
      have hji : j < i := by
        have hshort := (List.getElem?_eq_some_iff.mp hj).1
        rw [List.length_take] at hshort
        omega
      rw [List.getElem?_take_of_lt hji] at hj
      exact hbefore j hji b hj

/-- What every step keeps holds behind all of them. -/
theorem foldlM_keeps {f : β → α → Except ε β} {P : β → Prop}
    (hstep : ∀ b x b', P b → f b x = .ok b' → P b') {xs : List α} {b b' : β} (hb : P b)
    (h : xs.foldlM f b = .ok b') : P b' := by
  induction xs generalizing b with
  | nil =>
    cases h
    exact hb
  | cons x xs ih =>
    rw [List.foldlM_cons] at h
    obtain ⟨c, hc, hrest⟩ := bind_eq_ok_iff.mp h
    exact ih (hstep b x c hb hc) hrest

end Subword.Except
