import Mathlib.Data.List.Forall2
import Subword.Proofs.Json.Lexeme
import Subword.Proofs.Json.Scalar

/-!
Documents are unambiguous. Main statement: values that are laid out as the same text are the same, but for
doubles that are written alike. No string can imitate what stands around it, since it ends at its first
quote that is not escaped; a number ends at the comma or the new line behind it.
-/
namespace Subword.Json

/-- The values are the same, but for doubles that are written alike. -/
inductive Alike : Json → Json → Prop
  | natural (n : Nat) : Alike (.natural n) (.natural n)
  | double {x y : Binary64} : x.shortest?.getD "null".toList = y.shortest?.getD "null".toList →
      Alike (.double x) (.double y)
  | string (s : Text) : Alike (.string s) (.string s)
  | array {xs ys : List Json} : List.Forall₂ Alike xs ys → Alike (.array xs) (.array ys)
  | object {ms ns : List (Text × Json)} : ms.map Prod.fst = ns.map Prod.fst →
      List.Forall₂ Alike (ms.map Prod.snd) (ns.map Prod.snd) → Alike (.object ms) (.object ns)

/-- The character that a value starts with, unless it is a number. -/
def opening? : Json → Option Char
  | natural _ | double _ => none
  | string _ => some '"'
  | array _ => some '['
  | object _ => some '\x7b'

variable {s t rest rest' : Text}

theorem quote_append_inj (h : quote s ++ rest = quote t ++ rest') : s = t ∧ rest = rest' := by
  simp only [quote, List.append_assoc, List.cons_append, List.nil_append] at h
  have hread := readString_quoted s rest
  rw [(List.cons.inj h).2, readString_quoted] at hread
  simp only [Except.ok.injEq, Prod.mk.injEq] at hread
  exact ⟨hread.1.symm, hread.2.symm⟩

theorem head_layout (x : Json) (depth : Nat) : ∃ c t, layout depth x = c :: t ∧
    (x.opening? = none ∧ isBare c = true ∨ x.opening? = some c ∧ isBare c = false) := by
  cases x with
  | natural n =>
    obtain ⟨c, t, ht⟩ := List.exists_cons_of_ne_nil (Text.decimal_ne_nil n)
    have hc : c ∈ Text.decimal n := ht ▸ List.mem_cons_self
    exact ⟨c, t, ht, Or.inl ⟨rfl, bare_decimal n c hc⟩⟩
  | double x =>
    obtain ⟨d, hd, -⟩ := exists_mem_double x
    obtain ⟨c, t, ht⟩ := List.exists_cons_of_ne_nil (List.ne_nil_of_mem hd)
    have hc : c ∈ x.shortest?.getD "null".toList := ht ▸ List.mem_cons_self
    exact ⟨c, t, ht, Or.inl ⟨rfl, bare_double x c hc⟩⟩
  | string s => exact ⟨_, _, rfl, Or.inr ⟨rfl, rfl⟩⟩
  | array xs => cases xs <;> exact ⟨_, _, rfl, Or.inr ⟨rfl, rfl⟩⟩
  | object ms => cases ms <;> exact ⟨_, _, rfl, Or.inr ⟨rfl, rfl⟩⟩

theorem opening?_eq {x y : Json} {depth : Nat} (h : layout depth x ++ rest = layout depth y ++ rest') :
    x.opening? = y.opening? := by
  obtain ⟨c, t, hx, hc⟩ := head_layout x depth
  obtain ⟨d, u, hy, hd⟩ := head_layout y depth
  rw [hx, hy, List.cons_append, List.cons_append] at h
  obtain ⟨rfl, -⟩ := List.cons.inj h
  rcases hc with ⟨hx, hc⟩ | ⟨hx, hc⟩ <;> rcases hd with ⟨hy, hd⟩ | ⟨hy, hd⟩
  · rw [hx, hy]
  · exact absurd (hc.symm.trans hd) (by decide)
  · exact absurd (hc.symm.trans hd) (by decide)
  · rw [hx, hy]

theorem closes_layoutItems (xs : List Json) (depth outer : Nat) (rest : Text) :
    Closes (layoutItems depth [','] xs ++ (newline outer ++ rest)) := by
  intro c hc
  cases xs with
  | nil =>
    cases hc
    exact Or.inr rfl
  | cons x xs =>
    cases hc
    exact Or.inl rfl

theorem closes_layoutMembers (ms : List (Text × Json)) (depth outer : Nat) (rest : Text) :
    Closes (layoutMembers depth [','] ms ++ (newline outer ++ rest)) := by
  intro c hc
  cases ms with
  | nil =>
    cases hc
    exact Or.inr rfl
  | cons m ms =>
    cases hc
    exact Or.inl rfl

-- An item can only be told from the closing bracket by what ends the line before it. The first item has
-- nothing there, so lists are compared from an item on in both or in none.
mutual

/-- A value is determined by its text, and so is where its text ends. -/
theorem layout_append_inj (x y : Json) (depth : Nat) {rest rest' : Text} (hr : Closes rest)
    (hr' : Closes rest') (h : layout depth x ++ rest = layout depth y ++ rest') :
    Alike x y ∧ rest = rest' := by
  have hopen := opening?_eq h
  cases x with
  | natural n =>
    cases y with
    | natural m =>
      obtain ⟨hn, hrest⟩ := bare_append_inj (bare_decimal n) (bare_decimal m) hr hr' h
      rw [Text.decimal_injective hn]
      exact ⟨.natural m, hrest⟩
    | double y =>
      obtain ⟨hn, -⟩ := bare_append_inj (bare_decimal n) (bare_double y) hr hr' h
      exact absurd hn (decimal_ne_double n y)
    | string | array | object => cases hopen
  | double x =>
    cases y with
    | natural m =>
      obtain ⟨hm, -⟩ := bare_append_inj (bare_double x) (bare_decimal m) hr hr' h
      exact absurd hm.symm (decimal_ne_double m x)
    | double y =>
      obtain ⟨htext, hrest⟩ := bare_append_inj (bare_double x) (bare_double y) hr hr' h
      exact ⟨.double htext, hrest⟩
    | string | array | object => cases hopen
  | string s =>
    cases y with
    | string t =>
      obtain ⟨rfl, hrest⟩ := quote_append_inj h
      exact ⟨.string s, hrest⟩
    | natural | double | array | object => cases hopen
  | array xs =>
    cases y with
    | array ys =>
      match xs, ys with
      | [], [] =>
        simp only [layout] at h
        exact ⟨.array .nil, List.append_cancel_left h⟩
      | [], y :: ys => simp [layout, layoutItems, newline] at h
      | x :: xs, [] => simp [layout, layoutItems, newline] at h
      | x :: xs, y :: ys =>
        simp only [layout, List.cons_append, List.append_assoc, List.nil_append] at h
        obtain ⟨hitems, hrest⟩ := layoutItems_append_inj (x :: xs) (y :: ys) (depth + 1) depth []
          (Or.inr (by simp)) (List.cons.inj h).2
        exact ⟨.array hitems, hrest⟩
    | natural | double | string | object => cases hopen
  | object ms =>
    cases y with
    | object ns =>
      match ms, ns with
      | [], [] =>
        simp only [layout] at h
        exact ⟨.object rfl .nil, List.append_cancel_left h⟩
      | [], n :: ns => simp [layout, layoutMembers, newline] at h
      | m :: ms, [] => simp [layout, layoutMembers, newline] at h
      | m :: ms, n :: ns =>
        simp only [layout, List.cons_append, List.append_assoc, List.nil_append] at h
        obtain ⟨hkeys, hvalues, hrest⟩ := layoutMembers_append_inj (m :: ms) (n :: ns) (depth + 1)
          depth [] (Or.inr (by simp)) (List.cons.inj h).2
        exact ⟨.object hkeys hvalues, hrest⟩
    | natural | double | string | array => cases hopen

theorem layoutItems_append_inj (xs ys : List Json) (depth outer : Nat) (ending : Text)
    (hs : ending = [','] ∨ (xs = [] ↔ ys = [])) {rest rest' : Text}
    (h : layoutItems depth ending xs ++ (newline outer ++ ']' :: rest) =
      layoutItems depth ending ys ++ (newline outer ++ ']' :: rest')) :
    List.Forall₂ Alike xs ys ∧ rest = rest' := by
  match xs, ys with
  | [], [] =>
    simp only [layoutItems, List.nil_append] at h
    exact ⟨.nil, (List.cons.inj (List.append_cancel_left h)).2⟩
  | [], y :: ys =>
    rcases hs with rfl | hs
    · simp [layoutItems, newline] at h
    · simp at hs
  | x :: xs, [] =>
    rcases hs with rfl | hs
    · simp [layoutItems, newline] at h
    · simp at hs
  | x :: xs, y :: ys =>
    simp only [layoutItems, List.append_assoc] at h
    have hvalue := List.append_cancel_left (List.append_cancel_left h)
    obtain ⟨hx, htail⟩ := layout_append_inj x y depth (closes_layoutItems xs depth outer _)
      (closes_layoutItems ys depth outer _) hvalue
    obtain ⟨hxs, hrest⟩ := layoutItems_append_inj xs ys depth outer [','] (Or.inl rfl) htail
    exact ⟨.cons hx hxs, hrest⟩

theorem layoutMembers_append_inj (ms ns : List (Text × Json)) (depth outer : Nat) (ending : Text)
    (hs : ending = [','] ∨ (ms = [] ↔ ns = [])) {rest rest' : Text}
    (h : layoutMembers depth ending ms ++ (newline outer ++ '\x7d' :: rest) =
      layoutMembers depth ending ns ++ (newline outer ++ '\x7d' :: rest')) :
    ms.map Prod.fst = ns.map Prod.fst ∧
      List.Forall₂ Alike (ms.map Prod.snd) (ns.map Prod.snd) ∧ rest = rest' := by
  match ms, ns with
  | [], [] =>
    simp only [layoutMembers, List.nil_append] at h
    exact ⟨rfl, .nil, (List.cons.inj (List.append_cancel_left h)).2⟩
  | [], n :: ns =>
    rcases hs with rfl | hs
    · simp [layoutMembers, newline] at h
    · simp at hs
  | m :: ms, [] =>
    rcases hs with rfl | hs
    · simp [layoutMembers, newline] at h
    · simp at hs
  | (key, x) :: ms, (key', y) :: ns =>
    simp only [layoutMembers, List.append_assoc] at h
    have hmember := List.append_cancel_left (List.append_cancel_left h)
    obtain ⟨rfl, hbehind⟩ := quote_append_inj hmember
    have hvalue := List.append_cancel_left hbehind
    obtain ⟨hx, htail⟩ := layout_append_inj x y depth (closes_layoutMembers ms depth outer _)
      (closes_layoutMembers ns depth outer _) hvalue
    obtain ⟨hkeys, hxs, hrest⟩ :=
      layoutMembers_append_inj ms ns depth outer [','] (Or.inl rfl) htail
    exact ⟨congrArg (key :: ·) hkeys, .cons hx hxs, hrest⟩

end

/-- Documents of the same text hold the same, but for doubles that are written alike. -/
theorem alike_of_pretty_eq {x y : Json} (h : x.pretty = y.pretty) : Alike x y := by
  have hnil : Closes [] := fun _ hc => nomatch hc
  have htext : layout 0 x ++ [] = layout 0 y ++ [] := by
    rw [List.append_nil, List.append_nil]
    exact h
  exact (layout_append_inj x y 0 hnil hnil htext).1

end Subword.Json
