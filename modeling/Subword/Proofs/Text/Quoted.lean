import Subword.Proofs.Text.Numeral

/-!
Quoted strings, for any way to spell the characters. Main statement: if every character has a spelling, every text
can be quoted; the digits of a code point are such a spelling.
-/
namespace Subword.Text

def HexDigits (width n : Nat) (digits : Text) : Prop :=
  digits.length = width ∧ ∃ values, digits.mapM (digitIn? 16) = some values ∧ ofDigits 16 values = n

/-- A string that denotes a text, behind its opening quote: its characters are spelled one by one. -/
inductive Quoted (Spelled : Char → Text → Prop) : Text → Text → Prop
  | closed : Quoted Spelled [] ['"']
  | char {c : Char} {t s u : Text} : Spelled c s → Quoted Spelled t u → Quoted Spelled (c :: t) (s ++ u)

variable {Spelled : Char → Text → Prop}

theorem length_of_mapM {α β : Type} {f : α → Option β} {xs : List α} {ys : List β} (h : xs.mapM f = some ys) :
    ys.length = xs.length := by
  induction xs generalizing ys with
  | nil =>
    obtain rfl := Option.some.inj h
    rfl
  | cons x xs ih =>
    rw [List.mapM_cons] at h
    obtain ⟨y, _, h⟩ := Option.bind_eq_some_iff.mp h
    obtain ⟨ys', hys, h⟩ := Option.bind_eq_some_iff.mp h
    obtain rfl := Option.some.inj h
    rw [List.length_cons, List.length_cons, ih hys]

/-- A number can be written in any number of digits that it fits. -/
theorem exists_hexDigits (width : Nat) : ∀ n < Nat.pow 16 width, ∃ digits, HexDigits width n digits := by
  induction width with
  | zero =>
    intro n hn
    obtain rfl := Nat.lt_one_iff.mp hn
    exact ⟨[], rfl, [], rfl, rfl⟩
  | succ width ih =>
    intro n hn
    have hpow : Nat.pow 16 (width + 1) = Nat.pow 16 width * 16 := rfl
    obtain ⟨digits, hlength, values, hvalues, hvalue⟩ := ih (n / 16) (by omega)
    have hdigit := digitIn?_digitChar (n % 16) (Nat.mod_lt n (by decide))
    have hlast : [(n % 16).digitChar].mapM (digitIn? 16) = some [n % 16] := by
      rw [List.mapM_cons, hdigit]
      rfl
    refine ⟨digits ++ [(n % 16).digitChar], ?_, values ++ [n % 16], ?_, ?_⟩
    · rw [List.length_append, hlength, List.length_singleton]
    · rw [List.mapM_append, hvalues, hlast]
      rfl
    · unfold ofDigits at hvalue ⊢
      rw [List.foldl_append, hvalue, List.foldl_cons, List.foldl_nil]
      omega

/-- A text is quoted as it is if each of its characters may stand for itself. -/
theorem Quoted.of_self {t : Text} (h : ∀ c ∈ t, Spelled c [c]) : Quoted Spelled t (t ++ ['"']) := by
  induction t with
  | nil => exact .closed
  | cons c t ih =>
    obtain ⟨hc, ht⟩ := List.forall_mem_cons.mp h
    rw [List.cons_append, ← List.singleton_append]
    exact .char hc (ih ht)

theorem exists_quoted (h : ∀ c, ∃ s, Spelled c s) (t : Text) : ∃ s, Quoted Spelled t s := by
  induction t with
  | nil => exact ⟨_, .closed⟩
  | cons c t ih =>
    obtain ⟨s, hs⟩ := h c
    obtain ⟨u, hu⟩ := ih
    exact ⟨_, .char hs hu⟩

end Subword.Text
