import Subword.Breakdown
import Subword.Proofs.Text.Escape

/-!
Lists of tokens on one line are unambiguous. Main statement: two lists are shown alike under a limit exactly if
they have the same length and the same items up to the limit. An item tells by itself where it ends, so neither
a separator nor the marker can be mistaken for part of one.
-/
namespace Subword.Breakdown

/-- A text that can stand behind an item of a list. -/
def Stops (rest : Text) : Prop := ∀ c ∈ rest.head?, c = ',' ∨ c = ']'

/-- Texts of items that do not start like the end of a list and that, in front of a separator or the end of the
list, tell the item and what stands behind it. -/
structure SelfDelimiting {α : Type} (text : α → Text) : Prop where
  nonempty : ∀ x rest rest', ']' :: rest ≠ text x ++ rest'
  ends : ∀ x y rest rest', Stops rest → Stops rest' →
    text x ++ rest = text y ++ rest' → x = y ∧ rest = rest'

section Lists

variable {α : Type} {text : α → Text} {xs ys : List α} {rest rest' : Text}

theorem intercalate_cons (sep s : Text) (ss : List Text) :
    List.intercalate sep (s :: ss) = s ++ ss.flatMap (sep ++ ·) := by
  induction ss generalizing s with
  | nil => simp
  | cons t ss ih => rw [List.intercalate_cons_cons, ih, List.flatMap_cons]; simp

theorem stops_separated (ss : List Text) (rest : Text) :
    Stops (ss.flatMap (", ".toList ++ ·) ++ ']' :: rest) := by
  intro c hc
  cases ss with
  | nil =>
    cases hc
    exact Or.inr rfl
  | cons s ss =>
    cases hc
    exact Or.inl rfl

theorem separated_append_inj (h : SelfDelimiting text)
    (heq : (xs.map text).flatMap (", ".toList ++ ·) ++ ']' :: rest =
      (ys.map text).flatMap (", ".toList ++ ·) ++ ']' :: rest') : xs = ys ∧ rest = rest' := by
  induction xs generalizing ys with
  | nil =>
    cases ys with
    | nil => exact ⟨rfl, (List.cons.inj heq).2⟩
    | cons y ys => exact absurd (List.cons.inj heq).1 (by decide)
  | cons x xs ih =>
    cases ys with
    | nil => exact absurd (List.cons.inj heq).1 (by decide)
    | cons y ys =>
      simp only [List.map_cons, List.flatMap_cons, List.append_assoc] at heq
      obtain ⟨rfl, htail⟩ := h.ends x y _ _ (stops_separated _ rest) (stops_separated _ rest')
        (List.append_cancel_left heq)
      obtain ⟨rfl, hrest⟩ := ih htail
      exact ⟨rfl, hrest⟩

/-- A list tells its items and where it ends. -/
theorem brackets_append_inj (h : SelfDelimiting text)
    (heq : brackets (xs.map text) ++ rest = brackets (ys.map text) ++ rest') :
    xs = ys ∧ rest = rest' := by
  unfold brackets at heq
  simp only [List.cons_append, List.append_assoc, List.nil_append, List.cons.injEq, true_and] at heq
  -- no separator stands before the first item, so it has to tell itself from the end of an empty list
  cases xs with
  | nil =>
    cases ys with
    | nil => exact ⟨rfl, (List.cons.inj heq).2⟩
    | cons y ys =>
      rw [List.map_cons, intercalate_cons, List.append_assoc] at heq
      exact absurd heq (h.nonempty y _ _)
  | cons x xs =>
    rw [List.map_cons, intercalate_cons, List.append_assoc] at heq
    cases ys with
    | nil => exact absurd heq.symm (h.nonempty x _ _)
    | cons y ys =>
      rw [List.map_cons, intercalate_cons, List.append_assoc] at heq
      obtain ⟨rfl, htail⟩ :=
        h.ends x y _ _ (stops_separated _ rest) (stops_separated _ rest') heq
      obtain ⟨rfl, hrest⟩ := separated_append_inj h htail
      exact ⟨rfl, hrest⟩

end Lists

variable {rest rest' : Text}

/-! ### What is left out -/

/-- How many of `total` items stand behind the limit, if any does. -/
def leftOut? (total limit : Nat) : Option Nat :=
  if limit < total then some (total - limit) else none

def more (count : Nat) : Text := "... (".toList ++ Text.decimal count ++ " more)".toList

theorem marker?_eq (total limit : Nat) : marker? total limit = (leftOut? total limit).map more := by
  unfold marker? leftOut?
  split <;> rfl

theorem more_append_inj {j k : Nat} (h : more j ++ rest = more k ++ rest') : j = k ∧ rest = rest' := by
  unfold more at h
  simp only [List.append_assoc] at h
  have hblank : ∀ s : Text, ∀ c ∈ (" more)".toList ++ s).head?, c.isDigit = false := by
    intro s c hc
    cases hc
    rfl
  obtain ⟨hcount, hrest⟩ :=
    Text.decimal_append_inj (hblank rest) (hblank rest') (List.append_cancel_left h)
  exact ⟨hcount, List.append_cancel_left hrest⟩

/-- What is shown and what is left out tell how many items there are. -/
theorem eq_of_leftOut? {m n limit : Nat} (hshown : min limit m = min limit n)
    (hleft : leftOut? m limit = leftOut? n limit) : m = n := by
  unfold leftOut? at hleft
  -- both numbers are above the limit or neither is
  split at hleft <;> split at hleft
  · have hdiff := Option.some.inj hleft
    omega
  · cases hleft
  · cases hleft
  · omega

theorem length_eq_of_take {α : Type} {xs ys : List α} {limit : Nat}
    (hshown : xs.take limit = ys.take limit)
    (hleft : leftOut? xs.length limit = leftOut? ys.length limit) : xs.length = ys.length := by
  have hlength := congrArg List.length hshown
  rw [List.length_take, List.length_take] at hlength
  exact eq_of_leftOut? hlength hleft

/-! ### Strings -/

/-- What a list of token strings shows: a token, or how many more there are. -/
inductive Entry where
  | token (t : Text)
  | more (count : Nat)

def Entry.text : Entry → Text
  | .token t => quoted t
  | .more count => Breakdown.more count

def entries (tokens : List Text) (limit : Nat) : List Entry :=
  (tokens.take limit).map .token ++ (leftOut? tokens.length limit).toList.map .more

theorem strings_eq (tokens : List Text) (limit : Nat) :
    strings tokens limit = brackets ((entries tokens limit).map Entry.text) := by
  unfold strings entries
  rw [marker?_eq, List.map_append, List.map_map, List.map_map]
  cases leftOut? tokens.length limit <;> rfl

theorem quoted_append_inj {s t : Text} (h : quoted s ++ rest = quoted t ++ rest') :
    s = t ∧ rest = rest' := by
  unfold quoted at h
  simp only [List.cons_append, List.append_assoc, List.nil_append, List.cons.injEq, true_and] at h
  exact Text.escape_append_inj h

theorem selfDelimiting_entry : SelfDelimiting Entry.text where
  nonempty x rest rest' h := by
    cases x with
    | token t => exact absurd (List.cons.inj h).1 (by decide)
    | more k => exact absurd (List.cons.inj h).1 (by decide)
  ends x y rest rest' _ _ h := by
    cases x with
    | token s =>
      cases y with
      | token t =>
        obtain ⟨rfl, hrest⟩ := quoted_append_inj h
        exact ⟨rfl, hrest⟩
      | more k => exact absurd (List.cons.inj h).1 (by decide)
    | more j =>
      cases y with
      | token t => exact absurd (List.cons.inj h).1 (by decide)
      | more k =>
        obtain ⟨rfl, hrest⟩ := more_append_inj h
        exact ⟨rfl, hrest⟩

/-- No token is taken for the marker. -/
theorem tokens_append_inj {as bs : List Text} {m n : Option Nat}
    (h : as.map Entry.token ++ m.toList.map .more = bs.map Entry.token ++ n.toList.map .more) :
    as = bs ∧ m = n := by
  induction as generalizing bs with
  | nil =>
    cases bs with
    | nil =>
      have hcounts : m.toList = n.toList := List.map_injective_iff.mpr (fun _ _ => Entry.more.inj) h
      exact ⟨rfl, by simpa using congrArg List.head? hcounts⟩
    | cons b bs => cases m <;> simp at h
  | cons a as ih =>
    cases bs with
    | nil => cases n <;> simp at h
    | cons b bs =>
      obtain ⟨hhead, htail⟩ := List.cons.inj h
      obtain ⟨rfl, hmore⟩ := ih htail
      exact ⟨by rw [Entry.token.inj hhead], hmore⟩

theorem strings_eq_iff (a b : List Text) (limit : Nat) :
    strings a limit = strings b limit ↔ a.length = b.length ∧ a.take limit = b.take limit := by
  constructor
  · intro h
    rw [strings_eq, strings_eq] at h
    have hentries : entries a limit = entries b limit :=
      (brackets_append_inj selfDelimiting_entry (congrArg (· ++ []) h)).1
    obtain ⟨hshown, hleft⟩ := tokens_append_inj hentries
    exact ⟨length_eq_of_take hshown hleft, hshown⟩
  · rintro ⟨hlength, hshown⟩
    unfold strings
    rw [hlength, hshown]

/-! ### Ids -/

theorem selfDelimiting_id : SelfDelimiting fun id : TokenId => Text.decimal id.toNat where
  nonempty id rest rest' h := by
    obtain ⟨c, s, hs⟩ := List.exists_cons_of_ne_nil (Text.decimal_ne_nil id.toNat)
    have hc := Text.isDigit_of_mem_decimal c (hs ▸ List.mem_cons_self)
    rw [hs] at h
    rw [← (List.cons.inj h).1] at hc
    exact absurd hc (by decide)
  ends x y rest rest' hr hr' h := by
    have hstop : ∀ {s : Text}, Stops s → ∀ c ∈ s.head?, c.isDigit = false := by
      intro s hs c hc
      rcases hs c hc with rfl | rfl <;> rfl
    obtain ⟨hid, hrest⟩ := Text.decimal_append_inj (hstop hr) (hstop hr') h
    exact ⟨UInt32.toNat_inj.mp hid, hrest⟩

theorem ids_eq (all : List TokenId) (limit : Nat) :
    ids all limit = brackets ((all.take limit).map fun id => Text.decimal id.toNat) ++
      ((leftOut? all.length limit).map (' ' :: more ·)).getD [] := by
  unfold ids allIds
  rw [marker?_eq, Option.map_map]
  rfl

theorem leftOut?_of_text {m n : Option Nat}
    (h : (m.map (' ' :: more ·)).getD [] = (n.map (' ' :: more ·)).getD []) : m = n := by
  cases m with
  | none =>
    cases n with
    | none => rfl
    | some k => cases h
  | some j =>
    cases n with
    | none => cases h
    | some k =>
      have hmore : more j ++ [] = more k ++ [] := congrArg (· ++ []) (List.cons.inj h).2
      rw [(more_append_inj hmore).1]

theorem ids_eq_iff (a b : List TokenId) (limit : Nat) :
    ids a limit = ids b limit ↔ a.length = b.length ∧ a.take limit = b.take limit := by
  constructor
  · intro h
    rw [ids_eq, ids_eq] at h
    obtain ⟨hshown, htext⟩ := brackets_append_inj selfDelimiting_id h
    exact ⟨length_eq_of_take hshown (leftOut?_of_text htext), hshown⟩
  · rintro ⟨hlength, hshown⟩
    unfold ids
    rw [hlength, hshown]

/-- Both lists are exact: what is shown determines the length and the items up to the limit, and nothing else. -/
theorem shown_alike_iff :
    (∀ (a b : List Text) (limit : Nat), strings a limit = strings b limit ↔
      a.length = b.length ∧ a.take limit = b.take limit) ∧
    (∀ (a b : List TokenId) (limit : Nat), ids a limit = ids b limit ↔
      a.length = b.length ∧ a.take limit = b.take limit) :=
  ⟨strings_eq_iff, ids_eq_iff⟩

-- The marker stands inside the list of strings, behind the list of ids.
example : strings [] 0 = "[]".toList ∧ strings ["\"".toList, []] 1 = "[\"\\\"\", ... (1 more)]".toList ∧
    ids [7, 8, 9] 1 = "[7] ... (2 more)".toList := by decide

end Subword.Breakdown
