import Mathlib.Data.List.Basic
import Subword.Json.Reader
import Subword.Proofs.Json.Lexeme

/-!
Texts that spell values, with any blanks between their parts. Main statements: lists and objects are read
from what spells them, item by item and member by member, and so is a document.
-/
namespace Subword.Json

variable {α σ : Type}

theorem ends_cons {c : Char} (rest : Text) (h : c.isDigit = false ∧ c ≠ '.' ∧ c ≠ 'e' ∧ c ≠ 'E') :
    Ends (c :: rest) := by
  intro d hd
  cases hd
  exact h

theorem Gap.ends {ws rest : Text} (hw : Gap ws) (hr : Ends rest) : Ends (ws ++ rest) := by
  cases ws with
  | nil => exact hr
  | cons c ws =>
    have hc := hw c List.mem_cons_self
    simp only [isSpace, decide_eq_true_eq] at hc
    apply ends_cons
    rcases hc with rfl | rfl | rfl | rfl <;> decide

/-- The text makes the reader give the value, behind any blanks and before all that can stand behind a
value. -/
structure Spells (value : Text → Read α) (t : Text) (x : α) : Prop where
  starts : ∃ c s, t = c :: s ∧ isSpace c = false ∧ c ≠ ']'
  read : ∀ ws rest, Gap ws → Ends rest → value (ws ++ (t ++ rest)) = .ok (x, rest)

/-- The text behind a key fills a member that has not come before with the value. -/
def Fills (value : Text → Read α) (s : Text) (x : α) : Prop :=
  ∀ rest, Ends rest → readField none value (s ++ rest) = .ok (x, rest)

def Takes (member : Text → σ → Text → Read σ) (key : Text) (d : σ) (s : Text) (d' : σ) : Prop :=
  ∀ rest, Ends rest → member key d (s ++ rest) = .ok (d', rest)

/-- What stands before an item or a member: a comma unless it is the first. -/
inductive Separator : (first : Bool) → Text → Prop
  | start {ws : Text} : Gap ws → Separator true ws
  | comma {before behind : Text} : Gap before → Gap behind → Separator false (before ++ ',' :: behind)

/-- The text behind the opening bracket of an array, or behind one of its items. -/
inductive Items (item : Text → Read α) : (first : Bool) → Text → List α → Prop
  | closed {first : Bool} {ws : Text} : Gap ws → Items item first (ws ++ [']']) []
  | item {first : Bool} {sep t s : Text} {x : α} {xs : List α} : Separator first sep →
      Spells item t x → Items item false s xs → Items item first (sep ++ (t ++ s)) (x :: xs)

/-- The text behind the opening brace of an object, or behind one of its members, and the drafts before
and after it is read. -/
inductive Members (member : Text → σ → Text → Read σ) : (first : Bool) → σ → Text → σ → Prop
  | closed {first : Bool} {d : σ} {ws : Text} : Gap ws → Members member first d (ws ++ ['\x7d']) d
  | member {first : Bool} {d d' d'' : σ} {sep key t s : Text} : Separator first sep →
      Takes member key d t d' → Members member false d' s d'' →
      Members member first d (sep ++ (quote key ++ (t ++ s))) d''

theorem Separator.ends {sep rest : Text} (h : Separator false sep) : Ends (sep ++ rest) := by
  cases h with
  | comma hbefore _ =>
    rw [List.append_assoc]
    exact hbefore.ends (ends_cons _ (by decide))

theorem Items.ends {item : Text → Read α} {s : Text} {xs : List α} (h : Items item false s xs)
    (rest : Text) : Ends (s ++ rest) := by
  cases h with
  | closed hw =>
    rw [List.append_assoc]
    exact hw.ends (ends_cons _ (by decide))
  | item hsep _ _ =>
    rw [List.append_assoc]
    exact hsep.ends

theorem Members.ends {member : Text → σ → Text → Read σ} {s : Text} {d d' : σ}
    (h : Members member false d s d') (rest : Text) : Ends (s ++ rest) := by
  cases h with
  | closed hw =>
    rw [List.append_assoc]
    exact hw.ends (ends_cons _ (by decide))
  | member hsep _ _ =>
    rw [List.append_assoc]
    exact hsep.ends

theorem nextItem_closed {ws : Text} (hw : Gap ws) (first : Bool) (rest : Text) :
    nextItem first (ws ++ ']' :: rest) = .ok (.closed rest) := by
  rw [nextItem, skipSpace_gap hw (by decide)]
  rfl

theorem nextItem_item {first : Bool} {sep : Text} (hsep : Separator first sep) {c : Char}
    (hc : isSpace c = false) (hb : c ≠ ']') (s : Text) :
    nextItem first (sep ++ c :: s) = .ok (.item (c :: s)) := by
  cases hsep with
  | start hw =>
    rw [nextItem, skipSpace_gap hw hc]
    simp only [if_neg hb, if_true]
  | comma hbefore hbehind =>
    rw [nextItem, List.append_assoc, List.cons_append, skipSpace_gap hbefore (by decide)]
    simp only [skipSpace_gap hbehind hc, if_neg hb]
    rfl

/-- Items are read in their order, and the text goes on behind their closing bracket. -/
theorem readItems_of_items {item : Text → Read α} {first : Bool} {s : Text} {xs : List α}
    (h : Items item first s xs) (rest : Text) {fuel : Nat} (hf : s.length < fuel) :
    readItems item fuel first (s ++ rest) = .ok (xs, rest) := by
  induction h generalizing fuel with
  | closed hw =>
    obtain ⟨fuel, rfl⟩ := Nat.exists_eq_succ_of_ne_zero (Nat.ne_zero_of_lt hf)
    rw [readItems, List.append_assoc, List.singleton_append, nextItem_closed hw]
  | @item first sep t s x xs hsep ht hs ih =>
    obtain ⟨fuel, rfl⟩ := Nat.exists_eq_succ_of_ne_zero (Nat.ne_zero_of_lt hf)
    have hread := ht.read [] (s ++ rest) gap_nil (hs.ends rest)
    obtain ⟨c, u, rfl, hc, hb⟩ := ht.starts
    have hrest : s.length < fuel := by
      simp only [List.length_append, List.length_cons] at hf
      omega
    simp only [List.nil_append, List.cons_append] at hread
    rw [readItems, List.append_assoc, List.append_assoc, List.cons_append, nextItem_item hsep hc hb]
    simp only [hread, ih hrest]
    rfl

theorem spells_list {item : Text → Read α} {s : Text} {xs : List α} (h : Items item true s xs) :
    Spells (readList item) ('[' :: s) xs := by
  refine ⟨⟨'[', s, rfl, by decide, by decide⟩, fun ws rest hw _ => ?_⟩
  rw [readList, List.cons_append, skipSpace_gap hw (by decide)]
  exact readItems_of_items h rest (by simp only [List.length_append]; omega)

theorem nextMember_closed {ws : Text} (hw : Gap ws) (first : Bool) (rest : Text) :
    nextMember first (ws ++ '\x7d' :: rest) = .ok (.closed rest) := by
  rw [nextMember, skipSpace_gap hw (by decide)]
  rfl

theorem nextMember_member {first : Bool} {sep : Text} (hsep : Separator first sep) (s : Text) :
    nextMember first (sep ++ '"' :: s) = .ok (.item s) := by
  cases hsep with
  | start hw =>
    rw [nextMember, skipSpace_gap hw (by decide)]
    rfl
  | comma hbefore hbehind =>
    rw [nextMember, List.append_assoc, List.cons_append, skipSpace_gap hbefore (by decide)]
    simp only [skipSpace_gap hbehind (by decide : isSpace '"' = false)]
    rfl

/-- Members are taken into the draft in their order, and the text goes on behind their closing brace. -/
theorem readMembers_of_members {member : Text → σ → Text → Read σ} {finish : σ → Except Fault α}
    {first : Bool} {s : Text} {d d' : σ} {x : α} (h : Members member first d s d')
    (hx : finish d' = .ok x) (rest : Text) {fuel : Nat} (hf : s.length < fuel) :
    readMembers member finish fuel first d (s ++ rest) = .ok (x, rest) := by
  induction h generalizing fuel with
  | closed hw =>
    obtain ⟨fuel, rfl⟩ := Nat.exists_eq_succ_of_ne_zero (Nat.ne_zero_of_lt hf)
    rw [readMembers, List.append_assoc, List.singleton_append, nextMember_closed hw]
    simp only [hx]
    rfl
  | @member first d d' d'' sep key t s hsep ht hs ih =>
    obtain ⟨fuel, rfl⟩ := Nat.exists_eq_succ_of_ne_zero (Nat.ne_zero_of_lt hf)
    have hrest : s.length < fuel := by
      simp only [quote, List.length_append, List.length_cons] at hf
      omega
    have hkey := readString_quoted key (t ++ (s ++ rest))
    have hmember := ht (s ++ rest) (hs.ends rest)
    rw [readMembers]
    simp only [quote, List.append_assoc, List.cons_append, List.nil_append] at hkey ⊢
    rw [nextMember_member hsep]
    simp only [hkey, hmember, ih hx hrest]

theorem spells_object {member : Text → σ → Text → Read σ} {finish : σ → Except Fault α} {start d : σ}
    {s : Text} {x : α} (positional : Text → Read α) (h : Members member true start s d)
    (hx : finish d = .ok x) :
    Spells (readParts member finish start positional) ('\x7b' :: s) x := by
  refine ⟨⟨'\x7b', s, rfl, by decide, by decide⟩, fun ws rest hw _ => ?_⟩
  rw [readParts, List.cons_append, skipSpace_gap hw (by decide)]
  exact readMembers_of_members h hx rest (by simp only [List.length_append]; omega)

theorem spells_quote (t : Text) : Spells readText (quote t) t := by
  refine ⟨⟨'"', _, rfl, by decide, by decide⟩, fun ws rest hw _ => ?_⟩
  rw [readText, quote, List.append_assoc, List.cons_append, skipSpace_gap hw (by decide)]
  exact readString_quoted t rest

theorem isSpace_of_isDigit {c : Char} (h : c.isDigit = true) : isSpace c = false := by
  by_contra hspace
  simp only [isSpace, Bool.not_eq_false, decide_eq_true_eq] at hspace
  rcases hspace with rfl | rfl | rfl | rfl <;> exact absurd h (by decide)

theorem spells_decimal {n bound : Nat} (hn : n < bound) (hb : bound ≤ UInt64.size) :
    Spells (readNatural bound) (Text.decimal n) n := by
  obtain ⟨c, cs, hc⟩ := List.exists_cons_of_ne_nil (Text.decimal_ne_nil n)
  have hdigit : c.isDigit = true := Text.isDigit_of_mem_decimal c (by rw [hc]; exact List.mem_cons_self)
  have hspace : isSpace c = false := isSpace_of_isDigit hdigit
  refine ⟨⟨c, cs, hc, hspace, ?_⟩, fun ws rest hw hr => ?_⟩
  · rintro rfl
    exact absurd hdigit (by decide)
  · have hnumber := readNumber_decimal (Nat.lt_of_lt_of_le hn hb) hr
    rw [hc, List.cons_append] at hnumber
    rw [readNatural, hc, List.cons_append, skipSpace_gap hw hspace]
    simp only [if_pos hdigit, hnumber, if_pos hn]

theorem Spells.map {value : Text → Read α} {t : Text} {x : α} {β : Type} (h : Spells value t x)
    (f : α → β) : Spells (fun s => (value s).map fun p => (f p.1, p.2)) t (f x) := by
  refine ⟨h.starts, fun ws rest hw hr => ?_⟩
  rw [h.read ws rest hw hr]
  rfl

/-- A value behind a colon fills a member. -/
theorem Spells.fills {value : Text → Read α} {t : Text} {x : α} (h : Spells value t x)
    {before behind : Text} (hbefore : Gap before) (hbehind : Gap behind) :
    Fills value (before ++ ':' :: (behind ++ t)) x := by
  intro rest hr
  rw [readField, readColon, List.append_assoc, List.cons_append, skipSpace_gap hbefore (by decide),
    List.append_assoc]
  exact h.read behind rest hbehind hr

theorem readDocument_of_spells {value : Text → Read α} {t : Text} {x : α} (h : Spells value t x)
    {before behind : Text} (hbefore : Gap before) (hbehind : Gap behind) :
    readDocument value (before ++ (t ++ behind)) = .ok x := by
  have hends : Ends behind := by
    have hnil : Ends (behind ++ []) := hbehind.ends (by simp [Ends])
    rwa [List.append_nil] at hnil
  rw [readDocument, h.read before behind hbefore hends]
  simp only [skipSpace_of_gap hbehind, if_true]

end Subword.Json
