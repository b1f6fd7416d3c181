import Mathlib.Data.List.Forall2
import Subword.Proofs.Json.Reader
import Subword.Proofs.Text.Quoted

/-!
The grammar of documents, with any blanks between the parts and any escapes in the strings. Main statements: a
string is read as the text that it denotes, however its characters are written, and an array and the members of
an object are read in their order from any layout.
-/
namespace Subword.Json

variable {α σ κ : Type}

/-- The letter behind a backslash and the character that the two stand for. -/
inductive Escape : Char → Char → Prop
  | quote : Escape '"' '"'
  | backslash : Escape '\\' '\\'
  | slash : Escape '/' '/'
  | backspace : Escape 'b' '\x08'
  | formFeed : Escape 'f' '\x0c'
  | lineFeed : Escape 'n' '\n'
  | carriageReturn : Escape 'r' '\r'
  | tab : Escape 't' '\t'

abbrev HexUnit : Nat → Text → Prop := Text.HexDigits 4

/-- How a character may stand in a string: for itself, behind a backslash, or as one or two units in digits. -/
inductive Spelled : Char → Text → Prop
  | plain {c : Char} : c ≠ '"' → c ≠ '\\' → 0x20 ≤ c.toNat → Spelled c [c]
  | letter {l c : Char} : Escape l c → Spelled c ['\\', l]
  | unit {c : Char} {digits : Text} : HexUnit c.toNat digits → Spelled c ('\\' :: 'u' :: digits)
  | pair {c : Char} {high low : Nat} {digits digits' : Text} : isHighSurrogate high = true →
      isLowSurrogate low = true → c.toNat = (high - 0xD800) * 0x400 + (low - 0xDC00) + 0x10000 →
      HexUnit high digits → HexUnit low digits' →
      Spelled c ('\\' :: 'u' :: (digits ++ '\\' :: 'u' :: digits'))

/-- A string that denotes a text, behind its opening quote. -/
abbrev Quoted : Text → Text → Prop := Text.Quoted Spelled

/-- Any string, behind its opening quote. Half of a pair may stand alone. -/
inductive StringText : Text → Prop
  | closed : StringText ['"']
  | plain {c : Char} {s : Text} : c ≠ '"' → c ≠ '\\' → 0x20 ≤ c.toNat → StringText s → StringText (c :: s)
  | letter {l c : Char} {s : Text} : Escape l c → StringText s → StringText ('\\' :: l :: s)
  | unit {n : Nat} {digits s : Text} : HexUnit n digits → StringText s →
      StringText ('\\' :: 'u' :: (digits ++ s))

def Digits (ds : Text) : Prop := ds ≠ [] ∧ ∀ c ∈ ds, c.isDigit = true

inductive FractionText : Text → Prop
  | none : FractionText []
  | point {ds : Text} : Digits ds → FractionText ('.' :: ds)

inductive ExponentText : Text → Prop
  | none : ExponentText []
  | power {e : Char} {sign ds : Text} : e = 'e' ∨ e = 'E' → sign = [] ∨ sign = ['+'] ∨ sign = ['-'] →
      Digits ds → ExponentText (e :: (sign ++ ds))

inductive UnsignedText : Text → Prop
  | parts {whole fraction exponent : Text} : Digits whole → (whole.head? = some '0' → whole.length = 1) →
      FractionText fraction → ExponentText exponent → UnsignedText (whole ++ (fraction ++ exponent))

/-- The items of an array, each behind what parts it from the one before. -/
inductive ItemsText : (first : Bool) → List Text → Text → Prop
  | none {first : Bool} : ItemsText first [] []
  | item {first : Bool} {sep v s : Text} {vs : List Text} : Separator first sep →
      ItemsText false vs s → ItemsText first (v :: vs) (sep ++ (v ++ s))

/-- An array of values that are written as given. -/
def ArrayText (vs : List Text) (s : Text) : Prop :=
  ∃ items ws, ItemsText true vs items ∧ Gap ws ∧ s = '[' :: (items ++ (ws ++ [']']))

/-- The members of an object, each behind what parts it from the one before; a value is as written. -/
inductive MembersText (Key : κ → Text → Prop) : (first : Bool) → List (κ × Text) → Text → Prop
  | none {first : Bool} : MembersText Key first [] []
  | member {first : Bool} {name : κ} {sep key before behind v s : Text} {ms : List (κ × Text)} :
      Separator first sep → Key name key → Gap before → Gap behind → MembersText Key false ms s →
      MembersText Key first ((name, v) :: ms)
        (sep ++ '"' :: (key ++ ((before ++ ':' :: (behind ++ v)) ++ s)))

/-- An object of members whose values are written as given. -/
def ObjectText (Key : κ → Text → Prop) (ms : List (κ × Text)) (s : Text) : Prop :=
  ∃ members ws, MembersText Key true ms members ∧ Gap ws ∧ s = '\x7b' :: (members ++ (ws ++ ['\x7d']))

/-- A value of any shape and depth. -/
inductive WellFormed : Text → Prop
  | nullWord : WellFormed "null".toList
  | trueWord : WellFormed "true".toList
  | falseWord : WellFormed "false".toList
  | positive {s : Text} : UnsignedText s → WellFormed s
  | negative {s : Text} : UnsignedText s → WellFormed ('-' :: s)
  | string {s : Text} : StringText s → WellFormed ('"' :: s)
  | array {vs : List Text} {s : Text} : ArrayText vs s → (∀ v ∈ vs, WellFormed v) → WellFormed s
  | object {ms : List (Unit × Text)} {s : Text} : ObjectText (fun _ => StringText) ms s →
      (∀ m ∈ ms, WellFormed m.2) → WellFormed s

theorem exists_separator (first : Bool) : ∃ sep, Separator first sep := by
  cases first with
  | true => exact ⟨_, .start gap_nil⟩
  | false => exact ⟨_, .comma gap_nil gap_nil⟩

theorem exists_spelled (c : Char) : ∃ s, Spelled c s := by
  by_cases hcontrol : c.toNat < 0x20
  · have hfits : c.toNat < Nat.pow 16 4 := Nat.lt_trans hcontrol (by decide)
    obtain ⟨digits, hdigits⟩ := Text.exists_hexDigits 4 c.toNat hfits
    exact ⟨_, .unit hdigits⟩
  by_cases hquote : c = '"'
  · subst hquote
    exact ⟨_, .letter .quote⟩
  by_cases hbackslash : c = '\\'
  · subst hbackslash
    exact ⟨_, .letter .backslash⟩
  exact ⟨[c], .plain hquote hbackslash (Nat.le_of_not_lt hcontrol)⟩

/-- Every text can be written as a string. -/
theorem exists_quoted (t : Text) : ∃ s, Quoted t s := Text.exists_quoted exists_spelled t

theorem exists_arrayText (vs : List Text) : ∃ s, ArrayText vs s := by
  have hitems : ∀ first, ∃ items, ItemsText first vs items := by
    induction vs with
    | nil => exact fun _ => ⟨_, .none⟩
    | cons v vs ih =>
      intro first
      obtain ⟨sep, hsep⟩ := exists_separator first
      obtain ⟨items, hitems⟩ := ih false
      exact ⟨_, .item hsep hitems⟩
  obtain ⟨items, hitems⟩ := hitems true
  exact ⟨_, items, [], hitems, gap_nil, rfl⟩

theorem exists_objectText (ms : List (Text × Text)) : ∃ s, ObjectText Quoted ms s := by
  have hmembers : ∀ first, ∃ members, MembersText Quoted first ms members := by
    induction ms with
    | nil => exact fun _ => ⟨_, .none⟩
    | cons m ms ih =>
      intro first
      obtain ⟨sep, hsep⟩ := exists_separator first
      obtain ⟨key, hkey⟩ := exists_quoted m.1
      obtain ⟨members, hmembers⟩ := ih false
      exact ⟨_, .member hsep hkey gap_nil gap_nil hmembers⟩
  obtain ⟨members, hmembers⟩ := hmembers true
  exact ⟨_, members, [], hmembers, gap_nil, rfl⟩

theorem readUnit_hexUnit {n : Nat} {digits : Text} (h : HexUnit n digits) (rest : Text) :
    readUnit (digits ++ rest) = .ok (n, rest) := by
  obtain ⟨hlength, values, hvalues, rfl⟩ := h
  match digits, hlength with
  | [a, b, c, d], _ =>
    simp only [List.cons_append, List.nil_append, readUnit, hvalues]

theorem Escape.readEscape {l c : Char} (h : Escape l c) (rest : Text) :
    readEscape (l :: rest) = .ok (c, rest) := by
  cases h <;> rfl

theorem readEscape_unit {c : Char} {digits : Text} (h : HexUnit c.toNat digits) (rest : Text) :
    readEscape ('u' :: (digits ++ rest)) = .ok (c, rest) := by
  have hvalid : c.toNat < 0xD800 ∨ 0xDFFF < c.toNat ∧ c.toNat < 0x110000 := c.valid
  have hhigh : isHighSurrogate c.toNat = false := by
    simp only [isHighSurrogate, Bool.and_eq_false_iff, decide_eq_false_iff_not]
    omega
  have hlow : isLowSurrogate c.toNat = false := by
    simp only [isLowSurrogate, Bool.and_eq_false_iff, decide_eq_false_iff_not]
    omega
  simp only [Json.readEscape, readUnit_hexUnit h, hhigh, hlow, Char.ofNat_toNat]
  rfl

theorem readEscape_pair {c : Char} {high low : Nat} {digits digits' : Text}
    (hhigh : isHighSurrogate high = true) (hlow : isLowSurrogate low = true)
    (hc : c.toNat = (high - 0xD800) * 0x400 + (low - 0xDC00) + 0x10000) (h : HexUnit high digits)
    (h' : HexUnit low digits') (rest : Text) :
    readEscape ('u' :: (digits ++ '\\' :: 'u' :: (digits' ++ rest))) = .ok (c, rest) := by
  have hsecond : readLowSurrogate high ('\\' :: 'u' :: (digits' ++ rest)) = .ok (c, rest) := by
    simp only [readLowSurrogate, readUnit_hexUnit h', hlow, ← hc, Char.ofNat_toNat]
    rfl
  simp only [Json.readEscape, readUnit_hexUnit h, hhigh]
  exact hsecond

/-- A character is read from each way to write it. -/
theorem readString_spelled {c : Char} {s : Text} (h : Spelled c s) (rest : Text) :
    readString (s ++ rest) = (readString rest).map fun p => (c :: p.1, p.2) := by
  cases h with
  | plain hq hb hc => exact readString_plain hq hb (by omega) rest
  | letter hl => exact readString_escape (hl.readEscape rest)
  | unit hu => exact readString_escape (readEscape_unit hu rest)
  | pair hhigh hlow hc hu hu' =>
    have hescape := readEscape_pair hhigh hlow hc hu hu' rest
    simp only [List.cons_append, List.append_assoc]
    exact readString_escape hescape

/-- A string is read as the text that it denotes. -/
theorem Quoted.read {t s : Text} (h : Quoted t s) (rest : Text) : readString (s ++ rest) = .ok (t, rest) := by
  induction h with
  | closed => rw [List.singleton_append, readString, if_pos rfl]
  | char hc _ ih =>
    rw [List.append_assoc, readString_spelled hc, ih]
    rfl

theorem Quoted.spells {t s : Text} (h : Quoted t s) : Spells readText ('"' :: s) t := by
  refine ⟨⟨'"', s, rfl, by decide, by decide⟩, ?_⟩
  intro ws rest hw _
  rw [readText, List.cons_append, skipSpace_gap hw (by decide)]
  exact h.read rest

theorem ItemsText.ends {vs : List Text} {s rest : Text} (h : ItemsText false vs s) (hr : Ends rest) :
    Ends (s ++ rest) := by
  cases h with
  | none => exact hr
  | item hsep _ =>
    rw [List.append_assoc]
    exact hsep.ends

theorem MembersText.ends {Key : κ → Text → Prop} {ms : List (κ × Text)} {s rest : Text}
    (h : MembersText Key false ms s) (hr : Ends rest) : Ends (s ++ rest) := by
  cases h with
  | none => exact hr
  | member hsep _ _ _ _ =>
    rw [List.append_assoc]
    exact hsep.ends

/-- Reading an array goes on behind the items that have been read. -/
theorem readItems_append {item : Text → Read α} {first : Bool} {vs : List Text} {xs : List α}
    {s rest : Text} (h : ItemsText first vs s) (hv : List.Forall₂ (Spells item) vs xs) (hr : Ends rest)
    {fuel : Nat} (hf : s.length < fuel) : ∃ more, readItems item fuel first (s ++ rest) =
      (readItems item (more + 1) (first && vs.isEmpty) rest).map fun p => (xs ++ p.1, p.2) := by
  induction h generalizing xs fuel with
  | none =>
    cases hv
    obtain ⟨fuel, rfl⟩ := Nat.exists_eq_succ_of_ne_zero (Nat.ne_zero_of_lt hf)
    refine ⟨fuel, ?_⟩
    rw [List.isEmpty_nil, Bool.and_true, List.nil_append]
    cases readItems item (fuel + 1) _ rest <;> rfl
  | @item first sep v s vs hsep hs ih =>
    obtain ⟨x, xs, hx, hxs, rfl⟩ := List.forall₂_cons_left_iff.mp hv
    obtain ⟨fuel, rfl⟩ := Nat.exists_eq_succ_of_ne_zero (Nat.ne_zero_of_lt hf)
    have hread := hx.read [] (s ++ rest) gap_nil (hs.ends hr)
    obtain ⟨c, u, rfl, hc, hb⟩ := hx.starts
    have hrest : s.length < fuel := by
      simp only [List.length_append, List.length_cons] at hf
      omega
    obtain ⟨more, hmore⟩ := ih hxs hrest
    refine ⟨more, ?_⟩
    simp only [List.nil_append, List.cons_append] at hread
    rw [readItems, List.append_assoc, List.append_assoc, List.cons_append, nextItem_item hsep hc hb]
    simp only [hread, hmore, List.isEmpty_cons, Bool.and_false, Bool.false_and]
    cases readItems item (more + 1) false rest <;> rfl

/-- An array is read as the list of what its items spell. -/
theorem ArrayText.spells {item : Text → Read α} {vs : List Text} {xs : List α} {s : Text}
    (h : ArrayText vs s) (hv : List.Forall₂ (Spells item) vs xs) : Spells (readList item) s xs := by
  obtain ⟨items, gap, hitems, hgap, rfl⟩ := h
  refine ⟨⟨'[', _, rfl, by decide, by decide⟩, ?_⟩
  intro ws rest hw _
  have hends : Ends (gap ++ ']' :: rest) := hgap.ends (ends_cons _ (by decide))
  have hfuel : items.length < (items ++ (gap ++ ']' :: rest)).length + 1 := by
    rw [List.length_append]
    omega
  obtain ⟨more, hmore⟩ := readItems_append hitems hv hends hfuel
  have hclosed : readItems item (more + 1) (true && vs.isEmpty) (gap ++ ']' :: rest) = .ok ([], rest) := by
    rw [readItems, nextItem_closed hgap]
  rw [readList, List.cons_append, skipSpace_gap hw (by decide)]
  simp only [List.append_assoc, List.singleton_append, if_true, hmore, hclosed]
  change Except.ok (xs ++ [], rest) = _
  rw [List.append_nil]

/-- The drafts before and after members are taken, each with any blanks around its colon. -/
inductive Drafts (member : Text → σ → Text → Read σ) : σ → List (Text × Text) → σ → Prop
  | none {d : σ} : Drafts member d [] d
  | member {d d' d'' : σ} {name v : Text} {ms : List (Text × Text)} :
      (∀ before behind, Gap before → Gap behind → Takes member name d (before ++ ':' :: (behind ++ v)) d') →
      Drafts member d' ms d'' → Drafts member d ((name, v) :: ms) d''

/-- Reading an object goes on behind the members that have been taken. -/
theorem readMembers_append {member : Text → σ → Text → Read σ} (finish : σ → Except Fault α) {first : Bool}
    {ms : List (Text × Text)} {d d' : σ} {s rest : Text} (h : MembersText Quoted first ms s)
    (hd : Drafts member d ms d') (hr : Ends rest) {fuel : Nat} (hf : s.length < fuel) :
    ∃ more, readMembers member finish fuel first d (s ++ rest) =
      readMembers member finish (more + 1) (first && ms.isEmpty) d' rest := by
  induction h generalizing d fuel with
  | none =>
    cases hd
    obtain ⟨fuel, rfl⟩ := Nat.exists_eq_succ_of_ne_zero (Nat.ne_zero_of_lt hf)
    refine ⟨fuel, ?_⟩
    rw [List.isEmpty_nil, Bool.and_true, List.nil_append]
  | @member first name sep key before behind v s ms hsep hkey hbefore hbehind hs ih =>
    cases hd with
    | @member _ d₁ _ _ _ _ htakes hrest =>
      obtain ⟨fuel, rfl⟩ := Nat.exists_eq_succ_of_ne_zero (Nat.ne_zero_of_lt hf)
      have hshort : s.length < fuel := by
        simp only [List.length_append, List.length_cons] at hf
        omega
      obtain ⟨more, hmore⟩ := ih hrest hshort
      have hname := hkey.read ((before ++ ':' :: (behind ++ v)) ++ (s ++ rest))
      have htaken := htakes before behind hbefore hbehind (s ++ rest) (hs.ends hr)
      refine ⟨more, ?_⟩
      rw [readMembers]
      simp only [List.append_assoc, List.cons_append] at hname htaken ⊢
      rw [nextMember_member hsep]
      simp only [hname, htaken, hmore, List.isEmpty_cons, Bool.and_false, Bool.false_and]

theorem readParts_object {member : Text → σ → Text → Read σ} {finish : σ → Except Fault α} {start : σ}
    {positional : Text → Read α} {ws : Text} (hw : Gap ws) (s : Text) :
    readParts member finish start positional (ws ++ '\x7b' :: s) =
      readMembers member finish (s.length + 1) true start s := by
  rw [readParts, skipSpace_gap hw (by decide)]
  rfl

end Subword.Json
