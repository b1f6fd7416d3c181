import Mathlib.Data.List.TakeWhile
import Subword.Proofs.Text.Quoted
import Subword.Toml.Lexeme

/-!
Reading back the parts of a TOML text that hold no other values. Main statements: a name and a string are read as
the texts that they denote, and an integer as its value, so that the text goes on right behind them.
-/
namespace Subword.Toml

variable {s t rest : Text} {c : Char}

def Blanks (ws : Text) : Prop := ∀ c ∈ ws, isBlank c = true

inductive Break : Text → Prop
  | lineFeed : Break ['\n']
  | return : Break ['\r', '\n']

/-- The end of a line, or of the whole text, and what comes behind it. -/
inductive LineEnd : Text → Text → Prop
  | last : LineEnd [] []
  | broken {br s : Text} : Break br → LineEnd (br ++ s) s

/-- What may stand behind the last part of a line: blanks and a comment. -/
inductive Tail : Text → Prop
  | blank {ws : Text} : Blanks ws → Tail ws
  | comment {ws text : Text} : Blanks ws → (∀ c ∈ text, isCommentChar c = true) → Tail (ws ++ '#' :: text)

/-- What may stand between the parts of an array: line ends, blanks and comments. -/
inductive Gap : Text → Prop
  | blank {ws : Text} : Blanks ws → Gap ws
  | line {tail br gap : Text} : Tail tail → Break br → Gap gap → Gap (tail ++ (br ++ gap))

/-- The letter behind a backslash and the character that the two stand for. -/
inductive Escape : Char → Char → Prop
  | quote : Escape '"' '"'
  | backslash : Escape '\\' '\\'
  | backspace : Escape 'b' '\x08'
  | tab : Escape 't' '\t'
  | lineFeed : Escape 'n' '\n'
  | formFeed : Escape 'f' '\x0c'
  | carriageReturn : Escape 'r' '\r'

/-- How a character may stand in a string on one line: for itself, behind a backslash, or as its code point in
digits. -/
inductive Spelled : Char → Text → Prop
  | plain {c : Char} : c ≠ '"' → c ≠ '\\' → isCommentChar c = true → Spelled c [c]
  | letter {l c : Char} : Escape l c → Spelled c ['\\', l]
  | short {c : Char} {digits : Text} : Text.HexDigits 4 c.toNat digits → Spelled c ('\\' :: 'u' :: digits)
  | long {c : Char} {digits : Text} : Text.HexDigits 8 c.toNat digits → Spelled c ('\\' :: 'U' :: digits)

/-- A string on one line that denotes a text, behind its opening quote. -/
abbrev Quoted : Text → Text → Prop := Text.Quoted Spelled

/-- A name in a key: a bare word, or a string. -/
inductive NameText : Text → Text → Prop
  | bare {name : Text} : name ≠ [] → (∀ c ∈ name, isBareChar c = true) → NameText name name
  | quoted {name s : Text} : Quoted name s → NameText name ('"' :: s)

/-- The sign of a number, if it has one; true for minus. -/
inductive SignText : Bool → Text → Prop
  | absent : SignText false []
  | plus : SignText false ['+']
  | minus : SignText true ['-']

inductive IntegerText : Int → Text → Prop
  | digits {minus : Bool} {sign : Text} (n : Nat) : SignText minus sign →
      IntegerText (if minus then -n else n) (sign ++ Text.decimal n)

/-- A text that may go on behind a value. -/
def Ends (rest : Text) : Prop :=
  ∀ c ∈ rest.head?, c = ' ' ∨ c = '\t' ∨ c = '\n' ∨ c = '\r' ∨ c = '#' ∨ c = ',' ∨ c = ']'

theorem blanks_nil : Blanks [] := List.forall_mem_nil _

theorem skipBlank_append {ws : Text} (h : Blanks ws) (hrest : ∀ c ∈ rest.head?, isBlank c = false) :
    skipBlank (ws ++ rest) = rest := (Text.run_append h hrest).2

theorem skipBlank_cons {ws : Text} (h : Blanks ws) (hc : isBlank c = false) :
    skipBlank (ws ++ c :: s) = c :: s := by
  apply skipBlank_append h
  intro d hd
  cases hd
  exact hc

theorem isBlank_eq_false (h : ∀ m ∈ [' ', '\t'], c ≠ m) : isBlank c = false :=
  decide_eq_false (not_or.mpr ⟨h ' ' (by decide), h '\t' (by decide)⟩)

theorem LineEnd.notBlank {s : Text} (h : LineEnd rest s) : ∀ c ∈ rest.head?, isBlank c = false := by
  intro c hc
  cases h with
  | last => cases hc
  | broken hbr => cases hbr <;> cases hc <;> decide

theorem LineEnd.dropComment {s text : Text} (h : LineEnd rest s) (htext : ∀ c ∈ text, isCommentChar c = true) :
    (text ++ rest).dropWhile isCommentChar = rest := by
  apply (Text.run_append htext _).2
  intro c hc
  cases h with
  | last => cases hc
  | broken hbr => cases hbr <;> cases hc <;> decide

/-- The end of a line is found behind blanks and a comment. -/
theorem Tail.lineEnd? {tail : Text} (h : Tail tail) {s : Text} (hend : LineEnd rest s) :
    lineEnd? (tail ++ rest) = some s := by
  cases h with
  | blank hws =>
    rw [Toml.lineEnd?, skipBlank_append hws hend.notBlank]
    cases hend with
    | last => rfl
    | broken hbr => cases hbr <;> rfl
  | @comment ws text hws htext =>
    rw [Toml.lineEnd?, List.append_assoc, List.cons_append, skipBlank_cons hws (by decide)]
    simp only [hend.dropComment htext]
    cases hend with
    | last => rfl
    | broken hbr => cases hbr <;> rfl

theorem skipLines_blank (hc : isBlank c = true) (s : Text) : skipLines false (c :: s) = skipLines false s := by
  have hblank : c = ' ' ∨ c = '\t' := of_decide_eq_true hc
  rcases hblank with rfl | rfl <;> rfl

theorem skipLines_blanks {ws : Text} (h : Blanks ws) (s : Text) : skipLines false (ws ++ s) = skipLines false s := by
  induction ws with
  | nil => rfl
  | cons c ws ih =>
    obtain ⟨hc, hws⟩ := List.forall_mem_cons.mp h
    rw [List.cons_append, skipLines_blank hc, ih hws]

theorem skipLines_comment {text : Text} (h : ∀ c ∈ text, isCommentChar c = true) (s : Text) :
    skipLines true (text ++ s) = skipLines true s := by
  induction text with
  | nil => rfl
  | cons c text ih =>
    obtain ⟨hc, htext⟩ := List.forall_mem_cons.mp h
    rw [List.cons_append, skipLines, if_pos hc, ih htext]
    · rintro rfl
      cases hc
    · rintro s rfl
      cases hc

theorem Break.skipLines {br : Text} (h : Break br) (inComment : Bool) (s : Text) :
    skipLines inComment (br ++ s) = skipLines false s := by
  cases h <;> cases inComment <;> rfl

theorem skipLines_line {tail br : Text} (h : Tail tail) (hbr : Break br) (s : Text) :
    skipLines false (tail ++ (br ++ s)) = skipLines false s := by
  cases h with
  | blank hws => rw [skipLines_blanks hws, hbr.skipLines]
  | @comment ws text hws htext =>
    have hhash : skipLines false ('#' :: (text ++ (br ++ s))) = skipLines true (text ++ (br ++ s)) := rfl
    rw [List.append_assoc, List.cons_append, skipLines_blanks hws, hhash, skipLines_comment htext,
      hbr.skipLines]

/-- Blanks, comments and line ends are skipped up to what no line of them starts with. -/
theorem Gap.skipLines {gap : Text} (h : Gap gap) (hs : skipLines false s = s) :
    skipLines false (gap ++ s) = s := by
  induction h with
  | blank hws => rw [skipLines_blanks hws, hs]
  | line htail hbr _ ih => rw [List.append_assoc, List.append_assoc, skipLines_line htail hbr, ih]

theorem Ends.of_cons (hc : c = ' ' ∨ c = '\t' ∨ c = '\n' ∨ c = '\r' ∨ c = '#' ∨ c = ',' ∨ c = ']')
    (s : Text) : Ends (c :: s) := by
  intro d hd
  cases hd
  exact hc

theorem Blanks.ends {ws : Text} (h : Blanks ws) (hrest : Ends rest) : Ends (ws ++ rest) := by
  cases ws with
  | nil => exact hrest
  | cons c ws =>
    have hc : c = ' ' ∨ c = '\t' := of_decide_eq_true (h c List.mem_cons_self)
    exact .of_cons (hc.imp_right Or.inl) _

theorem Tail.ends {tail : Text} (h : Tail tail) (hrest : Ends rest) : Ends (tail ++ rest) := by
  cases h with
  | blank hws => exact hws.ends hrest
  | comment hws _ =>
    rw [List.append_assoc]
    exact hws.ends (.of_cons (by decide) _)

theorem Break.ends {br : Text} (h : Break br) (s : Text) : Ends (br ++ s) := by
  cases h <;> exact .of_cons (by decide) _

theorem LineEnd.ends (h : LineEnd rest s) : Ends rest := by
  cases h with
  | last => exact fun _ hc => nomatch hc
  | broken hbr => exact hbr.ends s

theorem Gap.ends {gap : Text} (h : Gap gap) (hrest : Ends rest) : Ends (gap ++ rest) := by
  cases h with
  | blank hws => exact hws.ends hrest
  | line htail hbr _ =>
    rw [List.append_assoc, List.append_assoc]
    exact htail.ends (hbr.ends _)

theorem readCodePoint_append {width : Nat} {digits : Text} (h : Text.HexDigits width c.toNat digits)
    (rest : Text) : readCodePoint width (digits ++ rest) = some (c, rest) := by
  obtain ⟨hlength, values, hvalues, hvalue⟩ := h
  have hvalid : c.toNat.isValidChar := c.valid
  have hwidth : values.length = width := (Text.length_of_mapM hvalues).trans hlength
  rw [readCodePoint, List.take_left' hlength, List.drop_left' hlength, hvalues]
  change (if values.length = width ∧ (Text.ofDigits 16 values).isValidChar then
    some (Char.ofNat (Text.ofDigits 16 values), rest) else none) = _
  rw [hvalue, if_pos ⟨hwidth, hvalid⟩, Char.ofNat_toNat]

theorem Escape.readEscape {l : Char} (h : Escape l c) (rest : Text) : readEscape (l :: rest) = some (c, rest) := by
  cases h <;> rfl

theorem readBasic_escape (h : readEscape s = some (c, rest)) :
    readBasic ('\\' :: s) = (readBasic rest).map fun p => (c :: p.1, p.2) := by
  rw [readBasic, if_neg (by decide), if_pos rfl]
  split
  · rename_i hnone
    cases hnone.symm.trans h
  · rename_i hsome
    cases hsome.symm.trans h
    rfl

/-- A character is read from each way to write it. -/
theorem readBasic_spelled (h : Spelled c s) (rest : Text) :
    readBasic (s ++ rest) = (readBasic rest).map fun p => (c :: p.1, p.2) := by
  cases h with
  | plain hq hb hc => rw [List.singleton_append, readBasic, if_neg hq, if_neg hb, if_pos hc]
  | letter hl => exact readBasic_escape (hl.readEscape rest)
  | short hdigits => exact readBasic_escape (readCodePoint_append hdigits rest)
  | long hdigits => exact readBasic_escape (readCodePoint_append hdigits rest)

/-- A string is read as the text that it denotes. -/
theorem Quoted.read (h : Quoted t s) (rest : Text) : readBasic (s ++ rest) = some (t, rest) := by
  induction h with
  | closed => rw [List.singleton_append, readBasic, if_pos rfl]
  | char hc _ ih =>
    rw [List.append_assoc, readBasic_spelled hc, ih]
    rfl

/-- A spelling starts with no quote. -/
theorem Spelled.head (h : Spelled c s) : ∃ d u, s = d :: u ∧ d ≠ '"' := by
  cases h with
  | plain hq _ _ => exact ⟨c, [], rfl, hq⟩
  | letter _ => exact ⟨'\\', _, rfl, by decide⟩
  | short _ => exact ⟨'\\', _, rfl, by decide⟩
  | long _ => exact ⟨'\\', _, rfl, by decide⟩

/-- A string is on one line unless a third quote comes behind two that hold nothing. -/
theorem Quoted.readString (h : Quoted t s) (hrest : rest.head? ≠ some '"') :
    readString ('"' :: (s ++ rest)) = some (t, rest) := by
  have hline : ∀ u, s ++ rest ≠ '"' :: '"' :: u := by
    intro u heq
    cases h with
    | closed =>
      obtain rfl := List.cons.inj heq |>.2
      exact hrest rfl
    | char hc _ =>
      obtain ⟨d, v, rfl, hd⟩ := hc.head
      exact hd (List.cons.inj heq).1
  rw [Toml.readString]
  · exact Quoted.read h rest
  · exact hline

/-- What starts with such a character is not the end of a line. -/
theorem lineEnd?_solid (hc : ∀ m ∈ [' ', '\t', '\n', '\r', '#'], c ≠ m) (s : Text) :
    lineEnd? (c :: s) = none := by
  have hblank : isBlank c = false := isBlank_eq_false fun m hm => hc m (List.mem_append_left ['\n', '\r', '#'] hm)
  have hskip : skipBlank (c :: s) = c :: s := skipBlank_cons blanks_nil hblank
  have hline : newline? (c :: s) = none := by
    unfold Toml.newline?
    split
    · rename_i heq
      exact absurd (List.cons.inj heq).1 (hc '\n' (by decide))
    · rename_i heq
      exact absurd (List.cons.inj heq).1 (hc '\r' (by decide))
    · rfl
  unfold lineEnd?
  rw [hskip]
  have hhash : c ≠ '#' := hc '#' (by decide)
  dsimp only
  split
  · rename_i heq
    split at heq
    · rename_i hcomment
      exact absurd (List.cons.inj hcomment).1 hhash
    · cases heq
  · split
    · rename_i hcomment
      exact absurd (List.cons.inj hcomment).1 hhash
    · exact hline

theorem skipLines_solid (hc : isBlank c = false ∧ c ≠ '#' ∧ c ≠ '\n' ∧ c ≠ '\r') (s : Text) :
    skipLines false (c :: s) = c :: s := by
  rw [skipLines, if_neg (Bool.eq_false_iff.mp hc.1), if_neg hc.2.1]
  · exact hc.2.2.1
  · exact fun _ h => absurd h hc.2.2.2

/-- A name is read up to what cannot belong to a bare word. -/
theorem NameText.read {name : Text} (h : NameText name s) (hrest : ∀ c ∈ rest.head?, isBareChar c = false) :
    readName (s ++ rest) = some (name, rest) := by
  cases h with
  | bare hne hbare =>
    cases s with
    | nil => exact absurd rfl hne
    | cons c s =>
      have hc : isBareChar c = true := hbare c List.mem_cons_self
      obtain ⟨htake, hdrop⟩ := Text.run_append hbare hrest
      have hquote : c ≠ '"' ∧ c ≠ '\'' := by
        constructor <;> · rintro rfl; cases hc
      rw [List.cons_append] at htake hdrop ⊢
      rw [readName, if_neg hquote.1, if_neg hquote.2, if_pos hc, htake, hdrop]
  | quoted hq => exact Quoted.read hq rest

/-- A name starts with nothing that a blank line or a header starts with. -/
theorem NameText.head {name : Text} (h : NameText name s) :
    ∃ c u, s = c :: u ∧ ∀ m ∈ [' ', '\t', '\n', '\r', '#', '['], c ≠ m := by
  cases h with
  | bare hne hbare =>
    cases s with
    | nil => exact absurd rfl hne
    | cons c s =>
      refine ⟨c, s, rfl, ?_⟩
      rintro m hm rfl
      have hnone : ([' ', '\t', '\n', '\r', '#', '['].all fun m => !isBareChar m) = true := rfl
      have hmark := List.all_eq_true.mp hnone c hm
      rw [hbare c List.mem_cons_self] at hmark
      cases hmark
  | quoted _ => exact ⟨'"', _, rfl, List.forall_mem_ne.mpr (by decide)⟩

theorem not_isBareChar_of_blanks {ws : Text} (h : Blanks ws) (hrest : ∀ c ∈ rest.head?, isBareChar c = false) :
    ∀ c ∈ (ws ++ rest).head?, isBareChar c = false := by
  cases ws with
  | nil => exact hrest
  | cons b ws =>
    have hb : b = ' ' ∨ b = '\t' := of_decide_eq_true (h b List.mem_cons_self)
    intro c hc
    cases hc
    rcases hb with rfl | rfl <;> decide

/-- A key of one name is read up to what stands behind its blanks. -/
theorem NameText.readNames {name before behind : Text} (h : NameText name s) (hbefore : Blanks before)
    (hbehind : Blanks behind) (hc : c = '=' ∨ c = ']') (most : Nat) :
    readNames (most + 1) (before ++ (s ++ (behind ++ c :: rest))) = some ([name], c :: rest) := by
  have hmark : isBlank c = false ∧ isBareChar c = false := by rcases hc with rfl | rfl <;> decide
  have hbare : ∀ d ∈ (behind ++ c :: rest).head?, isBareChar d = false := by
    apply not_isBareChar_of_blanks hbehind
    intro d hd
    cases hd
    exact hmark.2
  have hread : readName (s ++ (behind ++ c :: rest)) = some (name, behind ++ c :: rest) := h.read hbare
  obtain ⟨d, u, rfl, hd⟩ := h.head
  have hblank : isBlank d = false :=
    isBlank_eq_false fun m hm => hd m (List.mem_append_left ['\n', '\r', '#', '['] hm)
  rw [Toml.readNames, List.cons_append, skipBlank_cons hbefore hblank, ← List.cons_append, hread]
  dsimp only
  rw [skipBlank_cons hbehind hmark.1]
  rcases hc with rfl | rfl <;> rfl

theorem Ends.head (h : Ends (c :: s)) : c.isDigit = false ∧ c ∉ ['_', '.', 'e', 'E', 'x', 'o', 'b', '-', ':'] := by
  rcases h c rfl with rfl | rfl | rfl | rfl | rfl | rfl | rfl <;> decide

theorem Ends.noDigit (h : Ends rest) : ∀ c ∈ rest.head?, c.isDigit = false := by
  cases rest with
  | nil => exact fun _ hc => nomatch hc
  | cons c rest =>
    intro d hd
    cases hd
    exact h.head.1

theorem readDigits_more {ds : Text} (h : ∀ c ∈ ds, c.isDigit = true) (hrest : Ends rest) :
    readDigits.more Char.isDigit (ds ++ rest) = (ds, rest) := by
  induction ds with
  | nil =>
    cases rest with
    | nil => rfl
    | cons c rest =>
      obtain ⟨hc, hmark⟩ := hrest.head
      rw [List.nil_append, readDigits.more, if_neg (Bool.eq_false_iff.mp hc)]
      rintro _ _ rfl
      exact absurd List.mem_cons_self hmark
  | cons d ds ih =>
    obtain ⟨hd, hds⟩ := List.forall_mem_cons.mp h
    rw [List.cons_append, readDigits.more, if_pos hd, ih hds]
    rintro _ _ rfl
    cases hd

theorem readWhole_decimal (n : Nat) (hrest : Ends rest) :
    readWhole (Text.decimal n ++ rest) = some (Text.decimal n, rest) := by
  have hdigits : ∀ c ∈ Text.decimal n, c.isDigit = true := Text.isDigit_of_mem_decimal
  have hread : readDigits Char.isDigit (Text.decimal n ++ rest) = some (Text.decimal n, rest) := by
    cases hds : Text.decimal n with
    | nil => exact absurd hds (Text.decimal_ne_nil n)
    | cons d ds =>
      rw [hds] at hdigits
      obtain ⟨hd, hds⟩ := List.forall_mem_cons.mp hdigits
      rw [List.cons_append, readDigits, if_pos hd, readDigits_more hds hrest]
  have hzero : ¬((Text.decimal n).head? = some '0' ∧ (Text.decimal n).length ≠ 1) :=
    fun h => h.2 (Text.length_decimal_of_head h.1)
  rw [readWhole, hread]
  exact if_neg hzero

/-- A field of digits ends inside the digits of a number, or with them. -/
theorem readField_digits {width low high n : Nat} {ds : Text} (hrest : Ends rest)
    (hread : readField width low high (ds ++ rest) = some (n, s)) : s = ds.drop width ++ rest := by
  unfold readField at hread
  dsimp only at hread
  split at hread
  · rename_i h
    obtain ⟨hlength, hall, -⟩ := h
    cases hread
    apply List.drop_append_of_le_length
    by_contra hshort
    -- A field that is longer than the digits would hold the first character behind them.
    have hmore : width - ds.length ≠ 0 := by omega
    cases rest with
    | nil =>
      rw [List.append_nil, List.length_take] at hlength
      omega
    | cons c rest =>
      have hmem : c ∈ (ds ++ c :: rest).take width := by
        rw [List.take_append]
        apply List.mem_append_right
        obtain ⟨k, hk⟩ := Nat.exists_eq_succ_of_ne_zero hmore
        rw [hk, List.take_succ_cons]
        exact List.mem_cons_self
      have hdigit := List.all_eq_true.mp hall c hmem
      rw [hrest.head.1] at hdigit
      cases hdigit
  · cases hread

/-- No mark of dates stands behind a field of a number. -/
theorem word?_behind_field {width low high n : Nat} {m : Char} {ds : Text} (hm : m = '-' ∨ m = ':')
    (h : ∀ c ∈ ds, c.isDigit = true) (hrest : Ends rest)
    (hread : readField width low high (ds ++ rest) = some (n, s)) : word? [m] s = none := by
  rw [readField_digits hrest hread]
  cases hdrop : ds.drop width with
  | cons d ds' =>
    have hd : d ≠ m := by
      rintro rfl
      have hmem : d ∈ ds.drop width := hdrop ▸ List.mem_cons_self
      have hdigit := h d (List.mem_of_mem_drop hmem)
      rcases hm with rfl | rfl <;> cases hdigit
    rw [List.cons_append, word?, if_neg hd]
  | nil =>
    cases rest with
    | nil => rfl
    | cons c rest =>
      have hc : c ≠ m := by
        rintro rfl
        have hmark := hrest.head.2
        rcases hm with rfl | rfl <;> exact hmark (by decide)
      rw [List.nil_append, word?, if_neg hc]

/-- Digits that no mark of dates follows are neither a date nor a time. -/
theorem skipDateTime_digits {ds : Text} (h : ∀ c ∈ ds, c.isDigit = true) (hrest : Ends rest) :
    skipDateTime (ds ++ rest) = none := by
  have hdate : skipDate (ds ++ rest) = none := by
    cases hyear : readField 4 0 9999 (ds ++ rest) with
    | none => rw [skipDate, hyear]; rfl
    | some year =>
      obtain ⟨n, s⟩ := year
      have hword : word? ['-'] s = none := word?_behind_field (.inl rfl) h hrest hyear
      rw [skipDate, hyear]
      change (word? ['-'] s).bind _ = none
      rw [hword]
      rfl
  have htime : skipTime (ds ++ rest) = none := by
    cases hhour : readField 2 0 23 (ds ++ rest) with
    | none => rw [skipTime, hhour]; rfl
    | some hour =>
      obtain ⟨n, s⟩ := hour
      have hword : word? [':'] s = none := word?_behind_field (.inr rfl) h hrest hhour
      rw [skipTime, hhour]
      change (word? [':'] s).bind _ = none
      rw [hword]
      rfl
  rw [skipDateTime, hdate]
  exact htime

theorem readField_of_head {width low high : Nat} (hwidth : width ≠ 0) (hc : c.isDigit = false) (s : Text) :
    readField width low high (c :: s) = none := by
  obtain ⟨k, rfl⟩ := Nat.exists_eq_succ_of_ne_zero hwidth
  apply if_neg
  rintro ⟨-, hall, -⟩
  have hdigit := List.all_eq_true.mp hall c (by rw [List.take_succ_cons]; exact List.mem_cons_self)
  rw [hc] at hdigit
  cases hdigit

theorem skipDateTime_of_head (hc : c.isDigit = false) (s : Text) : skipDateTime (c :: s) = none := by
  rw [skipDateTime, skipDate, readField_of_head (by decide) hc, skipTime, readField_of_head (by decide) hc]
  rfl

theorem readFraction_of_ends (hrest : Ends rest) : readFraction rest = none := by
  unfold readFraction
  split
  · exact absurd (by decide) hrest.head.2
  · rfl

theorem readExponent_of_ends (hrest : Ends rest) : readExponent rest = none := by
  cases rest with
  | nil => rfl
  | cons c rest =>
    apply if_neg
    rintro (rfl | rfl) <;> exact absurd (by decide) hrest.head.2

section Integer

variable {minus : Bool} {sign : Text}

theorem exists_decimal (n : Nat) : ∃ d ds, Text.decimal n = d :: ds ∧ d.isDigit = true := by
  cases h : Text.decimal n with
  | nil => exact absurd h (Text.decimal_ne_nil n)
  | cons d ds =>
    have hmem : d ∈ Text.decimal n := h ▸ List.mem_cons_self
    exact ⟨d, ds, rfl, Text.isDigit_of_mem_decimal d hmem⟩

theorem SignText.readSign (h : SignText minus sign) (n : Nat) (rest : Text) :
    readSign (sign ++ (Text.decimal n ++ rest)) = (minus, Text.decimal n ++ rest) := by
  obtain ⟨d, ds, hdecimal, hd⟩ := exists_decimal n
  have hmark : ∀ m u, m = '-' ∨ m = '+' → Text.decimal n ++ rest ≠ m :: u := by
    intro m u hm heq
    rw [hdecimal] at heq
    obtain rfl := (List.cons.inj heq).1
    rcases hm with rfl | rfl <;> cases hd
  cases h with
  | absent =>
    rw [List.nil_append, Toml.readSign]
    · exact fun u => hmark '-' u (.inl rfl)
    · exact fun u => hmark '+' u (.inr rfl)
  | plus => rfl
  | minus => rfl

/-- A number is neither a date nor a time. -/
theorem SignText.skipDateTime (h : SignText minus sign) (n : Nat) (hrest : Ends rest) :
    skipDateTime (sign ++ (Text.decimal n ++ rest)) = none := by
  cases h with
  | absent =>
    rw [List.nil_append]
    exact skipDateTime_digits Text.isDigit_of_mem_decimal hrest
  | plus => exact skipDateTime_of_head (by decide) _
  | minus => exact skipDateTime_of_head (by decide) _

/-- A number without a fraction and an exponent is no float. -/
theorem SignText.skipFloat (h : SignText minus sign) (n : Nat) (hrest : Ends rest) :
    skipFloat (sign ++ (Text.decimal n ++ rest)) = none := by
  obtain ⟨d, ds, hdecimal, hd⟩ := exists_decimal n
  have hword : ∀ w word, w.isDigit = false → word? (w :: word) (Text.decimal n ++ rest) = none := by
    intro w word hw
    rw [hdecimal]
    apply if_neg
    rintro rfl
    rw [hw] at hd
    cases hd
  have hinf : word? "inf".toList (Text.decimal n ++ rest) = none := hword 'i' _ (by decide)
  have hnan : word? "nan".toList (Text.decimal n ++ rest) = none := hword 'n' _ (by decide)
  unfold Toml.skipFloat
  rw [h.readSign]
  simp only [hinf, hnan, readWhole_decimal n hrest, readFraction_of_ends hrest, readExponent_of_ends hrest,
    Option.map_none, Option.getD_none]
  rfl

/-- The digits of a number are decimal ones: no letter of another base comes behind a zero. -/
theorem SignText.decimalBase (h : SignText minus sign) (n : Nat) (hrest : Ends rest) {m : Char}
    (hm : m = 'x' ∨ m = 'o' ∨ m = 'b') (u : Text) : sign ++ (Text.decimal n ++ rest) ≠ '0' :: m :: u := by
  intro heq
  cases h with
  | absent =>
    obtain ⟨d, ds, hdecimal, hd⟩ := exists_decimal n
    rw [List.nil_append, hdecimal, List.cons_append] at heq
    obtain ⟨rfl, htail⟩ := List.cons.inj heq
    have hlength : (Text.decimal n).length = 1 := Text.length_decimal_of_head (hdecimal ▸ rfl)
    rw [hdecimal, List.length_cons] at hlength
    obtain rfl := List.eq_nil_of_length_eq_zero (Nat.succ_injective hlength)
    rw [List.nil_append] at htail
    subst htail
    have hmark := hrest.head.2
    rcases hm with rfl | rfl | rfl <;> exact hmark (by decide)
  | plus => cases heq
  | minus => cases heq

/-- An integer is read as its value if it fits. -/
theorem SignText.readInteger (h : SignText minus sign) (n : Nat) (hrest : Ends rest) {i : Int}
    (hi : i = if minus then -(n : Int) else n) (hfits : -0x8000000000000000 ≤ i ∧ i < 0x8000000000000000) :
    readInteger (sign ++ (Text.decimal n ++ rest)) = some (i, rest) := by
  unfold Toml.readInteger
  dsimp only
  split
  · exact absurd ‹_› (h.decimalBase n hrest (by decide) _)
  · exact absurd ‹_› (h.decimalBase n hrest (by decide) _)
  · exact absurd ‹_› (h.decimalBase n hrest (by decide) _)
  · rw [h.readSign, readWhole_decimal n hrest, Option.map_some, Text.ofDecimal_decimal, ← hi]
    exact if_pos (decide_eq_true hfits)

end Integer

end Subword.Toml
