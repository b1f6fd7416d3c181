import Mathlib.Data.List.DropRight
import Subword.Proofs.Toml.Lexeme
import Subword.Toml.Reader

/-!
Reading back TOML documents of pairs and tables. Main statement: a document, however its lines are laid out, is
read as its pairs and, behind them, its tables in their order, if no name comes twice where it is given.
-/
namespace Subword.Toml

variable {s t u rest name : Text} {v : Toml} {ts : List Text}

/-- The items of an array of strings up to its closing bracket. A comma may stand behind the last. -/
inductive StringsText : List Text → Text → Prop
  | closed : StringsText [] [']']
  | last {t s gap : Text} : Quoted t s → Gap gap → StringsText [t] ('"' :: (s ++ (gap ++ [']'])))
  | more {t s u before behind : Text} {ts : List Text} : Quoted t s → Gap before → Gap behind →
      StringsText ts u → StringsText (t :: ts) ('"' :: (s ++ (before ++ ',' :: (behind ++ u))))

/-- A value: a string, an integer of 64 bits, or an array of strings. -/
inductive ValueText : Toml → Text → Prop
  | string {t s : Text} : Quoted t s → ValueText (.string t) ('"' :: s)
  | integer {i : Int} {s : Text} : IntegerText i s → -0x8000000000000000 ≤ i → i < 0x8000000000000000 →
      ValueText (.integer i) s
  | strings {ts : List Text} {gap s : Text} : Gap gap → StringsText ts s →
      ValueText (.array (ts.map .string)) ('[' :: (gap ++ s))

/-- A line that says something, without its end: a pair or a header, with a key of one name. -/
inductive LineText : Line → Text → Prop
  | pair {name key before behind lead s tail : Text} {v : Toml} : Blanks before → NameText name key →
      Blanks behind → Blanks lead → ValueText v s → Tail tail →
      LineText (.pair ⟨[], name⟩ v) (before ++ (key ++ (behind ++ '=' :: (lead ++ (s ++ tail)))))
  | header {name key indent before behind tail : Text} : Blanks indent → Blanks before → NameText name key →
      Blanks behind → Tail tail →
      LineText (.header ⟨[], name⟩) (indent ++ '[' :: (before ++ (key ++ (behind ++ ']' :: tail))))

/-- Lines that say something, with others between them that are blank or hold a comment. -/
inductive LinesText : List Line → Text → Prop
  | done : LinesText [] []
  | blank {ls : List Line} {tail rest u : Text} : Tail tail → LineEnd rest u → LinesText ls u →
      LinesText ls (tail ++ rest)
  | line {l : Line} {ls : List Line} {s rest u : Text} : LineText l s → LineEnd rest u → LinesText ls u →
      LinesText (l :: ls) (s ++ rest)

def pairLines (entries : Entries) : List Line :=
  entries.map fun e => .pair ⟨[], e.1⟩ e.2

/-- The lines of a document: the pairs of its root, and tables with their headers. -/
def documentLines (top : Entries) (groups : List (Text × Entries)) : List Line :=
  pairLines top ++ groups.flatMap fun g => .header ⟨[], g.1⟩ :: pairLines g.2

/-- The root of a document: its pairs, and the tables behind them. -/
def rootOf (top : Entries) (groups : List (Text × Entries)) : Entries :=
  top ++ groups.map fun g => (g.1, .table .header g.2)

theorem Ends.noQuote (h : Ends rest) : rest.head? ≠ some '"' := by
  intro hquote
  rcases h '"' hquote with h | h | h | h | h | h | h <;> cases h

theorem readValue_string (h : Quoted t s) (hrest : Ends rest) (fuel room : Nat) :
    readValue (fuel + 1) room ('"' :: (s ++ rest)) = some (.string t, rest) := by
  have hstring : readString ('"' :: (s ++ rest)) = some (t, rest) := h.readString hrest.noQuote
  have hscalar : readValue (fuel + 1) room ('"' :: (s ++ rest)) = readScalar ('"' :: (s ++ rest)) := rfl
  rw [hscalar, readScalar, if_pos (.inl rfl), hstring]
  rfl

theorem StringsText.skipLines (h : StringsText ts s) (rest : Text) :
    skipLines false (s ++ rest) = s ++ rest := by
  cases h <;> exact skipLines_solid (by decide) _

theorem readItems_last {gap : Text} (h : Quoted t s) (hgap : Gap gap) (fuel room : Nat) (rest : Text) :
    readItems (fuel + 2) room ('"' :: (s ++ (gap ++ ']' :: rest))) = some ([.string t], rest) := by
  have hends : Ends (']' :: rest) := .of_cons (by decide) rest
  have hvalue := readValue_string h (hgap.ends hends) fuel room
  have hskip := hgap.skipLines (skipLines_solid (c := ']') (by decide) rest)
  rw [readItems]
  · simp only [hvalue, hskip]
  · exact fun _ heq => nomatch heq

theorem readItems_more {gap : Text} (h : Quoted t s) (hgap : Gap gap) (fuel room : Nat) (u : Text) :
    readItems (fuel + 2) room ('"' :: (s ++ (gap ++ ',' :: u))) =
      (readItems (fuel + 1) room (skipLines false u)).map fun p => (.string t :: p.1, p.2) := by
  have hends : Ends (',' :: u) := .of_cons (by decide) u
  have hvalue := readValue_string h (hgap.ends hends) fuel room
  have hskip := hgap.skipLines (skipLines_solid (c := ',') (by decide) u)
  rw [readItems]
  · simp only [hvalue, hskip]
  · exact fun _ heq => nomatch heq

/-- An array of strings is read up to its closing bracket. -/
theorem StringsText.read (h : StringsText ts s) {fuel : Nat} (hfuel : s.length < fuel) (room : Nat)
    (rest : Text) : readItems fuel room (s ++ rest) = some (ts.map .string, rest) := by
  induction h generalizing fuel with
  | closed =>
    obtain ⟨fuel, rfl⟩ := Nat.exists_eq_succ_of_ne_zero (Nat.ne_zero_of_lt hfuel)
    rfl
  | last hq hgap =>
    rw [List.length_cons] at hfuel
    obtain ⟨fuel, rfl⟩ := Nat.exists_eq_add_of_le' (by omega : 2 ≤ fuel)
    simp only [List.cons_append, List.append_assoc, List.nil_append]
    exact readItems_last hq hgap fuel room rest
  | more hq hbefore hbehind hu ih =>
    simp only [List.length_cons, List.length_append] at hfuel
    obtain ⟨fuel, rfl⟩ := Nat.exists_eq_add_of_le' (by omega : 2 ≤ fuel)
    have hrest := ih (by omega : _ < fuel + 1)
    have hskip := hbehind.skipLines (hu.skipLines rest)
    simp only [List.cons_append, List.append_assoc]
    rw [readItems_more hq hbefore, hskip, hrest]
    rfl

theorem readNumber_integer {i : Int} (h : IntegerText i s)
    (hfits : -0x8000000000000000 ≤ i ∧ i < 0x8000000000000000) (hrest : Ends rest) :
    readNumber (s ++ rest) = some (.integer i, rest) := by
  cases h with
  | digits n hsign =>
    rw [List.append_assoc, readNumber, hsign.skipDateTime n hrest, hsign.skipFloat n hrest,
      hsign.readInteger n hrest rfl hfits]
    rfl

/-- An integer starts with nothing that another value starts with. -/
theorem IntegerText.head {i : Int} (h : IntegerText i s) :
    ∃ c u, s = c :: u ∧ ∀ m ∈ [' ', '\t', '[', '\x7b', '"', '\'', 't', 'f'], c ≠ m := by
  cases h with
  | digits n hsign =>
    obtain ⟨d, ds, hdecimal, hd⟩ := exists_decimal n
    have hfresh : ∀ m ∈ [' ', '\t', '[', '\x7b', '"', '\'', 't', 'f'], d ≠ m := by
      rintro m hm rfl
      have hnone : ([' ', '\t', '[', '\x7b', '"', '\'', 't', 'f'].all fun m => !m.isDigit) = true := rfl
      have hmark := List.all_eq_true.mp hnone d hm
      rw [hd] at hmark
      cases hmark
    cases hsign with
    | absent => exact ⟨d, ds, hdecimal, hfresh⟩
    | plus => exact ⟨'+', _, rfl, List.forall_mem_ne.mpr (by decide)⟩
    | minus => exact ⟨'-', _, rfl, List.forall_mem_ne.mpr (by decide)⟩

theorem readValue_number {c : Char} (hc : ∀ m ∈ ['[', '\x7b', '"', '\'', 't', 'f'], c ≠ m) (fuel room : Nat)
    (s : Text) : readValue (fuel + 1) room (c :: s) = readNumber (c :: s) := by
  have hscalar : readValue (fuel + 1) room (c :: s) = readScalar (c :: s) := by
    rw [readValue]
    · exact fun _ heq => hc '[' (by decide) (List.cons.inj heq).1
    · exact fun _ heq => hc '\x7b' (by decide) (List.cons.inj heq).1
  have hquote : ¬(c = '"' ∨ c = '\'') := not_or.mpr ⟨hc '"' (by decide), hc '\'' (by decide)⟩
  rw [hscalar, readScalar, if_neg hquote, if_neg (hc 't' (by decide)), if_neg (hc 'f' (by decide))]

/-- A value is read up to what may stand behind it. -/
theorem ValueText.read (h : ValueText v s) {fuel : Nat} (hfuel : s.length < fuel) (room : Nat)
    (hrest : Ends rest) : readValue fuel (room + 1) (s ++ rest) = some (v, rest) := by
  obtain ⟨fuel, rfl⟩ := Nat.exists_eq_succ_of_ne_zero (Nat.ne_zero_of_lt hfuel)
  cases h with
  | string hq => exact readValue_string hq hrest fuel (room + 1)
  | integer hi hlow hhigh =>
    have hnumber := readNumber_integer hi ⟨hlow, hhigh⟩ hrest
    obtain ⟨c, u, rfl, hc⟩ := hi.head
    rw [List.cons_append] at hnumber ⊢
    rw [readValue_number fun m hm => hc m (List.mem_append_right [' ', '\t'] hm), hnumber]
  | strings hgap hs =>
    rw [List.length_cons, List.length_append] at hfuel
    have hitems := hs.read (by omega : _ < fuel) room rest
    have hskip := hgap.skipLines (hs.skipLines rest)
    rw [List.cons_append, List.append_assoc, readValue, hskip, hitems]
    rfl

theorem ValueText.head (h : ValueText v s) : ∃ c u, s = c :: u ∧ isBlank c = false := by
  cases h with
  | string _ => exact ⟨'"', _, rfl, by decide⟩
  | integer hi _ _ =>
    obtain ⟨c, u, rfl, hc⟩ := hi.head
    exact ⟨c, u, rfl, isBlank_eq_false fun m hm => hc m (List.mem_append_left _ hm)⟩
  | strings _ _ => exact ⟨'[', _, rfl, by decide⟩

/-- A key of one name is read up to the sign behind it. -/
theorem NameText.readKey {key before behind : Text} {c : Char} (h : NameText name key) (hbefore : Blanks before)
    (hbehind : Blanks behind) (hc : c = '=' ∨ c = ']') (rest : Text) :
    readKey (before ++ (key ++ (behind ++ c :: rest))) = some (⟨[], name⟩, c :: rest) := by
  have hnames : Toml.readNames 79 (before ++ (key ++ (behind ++ c :: rest))) = some ([name], c :: rest) :=
    h.readNames hbefore hbehind hc 78
  rw [Toml.readKey, depthLimit, hnames]
  rfl

theorem readLine_blank (h : lineEnd? s = some u) : readLine s = some (.blank, u) := by
  have hbracket : ∀ t, s ≠ '[' :: t := by
    rintro t rfl
    cases h
  rw [readLine, h]
  · exact fun t => hbracket _
  · exact hbracket

theorem readLine_pair {key behind lead tail : Text} (hname : NameText name key) (hbehind : Blanks behind)
    (hlead : Blanks lead) (hv : ValueText v s) (htail : Tail tail) (hend : LineEnd rest u) :
    readLine (key ++ (behind ++ '=' :: (lead ++ (s ++ (tail ++ rest))))) = some (.pair ⟨[], name⟩ v, u) := by
  have hkey := hname.readKey blanks_nil hbehind (.inl rfl) (lead ++ (s ++ (tail ++ rest)))
  have hvalue : readValue (2 * (lead ++ (s ++ (tail ++ rest))).length + 2) depthLimit (s ++ (tail ++ rest)) =
      some (v, tail ++ rest) := by
    apply hv.read
    · simp only [List.length_append]
      omega
    · exact htail.ends hend.ends
  have hskip : skipBlank (lead ++ (s ++ (tail ++ rest))) = s ++ (tail ++ rest) := by
    obtain ⟨d, w, rfl, hd⟩ := hv.head
    exact skipBlank_cons hlead hd
  obtain ⟨c, w, rfl, hc⟩ := hname.head
  rw [List.cons_append] at hkey ⊢
  rw [readLine, lineEnd?_solid fun m hm => hc m (List.mem_append_left ['['] hm)]
  · rw [List.nil_append] at hkey
    simp only [hkey, hskip, hvalue, htail.lineEnd? hend]
    rfl
  · exact fun _ heq => hc '[' (by decide) (List.cons.inj heq).1
  · exact fun _ heq => hc '[' (by decide) (List.cons.inj heq).1

theorem readLine_header {key before behind tail : Text} (hbefore : Blanks before) (hname : NameText name key)
    (hbehind : Blanks behind) (htail : Tail tail) (hend : LineEnd rest u) :
    readLine ('[' :: (before ++ (key ++ (behind ++ ']' :: (tail ++ rest))))) = some (.header ⟨[], name⟩, u) := by
  have hkey := hname.readKey hbefore hbehind (.inr rfl) (tail ++ rest)
  have hsingle : ∀ w, before ++ (key ++ (behind ++ ']' :: (tail ++ rest))) ≠ '[' :: w := by
    intro w heq
    cases before with
    | nil =>
      obtain ⟨c, k, rfl, hc⟩ := hname.head
      exact hc '[' (by decide) (List.cons.inj heq).1
    | cons b before =>
      have hb : isBlank b = true := hbefore b List.mem_cons_self
      rw [(List.cons.inj heq).1] at hb
      cases hb
  rw [readLine]
  · simp only [hkey, htail.lineEnd? hend]
    rfl
  · exact fun _ heq => hsingle _ heq

/-- A line is read from its first character that is no blank, up to the next line. -/
theorem LineText.read {l : Line} (h : LineText l s) (hend : LineEnd rest u) :
    ∃ c t, skipBlank (s ++ rest) = c :: t ∧ readLine (c :: t) = some (l, u) := by
  cases h with
  | pair hbefore hname hbehind hlead hv htail =>
    have hread := readLine_pair hname hbehind hlead hv htail hend
    obtain ⟨c, k, rfl, hc⟩ := hname.head
    have hblank : isBlank c = false :=
      isBlank_eq_false fun m hm => hc m (List.mem_append_left ['\n', '\r', '#', '['] hm)
    simp only [List.append_assoc, List.cons_append] at hread ⊢
    exact ⟨c, _, skipBlank_cons hbefore hblank, hread⟩
  | header hindent hbefore hname hbehind htail =>
    have hread := readLine_header hbefore hname hbehind htail hend
    simp only [List.append_assoc, List.cons_append] at hread ⊢
    exact ⟨'[', _, skipBlank_cons hindent (by decide), hread⟩

theorem LineEnd.length_lt {tail : Text} (h : LineEnd rest u) (hne : tail ++ rest ≠ []) :
    u.length < (tail ++ rest).length := by
  cases h with
  | last => exact List.length_pos_iff.mpr hne
  | broken hbr =>
    have hpos : ∀ br, Break br → 0 < br.length := fun _ hbr => by cases hbr <;> decide
    have hbr := hpos _ hbr
    simp only [List.length_append]
    omega

theorem lineEnd?_skipBlank (s : Text) : lineEnd? (skipBlank s) = lineEnd? s := by
  have hskip : skipBlank (skipBlank s) = skipBlank s := List.dropWhile_idempotent isBlank s
  unfold lineEnd?
  rw [hskip]

theorem ne_nil_of_skipBlank {c : Char} (h : skipBlank s = c :: t) : s ≠ [] := by
  rintro rfl
  cases h

theorem readLines_stop (h : skipBlank s = []) (fuel : Nat) (d : Draft) :
    readLines (fuel + 1) d s = some d.root := by
  rw [readLines, h]

theorem readLines_line {c : Char} {l : Line} (hskip : skipBlank s = c :: t) (hread : readLine (c :: t) = some (l, u))
    (fuel : Nat) (d : Draft) : readLines (fuel + 1) d s = (d.take l).bind fun d => readLines fuel d u := by
  rw [readLines, hskip]
  dsimp only
  rw [hread]
  dsimp only
  cases d.take l <;> rfl

/-- A document takes its lines one by one. -/
theorem LinesText.read {ls : List Line} (h : LinesText ls s) {fuel : Nat} (hfuel : s.length < fuel) (d : Draft) :
    readLines fuel d s = (ls.foldlM Draft.take d).map (·.root) := by
  induction h generalizing fuel d with
  | done =>
    obtain ⟨fuel, rfl⟩ := Nat.exists_eq_succ_of_ne_zero (Nat.ne_zero_of_lt hfuel)
    rfl
  | @blank ls tail rest u htail hend _ ih =>
    obtain ⟨fuel, rfl⟩ := Nat.exists_eq_succ_of_ne_zero (Nat.ne_zero_of_lt hfuel)
    have hline := htail.lineEnd? hend
    rw [← lineEnd?_skipBlank] at hline
    cases hskip : skipBlank (tail ++ rest) with
    | nil =>
      -- Nothing stands behind the blanks, so this line is the last.
      rw [hskip] at hline
      obtain rfl : [] = u := Option.some.inj hline
      rw [readLines_stop hskip, ← ih Nat.one_pos, readLines_stop rfl]
    | cons c t =>
      have hshort := hend.length_lt (ne_nil_of_skipBlank hskip)
      rw [hskip] at hline
      rw [readLines_line hskip (readLine_blank hline)]
      exact ih (by omega) d
  | @line l ls s rest u hl hend _ ih =>
    obtain ⟨fuel, rfl⟩ := Nat.exists_eq_succ_of_ne_zero (Nat.ne_zero_of_lt hfuel)
    obtain ⟨c, t, hskip, hread⟩ := hl.read hend
    have hshort := hend.length_lt (ne_nil_of_skipBlank hskip)
    rw [readLines_line hskip hread, List.foldlM_cons]
    cases hd : d.take l with
    | none => rfl
    | some d => exact ih (by omega) d

theorem lookup_eq_none_iff {α : Type} {entries : List (Text × α)} :
    entries.lookup name = none ↔ name ∉ entries.map Prod.fst := by
  rw [List.lookup_eq_none_iff, List.mem_map]
  constructor
  · rintro h ⟨e, he, rfl⟩
    exact bne_iff_ne.mp (h e he) rfl
  · intro h e he
    apply bne_iff_ne.mpr
    rintro rfl
    exact h ⟨e, he, rfl⟩

theorem mem_of_lookup {α : Type} {entries : List (Text × α)} {x : α} (h : entries.lookup name = some x) :
    (name, x) ∈ entries := by
  obtain ⟨before, behind, rfl, -⟩ := List.lookup_eq_some_iff.mp h
  exact List.mem_append_right before List.mem_cons_self

theorem fresh_of_nodup {α : Type} {before behind : List (Text × α)} {e : Text × α}
    (h : ((before ++ e :: behind).map Prod.fst).Nodup) : e.1 ∉ before.map Prod.fst := by
  rw [List.map_append, List.map_cons] at h
  obtain ⟨-, -, hdisjoint⟩ := List.nodup_append.mp h
  intro hmem
  exact hdisjoint _ hmem _ List.mem_cons_self rfl

theorem lookup_eq_some_iff_mem {α : Type} {entries : List (Text × α)} (hnames : (entries.map Prod.fst).Nodup)
    {x : α} : entries.lookup name = some x ↔ (name, x) ∈ entries := by
  refine ⟨mem_of_lookup, ?_⟩
  intro hmem
  obtain ⟨before, behind, rfl⟩ := List.append_of_mem hmem
  have hfresh : name ∉ before.map Prod.fst := fresh_of_nodup (e := (name, x)) hnames
  rw [List.lookup_append, lookup_eq_none_iff.mpr hfresh, Option.none_or, List.lookup_cons_self]

/-- What a table has at a name does not depend on the order of its entries. -/
theorem lookup_perm {α : Type} {entries entries' : List (Text × α)} (hperm : entries.Perm entries')
    (hnames : (entries.map Prod.fst).Nodup) (name : Text) : entries.lookup name = entries'.lookup name := by
  have hnames' : (entries'.map Prod.fst).Nodup := (hperm.map Prod.fst).nodup_iff.mp hnames
  apply Option.ext
  intro x
  rw [lookup_eq_some_iff_mem hnames, lookup_eq_some_iff_mem hnames', hperm.mem_iff]

theorem addDotted_new {entries : Entries} (h : name ∉ entries.map Prod.fst) (v : Toml) :
    addDotted name v [] entries = some (entries ++ [(name, v)]) := by
  rw [addDotted, lookup_eq_none_iff.mpr h]
  rfl

theorem change_group {root : Entries} (h : name ∉ root.map Prod.fst) (f : Entries → Option Entries)
    (entries : Entries) : change f [name] (root ++ [(name, .table .header entries)]) =
      (f entries).map fun entries => root ++ [(name, .table .header entries)] := by
  have hlookup : (root ++ [(name, Toml.table .header entries)]).lookup name = some (.table .header entries) := by
    rw [List.lookup_append, lookup_eq_none_iff.mpr h, Option.none_or, List.lookup_cons_self]
  have hreplace : ∀ v w, replace name v (root ++ [(name, w)]) = root ++ [(name, v)] := by
    intro v w
    have hkeep : ∀ e ∈ root, (if e.1 = name then (name, v) else e) = e := by
      intro e he
      have hne : e.1 ≠ name := fun heq => h (heq ▸ List.mem_map_of_mem he)
      exact if_neg hne
    rw [replace, List.map_append, List.map_congr_left hkeep, List.map_id', List.map_singleton, if_pos rfl]
  rw [change, hlookup]
  dsimp only
  rw [if_neg (by decide)]
  simp only [hreplace]
  rfl

/-- Pairs are added in their order, in the root or in the table of the last header. -/
theorem foldlM_pairLines {place : List Text} (context : Entries → Entries)
    (hplace : ∀ f entries, change f place (context entries) = (f entries).map context)
    (before : Entries) {entries : Entries} (hnames : ((before ++ entries).map Prod.fst).Nodup) :
    (pairLines entries).foldlM Draft.take ⟨context before, place⟩ =
      some ⟨context (before ++ entries), place⟩ := by
  induction entries generalizing before with
  | nil =>
    rw [List.append_nil]
    rfl
  | cons e entries ih =>
    have hsplit : before ++ e :: entries = (before ++ [e]) ++ entries := by simp
    have hfresh : e.1 ∉ before.map Prod.fst := fresh_of_nodup hnames
    rw [hsplit] at hnames ⊢
    have htake : Draft.take ⟨context before, place⟩ (.pair ⟨[], e.1⟩ e.2) =
        some ⟨context (before ++ [e]), place⟩ := by
      rw [Draft.take, hplace, addDotted_new hfresh]
      rfl
    change ((_ :: pairLines entries).foldlM Draft.take _) = _
    rw [List.foldlM_cons, htake]
    exact ih _ hnames

theorem take_header {root : Entries} (h : name ∉ root.map Prod.fst) (place : List Text) :
    Draft.take ⟨root, place⟩ (.header ⟨[], name⟩) = some ⟨root ++ [(name, .table .header [])], [name]⟩ := by
  rw [Draft.take, change, openTable, lookup_eq_none_iff.mpr h]
  rfl

/-- Tables are added behind what there is. -/
theorem foldlM_groups {root : Entries} {groups : List (Text × Entries)} (place : List Text)
    (hnames : ((rootOf root groups).map Prod.fst).Nodup) (hgroups : ∀ g ∈ groups, (g.2.map Prod.fst).Nodup) :
    ∃ place', (groups.flatMap fun g => .header ⟨[], g.1⟩ :: pairLines g.2).foldlM Draft.take ⟨root, place⟩ =
      some ⟨rootOf root groups, place'⟩ := by
  induction groups generalizing root place with
  | nil =>
    refine ⟨place, ?_⟩
    rw [rootOf, List.map_nil, List.append_nil]
    rfl
  | cons g groups ih =>
    obtain ⟨hg, hrest⟩ := List.forall_mem_cons.mp hgroups
    have hsplit : rootOf root (g :: groups) = rootOf (root ++ [(g.1, .table .header g.2)]) groups := by
      simp [rootOf]
    have hcons : rootOf root (g :: groups) = root ++ (g.1, .table .header g.2) :: rootOf [] groups := rfl
    have hfresh : g.1 ∉ root.map Prod.fst := fresh_of_nodup (hcons ▸ hnames)
    rw [hsplit] at hnames ⊢
    obtain ⟨place', hmore⟩ := ih [g.1] hnames hrest
    refine ⟨place', ?_⟩
    have hpairs := foldlM_pairLines _ (change_group hfresh) [] hg
    rw [List.flatMap_cons, List.cons_append, List.foldlM_cons, take_header hfresh]
    change ((pairLines g.2 ++ _).foldlM Draft.take _) = _
    rw [List.foldlM_append, hpairs]
    exact hmore

/-- A document is read as its root, however its lines are laid out. -/
theorem ofDocument?_lines {top : Entries} {groups : List (Text × Entries)} {document : Text}
    (hnames : ((rootOf top groups).map Prod.fst).Nodup) (hgroups : ∀ g ∈ groups, (g.2.map Prod.fst).Nodup)
    (h : LinesText (documentLines top groups) document) : ofDocument? document = some (rootOf top groups) := by
  have htop : (top.map Prod.fst).Nodup := by
    rw [rootOf, List.map_append] at hnames
    exact (List.nodup_append.mp hnames).1
  have hpairs : (pairLines top).foldlM Draft.take {} = some ⟨top, []⟩ :=
    foldlM_pairLines id (fun _ _ => Option.map_id'.symm) [] htop
  obtain ⟨place, hrest⟩ := foldlM_groups [] hnames hgroups
  have hread : readLines (document.length + 1) {} document = some (rootOf top groups) := by
    rw [h.read (Nat.lt_succ_self _), documentLines, List.foldlM_append, hpairs]
    change Option.map _ (List.foldlM _ _ _) = _
    rw [hrest]
    rfl
  unfold ofDocument?
  dsimp only
  split
  · rename_i s
    -- A byte order mark starts no line of such a document.
    have hmark : readLines (('\ufeff' :: s).length + 1) {} ('\ufeff' :: s) = none := by
      have hname : readKey ('\ufeff' :: s) = none := rfl
      have hline : readLine ('\ufeff' :: s) = none := by
        rw [readLine, lineEnd?_solid (List.forall_mem_ne.mpr (by decide)), hname]
        · exact fun _ heq => nomatch heq
        · exact fun _ heq => nomatch heq
      have hskip : skipBlank ('\ufeff' :: s) = '\ufeff' :: s := rfl
      rw [readLines, hskip]
      dsimp only
      rw [hline]
    rw [hmark] at hread
    cases hread
  · exact hread

theorem exists_spelled (c : Char) : ∃ s, Spelled c s := by
  have hfits : c.toNat < Nat.pow 16 8 := by
    have hvalid : c.toNat < 0xD800 ∨ 0xDFFF < c.toNat ∧ c.toNat < 0x110000 := c.valid
    have hsize : Nat.pow 16 8 = 0x100000000 := rfl
    omega
  obtain ⟨digits, hdigits⟩ := Text.exists_hexDigits 8 c.toNat hfits
  exact ⟨_, .long hdigits⟩

/-- Every text can be written. -/
theorem exists_quoted (t : Text) : ∃ s, Quoted t s := Text.exists_quoted exists_spelled t

theorem exists_nameText (name : Text) : ∃ s, NameText name s := by
  obtain ⟨s, hs⟩ := exists_quoted name
  exact ⟨_, .quoted hs⟩

theorem exists_valueText_string (t : Text) : ∃ s, ValueText (.string t) s := by
  obtain ⟨s, hs⟩ := exists_quoted t
  exact ⟨_, .string hs⟩

theorem exists_valueText_integer {i : Int} (hlow : -0x8000000000000000 ≤ i) (hhigh : i < 0x8000000000000000) :
    ∃ s, ValueText (.integer i) s := by
  obtain ⟨n, rfl | rfl⟩ := Int.eq_nat_or_neg i
  · exact ⟨_, .integer (.digits n .absent) hlow hhigh⟩
  · exact ⟨_, .integer (.digits n .minus) hlow hhigh⟩

theorem exists_valueText_strings (ts : List Text) : ∃ s, ValueText (.array (ts.map .string)) s := by
  have hitems : ∃ s, StringsText ts s := by
    induction ts with
    | nil => exact ⟨_, .closed⟩
    | cons t ts ih =>
      obtain ⟨s, hs⟩ := exists_quoted t
      obtain ⟨u, hu⟩ := ih
      exact ⟨_, .more hs (.blank blanks_nil) (.blank blanks_nil) hu⟩
  obtain ⟨s, hs⟩ := hitems
  exact ⟨_, .strings (.blank blanks_nil) hs⟩

theorem exists_linesText {ls : List Line} (h : ∀ l ∈ ls, ∃ s, LineText l s) : ∃ s, LinesText ls s := by
  induction ls with
  | nil => exact ⟨_, .done⟩
  | cons l ls ih =>
    obtain ⟨hl, hls⟩ := List.forall_mem_cons.mp h
    obtain ⟨s, hs⟩ := hl
    obtain ⟨u, hu⟩ := ih hls
    exact ⟨_, .line hs (.broken .lineFeed) hu⟩

/-- There is a document for any tables whose values can be written. -/
theorem exists_document {top : Entries} {groups : List (Text × Entries)} (htop : ∀ e ∈ top, ∃ s, ValueText e.2 s)
    (hgroups : ∀ g ∈ groups, ∀ e ∈ g.2, ∃ s, ValueText e.2 s) :
    ∃ document, LinesText (documentLines top groups) document := by
  have hpairs : ∀ entries : Entries, (∀ e ∈ entries, ∃ s, ValueText e.2 s) →
      ∀ l ∈ pairLines entries, ∃ s, LineText l s := by
    intro entries hentries l hl
    obtain ⟨e, he, rfl⟩ := List.mem_map.mp hl
    obtain ⟨s, hs⟩ := hentries e he
    obtain ⟨key, hkey⟩ := exists_nameText e.1
    exact ⟨_, .pair blanks_nil hkey blanks_nil blanks_nil hs (.blank blanks_nil)⟩
  apply exists_linesText
  intro l hl
  rcases List.mem_append.mp hl with hl | hl
  · exact hpairs top htop l hl
  · obtain ⟨g, hg, hl⟩ := List.mem_flatMap.mp hl
    rcases List.mem_cons.mp hl with rfl | hl
    · obtain ⟨key, hkey⟩ := exists_nameText g.1
      exact ⟨_, .header blanks_nil blanks_nil hkey blanks_nil (.blank blanks_nil)⟩
    · exact hpairs g.2 (hgroups g hg) l hl

end Subword.Toml
