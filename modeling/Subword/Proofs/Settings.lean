import Mathlib.Data.List.Nodup
import Subword.Proofs.Toml.Document
import Subword.Proofs.Utf8.Decoding
import Subword.Settings

/-!
Settings from files that state some of them. Main statement: a file that states any of the settings, laid out in any
way and with any other keys in its tables, is loaded; each setting is as stated, and the default otherwise.
-/
namespace Subword.Settings

open Subword.Toml (Entries LinesText ValueText documentLines rootOf)

/-- Which of the settings are stated, and as what. A limit has to fit an integer of the format. -/
structure Choice where
  encoding : Option Text
  strings : Option Nat
  ids : Option Nat
  examples : Option (List Text)
  strings_fit : ∀ n ∈ strings, n < 0x8000000000000000
  ids_fit : ∀ n ∈ ids, n < 0x8000000000000000

/-- The keys of the root table that have a meaning. -/
def rootKeys : List Text := ["encoding".toList, "display".toList, "session".toList]

def displayKeys : List Text := ["max_token_strings".toList, "max_token_ids".toList]

def sessionKeys : List Text := ["examples".toList]

/-- The entry that states a setting, if it is stated. -/
def entry {α : Type} (name : Text) (value : α → Toml) (o : Option α) : Entries :=
  o.toList.map fun x => (name, value x)

namespace Choice

/-- The settings that are stated, and the defaults of the others. -/
def merged (c : Choice) : Settings where
  encoding := c.encoding.getD ({} : Settings).encoding
  limits :=
    { strings := c.strings.getD ({} : Breakdown.Limits).strings
      ids := c.ids.getD ({} : Breakdown.Limits).ids }
  examples := c.examples.getD ({} : Settings).examples

def root (c : Choice) : Entries :=
  entry "encoding".toList .string c.encoding

def display (c : Choice) : Entries :=
  entry "max_token_strings".toList (fun n : Nat => .integer n) c.strings ++
    entry "max_token_ids".toList (fun n : Nat => .integer n) c.ids

def session (c : Choice) : Entries :=
  entry "examples".toList (fun ts => .array (ts.map .string)) c.examples

end Choice

/-- A value of a key without a meaning: a string, or an integer of 64 bits. -/
inductive Plain : Toml → Prop
  | string (t : Text) : Plain (.string t)
  | integer {i : Int} : -0x8000000000000000 ≤ i → i < 0x8000000000000000 → Plain (.integer i)

/-- A table with these entries in any order, and with others between them whose keys have no meaning. -/
def Extends (known : List Text) (stated entries : Entries) : Prop :=
  ∃ others, entries.Perm (stated ++ others) ∧ (others.map Prod.fst).Nodup ∧
    ∀ e ∈ others, e.1 ∉ known ∧ Plain e.2

/-- The root table and the tables with headers that state a choice. A table with a header comes once at most, in
any order, and may be left out if nothing is stated in it. -/
structure Choice.Tables (c : Choice) (top : Entries) (groups : List (Text × Entries)) : Prop where
  root : Extends rootKeys c.root top
  group : ∀ g ∈ groups, g.1 = "display".toList ∧ Extends displayKeys c.display g.2 ∨
    g.1 = "session".toList ∧ Extends sessionKeys c.session g.2
  once : (groups.map Prod.fst).Nodup
  display : c.display ≠ [] → "display".toList ∈ groups.map Prod.fst
  session : c.session ≠ [] → "session".toList ∈ groups.map Prod.fst

section Entry

variable {α : Type} {name : Text} {value : α → Toml}

theorem entry_names (name : Text) (value : α → Toml) (o : Option α) :
    ((entry name value o).map Prod.fst).Sublist [name] := by
  cases o with
  | none => exact List.nil_sublist _
  | some x => exact List.Sublist.refl _

theorem lookup_entry (o : Option α) : (entry name value o).lookup name = o.map value := by
  cases o with
  | none => rfl
  | some x => exact List.lookup_cons_self

theorem lookup_entry_of_ne {name' : Text} (h : name' ≠ name) (o : Option α) :
    (entry name value o).lookup name' = none := by
  apply Toml.lookup_eq_none_iff.mpr
  intro hmem
  have hname := (entry_names name value o).subset hmem
  exact h (List.mem_singleton.mp hname)

theorem entry_writable {o : Option α} (h : ∀ x ∈ o, ∃ s, ValueText (value x) s) :
    ∀ e ∈ entry name value o, ∃ s, ValueText e.2 s := by
  intro e he
  obtain ⟨x, hx, rfl⟩ := List.mem_map.mp he
  exact h x (Option.mem_toList.mp hx)

/-- A setting has its stated value if this is read, and the default if it is not stated. -/
theorem stated_map {read : Toml → Option α} {o : Option α} (h : ∀ x, read (value x) = some x) (default : α) :
    stated (o.map value) read default = some (o.getD default) := by
  cases o with
  | none => rfl
  | some x => exact h x

end Entry

section Extends

variable {known : List Text} {stated entries : Entries} {name : Text}

theorem Extends.nodup (h : Extends known stated entries) (hknown : known.Nodup)
    (hstated : (stated.map Prod.fst).Sublist known) : (entries.map Prod.fst).Nodup := by
  obtain ⟨others, hperm, hothers, hfresh⟩ := h
  apply (hperm.map Prod.fst).nodup_iff.mpr
  rw [List.map_append]
  refine List.nodup_append.mpr ⟨hknown.sublist hstated, hothers, ?_⟩
  rintro name hname _ hother rfl
  obtain ⟨e, he, rfl⟩ := List.mem_map.mp hother
  exact (hfresh e he).1 (hstated.subset hname)

/-- A known key has what is stated of it, and nothing if nothing is. -/
theorem Extends.lookup (h : Extends known stated entries) (hknown : known.Nodup)
    (hstated : (stated.map Prod.fst).Sublist known) (hname : name ∈ known) :
    entries.lookup name = stated.lookup name := by
  have hnodup := h.nodup hknown hstated
  obtain ⟨others, hperm, -, hfresh⟩ := h
  have hnone : others.lookup name = none := by
    apply Toml.lookup_eq_none_iff.mpr
    intro hmem
    obtain ⟨e, he, rfl⟩ := List.mem_map.mp hmem
    exact (hfresh e he).1 hname
  rw [Toml.lookup_perm hperm hnodup, List.lookup_append, hnone, Option.or_none]

theorem Plain.writable {v : Toml} (h : Plain v) : ∃ s, ValueText v s := by
  cases h with
  | string t => exact Toml.exists_valueText_string t
  | integer hlow hhigh => exact Toml.exists_valueText_integer hlow hhigh

theorem Extends.writable (h : Extends known stated entries) (hstated : ∀ e ∈ stated, ∃ s, ValueText e.2 s) :
    ∀ e ∈ entries, ∃ s, ValueText e.2 s := by
  obtain ⟨others, hperm, -, hfresh⟩ := h
  intro e he
  rcases List.mem_append.mp (hperm.mem_iff.mp he) with he | he
  · exact hstated e he
  · exact (hfresh e he).2.writable

end Extends

theorem limit?_integer (n : Nat) : limit? (.integer n) = some n := by
  have hpos : (0 : Int) ≤ n := Int.natCast_nonneg n
  rw [limit?, if_pos hpos, Int.toNat_natCast]

theorem texts?_strings (ts : List Text) : texts? (.array (ts.map .string)) = some ts := by
  have hitems : (ts.map Toml.string).mapM text? = some ts := by
    induction ts with
    | nil => rfl
    | cons t ts ih =>
      rw [List.map_cons, List.mapM_cons, ih]
      rfl
  exact hitems

variable {c : Choice} {top entries : Entries} {groups : List (Text × Entries)}

theorem root_names (c : Choice) : (c.root.map Prod.fst).Sublist rootKeys :=
  (entry_names _ _ c.encoding).trans (List.sublist_append_left _ _)

theorem display_names (c : Choice) : (c.display.map Prod.fst).Sublist displayKeys := by
  rw [Choice.display, List.map_append]
  exact (entry_names _ _ c.strings).append (entry_names _ _ c.ids)

theorem session_names (c : Choice) : (c.session.map Prod.fst).Sublist sessionKeys :=
  entry_names _ _ c.examples

/-- The limits of a table that states some of them. -/
theorem limits?_extends (h : Extends displayKeys c.display entries) :
    limits? (.table .header entries) = some c.merged.limits := by
  have hstrings : entries.lookup "max_token_strings".toList = c.strings.map fun n : Nat => .integer n := by
    rw [h.lookup (by decide) (display_names c) (by decide), Choice.display, List.lookup_append, lookup_entry,
      lookup_entry_of_ne (by decide), Option.or_none]
  have hids : entries.lookup "max_token_ids".toList = c.ids.map fun n : Nat => .integer n := by
    rw [h.lookup (by decide) (display_names c) (by decide), Choice.display, List.lookup_append, lookup_entry,
      lookup_entry_of_ne (by decide), Option.none_or]
  have hparts : limits? (.table .header entries) =
      (do
        let strings ← stated (entries.lookup "max_token_strings".toList) limit? ({} : Breakdown.Limits).strings
        let ids ← stated (entries.lookup "max_token_ids".toList) limit? ({} : Breakdown.Limits).ids
        return ⟨strings, ids⟩) := rfl
  rw [hparts, hstrings, hids, stated_map limit?_integer, stated_map limit?_integer]
  rfl

theorem examples?_extends (h : Extends sessionKeys c.session entries) :
    examples? (.table .header entries) = some c.merged.examples := by
  have hexamples : entries.lookup "examples".toList = c.examples.map fun ts => .array (ts.map .string) := by
    rw [h.lookup (by decide) (session_names c) (by decide), Choice.session, lookup_entry]
  have hparts : examples? (.table .header entries) =
      stated (entries.lookup "examples".toList) texts? ({} : Settings).examples := rfl
  rw [hparts, hexamples, stated_map texts?_strings]
  rfl

theorem lookup_rootOf (top : Entries) (groups : List (Text × Entries)) (name : Text) :
    (rootOf top groups).lookup name = (top.lookup name).or ((groups.lookup name).map (.table .header)) := by
  have hgroups : (groups.map fun g => (g.1, Toml.table .header g.2)).lookup name =
      (groups.lookup name).map (.table .header) := by
    induction groups with
    | nil => rfl
    | cons g groups ih =>
      rw [List.map_cons, List.lookup_cons, List.lookup_cons, ih]
      split <;> rfl
  rw [rootOf, List.lookup_append, hgroups]

/-- The settings of a table are as stated in it, or the table is missing and they are the defaults. -/
theorem stated_group {α : Type} {read : Toml → Option α} {default x : α} {known : List Text} {stated' : Entries}
    {name : Text} (htop : top.lookup name = none)
    (hgroup : ∀ entries, (name, entries) ∈ groups → Extends known stated' entries)
    (hmissing : stated' ≠ [] → name ∈ groups.map Prod.fst)
    (hread : ∀ {entries}, Extends known stated' entries → read (.table .header entries) = some x)
    (hdefault : read (.table .header []) = some default) :
    stated ((rootOf top groups).lookup name) read default = some x := by
  rw [lookup_rootOf, htop, Option.none_or]
  cases hlookup : groups.lookup name with
  | none =>
    have hempty : stated' = [] := by
      by_contra hstated
      exact Toml.lookup_eq_none_iff.mp hlookup (hmissing hstated)
    have hextends : Extends known stated' [] := by
      rw [hempty]
      exact ⟨[], .nil, List.nodup_nil, List.forall_mem_nil _⟩
    exact hdefault.symm.trans (hread hextends)
  | some entries => exact hread (hgroup entries (Toml.mem_of_lookup hlookup))

namespace Choice.Tables

theorem names (h : c.Tables top groups) {name : Text} (hname : name ∈ groups.map Prod.fst) :
    name = "display".toList ∨ name = "session".toList := by
  obtain ⟨g, hg, rfl⟩ := List.mem_map.mp hname
  exact (h.group g hg).imp And.left And.left

theorem lookup_top (h : c.Tables top groups) {name : Text} (hname : name ∈ rootKeys) :
    top.lookup name = c.root.lookup name :=
  h.root.lookup (by decide) (root_names c) hname

theorem encoding (h : c.Tables top groups) :
    stated ((rootOf top groups).lookup "encoding".toList) text? ({} : Settings).encoding =
      some c.merged.encoding := by
  have htop : top.lookup "encoding".toList = c.encoding.map .string := by
    rw [h.lookup_top (by decide), Choice.root, lookup_entry]
  have hnone : groups.lookup "encoding".toList = none := by
    apply Toml.lookup_eq_none_iff.mpr
    intro hmem
    rcases h.names hmem with heq | heq <;> exact absurd heq (by decide)
  have htext : ∀ t, text? (.string t) = some t := fun _ => rfl
  rw [lookup_rootOf, htop, hnone, Option.map_none, Option.or_none, stated_map htext]
  rfl

theorem limits (h : c.Tables top groups) :
    stated ((rootOf top groups).lookup "display".toList) limits? {} = some c.merged.limits := by
  have htop : top.lookup "display".toList = none := by
    rw [h.lookup_top (by decide), Choice.root, lookup_entry_of_ne (by decide)]
  have hgroup : ∀ entries, ("display".toList, entries) ∈ groups → Extends displayKeys c.display entries := by
    intro entries hentries
    rcases h.group _ hentries with ⟨-, hextends⟩ | ⟨hname, -⟩
    · exact hextends
    · exact absurd (show "display".toList = "session".toList from hname) (by decide)
  exact stated_group htop hgroup h.display limits?_extends rfl

theorem examples (h : c.Tables top groups) :
    stated ((rootOf top groups).lookup "session".toList) examples? ({} : Settings).examples =
      some c.merged.examples := by
  have htop : top.lookup "session".toList = none := by
    rw [h.lookup_top (by decide), Choice.root, lookup_entry_of_ne (by decide)]
  have hgroup : ∀ entries, ("session".toList, entries) ∈ groups → Extends sessionKeys c.session entries := by
    intro entries hentries
    rcases h.group _ hentries with ⟨hname, -⟩ | ⟨-, hextends⟩
    · exact absurd (show "session".toList = "display".toList from hname) (by decide)
    · exact hextends
  exact stated_group htop hgroup h.session examples?_extends rfl

/-- The root table states the merged settings. -/
theorem ofEntries? (h : c.Tables top groups) : ofEntries? (rootOf top groups) = some c.merged := by
  rw [Settings.ofEntries?, h.encoding, h.limits, h.examples]
  rfl

theorem nodup_root (h : c.Tables top groups) : ((rootOf top groups).map Prod.fst).Nodup := by
  have htop : (top.map Prod.fst).Nodup := h.root.nodup (by decide) (root_names c)
  have hgroups : (groups.map fun g => (g.1, Toml.table .header g.2)).map Prod.fst = groups.map Prod.fst := by
    rw [List.map_map]
    rfl
  rw [rootOf, List.map_append, hgroups]
  refine List.nodup_append.mpr ⟨htop, h.once, ?_⟩
  rintro name hname _ hgroup rfl
  have hknown : name ∈ rootKeys ∧ name ≠ "encoding".toList := by
    rcases h.names hgroup with rfl | rfl <;> decide
  have hnone : top.lookup name = none := by
    rw [h.lookup_top hknown.1, Choice.root, lookup_entry_of_ne hknown.2]
  exact Toml.lookup_eq_none_iff.mp hnone hname

theorem nodup_groups (h : c.Tables top groups) : ∀ g ∈ groups, (g.2.map Prod.fst).Nodup := by
  intro g hg
  rcases h.group g hg with ⟨-, hentries⟩ | ⟨-, hentries⟩
  · exact hentries.nodup (by decide) (display_names c)
  · exact hentries.nodup (by decide) (session_names c)

theorem ofDocument? (h : c.Tables top groups) {document : Text}
    (hdocument : LinesText (documentLines top groups) document) : ofDocument? document = some c.merged := by
  have hroot : Toml.ofDocument? document = some (rootOf top groups) :=
    Toml.ofDocument?_lines h.nodup_root h.nodup_groups hdocument
  rw [Settings.ofDocument?, hroot, Option.bind_some, h.ofEntries?]

/-- Whatever is stated can be written. -/
theorem exists_document (h : c.Tables top groups) :
    ∃ document, LinesText (documentLines top groups) document := by
  have hlimit : ∀ n < 0x8000000000000000, ∃ s, ValueText (.integer (n : Nat)) s := by
    intro n hn
    exact Toml.exists_valueText_integer (by omega) (by omega)
  have hroot : ∀ e ∈ c.root, ∃ s, ValueText e.2 s := entry_writable fun t _ => Toml.exists_valueText_string t
  have hdisplay : ∀ e ∈ c.display, ∃ s, ValueText e.2 s := by
    refine List.forall_mem_append.mpr ⟨?_, ?_⟩
    · exact entry_writable fun n hn => hlimit n (c.strings_fit n hn)
    · exact entry_writable fun n hn => hlimit n (c.ids_fit n hn)
  have hsession : ∀ e ∈ c.session, ∃ s, ValueText e.2 s :=
    entry_writable fun ts _ => Toml.exists_valueText_strings ts
  apply Toml.exists_document (h.root.writable hroot)
  intro g hg
  rcases h.group g hg with ⟨-, hentries⟩ | ⟨-, hentries⟩
  · exact hentries.writable hdisplay
  · exact hentries.writable hsession

end Choice.Tables

/-- A file that states any of the settings, in tables with any other keys, can be written. However it is laid out, it
is loaded; each setting is as stated, and the default otherwise. -/
theorem loadFrom_merges (h : c.Tables top groups) :
    (∃ document, LinesText (documentLines top groups) document) ∧
    ∀ document, LinesText (documentLines top groups) document →
      ∀ fs path, FileStore.read fs path = .ok (Utf8.encode document) → loadFrom fs path = .ok c.merged := by
  refine ⟨h.exists_document, ?_⟩
  intro document hdocument fs path hread
  have htext : fs.readText path = .ok document := by
    rw [FileStore.readText, hread]
    change (Utf8.decode (Utf8.encode document)).mapError _ = _
    rw [Utf8.decode_encode]
    rfl
  rw [loadFrom, htext]
  dsimp only
  rw [h.ofDocument? hdocument]

/-- Two of the settings, another key, a comment and an escaped character. -/
theorem loadFrom_merges_limits :
    let document := "encoding = \"o\\u0041\"\n\n[display] # limits\nn=-1\nmax_token_ids=10".toList
    let fs : FileStore := { entries := [(["c".toList], .file (Utf8.encode document))] }
    fs.read "/c".toList = .ok (Utf8.encode document) ∧
      loadFrom fs "/c".toList = .ok { encoding := ['o', 'A'], limits := { ids := 10 } } := by
  intro document fs
  let c : Choice :=
    { encoding := some ['o', 'A']
      strings := none
      ids := some 10
      examples := none
      strings_fit := fun _ hn => nomatch hn
      ids_fit := fun _ hn => Option.some.inj hn ▸ by decide }
  let top : Entries := [("encoding".toList, .string ['o', 'A'])]
  let display : Entries := [("n".toList, .integer (-1)), ("max_token_ids".toList, .integer 10)]
  have htables : c.Tables top [("display".toList, display)] :=
    { root := ⟨[], .refl _, List.nodup_nil, List.forall_mem_nil _⟩
      group := by
        refine List.forall_mem_singleton.mpr (.inl ⟨rfl, [("n".toList, .integer (-1))], ?_, ?_, ?_⟩)
        · exact List.Perm.swap _ _ []
        · exact List.nodup_singleton _
        · exact List.forall_mem_singleton.mpr ⟨by decide, .integer (by decide) (by decide)⟩
      once := List.nodup_singleton _
      display := fun _ => List.mem_singleton_self _
      session := fun hne => absurd rfl hne }
  have hnil : Toml.Blanks [] := Toml.blanks_nil
  have hspace : Toml.Blanks [' '] := List.forall_mem_singleton.mpr rfl
  have hbare : ∀ name : Text, name ≠ [] → name.all Toml.isBareChar = true → Toml.NameText name name :=
    fun _ hne h => .bare hne (List.all_eq_true.mp h)
  have hstring : Toml.Quoted ['o', 'A'] ['o', '\\', 'u', '0', '0', '4', '1', '"'] := by
    have hplain : Toml.Spelled 'o' ['o'] := .plain (by decide) (by decide) rfl
    have hdigits : Toml.Spelled 'A' ['\\', 'u', '0', '0', '4', '1'] := .short ⟨rfl, _, rfl, by decide⟩
    exact .char hplain (.char hdigits .closed)
  have hvalue : Toml.ValueText (.integer (-1)) ['-', '1'] := .integer (.digits 1 .minus) (by decide) (by decide)
  have hvalue' : Toml.ValueText (.integer 10) ['1', '0'] := .integer (.digits 10 .absent) (by decide) (by decide)
  have hencoding := Toml.LineText.pair hnil (hbare "encoding".toList (by decide) rfl) hspace hspace (.string hstring)
    (.blank hnil)
  have hheader := Toml.LineText.header hnil hnil (hbare "display".toList (by decide) rfl) hnil
    (.comment hspace (List.all_eq_true.mp (rfl : " limits".toList.all Toml.isCommentChar = true)))
  have hother := Toml.LineText.pair hnil (hbare "n".toList (by decide) rfl) hnil hnil hvalue (.blank hnil)
  have hids := Toml.LineText.pair hnil (hbare "max_token_ids".toList (by decide) rfl) hnil hnil hvalue' (.blank hnil)
  have hlines : LinesText (documentLines top [("display".toList, display)]) document :=
    .line hencoding (.broken .lineFeed) (.blank (.blank hnil) (.broken .lineFeed) (.line hheader (.broken .lineFeed)
      (.line hother (.broken .lineFeed) (.line hids .last .done))))
  have hread : fs.read "/c".toList = .ok (Utf8.encode document) := rfl
  exact ⟨hread, (loadFrom_merges htables).2 document hlines fs _ hread⟩

end Subword.Settings
