import Subword.Proofs.Batch.RoundTrip
import Subword.Proofs.Json.Object
import Subword.Proofs.Json.Skip

/-!
Batches in documents of any layout. Main statement: what is read depends on the known members only. Their order,
other members of any depth, blanks and the ways to write a string do not count; a known member that is missing or
comes again is a fault, in the batch or in one of its records.
-/
namespace Subword.Batch

open Subword.Json (ArrayText FaultyObject Gap ItemsText MembersText ObjectOf Quoted ReadsMembers Separator
  Spells WellFormed)

namespace Record

def names : List Text := ["text".toList, "tokens".toList, "token_count".toList]

inductive Member (r : Record) : Text → Text → Prop
  | text {s : Text} : Quoted r.text s → Member r "text".toList ('"' :: s)
  | tokens {s : Text} : ArrayText (r.tokens.map fun id => Text.decimal id.toNat) s →
      Member r "tokens".toList s
  | tokenCount : Member r "token_count".toList (Text.decimal r.tokenCount.toNat)
  | other {name s : Text} : name ∉ names → WellFormed s → Member r name s

end Record

/-- What is known of a member when members of these names have been read. -/
def ifSeen {α : Type} (name : Text) (x : α) (seen : List Text) : Option α :=
  if seen.contains name then some x else none

theorem ifSeen_of_mem {α : Type} {name : Text} {seen : List Text} (h : name ∈ seen) (x : α) :
    ifSeen name x seen = some x := if_pos (List.contains_iff_mem.mpr h)

theorem ifSeen_of_not_mem {α : Type} {name : Text} {seen : List Text} (h : name ∉ seen) (x : α) :
    ifSeen name x seen = none := if_neg (mt List.contains_iff_mem.mp h)

theorem ifSeen_self {α : Type} (name : Text) (x : α) (seen : List Text) :
    ifSeen name x (seen ++ [name]) = some x :=
  ifSeen_of_mem (List.mem_append_right seen (List.mem_singleton_self name)) x

theorem ifSeen_of_ne {α : Type} {name name' : Text} (h : name ≠ name') (x : α) (seen : List Text) :
    ifSeen name x (seen ++ [name']) = ifSeen name x seen := by
  by_cases hseen : name ∈ seen
  · rw [ifSeen_of_mem hseen, ifSeen_of_mem (List.mem_append_left _ hseen)]
  · have habsent : name ∉ seen ++ [name'] := by
      rw [List.mem_append, List.mem_singleton, not_or]
      exact ⟨hseen, h⟩
    rw [ifSeen_of_not_mem hseen, ifSeen_of_not_mem habsent]

namespace Record

/-- The draft of the record when members of these names have been read. -/
def draftOf (r : Record) (seen : List Text) : Draft where
  text := ifSeen "text".toList r.text seen
  tokens := ifSeen "tokens".toList r.tokens seen
  tokenCount := ifSeen "token_count".toList r.tokenCount seen

variable {r : Record} {name v before behind : Text} {seen : List Text}

theorem mem_names_iff :
    name ∈ names ↔ name = "text".toList ∨ name = "tokens".toList ∨ name = "token_count".toList := by
  rw [names, List.mem_cons, List.mem_cons, List.mem_singleton]

theorem spells_tokens_array {ids : List TokenId} {s : Text}
    (h : ArrayText (ids.map fun id => Text.decimal id.toNat) s) : Spells readTokens s ids := by
  apply h.spells
  rw [List.forall₂_map_left_iff]
  exact List.forall₂_same.mpr fun id _ => spells_tokenId id

theorem takes_member (hm : r.Member name v) (hfresh : name ∈ names → name ∉ seen) (hbefore : Gap before)
    (hbehind : Gap behind) : Json.Takes Draft.member name (r.draftOf seen) (before ++ ':' :: (behind ++ v))
      (r.draftOf (seen ++ [name])) := by
  cases hm with
  | text hq =>
    have hnone : (r.draftOf seen).text = none := ifSeen_of_not_mem (hfresh (by decide)) _
    have hdraft : r.draftOf (seen ++ ["text".toList]) = { r.draftOf seen with text := some r.text } := by
      unfold draftOf
      rw [ifSeen_self, ifSeen_of_ne (by decide), ifSeen_of_ne (by decide)]
    rw [hdraft]
    exact takes_text hnone (hq.spells.fills hbefore hbehind)
  | tokens harray =>
    have hnone : (r.draftOf seen).tokens = none := ifSeen_of_not_mem (hfresh (by decide)) _
    have hdraft : r.draftOf (seen ++ ["tokens".toList]) =
        { r.draftOf seen with tokens := some r.tokens } := by
      unfold draftOf
      rw [ifSeen_self, ifSeen_of_ne (by decide), ifSeen_of_ne (by decide)]
    rw [hdraft]
    exact takes_tokens hnone ((spells_tokens_array harray).fills hbefore hbehind)
  | tokenCount =>
    have hnone : (r.draftOf seen).tokenCount = none := ifSeen_of_not_mem (hfresh (by decide)) _
    have hdraft : r.draftOf (seen ++ ["token_count".toList]) =
        { r.draftOf seen with tokenCount := some r.tokenCount } := by
      unfold draftOf
      rw [ifSeen_self, ifSeen_of_ne (by decide), ifSeen_of_ne (by decide)]
    rw [hdraft]
    exact takes_count hnone ((spells_count r.tokenCount).fills hbefore hbehind)
  | other hname hv =>
    rw [mem_names_iff, not_or, not_or] at hname
    obtain ⟨htext, htokens, hcount⟩ := hname
    have hdraft : r.draftOf (seen ++ [name]) = r.draftOf seen := by
      unfold draftOf
      rw [ifSeen_of_ne (Ne.symm htext), ifSeen_of_ne (Ne.symm htokens), ifSeen_of_ne (Ne.symm hcount)]
    intro rest hr
    rw [hdraft, Draft.member, if_neg htext, if_neg htokens, if_neg hcount]
    exact hv.takes _ hbefore hbehind hr

theorem member_repeated (s : Text) (hname : name ∈ names) (hseen : name ∈ seen) :
    Draft.member name (r.draftOf seen) s = .error .mismatched := by
  rcases mem_names_iff.mp hname with rfl | rfl | rfl
  · have hfield : (r.draftOf seen).text = some r.text := ifSeen_of_mem hseen _
    rw [Draft.member, if_pos rfl, hfield]
    rfl
  · have hfield : (r.draftOf seen).tokens = some r.tokens := ifSeen_of_mem hseen _
    rw [Draft.member, if_neg (by decide), if_pos rfl, hfield]
    rfl
  · have hfield : (r.draftOf seen).tokenCount = some r.tokenCount := ifSeen_of_mem hseen _
    rw [Draft.member, if_neg (by decide), if_neg (by decide), if_pos rfl, hfield]
    rfl

theorem finish_of_seen (h : ∀ name ∈ names, name ∈ seen) : (r.draftOf seen).finish = .ok r := by
  have htext : (r.draftOf seen).text = some r.text := ifSeen_of_mem (h _ (by decide)) _
  have htokens : (r.draftOf seen).tokens = some r.tokens := ifSeen_of_mem (h _ (by decide)) _
  have hcount : (r.draftOf seen).tokenCount = some r.tokenCount := ifSeen_of_mem (h _ (by decide)) _
  rw [Draft.finish, htext, htokens, hcount]

theorem finish_of_missing (hname : name ∈ names) (habsent : name ∉ seen) :
    (r.draftOf seen).finish = .error .mismatched := by
  have hnone : (r.draftOf seen).text = none ∨ (r.draftOf seen).tokens = none ∨
      (r.draftOf seen).tokenCount = none := by
    rcases mem_names_iff.mp hname with rfl | rfl | rfl
    · exact .inl (ifSeen_of_not_mem habsent _)
    · exact .inr (.inl (ifSeen_of_not_mem habsent _))
    · exact .inr (.inr (ifSeen_of_not_mem habsent _))
  unfold Draft.finish
  split
  · rename_i htext htokens hcount
    rw [htext, htokens, hcount] at hnone
    rcases hnone with h | h | h <;> cases h
  · rfl

theorem readsMembers (r : Record) :
    ReadsMembers names r.Member Draft.member Draft.finish r.draftOf r where
  takes := takes_member
  repeated := member_repeated
  finished := finish_of_seen
  missing := finish_of_missing

/-- A text of the record, with its members in any order and others between them. -/
def Written (r : Record) (s : Text) : Prop := ObjectOf names r.Member s

/-- A text of the record up to a member that is missing or comes again. -/
def Faulty (r : Record) (s : Text) : Prop := FaultyObject names r.Member s

end Record

inductive Member (b : Batch) : Text → Text → Prop
  | prompts {ts : List Text} {s : Text} : List.Forall₂ (fun t r => r.Written t) ts b.prompts →
      ArrayText ts s → Member b "prompts".toList s
  | other {name s : Text} : name ≠ "prompts".toList → WellFormed s → Member b name s

/-- A text of the batch, with its records in their order and other members around them. -/
def Written (b : Batch) (s : Text) : Prop := ObjectOf ["prompts".toList] b.Member s

/-- A text of the batch up to where its fault shows: in the batch itself, or in one of its records behind others
that have none. -/
inductive Faulty (b : Batch) : Text → Prop
  | batch {s : Text} : FaultyObject ["prompts".toList] b.Member s → Faulty b s
  | record {ms : List (Text × Text)} {ts : List Text} {rs rs' : List Record} {r : Record}
      {members sep key before behind items sep' s : Text} :
      MembersText Quoted true ms members →
      (∀ m ∈ ms, m.1 ≠ "prompts".toList ∧ WellFormed m.2) →
      Separator ms.isEmpty sep → Quoted "prompts".toList key → Gap before → Gap behind →
      b.prompts = rs ++ r :: rs' → List.Forall₂ (fun t r => r.Written t) ts rs →
      ItemsText true ts items → Separator ts.isEmpty sep' → r.Faulty s →
      Faulty b ('\x7b' :: (members ++ (sep ++ '"' :: (key ++ (before ++ ':' :: (behind ++
        '[' :: (items ++ (sep' ++ s))))))))

theorem Record.exists_written (r : Record) : ∃ s, r.Written s := by
  obtain ⟨text, htext⟩ := Json.exists_quoted r.text
  obtain ⟨tokens, htokens⟩ := Json.exists_arrayText (r.tokens.map fun id => Text.decimal id.toNat)
  obtain ⟨s, hs⟩ := Json.exists_objectText [("text".toList, '"' :: text), ("tokens".toList, tokens),
    ("token_count".toList, Text.decimal r.tokenCount.toNat)]
  have honce : ∀ name ∈ names, names.count name = 1 := by decide
  refine ⟨s, _, hs, ?_, honce⟩
  simp only [List.forall_mem_cons]
  exact ⟨.text htext, .tokens htokens, .tokenCount, List.forall_mem_nil _⟩

/-- Every batch has a document. -/
theorem exists_written (b : Batch) : ∃ s, b.Written s := by
  have hrecords : ∃ ts, List.Forall₂ (fun t r => Record.Written r t) ts b.prompts := by
    induction b.prompts with
    | nil => exact ⟨_, .nil⟩
    | cons r rs ih =>
      obtain ⟨t, ht⟩ := r.exists_written
      obtain ⟨ts, hts⟩ := ih
      exact ⟨_, .cons ht hts⟩
  obtain ⟨ts, hts⟩ := hrecords
  obtain ⟨prompts, hprompts⟩ := Json.exists_arrayText ts
  obtain ⟨s, hs⟩ := Json.exists_objectText [("prompts".toList, prompts)]
  have honce : ∀ name ∈ ["prompts".toList], ["prompts".toList].count name = 1 := by decide
  exact ⟨s, _, hs, List.forall_mem_singleton.mpr (.prompts hts hprompts), honce⟩

theorem Record.Written.spells {r : Record} {s : Text} (h : r.Written s) : Spells Record.read s r :=
  (Record.readsMembers r).spells Record.readPositional h

theorem Record.Faulty.fails {r : Record} {s : Text} (h : r.Faulty s) (rest : Text) :
    Record.read (s ++ rest) = .error .mismatched :=
  (Record.readsMembers r).fails Record.readPositional h Json.gap_nil rest

/-- The draft of the batch when members of these names have been read. -/
def draftOf (b : Batch) (seen : List Text) : Option (List Record) := ifSeen "prompts".toList b.prompts seen

variable {b : Batch} {name v before behind s : Text} {seen : List Text}

theorem spells_records {ts : List Text} {rs : List Record} (h : List.Forall₂ (fun t r => r.Written t) ts rs) :
    List.Forall₂ (Spells Record.read) ts rs :=
  h.imp fun _ _ hr => hr.spells

theorem takes_member (hm : b.Member name v) (hfresh : name ∈ ["prompts".toList] → name ∉ seen)
    (hbefore : Gap before) (hbehind : Gap behind) : Json.Takes readMember name (b.draftOf seen)
      (before ++ ':' :: (behind ++ v)) (b.draftOf (seen ++ [name])) := by
  cases hm with
  | prompts hrecords harray =>
    have hnone : b.draftOf seen = none := ifSeen_of_not_mem (hfresh (by decide)) _
    have hsome : b.draftOf (seen ++ ["prompts".toList]) = some b.prompts := ifSeen_self _ _ _
    have hprompts := harray.spells (spells_records hrecords)
    rw [hnone, hsome]
    exact takes_prompts (hprompts.fills hbefore hbehind)
  | other hname hv =>
    have hdraft : b.draftOf (seen ++ [name]) = b.draftOf seen := ifSeen_of_ne hname.symm _ _
    intro rest hr
    rw [hdraft, readMember, if_neg hname]
    exact hv.takes _ hbefore hbehind hr

theorem readsMembers (b : Batch) :
    ReadsMembers ["prompts".toList] b.Member readMember finish b.draftOf b where
  takes := takes_member
  repeated := by
    intro name seen s hname hseen
    obtain rfl := List.mem_singleton.mp hname
    have hsome : b.draftOf seen = some b.prompts := ifSeen_of_mem hseen _
    rw [readMember, if_pos rfl, hsome]
    rfl
  finished := by
    intro seen hseen
    have hsome : b.draftOf seen = some b.prompts := ifSeen_of_mem (hseen _ (by decide)) _
    rw [hsome]
    rfl
  missing := by
    intro name seen hname habsent
    obtain rfl := List.mem_singleton.mp hname
    have hnone : b.draftOf seen = none := ifSeen_of_not_mem habsent _
    rw [hnone]
    rfl

theorem Written.spells (h : b.Written s) : Spells read s b := (readsMembers b).spells readPositional h

/-- A batch ends with its first fault, whatever stands behind. -/
theorem Faulty.fails (h : b.Faulty s) {ws : Text} (hw : Gap ws) (rest : Text) :
    read (ws ++ (s ++ rest)) = .error .mismatched := by
  cases h with
  | batch hs => exact (readsMembers b).fails readPositional hs hw rest
  | @record ms ts rs rs' r members sep key before behind items sep' s hmembers hms hsep hkey hbefore hbehind _
      hrecords hitems hsep' hs =>
    obtain ⟨u, rfl⟩ := hs.starts
    have hfault := hs.fails rest
    have hlist := Json.readList_fails hitems (spells_records hrecords) hsep' hfault hbehind
    have hothers : ∀ m ∈ ms, b.Member m.1 m.2 := fun m hm => .other (hms m hm).1 (hms m hm).2
    have habsent : "prompts".toList ∉ ms.map Prod.fst := by
      intro hmem
      obtain ⟨m, hm, heq⟩ := List.mem_map.mp hmem
      exact (hms m hm).1 heq
    have honce : ∀ name ∈ ["prompts".toList], (ms.map Prod.fst).count name ≤ 1 := by
      intro name hname
      obtain rfl := List.mem_singleton.mp hname
      rw [List.count_eq_zero_of_not_mem habsent]
      exact Nat.zero_le 1
    have hnone : b.draftOf (ms.map Prod.fst) = none := ifSeen_of_not_mem habsent _
    have hmember : readMember "prompts".toList none
        (before ++ ':' :: (behind ++ '[' :: (items ++ (sep' ++ '\x7b' :: (u ++ rest))))) =
          .error .mismatched := by
      rw [readMember, if_pos rfl, Json.readField_none _ hbefore]
      change (Json.readList Record.read
        (behind ++ '[' :: (items ++ (sep' ++ '\x7b' :: u.append rest)))).map _ = _
      rw [hlist]
      rfl
    have hprompts : readMember "prompts".toList (b.draftOf (ms.map Prod.fst)) _ = _ := hnone ▸ hmember
    simp only [List.append_assoc, List.cons_append]
    exact (readsMembers b).fails_at readPositional hmembers hothers honce hw hsep hkey hprompts

/-- What is read depends on the known members only. Their order, other members, blanks and the ways to write a
string do not count; a known member that is missing or comes again is a fault, whatever stands behind. -/
theorem ofDocument_known_members (b : Batch) :
    (∃ s, b.Written s) ∧
    (∀ before s behind, Gap before → b.Written s → Gap behind →
      ofDocument (before ++ (s ++ behind)) = .ok b) ∧
    ∀ before s rest, Gap before → b.Faulty s → ofDocument (before ++ (s ++ rest)) = .error .mismatched := by
  refine ⟨b.exists_written, ?_, ?_⟩
  · intro before s behind hbefore hs hbehind
    exact Json.readDocument_of_spells hs.spells hbefore hbehind
  · intro before s rest hbefore hs
    rw [ofDocument, Json.readDocument, hs.fails hbefore rest]

/-- Members in another order with one more between them, and a name that comes again. -/
theorem ofDocument_known_members_shuffled :
    ofDocument "\x7b\"prompts\":[\x7b\"tokens\": [7],\"n\":\x7b\"\x7d\":null\x7d,\"token_count\":1,\"text\":\"\\u0041\"\x7d]\x7d\n".toList =
        .ok ⟨[⟨['A'], [7], 1⟩]⟩ ∧
      ofDocument "\x7b\"prompts\":[\x7b\"text\":\"A\",\"text\":\"B\"\x7d]\x7d".toList = .error .mismatched := by
  have hgap : Gap [] := Json.gap_nil
  have hspace : Gap [' '] := List.forall_mem_singleton.mpr rfl
  have hline : Gap ['\n'] := List.forall_mem_singleton.mpr rfl
  have hstart : Separator true [] := .start hgap
  have hcomma : Separator false [','] := .comma hgap hgap
  have hname : ∀ name : Text, (name.all fun c => c ≠ '"' ∧ c ≠ '\\' ∧ 0x20 ≤ c.toNat) = true →
      Quoted name (name ++ ['"']) := by
    intro name h
    apply Text.Quoted.of_self
    intro c hc
    obtain ⟨hq, hb, hplain⟩ := of_decide_eq_true (List.all_eq_true.mp h c hc)
    exact .plain hq hb hplain
  have hprompts : Quoted "prompts".toList ("prompts".toList ++ ['"']) := hname _ rfl
  have htext : Quoted "text".toList ("text".toList ++ ['"']) := hname _ rfl
  have htokens : Quoted "tokens".toList ("tokens".toList ++ ['"']) := hname _ rfl
  have hcount : Quoted "token_count".toList ("token_count".toList ++ ['"']) := hname _ rfl
  have hn : Quoted ['n'] ['n', '"'] := hname _ rfl
  have hletter : Quoted ['A'] ['A', '"'] := hname _ rfl
  have hescaped : Quoted ['A'] ['\\', 'u', '0', '0', '4', '1', '"'] := by
    have hunit : Json.Spelled 'A' ['\\', 'u', '0', '0', '4', '1'] := .unit ⟨rfl, _, rfl, by decide⟩
    exact .char hunit .closed
  have hids : ArrayText [['7']] ['[', '7', ']'] := ⟨['7'], [], .item hstart .none, hgap, rfl⟩
  have hinner : WellFormed ('\x7b' :: '"' :: '\x7d' :: '"' :: ':' :: ("null".toList ++ ['\x7d'])) := by
    have hkey : Json.StringText ['\x7d', '"'] := .plain (by decide) (by decide) (by decide) .closed
    have hmember := @MembersText.member _ (fun _ => Json.StringText) true () _ _ _ _ "null".toList _ _ hstart
      hkey hgap hgap .none
    exact .object ⟨_, [], hmember, hgap, rfl⟩ (List.forall_mem_singleton.mpr .nullWord)
  have hrecord : Record.Written ⟨['A'], [7], 1⟩ _ :=
    ⟨_, ⟨_, [], .member hstart htokens hgap hspace (.member hcomma hn hgap hgap
      (.member hcomma hcount hgap hgap (.member hcomma htext hgap hgap .none))), hgap, rfl⟩,
      List.forall_mem_cons.mpr ⟨.tokens hids, List.forall_mem_cons.mpr ⟨.other (by decide) hinner,
        List.forall_mem_cons.mpr ⟨.tokenCount, List.forall_mem_singleton.mpr (.text hescaped)⟩⟩⟩, by decide⟩
  have hbatch : Written ⟨[⟨['A'], [7], 1⟩]⟩ _ :=
    ⟨_, ⟨_, [], .member hstart hprompts hgap hgap .none, hgap, rfl⟩,
      List.forall_mem_singleton.mpr (.prompts (.cons hrecord .nil) ⟨_, [], .item hstart .none, hgap, rfl⟩),
      by decide⟩
  have hfault : Record.Faulty ⟨['A'], [7], 1⟩ _ :=
    .repeated (.member hstart htext hgap hgap .none) (List.forall_mem_singleton.mpr (.text hletter)) (by decide)
      (by decide : "text".toList ∈ Record.names) (by decide) hcomma htext
  have hfaulty : Faulty ⟨[⟨['A'], [7], 1⟩]⟩ _ :=
    .record .none (List.forall_mem_nil _) hstart hprompts hgap hgap rfl .nil .none hstart hfault
  obtain ⟨-, hread, hfails⟩ := ofDocument_known_members ⟨[⟨['A'], [7], 1⟩]⟩
  exact ⟨hread [] _ _ hgap hbatch hline, hfails [] _ ":\"B\"\x7d]\x7d".toList hgap hfaulty⟩

end Subword.Batch
