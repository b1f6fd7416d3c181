import Subword.Proofs.Json.Grammar

/-!
Objects with known members. Main statements: an object is read by its known members, in any order and with any
others between them, if each of them comes once; if one of them is missing or comes again, this is the fault.
-/
namespace Subword.Json

variable {α σ : Type}

/-- A text of an object in which each of the known members comes once. -/
def ObjectOf (known : List Text) (Member : Text → Text → Prop) (s : Text) : Prop :=
  ∃ ms, ObjectText Quoted ms s ∧ (∀ m ∈ ms, Member m.1 m.2) ∧
    ∀ name ∈ known, (ms.map Prod.fst).count name = 1

/-- A text of an object up to where its fault shows: a known member is missing at the closing brace, or its name
comes again. -/
inductive FaultyObject (known : List Text) (Member : Text → Text → Prop) : Text → Prop
  | missing {ms : List (Text × Text)} {s name : Text} : ObjectText Quoted ms s →
      (∀ m ∈ ms, Member m.1 m.2) → (∀ n ∈ known, (ms.map Prod.fst).count n ≤ 1) → name ∈ known →
      name ∉ ms.map Prod.fst → FaultyObject known Member s
  | repeated {ms : List (Text × Text)} {s sep key name : Text} : MembersText Quoted true ms s →
      (∀ m ∈ ms, Member m.1 m.2) → (∀ n ∈ known, (ms.map Prod.fst).count n ≤ 1) → name ∈ known →
      name ∈ ms.map Prod.fst → Separator false sep → Quoted name key →
      FaultyObject known Member ('\x7b' :: (s ++ (sep ++ '"' :: key)))

/-- What a reader of members does with a draft `D` of the members seen so far. -/
structure ReadsMembers (known : List Text) (Member : Text → Text → Prop) (member : Text → σ → Text → Read σ)
    (finish : σ → Except Fault α) (D : List Text → σ) (x : α) : Prop where
  takes : ∀ {name v before behind : Text} {seen : List Text}, Member name v → (name ∈ known → name ∉ seen) →
    Gap before → Gap behind →
    Takes member name (D seen) (before ++ ':' :: (behind ++ v)) (D (seen ++ [name]))
  repeated : ∀ {name : Text} {seen : List Text} (s : Text), name ∈ known → name ∈ seen →
    member name (D seen) s = .error .mismatched
  finished : ∀ {seen : List Text}, (∀ name ∈ known, name ∈ seen) → finish (D seen) = .ok x
  missing : ∀ {name : Text} {seen : List Text}, name ∈ known → name ∉ seen →
    finish (D seen) = .error .mismatched

variable {known : List Text} {Member : Text → Text → Prop} {member : Text → σ → Text → Read σ}
  {finish : σ → Except Fault α} {D : List Text → σ} {x : α}

/-- Members of which no known one comes twice are taken into the draft in their order. -/
theorem ReadsMembers.drafts_behind (h : ReadsMembers known Member member finish D x) {ms : List (Text × Text)}
    {seen : List Text} (hms : ∀ m ∈ ms, Member m.1 m.2)
    (honce : ∀ name ∈ known, (seen ++ ms.map Prod.fst).count name ≤ 1) :
    Drafts member (D seen) ms (D (seen ++ ms.map Prod.fst)) := by
  induction ms generalizing seen with
  | nil =>
    rw [List.map_nil, List.append_nil]
    exact .none
  | cons m ms ih =>
    obtain ⟨hm, hrest⟩ := List.forall_mem_cons.mp hms
    have hsplit : seen ++ (m :: ms).map Prod.fst = (seen ++ [m.1]) ++ ms.map Prod.fst := by simp
    have hfresh : m.1 ∈ known → m.1 ∉ seen := by
      intro hknown hseen
      have hcount := honce m.1 hknown
      have hpos := List.count_pos_iff.mpr hseen
      rw [hsplit, List.count_append, List.count_append, List.count_singleton_self] at hcount
      omega
    rw [hsplit] at honce ⊢
    exact .member (fun before behind hbefore hbehind => h.takes hm hfresh hbefore hbehind)
      (ih hrest honce)

theorem ReadsMembers.drafts (h : ReadsMembers known Member member finish D x) {ms : List (Text × Text)}
    (hms : ∀ m ∈ ms, Member m.1 m.2) (honce : ∀ name ∈ known, (ms.map Prod.fst).count name ≤ 1) :
    Drafts member (D []) ms (D (ms.map Prod.fst)) := by
  have honce' : ∀ name ∈ known, ([] ++ ms.map Prod.fst).count name ≤ 1 := honce
  exact h.drafts_behind hms honce'

/-- Reading an object goes on behind the members that have been taken. -/
theorem ReadsMembers.goes_on (h : ReadsMembers known Member member finish D x) (positional : Text → Read α)
    {ms : List (Text × Text)} {s ws rest : Text} (hs : MembersText Quoted true ms s)
    (hms : ∀ m ∈ ms, Member m.1 m.2) (honce : ∀ name ∈ known, (ms.map Prod.fst).count name ≤ 1)
    (hw : Gap ws) (hr : Ends rest) :
    ∃ more, readParts member finish (D []) positional (ws ++ '\x7b' :: (s ++ rest)) =
      readMembers member finish (more + 1) ms.isEmpty (D (ms.map Prod.fst)) rest := by
  have hdrafts : Drafts member (D []) ms (D (ms.map Prod.fst)) := h.drafts hms honce
  have hfuel : s.length < (s ++ rest).length + 1 := by
    rw [List.length_append]
    omega
  rw [readParts_object hw]
  exact readMembers_append finish hs hdrafts hr hfuel

theorem Separator.ends_string {first : Bool} {sep : Text} (h : Separator first sep) (u : Text) :
    Ends (sep ++ '"' :: u) := by
  cases h with
  | start hw => exact hw.ends (ends_cons _ (by decide))
  | comma hbefore hbehind => exact (Separator.comma hbefore hbehind).ends

/-- An object ends with the fault of a member behind those that have been taken. -/
theorem ReadsMembers.fails_at (h : ReadsMembers known Member member finish D x) (positional : Text → Read α)
    {ms : List (Text × Text)} {s ws sep name key u : Text} {e : Fault} (hs : MembersText Quoted true ms s)
    (hms : ∀ m ∈ ms, Member m.1 m.2) (honce : ∀ name ∈ known, (ms.map Prod.fst).count name ≤ 1)
    (hw : Gap ws) (hsep : Separator ms.isEmpty sep) (hkey : Quoted name key)
    (hfault : member name (D (ms.map Prod.fst)) u = .error e) :
    readParts member finish (D []) positional (ws ++ '\x7b' :: (s ++ (sep ++ '"' :: (key ++ u)))) = .error e := by
  obtain ⟨more, hmore⟩ := h.goes_on positional hs hms honce hw (hsep.ends_string (key ++ u))
  rw [hmore, readMembers, nextMember_member hsep]
  dsimp only
  rw [hkey.read]
  dsimp only
  rw [hfault]

theorem ReadsMembers.spells (h : ReadsMembers known Member member finish D x) (positional : Text → Read α)
    {s : Text} (hs : ObjectOf known Member s) : Spells (readParts member finish (D []) positional) s x := by
  obtain ⟨ms, ⟨members, gap, hmembers, hgap, rfl⟩, hms, hcount⟩ := hs
  refine ⟨⟨'\x7b', _, rfl, by decide, by decide⟩, ?_⟩
  intro ws rest hw _
  have hends : Ends (gap ++ '\x7d' :: rest) := hgap.ends (ends_cons _ (by decide))
  have honce : ∀ name ∈ known, (ms.map Prod.fst).count name ≤ 1 := fun name hname => (hcount name hname).le
  have hall : ∀ name ∈ known, name ∈ ms.map Prod.fst := by
    intro name hname
    apply List.count_pos_iff.mp
    rw [hcount name hname]
    exact Nat.one_pos
  obtain ⟨more, hmore⟩ := h.goes_on positional hmembers hms honce hw hends
  rw [List.cons_append, List.append_assoc, List.append_assoc, List.singleton_append, hmore, readMembers,
    nextMember_closed hgap]
  dsimp only
  rw [h.finished hall]
  rfl

/-- An object ends with its fault, whatever stands behind. -/
theorem ReadsMembers.fails (h : ReadsMembers known Member member finish D x) (positional : Text → Read α)
    {s ws : Text} (hs : FaultyObject known Member s) (hw : Gap ws) (rest : Text) :
    readParts member finish (D []) positional (ws ++ (s ++ rest)) = .error .mismatched := by
  cases hs with
  | missing hobject hms honce hname habsent =>
    obtain ⟨members, gap, hmembers, hgap, rfl⟩ := hobject
    have hends : Ends (gap ++ '\x7d' :: rest) := hgap.ends (ends_cons _ (by decide))
    obtain ⟨more, hmore⟩ := h.goes_on positional hmembers hms honce hw hends
    rw [List.cons_append, List.append_assoc, List.append_assoc, List.singleton_append, hmore, readMembers,
      nextMember_closed hgap]
    dsimp only
    rw [h.missing hname habsent]
    rfl
  | @repeated ms members sep key name hmembers hms honce hname hpresent hsep hkey =>
    have hsome : ms.isEmpty = false := by
      cases ms with
      | nil => cases hpresent
      | cons m ms => rfl
    have hrepeated := h.repeated rest hname hpresent
    simp only [List.append_assoc, List.cons_append]
    exact h.fails_at positional hmembers hms honce hw (hsome ▸ hsep) hkey hrepeated

theorem FaultyObject.starts {s : Text} (h : FaultyObject known Member s) : ∃ u, s = '\x7b' :: u := by
  cases h with
  | missing hobject _ _ _ _ =>
    obtain ⟨members, gap, -, -, rfl⟩ := hobject
    exact ⟨_, rfl⟩
  | repeated _ _ _ _ _ _ _ => exact ⟨_, rfl⟩

theorem Separator.ends_object {first : Bool} {sep : Text} (h : Separator first sep) (u : Text) :
    Ends (sep ++ '\x7b' :: u) := by
  cases h with
  | start hw => exact hw.ends (ends_cons _ (by decide))
  | comma hbefore hbehind => exact (Separator.comma hbefore hbehind).ends

theorem readField_none (value : Text → Read α) {before : Text} (hbefore : Gap before) (s : Text) :
    readField none value (before ++ ':' :: s) = value s := by
  rw [readField, readColon, skipSpace_gap hbefore (by decide)]
  rfl

/-- An array ends with the fault of an object in it. -/
theorem readList_fails {item : Text → Read α} {vs : List Text} {xs : List α} {ws items sep u : Text}
    {e : Fault} (hitems : ItemsText true vs items) (hv : List.Forall₂ (Spells item) vs xs)
    (hsep : Separator vs.isEmpty sep) (hfault : item ('\x7b' :: u) = .error e) (hw : Gap ws) :
    readList item (ws ++ '[' :: (items ++ (sep ++ '\x7b' :: u))) = .error e := by
  have hfuel : items.length < (items ++ (sep ++ '\x7b' :: u)).length + 1 := by
    rw [List.length_append]
    omega
  obtain ⟨more, hmore⟩ := readItems_append hitems hv (hsep.ends_object u) hfuel
  have hitem : readItems item (more + 1) vs.isEmpty (sep ++ '\x7b' :: u) = .error e := by
    rw [readItems, nextItem_item hsep (by decide) (by decide)]
    dsimp only
    rw [hfault]
  rw [readList, skipSpace_gap hw (by decide)]
  dsimp only
  rw [if_pos rfl, hmore, Bool.true_and, hitem]
  rfl

end Subword.Json
