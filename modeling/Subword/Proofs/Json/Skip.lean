import Subword.Proofs.Json.Grammar

/-!
Skipping what does not matter. Main statement: a value of any shape and depth is skipped as a whole, whatever its
strings hold, so that the text goes on right behind it.
-/
namespace Subword.Json

variable {s v rest : Text}

theorem skipString_escape {t : Text} (h : skipEscape t = .ok s) : skipString ('\\' :: t) = skipString s := by
  rw [skipString, if_neg (by decide), if_pos rfl]
  split
  · rename_i he
    cases he.symm.trans h
  · rename_i hs
    cases hs.symm.trans h
    rfl

theorem Escape.skipEscape {l c : Char} (h : Escape l c) (s : Text) : skipEscape (l :: s) = .ok s := by
  cases h <;> rfl

theorem skipEscape_unit {n : Nat} {digits : Text} (h : HexUnit n digits) (s : Text) :
    Json.skipEscape ('u' :: (digits ++ s)) = .ok s := by
  simp only [Json.skipEscape, readUnit_hexUnit h]
  rfl

theorem StringText.skip (h : StringText s) (rest : Text) : skipString (s ++ rest) = .ok rest := by
  induction h with
  | closed => rw [List.singleton_append, skipString, if_pos rfl]
  | plain hq hb hc _ ih => rw [List.cons_append, skipString, if_neg hq, if_neg hb, if_neg (by omega), ih]
  | letter hl _ ih =>
    rw [List.cons_append, List.cons_append, skipString_escape (hl.skipEscape _), ih]
  | unit hu _ ih =>
    rw [List.cons_append, List.cons_append, List.append_assoc, skipString_escape (skipEscape_unit hu _), ih]

theorem ExponentText.head {exponent : Text} (h : ExponentText exponent) (hr : Ends rest) :
    ∀ c ∈ (exponent ++ rest).head?, c.isDigit = false ∧ c ≠ '.' := by
  cases h with
  | none => exact fun c hc => ⟨(hr c hc).1, (hr c hc).2.1⟩
  | power he _ _ =>
    intro c hc
    cases hc
    rcases he with rfl | rfl <;> decide

theorem FractionText.noDigit {fraction : Text} (h : FractionText fraction)
    (hr : ∀ c ∈ rest.head?, c.isDigit = false) : ∀ c ∈ (fraction ++ rest).head?, c.isDigit = false := by
  cases h with
  | none => exact hr
  | point _ =>
    intro c hc
    cases hc
    decide

theorem Digits.read {ds : Text} (h : Digits ds) (hr : ∀ c ∈ rest.head?, c.isDigit = false) :
    readDigits (ds ++ rest) = .ok (ds, rest) :=
  readDigits_append h.1 h.2 hr

theorem FractionText.read {fraction : Text} (h : FractionText fraction)
    (hr : ∀ c ∈ rest.head?, c.isDigit = false ∧ c ≠ '.') :
    ∃ ds, readFraction (fraction ++ rest) = .ok (ds, rest) := by
  cases h with
  | none =>
    refine ⟨.none, ?_⟩
    rw [List.nil_append]
    unfold readFraction
    split
    · exact absurd rfl (hr '.' rfl).2
    · rfl
  | @point ds hds =>
    have hread : readDigits (ds ++ rest) = .ok (ds, rest) := hds.read fun c hc => (hr c hc).1
    refine ⟨some ds, ?_⟩
    rw [List.cons_append]
    simp only [readFraction, hread]
    rfl

theorem ExponentText.read {exponent : Text} (h : ExponentText exponent) (hr : Ends rest) :
    ∃ e, readExponent (exponent ++ rest) = .ok (e, rest) := by
  cases h with
  | none => exact ⟨.none, readExponent_of_ends hr⟩
  | @power e sign ds he hsign hds =>
    have hread := hds.read hr.noDigit
    rw [List.cons_append, List.append_assoc]
    rcases hsign with rfl | rfl | rfl
    · obtain ⟨d, ds, rfl⟩ := List.exists_cons_of_ne_nil hds.1
      have hdigit : d.isDigit = true := hds.2 d List.mem_cons_self
      have hplus : d ≠ '+' := fun heq => absurd hdigit (heq ▸ by decide)
      have hminus : d ≠ '-' := fun heq => absurd hdigit (heq ▸ by decide)
      rw [List.cons_append] at hread
      simp [readExponent, he, hplus, hminus, hread, Except.map]
    · simp [readExponent, he, hread, Except.map]
    · simp [readExponent, he, hread, Except.map]

theorem UnsignedText.skip (h : UnsignedText s) (hr : Ends rest) : skipNumber (s ++ rest) = .ok rest := by
  cases h with
  | @parts whole fraction exponent hwhole hzero hfraction hexponent =>
    have hhead := hexponent.head hr
    have hnodigit : ∀ c ∈ (fraction ++ (exponent ++ rest)).head?, c.isDigit = false :=
      hfraction.noDigit fun c hc => (hhead c hc).1
    have hdigits : readWhole (whole ++ (fraction ++ (exponent ++ rest))) =
        .ok (whole, fraction ++ (exponent ++ rest)) := by
      have hread := hwhole.read hnodigit
      have hlead : ¬(whole.head? = some '0' ∧ whole.length ≠ 1) := fun hz => hz.2 (hzero hz.1)
      simp only [readWhole, hread, if_neg hlead]
    obtain ⟨ds, hpoint⟩ := hfraction.read hhead
    obtain ⟨e, hpower⟩ := hexponent.read hr
    rw [List.append_assoc, List.append_assoc]
    simp only [skipNumber, hdigits, hpoint, hpower, bind, Except.bind]
    rfl

/-- The text is passed over as a value, behind any blanks and before all that can stand behind a value, if there
is fuel for two readers a character. -/
structure Skips (v : Text) : Prop where
  starts : ∃ c u, v = c :: u ∧ isSpace c = false ∧ c ≠ ']'
  skip : ∀ fuel ws rest, Gap ws → Ends rest → 2 * v.length ≤ fuel →
    skipValue fuel (ws ++ (v ++ rest)) = .ok rest

theorem UnsignedText.starts (h : UnsignedText s) : ∃ c u, s = c :: u ∧ c.isDigit = true := by
  cases h with
  | @parts whole fraction exponent hwhole _ _ _ =>
    obtain ⟨c, u, rfl⟩ := List.exists_cons_of_ne_nil hwhole.1
    exact ⟨c, _, rfl, hwhole.2 c List.mem_cons_self⟩

theorem readWord_append (word rest : Text) : readWord word (word ++ rest) = .ok rest := by
  induction word with
  | nil => rfl
  | cons w word ih => rw [List.cons_append, readWord, if_pos rfl, ih]

/-- A value that is told by its first character is skipped by the reader for it. -/
theorem skips_of_head {c : Char} {u : Text} (hc : isSpace c = false) (hb : c ≠ ']')
    (hskip : ∀ fuel rest, Ends rest → 2 * u.length + 1 ≤ fuel →
      skipValue (fuel + 1) (c :: (u ++ rest)) = .ok rest) : Skips (c :: u) := by
  refine ⟨⟨c, u, rfl, hc, hb⟩, ?_⟩
  intro fuel ws rest hw hr hf
  rw [List.length_cons] at hf
  obtain ⟨fuel, rfl⟩ : ∃ k, fuel = k + 1 := ⟨fuel - 1, by omega⟩
  have hgap : skipSpace (ws ++ c :: (u ++ rest)) = skipSpace (c :: (u ++ rest)) := by
    have hself : skipSpace (c :: (u ++ rest)) = c :: (u ++ rest) := skipSpace_gap gap_nil hc
    rw [skipSpace_gap hw hc, hself]
  have hvalue := hskip fuel rest hr (by omega)
  rw [skipValue] at hvalue
  rw [List.cons_append, skipValue, hgap]
  exact hvalue

theorem ItemsText.of_comma {vs : List Text} (h : ItemsText false (v :: vs) s) :
    ∃ before s', Gap before ∧ s = before ++ ',' :: s' ∧ ItemsText true (v :: vs) s' := by
  cases h with
  | item hsep hs =>
    cases hsep with
    | comma hbefore hbehind => exact ⟨_, _, hbefore, List.append_assoc _ _ _, .item (.start hbehind) hs⟩

theorem skipItems_last {ws gap : Text} {fuel : Nat} (hw : Gap ws) (hv : Skips v) (hgap : Gap gap)
    (hf : 2 * v.length ≤ fuel) : skipItems (fuel + 1) (ws ++ (v ++ (gap ++ ']' :: rest))) = .ok rest := by
  have hends : Ends (gap ++ ']' :: rest) := hgap.ends (ends_cons _ (by decide))
  rw [skipItems, hv.skip fuel ws _ hw hends hf]
  dsimp only
  rw [skipSpace_gap hgap (by decide)]
  rfl

theorem skipItems_more {ws before : Text} {fuel : Nat} (hw : Gap ws) (hv : Skips v) (hbefore : Gap before)
    (hf : 2 * v.length ≤ fuel) :
    skipItems (fuel + 1) (ws ++ (v ++ (before ++ ',' :: s))) = skipItems fuel s := by
  have hends : Ends (before ++ ',' :: s) := hbefore.ends (ends_cons _ (by decide))
  rw [skipItems, hv.skip fuel ws _ hw hends hf]
  dsimp only
  rw [skipSpace_gap hbefore (by decide)]
  rfl

theorem skipItems_of_items {vs : List Text} {gap : Text} {fuel : Nat} (h : ItemsText true (v :: vs) s)
    (hv : ∀ u ∈ v :: vs, Skips u) (hgap : Gap gap) (hf : 2 * s.length + 1 ≤ fuel) (rest : Text) :
    skipItems fuel (s ++ (gap ++ ']' :: rest)) = .ok rest := by
  obtain ⟨fuel, rfl⟩ : ∃ k, fuel = k + 1 := ⟨fuel - 1, by omega⟩
  induction vs generalizing v s fuel with
  | nil =>
    cases h with
    | item hsep hs =>
      cases hs
      cases hsep with
      | start hw =>
        have hhead : Skips v := hv v List.mem_cons_self
        rw [List.append_nil] at hf ⊢
        rw [List.append_assoc]
        apply skipItems_last hw hhead hgap
        rw [List.length_append] at hf
        omega
  | cons v' vs ih =>
    obtain ⟨hhead, hrest⟩ := List.forall_mem_cons.mp hv
    cases h with
    | item hsep hs =>
      cases hsep with
      | start hw =>
        obtain ⟨before, s', hbefore, rfl, hs'⟩ := hs.of_comma
        simp only [List.length_append, List.length_cons] at hf
        obtain ⟨fuel, rfl⟩ : ∃ k, fuel = k + 1 := ⟨fuel - 1, by omega⟩
        simp only [List.append_assoc, List.cons_append]
        rw [skipItems_more hw hhead hbefore (by omega)]
        exact ih hs' hrest fuel (by omega)

theorem MembersText.of_comma {Key : Unit → Text → Prop} {m : Unit × Text} {ms : List (Unit × Text)}
    (h : MembersText Key false (m :: ms) s) :
    ∃ before s', Gap before ∧ s = before ++ ',' :: s' ∧ MembersText Key true (m :: ms) s' := by
  cases h with
  | member hsep hkey hbefore hbehind hs =>
    cases hsep with
    | comma hgap hgap' =>
      exact ⟨_, _, hgap, List.append_assoc _ _ _, .member (.start hgap') hkey hbefore hbehind hs⟩

theorem skipMembers_last {ws key before behind gap : Text} {fuel : Nat} (hw : Gap ws) (hkey : StringText key)
    (hbefore : Gap before) (hbehind : Gap behind) (hv : Skips v) (hgap : Gap gap)
    (hf : 2 * v.length ≤ fuel) : skipMembers (fuel + 1)
      (ws ++ '"' :: (key ++ (before ++ ':' :: (behind ++ (v ++ (gap ++ '\x7d' :: rest)))))) = .ok rest := by
  have hends : Ends (gap ++ '\x7d' :: rest) := hgap.ends (ends_cons _ (by decide))
  rw [skipMembers, skipSpace_gap hw (by decide)]
  dsimp only
  rw [if_neg (by decide), hkey.skip]
  dsimp only
  rw [skipSpace_gap hbefore (by decide)]
  dsimp only
  rw [if_neg (by decide), hv.skip fuel behind _ hbehind hends hf]
  dsimp only
  rw [skipSpace_gap hgap (by decide)]
  rfl

theorem skipMembers_more {ws key before behind gap : Text} {fuel : Nat} (hw : Gap ws) (hkey : StringText key)
    (hbefore : Gap before) (hbehind : Gap behind) (hv : Skips v) (hgap : Gap gap)
    (hf : 2 * v.length ≤ fuel) : skipMembers (fuel + 1)
      (ws ++ '"' :: (key ++ (before ++ ':' :: (behind ++ (v ++ (gap ++ ',' :: s)))))) =
        skipMembers fuel s := by
  have hends : Ends (gap ++ ',' :: s) := hgap.ends (ends_cons _ (by decide))
  rw [skipMembers, skipSpace_gap hw (by decide)]
  dsimp only
  rw [if_neg (by decide), hkey.skip]
  dsimp only
  rw [skipSpace_gap hbefore (by decide)]
  dsimp only
  rw [if_neg (by decide), hv.skip fuel behind _ hbehind hends hf]
  dsimp only
  rw [skipSpace_gap hgap (by decide)]
  rfl

theorem skipMembers_of_members {m : Unit × Text} {ms : List (Unit × Text)} {gap : Text} {fuel : Nat}
    (h : MembersText (fun _ => StringText) true (m :: ms) s) (hv : ∀ n ∈ m :: ms, Skips n.2) (hgap : Gap gap)
    (hf : 2 * s.length + 1 ≤ fuel) (rest : Text) : skipMembers fuel (s ++ (gap ++ '\x7d' :: rest)) = .ok rest := by
  obtain ⟨fuel, rfl⟩ : ∃ k, fuel = k + 1 := ⟨fuel - 1, by omega⟩
  induction ms generalizing m s fuel with
  | nil =>
    cases h with
    | member hsep hkey hbefore hbehind hs =>
      cases hs
      cases hsep with
      | start hw =>
        have hhead := hv _ List.mem_cons_self
        dsimp only at hhead
        simp only [List.length_append, List.length_cons, List.append_nil] at hf
        simp only [List.append_assoc, List.cons_append, List.append_nil]
        exact skipMembers_last hw hkey hbefore hbehind hhead hgap (by omega)
  | cons m' ms ih =>
    obtain ⟨hhead, hrest⟩ := List.forall_mem_cons.mp hv
    cases h with
    | member hsep hkey hbefore hbehind hs =>
      dsimp only at hhead
      cases hsep with
      | start hw =>
        obtain ⟨before, s', hcomma, rfl, hs'⟩ := hs.of_comma
        simp only [List.length_append, List.length_cons] at hf
        obtain ⟨fuel, rfl⟩ : ∃ k, fuel = k + 1 := ⟨fuel - 1, by omega⟩
        simp only [List.append_assoc, List.cons_append]
        rw [skipMembers_more hw hkey hbefore hbehind hhead hcomma (by omega)]
        exact ih hs' hrest fuel (by omega)

theorem skips_word {c : Char} {word : Text} (hc : isSpace c = false) (hb : c ≠ ']')
    (h : ∀ fuel rest, skipValue (fuel + 1) (c :: (word ++ rest)) = readWord word (word ++ rest)) :
    Skips (c :: word) := by
  apply skips_of_head hc hb
  intro fuel rest _ _
  rw [h, readWord_append]

theorem skips_positive (h : UnsignedText s) : Skips s := by
  obtain ⟨c, u, rfl, hc⟩ := h.starts
  have hspace := isSpace_of_isDigit hc
  have hne : ∀ d : Char, d.isDigit = false → c ≠ d := by
    rintro d hd rfl
    exact absurd (hc.symm.trans hd) (by decide)
  apply skips_of_head hspace (hne _ (by decide))
  intro fuel rest hr _
  have hskip := h.skip hr
  have hself : skipSpace (c :: (u ++ rest)) = c :: (u ++ rest) := skipSpace_gap gap_nil hspace
  rw [skipValue, hself]
  dsimp only
  rw [if_neg (hne _ (by decide)), if_neg (hne _ (by decide)), if_neg (hne _ (by decide)),
    if_neg (hne _ (by decide)), if_neg (hne _ (by decide)), if_pos hc]
  exact hskip

theorem skipValue_array (fuel : Nat) (s : Text) : skipValue (fuel + 1) ('[' :: s) =
    match skipSpace s with
    | [] => .error .ended
    | d :: s => if d = ']' then .ok s else skipItems fuel (d :: s) := rfl

theorem skipValue_object (fuel : Nat) (s : Text) : skipValue (fuel + 1) ('\x7b' :: s) =
    match skipSpace s with
    | [] => .error .ended
    | d :: s => if d = '\x7d' then .ok s else skipMembers fuel (d :: s) := rfl

theorem skips_array {vs : List Text} (h : ArrayText vs s) (hv : ∀ v ∈ vs, Skips v) : Skips s := by
  obtain ⟨items, gap, hitems, hgap, rfl⟩ := h
  apply skips_of_head (by decide) (by decide)
  intro fuel rest hr hf
  rw [skipValue_array, List.append_assoc, List.append_assoc, List.singleton_append]
  cases hitems with
  | none =>
    rw [List.nil_append, skipSpace_gap hgap (by decide)]
    rfl
  | @item _ _ v s vs hsep hs =>
    cases hsep with
    | start hw =>
      obtain ⟨c, u, rfl, hc, hb⟩ := (hv v List.mem_cons_self).starts
      have hitems : ItemsText true ((c :: u) :: vs) ([] ++ ((c :: u) ++ s)) := .item (.start gap_nil) hs
      have hfuel : 2 * ([] ++ ((c :: u) ++ s)).length + 1 ≤ fuel := by
        simp only [List.length_append, List.length_cons, List.length_nil] at hf ⊢
        omega
      have hskip := skipItems_of_items hitems hv hgap hfuel rest
      simp only [List.append_assoc, List.cons_append, List.nil_append] at hskip ⊢
      rw [skipSpace_gap hw hc]
      dsimp only
      rw [if_neg hb]
      exact hskip

theorem skips_object {ms : List (Unit × Text)} (h : ObjectText (fun _ => StringText) ms s)
    (hv : ∀ m ∈ ms, Skips m.2) : Skips s := by
  obtain ⟨members, gap, hmembers, hgap, rfl⟩ := h
  apply skips_of_head (by decide) (by decide)
  intro fuel rest hr hf
  rw [skipValue_object, List.append_assoc, List.append_assoc, List.singleton_append]
  cases hmembers with
  | none =>
    rw [List.nil_append, skipSpace_gap hgap (by decide)]
    rfl
  | @member _ name _ key before behind v s ms hsep hkey hbefore hbehind hs =>
    cases hsep with
    | start hw =>
      have hmembers : MembersText (fun _ => StringText) true ((name, v) :: ms)
          ([] ++ '"' :: (key ++ ((before ++ ':' :: (behind ++ v)) ++ s))) :=
        .member (.start gap_nil) hkey hbefore hbehind hs
      have hfuel : 2 * ([] ++ '"' :: (key ++ ((before ++ ':' :: (behind ++ v)) ++ s))).length + 1 ≤ fuel := by
        simp only [List.length_append, List.length_cons, List.length_nil] at hf ⊢
        omega
      have hskip := skipMembers_of_members hmembers hv hgap hfuel rest
      simp only [List.append_assoc, List.cons_append, List.nil_append] at hskip ⊢
      rw [skipSpace_gap hw (by decide)]
      dsimp only
      rw [if_neg (by decide)]
      exact hskip

/-- A value of any shape and depth is skipped. -/
theorem WellFormed.skips (h : WellFormed v) : Skips v := by
  induction h with
  | nullWord => exact skips_word rfl (by decide) fun _ _ => rfl
  | trueWord => exact skips_word rfl (by decide) fun _ _ => rfl
  | falseWord => exact skips_word rfl (by decide) fun _ _ => rfl
  | positive hu => exact skips_positive hu
  | negative hu =>
    apply skips_of_head rfl (by decide)
    intro fuel rest hr _
    exact hu.skip hr
  | string hs =>
    apply skips_of_head rfl (by decide)
    intro fuel rest _ _
    exact hs.skip rest
  | array h _ ih => exact skips_array h ih
  | object h _ ih => exact skips_object h ih

/-- A member that does not matter leaves the draft as it is. -/
theorem WellFormed.takes {σ : Type} (h : WellFormed v) (d : σ) {before behind : Text} (hbefore : Gap before)
    (hbehind : Gap behind) (hr : Ends rest) :
    skipMember d ((before ++ ':' :: (behind ++ v)) ++ rest) = .ok (d, rest) := by
  have hvalue : skip (behind ++ (v ++ rest)) = .ok rest := by
    apply h.skips.skip _ behind rest hbehind hr
    simp only [List.length_append]
    omega
  rw [List.append_assoc, List.cons_append, List.append_assoc, skipMember, readColon,
    skipSpace_gap hbefore (by decide)]
  simp only [if_true, hvalue]
  rfl

end Subword.Json
