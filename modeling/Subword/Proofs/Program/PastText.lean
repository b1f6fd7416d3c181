import Subword.Proofs.Program.Arguments

/-!
Arguments past the text. Once a word has gone to the rest, every further argument goes there too, even one that
is the mark of positional arguments, a flag, or an option. Main statement: such arguments are read, and change
neither the command nor the options.
-/
namespace Subword.Arguments

namespace Reading

/-- Everything that the program asks for has come: what follows goes to the rest. -/
structure PastText (r : Reading) : Prop where
  waiting : r.waiting = some .rest
  pending : r.pending = none
  due : r.due = []

def ignore (r : Reading) (args : List Text) : Reading :=
  { r with arguments := { r.arguments with rest := r.arguments.rest ++ args } }

variable {r s : Reading} {slot : Slot} {t w : Text}

theorem PastText.ignore (h : r.PastText) (args : List Text) : (r.ignore args).PastText :=
  ⟨h.waiting, h.pending, h.due⟩

theorem PastText.settle (h : r.PastText) : r.settle = .ok r := by
  unfold Reading.settle
  rw [h.pending]

theorem PastText.positional (h : r.PastText) (a : Text) : r.positional a = .ok (r.ignore [a]) := by
  have hnext : r.positional a = .ok { r with
      waiting := some .rest
      arguments := { r.arguments with rest := r.arguments.rest ++ [a] } } := by
    unfold Reading.positional
    simp only [h.settle, bind, Except.bind, h.due]
    rfl
  rw [hnext, ← h.waiting]
  rfl

/-- What stands past the text is ignored, whatever it looks like. -/
theorem PastText.take (h : r.PastText) (a : Text) : take .inspect r a = .ok (r.ignore [a]) := by
  have hrest : r.valueOrPositional a = .ok (r.ignore [a]) := by
    unfold valueOrPositional
    rw [h.waiting]
    exact h.positional a
  have hhyphens : r.waiting.any Program.inspect.takesHyphens = true := by
    rw [h.waiting]
    rfl
  unfold Reading.take
  by_cases htrailing : r.trailing = true
  · rw [if_pos htrailing]
    exact h.positional a
  · rw [if_neg htrailing, if_pos hhyphens]
    exact hrest

theorem PastText.foldlM_take (h : r.PastText) (args : List Text) :
    args.foldlM (Reading.take .inspect) r = .ok (r.ignore args) := by
  induction args generalizing r with
  | nil =>
    have hnone : r.ignore [] = r := by
      unfold Reading.ignore
      rw [List.append_nil]
    rw [hnone]
    rfl
  | cons a args ih =>
    have hmore : (r.ignore [a]).ignore args = r.ignore (a :: args) := by
      unfold Reading.ignore
      dsimp only
      rw [List.append_assoc, List.singleton_append]
    rw [List.foldlM_cons, h.take a, ← hmore]
    exact ih (h.ignore [a])

/-- A word without a hyphen is positional where no option waits for a value. -/
theorem take_word (hwaiting : r.waiting = none) (hword : t.head? ≠ some '-') :
    take .inspect r t = r.positional t := by
  have hvalue : r.valueOrPositional t = r.positional t := by
    unfold valueOrPositional
    rw [hwaiting]
  unfold take
  split
  · rfl
  rw [if_neg (by simp [hwaiting])]
  split
  · exact absurd rfl hword
  · exact absurd rfl hword
  · exact absurd rfl hword
  · exact hvalue

/-- The reading `r` waits for the text, and is `s` once what is pending in it is settled. -/
structure AwaitsText (r s : Reading) : Prop where
  waiting : r.waiting = none
  settle : r.settle = .ok s
  due : s.due = [.text]
  fresh : s.arguments.occurs .text = false

def withText (s : Reading) (t : Text) : Reading :=
  { s with
    pending := none
    waiting := none
    due := []
    arguments := { s.arguments with given := s.arguments.given ++ [(.text, some t)] } }

theorem AwaitsText.positional (h : AwaitsText r s) (t : Text) : r.positional t =
    .ok { s with pending := some (.text, some t), waiting := none, due := [] } := by
  unfold Reading.positional
  simp only [h.settle, bind, Except.bind, h.due]
  rfl

theorem AwaitsText.settle_text (h : AwaitsText r s) (t : Text) :
    Reading.settle { s with pending := some (.text, some t), waiting := none, due := [] } =
      .ok (s.withText t) := by
  have hfresh : ¬s.arguments.occurs .text = true := by
    rw [h.fresh]
    exact Bool.false_ne_true
  unfold Reading.settle
  dsimp only
  rw [if_neg (fun hvalue => nomatch hvalue.1), if_neg hfresh, if_neg (fun hpath => nomatch hpath.1)]
  rfl

/-- The first word past the text settles the text. -/
theorem AwaitsText.positional_past (h : AwaitsText r s) (t w : Text) :
    Reading.positional { s with pending := some (.text, some t), waiting := none, due := [] } w =
      .ok { (s.withText t).ignore [w] with waiting := some .rest } := by
  unfold Reading.positional
  rw [h.settle_text t]
  rfl

theorem pastText_withText (s : Reading) (t w : Text) :
    PastText { (s.withText t).ignore [w] with waiting := some .rest } :=
  ⟨rfl, rfl, rfl⟩

end Reading

open Reading (AwaitsText)

variable {lead : List Text} {r s : Reading} {t w : Text}

/-- Behind the lead and the text, every argument goes to the rest and to nothing else. -/
theorem read_behind_lead
    (hlead : lead.foldlM (Reading.take .inspect) { due := Program.inspect.positionals } = .ok r)
    (hr : AwaitsText r s) (ht : t.head? ≠ some '-') (hw : w.head? ≠ some '-') (further : List Text) :
    read .inspect (lead ++ [t]) = .ok (s.withText t).arguments ∧
      read .inspect (lead ++ t :: w :: further) =
        .ok { (s.withText t).arguments with rest := s.arguments.rest ++ w :: further } := by
  have htext := (Reading.take_word hr.waiting ht).trans (hr.positional t)
  constructor
  · apply read_eq_ok_iff.mpr
    refine ⟨_, _, ?_, hr.settle_text t, rfl⟩
    rw [List.foldlM_append, hlead]
    change [t].foldlM (Reading.take .inspect) r = _
    rw [List.foldlM_cons, htext]
    rfl
  · apply read_eq_ok_iff.mpr
    have hword : Reading.take .inspect
        { s with pending := some (.text, some t), waiting := none, due := [] } w = _ :=
      (Reading.take_word rfl hw).trans (hr.positional_past t w)
    have hpast := Reading.pastText_withText s t w
    refine ⟨_, _, ?_, (hpast.ignore further).settle, ?_⟩
    · rw [List.foldlM_append, hlead]
      change (t :: w :: further).foldlM (Reading.take .inspect) r = _
      rw [List.foldlM_cons, htext]
      change (w :: further).foldlM (Reading.take .inspect) _ = _
      rw [List.foldlM_cons, hword]
      exact hpast.foldlM_take further
    · unfold Reading.ignore Reading.withText
      dsimp only
      rw [List.append_assoc, List.singleton_append]

/-- Nothing stands before the text, or one option for a text with its value. -/
inductive Lead : List Text → Prop
  | nothing : Lead []
  | json (v : Text) : Lead ["--json".toList, v]
  | count (v : Text) : Lead ["--count".toList, v]

theorem Lead.awaitsText (h : Lead lead) : ∃ r given,
    lead.foldlM (Reading.take .inspect) { due := Program.inspect.positionals } = .ok r ∧
      AwaitsText r { due := [.text], arguments := ⟨given, []⟩ } ∧ given.lookup .text = none := by
  cases h with
  | nothing => exact ⟨_, [], rfl, ⟨rfl, rfl, rfl, rfl⟩, rfl⟩
  | json v => exact ⟨_, [(.json, some v)], rfl, ⟨rfl, rfl, rfl, rfl⟩, rfl⟩
  | count v => exact ⟨_, [(.count, some v)], rfl, ⟨rfl, rfl, rfl, rfl⟩, rfl⟩

/-- Arguments past the text are ignored: they are read, whatever they look like, and neither the command nor the
options for the encoding and for the settings are other than without them. -/
theorem read_past_text (lead : List Text) (hlead : Lead lead) (t w : Text)
    (ht : t.head? ≠ some '-') (hw : w.head? ≠ some '-') (further : List Text) :
    ∃ arguments arguments', read .inspect (lead ++ [t]) = .ok arguments ∧
      read .inspect (lead ++ t :: w :: further) = .ok arguments' ∧
      arguments'.command .inspect = arguments.command .inspect ∧
      arguments'.value? .encoding = arguments.value? .encoding ∧
      arguments'.value? .config = arguments.value? .config ∧
      arguments.value? .text = some t ∧ arguments'.rest = w :: further := by
  obtain ⟨r, given, hr, hawaits, hfresh⟩ := hlead.awaitsText
  obtain ⟨hread, hread'⟩ := read_behind_lead hr hawaits ht hw further
  refine ⟨_, _, hread, hread', rfl, rfl, rfl, ?_, rfl⟩
  have hlookup : (given ++ [(Slot.text, some t)]).lookup .text = some (some t) := by
    rw [List.lookup_append, hfresh]
    rfl
  exact congrArg Option.join hlookup

/-- Behind the word past the text stand the mark of positional arguments, an option that came before, a flag,
an option without its value and one that is not known. -/
theorem read_past_text_flags :
    let further := ["--".toList, "--json".toList, "--help".toList, "--wrong=x".toList, "--config".toList]
    Lead ["--json".toList, "-".toList] ∧
    ("some text".toList).head? ≠ some '-' ∧ ([] : Text).head? ≠ some '-' ∧
    ∃ arguments, read .inspect
        (["--json".toList, "-".toList] ++ "some text".toList :: [] :: further) = .ok arguments ∧
      arguments.command .inspect = .ok (.json .standardInput) ∧ arguments.value? .config = none := by
  intro further
  have hlead : Lead ["--json".toList, "-".toList] := .json _
  have ht : ("some text".toList).head? ≠ some '-' := by decide
  have hw : ([] : Text).head? ≠ some '-' := by decide
  obtain ⟨arguments, arguments', hread, hread', hcommand, -, hconfig, -, -⟩ :=
    read_past_text _ hlead "some text".toList [] ht hw further
  have halone : read .inspect ["--json".toList, "-".toList, "some text".toList] =
      .ok ⟨[(.json, some "-".toList), (.text, some "some text".toList)], []⟩ := rfl
  cases hread.symm.trans halone
  exact ⟨hlead, ht, hw, arguments', hread', hcommand, hconfig⟩

end Subword.Arguments
