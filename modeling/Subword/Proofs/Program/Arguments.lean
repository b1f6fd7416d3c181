import Mathlib.Data.List.TakeWhile
import Subword.Program.Command
import Subword.Proofs.Except

/-!
What reading arguments keeps. A step may settle what is pending and make something else pending, but what is
settled stays, and of two values of a slot the first counts. Main statement: the argument behind an option for a
text is the text of the command, whatever it looks like and whatever stands behind it.
-/
namespace Subword.Arguments

theorem lookup_of_not_occurs {args : Arguments} {slot : Slot} (h : args.occurs slot = false) :
    args.given.lookup slot = none := by
  rw [List.lookup_eq_none_iff]
  intro entry hentry
  have hne : entry.1 ≠ slot := of_decide_eq_false (by simpa using List.any_eq_false.mp h entry hentry)
  exact bne_iff_ne.mpr hne.symm

theorem occurs_of_lookup {args : Arguments} {slot : Slot} {value : Option Text}
    (h : args.given.lookup slot = some value) : args.occurs slot = true := by
  by_contra hnone
  rw [lookup_of_not_occurs (by simpa using hnone)] at h
  cases h

namespace Reading

/-- What an argument can do to a reading. -/
inductive Step (r : Reading) (a : Text) : Reading → Prop
  | escape : Step r a { r with trailing := true }
  | value {slot : Slot} (hwaiting : r.waiting = some slot) (hslot : slot ≠ .rest) :
    Step r a { r with pending := some (slot, some a), waiting := none }
  | positional {s : Reading} {slot : Slot} {due : List Slot} (hs : r.settle = .ok s)
      (hdue : s.due = slot :: due) :
    Step r a { s with pending := some (slot, some a), waiting := none, due := due }
  | rest {s : Reading} (hs : r.settle = .ok s) (hdue : s.due = []) :
    Step r a { s with
      waiting := some .rest
      arguments := { s.arguments with rest := s.arguments.rest ++ [a] } }
  | option {s : Reading} {slot : Slot} (hs : r.settle = .ok s) :
    Step r a { s with pending := some (slot, none), waiting := some slot }
  | optionValue {s s' : Reading} {slot : Slot} {v : Text} (hs : r.settle = .ok s)
      (hs' : settle { s with pending := some (slot, some v), waiting := none } = .ok s') :
    Step r a s'

variable {p : Program} {r r' : Reading} {a t : Text} {slot : Slot}

theorem settle_eq_ok (h : r.settle = .ok r') :
    (r.pending = none ∧ r' = r) ∨
    ∃ slot value, r.pending = some (slot, value) ∧ r.arguments.occurs slot = false ∧
      r' = { r with
        pending := none
        arguments := { r.arguments with given := r.arguments.given ++ [(slot, value)] } } := by
  unfold settle at h
  split at h
  · rename_i hpending
    cases h
    exact Or.inl ⟨hpending, rfl⟩
  · rename_i slot value hpending
    split at h
    · cases h
    split at h
    · cases h
    rename_i hoccurs
    split at h
    · cases h
    · cases h
      exact Or.inr ⟨slot, value, hpending, by simpa using hoccurs, rfl⟩

theorem step_of_positional (h : r.positional a = .ok r') : Step r a r' := by
  obtain ⟨s, hs, hnext⟩ := Except.bind_eq_ok_iff.mp h
  split at hnext
  · rename_i slot due hdue
    cases hnext
    exact .positional hs hdue
  · rename_i hdue
    cases hnext
    exact .rest hs hdue

theorem step_of_valueOrPositional (h : r.valueOrPositional a = .ok r') : Step r a r' := by
  unfold valueOrPositional at h
  split at h
  · exact step_of_positional h
  · exact step_of_positional h
  · rename_i slot hrest hwaiting
    cases h
    exact .value hwaiting hrest

theorem step_of_takeOption {value : Option Text} (h : r.takeOption slot value = .ok r') :
    Step r a r' := by
  obtain ⟨s, hs, hnext⟩ := Except.bind_eq_ok_iff.mp h
  cases value with
  | none =>
    cases hnext
    exact .option hs
  | some v => exact .optionValue hs hnext

theorem takeFlag_ne_ok (stop : Stop) : r.takeFlag stop ≠ .ok r' := by
  intro h
  obtain ⟨s, -, hnext⟩ := Except.bind_eq_ok_iff.mp h
  cases hnext

theorem step_of_takeLong {body : Text} (h : takeLong p r body = .ok r') :
    Step r ("--".toList ++ body) r' := by
  unfold takeLong at h
  dsimp only at h
  split at h
  · exact step_of_takeOption h
  · split at h
    · cases h
    · exact absurd h (takeFlag_ne_ok _)
  · split at h
    · exact step_of_valueOrPositional h
    · cases h

theorem step_of_takeShort {c : Char} {rest : Text} (h : takeShort p r c rest = .ok r') :
    Step r ('-' :: c :: rest) r' := by
  unfold takeShort at h
  split at h
  · exact step_of_valueOrPositional h
  split at h
  · exact absurd h (takeFlag_ne_ok _)
  split at h
  · exact absurd h (takeFlag_ne_ok _)
  split at h
  · exact step_of_takeOption h
  · cases h

/-- An argument that is taken does one of these things. -/
theorem step_of_take (h : take p r a = .ok r') : Step r a r' := by
  unfold take at h
  split at h
  · exact step_of_positional h
  split at h
  · exact step_of_valueOrPositional h
  split at h
  · cases h
    exact .escape
  · exact step_of_takeLong h
  · exact step_of_takeShort h
  · exact step_of_valueOrPositional h

/-- The slot has its value: settled, or pending where the next argument is no value for it. -/
def Holds (slot : Slot) (t : Text) (r : Reading) : Prop :=
  r.arguments.given.lookup slot = some (some t) ∨
    r.pending = some (slot, some t) ∧ ∀ w, r.waiting = some w → w = .rest

/-- Settling keeps what is settled and adds what is pending. -/
theorem Holds.settle (h : Holds slot t r) (hs : r.settle = .ok r') :
    r'.arguments.given.lookup slot = some (some t) := by
  rcases settle_eq_ok hs with ⟨hpending, rfl⟩ | ⟨slot', value, hpending, hoccurs, rfl⟩
  · rcases h with hsettled | ⟨hheld, -⟩
    · exact hsettled
    · rw [hpending] at hheld
      cases hheld
  · rw [List.lookup_append]
    rcases h with hsettled | ⟨hheld, -⟩
    · rw [hsettled]
      rfl
    · rw [hpending] at hheld
      cases hheld
      rw [lookup_of_not_occurs hoccurs, List.lookup_cons]
      simp

theorem Step.holds (hstep : Step r a r') (h : Holds slot t r) : Holds slot t r' := by
  cases hstep with
  | escape => exact h
  | value hwaiting hslot =>
    rcases h with hsettled | ⟨-, hwait⟩
    · exact Or.inl hsettled
    · exact absurd (hwait _ hwaiting) hslot
  | positional hs _ | rest hs _ | option hs =>
    have hsettled := h.settle hs
    exact Or.inl hsettled
  | @optionValue s _ slot' v hs hs' =>
    have hsettled := h.settle hs
    have hheld : Holds slot t { s with pending := some (slot', some v), waiting := none } :=
      Or.inl hsettled
    exact Or.inl (hheld.settle hs')

theorem take_option {name : Text} (htrailing : r.trailing = false)
    (hwaiting : r.waiting.any p.takesHyphens = false) (hname : p.option? name = some slot)
    (hplain : '=' ∉ name) : take p r ("--".toList ++ name) = r.takeOption slot none := by
  have hbare : ∀ c ∈ name, decide (c ≠ '=') = true :=
    fun c hc => decide_eq_true fun heq => hplain (heq ▸ hc)
  have hlong : takeLong p r name = r.takeOption slot none := by
    unfold takeLong
    rw [List.takeWhile_eq_self_iff.mpr hbare, List.dropWhile_eq_nil_iff.mpr hbare]
    dsimp only
    rw [hname]
    rfl
  cases name with
  | nil =>
    have hnone : p.option? [] = none := by cases p <;> rfl
    rw [hnone] at hname
    cases hname
  | cons c name =>
    unfold take
    rw [if_neg (by simp [htrailing]), if_neg (by simp [hwaiting])]
    exact hlong

theorem take_value (htrailing : r.trailing = false) (hwaiting : r.waiting = some slot)
    (hhyphens : p.takesHyphens slot = true) (hslot : slot ≠ .rest) :
    take p r t = .ok { r with pending := some (slot, some t), waiting := none } := by
  unfold take
  rw [if_neg (by simp [htrailing]), if_pos (by simpa [hwaiting] using hhyphens)]
  unfold valueOrPositional
  rw [hwaiting]
  cases slot with
  | rest => exact absurd rfl hslot
  | json | count | encoding | config | text | input | output => rfl

end Reading

variable {p : Program} {t : Text} {args : List Text} {arguments : Arguments} {slot : Slot}

theorem read_eq_ok_iff : read p args = .ok arguments ↔ ∃ s s' : Reading,
    args.foldlM (Reading.take p) { due := p.positionals } = .ok s ∧ s.settle = .ok s' ∧
      s'.arguments = arguments := by
  unfold read
  simp only [Except.bind_eq_ok_iff]
  constructor
  · rintro ⟨s, hs, s', hs', hdone⟩
    exact ⟨s, s', hs, hs', Except.ok.inj hdone⟩
  · rintro ⟨s, s', hs, hs', rfl⟩
    exact ⟨s, hs, s', hs', rfl⟩

/-- An option for a text takes the next argument, whatever it looks like, and keeps it. -/
theorem lookup_of_read (name : Text) (hname : p.option? name = some slot) (hplain : '=' ∉ name)
    (hhyphens : p.takesHyphens slot = true) (hslot : slot ≠ .rest)
    (h : read p (("--".toList ++ name) :: t :: args) = .ok arguments) :
    arguments.given.lookup slot = some (some t) := by
  obtain ⟨s, s', hs, hs', rfl⟩ := read_eq_ok_iff.mp h
  have hoption : Reading.take p { due := p.positionals } ("--".toList ++ name) =
      .ok { pending := some (slot, none), waiting := some slot, due := p.positionals } :=
    Reading.take_option rfl rfl hname hplain
  have hvalue : Reading.take p
      { pending := some (slot, none), waiting := some slot, due := p.positionals } t =
        .ok { pending := some (slot, some t), waiting := none, due := p.positionals } :=
    Reading.take_value rfl rfl hhyphens hslot
  rw [List.foldlM_cons, hoption] at hs
  change (t :: args).foldlM (Reading.take p) _ = _ at hs
  rw [List.foldlM_cons, hvalue] at hs
  change args.foldlM (Reading.take p) _ = _ at hs
  have hheld : Reading.Holds slot t
      { pending := some (slot, some t), waiting := none, due := p.positionals } :=
    Or.inr ⟨rfl, fun w hw => nomatch hw⟩
  have hkept : Reading.Holds slot t s :=
    Except.foldlM_keeps (fun _ _ _ hb hstep => (Reading.step_of_take hstep).holds hb) hheld hs
  exact hkept.settle hs'

theorem command_of_lookup_json (h : arguments.given.lookup .json = some (some t)) :
    arguments.command .inspect =
      .ok (.json (if t = "-".toList then .standardInput else .argument t)) := by
  have hvalue : arguments.value? .json = some t := congrArg Option.join h
  unfold command inspectCommand
  rw [if_pos (occurs_of_lookup h), hvalue]
  rfl

theorem command_of_lookup_count (h : arguments.given.lookup .count = some (some t))
    (hjson : arguments.occurs .json = false) : arguments.command .inspect = .ok (.count t) := by
  have hvalue : arguments.value? .count = some t := congrArg Option.join h
  unfold command inspectCommand
  rw [if_neg (by simp [hjson]), if_pos (occurs_of_lookup h), hvalue]

/-- The argument behind the option for a document or for a count is the text of the command, though it may look
like an option itself, and though others of the arguments behind it may be options. By itself it is read. -/
theorem read_text_verbatim (t : Text) (further : List Text) :
    (∀ arguments, read .inspect ("--json".toList :: t :: further) = .ok arguments →
      arguments.command .inspect =
        .ok (.json (if t = "-".toList then .standardInput else .argument t))) ∧
    (∀ arguments, read .inspect ("--count".toList :: t :: further) = .ok arguments →
      arguments.occurs .json = false → arguments.command .inspect = .ok (.count t)) ∧
    read .inspect ["--json".toList, t] = .ok ⟨[(.json, some t)], []⟩ ∧
    read .inspect ["--count".toList, t] = .ok ⟨[(.count, some t)], []⟩ := by
  refine ⟨?_, ?_, rfl, rfl⟩
  · intro arguments h
    have hlookup : arguments.given.lookup .json = some (some t) :=
      lookup_of_read "json".toList rfl (by decide) rfl (by decide) h
    exact command_of_lookup_json hlookup
  · intro arguments h hjson
    have hlookup : arguments.given.lookup .count = some (some t) :=
      lookup_of_read "count".toList rfl (by decide) rfl (by decide) h
    exact command_of_lookup_count hlookup hjson

/-- The texts are two flags. Behind them stand the mark of positional arguments, an option for the encoding and
words that are ignored. -/
theorem read_text_verbatim_flags :
    (∃ arguments, read .inspect ["--json".toList, "--help".toList, "--".toList, "-x".toList,
        "--json".toList] = .ok arguments ∧
      arguments.command .inspect = .ok (.json (.argument "--help".toList))) ∧
    (∃ arguments, read .inspect ["--json".toList, "-".toList] = .ok arguments ∧
      arguments.command .inspect = .ok (.json .standardInput)) ∧
    ∃ arguments, read .inspect ["--count".toList, "-V".toList, "--encoding=r50k_base".toList,
        "-".toList, "x".toList, "--json".toList] = .ok arguments ∧
      arguments.command .inspect = .ok (.count "-V".toList) := by
  have hhelp : read .inspect ["--json".toList, "--help".toList, "--".toList, "-x".toList,
      "--json".toList] =
        .ok ⟨[(.json, some "--help".toList), (.text, some "-x".toList)], ["--json".toList]⟩ := rfl
  have hinput : read .inspect ["--json".toList, "-".toList] = .ok ⟨[(.json, some "-".toList)], []⟩ := rfl
  have hversion : read .inspect ["--count".toList, "-V".toList, "--encoding=r50k_base".toList,
      "-".toList, "x".toList, "--json".toList] =
        .ok ⟨[(.count, some "-V".toList), (.encoding, some "r50k_base".toList),
          (.text, some "-".toList)], ["x".toList, "--json".toList]⟩ := rfl
  refine ⟨⟨_, hhelp, ?_⟩, ⟨_, hinput, ?_⟩, ⟨_, hversion, ?_⟩⟩
  · exact (read_text_verbatim _ _).1 _ hhelp
  · exact (read_text_verbatim _ _).1 _ hinput
  · exact (read_text_verbatim _ _).2.1 _ hversion rfl

end Subword.Arguments
