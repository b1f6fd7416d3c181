import Mathlib.Data.List.Forall2
import Subword.Provider.CharLevel
import Subword.Session.Script

/-!
A session remembers nothing but whether it is over. Main statement: behind any sequence of actions the
session is over exactly if one of them ends it, and until then every line has the turn that it has in a new
session, whatever was taken or shown before and whether or not it could be written.
-/
namespace Subword.Session

/-- The text is the word with each of its letters in lower or upper case. -/
def InAnyCase (text word : Text) : Prop := List.Forall₂ (fun c d => c = d ∨ c = d.toUpper) text word

namespace Action

def line? : Action → Option Text
  | .line text | .take text => some text
  | .again | .render _ | .banner _ | .prompt | .farewell | .terminate => none

/-- The action ends the session: it takes an exit word or comes from outside. -/
def Ends : Action → Prop
  | .line text | .take text => ∃ word ∈ exitWords, InAnyCase text word
  | .terminate => True
  | .again | .render _ | .banner _ | .prompt | .farewell => False

end Action

variable {st : Stage} {a : Action} {actions : List Action} {text word : Text}

theorem toLower_eq_iff {c d : Char} (hd : d.isLower = true) :
    c.toLower = d ↔ c = d ∨ c = d.toUpper := by
  unfold Char.isLower at hd
  simp only [Bool.and_eq_true, decide_eq_true_eq, ge_iff_le] at hd
  have hlow : (97 : UInt32) ≤ d.val := hd.1
  have hhigh : d.val ≤ (122 : UInt32) := hd.2
  have hupper : d.toUpper.val = d.val - 32 := by
    unfold Char.toUpper
    rw [dif_pos hd]
    grind
  rw [Char.ext_iff, Char.ext_iff, Char.ext_iff, hupper]
  unfold Char.toLower
  split
  · rename_i h
    have hfrom : (65 : UInt32) ≤ c.val := h.1
    have hto : c.val ≤ (90 : UInt32) := h.2
    change c.val + 32 = d.val ↔ _
    grind
  · rename_i h
    have hout : ¬((65 : UInt32) ≤ c.val ∧ c.val ≤ (90 : UInt32)) := h
    grind

theorem map_toLower_eq_iff (hword : ∀ d ∈ word, d.isLower = true) :
    text.map Char.toLower = word ↔ InAnyCase text word := by
  unfold InAnyCase
  induction word generalizing text with
  | nil => simp
  | cons d word ih =>
    obtain ⟨hd, hrest⟩ := List.forall_mem_cons.mp hword
    cases text with
    | nil => simp
    | cons c text =>
      rw [List.map_cons, List.cons.injEq, List.forall₂_cons, toLower_eq_iff hd, ih hrest]

theorem isExitWord_iff : isExitWord text = true ↔ ∃ word ∈ exitWords, InAnyCase text word := by
  have hall : exitWords.all (·.all Char.isLower) = true := by decide
  have hlower : ∀ word ∈ exitWords, ∀ d ∈ word, d.isLower = true :=
    fun word hword => List.all_eq_true.mp (List.all_eq_true.mp hall word hword)
  have hmem : isExitWord text = true ↔ text.map Char.toLower ∈ exitWords := by simp [isExitWord]
  rw [hmem]
  constructor
  · intro h
    exact ⟨_, h, (map_toLower_eq_iff (hlower _ h)).mp rfl⟩
  · rintro ⟨word, hword, hcase⟩
    rw [(map_toLower_eq_iff (hlower word hword)).mpr hcase]
    exact hword

theorem put_session (st : Stage) (writes : List Text) : (st.put writes).session = st.session := by
  unfold Stage.put
  split <;> rfl

theorem put_turn (st : Stage) (writes : List Text) : (st.put writes).turn = st.turn := by
  unfold Stage.put
  split <;> rfl

theorem handleLine_of_exit (s : Session) (h : ∃ word ∈ exitWords, InAnyCase text word) :
    s.handleLine text = (.exit, s.terminate) := by
  simp [handleLine, isExitWord_iff.mpr h, terminate]

theorem handleLine_of_not_exit (s : Session) (h : ¬∃ word ∈ exitWords, InAnyCase text word) :
    (s.handleLine text).2 = s := by
  have hword : isExitWord text = false := by
    rw [← isExitWord_iff] at h
    simpa using h
  unfold handleLine
  split
  · rename_i hover
    have hstate : s.state = .terminated := by simpa [hword] using hover
    cases s
    cases hstate
    rfl
  · rfl

theorem perform_session_of_ends (h : a.Ends) : (st.perform a).session = st.session.terminate := by
  cases a with
  | line text =>
    simp only [Stage.perform, put_session, handleLine_of_exit _ h]
  | take text => simp only [Stage.perform, handleLine_of_exit _ h]
  | terminate => rfl
  | again | render | banner | prompt | farewell => exact h.elim

theorem perform_session_of_not_ends (h : ¬a.Ends) : (st.perform a).session = st.session := by
  cases a with
  | line text => simp only [Stage.perform, put_session, handleLine_of_not_exit _ h]
  | take text => simp only [Stage.perform, handleLine_of_not_exit _ h]
  | terminate => exact absurd trivial h
  | again | render | banner | prompt | farewell => exact put_session _ _

theorem perform_turn (h : a.line? = some text) :
    (st.perform a).turn = (st.session.handleLine text).1 := by
  cases a with
  | line t =>
    cases h
    exact put_turn _ _
  | take t =>
    cases h
    rfl
  | again | render | banner | prompt | farewell | terminate => cases h

theorem performAll_append (st : Stage) (before after : List Action) :
    st.performAll (before ++ after) = (st.performAll before).performAll after := List.foldl_append

theorem performAll_cons (st : Stage) (a : Action) (actions : List Action) :
    st.performAll (a :: actions) = (st.perform a).performAll actions := rfl

theorem terminate_terminate (s : Session) : s.terminate.terminate = s.terminate := rfl

/-- Actions that do not end the session leave it as it is. -/
theorem performAll_session_of_not_ends (h : ∀ a ∈ actions, ¬a.Ends) :
    (st.performAll actions).session = st.session := by
  induction actions generalizing st with
  | nil => rfl
  | cons a actions ih =>
    obtain ⟨ha, hactions⟩ := List.forall_mem_cons.mp h
    rw [performAll_cons, ih hactions, perform_session_of_not_ends ha]

/-- Once one of the actions has ended the session, the others leave it so. -/
theorem performAll_session_of_ends (h : ∃ a ∈ actions, a.Ends) :
    (st.performAll actions).session = st.session.terminate := by
  induction actions generalizing st with
  | nil => simp at h
  | cons a actions ih =>
    rw [performAll_cons]
    by_cases hactions : ∃ b ∈ actions, b.Ends
    · rw [ih hactions]
      by_cases ha : a.Ends
      · rw [perform_session_of_ends ha, terminate_terminate]
      · rw [perform_session_of_not_ends ha]
    · have ha : a.Ends := by
        obtain ⟨b, hb, hends⟩ := h
        rcases List.mem_cons.mp hb with rfl | hb
        · exact hends
        · exact absurd ⟨b, hb, hends⟩ hactions
      have hrest : ∀ b ∈ actions, ¬b.Ends := fun b hb hends => hactions ⟨b, hb, hends⟩
      rw [performAll_session_of_not_ends hrest, perform_session_of_ends ha]

/-- Leaving out an action that does not end the session changes nothing of the session behind the others. -/
theorem performAll_session_skip (st : Stage) (before between : List Action) (h : ¬a.Ends) :
    (st.performAll (before ++ a :: between)).session =
      (st.performAll (before ++ between)).session := by
  by_cases hends : ∃ b ∈ before ++ between, b.Ends
  · obtain ⟨b, hb, hbends⟩ := hends
    have hmem : b ∈ before ++ a :: between := by
      rcases List.mem_append.mp hb with hb | hb
      · exact List.mem_append_left _ hb
      · exact List.mem_append_right _ (List.mem_cons_of_mem _ hb)
    rw [performAll_session_of_ends ⟨b, hmem, hbends⟩, performAll_session_of_ends ⟨b, hb, hbends⟩]
  · have hnone : ∀ b ∈ before ++ between, ¬b.Ends := fun b hb hbends => hends ⟨b, hb, hbends⟩
    have hnone' : ∀ b ∈ before ++ a :: between, ¬b.Ends := by
      obtain ⟨hbefore, hbetween⟩ := List.forall_mem_append.mp hnone
      exact List.forall_mem_append.mpr ⟨hbefore, List.forall_mem_cons.mpr ⟨h, hbetween⟩⟩
    rw [performAll_session_of_not_ends hnone, performAll_session_of_not_ends hnone']

/-- The turn of a line comes from the session that the actions before it leave. -/
theorem performAll_turn (st : Stage) (before : List Action) (h : a.line? = some text) :
    (st.performAll (before ++ [a])).turn =
      ((st.performAll before).session.handleLine text).1 := by
  rw [performAll_append]
  exact perform_turn h

theorem perform_terminated (st : Stage) (a : Action) (h : st.session.state = .terminated) :
    (st.perform a).session.state = .terminated := by
  by_cases ha : a.Ends
  · rw [perform_session_of_ends ha]
    rfl
  · rw [perform_session_of_not_ends ha]
    exact h

/-- A new session is over behind a sequence of actions exactly if one of them ends it. The turn of a line is
the exit behind such an action, else the turn of this line in a new session; leaving out an action that does
not end the session changes no later turn, and no action brings an ended session back. -/
theorem performAll_memoryless (p : Provider) (limits : Breakdown.Limits) (sink : Sink)
    (actions : List Action) :
    let start : Stage := { session := { provider := p, limits }, sink }
    ((start.performAll actions).session.state = .terminated ↔ ∃ a ∈ actions, a.Ends) ∧
    (∀ before a after text, actions = before ++ a :: after → a.line? = some text →
      ((∃ b ∈ before, b.Ends) → (start.performAll (before ++ [a])).turn = .exit) ∧
      ((∀ b ∈ before, ¬b.Ends) →
        (start.performAll (before ++ [a])).turn = (handleLine ⟨p, limits, .running⟩ text).1)) ∧
    (∀ before b between a after, actions = before ++ b :: between ++ a :: after → ¬b.Ends →
      a.line?.isSome → (start.performAll (before ++ b :: between ++ [a])).turn =
        (start.performAll (before ++ between ++ [a])).turn) ∧
    ∀ (st : Stage) (a : Action), st.session.state = .terminated →
      (st.perform a).session.state = .terminated := by
  intro start
  refine ⟨?_, ?_, ?_, perform_terminated⟩
  · constructor
    · intro hover
      by_contra hnone
      have hnone : ∀ a ∈ actions, ¬a.Ends := fun a ha hends => hnone ⟨a, ha, hends⟩
      rw [performAll_session_of_not_ends hnone] at hover
      cases hover
    · intro hends
      rw [performAll_session_of_ends hends]
      rfl
  · intro before a after text _ htext
    rw [performAll_turn start before htext]
    constructor
    · intro hends
      rw [performAll_session_of_ends hends]
      simp [handleLine, terminate]
    · intro hnone
      rw [performAll_session_of_not_ends hnone]
  · intro before b between a after _ hb ha
    obtain ⟨text, htext⟩ := Option.isSome_iff_exists.mp ha
    rw [performAll_turn start _ htext, performAll_turn start _ htext,
      performAll_session_skip start before between hb]

/-- A line that cannot be encoded, what is shown of it on a full sink, a line, an exit word in mixed case and
another line. -/
theorem performAll_memoryless_quit :
    let start : Stage :=
      { session := { provider := .charLevel, limits := ⟨20, 30⟩ }, sink := .limited 3 }
    (start.performAll [.line ['\x00'], .again, .take "hi".toList, .line "QuiT".toList,
      .take "hi".toList]).session.state = .terminated ∧
    (start.performAll [.line ['\x00'], .again, .take "hi".toList]).turn =
      (handleLine ⟨.charLevel, ⟨20, 30⟩, .running⟩ "hi".toList).1 ∧
    (start.performAll [.again, .take "hi".toList]).turn =
      (start.performAll [.line ['\x00'], .again, .take "hi".toList]).turn ∧
    (start.performAll [.line ['\x00'], .again, .take "hi".toList, .line "QuiT".toList,
      .take "hi".toList]).turn = .exit ∧
    ((start.performAll [.terminate]).perform (.take "hi".toList)).session.state = .terminated := by
  have hquit : (Action.line "QuiT".toList).Ends := isExitWord_iff.mp (by decide)
  have hzero : ¬(Action.line ['\x00']).Ends := by
    intro h
    exact absurd (isExitWord_iff.mpr h) (by decide)
  obtain ⟨hover, hturn, hskip, hstays⟩ := performAll_memoryless .charLevel ⟨20, 30⟩ (.limited 3)
    [.line ['\x00'], .again, .take "hi".toList, .line "QuiT".toList, .take "hi".toList]
  refine ⟨hover.mpr ⟨_, by simp, hquit⟩, ?_, ?_, ?_, hstays _ _ rfl⟩
  · refine (hturn [.line ['\x00'], .again] _ _ _ rfl rfl).2 ?_
    exact List.forall_mem_cons.mpr ⟨hzero, List.forall_mem_singleton.mpr not_false⟩
  · exact (hskip [] _ [.again] _ _ rfl hzero rfl).symm
  · refine (hturn [.line ['\x00'], .again, .take "hi".toList, .line "QuiT".toList] _ _ _ rfl rfl).1 ?_
    exact ⟨_, by simp, hquit⟩

end Subword.Session
