import Subword.Proofs.Session.Transcript
import Subword.Proofs.Sink
import Subword.Session.Script

/-!
Sessions whose output fails. Main statements: a session over a stream that writes to a sink of `n` bytes
writes the first `n` bytes of what it writes without a limit, and ends at the first write that does not fit;
a script goes on behind such a write, with the same turns and states.
-/
namespace Subword.Session

/-- The stages of one script, on a sink without a limit and on one of `n` bytes, differ in what the sinks keep
only. -/
structure Stage.Agrees (n : Nat) (full limited : Stage) : Prop where
  session : limited.session = full.session
  turn : limited.turn = full.turn
  unlimited : full.sink.room = none
  sink : limited.sink = .offered n full.sink.kept

/-- The stages behind an action, which found the bytes `before` in the sink without a limit. On the sink of
`n` bytes it is blocked exactly if it writes something and the limit lies before the end of it. -/
structure Stage.StepTruncates (n : Nat) (before : Bytes) (full limited : Stage) : Prop where
  agrees : full.Agrees n limited
  grows : before <+: full.sink.kept
  unblocked : full.blocked = false
  blocked : limited.blocked = true ↔ before ≠ full.sink.kept ∧ n < full.sink.kept.length

variable {s : Session} {stop : Stop} {n : Nat} {kept : Bytes}

theorem writing_writing (s : Session) (a b : Text) (sink : Sink) (next : Sink → Transcript) :
    writing s [a] sink (fun sink => writing s [b] sink next) = writing s [a ++ b] sink next := by
  have hjoin : ([a] ++ [b]).flatten = [a ++ b].flatten := by simp
  rw [writing_append, writing_congr s hjoin]

/-- A session writes some output while it runs and then comes to its end, or fails to read. -/
theorem converse_eq_writing (hs : s.state = .running) (inputs : List Input) :
    ∃ output, (∃ e, ∀ sink, converse s inputs sink = writing s [output] sink (conclude s e)) ∨
      ∀ sink, converse s inputs sink =
        writing s [output] sink fun sink => ⟨.error .readFailed, s, sink⟩ := by
  induction inputs with
  | nil => exact ⟨prompt, Or.inr (converse_nil hs)⟩
  | cons input rest ih =>
    cases input with
    | endOfInput => exact ⟨prompt, Or.inl ⟨.endOfInput, converse_endOfInput hs rest⟩⟩
    | interrupt => exact ⟨prompt, Or.inl ⟨.interrupted, converse_interrupt hs rest⟩⟩
    | line raw =>
      by_cases h : Leaves (lineContent raw)
      · exact ⟨prompt, Or.inl ⟨.exit, converse_cons_of_leaves hs h rest⟩⟩
      · obtain ⟨output, hrest⟩ := ih
        refine ⟨exchange s.provider s.limits (lineContent raw) ++ output, ?_⟩
        rcases hrest with ⟨e, he⟩ | hfail
        · refine Or.inl ⟨e, fun sink => ?_⟩
          rw [converse_cons_of_not_leaves hs h, funext he, writing_writing]
        · refine Or.inr fun sink => ?_
          rw [converse_cons_of_not_leaves hs h, funext hfail, writing_writing]

theorem writing_offered_of_le {t : Text} (next : Sink → Transcript)
    (h : (kept ++ Utf8.encode t).length ≤ n) :
    writing s [t] (.offered n kept) next = next (.offered n (kept ++ Utf8.encode t)) := by
  rw [← List.flatten_singleton (l := t)] at h
  rw [writing, Sink.printAll_offered_of_le h, List.flatten_singleton]

theorem writing_offered_of_lt {t : Text} (next : Sink → Transcript) (hkept : kept.length ≤ n)
    (h : n < (kept ++ Utf8.encode t).length) :
    writing s [t] (.offered n kept) next =
      ⟨.error .sinkFull, s, .offered n (kept ++ Utf8.encode t)⟩ := by
  rw [← List.flatten_singleton (l := t)] at h
  rw [writing, Sink.printAll_offered_of_cross hkept h, List.flatten_singleton]

theorem writing_conclude_unlimited (s : Session) (output : Text) (e : Ending) :
    writing s [output] .unlimited (conclude s e) =
      ⟨.ok e, s.terminate, ⟨Utf8.encode output ++ Utf8.encode (closing e), none⟩⟩ := by
  rw [Sink.unlimited, writing_conclude, List.nil_append, Utf8.encode_append]

/-- A session ends before its farewell is written, so it is over wherever the limit falls behind that point. -/
theorem writing_conclude_limited (s : Session) (output : Text) (e : Ending) (n : Nat) :
    writing s [output] (.limited n) (conclude s e) =
      if n < (Utf8.encode output).length then
        ⟨.error .sinkFull, s, .offered n (Utf8.encode output)⟩
      else
        ⟨if (Utf8.encode output ++ Utf8.encode (closing e)).length ≤ n then .ok e
            else .error .sinkFull,
          s.terminate, .offered n (Utf8.encode output ++ Utf8.encode (closing e))⟩ := by
  rw [← Sink.offered_nil]
  by_cases houtput : n < (Utf8.encode output).length
  · rw [if_pos houtput]
    exact writing_offered_of_lt _ (Nat.zero_le n) houtput
  · rw [if_neg houtput, writing_offered_of_le _ (Nat.le_of_not_lt houtput), List.nil_append]
    by_cases hclosing : (Utf8.encode output ++ Utf8.encode (closing e)).length ≤ n
    · rw [if_pos hclosing]
      exact writing_offered_of_le _ hclosing
    · rw [if_neg hclosing]
      exact writing_offered_of_lt _ (Nat.le_of_not_lt houtput) (Nat.lt_of_not_le hclosing)

/-- The transcript of a session over the same stream on a sink of `n` bytes against the one without a limit:
what it keeps, how it ends, and whether the session is over. -/
structure DriveTruncates (s : Session) (n : Nat) (full limited : Transcript) : Prop where
  output : Sink.Truncates n (.error .sinkFull) (full.ending, full.sink) (limited.ending, limited.sink)
  state : ∀ e, full.ending = .ok e → s.state = .running → ∃ before,
    full.sink.kept = before ++ Utf8.encode (closing e) ∧
      (limited.session.state = .terminated ↔ before.length ≤ n)
  unread : ∀ e, full.ending = .error e → limited.session = s

theorem drive_of_terminated (hs : s.state = .terminated) (bytes : Bytes) (stop : Stop) (sink : Sink) :
    drive s bytes stop sink = ⟨.ok .exit, s, sink⟩ := by
  rw [drive]
  rw [converse, if_pos hs]

theorem driveTruncates_conclude (hs : s.state = .running) (output : Text) (e : Ending) (n : Nat) :
    DriveTruncates s n (writing s [output] .unlimited (conclude s e))
      (writing s [output] (.limited n) (conclude s e)) := by
  rw [writing_conclude_unlimited, writing_conclude_limited]
  by_cases houtput : n < (Utf8.encode output).length
  · have hfull : n < (Utf8.encode output ++ Utf8.encode (closing e)).length := by
      rw [List.length_append]
      omega
    rw [if_pos houtput]
    refine ⟨⟨?_, by simp, fun hfits => absurd hfull (Nat.not_lt.mpr hfits), fun _ => rfl⟩, ?_, ?_⟩
    · exact (List.take_append_of_le_length (Nat.le_of_lt houtput)).symm
    · intro e' he' _
      cases he'
      refine ⟨Utf8.encode output, rfl, ?_⟩
      simp only [hs, reduceCtorEq, false_iff]
      omega
    · intro e' he'
      cases he'
  · rw [if_neg houtput]
    refine ⟨⟨rfl, by simp, fun hfits => if_pos hfits, fun hcut => if_neg (Nat.not_le.mpr hcut)⟩, ?_, ?_⟩
    · intro e' he' _
      cases he'
      refine ⟨Utf8.encode output, rfl, ?_⟩
      simp only [terminate, true_iff]
      omega
    · intro e' he'
      cases he'

theorem driveTruncates_failure (s : Session) (output : Text) (n : Nat) :
    DriveTruncates s n (writing s [output] .unlimited fun sink => ⟨.error .readFailed, s, sink⟩)
      (writing s [output] (.limited n) fun sink => ⟨.error .readFailed, s, sink⟩) := by
  rw [Sink.unlimited, writing_unlimited, List.flatten_singleton, List.nil_append, ← Sink.offered_nil]
  by_cases houtput : n < (Utf8.encode output).length
  · rw [writing_offered_of_lt _ (Nat.zero_le n) houtput]
    refine ⟨⟨rfl, by simp, fun hfits => absurd houtput (Nat.not_lt.mpr hfits), fun _ => rfl⟩, ?_,
      fun _ _ => rfl⟩
    intro e he
    cases he
  · rw [writing_offered_of_le _ (Nat.le_of_not_lt houtput)]
    refine ⟨⟨rfl, by simp, fun _ => rfl, fun hcut => absurd hcut houtput⟩, ?_, fun _ _ => rfl⟩
    intro e he
    cases he

theorem drive_truncates (s : Session) (bytes : Bytes) (stop : Stop) (n : Nat) :
    DriveTruncates s n (drive s bytes stop .unlimited) (drive s bytes stop (.limited n)) := by
  cases hs : s.state with
  | running =>
    obtain ⟨output, ⟨e, he⟩ | hfail⟩ := converse_eq_writing hs (inputs bytes stop)
    · rw [drive, drive, he, he]
      exact driveTruncates_conclude hs output e n
    · rw [drive, drive, hfail, hfail]
      exact driveTruncates_failure s output n
  | terminated =>
    rw [drive_of_terminated hs, drive_of_terminated hs]
    refine ⟨Sink.truncates_of_silent (by simp) n, fun e _ hrun => ?_, fun e he => ?_⟩
    · rw [hs] at hrun
      cases hrun
    · cases he

namespace Stage

variable {full limited : Stage}

theorem Agrees.put (h : full.Agrees n limited) (writes : List Text) :
    StepTruncates n full.sink.kept (full.put writes) (limited.put writes) := by
  obtain ⟨session, turn, ⟨kept, room⟩, blocked⟩ := full
  obtain ⟨hsession, hturn, hroom, hsink⟩ := h
  cases hroom
  rw [Stage.put, Stage.put, Sink.printAll_unlimited, hsink]
  by_cases hnil : Utf8.encode writes.flatten = []
  · rw [Sink.printAll_eq, Sink.print, hnil, List.append_nil, Sink.write_nil]
    exact ⟨⟨hsession, hturn, rfl, rfl⟩, List.prefix_rfl, rfl, by simp⟩
  · have hgrows : kept ≠ kept ++ Utf8.encode writes.flatten := by simpa using hnil
    have hprefix : kept <+: kept ++ Utf8.encode writes.flatten := List.prefix_append _ _
    by_cases hfits : (kept ++ Utf8.encode writes.flatten).length ≤ n
    · rw [Sink.printAll_offered_of_le hfits]
      refine ⟨⟨hsession, hturn, rfl, rfl⟩, hprefix, rfl, ?_⟩
      simp only [Bool.false_eq_true, false_iff, not_and, Nat.not_lt]
      exact fun _ => hfits
    · rw [Sink.printAll_offered_of_lt hnil (Nat.lt_of_not_le hfits)]
      exact ⟨⟨hsession, hturn, rfl, rfl⟩, hprefix, rfl,
        fun _ => ⟨hgrows, Nat.lt_of_not_le hfits⟩, fun _ => rfl⟩

theorem Agrees.perform (h : full.Agrees n limited) (a : Action) :
    StepTruncates n full.sink.kept (full.perform a) (limited.perform a) := by
  have hquiet : ∀ session turn, StepTruncates n full.sink.kept
      { full with session, turn, blocked := false } { limited with session, turn, blocked := false } :=
    fun _ _ => ⟨⟨rfl, rfl, h.unlimited, h.sink⟩, List.prefix_rfl, rfl, by simp⟩
  have htaken : ∀ session turn, Agrees n { full with session, turn } { limited with session, turn } :=
    fun _ _ => ⟨rfl, rfl, h.unlimited, h.sink⟩
  cases a with
  | line text =>
    have hline := htaken (full.session.handleLine text).2 (full.session.handleLine text).1
    simp only [Stage.perform, h.session]
    exact hline.put _
  | take text =>
    simp only [Stage.perform, h.session]
    exact hquiet _ _
  | again =>
    simp only [Stage.perform, h.session, h.turn]
    exact h.put _
  | render turn =>
    simp only [Stage.perform, h.session]
    exact h.put _
  | banner examples =>
    simp only [Stage.perform, h.session]
    exact h.put _
  | prompt => exact h.put _
  | farewell => exact h.put _
  | terminate =>
    simp only [Stage.perform, h.session]
    rw [← h.turn]
    exact hquiet _ _

theorem Agrees.performAll (h : full.Agrees n limited) (actions : List Action) :
    (full.performAll actions).Agrees n (limited.performAll actions) := by
  induction actions generalizing full limited with
  | nil => exact h
  | cons a actions ih => exact ih (h.perform a).agrees

theorem start_agrees (s : Session) (n : Nat) :
    Agrees n { session := s, sink := .unlimited } { session := s, sink := .limited n } :=
  ⟨rfl, rfl, rfl, (Sink.offered_nil n).symm⟩

end Stage

end Subword.Session
