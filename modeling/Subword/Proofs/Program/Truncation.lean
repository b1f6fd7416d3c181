import Subword.Program.Mode
import Subword.Proofs.Session.Truncation

/-!
Programs whose output fails. Main statement: whatever is run, on a sink of `n` bytes it writes the first `n`
bytes of what it writes without a limit, and it fails for want of room exactly if that is not all.
-/
namespace Subword.Mode

def Truncates (n : Nat) (full limited : Result) : Prop :=
  Sink.Truncates n (.error (.io .sinkFull)) (full.outcome, full.sink) (limited.outcome, limited.sink)

variable {failure : Failure}

theorem finish_truncates (writes : List Text) (code : ExitCode) (n : Nat) :
    Truncates n (finish writes code .unlimited) (finish writes code (.limited n)) := by
  rw [finish_of_unlimited _ _ rfl, finish, ← Sink.offered_nil]
  by_cases hfits : (Utf8.encode writes.flatten).length ≤ n
  · rw [Sink.printAll_offered_of_le (by simpa using hfits), List.nil_append]
    exact ⟨rfl, by simp, fun _ => rfl, fun hcut => absurd hfits (Nat.not_le.mpr hcut)⟩
  · have hcut : n < (Utf8.encode writes.flatten).length := Nat.lt_of_not_le hfits
    have hcross : (Sink.offered n []).printAll writes = _ :=
      Sink.printAll_offered_of_cross (Nat.zero_le n) hcut
    rw [hcross, List.nil_append]
    exact ⟨rfl, by simp, fun h => absurd h hfits, fun _ => rfl⟩

/-- A failure before anything is written is the same on every sink. -/
theorem truncates_of_failure (h : failure ≠ .io .sinkFull) (n : Nat) :
    Truncates n ⟨.error failure, .unlimited⟩ ⟨.error failure, .limited n⟩ :=
  Sink.truncates_of_silent (fun heq => h (Except.error.inj heq)) n

theorem json_truncates (p : Loaded) (text : Text) (n : Nat) :
    Truncates n (json p text .unlimited) (json p text (.limited n)) :=
  finish_truncates _ _ n

theorem count_truncates (p : Loaded) (text : Text) (n : Nat) :
    Truncates n (count p text .unlimited) (count p text (.limited n)) := by
  unfold count
  cases encodeLoaded p text with
  | error e => exact truncates_of_failure (by simp) n
  | ok ids => exact finish_truncates _ _ n

theorem report_truncates (p : Loaded) (text : Text) (n : Nat) :
    Truncates n (report p text .unlimited) (report p text (.limited n)) := by
  unfold report
  cases Tokenization.Outcome.ofLoaded p text with
  | success r => exact finish_truncates _ _ n
  | error message => exact finish_truncates _ _ n

theorem readBatch_ne_sinkFull (p : Provider) (fs : FileStore) (input : Text) :
    readBatch p fs input ≠ .error (.io .sinkFull) := by
  unfold readBatch
  cases fs.readText input with
  | error e => simp
  | ok content =>
    simp only [Except.mapError]
    cases Batch.ofLines p content <;> simp

/-- The file is written before anything is told of it, so a sink that fails leaves the same files. -/
theorem precompute_truncates (p : Loaded) (input output : Text) (fs : FileStore) (n : Nat) :
    Truncates n (precompute p input output fs .unlimited).1
      (precompute p input output fs (.limited n)).1 ∧
    (precompute p input output fs (.limited n)).2 = (precompute p input output fs .unlimited).2 := by
  unfold precompute
  cases p with
  | error e => exact ⟨truncates_of_failure (by simp) n, rfl⟩
  | ok p =>
    cases hbatch : readBatch p fs input with
    | error failure =>
      have hfailure : failure ≠ .io .sinkFull := by
        intro hfull
        exact readBatch_ne_sinkFull p fs input (hfull ▸ hbatch)
      simp only [hbatch]
      exact ⟨truncates_of_failure hfailure n, trivial⟩
    | ok batch =>
      cases hwrite : fs.write output (Utf8.encode batch.toJson.pretty) with
      | error e =>
        simp only [hbatch, hwrite]
        exact ⟨truncates_of_failure (by simp) n, trivial⟩
      | ok files =>
        simp only [hbatch, hwrite]
        exact ⟨finish_truncates _ _ n, trivial⟩

end Subword.Mode

namespace Subword.Program

open Session

/-- Modes, sessions over a stream and scripts on a sink of `n` bytes, each against the same run on a sink
without a limit. -/
theorem truncates_of_limited (n : Nat) :
    (∀ (p : Mode.Loaded) (text : Text),
      Mode.Truncates n (Mode.json p text .unlimited) (Mode.json p text (.limited n)) ∧
      Mode.Truncates n (Mode.count p text .unlimited) (Mode.count p text (.limited n)) ∧
      Mode.Truncates n (Mode.report p text .unlimited) (Mode.report p text (.limited n))) ∧
    (∀ (p : Mode.Loaded) (input output : Text) (fs : FileStore),
      Mode.Truncates n (Mode.precompute p input output fs .unlimited).1
        (Mode.precompute p input output fs (.limited n)).1 ∧
      (Mode.precompute p input output fs (.limited n)).2 =
        (Mode.precompute p input output fs .unlimited).2) ∧
    (∀ (s : Session) (bytes : Bytes) (stop : Stop),
      DriveTruncates s n (drive s bytes stop .unlimited) (drive s bytes stop (.limited n))) ∧
    ∀ (s : Session) (before : List Action) (a : Action),
      let full := Stage.performAll { session := s, sink := .unlimited } before
      let limited := Stage.performAll { session := s, sink := .limited n } before
      full.Agrees n limited ∧
        Stage.StepTruncates n full.sink.kept (full.perform a) (limited.perform a) := by
  refine ⟨fun p text => ?_, fun p input output fs => Mode.precompute_truncates p input output fs n,
    fun s bytes stop => drive_truncates s bytes stop n, fun s before a => ?_⟩
  · exact ⟨Mode.json_truncates p text n, Mode.count_truncates p text n, Mode.report_truncates p text n⟩
  · have hagree := (Stage.start_agrees s n).performAll before
    exact ⟨hagree, hagree.perform a⟩

/-- Eight bytes are enough for the prompt but not for the farewell behind it, and not for a document. -/
theorem truncates_of_limited_quit :
    let s : Session := ⟨.charLevel, ⟨20, 30⟩, .running⟩
    let quit := drive s [0x71, 0x0A] .endOfInput (.limited 8)
    let document := Mode.json (.error (.unknownEncoding "x".toList)) [] (.limited 8)
    let prompted := Stage.performAll { session := s, sink := .limited 8 } [.prompt]
    (quit.ending = .error .sinkFull ∧ quit.sink.kept = Utf8.encode "\nYou: \nG".toList ∧
      quit.session.state = .terminated) ∧
    (document.outcome = .error (.io .sinkFull) ∧
      document.sink.kept = Utf8.encode "\x7b\n  \"err".toList) ∧
    prompted.blocked = false ∧ (prompted.perform .farewell).blocked = true := by
  intro s quit document prompted
  obtain ⟨hmode, -, hdrive, hscript⟩ := truncates_of_limited 8
  refine ⟨?_, ?_, rfl, ?_⟩
  · have hcut : Cut (0x0A : UInt8) [0x71, 0x0A] [[0x71]] [] := ⟨by decide, by decide, by decide⟩
    have hquit : Leaves [0x71] := ⟨"q".toList, by decide, by decide⟩
    have hlines : taken .endOfInput [[0x71]] [] = [] ++ [0x71] :: [] := by decide
    have hfull : drive s [0x71, 0x0A] .endOfInput .unlimited = left s prompt :=
      drive_of_exit rfl hcut hlines (by simp) hquit
    obtain ⟨houtput, hover, -⟩ := hdrive s [0x71, 0x0A] .endOfInput
    rw [hfull] at houtput hover
    refine ⟨houtput.cut (by decide), houtput.kept.trans (by decide), ?_⟩
    obtain ⟨before, hbefore, hstate⟩ := hover .exit rfl rfl
    have hlength := congrArg List.length hbefore
    rw [List.length_append] at hlength
    refine hstate.mpr ?_
    have hwritten : (left s prompt).sink.kept.length = 16 := by decide
    have hclosing : (Utf8.encode (closing .exit)).length = 10 := by decide
    omega
  · obtain ⟨hjson, -, -⟩ := hmode (.error (.unknownEncoding "x".toList)) []
    exact ⟨hjson.cut (by decide), hjson.kept.trans (by decide)⟩
  · exact (hscript s [.prompt] .farewell).2.blocked.mpr
      ⟨by decide, by decide⟩

end Subword.Program
