import Mathlib.Data.List.Basic
import Subword.Proofs.Text.Lines
import Subword.Proofs.Utf8.Decoding
import Subword.Provider.CharLevel
import Subword.Session.Transcript

/-!
What a session over a byte stream writes. Each line is answered by itself: behind a prompt stands what this
line alone leads to. Main statement: the transcript is these answers in the order of the lines, up to the
first exit word or else to the stop of the stream.
-/
namespace Subword.Session

/-- The lines that a stream gives, without their terminators; the tail counts if it is not empty and the
input ends behind it. -/
def taken (stop : Stop) (lines : List Bytes) (tail : Bytes) : List Bytes :=
  (lines ++ if stop = .endOfInput ∧ tail ≠ [] then [tail] else []).map (dropLastIf 0x0D)

def Leaves (line : Bytes) : Prop := ∃ t, Utf8.encode t = line ∧ isExitWord t = true

/-- What a line that is no exit word leads to. -/
def shown (p : Provider) (limits : Breakdown.Limits) (line : Bytes) : Text :=
  match Utf8.decode line with
  | .error fault => "Error: Input is not valid UTF-8: ".toList ++ fault.message ++ "\n".toList
  | .ok t =>
    if Text.trim t = [] then []
    else match Tokenization.build p t with
      | .ok r => r.sessionReport limits
      | .error e => "Error: ".toList ++ e.message ++ "\n".toList

/-- A prompt and what the line behind it leads to. -/
def exchange (p : Provider) (limits : Breakdown.Limits) (line : Bytes) : Text :=
  prompt ++ shown p limits line

/-- The transcript of a session that has written the output when its stream stops. -/
def stopped (s : Session) (output : Text) : Stop → Transcript
  | .endOfInput => ⟨.ok .endOfInput, s.terminate, ⟨Utf8.encode (output ++ farewell), none⟩⟩
  | .interrupt =>
    ⟨.ok .interrupted, s.terminate, ⟨Utf8.encode (output ++ "\n".toList ++ farewell), none⟩⟩
  | .failure => ⟨.error .readFailed, s, ⟨Utf8.encode output, none⟩⟩

/-- The transcript of a session that has written the output when a line ends it. -/
def left (s : Session) (output : Text) : Transcript :=
  ⟨.ok .exit, s.terminate, ⟨Utf8.encode (output ++ farewell), none⟩⟩

def closing : Ending → Text
  | .exit | .endOfInput => farewell
  | .interrupted => "\n".toList ++ farewell

/-- The last step of a session. It is over before the closing is written. -/
def conclude (s : Session) (e : Ending) (sink : Sink) : Transcript :=
  writing s.terminate [closing e] sink fun sink => ⟨.ok e, s.terminate, sink⟩

variable {s : Session} {stop : Stop} {kept : Bytes} {raw : Bytes} {raws : List Bytes}
  {input : Input} {rest : List Input}

theorem lineContent_append_lineFeed (line : Bytes) :
    lineContent (line ++ [0x0A]) = dropLastIf 0x0D line := by
  simp [lineContent, dropLastIf]

theorem lineContent_of_not_mem {line : Bytes} (h : 0x0A ∉ line) :
    lineContent line = dropLastIf 0x0D line := by
  have hlast : line.getLast? ≠ some 0x0A := fun hl => h (List.mem_of_getLast? hl)
  simp [lineContent, dropLastIf, hlast]

theorem streamLines_of_cut {bytes tail : Bytes} {lines : List Bytes} (stop : Stop)
    (h : Cut 0x0A bytes lines tail) :
    streamLines bytes stop =
      lines.map (· ++ [0x0A]) ++ if stop = .endOfInput ∧ tail ≠ [] then [tail] else [] := by
  have hended : (lines.map (· ++ [0x0A])).filter (fun line : Bytes =>
      line.getLast? = some 0x0A ∨ stop = .endOfInput) = lines.map (· ++ [0x0A]) := by
    simp [List.filter_eq_self]
  have htail : ((if tail = [] then [] else [tail]).filter fun line : Bytes =>
      line.getLast? = some 0x0A ∨ stop = .endOfInput) =
        if stop = .endOfInput ∧ tail ≠ [] then [tail] else [] := by
    have hlast : tail.getLast? ≠ some 0x0A := fun hl => h.open_tail (List.mem_of_getLast? hl)
    by_cases ht : tail = []
    · simp [ht]
    · by_cases hstop : stop = .endOfInput <;> simp [ht, hstop, hlast]
  rw [streamLines, h.cutBehind_eq, List.filter_append, hended, htail]

theorem map_lineContent_streamLines {bytes tail : Bytes} {lines : List Bytes} (stop : Stop)
    (h : Cut 0x0A bytes lines tail) :
    (streamLines bytes stop).map lineContent = taken stop lines tail := by
  rw [streamLines_of_cut stop h, taken, List.map_append, List.map_append, List.map_map]
  congr 1
  · exact List.map_congr_left fun line _ => lineContent_append_lineFeed line
  · split
    · rw [List.map_singleton, List.map_singleton, lineContent_of_not_mem h.open_tail]
    · rfl

theorem handleBytes_of_leaves (h : Leaves (lineContent raw)) :
    s.handleBytes raw = (.exit, s.terminate) := by
  obtain ⟨t, ht, hw⟩ := h
  simp [handleBytes, Utf8.decode_eq_ok_iff.mpr ht, handleLine, hw, terminate]

theorem answer_ne_exit (p : Provider) (t : Text) : answer p t ≠ .exit := by
  unfold answer
  split
  · simp
  · split <;> simp

private theorem render_failed (limits : Breakdown.Limits) (message : Text) :
    (Turn.failed message).render limits = "Error: ".toList ++ message ++ "\n".toList :=
  List.flatten_singleton

private theorem render_notUtf8 (limits : Breakdown.Limits) (message : Text) :
    (Turn.failed ("Input is not valid UTF-8: ".toList ++ message)).render limits =
      "Error: Input is not valid UTF-8: ".toList ++ message ++ "\n".toList := by
  have hjoin : "Error: Input is not valid UTF-8: ".toList =
      "Error: ".toList ++ "Input is not valid UTF-8: ".toList := by simp
  rw [render_failed, hjoin]
  simp only [List.append_assoc]

/-- A line that is no exit word leaves the session as it is. -/
theorem handleBytes_of_not_leaves (hs : s.state = .running) (h : ¬Leaves (lineContent raw)) :
    ∃ turn, s.handleBytes raw = (turn, s) ∧ turn ≠ .exit ∧
      turn.render s.limits = shown s.provider s.limits (lineContent raw) := by
  unfold handleBytes shown
  cases hd : Utf8.decode (lineContent raw) with
  | error fault =>
    refine ⟨.failed ("Input is not valid UTF-8: ".toList ++ fault.message), rfl, by simp, ?_⟩
    simp only [render_notUtf8]
  | ok t =>
    have hw : isExitWord t = false := by
      by_contra hw
      exact h ⟨t, Utf8.decode_eq_ok_iff.mp hd, by simpa using hw⟩
    refine ⟨answer s.provider t, by simp [handleLine, hs, hw], answer_ne_exit s.provider t, ?_⟩
    by_cases ht : Text.trim t = []
    · simp only [answer, if_pos ht]
      rfl
    · simp only [answer, if_neg ht]
      cases Tokenization.build s.provider t with
      | ok r => rfl
      | error e => exact render_failed s.limits e.message

theorem step_of_leaves (h : Leaves (lineContent raw)) :
    s.step (.line raw) = ⟨s.terminate, [farewell], some .exit⟩ := by
  simp only [step, handleBytes_of_leaves h]

theorem step_of_not_leaves (hs : s.state = .running) (h : ¬Leaves (lineContent raw)) :
    ∃ writes, s.step (.line raw) = ⟨s, writes, none⟩ ∧
      writes.flatten = shown s.provider s.limits (lineContent raw) := by
  obtain ⟨turn, hturn, hexit, hrender⟩ := handleBytes_of_not_leaves hs h
  refine ⟨turn.writes s.limits, ?_, hrender⟩
  cases turn with
  | exit => exact absurd rfl hexit
  | skip | report result | failed message => simp only [step, hturn]

/-- How a text is cut into writes makes no difference. -/
theorem writing_congr (s : Session) {a b : List Text} (h : a.flatten = b.flatten) :
    writing s a = writing s b := by
  funext sink next
  rw [writing, writing, Sink.printAll_eq, Sink.printAll_eq, h]

theorem writing_append (s : Session) (a b : List Text) (sink : Sink) (next : Sink → Transcript) :
    writing s a sink (fun sink => writing s b sink next) = writing s (a ++ b) sink next := by
  simp only [writing, Sink.printAll_eq, List.flatten_append, ← Sink.print_append]
  cases sink.print a.flatten <;> rfl

theorem writing_unlimited (writes : List Text) (next : Sink → Transcript) :
    writing s writes ⟨kept, none⟩ next = next ⟨kept ++ Utf8.encode writes.flatten, none⟩ := by
  rw [writing, Sink.printAll_unlimited]

theorem converse_nil (hs : s.state = .running) (sink : Sink) :
    converse s [] sink = writing s [prompt] sink fun sink => ⟨.error .readFailed, s, sink⟩ := by
  rw [converse, if_neg (by simp [hs])]

theorem converse_cons (hs : s.state = .running) (input : Input) (rest : List Input) (sink : Sink) :
    converse s (input :: rest) sink = writing s [prompt] sink fun sink =>
      (s.step input).carryOut sink (converse (s.step input).session rest) := by
  rw [converse, if_neg (by simp [hs])]

theorem converse_cons_eq_conclude (hs : s.state = .running) {writes : List Text} {e : Ending}
    (h : s.step input = ⟨s.terminate, writes, some e⟩) (hwrites : writes.flatten = closing e)
    (rest : List Input) (sink : Sink) :
    converse s (input :: rest) sink = writing s [prompt] sink (conclude s e) := by
  have hclosing : writes.flatten = [closing e].flatten := by rw [hwrites, List.flatten_singleton]
  rw [converse_cons hs, h]
  simp only [Reply.carryOut, writing_congr s.terminate hclosing]
  rfl

theorem converse_cons_of_leaves (hs : s.state = .running) (h : Leaves (lineContent raw))
    (rest : List Input) (sink : Sink) :
    converse s (.line raw :: rest) sink = writing s [prompt] sink (conclude s .exit) :=
  converse_cons_eq_conclude hs (step_of_leaves h) List.flatten_singleton rest sink

theorem converse_endOfInput (hs : s.state = .running) (rest : List Input) (sink : Sink) :
    converse s (.endOfInput :: rest) sink = writing s [prompt] sink (conclude s .endOfInput) :=
  converse_cons_eq_conclude hs rfl List.flatten_singleton rest sink

theorem converse_interrupt (hs : s.state = .running) (rest : List Input) (sink : Sink) :
    converse s (.interrupt :: rest) sink = writing s [prompt] sink (conclude s .interrupted) := by
  refine converse_cons_eq_conclude hs rfl ?_ rest sink
  rw [List.flatten_cons, List.flatten_singleton]
  rfl

theorem converse_cons_of_not_leaves (hs : s.state = .running) (h : ¬Leaves (lineContent raw))
    (rest : List Input) (sink : Sink) :
    converse s (.line raw :: rest) sink =
      writing s [exchange s.provider s.limits (lineContent raw)] sink (converse s rest) := by
  obtain ⟨writes, hstep, hshown⟩ := step_of_not_leaves hs h
  have hexchange : ([prompt] ++ writes).flatten =
      [exchange s.provider s.limits (lineContent raw)].flatten := by
    rw [List.flatten_append, List.flatten_singleton, List.flatten_singleton, hshown]
    rfl
  rw [converse_cons hs, hstep, ← writing_congr s hexchange, ← writing_append]
  rfl

theorem writing_conclude (s : Session) (output : Text) (e : Ending) :
    writing s [output] ⟨kept, none⟩ (conclude s e) =
      ⟨.ok e, s.terminate, ⟨kept ++ Utf8.encode (output ++ closing e), none⟩⟩ := by
  rw [writing_unlimited, conclude, writing_unlimited, List.flatten_singleton, List.flatten_singleton,
    Utf8.encode_append, List.append_assoc]

/-- Lines without an exit word are answered one by one, and the session goes on behind them. -/
theorem converse_append (hs : s.state = .running) (h : ∀ raw ∈ raws, ¬Leaves (lineContent raw)) :
    converse s (raws.map .line ++ rest) ⟨kept, none⟩ =
      converse s rest
        ⟨kept ++ Utf8.encode ((raws.map lineContent).flatMap (exchange s.provider s.limits)), none⟩ := by
  induction raws generalizing kept with
  | nil => simp
  | cons raw raws ih =>
    obtain ⟨hraw, hraws⟩ := List.forall_mem_cons.mp h
    rw [List.map_cons, List.cons_append, converse_cons_of_not_leaves hs hraw, writing_unlimited, ih hraws]
    simp [Utf8.encode_append, List.append_assoc]

/-- What comes behind an exit word makes no difference. -/
theorem converse_append_of_leaves (hs : s.state = .running)
    (h : ∃ raw ∈ raws, Leaves (lineContent raw)) (rest rest' : List Input) (sink : Sink) :
    converse s (raws.map .line ++ rest) sink = converse s (raws.map .line ++ rest') sink := by
  induction raws generalizing sink with
  | nil => simp at h
  | cons raw raws ih =>
    rw [List.map_cons, List.cons_append, List.cons_append]
    by_cases hraw : Leaves (lineContent raw)
    · rw [converse_cons_of_leaves hs hraw, converse_cons_of_leaves hs hraw]
    · have hraws : ∃ raw ∈ raws, Leaves (lineContent raw) := by
        obtain ⟨other, hm, hl⟩ := h
        rcases List.mem_cons.mp hm with rfl | hm
        · exact absurd hl hraw
        · exact ⟨other, hm, hl⟩
      rw [converse_cons_of_not_leaves hs hraw, converse_cons_of_not_leaves hs hraw, funext (ih hraws)]

theorem converse_stop (hs : s.state = .running) (output : Text) :
    converse s stop.inputs ⟨Utf8.encode output, none⟩ = stopped s (output ++ prompt) stop := by
  cases stop with
  | endOfInput =>
    rw [Stop.inputs, converse_endOfInput hs, writing_conclude, ← Utf8.encode_append, ← List.append_assoc]
    rfl
  | interrupt =>
    rw [Stop.inputs, converse_interrupt hs, writing_conclude, ← Utf8.encode_append, closing]
    simp only [stopped, List.append_assoc]
  | failure =>
    rw [Stop.inputs, converse_nil hs, writing_unlimited, List.flatten_singleton, ← Utf8.encode_append]
    rfl

theorem drive_of_no_exit (hs : s.state = .running) {bytes tail : Bytes} {lines : List Bytes}
    (hcut : Cut 0x0A bytes lines tail) (h : ∀ line ∈ taken stop lines tail, ¬Leaves line) :
    drive s bytes stop .unlimited =
      stopped s ((taken stop lines tail).flatMap (exchange s.provider s.limits) ++ prompt) stop := by
  have hlines := map_lineContent_streamLines stop hcut
  have hraws : ∀ raw ∈ streamLines bytes stop, ¬Leaves (lineContent raw) := by
    intro raw hm
    exact h _ (hlines ▸ List.mem_map_of_mem hm)
  have hrun : converse s (inputs bytes stop) ⟨[], none⟩ = _ := converse_append hs hraws
  rw [List.nil_append, hlines, converse_stop hs] at hrun
  exact hrun

theorem drive_of_exit (hs : s.state = .running) {bytes tail : Bytes} {lines : List Bytes}
    (hcut : Cut 0x0A bytes lines tail) {before after : List Bytes} {line : Bytes}
    (hlines : taken stop lines tail = before ++ line :: after)
    (hbefore : ∀ l ∈ before, ¬Leaves l) (hline : Leaves line) :
    drive s bytes stop .unlimited =
      left s (before.flatMap (exchange s.provider s.limits) ++ prompt) := by
  rw [← map_lineContent_streamLines stop hcut, List.map_eq_append_iff] at hlines
  obtain ⟨raws, rest, hraws, rfl, hrest⟩ := hlines
  obtain ⟨raw, rest, rfl, rfl, -⟩ := List.map_eq_cons_iff.mp hrest
  have hbefore : ∀ raw ∈ raws, ¬Leaves (lineContent raw) :=
    fun raw hm => hbefore _ (List.mem_map_of_mem hm)
  have hinputs : inputs bytes stop =
      raws.map .line ++ .line raw :: (rest.map .line ++ stop.inputs) := by
    rw [inputs, hraws, List.map_append, List.map_cons, List.append_assoc, List.cons_append]
  rw [drive, hinputs, Sink.unlimited, converse_append hs hbefore, converse_cons_of_leaves hs hline,
    writing_conclude, List.nil_append, ← Utf8.encode_append, ← List.append_assoc]
  rfl

theorem drive_append_of_leaves (hs : s.state = .running) {lines : List Bytes}
    (hfree : ∀ line ∈ lines, 0x0A ∉ line) (h : ∃ line ∈ lines, Leaves (dropLastIf 0x0D line))
    (later later' : Bytes) (stop stop' : Stop) :
    drive s (lines.flatMap (· ++ [0x0A]) ++ later) stop .unlimited =
      drive s (lines.flatMap (· ++ [0x0A]) ++ later') stop' .unlimited := by
  have hraws : ∃ raw ∈ lines.map (· ++ [0x0A]), Leaves (lineContent raw) := by
    obtain ⟨line, hm, hl⟩ := h
    exact ⟨_, List.mem_map_of_mem hm, by rwa [lineContent_append_lineFeed]⟩
  -- both streams give the same raw lines first, whatever is cut out of what stands behind them
  have hsplit : ∀ (more : Bytes) (stop : Stop), ∃ rest,
      inputs (lines.flatMap (· ++ [0x0A]) ++ more) stop =
        (lines.map (· ++ [0x0A])).map .line ++ rest := by
    intro more stop
    obtain ⟨behind, tail, hcut⟩ := exists_cut 0x0A more
    have hlines := streamLines_of_cut stop (hcut.append_lines hfree)
    rw [List.map_append, List.append_assoc] at hlines
    rw [inputs, hlines, List.map_append, List.append_assoc]
    exact ⟨_, rfl⟩
  obtain ⟨rest, hrest⟩ := hsplit later stop
  obtain ⟨rest', hrest'⟩ := hsplit later' stop'
  rw [drive, drive, hrest, hrest']
  exact converse_append_of_leaves hs hraws rest rest' .unlimited

/-- The transcript of a running session over a stream. Without an exit word each line is answered in
order and the stop decides the end; the first exit word ends the session, whatever stands behind it and
however the stream stops. -/
theorem drive_transcript (p : Provider) (limits : Breakdown.Limits) (bytes : Bytes) (stop : Stop) :
    (∃ lines tail, Cut 0x0A bytes lines tail) ∧
    ∀ lines tail, Cut 0x0A bytes lines tail →
      ((∀ line ∈ taken stop lines tail, ¬Leaves line) →
        drive ⟨p, limits, .running⟩ bytes stop .unlimited =
          stopped ⟨p, limits, .running⟩
            ((taken stop lines tail).flatMap (exchange p limits) ++ prompt) stop) ∧
      (∀ before line after, taken stop lines tail = before ++ line :: after →
        (∀ l ∈ before, ¬Leaves l) → Leaves line →
        drive ⟨p, limits, .running⟩ bytes stop .unlimited =
          left ⟨p, limits, .running⟩ (before.flatMap (exchange p limits) ++ prompt)) ∧
      ∀ before after, lines = before ++ after → (∃ line ∈ before, Leaves (dropLastIf 0x0D line)) →
        ∀ later stop', drive ⟨p, limits, .running⟩
            (before.flatMap (· ++ [0x0A]) ++ later) stop' .unlimited =
          drive ⟨p, limits, .running⟩ bytes stop .unlimited := by
  refine ⟨exists_cut _ _, fun lines tail hcut => ⟨drive_of_no_exit rfl hcut, ?_, ?_⟩⟩
  · intro before line after hlines hbefore hline
    exact drive_of_exit rfl hcut hlines hbefore hline
  · intro before after hlines hexit later stop'
    subst hlines
    rw [← hcut.joined, List.flatMap_append, List.append_assoc]
    exact drive_append_of_leaves rfl (fun line hm => hcut.unmarked line (List.mem_append_left _ hm))
      hexit later _ stop' stop

/-- The stream is "hi", a line feed, "QUIT", carriage return and line feed, and "x". -/
theorem drive_transcript_quit :
    Leaves [0x51, 0x55, 0x49, 0x54] ∧ ¬Leaves [0x68, 0x69] ∧
    drive ⟨.charLevel, ⟨20, 30⟩, .running⟩
        [0x68, 0x69, 0x0A, 0x51, 0x55, 0x49, 0x54, 0x0D, 0x0A, 0x78] .endOfInput .unlimited =
      left ⟨.charLevel, ⟨20, 30⟩, .running⟩
        (exchange .charLevel ⟨20, 30⟩ [0x68, 0x69] ++ prompt) ∧
    drive ⟨.charLevel, ⟨20, 30⟩, .running⟩
        [0x68, 0x69, 0x0A, 0x51, 0x55, 0x49, 0x54, 0x0D, 0x0A] .failure .unlimited =
      drive ⟨.charLevel, ⟨20, 30⟩, .running⟩
        [0x68, 0x69, 0x0A, 0x51, 0x55, 0x49, 0x54, 0x0D, 0x0A, 0x78] .endOfInput .unlimited ∧
    drive ⟨.charLevel, ⟨20, 30⟩, .running⟩ [0x68, 0x69, 0x0A, 0x78] .interrupt .unlimited =
      stopped ⟨.charLevel, ⟨20, 30⟩, .running⟩
        (exchange .charLevel ⟨20, 30⟩ [0x68, 0x69] ++ prompt) .interrupt := by
  have hquit : Leaves [0x51, 0x55, 0x49, 0x54] := ⟨"QUIT".toList, by decide, by decide⟩
  have hhi : ¬Leaves [0x68, 0x69] := by
    rintro ⟨t, ht, hw⟩
    have hi : t = "hi".toList := Utf8.encode_injective (ht.trans (by decide))
    rw [hi] at hw
    revert hw
    decide
  have hcut : Cut (0x0A : UInt8) [0x68, 0x69, 0x0A, 0x51, 0x55, 0x49, 0x54, 0x0D, 0x0A, 0x78]
      [[0x68, 0x69], [0x51, 0x55, 0x49, 0x54, 0x0D]] [0x78] :=
    ⟨by decide, by decide, by decide⟩
  have hcut' : Cut (0x0A : UInt8) [0x68, 0x69, 0x0A, 0x78] [[0x68, 0x69]] [0x78] :=
    ⟨by decide, by decide, by decide⟩
  obtain ⟨-, hexit, hlater⟩ :=
    (drive_transcript .charLevel ⟨20, 30⟩ _ .endOfInput).2 _ _ hcut
  obtain ⟨hstop, -, -⟩ := (drive_transcript .charLevel ⟨20, 30⟩ _ .interrupt).2 _ _ hcut'
  refine ⟨hquit, hhi, ?_, ?_, ?_⟩
  · have h := hexit [[0x68, 0x69]] [0x51, 0x55, 0x49, 0x54] [[0x78]] (by decide)
      (by simpa using hhi) hquit
    simpa using h
  · have h := hlater [[0x68, 0x69], [0x51, 0x55, 0x49, 0x54, 0x0D]] [] (by decide)
      ⟨[0x51, 0x55, 0x49, 0x54, 0x0D], by decide, hquit⟩ [] .failure
    simpa using h
  · have htaken : taken .interrupt [[0x68, 0x69]] [0x78] = [[0x68, 0x69]] := by decide
    rw [htaken] at hstop
    simpa using hstop (by simpa using hhi)

end Subword.Session
