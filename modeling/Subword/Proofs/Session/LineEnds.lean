import Subword.Proofs.Session.Transcript
import Subword.Proofs.Utf8.Ascii

/-!
What the lines of a stream lose of their bytes. A line loses its terminator and nothing else, unless the stream
ends inside it and in a carriage return. This is the main statement. The lines of a text are those of its bytes
with the same exception, and a session takes such a stream for one that has a line feed more.
-/
namespace Subword.Session

/-- What stands before the terminator of a line: before its line feed, and before the carriage return that
stands there. A line without a line feed has no terminator. -/
inductive ContentOf : Bytes → Bytes → Prop
  | crlf (content : Bytes) : ContentOf content (content ++ [0x0D, 0x0A])
  | lf (content : Bytes) (h : content.getLast? ≠ some 0x0D) : ContentOf content (content ++ [0x0A])
  | bare (content : Bytes) (h : content.getLast? ≠ some 0x0A) : ContentOf content content

variable {raw bytes tail : Bytes} {lines raws raws' : List Bytes} {stop : Stop} {t : Text}

theorem lineContent_of_return (h : raw.getLast? = some 0x0D) : lineContent raw = raw.dropLast := by
  simp [lineContent, dropLastIf, h]

theorem contentOf_lineContent (h : raw.getLast? ≠ some 0x0D) : ContentOf (lineContent raw) raw := by
  by_cases hfeed : raw.getLast? = some 0x0A
  · obtain ⟨line, rfl⟩ : ∃ line, raw = line ++ [0x0A] :=
      ⟨_, (List.dropLast_append_getLast? _ hfeed).symm⟩
    rw [lineContent_append_lineFeed]
    unfold dropLastIf
    split
    · rename_i hreturn
      have hline := List.dropLast_append_getLast? _ hreturn
      have hcrlf := ContentOf.crlf line.dropLast
      rwa [← List.singleton_append, ← List.append_assoc, hline] at hcrlf
    · rename_i hreturn
      exact .lf line hreturn
  · have hkept : lineContent raw = raw := by simp [lineContent, dropLastIf, hfeed, h]
    rw [hkept]
    exact .bare raw hfeed

/-- A carriage return without a line feed behind it is lost, though it ends nothing. -/
theorem not_contentOf_lineContent (h : raw.getLast? = some 0x0D) : ¬ContentOf (lineContent raw) raw := by
  have hraw := List.dropLast_append_getLast? _ h
  rw [lineContent_of_return h]
  intro hcontent
  generalize raw.dropLast = content at hraw hcontent
  cases hcontent with
  | crlf => simp at h
  | lf => simp at h
  | bare => simp at hraw

theorem contentOf_lineContent_iff : ContentOf (lineContent raw) raw ↔ raw.getLast? ≠ some 0x0D := by
  constructor
  · intro hcontent h
    exact not_contentOf_lineContent h hcontent
  · exact contentOf_lineContent

/-- A line that ends in a carriage return is what is left of the stream at its end. -/
theorem eq_of_mem_streamLines (hcut : Cut 0x0A bytes lines tail) (hraw : raw ∈ streamLines bytes stop)
    (h : raw.getLast? = some 0x0D) : stop = .endOfInput ∧ raw = tail := by
  rw [streamLines_of_cut stop hcut, List.mem_append] at hraw
  rcases hraw with hraw | hraw
  · obtain ⟨line, -, rfl⟩ := List.mem_map.mp hraw
    simp at h
  · split at hraw
    · rename_i htail
      exact ⟨htail.1, List.mem_singleton.mp hraw⟩
    · exact absurd hraw List.not_mem_nil

theorem getLast?_streamLines (hcut : Cut 0x0A bytes lines tail) (htail : tail ≠ []) :
    (streamLines bytes .endOfInput).getLast? = some tail := by
  rw [streamLines_of_cut _ hcut, if_pos ⟨rfl, htail⟩]
  exact List.getLast?_concat

/-- A session sees no more of its lines than their contents. -/
theorem converse_congr (s : Session) (h : raws.map lineContent = raws'.map lineContent)
    (rest : List Input) (sink : Sink) :
    converse s (raws.map .line ++ rest) sink = converse s (raws'.map .line ++ rest) sink := by
  induction raws generalizing raws' s sink with
  | nil =>
    obtain rfl := List.map_eq_nil_iff.mp h.symm
    rfl
  | cons raw raws ih =>
    obtain ⟨raw', raws', rfl, hraw, hraws⟩ := List.map_eq_cons_iff.mp h.symm
    have hturn : s.handleBytes raw = s.handleBytes raw' := by rw [handleBytes, handleBytes, hraw]
    have hstep : s.step (.line raw) = s.step (.line raw') := by rw [step, step, hturn]
    have hrest : ∀ s, converse s (raws.map .line ++ rest) = converse s (raws'.map .line ++ rest) := by
      intro s
      funext sink
      exact ih s hraws.symm sink
    rw [List.map_cons, List.map_cons, List.cons_append, List.cons_append, converse, converse]
    simp only [hstep, hrest]

theorem cut_encode {lines : List Text} {tail : Text} (h : Cut '\n' t lines tail) :
    Cut 0x0A (Utf8.encode t) (lines.map Utf8.encode) (Utf8.encode tail) := by
  have hfeed : ∀ s : Text, 0x0A ∈ Utf8.encode s ↔ '\n' ∈ s := fun s =>
    Utf8.ascii_mem_encode_iff (c := '\n') (by decide)
  obtain ⟨rfl, hlines, htail⟩ := h
  refine ⟨?_, ?_, mt (hfeed tail).mp htail⟩
  · rw [Utf8.encode_append, List.flatMap_map]
    congr 1
    unfold Utf8.encode
    rw [List.flatMap_assoc]
    simp only [List.flatMap_append]
    rfl
  · intro line hline
    obtain ⟨line, hmem, rfl⟩ := List.mem_map.mp hline
    exact mt (hfeed line).mp (hlines line hmem)

/-- The contents of the lines, but for a carriage return at the end of the tail, which no line feed follows. -/
theorem map_lineContent_encode {lines : List Text} {tail : Text} (hcut : Cut '\n' t lines tail) :
    (streamLines (Utf8.encode t) .endOfInput).map lineContent =
      ((lines ++ if tail = [] then [] else [tail]).map (dropLastIf '\r')).map Utf8.encode := by
  have hreturn : ∀ s : Text, dropLastIf 0x0D (Utf8.encode s) = Utf8.encode (dropLastIf '\r' s) :=
    Utf8.dropLastIf_encode (c := '\r') (by decide)
  have hempty : Utf8.encode tail = [] ↔ tail = [] := by
    rw [← Utf8.encode_nil]
    exact ⟨Utf8.encode_injective, congrArg _⟩
  rw [map_lineContent_streamLines _ (cut_encode hcut), taken, List.map_map]
  by_cases htail : tail = []
  · rw [if_neg (by simp [htail]), if_pos htail, List.append_nil, List.append_nil, List.map_map]
    exact List.map_congr_left fun s _ => hreturn s
  · rw [if_pos ⟨rfl, mt hempty.mp htail⟩, if_neg htail, List.map_append, List.map_append, List.map_map]
    congr 1
    · exact List.map_congr_left fun s _ => hreturn s
    · exact congrArg (fun s => [s]) (hreturn tail)

theorem map_lineContent_encode_eq_iff :
    (streamLines (Utf8.encode t) .endOfInput).map lineContent = (Text.lines t).map Utf8.encode ↔
      t.getLast? ≠ some '\r' := by
  obtain ⟨lines, tail, hcut⟩ := exists_cut '\n' t
  have hlast := hcut.getLast?_eq_some_iff (a := '\r') (by decide)
  have hinj : Function.Injective Utf8.encode := fun _ _ h => Utf8.encode_injective h
  rw [map_lineContent_encode hcut, Text.lines_of_cut hcut, (List.map_injective_iff.mpr hinj).eq_iff,
    List.map_append, List.append_cancel_left_eq, Ne, hlast]
  by_cases htail : tail = []
  · subst htail
    simp
  · rw [if_neg htail, List.map_singleton, List.singleton_inj]
    unfold dropLastIf
    split
    · rename_i hreturn
      have hshort : tail.dropLast ≠ tail := by
        intro heq
        have hlength := congrArg List.length heq
        have hpos := List.length_pos_of_ne_nil htail
        rw [List.length_dropLast] at hlength
        omega
      simp [hreturn, hshort]
    · rename_i hreturn
      simp [hreturn]

/-- A line feed behind a stream that does not end with one makes no difference. -/
theorem map_lineContent_append_lineFeed (hcut : Cut 0x0A bytes lines tail) (htail : tail ≠ []) :
    (streamLines bytes .endOfInput).map lineContent =
      (streamLines (bytes ++ [0x0A]) .endOfInput).map lineContent := by
  have hended : Cut 0x0A (bytes ++ [0x0A]) (lines ++ [tail]) [] := by
    refine ⟨?_, ?_, List.not_mem_nil⟩
    · rw [← hcut.joined]
      simp
    · exact List.forall_mem_append.mpr
        ⟨hcut.unmarked, List.forall_mem_singleton.mpr hcut.open_tail⟩
  rw [map_lineContent_streamLines _ hcut, map_lineContent_streamLines _ hended, taken, taken,
    if_pos ⟨rfl, htail⟩, if_neg (by simp), List.append_nil]

/-- The lines of a stream lose exactly their terminators, and are those of its text, unless the stream ends in a
carriage return. Then the last line loses this carriage return, as if a line feed stood behind it. -/
theorem lineContent_exact_iff (bytes : Bytes) (stop : Stop) :
    ((∀ raw ∈ streamLines bytes stop, ContentOf (lineContent raw) raw) ↔
      ¬(stop = .endOfInput ∧ bytes.getLast? = some 0x0D)) ∧
    (∀ raw ∈ streamLines bytes stop, ContentOf (lineContent raw) raw ∨
      stop = .endOfInput ∧ (streamLines bytes stop).getLast? = some raw ∧
        lineContent raw ++ [0x0D] = raw) ∧
    (∀ t, Utf8.encode t = bytes →
      ((streamLines bytes .endOfInput).map lineContent = (Text.lines t).map Utf8.encode ↔
        t.getLast? ≠ some '\r')) ∧
    (bytes.getLast? = some 0x0D →
      (streamLines bytes .endOfInput).map lineContent =
        (streamLines (bytes ++ [0x0A]) .endOfInput).map lineContent ∧
      ∀ s sink, drive s bytes .endOfInput sink = drive s (bytes ++ [0x0A]) .endOfInput sink) := by
  obtain ⟨lines, tail, hcut⟩ := exists_cut 0x0A bytes
  have hlast := hcut.getLast?_eq_some_iff (a := 0x0D) (by decide)
  have hopen : tail.getLast? = some 0x0D → tail ≠ [] := by
    rintro h rfl
    cases h
  refine ⟨?_, ?_, ?_, ?_⟩
  · simp only [contentOf_lineContent_iff]
    constructor
    · rintro h ⟨rfl, hreturn⟩
      have htail := hlast.mp hreturn
      exact h tail (List.mem_of_getLast? (getLast?_streamLines hcut (hopen htail))) htail
    · intro h raw hraw hreturn
      obtain ⟨hstop, rfl⟩ := eq_of_mem_streamLines hcut hraw hreturn
      exact h ⟨hstop, hlast.mpr hreturn⟩
  · intro raw hraw
    by_cases hreturn : raw.getLast? = some 0x0D
    · obtain ⟨rfl, rfl⟩ := eq_of_mem_streamLines hcut hraw hreturn
      refine Or.inr ⟨rfl, getLast?_streamLines hcut (hopen hreturn), ?_⟩
      rw [lineContent_of_return hreturn]
      exact List.dropLast_append_getLast? _ hreturn
    · exact Or.inl (contentOf_lineContent hreturn)
  · rintro t rfl
    exact map_lineContent_encode_eq_iff
  · intro hreturn
    have hcontents := map_lineContent_append_lineFeed hcut (hopen (hlast.mp hreturn))
    exact ⟨hcontents, fun s sink => converse_congr s hcontents _ sink⟩

/-- Carriage returns stand before a line feed, at the start of a line, in it and at the end of the stream. -/
theorem lineContent_exact_iff_returns :
    lineContent [0x0D, 0x61, 0x0D, 0x0D] ++ [0x0D] = [0x0D, 0x61, 0x0D, 0x0D] ∧
    (∀ raw ∈ streamLines [0x61, 0x0D, 0x0D, 0x0A, 0x0D, 0x61, 0x0D, 0x0D] .interrupt,
      ContentOf (lineContent raw) raw) ∧
    (streamLines [0x61, 0x0D, 0x0D, 0x0A, 0x0D, 0x62] .endOfInput).map lineContent =
      (Text.lines "a\r\r\n\rb".toList).map Utf8.encode ∧
    drive ⟨.charLevel, ⟨20, 30⟩, .running⟩ [0x61, 0x0A, 0x62, 0x0D] .endOfInput .unlimited =
      drive ⟨.charLevel, ⟨20, 30⟩, .running⟩ [0x61, 0x0A, 0x62, 0x0D, 0x0A] .endOfInput .unlimited := by
  obtain ⟨-, hline, -, -⟩ :=
    lineContent_exact_iff [0x61, 0x0D, 0x0D, 0x0A, 0x0D, 0x61, 0x0D, 0x0D] .endOfInput
  obtain ⟨hinterrupt, -, -, -⟩ :=
    lineContent_exact_iff [0x61, 0x0D, 0x0D, 0x0A, 0x0D, 0x61, 0x0D, 0x0D] .interrupt
  obtain ⟨-, -, htext, -⟩ := lineContent_exact_iff [0x61, 0x0D, 0x0D, 0x0A, 0x0D, 0x62] .endOfInput
  obtain ⟨-, -, -, hended⟩ := lineContent_exact_iff [0x61, 0x0A, 0x62, 0x0D] .endOfInput
  refine ⟨?_, ?_, ?_, ?_⟩
  · rcases hline [0x0D, 0x61, 0x0D, 0x0D] (by decide) with h | ⟨-, -, h⟩
    · exact absurd h (not_contentOf_lineContent rfl)
    · exact h
  · exact hinterrupt.mpr (by decide)
  · exact (htext _ (by decide)).mpr (by decide)
  · exact (hended rfl).2 _ _

/-- The stream is "q" and a carriage return. The session takes it for an exit word; as a text its only line has
the carriage return and is none. -/
theorem lineContent_drops_return :
    (¬∀ bytes stop, ∀ raw ∈ streamLines bytes stop, ContentOf (lineContent raw) raw) ∧
    (streamLines [0x71, 0x0D] .endOfInput).map lineContent = [[0x71]] ∧
    (Text.lines "q\r".toList).map Utf8.encode = [[0x71, 0x0D]] ∧
    isExitWord "q\r".toList = false ∧
    drive ⟨.charLevel, ⟨20, 30⟩, .running⟩ [0x71, 0x0D] .endOfInput .unlimited =
      left ⟨.charLevel, ⟨20, 30⟩, .running⟩ prompt := by
  refine ⟨?_, by decide, by decide, by decide, ?_⟩
  · intro h
    exact not_contentOf_lineContent rfl (h [0x71, 0x0D] .endOfInput [0x71, 0x0D] (by decide))
  · have hcut : Cut (0x0A : UInt8) [0x71, 0x0D] [] [0x71, 0x0D] := ⟨by decide, by decide, by decide⟩
    have hword : Leaves [0x71] := ⟨"q".toList, by decide, by decide⟩
    have hlines : taken .endOfInput [] [0x71, 0x0D] = [] ++ [0x71] :: [] := by decide
    simpa using drive_of_exit (s := ⟨.charLevel, ⟨20, 30⟩, .running⟩) rfl hcut hlines (by simp) hword

end Subword.Session
