import Subword.Program.Mode
import Subword.Proofs.Tokenization.Document
import Subword.Proofs.Vocabulary.TokenStrings
import Subword.Provider.CharLevel
import Subword.Session.Basic

/-!
The modes tell the same of a text. Main statement: what the document, the report, the count and the turn of a
session say follows from what is printed as the document, but for a count that stands although a token cannot
be decoded by itself; over a vocabulary that knows its tokens there is no such count.
-/
namespace Subword.Mode

open Tokenization (Outcome)

/-- What has been written is the document of the outcome, as a line. -/
def Result.Prints (r : Result) (o : Outcome) : Prop :=
  r.sink.kept = Utf8.encode (o.toJson.pretty ++ "\n".toList)

variable {p : Loaded} {t : Text} {o : Outcome} {r : Tokenization} {message : Text} {e : EncodingError}

theorem json_prints (p : Loaded) (t : Text) : (json p t .unlimited).Prints (Outcome.ofLoaded p t) := by
  rw [json, finish_of_unlimited _ _ rfl, List.flatten_singleton]
  rfl

/-- What is printed tells the outcome. -/
theorem agrees_of_json_prints (h : (json p t .unlimited).Prints o) : (Outcome.ofLoaded p t).Agrees o := by
  have hline := Utf8.encode_injective ((json_prints p t).symm.trans h)
  exact Outcome.agrees_of_document_eq (List.append_cancel_right hline)

theorem json_prints_error_iff :
    (json p t .unlimited).Prints (.error message) ↔ Outcome.ofLoaded p t = .error message := by
  constructor
  · intro h
    exact Outcome.eq_of_agrees_error (agrees_of_json_prints h)
  · intro h
    exact h ▸ json_prints p t

theorem ofLoaded_of_prints_success (h : (json p t .unlimited).Prints (.success r)) :
    ∃ r', Outcome.ofLoaded p t = .success r' ∧ r'.Agrees r :=
  Outcome.exists_of_agrees_success (agrees_of_json_prints h)

theorem report_of_success (h : Outcome.ofLoaded p t = .success r) :
    report p t .unlimited = ⟨.ok .success, ⟨Utf8.encode r.report, none⟩⟩ := by
  simp only [report, h]
  exact finish_of_unlimited _ _ rfl

theorem report_of_error (h : Outcome.ofLoaded p t = .error message) :
    report p t .unlimited =
      ⟨.ok .failure, ⟨Utf8.encode ("Error: ".toList ++ message ++ "\n".toList), none⟩⟩ := by
  simp only [report, h]
  rw [finish_of_unlimited _ _ rfl, List.flatten_singleton]
  rfl

theorem report_failure_iff :
    (report p t .unlimited).outcome = .ok .failure ↔
      ∃ message, Outcome.ofLoaded p t = .error message := by
  cases ho : Outcome.ofLoaded p t with
  | success r => simp [report_of_success ho]
  | error message => simp [report_of_error ho]

theorem build_of_success {q : Provider} (h : Outcome.ofLoaded (.ok q) t = .success r) :
    Tokenization.build q t = .ok r :=
  Outcome.of_eq_success_iff.mp h

/-- The count takes the first step towards a tokenization only. -/
theorem encodeLoaded_of_success (h : Outcome.ofLoaded p t = .success r) :
    ∃ ids, encodeLoaded p t = .ok ids ∧ r.tokenCount = ids.length := by
  cases p with
  | error e => cases h
  | ok q =>
    have haligned := Tokenization.build_eq_ok_iff.mp (build_of_success h)
    exact ⟨r.tokenIds, haligned.tokenIds, haligned.tokenCount⟩

theorem ofLoaded_of_encodeLoaded_error (h : encodeLoaded p t = .error e) :
    Outcome.ofLoaded p t = .error e.message := by
  cases p with
  | error e' =>
    cases h
    rfl
  | ok q =>
    have hbuild : Tokenization.build q t = .error e := Tokenization.build_eq_error_iff.mpr (.encode h)
    exact Outcome.of_eq_error_iff.mpr ⟨e, hbuild, rfl⟩

theorem count_of_ok {ids : List TokenId} (h : encodeLoaded p t = .ok ids) :
    count p t .unlimited =
      ⟨.ok .success, ⟨Utf8.encode (Text.decimal ids.length ++ "\n".toList), none⟩⟩ := by
  simp only [count, h]
  rw [finish_of_unlimited _ _ rfl, List.flatten_singleton]
  rfl

theorem count_of_error (h : encodeLoaded p t = .error e) (sink : Sink) :
    count p t sink = ⟨.error (.encoding e), sink⟩ := by
  simp only [count, h]

theorem encodeLoaded_of_count_error {failure : Failure}
    (h : (count p t .unlimited).outcome = .error failure) :
    ∃ e, encodeLoaded p t = .error e ∧ failure = .encoding e := by
  cases hencode : encodeLoaded p t with
  | error e =>
    rw [count_of_error hencode] at h
    cases h
    exact ⟨e, rfl, rfl⟩
  | ok ids =>
    rw [count_of_ok hencode] at h
    cases h

/-- Without an unknown token, a text that can be encoded has a tokenization. -/
theorem ofLoaded_ofVocabulary {enc : Encoding} {v : Vocabulary} {ids : List TokenId}
    (hids : (Provider.ofVocabulary enc v).encode t = .ok ids)
    (known : ∀ id ∈ ids, (v.bytes? id).isSome) :
    ∃ r, Outcome.ofLoaded (.ok (.ofVocabulary enc v)) t = .success r := by
  have hstrings := Provider.mapM_decodeOne_of_known enc known
  obtain ⟨r, hbuild⟩ := Tokenization.exists_build_eq_ok_iff.mpr
    ⟨ids, hids, Except.exists_eq_ok_of_mapM hstrings⟩
  exact ⟨r, Outcome.of_eq_success_iff.mpr hbuild⟩

theorem turn_of_ofLoaded {q : Provider} (limits : Breakdown.Limits)
    (hword : Session.isExitWord t = false) (hblank : Text.trim t ≠ []) :
    (Session.handleLine ⟨q, limits, .running⟩ t).1 =
      match Outcome.ofLoaded (.ok q) t with
      | .success r => .report r
      | .error message => .failed message := by
  have hturn : (Session.handleLine ⟨q, limits, .running⟩ t).1 = Session.answer q t := by
    simp [Session.handleLine, hword]
  rw [hturn, Session.answer, if_neg hblank, Outcome.ofLoaded, Outcome.of]
  cases Tokenization.build q t <;> rfl

theorem report_outcome_iff :
    (report p t .unlimited).outcome = .ok .success ↔ ∃ r, (json p t .unlimited).Prints (.success r) := by
  have hprints := json_prints p t
  constructor
  · intro hreport
    cases ho : Outcome.ofLoaded p t with
    | success r => exact ⟨r, ho ▸ hprints⟩
    | error message => simp [report_of_error ho] at hreport
  · rintro ⟨r, hr⟩
    obtain ⟨r', ho, -⟩ := ofLoaded_of_prints_success hr
    rw [report_of_success ho]

theorem report_of_prints_error (h : (json p t .unlimited).Prints (.error message)) :
    report p t .unlimited =
      ⟨.ok .failure, ⟨Utf8.encode ("Error: ".toList ++ message ++ "\n".toList), none⟩⟩ :=
  report_of_error (json_prints_error_iff.mp h)

theorem exists_prints_error (h : (report p t .unlimited).outcome ≠ .ok .success) :
    ∃ message, (json p t .unlimited).Prints (.error message) := by
  cases ho : Outcome.ofLoaded p t with
  | success r => exact absurd (by rw [report_of_success ho]) h
  | error message => exact ⟨message, json_prints_error_iff.mpr ho⟩

theorem count_of_prints_success (h : (json p t .unlimited).Prints (.success r)) :
    count p t .unlimited =
      ⟨.ok .success, ⟨Utf8.encode (Text.decimal r.tokenCount ++ "\n".toList), none⟩⟩ := by
  obtain ⟨r', ho, hagrees⟩ := ofLoaded_of_prints_success h
  obtain ⟨ids, hids, hlength⟩ := encodeLoaded_of_success ho
  rw [← hagrees.tokenCount, hlength]
  exact count_of_ok hids

theorem exists_report_eq (r : Tokenization) : ∃ behind, r.report = "Text: ".toList ++ r.text ++
    "\nTokens: ".toList ++ Text.decimal r.tokenCount ++ "\nToken IDs: ".toList ++ behind := by
  have htokens : "\nTokens: ".toList = "\n".toList ++ "Tokens: ".toList := by decide
  have hids : "\nToken IDs: ".toList = "\n".toList ++ "Token IDs: ".toList := by decide
  unfold Tokenization.report Tokenization.reportWrites
  rw [htokens, hids]
  simp only [List.flatten_cons, List.append_assoc]
  exact ⟨_, rfl⟩

theorem report_of_prints_success (h : (json p t .unlimited).Prints (.success r)) :
    ∃ behind, (report p t .unlimited).sink.kept = Utf8.encode ("Text: ".toList ++ r.text ++
      "\nTokens: ".toList ++ Text.decimal r.tokenCount ++ "\nToken IDs: ".toList ++ behind) := by
  obtain ⟨r', ho, hagrees⟩ := ofLoaded_of_prints_success h
  obtain ⟨behind, hbehind⟩ := exists_report_eq r'
  rw [hagrees.text, hagrees.tokenCount] at hbehind
  rw [report_of_success ho, hbehind]
  exact ⟨behind, rfl⟩

theorem of_count_error {failure : Failure} (h : (count p t .unlimited).outcome = .error failure) :
    (count p t .unlimited).sink.kept = [] ∧ Outcome.ofLoaded p t = .error failure.message := by
  obtain ⟨e, he, rfl⟩ := encodeLoaded_of_count_error h
  constructor
  · rw [count_of_error he]
    rfl
  · exact ofLoaded_of_encodeLoaded_error he

theorem turn_of_prints {q : Provider} (limits : Breakdown.Limits)
    (hword : Session.isExitWord t = false) (hblank : Text.trim t ≠ []) :
    (∃ r, (Session.handleLine ⟨q, limits, .running⟩ t).1 = .report r ∧
      (json (.ok q) t .unlimited).Prints (.success r)) ∨
    ∃ message, (Session.handleLine ⟨q, limits, .running⟩ t).1 = .failed message ∧
      (json (.ok q) t .unlimited).Prints (.error message) := by
  have hprints := json_prints (.ok q) t
  rw [turn_of_ofLoaded limits hword hblank]
  cases ho : Outcome.ofLoaded (.ok q) t with
  | success r => exact Or.inl ⟨r, rfl, ho ▸ hprints⟩
  | error message => exact Or.inr ⟨message, rfl, ho ▸ hprints⟩

theorem turn_failed_iff {q : Provider} (limits : Breakdown.Limits)
    (hword : Session.isExitWord t = false) (hblank : Text.trim t ≠ []) :
    (∃ message, (Session.handleLine ⟨q, limits, .running⟩ t).1 = .failed message) ↔
      ∃ message, Outcome.ofLoaded (.ok q) t = .error message := by
  rw [turn_of_ofLoaded limits hword hblank]
  cases Outcome.ofLoaded (.ok q) t <;> simp

theorem count_error_iff {enc : Encoding} {v : Vocabulary}
    (known : ∀ ids, (Provider.ofVocabulary enc v).encode t = .ok ids →
      ∀ id ∈ ids, (v.bytes? id).isSome) :
    (∃ failure, (count (.ok (.ofVocabulary enc v)) t .unlimited).outcome = .error failure) ↔
      ∃ message, Outcome.ofLoaded (.ok (.ofVocabulary enc v)) t = .error message := by
  constructor
  · rintro ⟨failure, hfailure⟩
    exact ⟨failure.message, (of_count_error hfailure).2⟩
  · rintro ⟨message, hmessage⟩
    cases hids : (Provider.ofVocabulary enc v).encode t with
    | error e =>
      have hloaded : encodeLoaded (.ok (.ofVocabulary enc v)) t = .error e := hids
      rw [count_of_error hloaded]
      exact ⟨_, rfl⟩
    | ok ids =>
      obtain ⟨r, hr⟩ := ofLoaded_ofVocabulary hids (known ids hids)
      cases hr.symm.trans hmessage

/-- The modes on one text, each without a limit on its output, and a line of a session, by what the first of
them prints. The count can succeed alone where a token cannot be decoded by itself, but not over a vocabulary
that knows the tokens. -/
theorem modes_agree (p : Loaded) (t : Text) :
    let printed := json p t .unlimited
    let reported := report p t .unlimited
    let counted := count p t .unlimited
    (printed.outcome = .ok .success ∧ ∃ o, printed.Prints o) ∧
    ((reported.outcome = .ok .success ↔ ∃ r, printed.Prints (.success r)) ∧
      (reported.outcome ≠ .ok .success → ∃ message, printed.Prints (.error message) ∧
        reported =
          ⟨.ok .failure, ⟨Utf8.encode ("Error: ".toList ++ message ++ "\n".toList), none⟩⟩)) ∧
    (∀ r, printed.Prints (.success r) →
      counted = ⟨.ok .success, ⟨Utf8.encode (Text.decimal r.tokenCount ++ "\n".toList), none⟩⟩ ∧
      ∃ behind, reported.sink.kept = Utf8.encode ("Text: ".toList ++ r.text ++
        "\nTokens: ".toList ++ Text.decimal r.tokenCount ++ "\nToken IDs: ".toList ++ behind)) ∧
    (∀ failure, counted.outcome = .error failure →
      counted.sink.kept = [] ∧ printed.Prints (.error failure.message) ∧
      reported.sink.kept =
        Utf8.encode ("Error: ".toList ++ failure.message ++ "\n".toList)) ∧
    (∀ q limits, p = .ok q → Session.isExitWord t = false → Text.trim t ≠ [] →
      (∃ r, (Session.handleLine ⟨q, limits, .running⟩ t).1 = .report r ∧
        printed.Prints (.success r)) ∨
      ∃ message, (Session.handleLine ⟨q, limits, .running⟩ t).1 = .failed message ∧
        printed.Prints (.error message)) ∧
    ∀ enc v, p = .ok (.ofVocabulary enc v) →
      (∀ ids, (Provider.ofVocabulary enc v).encode t = .ok ids → ∀ id ∈ ids, (v.bytes? id).isSome) →
      ((∃ failure, counted.outcome = .error failure) ↔ ∃ message, printed.Prints (.error message)) ∧
      ((∃ failure, counted.outcome = .error failure) ↔ reported.outcome = .ok .failure) ∧
      ∀ limits, Session.isExitWord t = false → Text.trim t ≠ [] →
        ((∃ failure, counted.outcome = .error failure) ↔ ∃ message,
          (Session.handleLine ⟨.ofVocabulary enc v, limits, .running⟩ t).1 = .failed message) := by
  refine ⟨⟨rfl, _, json_prints p t⟩, ⟨report_outcome_iff, ?_⟩, ?_, ?_, ?_, ?_⟩
  · intro hreport
    obtain ⟨message, hmessage⟩ := exists_prints_error hreport
    exact ⟨message, hmessage, report_of_prints_error hmessage⟩
  · intro r hr
    exact ⟨count_of_prints_success hr, report_of_prints_success hr⟩
  · intro failure hfailure
    obtain ⟨hkept, ho⟩ := of_count_error hfailure
    refine ⟨hkept, json_prints_error_iff.mpr ho, ?_⟩
    rw [report_of_error ho]
  · rintro q limits rfl hword hblank
    exact turn_of_prints limits hword hblank
  · rintro enc v rfl known
    have hcount := count_error_iff known
    simp only [json_prints_error_iff]
    refine ⟨hcount, hcount.trans report_failure_iff.symm, ?_⟩
    intro limits hword hblank
    exact hcount.trans (turn_failed_iff limits hword hblank).symm

/-- A line with a report, an encoding that is not known, and a text whose first token is half a character. -/
theorem modes_agree_crab :
    (∃ r, (Session.handleLine ⟨.charLevel, ⟨20, 30⟩, .running⟩ "hi".toList).1 = .report r ∧
      (json (.ok .charLevel) "hi".toList .unlimited).Prints (.success r) ∧
      count (.ok .charLevel) "hi".toList .unlimited =
        ⟨.ok .success, ⟨Utf8.encode (Text.decimal r.tokenCount ++ "\n".toList), none⟩⟩) ∧
    (report (.error (.unknownEncoding "x".toList)) [] .unlimited).sink.kept =
      Utf8.encode "Error: Unknown encoding 'x'\n".toList ∧
    (report (.ok (.ofVocabulary .cl100kBase .crab)) "🦀".toList .unlimited).outcome ≠ .ok .failure := by
  refine ⟨?_, ?_, ?_⟩
  · obtain ⟨-, -, hcount, -, hturn, -⟩ := modes_agree (.ok .charLevel) "hi".toList
    obtain ⟨r, hr, hprints⟩ | ⟨message, hmessage, -⟩ :=
      hturn .charLevel ⟨20, 30⟩ rfl (by decide) (by decide)
    · exact ⟨r, hr, hprints, (hcount r hprints).1⟩
    · cases hmessage
  · obtain ⟨-, -, -, hfailure, -⟩ := modes_agree (.error (.unknownEncoding "x".toList)) []
    exact (hfailure (.encoding (.unknownEncoding "x".toList)) rfl).2.2.trans (by decide)
  · have hids := Provider.encode_crab
    have known : ∀ ids, (Provider.ofVocabulary .cl100kBase .crab).encode "🦀".toList = .ok ids →
        ∀ id ∈ ids, (Vocabulary.crab.bytes? id).isSome := by
      intro ids h
      cases hids.symm.trans h
      rw [Vocabulary.crab_bytes?]
      exact List.all_eq_true.mp (by decide)
    obtain ⟨-, -, -, -, -, hvocabulary⟩ :=
      modes_agree (.ok (.ofVocabulary .cl100kBase .crab)) "🦀".toList
    have hiff := (hvocabulary .cl100kBase .crab rfl known).2.1
    intro hreport
    obtain ⟨failure, hfailure⟩ := hiff.mpr hreport
    obtain ⟨e, he, -⟩ := encodeLoaded_of_count_error hfailure
    cases hids.symm.trans he

end Subword.Mode
