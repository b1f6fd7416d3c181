import Subword.Program.Mode
import Subword.Proofs.Batch.Composition
import Subword.Proofs.FileStore
import Subword.Proofs.Utf8.Decoding
import Subword.Provider.CharLevel

/-!
Encoding a file is all or nothing. Main statement: as long as anything can go wrong before the output is
written, from the provider to the last prompt of the input, no file changes and nothing is told; else the
output holds the document of the batch of what the input held before, and no other file has changed.
-/
namespace Subword.Mode

/-- The provider is there, the input is UTF-8, and its prompts encode to the batch. -/
def Encodes (p : Loaded) (fs : FileStore) (input : Text) (batch : Batch) : Prop :=
  ∃ q bytes content, p = .ok q ∧ fs.read input = .ok bytes ∧ Utf8.decode bytes = .ok content ∧
    Batch.ofLines q content = .ok batch

/-- What keeps a file from being encoded: the first stage that fails, with its failure. -/
inductive Obstacle (fs : FileStore) (input output : Text) : Loaded → Failure → Prop
  | provider (e : EncodingError) : Obstacle fs input output (.error e) (.encoding e)
  | unreadable {q : Provider} {e : IoError} :
      fs.read input = .error e → Obstacle fs input output (.ok q) (.batchIo e)
  | notUtf8 {q : Provider} {bytes : Bytes} {fault : Utf8.Fault} :
      fs.read input = .ok bytes → Utf8.decode bytes = .error fault →
      Obstacle fs input output (.ok q) (.batchIo .notUtf8)
  | prompt {q : Provider} {bytes : Bytes} {content prompt : Text} {before behind : List Text}
      {e : EncodingError} :
      fs.read input = .ok bytes → Utf8.decode bytes = .ok content →
      Batch.promptLines content = before ++ prompt :: behind →
      (∀ t ∈ before, ∃ ids, q.encode t = .ok ids) → q.encode prompt = .error e →
      Obstacle fs input output (.ok q) (.batchEncoding e)
  | output {p : Loaded} {batch : Batch} {e : IoError} :
      Encodes p fs input batch → (∀ place, ¬fs.Opens output place) →
      fs.write output (Utf8.encode batch.toJson.pretty) = .error e →
      Obstacle fs input output p (.batchIo e)

variable {p : Loaded} {q : Provider} {fs : FileStore} {input output : Text} {batch : Batch}
  {failure : Failure}

theorem readText_of_read {bytes : Bytes} (h : fs.read input = .ok bytes) :
    fs.readText input = (Utf8.decode bytes).mapError fun _ => .notUtf8 := by
  unfold FileStore.readText
  rw [h]

theorem readBatch_of_decode {bytes : Bytes} {content : Text} (hread : fs.read input = .ok bytes)
    (hdecode : Utf8.decode bytes = .ok content) :
    readBatch q fs input = (Batch.ofLines q content).mapError .batchEncoding := by
  unfold readBatch
  rw [readText_of_read hread, hdecode]
  rfl

theorem readBatch_of_encodes (h : Encodes (.ok q) fs input batch) : readBatch q fs input = .ok batch := by
  obtain ⟨q', bytes, content, hq, hread, hdecode, hbatch⟩ := h
  cases hq
  rw [readBatch_of_decode hread hdecode, hbatch]
  rfl

theorem precompute_of_readBatch_error (h : readBatch q fs input = .error failure) (sink : Sink) :
    precompute (.ok q) input output fs sink = (⟨.error failure, sink⟩, fs) := by
  unfold precompute
  simp only [h]

/-- A stage that fails leaves the files and the output as they are. -/
theorem precompute_of_obstacle (h : Obstacle fs input output p failure) (sink : Sink) :
    precompute p input output fs sink = (⟨.error failure, sink⟩, fs) := by
  cases h with
  | provider e => rfl
  | unreadable hread =>
    apply precompute_of_readBatch_error
    unfold readBatch FileStore.readText
    rw [hread]
  | notUtf8 hread hdecode =>
    apply precompute_of_readBatch_error
    unfold readBatch
    rw [readText_of_read hread, hdecode]
    rfl
  | prompt hread hdecode hprompts hbefore hprompt =>
    have hbatch := Batch.ofLines_eq_error_iff.mpr ⟨_, _, _, hprompts, hbefore, hprompt⟩
    apply precompute_of_readBatch_error
    rw [readBatch_of_decode hread hdecode, hbatch]
    rfl
  | output hencodes _ hwrite =>
    have ⟨q, _, _, hq, _⟩ := hencodes
    subst hq
    unfold precompute
    simp only [readBatch_of_encodes hencodes, hwrite]

theorem precompute_of_encodes {place : List Text} (h : Encodes p fs input batch)
    (hopens : fs.Opens output place) (sink : Sink) :
    precompute p input output fs sink = (finish (summary batch output) .success sink,
      fs.put place (.file (Utf8.encode batch.toJson.pretty))) := by
  have ⟨q, _, _, hq, _⟩ := h
  subst hq
  have hwrite : fs.write output (Utf8.encode batch.toJson.pretty) =
      .ok (fs.put place (.file (Utf8.encode batch.toJson.pretty))) :=
    FileStore.write_eq_ok_iff.mpr ⟨place, hopens, rfl⟩
  unfold precompute
  simp only [readBatch_of_encodes h, hwrite]

/-- Either some stage fails, or all prompts encode and the output can be written. -/
theorem obstacle_or_encodes (p : Loaded) (fs : FileStore) (input output : Text) :
    (∃ failure, Obstacle fs input output p failure) ∨
      ∃ batch place, Encodes p fs input batch ∧ fs.Opens output place := by
  cases p with
  | error e => exact Or.inl ⟨_, .provider e⟩
  | ok q =>
    cases hread : fs.read input with
    | error e => exact Or.inl ⟨_, .unreadable hread⟩
    | ok bytes =>
      cases hdecode : Utf8.decode bytes with
      | error fault => exact Or.inl ⟨_, .notUtf8 hread hdecode⟩
      | ok content =>
        cases hbatch : Batch.ofLines q content with
        | error e =>
          obtain ⟨before, prompt, behind, hprompts, hbefore, hprompt⟩ :=
            Batch.ofLines_eq_error_iff.mp hbatch
          exact Or.inl ⟨_, .prompt hread hdecode hprompts hbefore hprompt⟩
        | ok batch =>
          have hencodes : Encodes (.ok q) fs input batch :=
            ⟨q, bytes, content, rfl, hread, hdecode, hbatch⟩
          by_cases hopens : ∃ place, fs.Opens output place
          · obtain ⟨place, hplace⟩ := hopens
            exact Or.inr ⟨batch, place, hencodes, hplace⟩
          · have hnone : ∀ place, ¬fs.Opens output place := not_exists.mp hopens
            obtain ⟨e, he⟩ := FileStore.exists_write_error hnone (Utf8.encode batch.toJson.pretty)
            exact Or.inl ⟨_, .output hencodes hnone he⟩

theorem flatten_summary (b : Batch) (output : Text) :
    (summary b output).flatten = "✓ Precomputed tokens for ".toList ++ Text.decimal b.prompts.length ++
      " prompts\n  Output: ".toList ++ output ++ "\n".toList := by
  have hlines : " prompts\n  Output: ".toList = " prompts\n".toList ++ "  Output: ".toList := by decide
  unfold summary
  rw [List.flatten_cons, List.flatten_singleton, hlines]
  simp only [List.append_assoc]

/-- With an obstacle the files and the output stay as they are. Without one the output file holds the document,
nothing else has changed, and two lines are told; it may be the input file, since that has been read before. -/
theorem precompute_all_or_nothing (p : Loaded) (input output : Text) (fs : FileStore) (sink : Sink) :
    (∀ failure, Obstacle fs input output p failure →
      precompute p input output fs sink = (⟨.error failure, sink⟩, fs)) ∧
    (∀ batch place, Encodes p fs input batch → fs.Opens output place →
      let (result, after) := precompute p input output fs sink
      after.read output = .ok (Utf8.encode batch.toJson.pretty) ∧
      (∀ other, other ≠ place → after.find? other = fs.find? other) ∧
      (∀ other bytes, ¬fs.Opens other place →
        (after.read other = .ok bytes ↔ fs.read other = .ok bytes)) ∧
      after.current = fs.current ∧
      (sink.room = none → result.outcome = .ok .success ∧ result.sink.kept = sink.kept ++
        Utf8.encode ("✓ Precomputed tokens for ".toList ++ Text.decimal batch.prompts.length ++
          " prompts\n  Output: ".toList ++ output ++ "\n".toList))) ∧
    ((∃ failure, Obstacle fs input output p failure) ∨
      ∃ batch place, Encodes p fs input batch ∧ fs.Opens output place) := by
  refine ⟨fun failure h => precompute_of_obstacle h sink, ?_, obstacle_or_encodes p fs input output⟩
  intro batch place hencodes hopens
  rw [precompute_of_encodes hencodes hopens]
  refine ⟨hopens.read_put _, ?_, fun other bytes => hopens.read_put_of_not_opens, rfl, ?_⟩
  · intro other hne
    rw [FileStore.find?_put hopens.leads.ne_nil, if_neg hne]
  · intro hroom
    rw [finish_of_unlimited _ _ hroom, flatten_summary]
    exact ⟨rfl, rfl⟩

/-- A file of one prompt that is encoded in its own place, and an input that is missing. -/
theorem precompute_all_or_nothing_in_place :
    let files : FileStore := { entries := [(["p".toList], .file (Utf8.encode "hi\n".toList))] }
    (precompute (.ok .charLevel) "p".toList "p".toList files .unlimited).2.read "p".toList =
      .ok (Utf8.encode (Batch.toJson ⟨[⟨"hi".toList, [104, 105], 2⟩]⟩).pretty) ∧
    precompute (.ok .charLevel) "q".toList "p".toList files .unlimited =
      (⟨.error (.batchIo .notFound), .unlimited⟩, files) := by
  intro files
  constructor
  · have hencodes : Encodes (.ok .charLevel) files "p".toList ⟨[⟨"hi".toList, [104, 105], 2⟩]⟩ :=
      ⟨.charLevel, Utf8.encode "hi\n".toList, "hi\n".toList, rfl, rfl, Utf8.decode_encode _, rfl⟩
    have hopens : files.Opens "p".toList ["p".toList] :=
      ⟨⟨rfl, [], "p".toList, rfl, rfl, by decide, rfl, rfl⟩, by decide, by decide⟩
    exact ((precompute_all_or_nothing _ _ _ files .unlimited).2.1 _ _ hencodes hopens).1
  · exact (precompute_all_or_nothing _ _ _ files .unlimited).1 _ (.unreadable rfl)

end Subword.Mode
