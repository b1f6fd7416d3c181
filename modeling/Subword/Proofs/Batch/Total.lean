import Subword.Proofs.Batch.NormalForm
import Subword.Proofs.Batch.RoundTrip

/-!
The total of a batch against the sum of its counts. The total is a word of 64 bits, the sum a number. Main
statement: the two are the same exactly if the sum fits a word, which holds of the batches of contents that have
fewer tokens than a word can count, but not of all batches that a document can hold.
-/
namespace Subword.Batch

def countSum : List Record → Nat
  | [] => 0
  | r :: rs => r.tokenCount.toNat + countSum rs

theorem toNat_foldl_tokenCount (rs : List Record) (n : UInt64) :
    (rs.foldl (fun total r => total + r.tokenCount) n).toNat =
      (n.toNat + countSum rs) % UInt64.size := by
  induction rs generalizing n with
  | nil =>
    have hn : n.toNat < UInt64.size := UInt64.toNat_lt_size n
    exact (Nat.mod_eq_of_lt hn).symm
  | cons r rs ih =>
    have hadd : (n + r.tokenCount).toNat = (n.toNat + r.tokenCount.toNat) % UInt64.size :=
      UInt64.toNat_add n r.tokenCount
    rw [List.foldl_cons, ih, hadd, Nat.mod_add_mod, countSum, Nat.add_assoc]

/-- The total is the sum up to multiples of the size of a word. -/
theorem toNat_totalTokens (b : Batch) : b.totalTokens.toNat = countSum b.prompts % UInt64.size := by
  have hfold := toNat_foldl_tokenCount b.prompts 0
  rwa [UInt64.toNat_zero, Nat.zero_add] at hfold

theorem toNat_totalTokens_eq_iff (b : Batch) :
    b.totalTokens.toNat = countSum b.prompts ↔ countSum b.prompts < UInt64.size := by
  rw [toNat_totalTokens]
  constructor
  · intro h
    have hlt : countSum b.prompts % UInt64.size < UInt64.size := Nat.mod_lt _ (by decide)
    rwa [h] at hlt
  · exact Nat.mod_eq_of_lt

theorem countSum_eq_length {rs : List Record} (h : ∀ r ∈ rs, r.tokenCount.toNat = r.tokens.length) :
    countSum rs = (rs.flatMap (·.tokens)).length := by
  induction rs with
  | nil => rfl
  | cons r rs ih =>
    obtain ⟨hr, hrs⟩ := List.forall_mem_cons.mp h
    rw [countSum, hr, ih hrs, List.flatMap_cons, List.length_append]

/-- The counts of a batch of prompts are those of its tokens, as long as these fit a word. -/
theorem countSum_of_ofLines {p : Provider} {content : Text} {b : Batch} (h : ofLines p content = .ok b)
    (hfits : (b.prompts.flatMap (·.tokens)).length < UInt64.size) :
    countSum b.prompts = (b.prompts.flatMap (·.tokens)).length := by
  apply countSum_eq_length
  intro r hr
  have hlt : r.tokens.length < UInt64.size := Nat.lt_of_le_of_lt (length_tokens_le hr) hfits
  rw [(normal_of_ofLines h r hr).tokenCount]
  exact UInt64.toNat_ofNat_of_lt' hlt

/-- The total is the sum of the counts up to multiples of the size of a word, so it is this sum exactly if it
fits a word. Every batch can be held by a document, whatever its counts are; a batch of prompts counts its tokens. -/
theorem totalTokens_exact_iff (b : Batch) :
    (∃ document, ofDocument document = .ok b) ∧
    b.totalTokens.toNat = countSum b.prompts % UInt64.size ∧
    (b.totalTokens.toNat = countSum b.prompts ↔ countSum b.prompts < UInt64.size) ∧
    ∀ p content, ofLines p content = .ok b → (b.prompts.flatMap (·.tokens)).length < UInt64.size →
      b.totalTokens.toNat = countSum b.prompts ∧
        countSum b.prompts = (b.prompts.flatMap (·.tokens)).length := by
  have hdocument := Json.readDocument_of_spells (spells_batch 0 b) Json.gap_nil Json.gap_nil
  refine ⟨⟨_, hdocument⟩, toNat_totalTokens b, toNat_totalTokens_eq_iff b, ?_⟩
  intro p content h hfits
  have hsum := countSum_of_ofLines h hfits
  refine ⟨?_, hsum⟩
  apply (toNat_totalTokens_eq_iff b).mpr
  rw [hsum]
  exact hfits

theorem totalTokens_exact_iff_two :
    let b : Batch := ⟨[⟨"ab".toList, [97, 98], 2⟩, ⟨"c".toList, [99], 1⟩]⟩
    ofLines .charLevel "ab\n c".toList = .ok b ∧
    (b.prompts.flatMap (·.tokens)).length < UInt64.size ∧ b.totalTokens.toNat = countSum b.prompts ∧
    countSum b.prompts = 3 := by
  intro b
  have hlines : ofLines .charLevel "ab\n c".toList = .ok b := rfl
  have hfits : (b.prompts.flatMap (·.tokens)).length < UInt64.size := by decide
  obtain ⟨hexact, hsum⟩ := (totalTokens_exact_iff b).2.2.2 _ _ hlines hfits
  exact ⟨hlines, hfits, hexact, hsum⟩

/-- Two counts of which one is the largest word: their sum is the size of a word, and the total is zero. -/
theorem totalTokens_wraps :
    let document : Text :=
      "\x7b\"prompts\":[\x7b\"text\":\"a\",\"tokens\":[],\"token_count\":18446744073709551615\x7d,".toList ++
      "\x7b\"text\":\"b\",\"tokens\":[],\"token_count\":1\x7d]\x7d".toList
    let b : Batch := ⟨[⟨"a".toList, [], 18446744073709551615⟩, ⟨"b".toList, [], 1⟩]⟩
    ofDocument document = .ok b ∧ countSum b.prompts = UInt64.size ∧ b.totalTokens.toNat = 0 := by
  intro document b
  have hread : (ofDocument document).toOption = some b := by decide +kernel
  refine ⟨?_, by decide, by decide⟩
  cases hdocument : ofDocument document with
  | error e =>
    rw [hdocument] at hread
    cases hread
  | ok b' =>
    rw [hdocument] at hread
    cases hread
    rfl

end Subword.Batch
