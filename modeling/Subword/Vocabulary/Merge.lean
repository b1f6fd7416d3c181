import Subword.Encoding.Basic

/-!
Merging: neighbouring parts whose concatenation has a rank are joined, the lowest rank first and the
leftmost of equals, until no two neighbours can be joined. Main statements: the parts always
concatenate to the same bytes, and where merging ends no two neighbours have a rank together.
-/
namespace Subword.Vocabulary

/-- Joins the pair of neighbours of lowest rank, the leftmost of equals; also gives that rank. -/
def mergeLowest? (rank? : Bytes → Option TokenId) : List Bytes → Option (TokenId × List Bytes)
  | a :: b :: rest =>
    match rank? (a ++ b), mergeLowest? rank? (b :: rest) with
    | none, none => none
    | none, some (s, later) => some (s, a :: later)
    | some r, none => some (r, (a ++ b) :: rest)
    | some r, some (s, later) =>
      if r ≤ s then some (r, (a ++ b) :: rest) else some (s, a :: later)
  | _ => none

theorem length_mergeLowest? {rank? : Bytes → Option TokenId} {parts merged : List Bytes} {r : TokenId}
    (h : mergeLowest? rank? parts = some (r, merged)) : merged.length + 1 = parts.length := by
  fun_induction mergeLowest? rank? parts generalizing r merged <;> simp_all
  all_goals grind

theorem flatten_mergeLowest? {rank? : Bytes → Option TokenId} {parts merged : List Bytes}
    {r : TokenId} (h : mergeLowest? rank? parts = some (r, merged)) :
    merged.flatten = parts.flatten := by
  fun_induction mergeLowest? rank? parts generalizing r merged <;> simp_all
  all_goals grind

def mergeAll (rank? : Bytes → Option TokenId) (parts : List Bytes) : List Bytes :=
  match h : mergeLowest? rank? parts with
  | none => parts
  | some (_, merged) =>
    have := length_mergeLowest? h
    mergeAll rank? merged
  termination_by parts.length

theorem flatten_mergeAll (rank? : Bytes → Option TokenId) (parts : List Bytes) :
    (mergeAll rank? parts).flatten = parts.flatten := by
  fun_induction mergeAll rank? parts with
  | case1 => rfl
  | case2 parts _ merged h _ ih => rw [ih, flatten_mergeLowest? h]

theorem mergeLowest?_mergeAll (rank? : Bytes → Option TokenId) (parts : List Bytes) :
    mergeLowest? rank? (mergeAll rank? parts) = none := by
  fun_induction mergeAll rank? parts with
  | case1 parts h => exact h
  | case2 parts _ merged h _ ih => exact ih

end Subword.Vocabulary
