import Subword.Json.Basic
import Subword.Proofs.Json.Reader

/-!
Laid out documents are read back. Main statements: an array spells the list of what its items spell, and each
member of an object is taken into the draft as it would be alone.
-/
namespace Subword.Json

variable {α σ : Type}

theorem gap_newline (depth : Nat) : Gap (newline depth) := by
  intro c hc
  rcases List.mem_cons.mp hc with rfl | hc
  · decide
  · rw [List.eq_of_mem_replicate hc]
    decide

theorem separator_first (depth : Nat) : Separator true ([] ++ newline depth) :=
  .start (gap_newline depth)

theorem separator_comma (depth : Nat) : Separator false ([','] ++ newline depth) :=
  .comma gap_nil (gap_newline depth)

theorem items_layoutItems {item : Text → Read α} {f : α → Json} {xs : List α} {depth : Nat}
    (h : ∀ x ∈ xs, Spells item (layout depth (f x)) x) (outer : Nat) {first : Bool} {ending : Text}
    (hsep : Separator first (ending ++ newline depth)) :
    Items item first (layoutItems depth ending (xs.map f) ++ (newline outer ++ [']'])) xs := by
  induction xs generalizing first ending with
  | nil =>
    rw [List.map_nil, layoutItems, List.nil_append]
    exact .closed (gap_newline outer)
  | cons x xs ih =>
    obtain ⟨hx, hxs⟩ := List.forall_mem_cons.mp h
    rw [List.map_cons, layoutItems, List.append_assoc, List.append_assoc]
    exact .item hsep hx (ih hxs (separator_comma depth))

/-- An array spells the list of what its items spell. -/
theorem spells_layout_array {item : Text → Read α} {f : α → Json} {xs : List α} {depth : Nat}
    (h : ∀ x ∈ xs, Spells item (layout (depth + 1) (f x)) x) :
    Spells (readList item) (layout depth (.array (xs.map f))) xs := by
  cases xs with
  | nil =>
    rw [List.map_nil, layout]
    exact spells_list (.closed gap_nil)
  | cons x xs =>
    have hitems := items_layoutItems h depth (separator_first (depth + 1))
    rw [List.map_cons] at hitems ⊢
    rw [layout, List.cons_append, List.cons_append, List.append_assoc]
    exact spells_list hitems

theorem members_layoutMembers_nil {member : Text → σ → Text → Read σ} (depth outer : Nat)
    (first : Bool) (ending : Text) (d : σ) :
    Members member first d (layoutMembers depth ending [] ++ (newline outer ++ ['\x7d'])) d := by
  rw [layoutMembers, List.nil_append]
  exact .closed (gap_newline outer)

theorem members_layoutMembers_cons {member : Text → σ → Text → Read σ} {depth : Nat} {first : Bool}
    {ending key behind : Text} {x : Json} {ms : List (Text × Json)} {d d' d'' : σ}
    (hsep : Separator first (ending ++ newline depth))
    (hm : Takes member key d (": ".toList ++ layout depth x) d')
    (hms : Members member false d' (layoutMembers depth [','] ms ++ behind) d'') :
    Members member first d (layoutMembers depth ending ((key, x) :: ms) ++ behind) d'' := by
  have hmembers := Members.member hsep hm hms
  rw [layoutMembers]
  simp only [List.append_assoc] at hmembers ⊢
  exact hmembers

theorem spells_layout_object {member : Text → σ → Text → Read σ} {finish : σ → Except Fault α}
    {start d : σ} (positional : Text → Read α) {depth : Nat} {m : Text × Json} {ms : List (Text × Json)}
    {x : α}
    (h : Members member true start
      (layoutMembers (depth + 1) [] (m :: ms) ++ (newline depth ++ ['\x7d'])) d)
    (hx : finish d = .ok x) :
    Spells (readParts member finish start positional) (layout depth (.object (m :: ms))) x := by
  rw [layout, List.cons_append, List.cons_append, List.append_assoc]
  exact spells_object positional h hx

/-- A laid out value fills a member. -/
theorem Spells.fills_layout {value : Text → Read α} {depth : Nat} {x : Json} {a : α}
    (h : Spells value (layout depth x) a) : Fills value (": ".toList ++ layout depth x) a := by
  have hspace : Gap [' '] := by
    intro c hc
    rw [List.mem_singleton.mp hc]
    decide
  exact h.fills gap_nil hspace

end Subword.Json
