import Mathlib.Data.List.Forall2

/-!
# Lists whose elements correspond to each other

Two lists may be related element by element, and the image of a list under a function may be cut into
pieces. What is known of one of the lists is then known of the other one.
-/

namespace PairedLists

variable {α β : Type*}

/-- Each element of a list has a partner in a list that is related to it. -/
theorem exists_partner {R : α → β → Prop} {as : List α} {bs : List β} (h : List.Forall₂ R as bs) {a : α}
    (hmem : a ∈ as) : ∃ b ∈ bs, R a b := by
  induction h with
  | nil => contradiction
  | cons hfirst _ ih =>
    rcases List.mem_cons.mp hmem with rfl | hlater
    · exact ⟨_, List.mem_cons_self, hfirst⟩
    · obtain ⟨b, hb, hrelated⟩ := ih hlater
      exact ⟨b, List.mem_cons_of_mem _ hb, hrelated⟩

/-- A list whose image is cut into pieces is cut into pieces. -/
theorem exists_flatten_of_map {f : α → β} {as : List α} {pieces : List (List β)}
    (h : as.map f = pieces.flatten) :
    ∃ parts : List (List α), as = parts.flatten ∧ parts.map (List.map f) = pieces := by
  induction pieces generalizing as with
  | nil => exact ⟨[], List.map_eq_nil_iff.mp h, rfl⟩
  | cons piece pieces ih =>
    rw [List.flatten_cons] at h
    obtain ⟨first, rest, rfl, hfirst, hrest⟩ := List.map_eq_append_iff.mp h
    obtain ⟨parts, rfl, hparts⟩ := ih hrest
    exact ⟨first :: parts, rfl, by rw [List.map_cons, hfirst, hparts]⟩

end PairedLists
