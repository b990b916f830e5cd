import Mathlib.Order.Lattice
import Mathlib.Tactic.Common

/-!
# Lexicographic comparison with wildcards

Two sequences are compared part by part over their common length. A wildcard matches every part; otherwise the
first difference decides. A comparison of every part by itself, after the parts were read in some way, agrees
with that order under a condition on the parts behind the first difference.
-/

namespace WildcardOrder

variable {α β : Type*} [LinearOrder α] [LinearOrder β]

/-- The parts, where wildcards match everything, are at least the bounds in the lexicographic order. -/
def AtLeast : List (α × Option α) → Prop
  | [] => True
  | (_, none) :: rest => AtLeast rest
  | (bound, some part) :: rest => bound < part ∨ part = bound ∧ AtLeast rest

/-- A part is read as something smaller than what its bound is read as. -/
def Smaller (read : α → β) : α × Option α → Prop
  | (_, none) => False
  | (bound, some part) => read part < read bound

/-- From the first difference on, no part is smaller if the first of them is greater, and some part is smaller
otherwise. -/
def FirstDecides (read : α → β) : List (α × Option α) → Prop
  | [] => True
  | (_, none) :: rest => FirstDecides read rest
  | (bound, some part) :: rest =>
    if part = bound then FirstDecides read rest
    else if bound < part then ∀ pair ∈ (bound, some part) :: rest, ¬ Smaller read pair
    else ∃ pair ∈ (bound, some part) :: rest, Smaller read pair

/-- The second sequence has a greater part where they differ first, and anything behind it. -/
def Raised (parts parts' : List (Option α)) : Prop :=
  ∃ front part part' rest rest', parts = front ++ some part :: rest ∧
    parts' = front ++ some part' :: rest' ∧ part < part'

omit [LinearOrder α] in
/-- A wildcard is not smaller than anything. -/
@[simp] theorem not_smaller_none (read : α → β) (bound : α) : ¬ Smaller read (bound, none) := id

omit [LinearOrder α] in
/-- A part is compared by what it is read as. -/
@[simp] theorem smaller_some_iff (read : α → β) (bound part : α) :
    Smaller read (bound, some part) ↔ read part < read bound := Iff.rfl

/-- Comparing all parts is comparing in the lexicographic order just if the first difference decides. -/
theorem forall_not_smaller_iff_atLeast_iff (read : α → β) (pairs : List (α × Option α)) :
    ((∀ pair ∈ pairs, ¬ Smaller read pair) ↔ AtLeast pairs) ↔ FirstDecides read pairs := by
  induction pairs with
  | nil => simp [AtLeast, FirstDecides]
  | cons pair rest ih =>
    obtain ⟨bound, _ | part⟩ := pair
    · rw [List.forall_mem_cons, and_iff_right (not_smaller_none read bound)]
      exact ih
    · rw [FirstDecides, AtLeast]
      split
      · next hsame =>
        subst hsame
        have hnot : ¬ Smaller read (part, some part) := lt_irrefl (read part)
        rw [List.forall_mem_cons, and_iff_right hnot, or_iff_right (lt_irrefl part), and_iff_right rfl]
        exact ih
      · next hne =>
        split
        · next hlt => rw [iff_true_intro (Or.inl hlt : bound < part ∨ _), iff_true]
        · next hge =>
          have hless : ¬ (bound < part ∨ part = bound ∧ AtLeast rest) :=
            fun h => h.elim hge fun hsame => hne hsame.1
          rw [iff_false_intro hless, iff_false]
          simp only [not_forall, not_not, exists_prop]

/-- A greater part keeps a sequence at least as great as its bounds, whatever the later parts are. -/
theorem AtLeast.raise {bounds : List α} {parts parts' : List (Option α)}
    (h : AtLeast (bounds.zip parts)) (hraised : Raised parts parts') : AtLeast (bounds.zip parts') := by
  obtain ⟨front, part, part', rest, rest', rfl, rfl, hlt⟩ := hraised
  induction front generalizing bounds with
  | nil =>
    cases bounds with
    | nil => exact trivial
    | cons bound bounds =>
      obtain hgreater | ⟨rfl, -⟩ := h
      · exact .inl (lt_trans hgreater hlt)
      · exact .inl hlt
  | cons first front ih =>
    cases bounds with
    | nil => exact trivial
    | cons bound bounds =>
      cases first with
      | none => exact ih h
      | some first => exact h.imp_right fun hsame => ⟨hsame.1, ih hsame.2⟩

end WildcardOrder
