import Mathlib.Data.List.Basic
import Mathlib.Data.List.Pairwise

/-!
# Throttles

A throttle lets an element of a sequence pass if a gap of time has gone by since the last one that passed, and
drops it otherwise. What passes is at least a gap apart, and what is dropped comes less than a gap after
something that passed.
-/

namespace Throttle

variable {α : Type*} (time : α → ℕ) (gap : ℕ)

/-- The elements that pass, after something has passed at the time `last`. -/
def throttle : ℕ → List α → List α
  | _, [] => []
  | last, a :: as =>
    if last + gap ≤ time a then a :: throttle (time a) as else throttle last as

variable {time gap} {last : ℕ} {a : α} {as : List α}

/-- An element passes a gap after the last one. -/
theorem throttle_cons_of_le (h : last + gap ≤ time a) :
    throttle time gap last (a :: as) = a :: throttle time gap (time a) as := if_pos h

/-- An element that comes earlier is dropped. -/
theorem throttle_cons_of_lt (h : time a < last + gap) :
    throttle time gap last (a :: as) = throttle time gap last as := if_neg (Nat.not_le.mpr h)

/-- The elements that pass keep their order. -/
theorem throttle_sublist (time : α → ℕ) (gap last : ℕ) (as : List α) :
    (throttle time gap last as).Sublist as := by
  induction as generalizing last with
  | nil => exact .slnil
  | cons a as ih =>
    unfold throttle
    split
    · exact (ih (time a)).cons_cons a
    · exact (ih last).cons a

/-- If the gap is over for all elements, then one of them passes. -/
theorem throttle_ne_nil (hsome : as ≠ []) (hdue : ∀ a ∈ as, last + gap ≤ time a) :
    throttle time gap last as ≠ [] := by
  cases as with
  | nil => contradiction
  | cons a as =>
    rw [throttle_cons_of_le (hdue a List.mem_cons_self)]
    exact List.cons_ne_nil _ _

/-- What passes later does so a gap after the last one at least. -/
theorem le_time_of_mem (h : a ∈ throttle time gap last as) : last + gap ≤ time a := by
  induction as generalizing last with
  | nil => exact absurd h List.not_mem_nil
  | cons b as ih =>
    unfold throttle at h
    split at h
    next hpass =>
      rcases List.mem_cons.mp h with rfl | hmem
      · exact hpass
      · exact Nat.le_trans hpass (Nat.le_trans (Nat.le_add_right _ gap) (ih hmem))
    next => exact ih h

/-- The elements that pass are at least a gap apart. -/
theorem pairwise_throttle (time : α → ℕ) (gap last : ℕ) (as : List α) :
    (throttle time gap last as).Pairwise fun a b => time a + gap ≤ time b := by
  induction as generalizing last with
  | nil => exact .nil
  | cons a as ih =>
    unfold throttle
    split
    · exact List.pairwise_cons.mpr ⟨fun b hmem => le_time_of_mem hmem, ih (time a)⟩
    · exact ih last

/-- In a sequence in the order of time, each element comes less than a gap after one that has passed, or
passes itself. -/
theorem exists_passed_before (hstart : ∀ a ∈ as, last ≤ time a)
    (hsorted : as.Pairwise fun a b => time a ≤ time b) (hmem : a ∈ as) :
    a ∈ throttle time gap last as ∨
      ∃ t ∈ last :: (throttle time gap last as).map time, t ≤ time a ∧ time a < t + gap := by
  induction as generalizing last with
  | nil => exact absurd hmem List.not_mem_nil
  | cons b as ih =>
    obtain ⟨hfirst, hrest⟩ := List.pairwise_cons.mp hsorted
    by_cases hpass : last + gap ≤ time b
    · rw [throttle_cons_of_le hpass]
      rcases List.mem_cons.mp hmem with rfl | hlater
      · exact .inl List.mem_cons_self
      · rcases ih hfirst hrest hlater with hpassed | ⟨t, ht, hbounds⟩
        · exact .inl (List.mem_cons_of_mem b hpassed)
        · exact .inr ⟨t, List.mem_cons_of_mem last ht, hbounds⟩
    · have hdrop := Nat.not_le.mp hpass
      rw [throttle_cons_of_lt hdrop]
      rcases List.mem_cons.mp hmem with rfl | hlater
      · exact .inr ⟨last, List.mem_cons_self, hstart a List.mem_cons_self, hdrop⟩
      · exact ih (fun a ha => hstart a (List.mem_cons_of_mem b ha)) hrest hlater

end Throttle
