import Mathlib.Data.List.Basic
import Mathlib.Algebra.Order.Ring.Nat
import Mathlib.Data.Nat.Init

/-!
# Cutting a list into parts of a fixed size

Every part but the last is full. Joining the parts in the order of their indices gives the list
back.
-/

namespace Parts

variable {α : Type*}

/-- The part with the given index. -/
def part (size : ℕ) (values : List α) (i : ℕ) : List α := (values.drop (i * size)).take size

/-- The number of parts: the quotient rounded up. -/
def count (size length : ℕ) : ℕ := (length + size - 1) / size

/-- A part is full unless the list ends in it. -/
theorem part_length (size : ℕ) (values : List α) (i : ℕ) :
    (part size values i).length = min size (values.length - i * size) := by
  rw [part, List.length_take, List.length_drop]

/-- The first parts joined are a prefix of the list. -/
theorem flatMap_part (size n : ℕ) (values : List α) :
    (List.range n).flatMap (part size values) = values.take (n * size) := by
  induction n with
  | zero => simp
  | succ n ih =>
    rw [List.range_succ, List.flatMap_append, ih, List.flatMap_singleton, part, Nat.succ_mul,
      List.take_add]

/-- The parts of a list cover it. -/
theorem length_le_count_mul {size length : ℕ} (hsize : 0 < size) :
    length ≤ count size length * size := by
  have hdiv := Nat.div_add_mod (length + size - 1) size
  have hmod := Nat.mod_lt (length + size - 1) hsize
  rw [count, Nat.mul_comm]
  omega

/-- Every part of a list starts inside it. -/
theorem mul_lt_of_lt_count {size length i : ℕ} (hsize : 0 < size) (hi : i < count size length) :
    i * size < length := by
  have hle : (i + 1) * size ≤ length + size - 1 :=
    (Nat.mul_le_mul_right size hi).trans (Nat.div_mul_le_self _ _)
  rw [Nat.succ_mul] at hle
  omega

/-- A non-empty list has at least one part. -/
theorem count_pos {size length : ℕ} (hsize : 0 < size) (hlength : 0 < length) :
    0 < count size length := Nat.div_pos (by omega) hsize

/-- A bound on the length bounds the number of parts. -/
theorem count_le {size length bound : ℕ} (hsize : 0 < size) (h : length ≤ bound * size) :
    count size length ≤ bound := by
  rw [count, Nat.div_le_iff_le_mul_add_pred hsize, Nat.mul_comm]
  omega

/-- The parts in the order of their indices give the list back. -/
theorem flatMap_part_count {size : ℕ} (hsize : 0 < size) (values : List α) :
    (List.range (count size values.length)).flatMap (part size values) = values := by
  rw [flatMap_part, List.take_of_length_le (length_le_count_mul hsize)]

end Parts
