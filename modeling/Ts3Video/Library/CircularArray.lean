import Mathlib.Algebra.Group.Fin.Basic
import Mathlib.Algebra.GroupWithZero.Nat
import Mathlib.Logic.Function.Basic

/-!
# Circular arrays

The cells of an array are arranged in a circle. A position where the contents start and one where they stop
make a list: nothing if both are the same, so that one cell of the circle always stays unused.
-/

namespace CircularArray

variable {α : Type*} {n : ℕ}

/-- Some cells in a row, from a given one on. -/
def cells (f : Fin (n + 1) → α) : Fin (n + 1) → ℕ → List α
  | _, 0 => []
  | start, count + 1 => f start :: cells f (start + 1) count

/-- The cells from the start up to the stop, which is left out. -/
def contents (f : Fin (n + 1) → α) (start stop : Fin (n + 1)) : List α :=
  cells f start (stop - start).val

/-- There are as many cells as were asked for. -/
@[simp] theorem cells_length (f : Fin (n + 1) → α) (start : Fin (n + 1)) (count : ℕ) :
    (cells f start count).length = count := by
  induction count generalizing start with
  | zero => rfl
  | succ count ih => rw [cells, List.length_cons, ih]

/-- Nothing lies between a position and itself. -/
@[simp] theorem contents_self (f : Fin (n + 1) → α) (start : Fin (n + 1)) :
    contents f start start = [] := by
  rw [contents, sub_self]
  rfl

/-- One step further there is one cell more, unless the circle is closed. -/
theorem val_sub_add_one {start stop : Fin (n + 1)} (h : stop + 1 ≠ start) :
    (stop + 1 - start).val = (stop - start).val + 1 := by
  rw [add_sub_right_comm, Fin.val_add_one, if_neg]
  intro hlast
  refine h (sub_eq_zero.mp ?_)
  rw [add_sub_right_comm, hlast, Fin.last_add_one]

/-- The first cell comes first. -/
theorem contents_eq_cons {start stop : Fin (n + 1)} (h : start ≠ stop) (f : Fin (n + 1) → α) :
    contents f start stop = f start :: contents f (start + 1) stop := by
  have hcount : (stop - start).val = (stop - (start + 1)).val + 1 := by
    have hstep : stop - (start + 1) + 1 = stop - start := by rw [← sub_sub, sub_add_cancel]
    have hopen : stop - (start + 1) + 1 ≠ 0 := fun hclosed =>
      h (sub_eq_zero.mp (hstep.symm.trans hclosed)).symm
    have hval := val_sub_add_one hopen
    rwa [sub_zero, sub_zero, hstep] at hval
  rw [contents, hcount]
  rfl

/-- The start of the contents is moved back from the stop, cell by cell. -/
theorem start_induction {P : Fin (n + 1) → Prop} {stop : Fin (n + 1)} (hstop : P stop)
    (hback : ∀ start, start ≠ stop → P (start + 1) → P start) (start : Fin (n + 1)) : P start := by
  generalize hcount : (stop - start).val = count
  induction count generalizing start with
  | zero =>
    have hsame : stop = start := sub_eq_zero.mp (Fin.ext hcount)
    exact hsame ▸ hstop
  | succ count ih =>
    have hne : start ≠ stop := by
      rintro rfl
      rw [sub_self] at hcount
      exact absurd hcount.symm (Nat.succ_ne_zero count)
    refine hback start hne (ih (start + 1) ?_)
    have hlength := congrArg List.length (contents_eq_cons hne fun cell => cell)
    rw [List.length_cons, contents, contents, cells_length, cells_length, hcount] at hlength
    exact (Nat.succ.inj hlength).symm

/-- The cell at the stop belongs to no contents. -/
theorem contents_update (f : Fin (n + 1) → α) (start stop : Fin (n + 1)) (x : α) :
    contents (Function.update f stop x) start stop = contents f start stop := by
  induction start using start_induction with
  | hstop => rw [contents_self, contents_self]
  | hback start hne ih => rw [contents_eq_cons hne, contents_eq_cons hne, ih, Function.update_of_ne hne]

/-- Moving the stop adds the cell it was at, unless the circle is closed. -/
theorem contents_stop_add_one (f : Fin (n + 1) → α) {start stop : Fin (n + 1)} (h : stop + 1 ≠ start) :
    contents f start (stop + 1) = contents f start stop ++ [f stop] := by
  induction start using start_induction with
  | hstop => rw [contents_eq_cons h.symm, contents_self, contents_self, List.nil_append]
  | hback start hne ih =>
    rw [contents_eq_cons h.symm, contents_eq_cons hne, ih fun hsame => hne (add_right_cancel hsame).symm,
      List.cons_append]

/-- What is stored at the stop comes last, as long as a cell stays unused. -/
theorem contents_store (f : Fin (n + 1) → α) {start stop : Fin (n + 1)} (h : stop + 1 ≠ start) (x : α) :
    contents (Function.update f stop x) start (stop + 1) = contents f start stop ++ [x] := by
  rw [contents_stop_add_one _ h, contents_update, Function.update_self]

/-- Storing in the last unused cell drops the oldest one. -/
theorem contents_overwrite (f : Fin (n + 1) → α) (stop : Fin (n + 1)) (x : α) :
    contents (Function.update f stop x) (stop + 1 + 1) (stop + 1) =
      (contents f (stop + 1) stop ++ [x]).tail := by
  by_cases hone : stop + 1 = stop
  · rw [hone, hone, contents_self, contents_self]
    rfl
  · have hopen : stop + 1 ≠ stop + 1 + 1 := fun hsame => hone (add_right_cancel hsame).symm
    rw [contents_store _ hopen, contents_eq_cons hone]
    rfl

/-- All cells but one are in use just if a step of the stop closes the circle. -/
theorem contents_length_lt_iff (f : Fin (n + 1) → α) (start stop : Fin (n + 1)) :
    (contents f start stop).length < n ↔ stop + 1 ≠ start := by
  rw [contents, cells_length]
  constructor
  · rintro hlt rfl
    rw [sub_add_cancel_left, ← Fin.neg_last, neg_neg, Fin.val_last] at hlt
    exact lt_irrefl n hlt
  · intro hopen
    have hval := val_sub_add_one hopen
    have hlt := (stop + 1 - start).isLt
    omega

end CircularArray
