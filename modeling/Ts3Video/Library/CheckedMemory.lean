import Mathlib.Algebra.Group.Int.Defs
import Mathlib.Algebra.Group.Nat.Defs
import Mathlib.Algebra.Order.Ring.Abs
import Mathlib.Algebra.Order.Ring.Int
import Mathlib.Data.Int.Order.Basic
import Mathlib.Data.Nat.Basic
import Mathlib.Tactic.Common
import Ts3Video.Library.Runs

/-!
# Counted loops over checked memory

A loop that counts up executes its body at a sequence of indices. The body has no result where the program has
no defined behaviour, such as a write outside of a block of memory or an overflow. An invariant that every
iteration extends shows that a loop is defined and what it has written.
-/

namespace CheckedMemory

variable {α σ : Type*}

/-- A number that a 32-bit integer can hold. -/
def IsInt (n : ℤ) : Prop := -2 ^ 31 ≤ n ∧ n < 2 ^ 31

/-- The bounds are compared. -/
instance (n : ℤ) : Decidable (IsInt n) := inferInstanceAs (Decidable (_ ∧ _))

/-- Write to a block of memory, which is undefined outside of it. -/
def write (memory : List α) (i : ℕ) (value : α) : Option (List α) :=
  if i < memory.length then some (memory.set i value) else none

/-- Read elements of a block of memory from an index on, which is undefined outside of it. -/
def read (memory : List α) (i count : ℕ) : Option (List α) :=
  if i + count ≤ memory.length then some ((memory.drop i).take count) else none

/-- Write elements to a block of memory from an index on, which is undefined outside of it. -/
def writeAll (memory : List α) (i : ℕ) (values : List α) : Option (List α) :=
  if i + values.length ≤ memory.length then
    some (memory.take i ++ values ++ memory.drop (i + values.length))
  else none

/-- Copy the first elements of a block of memory, which is undefined if it has less of them. -/
def memcpy (memory : List α) (count : ℕ) : Option (List α) :=
  if count ≤ memory.length then some (memory.take count) else none

/-- The number of iterations of a loop from a start up to a limit. -/
def iterations (start limit stride : ℕ) : ℕ := (limit - start + (stride - 1)) / stride

/-- The loop `for (i = start; i < limit; i += stride)`. -/
def forLoop (start limit stride : ℕ) (body : ℕ → σ → Option σ) (s : σ) : Option σ :=
  (List.range (iterations start limit stride)).foldlM (fun s k => body (start + k * stride) s) s

/-- A natural number fits if it is small enough. -/
theorem isInt_natCast {n : ℕ} (h : n < 2 ^ 31) : IsInt n := by
  refine ⟨?_, by exact_mod_cast h⟩
  omega

/-- A factor of a number that can be counted can be counted, up to its sign. -/
theorem abs_le_of_isInt {a b : ℤ} (hb : b ≠ 0) (h : IsInt (a * b)) : |a| ≤ 2 ^ 31 := by
  have hab : |a * b| ≤ 2 ^ 31 := abs_le.mpr ⟨h.1, h.2.le⟩
  calc |a| ≤ |a| * |b| := le_mul_of_one_le_right (abs_nonneg a) (Int.one_le_abs hb)
    _ = |a * b| := (abs_mul a b).symm
    _ ≤ 2 ^ 31 := hab

/-- Memory that is allocated has its size. -/
theorem length_alloc (malloc : ℕ → α) (size : ℕ) : ((List.range size).map malloc).length = size := by
  rw [List.length_map, List.length_range]

/-- What is checked and holds has no effect. -/
theorem guard_bind_of {p : Prop} [Decidable p] (h : p) (f : Unit → Option α) :
    (guard p : Option Unit).bind f = f () := by
  rw [guard, if_pos h]
  rfl

/-- What is checked and does not hold leaves nothing defined. -/
theorem guard_bind_of_not {p : Prop} [Decidable p] (h : ¬ p) (f : Unit → Option α) :
    (guard p : Option Unit).bind f = none := by
  rw [guard, if_neg h]
  rfl

/-- An element in a row and a column of a table is in the table. -/
theorem rowIndex_lt {width height x y : ℕ} (hx : x < width) (hy : y < height) :
    y * width + x < width * height := by
  calc y * width + x < y * width + width := Nat.add_lt_add_left hx _
    _ = (y + 1) * width := (Nat.succ_mul y width).symm
    _ ≤ height * width := Nat.mul_le_mul_right width hy
    _ = width * height := Nat.mul_comm _ _

/-- Rows of one length have the elements of a table. -/
theorem length_flatMap_range {row : ℕ → List α} {width height : ℕ}
    (hrow : ∀ y < height, (row y).length = width) :
    ((List.range height).flatMap row).length = height * width := by
  induction height with
  | zero => rw [Nat.zero_mul]; rfl
  | succ height ih =>
    rw [List.range_succ, List.flatMap_append, List.length_append,
      ih fun y hy => hrow y (Nat.lt_succ_of_lt hy), List.flatMap_singleton,
      hrow height (Nat.lt_succ_self height), Nat.succ_mul]

/-- An element in a row and a column is found at its index in the table. -/
theorem getElem?_flatMap_range {row : ℕ → List α} {width height x y : ℕ}
    (hrow : ∀ y < height, (row y).length = width) (hx : x < width) (hy : y < height) :
    ((List.range height).flatMap row)[y * width + x]? = (row y)[x]? := by
  induction height with
  | zero => exact absurd hy (Nat.not_lt_zero y)
  | succ height ih =>
    have hbefore : ∀ y < height, (row y).length = width := fun y hy => hrow y (Nat.lt_succ_of_lt hy)
    have hlength := length_flatMap_range hbefore
    rw [List.range_succ, List.flatMap_append, List.flatMap_singleton]
    rcases Nat.lt_succ_iff_lt_or_eq.mp hy with hlt | rfl
    · rw [List.getElem?_append_left (by rw [hlength, Nat.mul_comm height]; exact rowIndex_lt hx hlt)]
      exact ih hbefore hlt
    · rw [List.getElem?_append_right (by rw [hlength]; exact Nat.le_add_right _ _), hlength,
        Nat.add_sub_cancel_left]

/-- The first elements of a block of memory are its first rows. -/
theorem take_eq_flatMap_range (memory : List α) (width height : ℕ) :
    memory.take (height * width) =
      (List.range height).flatMap fun y => (memory.drop (y * width)).take width := by
  induction height with
  | zero => rw [Nat.zero_mul]; rfl
  | succ height ih =>
    rw [Nat.succ_mul, List.take_add, ih, List.range_succ, List.flatMap_append, List.flatMap_singleton]

/-- Three elements in a row. -/
theorem take_three {memory : List α} {n : ℕ} {a b c : α} (ha : memory[n]? = some a)
    (hb : memory[n + 1]? = some b) (hc : memory[n + 2]? = some c) : (memory.drop n).take 3 = [a, b, c] := by
  obtain ⟨hn, rfl⟩ := List.getElem?_eq_some_iff.mp ha
  obtain ⟨hn', rfl⟩ := List.getElem?_eq_some_iff.mp hb
  obtain ⟨hn'', rfl⟩ := List.getElem?_eq_some_iff.mp hc
  rw [List.drop_eq_getElem_cons hn, List.drop_eq_getElem_cons hn', List.drop_eq_getElem_cons hn'']
  rfl

/-- A read inside of a block of memory is defined. -/
theorem read_of_le {memory : List α} {i count : ℕ} (h : i + count ≤ memory.length) :
    read memory i count = some ((memory.drop i).take count) := if_pos h

/-- A read that is defined is inside of the block. -/
theorem of_read {memory values : List α} {i count : ℕ} (h : read memory i count = some values) :
    i + count ≤ memory.length ∧ values.length = count := by
  obtain ⟨hle, hvalues⟩ := Option.ite_none_right_eq_some.mp h
  rw [← Option.some.inj hvalues, List.length_take, List.length_drop]
  omega

/-- The elements behind some others are overwritten. -/
theorem writeAll_append (before : List α) {rest values : List α} (h : values.length ≤ rest.length) :
    writeAll (before ++ rest) before.length values = some (before ++ values ++ rest.drop values.length) := by
  have hle : before.length + values.length ≤ (before ++ rest).length := by
    rw [List.length_append]
    omega
  rw [writeAll, if_pos hle, List.take_left, List.drop_length_add_append]

/-- A write that is defined is inside of the block and keeps its length. -/
theorem of_writeAll {memory memory' values : List α} {i : ℕ} (h : writeAll memory i values = some memory') :
    i + values.length ≤ memory.length ∧ memory'.length = memory.length := by
  obtain ⟨hle, hmemory⟩ := Option.ite_none_right_eq_some.mp h
  rw [← Option.some.inj hmemory]
  refine ⟨hle, ?_⟩
  rw [List.length_append, List.length_append, List.length_take, List.length_drop]
  omega

/-- A write inside of a block of memory is defined. -/
theorem write_of_lt {memory : List α} {i : ℕ} (h : i < memory.length) (value : α) :
    write memory i value = some (memory.set i value) := if_pos h

/-- A write keeps the length. -/
theorem write_isSome {memory : List α} {i : ℕ} (h : i < memory.length) (value : α) :
    ∃ memory', write memory i value = some memory' ∧ memory'.length = memory.length :=
  ⟨_, write_of_lt h value, List.length_set⟩

/-- A write that is defined keeps the length. -/
theorem length_of_write {memory memory' : List α} {i : ℕ} {value : α}
    (h : write memory i value = some memory') : memory'.length = memory.length := by
  obtain ⟨-, h⟩ := Option.ite_none_right_eq_some.mp h
  rw [← Option.some.inj h, List.length_set]

/-- A loop with steps of one has as many iterations as there are indices. -/
@[simp] theorem iterations_one (limit : ℕ) : iterations 0 limit 1 = limit := by
  rw [iterations, Nat.sub_zero, Nat.sub_self, Nat.add_zero, Nat.div_one]

/-- A loop up to a multiple of its stride has that multiple as its number of iterations. -/
theorem iterations_mul (count : ℕ) {stride : ℕ} (h : 0 < stride) :
    iterations 0 (count * stride) stride = count := by
  rw [iterations, Nat.sub_zero, Nat.add_comm, Nat.add_mul_div_right _ _ h,
    Nat.div_eq_of_lt (Nat.sub_lt h Nat.one_pos), Nat.zero_add]

/-- What every iteration extends holds at the end of a loop, which is then defined. -/
theorem forLoop_invariant {start limit stride : ℕ} {body : ℕ → σ → Option σ} {s : σ}
    (P : ℕ → σ → Prop)
    (hstep : ∀ k t, k < iterations start limit stride → P k t →
      ∃ t', body (start + k * stride) t = some t' ∧ P (k + 1) t')
    (hinit : P 0 s) :
    ∃ t, forLoop start limit stride body s = some t ∧ P (iterations start limit stride) t := by
  rw [forLoop]
  generalize iterations start limit stride = count at hstep ⊢
  induction count with
  | zero => exact ⟨s, rfl, hinit⟩
  | succ count ih =>
    obtain ⟨t, hrun, ht⟩ := ih fun k t hk => hstep k t (Nat.lt_succ_of_lt hk)
    obtain ⟨t', hbody, ht'⟩ := hstep count t (Nat.lt_succ_self count) ht
    refine ⟨t', ?_, ht'⟩
    rw [List.range_succ, List.foldlM_append, hrun]
    simp [hbody]

/-- What every iteration extends holds at the end of a loop over all indices below a limit. -/
theorem forLoop_one_invariant {limit : ℕ} {body : ℕ → σ → Option σ} {s : σ} (P : ℕ → σ → Prop)
    (hstep : ∀ k t, k < limit → P k t → ∃ t', body k t = some t' ∧ P (k + 1) t') (hinit : P 0 s) :
    ∃ t, forLoop 0 limit 1 body s = some t ∧ P limit t := by
  have h : ∃ t, forLoop 0 limit 1 body s = some t ∧ P (iterations 0 limit 1) t := by
    refine forLoop_invariant P (fun k t hk ht => ?_) hinit
    rw [iterations_one] at hk
    rw [Nat.zero_add, Nat.mul_one]
    exact hstep k t hk ht
  rwa [iterations_one] at h

/-- What every iteration keeps holds at the end of a loop. -/
theorem forLoop_preserves {start limit stride : ℕ} {body : ℕ → σ → Option σ} {s t : σ} (P : σ → Prop)
    (hstep : ∀ k s t, P s → body k s = some t → P t) (hs : P s)
    (hrun : forLoop start limit stride body s = some t) : P t :=
  Runs.foldlM_invariant (fun s k t hs h => hstep (start + k * stride) s t hs h) _ hs hrun

/-- In a loop that is defined every iteration is, in a state to which the iterations before it lead. -/
theorem forLoop_one_visited {limit : ℕ} {body : ℕ → σ → Option σ} {s t : σ} (P : ℕ → σ → Prop)
    (hstep : ∀ k s t, P k s → body k s = some t → P (k + 1) t) (hinit : P 0 s)
    (hrun : forLoop 0 limit 1 body s = some t) {k : ℕ} (hk : k < limit) :
    ∃ s' t', P k s' ∧ body k s' = some t' := by
  rw [forLoop, iterations_one] at hrun
  simp only [Nat.zero_add, Nat.mul_one] at hrun
  obtain ⟨later, rfl⟩ : ∃ later, limit = k + 1 + later := ⟨limit - (k + 1), by omega⟩
  rw [List.range_add, List.foldlM_append] at hrun
  obtain ⟨u, hfirst, -⟩ := Option.bind_eq_some_iff.mp hrun
  rw [List.range_succ, List.foldlM_append] at hfirst
  obtain ⟨s', hbefore, hbody⟩ := Option.bind_eq_some_iff.mp hfirst
  refine ⟨s', u, ?_, by simpa using hbody⟩
  clear hfirst hbody hrun hk
  induction k generalizing s' with
  | zero => exact Option.some.inj hbefore ▸ hinit
  | succ k ih =>
    rw [List.range_succ, List.foldlM_append] at hbefore
    obtain ⟨s'', hbefore', hbody'⟩ := Option.bind_eq_some_iff.mp hbefore
    exact hstep k s'' s' (ih s'' hbefore') (by simpa using hbody')

/-- A loop is undefined if one of its iterations is undefined in every state. -/
theorem forLoop_eq_none {start limit stride : ℕ} {body : ℕ → σ → Option σ} {k : ℕ}
    (hk : k < iterations start limit stride) (hbody : ∀ t, body (start + k * stride) t = none) (s : σ) :
    forLoop start limit stride body s = none := by
  rw [forLoop]
  obtain ⟨before, after, hsplit⟩ := List.append_of_mem (List.mem_range.mpr hk)
  rw [hsplit, List.foldlM_append]
  cases before.foldlM (fun s k => body (start + k * stride) s) s with
  | none => rfl
  | some t => simp [hbody]

/-- A loop over all indices below a limit is undefined if one of its iterations is undefined in every state.
-/
theorem forLoop_one_eq_none {limit : ℕ} {body : ℕ → σ → Option σ} {k : ℕ} (hk : k < limit)
    (hbody : ∀ t, body k t = none) (s : σ) : forLoop 0 limit 1 body s = none := by
  refine forLoop_eq_none (by rwa [iterations_one]) (fun t => ?_) s
  rw [Nat.zero_add, Nat.mul_one]
  exact hbody t

/-- A loop whose iterations change nothing changes nothing. -/
theorem forLoop_one_eq_self {limit : ℕ} {body : ℕ → σ → Option σ} {s : σ} (hbody : ∀ k, body k s = some s) :
    forLoop 0 limit 1 body s = some s := by
  have hstep : ∀ k t, k < limit → t = s → ∃ t', body k t = some t' ∧ t' = s := by
    rintro k t - rfl
    exact ⟨t, hbody k, rfl⟩
  obtain ⟨t, hrun, rfl⟩ := forLoop_one_invariant (fun _ t => t = s) hstep rfl
  exact hrun

/-- A block of memory whose first elements were written, and nothing else. -/
structure Written (old new : List α) (count : ℕ) (value : ℕ → α) : Prop where
  length_eq : new.length = old.length
  inside : ∀ n < count, new[n]? = some (value n)
  outside : ∀ n, count ≤ n → new[n]? = old[n]?

/-- At first nothing is written. -/
theorem Written.refl (old : List α) (value : ℕ → α) : Written old old 0 value :=
  ⟨rfl, fun n hn => absurd hn (Nat.not_lt_zero n), fun _ _ => rfl⟩

/-- A write behind the written elements is inside of the block. -/
theorem Written.lt_length {old new : List α} {count n : ℕ} {value : ℕ → α} (h : Written old new count value)
    (hn : n < old.length) : n < new.length := h.length_eq.symm ▸ hn

/-- The next element is written. -/
theorem Written.set_next {old new : List α} {count : ℕ} {value : ℕ → α} (h : Written old new count value)
    (hcount : count < old.length) : Written old (new.set count (value count)) (count + 1) value := by
  refine ⟨?_, fun n hn => ?_, fun n hn => ?_⟩
  · rw [List.length_set, h.length_eq]
  · rcases Nat.lt_succ_iff_lt_or_eq.mp hn with hlt | rfl
    · rw [List.getElem?_set_ne (Nat.ne_of_gt hlt), h.inside n hlt]
    · rw [List.getElem?_set_self (h.lt_length hcount)]
  · rw [List.getElem?_set_ne (Nat.ne_of_lt hn), h.outside n (Nat.le_of_succ_le hn)]

end CheckedMemory
