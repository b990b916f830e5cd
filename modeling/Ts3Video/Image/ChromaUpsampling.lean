import Mathlib.Algebra.Order.Field.Rat
import Mathlib.Tactic.NormNum
import Ts3Video.Library.CheckedMemory

/-!
# Upsampling of the chrominance

The planes of the chrominance have half the width and half the height of a frame, rounded down. The filter
that doubles them rounds up. All of its accesses are inside of its planes exactly if both sizes are even and
small enough for the arithmetic of its indices.
-/

namespace Ts3Video

open CheckedMemory

/-- The arithmetic of floating-point numbers, with the coefficients of the filter. -/
structure FloatArithmetic (F : Type) where
  zero : F
  half : F
  kernel : ℕ → F
  ofByte : UInt8 → F
  add : F → F → F
  mul : F → F → F
  div : F → F → F
  toFloat : F → F
  toInt : F → ℤ

namespace ImageUtil

/-- The number of coefficients on either side of the middle one. -/
def KERNEL_SIZE : ℕ := 4

/-- Restrict a number to the range of a byte. -/
def clamp (vv : ℤ) : ℤ := if vv < 0 then 0 else if 255 < vv then 255 else vv

variable {F : Type} (A : FloatArithmetic F)

/-- A weighted sum with its weight. -/
structure WeightedSum (F : Type) where
  sum : F
  weight : F

/-- Add an element with its coefficient. -/
def WeightedSum.step (s : WeightedSum F) (k : ℕ) (value : F) : WeightedSum F :=
  ⟨A.add s.sum (A.mul (A.kernel k) value), A.add s.weight (A.kernel k)⟩

/-- The sum starts with the middle element at even positions. -/
def startSum (middle : Option F) (d : ℕ) : Option (WeightedSum F) :=
  if d = 0 then middle.map fun value => ⟨A.mul (A.kernel 0) value, A.kernel 0⟩ else some ⟨A.zero, A.zero⟩

/-- Add the element on the left if there is one. -/
def stepLeft (load : ℕ → Option F) (i k : ℕ) (s : WeightedSum F) : Option (WeightedSum F) :=
  let x : ℤ := ((i : ℤ) - k).tdiv 2
  if 0 ≤ x then (load x.toNat).map (s.step A k) else some s

/-- Add the element on the right if there is one. -/
def stepRight (load : ℕ → Option F) (size : ℤ) (i k : ℕ) (s : WeightedSum F) : Option (WeightedSum F) := do
  guard (IsInt (i + k))
  let x := (i + k) / 2
  if x < size then (load x).map (s.step A k) else some s

/-- Step out from the middle, to the left and to the right. -/
def stepOut (load : ℕ → Option F) (size : ℤ) (i k : ℕ) (s : WeightedSum F) : Option (WeightedSum F) :=
  (stepLeft A load i k s).bind (stepRight A load size i k)

/-- The mean of the elements around a position of the output. -/
def convolve (middle : Option F) (load : ℕ → Option F) (size : ℤ) (i : ℕ) : Option F := do
  let d := i % 2
  let start ← startSum A middle d
  let s ← forLoop (2 - d) (KERNEL_SIZE + 1) 2 (stepOut A load size i) start
  some (A.div s.sum s.weight)

/-- Interpolate a row of the input horizontally. -/
def horizontal (plane : List UInt8) (in_stride : ℕ) (in_w : ℤ) (out_w j i : ℕ) (t_buf : List F) :
    Option (List F) := do
  let load := fun x => plane[j * in_stride + x]?.map A.ofByte
  let value ← convolve A (load (i / 2)) load in_w i
  write t_buf (j * out_w + i) (A.toFloat value)

/-- An element of a column of the temporary rows. -/
def loadColumn (t_buf : List F) (out_w i y : ℕ) : Option F := do
  guard (IsInt (out_w * y))
  t_buf[i + out_w * y]?

/-- The middle element of a column of the temporary rows. -/
def loadMiddle (t_buf : List F) (out_w i j : ℕ) : Option F := do
  guard (IsInt (out_w * j))
  t_buf[i + out_w * j / 2]?

/-- Interpolate a column of the temporary rows vertically. -/
def vertical (t_buf : List F) (in_h : ℤ) (out_w i j : ℕ) (out : List UInt8) : Option (List UInt8) := do
  let value ← convolve A (loadMiddle t_buf out_w i j) (loadColumn t_buf out_w i) in_h j
  write out (i + j * out_w) (UInt8.ofNat (clamp (A.toInt (A.add value A.half))).toNat)

/-- Interpolate all rows of the input. -/
def horizontalPass (plane : List UInt8) (in_stride : ℕ) (in_w : ℤ) (in_h out_w : ℕ) (t_buf : List F) :
    Option (List F) :=
  forLoop 0 in_h 1 (fun j => forLoop 0 out_w 1 (horizontal A plane in_stride in_w out_w j)) t_buf

/-- Interpolate all columns of the temporary rows. -/
def verticalPass (t_buf : List F) (in_h : ℤ) (out_w out_h : ℕ) (out : List UInt8) : Option (List UInt8) :=
  forLoop 0 out_w 1 (fun i => forLoop 0 out_h 1 (vertical A t_buf in_h out_w i)) out

/-- Double the size of a plane. The memory for the temporary rows has arbitrary content. -/
def lanczosInterp2 (memory : ℕ → F) (plane out : List UInt8) (in_stride : ℕ) (out_w out_h : ℤ) :
    Option (List UInt8) := do
  guard (IsInt (out_w + 1))
  guard (IsInt (out_h + 1))
  let in_w := (out_w + 1).tdiv 2
  let in_h := (out_h + 1).tdiv 2
  let t_buf := (List.range (in_h.toNat * out_w.toNat)).map memory
  let t_buf ← horizontalPass A plane in_stride in_w in_h.toNat out_w.toNat t_buf
  verticalPass A t_buf in_h out_w.toNat out_h.toNat out

end ImageUtil

/-- A frame: the planes of the chrominance have half its width and half its height. -/
structure YuvFrame where
  width : UInt32
  height : UInt32
  y : List UInt8
  u : List UInt8
  v : List UInt8
  y_length : y.length = width.toNat * height.toNat
  u_length : u.length = width.toNat / 2 * (height.toNat / 2)
  v_length : v.length = width.toNat / 2 * (height.toNat / 2)

/-- Double the size of a plane of the chrominance. The plane has its size in 32-bit arithmetic and arbitrary
content. -/
def YuvFrame.upsample {F : Type} (A : FloatArithmetic F) (memory : ℕ → F) (malloc : ℕ → UInt8) (f : YuvFrame)
    (plane : List UInt8) : Option (List UInt8) :=
  ImageUtil.lanczosInterp2 A memory plane ((List.range (f.width * f.height).toNat).map malloc)
    (f.width.toNat / 2) f.width.toInt32.toInt f.height.toInt32.toInt

namespace ImageUtil

variable {F : Type} {A : FloatArithmetic F}

/-- The loop that steps out has two iterations. -/
theorem iterations_stepOut (i : ℕ) : iterations (2 - i % 2) (KERNEL_SIZE + 1) 2 = 2 := by
  rcases Nat.mod_two_eq_zero_or_one i with h | h
  · rw [h]
    rfl
  · rw [h]
    rfl

/-- A step to the left is defined if the input is. -/
theorem stepLeft_isSome {load : ℕ → Option F} {size i : ℕ} (hload : ∀ x < size, (load x).isSome)
    (hi : i < 2 * size) (k : ℕ) (s : WeightedSum F) : ∃ s', stepLeft A load i k s = some s' := by
  rw [stepLeft]
  have hlt : (((i : ℤ) - k).tdiv 2).toNat < size := by
    rcases Nat.lt_or_ge i k with hlt | hge
    · have hneg : ((k : ℤ) - i).tdiv 2 ≥ 0 := Int.tdiv_nonneg (by omega) (by omega)
      rw [← Int.neg_sub, Int.neg_tdiv]
      omega
    · rw [Int.tdiv_eq_ediv_of_nonneg (by omega)]
      omega
  split
  · exact Option.isSome_iff_exists.mp (by simpa using hload _ hlt)
  · exact ⟨s, rfl⟩

/-- A step to the right is defined if the input is. -/
theorem stepRight_isSome {load : ℕ → Option F} {size i k : ℕ} (hload : ∀ x < size, (load x).isSome)
    (hint : i + k < 2 ^ 31) (s : WeightedSum F) : ∃ s', stepRight A load size i k s = some s' := by
  have hguard : IsInt (i + k) := by exact_mod_cast isInt_natCast hint
  simp only [stepRight, guard, hguard, if_true, Option.bind_eq_bind, Option.pure_def, Option.bind_some]
  split
  · next hx => exact Option.isSome_iff_exists.mp (by simpa using hload _ (by exact_mod_cast hx))
  · exact ⟨s, rfl⟩

/-- The mean is defined if the middle element is, and all elements of the input. -/
theorem convolve_isSome {middle : Option F} {load : ℕ → Option F} {size i : ℕ}
    (hmiddle : i % 2 = 0 → middle.isSome) (hload : ∀ x < size, (load x).isSome) (hi : i < 2 * size)
    (hint : i + (4 - i % 2) < 2 ^ 31) : ∃ value, convolve A middle load size i = some value := by
  obtain ⟨start, hstart⟩ : ∃ start, startSum A middle (i % 2) = some start := by
    rw [startSum]
    split
    · next heven => exact Option.isSome_iff_exists.mp (by simpa using hmiddle heven)
    · exact ⟨_, rfl⟩
  have hstep : ∀ k (s : WeightedSum F), k < iterations (2 - i % 2) (KERNEL_SIZE + 1) 2 → True →
      ∃ s', stepOut A load size i (2 - i % 2 + k * 2) s = some s' ∧ True := by
    intro k s hk _
    rw [iterations_stepOut] at hk
    obtain ⟨t, hleft⟩ := stepLeft_isSome hload hi (2 - i % 2 + k * 2) s
    obtain ⟨s', hright⟩ := stepRight_isSome hload (by omega : i + (2 - i % 2 + k * 2) < 2 ^ 31) t
    exact ⟨s', by rw [stepOut, hleft, Option.bind_some, hright], trivial⟩
  obtain ⟨s, hrun, -⟩ := forLoop_invariant (fun _ _ => True) hstep (s := start) trivial
  refine ⟨A.div s.sum s.weight, ?_⟩
  simp only [convolve, hstart, Option.bind_eq_bind, Option.bind_some, hrun]

section Even

variable {m n : ℕ}

/-- A position of a temporary row is interpolated inside of the buffers. -/
theorem horizontal_isSome {plane : List UInt8} {t_buf : List F} (hplane : plane.length = m * n)
    (ht : t_buf.length = n * (2 * m)) (hsize : 2 * m + 2 < 2 ^ 31) {i j : ℕ} (hi : i < 2 * m) (hj : j < n) :
    ∃ t_buf', horizontal A plane m m (2 * m) j i t_buf = some t_buf' ∧ t_buf'.length = n * (2 * m) := by
  have hload : ∀ x < m, (plane[j * m + x]?.map A.ofByte).isSome := by
    intro x hx
    rw [Option.isSome_map, List.getElem?_eq_getElem (hplane ▸ rowIndex_lt hx hj)]
    rfl
  obtain ⟨value, hvalue⟩ := convolve_isSome (A := A) (i := i) (fun _ => hload (i / 2) (by omega)) hload hi
    (by omega)
  have hindex : j * (2 * m) + i < t_buf.length := by
    rw [ht, Nat.mul_comm n]
    exact rowIndex_lt hi hj
  obtain ⟨t_buf', hwrite, hlength⟩ := write_isSome hindex (A.toFloat value)
  refine ⟨t_buf', ?_, hlength.trans ht⟩
  simp only [horizontal, hvalue, Option.bind_eq_bind, Option.bind_some, hwrite]

/-- A position of the output is interpolated inside of the buffers. -/
theorem vertical_isSome {t_buf : List F} {out : List UInt8} (ht : t_buf.length = n * (2 * m))
    (hout : out.length = 2 * m * (2 * n)) (hsize : 2 * m * (2 * n - 2) < 2 ^ 31) {i j : ℕ} (hi : i < 2 * m)
    (hj : j < 2 * n) :
    ∃ out', vertical A t_buf n (2 * m) i j out = some out' ∧ out'.length = 2 * m * (2 * n) := by
  have hget {y : ℕ} (hy : y < n) : (t_buf[i + 2 * m * y]?).isSome := by
    have hindex : i + 2 * m * y < t_buf.length := by
      rw [ht, Nat.mul_comm n, Nat.add_comm, Nat.mul_comm _ y]
      exact rowIndex_lt hi hy
    rw [List.getElem?_eq_getElem hindex]
    rfl
  have hrow {y : ℕ} (hy : y ≤ 2 * n - 2) : IsInt ((2 * m : ℕ) * y) := by
    exact_mod_cast isInt_natCast (Nat.lt_of_le_of_lt (Nat.mul_le_mul_left _ hy) hsize)
  have hload : ∀ y < n, (loadColumn t_buf (2 * m) i y).isSome := by
    intro y hy
    rw [loadColumn, guard, if_pos (hrow (by omega))]
    exact hget hy
  have hmiddle : j % 2 = 0 → (loadMiddle t_buf (2 * m) i j).isSome := by
    intro heven
    have hhalf : 2 * m * j / 2 = 2 * m * (j / 2) := Nat.mul_div_assoc _ (Nat.dvd_of_mod_eq_zero heven)
    rw [loadMiddle, guard, if_pos (hrow (by omega)), hhalf]
    exact hget (by omega)
  have hint : j + (4 - j % 2) < 2 ^ 31 := by
    have hle : 2 * (2 * n - 2) ≤ 2 * m * (2 * n - 2) := Nat.mul_le_mul_right _ (by omega)
    omega
  obtain ⟨value, hvalue⟩ := convolve_isSome (A := A) hmiddle hload hj hint
  have hindex : i + j * (2 * m) < out.length := by
    rw [hout, Nat.add_comm]
    exact rowIndex_lt hi hj
  obtain ⟨out', hwrite, hlength⟩ := write_isSome hindex
    (UInt8.ofNat (clamp (A.toInt (A.add value A.half))).toNat)
  refine ⟨out', ?_, hlength.trans hout⟩
  simp only [vertical, hvalue, Option.bind_eq_bind, Option.bind_some, hwrite]

/-- The rows are interpolated inside of the buffers. -/
theorem horizontalPass_isSome {plane : List UInt8} {t_buf : List F} (hplane : plane.length = m * n)
    (ht : t_buf.length = n * (2 * m)) (hsize : 2 * m + 2 < 2 ^ 31) :
    ∃ t_buf', horizontalPass A plane m m n (2 * m) t_buf = some t_buf' ∧ t_buf'.length = n * (2 * m) :=
  forLoop_one_invariant (fun _ (t : List F) => t.length = n * (2 * m)) (fun _ _ hj ht =>
    forLoop_one_invariant (fun _ (t : List F) => t.length = n * (2 * m)) (fun _ _ hi ht =>
      horizontal_isSome hplane ht hsize hi hj) ht) ht

/-- The columns are interpolated inside of the buffers. -/
theorem verticalPass_isSome {t_buf : List F} {out : List UInt8} (ht : t_buf.length = n * (2 * m))
    (hout : out.length = 2 * m * (2 * n)) (hsize : 2 * m * (2 * n - 2) < 2 ^ 31) :
    ∃ out', verticalPass A t_buf n (2 * m) (2 * n) out = some out' ∧ out'.length = 2 * m * (2 * n) :=
  forLoop_one_invariant (fun _ (out : List UInt8) => out.length = 2 * m * (2 * n)) (fun _ _ hi hout =>
    forLoop_one_invariant (fun _ (out : List UInt8) => out.length = 2 * m * (2 * n)) (fun _ _ hj hout =>
      vertical_isSome ht hout hsize hi hj) hout) hout

/-- A plane is doubled inside of the buffers. -/
theorem lanczosInterp2_isSome (memory : ℕ → F) {plane out : List UInt8} (hplane : plane.length = m * n)
    (hout : out.length = 2 * m * (2 * n)) (hwidth : 2 * m + 2 < 2 ^ 31) (hm : 0 < m)
    (hsize : 2 * m * (2 * n - 2) < 2 ^ 31) :
    ∃ out', lanczosInterp2 A memory plane out m (2 * m : ℕ) (2 * n : ℕ) = some out' ∧
      out'.length = 2 * m * (2 * n) := by
  have hheight : 2 * n + 1 < 2 ^ 31 := by
    have hle : 2 * (2 * n - 2) ≤ 2 * m * (2 * n - 2) := Nat.mul_le_mul_right _ (by omega)
    omega
  have hw : IsInt ((2 * m : ℕ) + 1) := by exact_mod_cast isInt_natCast (by omega : 2 * m + 1 < 2 ^ 31)
  have hh : IsInt ((2 * n : ℕ) + 1) := by exact_mod_cast isInt_natCast hheight
  have hin_w : (((2 * m : ℕ) : ℤ) + 1).tdiv 2 = m := by
    rw [Int.tdiv_eq_ediv_of_nonneg (by omega)]
    omega
  have hin_h : (((2 * n : ℕ) : ℤ) + 1).tdiv 2 = n := by
    rw [Int.tdiv_eq_ediv_of_nonneg (by omega)]
    omega
  have ht := length_alloc memory (n * (2 * m))
  obtain ⟨t_buf, hrows, ht⟩ := horizontalPass_isSome (A := A) hplane ht hwidth
  obtain ⟨out', hcolumns, hlength⟩ := verticalPass_isSome (A := A) ht hout hsize
  refine ⟨out', ?_, hlength⟩
  simp only [lanczosInterp2, guard, hw, hh, if_true, Option.pure_def, Option.bind_eq_bind, Option.bind_some,
    hin_w, hin_h, Int.toNat_natCast, hrows, hcolumns]

end Even

/-- The mean is undefined if the middle element is. -/
theorem convolve_eq_none_of_middle {load : ℕ → Option F} {size : ℤ} {i : ℕ} (heven : i % 2 = 0) :
    convolve A none load size i = none := by
  simp [convolve, startSum, heven]

/-- The mean is undefined at an odd position if the last position to its right overflows. -/
theorem convolve_eq_none_of_overflow {middle : Option F} {load : ℕ → Option F} {size : ℤ} {i : ℕ}
    (hodd : i % 2 = 1) (hlarge : 2 ^ 31 ≤ i + 3) : convolve A middle load size i = none := by
  have hstep (s : WeightedSum F) : stepOut A load size i (2 - i % 2 + 1 * 2) s = none := by
    have hoverflow : ¬ IsInt ((i : ℤ) + (2 - i % 2 + 1 * 2 : ℕ)) := by
      rw [hodd, IsInt]
      omega
    rw [stepOut]
    cases stepLeft A load i (2 - i % 2 + 1 * 2) s with
    | none => rfl
    | some t =>
      rw [Option.bind_some, stepRight, Option.bind_eq_bind]
      exact guard_bind_of_not hoverflow _
  have hone : 1 < iterations (2 - i % 2) (KERNEL_SIZE + 1) 2 := by
    rw [iterations_stepOut]
    exact Nat.one_lt_two
  have hstart : startSum A middle (i % 2) = some ⟨A.zero, A.zero⟩ := by
    rw [startSum, hodd]
    rfl
  simp only [convolve, hstart, Option.bind_eq_bind, Option.bind_some, forLoop_eq_none hone hstep,
    Option.bind_none]

/-- The rows are undefined if one of their positions is. -/
theorem horizontalPass_eq_none {plane : List UInt8} {in_stride in_h out_w i j : ℕ} {in_w : ℤ}
    (hj : j < in_h) (hi : i < out_w)
    (h : convolve A (plane[j * in_stride + i / 2]?.map A.ofByte)
      (fun x => plane[j * in_stride + x]?.map A.ofByte) in_w i = none) (t_buf : List F) :
    horizontalPass A plane in_stride in_w in_h out_w t_buf = none :=
  forLoop_one_eq_none hj (fun t => forLoop_one_eq_none hi (fun t => by
    simp only [horizontal, h, Option.bind_eq_bind, Option.bind_none]) t) t_buf

/-- A plane that is doubled has sizes that can be rounded up, and its rows and columns are interpolated. -/
theorem passes_of_lanczosInterp2 {memory : ℕ → F} {plane out out' : List UInt8} {in_stride w h : ℕ}
    (hrun : lanczosInterp2 A memory plane out in_stride w h = some out') :
    w + 1 < 2 ^ 31 ∧ h + 1 < 2 ^ 31 ∧ ∃ t t_buf,
      horizontalPass A plane in_stride ((w + 1) / 2 : ℕ) ((h + 1) / 2) w t = some t_buf ∧
      verticalPass A t_buf ((h + 1) / 2 : ℕ) w h out = some out' := by
  have hround (n : ℕ) : ((n : ℤ) + 1).tdiv 2 = ((n + 1) / 2 : ℕ) := by
    rw [Int.tdiv_eq_ediv_of_nonneg (by omega)]
    omega
  simp only [lanczosInterp2, hround, Int.toNat_natCast, Option.bind_eq_bind, Option.bind_eq_some_iff,
    Option.guard_eq_some'] at hrun
  obtain ⟨-, hw, -, hh, t_buf, hrows, hcolumns⟩ := hrun
  have hw := hw.2
  have hh := hh.2
  exact ⟨by omega, by omega, _, t_buf, hrows, hcolumns⟩

/-- The columns are undefined if the row of an even position overflows. -/
theorem verticalPass_eq_none {t_buf : List F} {in_h : ℤ} {out_w out_h j : ℕ} (hw : 0 < out_w) (hj : j < out_h)
    (heven : j % 2 = 0) (hlarge : 2 ^ 31 ≤ out_w * j) (out : List UInt8) :
    verticalPass A t_buf in_h out_w out_h out = none := by
  have hoverflow : ¬ IsInt ((out_w : ℤ) * j) := fun h => Nat.not_lt.mpr hlarge (by exact_mod_cast h.2)
  have hmiddle : loadMiddle t_buf out_w 0 j = none := by
    rw [loadMiddle, Option.bind_eq_bind]
    exact guard_bind_of_not hoverflow _
  refine forLoop_one_eq_none hw (fun t => forLoop_one_eq_none hj (fun t => ?_) t) out
  rw [vertical, hmiddle, convolve_eq_none_of_middle heven]
  rfl

/-- A plane with even sizes is doubled inside of the buffers if the indices do not overflow. -/
theorem lanczosInterp2_of_even (memory : ℕ → F) {plane out : List UInt8} {w h : ℕ} (hw : 0 < w) (hh : 0 < h)
    (hplane : plane.length = w / 2 * (h / 2)) (hout : out.length = w * h % 2 ^ 32) (hwidth : w % 2 = 0)
    (hheight : h % 2 = 0) (hsize : w + 2 < 2 ^ 31) (hproduct : w * (h - 2) < 2 ^ 31) :
    ∃ out', lanczosInterp2 A memory plane out (w / 2) w h = some out' ∧ out'.length = w * h := by
  obtain ⟨m, rfl⟩ := Nat.dvd_of_mod_eq_zero hwidth
  obtain ⟨n, rfl⟩ := Nat.dvd_of_mod_eq_zero hheight
  have hbytes : 2 * m * (2 * n) < 2 ^ 32 := by
    have hsplit : 2 * m * (2 * n) = 2 * m * (2 * n - 2) + 2 * m * 2 := by
      rw [← Nat.mul_add, Nat.sub_add_cancel (by omega)]
    rcases Nat.lt_or_ge n 2 with hone | htwo
    · have hzero : 2 * n - 2 = 0 := by omega
      rw [hsplit, hzero]
      omega
    · have hle : 2 * m * 2 ≤ 2 * m * (2 * n - 2) := Nat.mul_le_mul_left _ (by omega)
      omega
  rw [Nat.mod_eq_of_lt hbytes] at hout
  rw [Nat.mul_div_cancel_left m Nat.two_pos, Nat.mul_div_cancel_left n Nat.two_pos] at hplane
  rw [Nat.mul_div_cancel_left m Nat.two_pos]
  exact lanczosInterp2_isSome memory hplane hout hsize (by omega) hproduct

/-- A plane of half the size, rounded down, is doubled inside of the buffers exactly if both sizes are even
and the indices do not overflow. -/
theorem lanczosInterp2_isSome_iff (memory : ℕ → F) {plane out : List UInt8} {w h : ℕ} (hw : 0 < w)
    (hh : 0 < h) (hplane : plane.length = w / 2 * (h / 2)) (hout : out.length = w * h % 2 ^ 32) :
    (∃ out', lanczosInterp2 A memory plane out (w / 2) w h = some out') ↔
      w % 2 = 0 ∧ h % 2 = 0 ∧ w + 2 < 2 ^ 31 ∧ w * (h - 2) < 2 ^ 31 := by
  constructor
  · rintro ⟨out', hrun⟩
    obtain ⟨hw1, hh1, t, t_buf, hrows, hcolumns⟩ := passes_of_lanczosInterp2 hrun
    have hmiddle {i j : ℕ} (hi : i < w) (hj : j < (h + 1) / 2) (heven : i % 2 = 0) :
        j * (w / 2) + i / 2 < w / 2 * (h / 2) := by
      by_contra houtside
      have hnone : plane[j * (w / 2) + i / 2]?.map A.ofByte = none := by
        rw [List.getElem?_eq_none (by omega), Option.map_none]
      rw [horizontalPass_eq_none hj hi (by rw [hnone, convolve_eq_none_of_middle heven])] at hrows
      exact nomatch hrows
    have hwidth : w % 2 = 0 := by
      by_contra hodd
      have hlast := hmiddle (i := w - 1) (j := (h + 1) / 2 - 1) (by omega) (by omega) (by omega)
      have hrow : (h + 1) / 2 - 1 + 1 = (h + 1) / 2 := by omega
      have hcolumn : (w - 1) / 2 = w / 2 := by omega
      rw [hcolumn, ← Nat.add_one_mul, hrow, Nat.mul_comm] at hlast
      exact Nat.not_le.mpr hlast (Nat.mul_le_mul_left _ (by omega))
    have hheight : h % 2 = 0 := by
      by_contra hodd
      have hlast := hmiddle (i := 0) (j := h / 2) hw (by omega) rfl
      rw [Nat.mul_comm] at hlast
      omega
    refine ⟨hwidth, hheight, ?_, ?_⟩
    · by_contra hlarge
      rw [horizontalPass_eq_none (j := 0) (i := w - 1) (by omega) (by omega)
        (convolve_eq_none_of_overflow (by omega) (by omega))] at hrows
      exact nomatch hrows
    · by_contra hlarge
      rw [verticalPass_eq_none (j := h - 2) hw (by omega) (by omega) (by omega)] at hcolumns
      exact nomatch hcolumns
  · rintro ⟨hwidth, hheight, hsize, hproduct⟩
    exact (lanczosInterp2_of_even memory hw hh hplane hout hwidth hheight hsize hproduct).imp fun _ h => h.1

/-- A plane stays as it is if a size is negative. -/
theorem lanczosInterp2_of_negative (memory : ℕ → F) (plane out : List UInt8) (in_stride : ℕ)
    {out_w out_h : ℤ} (hw : IsInt (out_w + 1)) (hh : IsInt (out_h + 1)) (hnegative : out_w < 0 ∨ out_h < 0) :
    lanczosInterp2 A memory plane out in_stride out_w out_h = some out := by
  have hrows (in_w : ℤ) (t : List F) :
      horizontalPass A plane in_stride in_w ((out_h + 1).tdiv 2).toNat out_w.toNat t = some t := by
    rcases hnegative with hneg | hneg
    · rw [Int.toNat_of_nonpos (Int.le_of_lt hneg)]
      exact forLoop_one_eq_self fun _ => rfl
    · have hin_h : (out_h + 1).tdiv 2 ≤ 0 := by
        have hneg : (-(out_h + 1)).tdiv 2 ≥ 0 := Int.tdiv_nonneg (by omega) (by omega)
        rw [Int.neg_tdiv] at hneg
        omega
      rw [Int.toNat_of_nonpos hin_h]
      rfl
  have hcolumns (t : List F) (in_h : ℤ) : verticalPass A t in_h out_w.toNat out_h.toNat out = some out := by
    rcases hnegative with hneg | hneg
    · rw [Int.toNat_of_nonpos (Int.le_of_lt hneg)]
      rfl
    · rw [Int.toNat_of_nonpos (Int.le_of_lt hneg)]
      exact forLoop_one_eq_self fun _ => rfl
  simp only [lanczosInterp2, Option.bind_eq_bind, guard_bind_of hw, guard_bind_of hh, hrows,
    Option.bind_some, hcolumns]

/-- A plane with a size that cannot be rounded up is not doubled. -/
theorem lanczosInterp2_of_overflow (memory : ℕ → F) (plane out : List UInt8) (in_stride : ℕ)
    {out_w out_h : ℤ} (hoverflow : ¬ IsInt (out_w + 1) ∨ ¬ IsInt (out_h + 1)) :
    lanczosInterp2 A memory plane out in_stride out_w out_h = none := by
  rw [lanczosInterp2, Option.bind_eq_bind, Option.bind_eq_bind]
  by_cases hw : IsInt (out_w + 1)
  · rw [guard_bind_of hw, guard_bind_of_not (hoverflow.resolve_left (not_not_intro hw))]
  · rw [guard_bind_of_not hw]

end ImageUtil

namespace YuvFrame

open ImageUtil

variable {F : Type} (A : FloatArithmetic F) (memory : ℕ → F) (malloc : ℕ → UInt8) (f : YuvFrame)

/-- Both sizes are even, and the indices of the filter do not overflow. -/
def IsEven : Prop :=
  f.width.toNat % 2 = 0 ∧ f.height.toNat % 2 = 0 ∧ f.width.toNat + 2 < 2 ^ 31 ∧
    f.width.toNat * (f.height.toNat - 2) < 2 ^ 31

/-- A size is negative as a 32-bit integer, so that the filter accesses nothing, and no size overflows when it
is rounded up. -/
def IsOversized : Prop :=
  2 ^ 31 ≤ f.width.toNat ∧ f.height.toNat ≠ 2 ^ 31 - 1 ∨ 2 ^ 31 ≤ f.height.toNat ∧ f.width.toNat ≠ 2 ^ 31 - 1

/-- A 32-bit number as an integer. -/
theorem toInt_toInt32 (n : UInt32) :
    n.toInt32.toInt = if n.toNat < 2 ^ 31 then (n.toNat : ℤ) else n.toNat - 2 ^ 32 := by
  have h := BitVec.toInt_eq_toNat_cond n.toBitVec
  change n.toBitVec.toInt = _
  rw [h]
  change (if 2 * n.toNat < 2 ^ 32 then (n.toNat : ℤ) else n.toNat - 2 ^ 32) = _
  split <;> split <;> omega

/-- A small 32-bit number is the same as an integer. -/
theorem toInt_of_lt {n : UInt32} (h : n.toNat < 2 ^ 31) : n.toInt32.toInt = n.toNat := by
  rw [toInt_toInt32, if_pos h]

/-- The memory for a plane has its size in 32-bit arithmetic. -/
theorem length_malloc : ((List.range (f.width * f.height).toNat).map malloc).length =
    f.width.toNat * f.height.toNat % 2 ^ 32 := by
  rw [length_alloc, UInt32.toNat_mul]

/-- The sizes are small if the indices do not overflow. -/
theorem IsEven.sizes_lt {f : YuvFrame} (h : f.IsEven) (hw : 0 < f.width.toNat) :
    f.width.toNat < 2 ^ 31 ∧ f.height.toNat < 2 ^ 31 := by
  obtain ⟨heven, -, hwidth, hproduct⟩ := h
  have hle : 2 * (f.height.toNat - 2) ≤ f.width.toNat * (f.height.toNat - 2) :=
    Nat.mul_le_mul_right _ (by omega)
  omega

/-- A plane of the chrominance of an even frame is doubled to the size of the frame. -/
theorem upsample_of_isEven (hw : 0 < f.width.toNat) (hh : 0 < f.height.toNat) (heven : f.IsEven)
    {plane : List UInt8} (hplane : plane.length = f.width.toNat / 2 * (f.height.toNat / 2)) :
    ∃ out, f.upsample A memory malloc plane = some out ∧ out.length = f.width.toNat * f.height.toNat := by
  obtain ⟨hwidth, hheight⟩ := heven.sizes_lt hw
  rw [upsample, toInt_of_lt hwidth, toInt_of_lt hheight]
  exact lanczosInterp2_of_even memory hw hh hplane (f.length_malloc malloc) heven.1 heven.2.1 heven.2.2.1
    heven.2.2.2

/-- A plane of the chrominance is doubled inside of the buffers exactly if both sizes are even and the indices
do not overflow, or a size is negative. -/
theorem upsample_isSome_iff (hw : 0 < f.width.toNat) (hh : 0 < f.height.toNat) {plane : List UInt8}
    (hplane : plane.length = f.width.toNat / 2 * (f.height.toNat / 2)) :
    (∃ out, f.upsample A memory malloc plane = some out) ↔ f.IsEven ∨ f.IsOversized := by
  have hwidth := f.width.toNat_lt
  have hheight := f.height.toNat_lt
  by_cases hsmall : f.width.toNat < 2 ^ 31 ∧ f.height.toNat < 2 ^ 31
  · have hnot : ¬ f.IsOversized := by
      rw [IsOversized]
      omega
    rw [upsample, toInt_of_lt hsmall.1, toInt_of_lt hsmall.2, or_iff_left hnot]
    exact lanczosInterp2_isSome_iff memory hw hh hplane (f.length_malloc malloc)
  · have heven : ¬ f.IsEven := fun h => hsmall (h.sizes_lt hw)
    have hwInt := toInt_toInt32 f.width
    have hhInt := toInt_toInt32 f.height
    rw [upsample, or_iff_right heven]
    by_cases hover : f.IsOversized
    · rw [IsOversized] at hover
      refine iff_of_true ⟨_, lanczosInterp2_of_negative memory plane _ _ ?_ ?_ ?_⟩ hover
      · rw [hwInt, IsInt]
        split <;> omega
      · rw [hhInt, IsInt]
        split <;> omega
      · rw [hwInt, hhInt]
        split <;> split <;> omega
    · rw [lanczosInterp2_of_overflow memory plane _ _ ?_]
      · exact iff_of_false (by simp) hover
      · rw [IsOversized] at hover
        rw [hwInt, hhInt, IsInt, IsInt]
        split <;> split <;> omega

/-- Both planes of the chrominance are doubled inside of the buffers exactly if both sizes are even and the
indices do not overflow, or a size is negative. -/
theorem upsample_planes_iff (hw : 0 < f.width.toNat) (hh : 0 < f.height.toNat) :
    ((∃ out, f.upsample A memory malloc f.u = some out) ∧ ∃ out, f.upsample A memory malloc f.v = some out) ↔
      f.IsEven ∨ f.IsOversized := by
  rw [f.upsample_isSome_iff A memory malloc hw hh f.u_length,
    f.upsample_isSome_iff A memory malloc hw hh f.v_length, and_self]

/-- Rational numbers with the coefficients of the filter, rounded to four digits. -/
def rationalArithmetic : FloatArithmetic ℚ where
  zero := 0
  half := 1 / 2
  kernel k := if k = 0 then 1 else if k = 1 then 6204 / 10000 else if k = 3 then -1664 / 10000 else 0
  ofByte byte := byte.toNat
  add a b := a + b
  mul a b := a * b
  div a b := a / b
  toFloat a := a
  toInt a := a.num.tdiv a.den

/-- A black frame. -/
def black (width height : UInt32) : YuvFrame where
  width := width
  height := height
  y := List.replicate (width.toNat * height.toNat) 16
  u := List.replicate (width.toNat / 2 * (height.toNat / 2)) 128
  v := List.replicate (width.toNat / 2 * (height.toNat / 2)) 128
  y_length := List.length_replicate
  u_length := List.length_replicate
  v_length := List.length_replicate

/-- A black frame with four columns and two rows is doubled inside of the buffers. -/
theorem upsample_planes_iff_even :
    (∃ out, (black 4 2).upsample rationalArithmetic (fun _ => 0) (fun _ => 0) (black 4 2).u = some out) ∧
      ∃ out, (black 4 2).upsample rationalArithmetic (fun _ => 0) (fun _ => 0) (black 4 2).v = some out :=
  (upsample_planes_iff rationalArithmetic (fun _ => 0) (fun _ => 0) (black 4 2) (by decide) (by decide)).mpr
    (.inl ⟨rfl, rfl, by decide, by decide⟩)

/-- A black frame with three columns and two rows is read outside of its planes. -/
theorem upsample_odd_eq_none :
    (black 3 2).upsample rationalArithmetic (fun _ => 0) (fun _ => 0) (black 3 2).u = none := by
  have hnot : ¬ ∃ out, (black 3 2).upsample rationalArithmetic (fun _ => 0) (fun _ => 0) (black 3 2).u =
      some out := by
    rw [upsample_isSome_iff _ _ _ _ (by decide) (by decide) (black 3 2).u_length, IsEven, IsOversized]
    decide
  exact Option.eq_none_iff_forall_ne_some.mpr fun out h => hnot ⟨out, h⟩

end YuvFrame

end Ts3Video
