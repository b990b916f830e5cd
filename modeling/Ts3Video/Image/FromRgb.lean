import Mathlib.Data.List.GetD
import Ts3Video.Image.QImage

/-!
# Frames of pixels in rows

Pixels in memory have rows at some distance in bytes, from the top or from the bottom. A frame is made of a
packed copy of them. A distance of zero is meant for packed rows, but it is replaced by a number of pixels, and
the place of the last row is computed in 32 bits.
-/

namespace Ts3Video

open CheckedMemory ImageUtil

namespace ImageUtil

/-- Convert pixels into planes, with sizes that may be negative as integers. A negative size leaves no row or
no column to pick the chrominance from. -/
def rgbToYV12OfInt (pRGBData : List UInt8) (nFrameWidth nFrameHeight : ℤ)
    (pFullYPlane pDownsampledUPlane pDownsampledVPlane : List UInt8) (format : ImageFormat) :
    Option Converted :=
  if 0 ≤ nFrameWidth ∧ 0 ≤ nFrameHeight then
    rgbToYV12 pRGBData nFrameWidth.toNat nFrameHeight.toNat pFullYPlane pDownsampledUPlane pDownsampledVPlane
      format
  else do
    guard (IsInt (nFrameWidth * nFrameHeight))
    guard (IsInt (nFrameWidth * nFrameHeight * bytesPerPixel format))
    let converted ← forLoop 0 (nFrameWidth * nFrameHeight * bytesPerPixel format).toNat (bytesPerPixel format)
      (convertPixel format) ⟨pRGBData, pFullYPlane, 0⟩
    some ⟨converted.pRGBData, converted.pYPlaneOut, pDownsampledUPlane, pDownsampledVPlane⟩

end ImageUtil

namespace YuvFrame

/-- The copy of the pixels and the positions in it and in the pixels during the copying loop. -/
structure Copying where
  orig : List UInt8
  out : ℤ
  input : ℤ

/-- Copy the next row. The number of bytes is an `int` that is passed as a `size_t` of 64 bits. -/
def copyRow (rgb : List UInt8) (bytesPerLine : ℤ) (stride : UInt32) (bottomUp : Bool) (s : Copying) :
    Option Copying := do
  guard (0 ≤ s.input ∧ 0 ≤ s.out)
  let row ← read rgb s.input.toNat (bytesPerLine % 2 ^ 64).toNat
  let orig ← writeAll s.orig s.out.toNat row
  some ⟨orig, s.out + bytesPerLine,
    if bottomUp then s.input - stride.toNat else s.input + stride.toNat⟩

/-- The frame of blocks of memory that begin with its planes. -/
def ofBlocks (width height : UInt32) (planes : Converted) : Option YuvFrame :=
  if h : width.toNat * height.toNat ≤ planes.pFullYPlane.length ∧
      width.toNat / 2 * (height.toNat / 2) ≤ planes.pDownsampledUPlane.length ∧
      width.toNat / 2 * (height.toNat / 2) ≤ planes.pDownsampledVPlane.length then
    some ⟨width, height, planes.pFullYPlane.take (width.toNat * height.toNat),
      planes.pDownsampledUPlane.take (width.toNat / 2 * (height.toNat / 2)),
      planes.pDownsampledVPlane.take (width.toNat / 2 * (height.toNat / 2)),
      List.length_take_of_le h.1, List.length_take_of_le h.2.1, List.length_take_of_le h.2.2⟩
  else none

/-- The frame of pixels in rows with a distance of `stride` bytes, from the bottom up or from the top down.
Sizes are computed in 32 bits, and allocated memory has arbitrary content. -/
def fromRgb (malloc : ℕ → UInt8) (rgb : List UInt8) (width height : UInt32) (imgFormat : ImageFormat)
    (stride : UInt32) (bottomUp : Bool) : Option YuvFrame := do
  let alloc := fun size : UInt32 => (List.range size.toNat).map malloc
  let numpixel := width * height
  let stride := if stride = 0 then width else stride
  let bytesPerPixel := UInt32.ofNat (bytesPerPixel imgFormat)
  let bytesPerLine := (bytesPerPixel * width).toInt32.toInt
  let input := if bottomUp then stride * (height - 1) else 0
  let copied ← forLoop 0 height.toNat 1 (fun _ => copyRow rgb bytesPerLine stride bottomUp)
    ⟨alloc (bytesPerPixel * numpixel), 0, input.toNat⟩
  let ysize := numpixel
  let uvsize := ysize >>> 2
  let planes ← rgbToYV12OfInt copied.orig width.toInt32.toInt height.toInt32.toInt (alloc ysize)
    (alloc uvsize) (alloc uvsize) imgFormat
  ofBlocks width height planes

/-- The number of bytes of the pixels of a row. -/
def lineBytes (width : UInt32) (format : ImageFormat) : ℕ := bytesPerPixel format * width.toNat

/-- The number of bytes of all pixels. -/
def pixelBytes (width height : UInt32) (format : ImageFormat) : ℕ :=
  width.toNat * height.toNat * bytesPerPixel format

/-- The number of bytes from the first one of the first row to the last one of the last row. -/
def imageBytes (width height : UInt32) (format : ImageFormat) (distance : ℕ) : ℕ :=
  distance * (height.toNat - 1) + lineBytes width format

/-- The pixels of a row of a buffer. -/
def pixelRow (rgb : List UInt8) (distance count y : ℕ) : List UInt8 := (rgb.drop (distance * y)).take count

/-- The place of a row in the order in which the rows are copied. -/
def rowAt (height : UInt32) (bottomUp : Bool) (y : ℕ) : ℕ := if bottomUp then height.toNat - 1 - y else y

/-- The packed pixels of a buffer. -/
def packedRows (rgb : List UInt8) (width height : UInt32) (format : ImageFormat) (distance : ℕ)
    (bottomUp : Bool) : List UInt8 :=
  (List.range height.toNat).flatMap fun y =>
    pixelRow rgb distance (lineBytes width format) (rowAt height bottomUp y)

/-- The frame with what the pixels give one by one. -/
def ofPacked (width height : UInt32) (format : ImageFormat) (pixels : List UInt8) : YuvFrame where
  width := width
  height := height
  y := (List.range (width.toNat * height.toNat)).map (sample yOf format pixels)
  u := (List.range (width.toNat / 2 * (height.toNat / 2))).map fun n =>
    sample uOf format pixels (downsampledPixel width.toNat n)
  v := (List.range (width.toNat / 2 * (height.toNat / 2))).map fun n =>
    sample vOf format pixels (downsampledPixel width.toNat n)
  y_length := by rw [List.length_map, List.length_range]
  u_length := by rw [List.length_map, List.length_range]
  v_length := by rw [List.length_map, List.length_range]

variable {width height : UInt32} {format : ImageFormat}

/-- A row has its pixels. -/
theorem length_pixelRow {rgb : List UInt8} {distance y : ℕ}
    (hrgb : imageBytes width height format distance ≤ rgb.length) (hy : y < height.toNat) :
    (pixelRow rgb distance (lineBytes width format) y).length = lineBytes width format := by
  have hrow : distance * y ≤ distance * (height.toNat - 1) := Nat.mul_le_mul_left _ (by omega)
  rw [imageBytes] at hrgb
  rw [pixelRow, List.length_take, List.length_drop]
  omega

/-- The rows are copied from inside of the image. -/
theorem rowAt_lt (bottomUp : Bool) {y : ℕ} (hy : y < height.toNat) : rowAt height bottomUp y < height.toNat := by
  unfold rowAt
  split <;> omega

/-- The bytes of all pixels, row by row. -/
theorem pixelBytes_eq : pixelBytes width height format = height.toNat * lineBytes width format := by
  rw [pixelBytes, lineBytes]
  ring

/-- The packed pixels have no padding. -/
theorem length_packedRows {rgb : List UInt8} {distance : ℕ} (bottomUp : Bool)
    (hrgb : imageBytes width height format distance ≤ rgb.length) :
    (packedRows rgb width height format distance bottomUp).length = pixelBytes width height format := by
  rw [packedRows, length_flatMap_range fun y hy => length_pixelRow hrgb (rowAt_lt bottomUp hy), pixelBytes_eq]

/-- The bytes of a row can be counted if all can be. -/
theorem lineBytes_lt (hh : 0 < height.toNat) (hsize : pixelBytes width height format < 2 ^ 31) :
    lineBytes width format < 2 ^ 31 := by
  rw [pixelBytes_eq] at hsize
  exact Nat.lt_of_le_of_lt (Nat.le_mul_of_pos_left _ hh) hsize

/-- A plane that was written begins with what was written. -/
theorem take_eq_map {old new : List UInt8} {count : ℕ} {value : ℕ → UInt8} (h : Written old new count value) :
    new.take count = (List.range count).map value := by
  apply List.ext_getElem?
  intro n
  rcases Nat.lt_or_ge n count with hn | hn
  · rw [List.getElem?_take_of_lt hn, h.inside n hn, List.getElem?_map, List.getElem?_range hn, Option.map_some]
  · rw [List.getElem?_eq_none, List.getElem?_eq_none]
    · rw [List.length_map, List.length_range]
      exact hn
    · rw [List.length_take]
      omega

/-- The conversion of packed pixels gives their frame, whatever the allocated memory holds. -/
theorem convert_eq (malloc : ℕ → UInt8) {pixels : List UInt8} {ysize uvsize : ℕ}
    (hsize : pixelBytes width height format < 2 ^ 31)
    (hpixels : pixels.length = pixelBytes width height format) (hwidth : width.toNat < 2 ^ 31)
    (hheight : height.toNat < 2 ^ 31) (hy : width.toNat * height.toNat ≤ ysize)
    (huv : width.toNat / 2 * (height.toNat / 2) ≤ uvsize) :
    (rgbToYV12OfInt pixels width.toInt32.toInt height.toInt32.toInt ((List.range ysize).map malloc)
        ((List.range uvsize).map malloc) ((List.range uvsize).map malloc) format).bind (ofBlocks width height) =
      some (ofPacked width height format pixels) := by
  have hyBlock := hy.trans (length_alloc malloc ysize).ge
  have huvBlock := huv.trans (length_alloc malloc uvsize).ge
  obtain ⟨result, hrun, hyWritten, huWritten, hvWritten⟩ :=
    rgbToYV12_written hsize hpixels hyBlock huvBlock huvBlock
  rw [Nat.mul_comm (height.toNat / 2)] at huWritten hvWritten
  have hblocks : width.toNat * height.toNat ≤ result.pFullYPlane.length ∧
      width.toNat / 2 * (height.toNat / 2) ≤ result.pDownsampledUPlane.length ∧
      width.toNat / 2 * (height.toNat / 2) ≤ result.pDownsampledVPlane.length :=
    ⟨hyBlock.trans hyWritten.length_eq.ge, huvBlock.trans huWritten.length_eq.ge,
      huvBlock.trans hvWritten.length_eq.ge⟩
  rw [toInt_of_lt hwidth, toInt_of_lt hheight, rgbToYV12OfInt,
    if_pos ⟨Int.natCast_nonneg _, Int.natCast_nonneg _⟩, Int.toNat_natCast, Int.toNat_natCast, hrun,
    Option.bind_some, ofBlocks, dif_pos hblocks]
  simp only [take_eq_map hyWritten, take_eq_map huWritten, take_eq_map hvWritten, ofPacked]

/-- The position in the buffer before a row is copied. -/
def inputAt (stride : UInt32) (bottomUp : Bool) (start : ℤ) (k : ℕ) : ℤ :=
  if bottomUp then start - k * stride.toNat else start + k * stride.toNat

/-- The next position. -/
theorem inputAt_succ (stride : UInt32) (bottomUp : Bool) (start : ℤ) (k : ℕ) :
    (if bottomUp then inputAt stride bottomUp start k - stride.toNat
      else inputAt stride bottomUp start k + stride.toNat) = inputAt stride bottomUp start (k + 1) := by
  unfold inputAt
  push_cast
  split <;> ring

/-- From the first byte of the row that is copied first, every row is found at its place. -/
theorem inputAt_eq {stride : UInt32} {bottomUp : Bool} {k : ℕ} (hk : k < height.toNat) :
    inputAt stride bottomUp ((if bottomUp then stride.toNat * (height.toNat - 1) else 0 : ℕ) : ℤ) k =
      (stride.toNat * rowAt height bottomUp k : ℕ) := by
  cases bottomUp with
  | false =>
    change ((0 : ℕ) : ℤ) + k * stride.toNat = (stride.toNat * k : ℕ)
    push_cast
    ring
  | true =>
    change ((stride.toNat * (height.toNat - 1) : ℕ) : ℤ) - k * stride.toNat =
      (stride.toNat * (height.toNat - 1 - k) : ℕ)
    rw [Nat.mul_sub stride.toNat (height.toNat - 1) k,
      Nat.cast_sub (Nat.mul_le_mul_left _ (Nat.le_sub_one_of_lt hk)), Nat.cast_mul _ k, mul_comm (k : ℤ)]

/-- The first rows are copied, and what is behind them is as it was. -/
def copiedRows (rgb orig : List UInt8) (width height : UInt32) (format : ImageFormat) (stride : UInt32)
    (bottomUp : Bool) (k : ℕ) : Copying where
  orig := ((List.range k).flatMap fun y =>
      pixelRow rgb stride.toNat (lineBytes width format) (rowAt height bottomUp y)) ++
    orig.drop (k * lineBytes width format)
  out := k * lineBytes width format
  input := inputAt stride bottomUp ((if bottomUp then stride.toNat * (height.toNat - 1) else 0 : ℕ) : ℤ) k

/-- The next row is copied. -/
theorem copyRow_copiedRows {rgb orig : List UInt8} {stride : UInt32} (bottomUp : Bool) {k : ℕ}
    (hline : lineBytes width format < 2 ^ 31) (horig : orig.length = pixelBytes width height format)
    (hrgb : imageBytes width height format stride.toNat ≤ rgb.length) (hk : k < height.toNat) :
    copyRow rgb (lineBytes width format) stride bottomUp
        (copiedRows rgb orig width height format stride bottomUp k) =
      some (copiedRows rgb orig width height format stride bottomUp (k + 1)) := by
  have hrow := rowAt_lt bottomUp hk
  have hlength := length_pixelRow hrgb hrow
  have hbefore : ((List.range k).flatMap fun y =>
      pixelRow rgb stride.toNat (lineBytes width format) (rowAt height bottomUp y)).length =
        k * lineBytes width format :=
    length_flatMap_range fun y hy => length_pixelRow hrgb (rowAt_lt bottomUp (hy.trans hk))
  have hcount : ((lineBytes width format : ℤ) % 2 ^ 64).toNat = lineBytes width format := by omega
  have hinside : stride.toNat * rowAt height bottomUp k + lineBytes width format ≤ rgb.length :=
    (Nat.add_le_add_right (Nat.mul_le_mul_left _ (Nat.le_sub_one_of_lt hrow)) _).trans hrgb
  have hrest : (pixelRow rgb stride.toNat (lineBytes width format) (rowAt height bottomUp k)).length ≤
      (orig.drop (k * lineBytes width format)).length := by
    have hlast : (k + 1) * lineBytes width format ≤ height.toNat * lineBytes width format :=
      Nat.mul_le_mul_right _ hk
    rw [Nat.succ_mul] at hlast
    rw [hlength, List.length_drop, horig, pixelBytes_eq]
    omega
  have hwrite := writeAll_append ((List.range k).flatMap fun y =>
    pixelRow rgb stride.toNat (lineBytes width format) (rowAt height bottomUp y)) hrest
  rw [hbefore, hlength, List.drop_drop] at hwrite
  have hout : (0 : ℤ) ≤ k * lineBytes width format := by positivity
  have houtNat : ((k : ℤ) * lineBytes width format).toNat = k * lineBytes width format := by
    rw [← Nat.cast_mul, Int.toNat_natCast]
  rw [copyRow, copiedRows, inputAt_eq hk, Option.bind_eq_bind,
    guard_bind_of ⟨Int.natCast_nonneg _, hout⟩]
  simp only [Option.bind_eq_bind, Int.toNat_natCast, hcount, read_of_le hinside, Option.bind_some, houtNat]
  rw [← pixelRow, hwrite, Option.bind_some, copiedRows, ← inputAt_succ, inputAt_eq hk, List.range_succ,
    List.flatMap_append, List.flatMap_singleton, Nat.succ_mul]
  push_cast
  rw [add_mul, one_mul]

/-- The loop copies the rows of a buffer. -/
theorem copyRows_eq {rgb orig : List UInt8} {stride : UInt32} (bottomUp : Bool)
    (hline : lineBytes width format < 2 ^ 31) (horig : orig.length = pixelBytes width height format)
    (hrgb : imageBytes width height format stride.toNat ≤ rgb.length) :
    ∃ s, forLoop 0 height.toNat 1 (fun _ => copyRow rgb (lineBytes width format) stride bottomUp)
        ⟨orig, 0, (if bottomUp then stride.toNat * (height.toNat - 1) else 0 : ℕ)⟩ = some s ∧
      s.orig = packedRows rgb width height format stride.toNat bottomUp := by
  have hinit : (⟨orig, 0, (if bottomUp then stride.toNat * (height.toNat - 1) else 0 : ℕ)⟩ : Copying) =
      copiedRows rgb orig width height format stride bottomUp 0 := by
    simp [copiedRows, inputAt]
  obtain ⟨s, hrun, rfl⟩ := forLoop_one_invariant
    (fun k s => s = copiedRows rgb orig width height format stride bottomUp k)
    (fun k s hk hs => ⟨_, hs ▸ copyRow_copiedRows bottomUp hline horig hrgb hk, rfl⟩) hinit
  refine ⟨_, hrun, ?_⟩
  rw [copiedRows, ← pixelBytes_eq, ← horig, List.drop_length, List.append_nil, packedRows]

/-- A row that is copied is read from inside of the buffer and written inside of the copy. -/
theorem of_copyRow {rgb : List UInt8} {bytesPerLine : ℤ} {stride : UInt32} {bottomUp : Bool} {s s' : Copying}
    (h : copyRow rgb bytesPerLine stride bottomUp s = some s') :
    (0 ≤ s.input ∧ 0 ≤ s.out ∧ s.out.toNat + (bytesPerLine % 2 ^ 64).toNat ≤ s.orig.length) ∧
      s'.orig.length = s.orig.length ∧ s'.out = s.out + bytesPerLine ∧
      s'.input = if bottomUp then s.input - stride.toNat else s.input + stride.toNat := by
  rw [copyRow, Option.bind_eq_bind] at h
  by_cases hpositions : 0 ≤ s.input ∧ 0 ≤ s.out
  · rw [guard_bind_of hpositions] at h
    obtain ⟨row, hread, h⟩ := Option.bind_eq_some_iff.mp h
    obtain ⟨orig, hwrite, h⟩ := Option.bind_eq_some_iff.mp h
    obtain ⟨hinside, hlength⟩ := of_writeAll hwrite
    rw [(of_read hread).2] at hinside
    rw [← Option.some.inj h]
    exact ⟨⟨hpositions.1, hpositions.2, hinside⟩, hlength, rfl, rfl⟩
  · rw [guard_bind_of_not hpositions] at h
    contradiction

/-- The last row is copied from inside of the buffer to inside of the copy. -/
theorem of_copyRows {rgb orig : List UInt8} {bytesPerLine start : ℤ} {stride : UInt32} {bottomUp : Bool}
    {count : ℕ} {s : Copying} (hcount : 0 < count)
    (h : forLoop 0 count 1 (fun _ => copyRow rgb bytesPerLine stride bottomUp) ⟨orig, 0, start⟩ = some s) :
    0 ≤ inputAt stride bottomUp start (count - 1) ∧ 0 ≤ ((count - 1 : ℕ) : ℤ) * bytesPerLine ∧
      (((count - 1 : ℕ) : ℤ) * bytesPerLine).toNat + (bytesPerLine % 2 ^ 64).toNat ≤ orig.length := by
  have hstep : ∀ (k : ℕ) (s t : Copying),
      (s.orig.length = orig.length ∧ s.out = k * bytesPerLine ∧ s.input = inputAt stride bottomUp start k) →
      copyRow rgb bytesPerLine stride bottomUp s = some t →
      t.orig.length = orig.length ∧ t.out = ((k + 1 : ℕ) : ℤ) * bytesPerLine ∧
        t.input = inputAt stride bottomUp start (k + 1) := by
    rintro k s t ⟨hlength, hout, hinput⟩ hrow
    obtain ⟨-, hlength', hout', hinput'⟩ := of_copyRow hrow
    refine ⟨hlength'.trans hlength, ?_, ?_⟩
    · rw [hout', hout]
      push_cast
      ring
    · rw [hinput', hinput, inputAt_succ]
  obtain ⟨t, t', ⟨hlength, hout, hinput⟩, hrow⟩ := forLoop_one_visited _ hstep
    ⟨rfl, by simp, by simp [inputAt]⟩ h (Nat.sub_lt hcount Nat.one_pos)
  obtain ⟨⟨hinside, hpositive, hwritten⟩, -⟩ := of_copyRow hrow
  rw [hinput] at hinside
  rw [hout] at hpositive hwritten
  rw [hlength] at hwritten
  exact ⟨hinside, hpositive, hwritten⟩

/-- Pixels that are converted can be counted. -/
theorem isInt_of_rgbToYV12OfInt {pixels y u v : List UInt8} {w h : ℤ} {result : Converted}
    (hrun : rgbToYV12OfInt pixels w h y u v format = some result) : IsInt (w * h * bytesPerPixel format) := by
  by_contra hnot
  unfold rgbToYV12OfInt at hrun
  split at hrun
  · next hsizes =>
    rw [rgbToYV12, Int.toNat_of_nonneg hsizes.1, Int.toNat_of_nonneg hsizes.2] at hrun
    obtain ⟨-, -, hrun⟩ := Option.bind_eq_some_iff.mp hrun
    rw [Option.bind_eq_bind, guard_bind_of_not hnot] at hrun
    contradiction
  · obtain ⟨-, -, hrun⟩ := Option.bind_eq_some_iff.mp hrun
    rw [Option.bind_eq_bind, guard_bind_of_not hnot] at hrun
    contradiction

/-- A size as an integer is not zero, and it is the size or 2^32 less. -/
theorem toInt_size {n : UInt32} (hn : 0 < n.toNat) :
    n.toInt32.toInt ≠ 0 ∧
      (n.toInt32.toInt = n.toNat ∨ 2 ^ 31 ≤ n.toNat ∧ n.toInt32.toInt = n.toNat - 2 ^ 32) := by
  have h := toInt_toInt32 n
  have hlt := n.toNat_lt
  split at h
  · omega
  · omega

/-- If the copied rows fit into the copy and the pixels can be counted as integers, then they can be counted. -/
theorem pixelBytes_lt (hw : 0 < width.toNat) (hh : 0 < height.toNat)
    (hline : lineBytes width format % 2 ^ 32 < 2 ^ 31)
    (hall : height.toNat * (lineBytes width format % 2 ^ 32) < 2 ^ 32)
    (hint : IsInt (width.toInt32.toInt * height.toInt32.toInt * bytesPerPixel format)) :
    pixelBytes width height format < 2 ^ 31 := by
  have hbytes : bytesPerPixel format = 3 ∨ bytesPerPixel format = 4 := by
    cases format <;> decide
  obtain ⟨hh0, hheight⟩ := toInt_size hh
  obtain ⟨-, hwidth⟩ := toInt_size hw
  have hrow : |width.toInt32.toInt * bytesPerPixel format| ≤ 2 ^ 31 := by
    rw [mul_right_comm] at hint
    exact abs_le_of_isInt hh0 hint
  have hrow' := abs_le.mp hrow
  have hwlt := width.toNat_lt
  rw [lineBytes] at hline hall
  rcases hwidth with hwidth | ⟨-, hwidth⟩
  · rw [hwidth] at hrow'
    have hsmall : bytesPerPixel format * width.toNat < 2 ^ 32 := by
      rw [Nat.mul_comm]
      have : ((width.toNat * bytesPerPixel format : ℕ) : ℤ) ≤ 2 ^ 31 := by exact_mod_cast hrow'.2
      omega
    rw [Nat.mod_eq_of_lt hsmall] at hall
    rcases hheight with hheight | ⟨hlarge, -⟩
    · rw [hwidth, hheight] at hint
      exact_mod_cast hint.2
    · have hthree : 3 ≤ bytesPerPixel format * width.toNat := by
        rcases hbytes with h | h <;> rw [h] <;> omega
      have := Nat.mul_le_mul hlarge hthree
      omega
  · rw [hwidth] at hrow'
    rcases hbytes with h | h
    · rw [h] at hline hrow'
      have hquotient : 3 * width.toNat / 2 ^ 32 = 2 := by omega
      omega
    · rw [h] at hline hrow'
      have hquotient : 4 * width.toNat / 2 ^ 32 = 3 := by omega
      omega

/-- Rows that are copied inside of the copy have a size that is not negative as an integer. -/
theorem of_copied {m : UInt32} {count limit : ℕ} (hcount : 0 < count) (hlimit : limit < 2 ^ 32)
    (hwritten : (((count - 1 : ℕ) : ℤ) * m.toInt32.toInt).toNat + (m.toInt32.toInt % 2 ^ 64).toNat ≤ limit) :
    m.toNat < 2 ^ 31 ∧ count * m.toNat ≤ limit := by
  have hm := toInt_toInt32 m
  have hlt := m.toNat_lt
  have hsmall : m.toNat < 2 ^ 31 := by
    by_contra hlarge
    rw [if_neg hlarge] at hm
    omega
  rw [toInt_of_lt hsmall] at hwritten
  have hrow : ((m.toNat : ℤ) % 2 ^ 64).toNat = m.toNat := by omega
  have hrows : (((count - 1 : ℕ) : ℤ) * m.toNat).toNat = (count - 1) * m.toNat := by
    rw [← Nat.cast_mul, Int.toNat_natCast]
  rw [hrow, hrows] at hwritten
  obtain ⟨n, rfl⟩ : ∃ n, count = n + 1 := ⟨count - 1, by omega⟩
  rw [Nat.succ_mul]
  exact ⟨hsmall, hwritten⟩
/-- The stride of the copying loop. -/
def loopStride (width stride : UInt32) : UInt32 := if stride = 0 then width else stride

/-- The number of bytes of a pixel has 32 bits. -/
theorem toNat_bytesPerPixel (format : ImageFormat) :
    (UInt32.ofNat (bytesPerPixel format)).toNat = bytesPerPixel format := by
  cases format <;> decide

/-- The memory for the pixels has their size in 32-bit arithmetic. -/
theorem toNat_pixelBytes :
    (UInt32.ofNat (bytesPerPixel format) * (width * height)).toNat =
      pixelBytes width height format % 2 ^ 32 := by
  rw [UInt32.toNat_mul, UInt32.toNat_mul, toNat_bytesPerPixel, pixelBytes, Nat.mul_mod_mod, Nat.mul_comm]

/-- The size of a row in 32-bit arithmetic. -/
theorem toNat_lineBytes :
    (UInt32.ofNat (bytesPerPixel format) * width).toNat = lineBytes width format % 2 ^ 32 := by
  rw [UInt32.toNat_mul, toNat_bytesPerPixel, lineBytes]

/-- The place of the last row in 32-bit arithmetic. -/
theorem toNat_lastRow (stride : UInt32) (hh : 0 < height.toNat) :
    (stride * (height - 1)).toNat = stride.toNat * (height.toNat - 1) % 2 ^ 32 := by
  have hone : (1 : UInt32) ≤ height := UInt32.le_iff_toNat_le.mpr hh
  rw [UInt32.toNat_mul, UInt32.toNat_sub_of_le _ _ hone]
  rfl

/-- Frames are made only of pixels that can be counted, and from the bottom up only if the place of the last row
can be. -/
theorem of_fromRgb {malloc : ℕ → UInt8} {rgb : List UInt8} {stride : UInt32} {bottomUp : Bool} {f : YuvFrame}
    (hw : 0 < width.toNat) (hh : 0 < height.toNat)
    (h : fromRgb malloc rgb width height format stride bottomUp = some f) :
    pixelBytes width height format < 2 ^ 31 ∧
      (bottomUp = true → (loopStride width stride).toNat * (height.toNat - 1) < 2 ^ 32) := by
  simp only [fromRgb, Option.bind_eq_bind, Option.bind_eq_some_iff] at h
  obtain ⟨s, hcopy, planes, hconvert, -⟩ := h
  obtain ⟨hinput, -, hwritten⟩ := of_copyRows hh hcopy
  rw [length_alloc, toNat_pixelBytes] at hwritten
  obtain ⟨hline, hall⟩ := of_copied hh (Nat.mod_lt _ (by decide)) hwritten
  rw [toNat_lineBytes] at hline hall
  have hsize := pixelBytes_lt hw hh hline (Nat.lt_of_le_of_lt hall (Nat.mod_lt _ (by decide)))
    (isInt_of_rgbToYV12OfInt hconvert)
  refine ⟨hsize, ?_⟩
  rintro rfl
  rw [if_pos rfl, ← loopStride, toNat_lastRow _ hh, inputAt, if_pos rfl] at hinput
  have hstart := Nat.mod_lt ((loopStride width stride).toNat * (height.toNat - 1)) (by decide : 0 < 2 ^ 32)
  have hlast : (height.toNat - 1) * (loopStride width stride).toNat ≤
      (loopStride width stride).toNat * (height.toNat - 1) % 2 ^ 32 := by
    exact_mod_cast Int.sub_nonneg.mp hinput
  rw [Nat.mul_comm]
  exact Nat.lt_of_le_of_lt hlast hstart

/-- A quarter of the pixels are enough for a plane with half the sizes. -/
theorem quarter_le (w h : ℕ) : w / 2 * (h / 2) ≤ w * h / 4 := by
  rw [Nat.le_div_iff_mul_le (by decide)]
  calc w / 2 * (h / 2) * 4 = w / 2 * 2 * (h / 2 * 2) := by ring
    _ ≤ w * h := Nat.mul_le_mul (Nat.div_mul_le_self w 2) (Nat.div_mul_le_self h 2)

/-- A frame is made of the rows of a buffer that holds them, if the pixels can be counted and, from the bottom
up, the place of the last row can be. -/
theorem fromRgb_eq (malloc : ℕ → UInt8) {rgb : List UInt8} {stride : UInt32} {bottomUp : Bool}
    (hw : 0 < width.toNat) (hh : 0 < height.toNat) (hsize : pixelBytes width height format < 2 ^ 31)
    (hlast : bottomUp = true → (loopStride width stride).toNat * (height.toNat - 1) < 2 ^ 32)
    (hrgb : imageBytes width height format (loopStride width stride).toNat ≤ rgb.length) :
    fromRgb malloc rgb width height format stride bottomUp =
      some (ofPacked width height format
        (packedRows rgb width height format (loopStride width stride).toNat bottomUp)) := by
  have hcount : width.toNat * height.toNat < 2 ^ 31 := count_lt_of_bytes_lt hsize
  have hwidth : width.toNat < 2 ^ 31 := Nat.lt_of_le_of_lt (Nat.le_mul_of_pos_right _ hh) hcount
  have hheight : height.toNat < 2 ^ 31 := Nat.lt_of_le_of_lt (Nat.le_mul_of_pos_left _ hw) hcount
  have hline := lineBytes_lt hh hsize
  have hlineNat : (UInt32.ofNat (bytesPerPixel format) * width).toNat = lineBytes width format := by
    rw [toNat_lineBytes, Nat.mod_eq_of_lt (by omega)]
  have hlineInt : (UInt32.ofNat (bytesPerPixel format) * width).toInt32.toInt = lineBytes width format := by
    rw [toInt_of_lt (hlineNat ▸ hline), hlineNat]
  have hnumpixel : (width * height).toNat = width.toNat * height.toNat := by
    rw [UInt32.toNat_mul, Nat.mod_eq_of_lt (by omega)]
  have huvsize : width.toNat / 2 * (height.toNat / 2) ≤ ((width * height) >>> 2).toNat := by
    have hshift : UInt32.toNat 2 % 32 = 2 := rfl
    rw [UInt32.toNat_shiftRight, hnumpixel, hshift, Nat.shiftRight_eq_div_pow]
    exact quarter_le _ _
  have hinput : (if bottomUp then loopStride width stride * (height - 1) else 0 : UInt32).toNat =
      if bottomUp then (loopStride width stride).toNat * (height.toNat - 1) else 0 := by
    cases bottomUp with
    | false => rfl
    | true => rw [if_pos rfl, if_pos rfl, toNat_lastRow _ hh, Nat.mod_eq_of_lt (hlast rfl)]
  have horig : ((List.range (UInt32.ofNat (bytesPerPixel format) * (width * height)).toNat).map malloc).length =
      pixelBytes width height format := by
    rw [length_alloc, toNat_pixelBytes, Nat.mod_eq_of_lt (by omega)]
  obtain ⟨s, hcopy, hs⟩ := copyRows_eq bottomUp hline horig hrgb
  have hconvert := convert_eq malloc hsize (length_packedRows bottomUp hrgb) hwidth hheight hnumpixel.ge huvsize
  have hstride : (if stride = 0 then width else stride) = loopStride width stride := rfl
  simp only [fromRgb, Option.bind_eq_bind, hstride, hlineInt, hinput, hcopy, Option.bind_some, hs, hconvert]

end YuvFrame

end Ts3Video
