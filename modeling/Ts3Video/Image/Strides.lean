import Mathlib.Data.List.GetD
import Ts3Video.Image.FromRgb

/-!
# Strides and orientations

A frame from the bottom up is that of the buffer with its rows reversed, and no byte outside of the image is read,
as long as the sizes can be counted. A stride of zero means rows that overlap, unless there is only one.
-/

namespace Ts3Video

open CheckedMemory ImageUtil

namespace YuvFrame

/-- Two runs are defined and give the same frame. -/
def SameFrame (a b : Option YuvFrame) : Prop := ∃ f, a = some f ∧ b = some f

/-- The distance of the rows that a stride stands for: zero stands for rows without padding. -/
def rowDistance (width : UInt32) (format : ImageFormat) (stride : UInt32) : ℕ :=
  if stride = 0 then lineBytes width format else stride.toNat

/-- A buffer has the rows of another one in reversed order. -/
def RowsReversed (width height : UInt32) (format : ImageFormat) (stride : UInt32) (rgb reversed : List UInt8) :
    Prop :=
  ∀ y < height.toNat, pixelRow reversed stride.toNat (lineBytes width format) y =
    pixelRow rgb stride.toNat (lineBytes width format) (height.toNat - 1 - y)

/-- All reads are inside of the image. A read outside of a buffer is undefined, so this means that the frame is
made of the bytes of the image alone. -/
def ReadsInside (malloc malloc' : ℕ → UInt8) (rgb : List UInt8) (width height : UInt32) (format : ImageFormat)
    (stride : UInt32) (bottomUp : Bool) : Prop :=
  SameFrame
    (fromRgb malloc (rgb.take (imageBytes width height format (rowDistance width format stride))) width height
      format stride bottomUp)
    (fromRgb malloc' rgb width height format stride bottomUp)

variable {width height : UInt32} {format : ImageFormat}

/-- Buffers with the same rows have the same packed pixels. -/
theorem packedRows_congr {rgb rgb' : List UInt8} {distance distance' : ℕ} {bottomUp bottomUp' : Bool}
    (h : ∀ y < height.toNat, pixelRow rgb distance (lineBytes width format) (rowAt height bottomUp y) =
      pixelRow rgb' distance' (lineBytes width format) (rowAt height bottomUp' y)) :
    packedRows rgb width height format distance bottomUp =
      packedRows rgb' width height format distance' bottomUp' :=
  List.flatMap_congr fun y hy => h y (List.mem_range.mp hy)

/-- A byte of a row in a buffer. -/
theorem getElem?_pixelRow {rgb : List UInt8} {distance count y c : ℕ} (hc : c < count) :
    (pixelRow rgb distance count y)[c]? = rgb[distance * y + c]? := by
  rw [pixelRow, List.getElem?_take_of_lt hc, List.getElem?_drop]

/-- A stride that is not zero is used as it is. -/
theorem loopStride_of_le {stride : UInt32} (hw : 0 < width.toNat) (h : lineBytes width format ≤ stride.toNat) :
    loopStride width stride = stride := by
  have hline : 0 < lineBytes width format := Nat.mul_pos (bytesPerPixel_pos format) hw
  refine if_neg ?_
  rintro rfl
  exact absurd (Nat.lt_of_lt_of_le hline h) (Nat.lt_irrefl 0)

/-- The frame from the bottom up is the frame of the buffer with its rows reversed exactly if the pixels and the
place of the last row can be counted. -/
theorem sameFrame_reversed_iff (hw : 0 < width.toNat) (hh : 0 < height.toNat) {stride : UInt32}
    (hstride : lineBytes width format ≤ stride.toNat) {rgb reversed : List UInt8}
    (hrgb : imageBytes width height format stride.toNat ≤ rgb.length)
    (hreversed : imageBytes width height format stride.toNat ≤ reversed.length)
    (hrows : RowsReversed width height format stride rgb reversed) (malloc malloc' : ℕ → UInt8) :
    SameFrame (fromRgb malloc rgb width height format stride true)
        (fromRgb malloc' reversed width height format stride false) ↔
      pixelBytes width height format < 2 ^ 31 ∧ stride.toNat * (height.toNat - 1) < 2 ^ 32 := by
  have hloop := loopStride_of_le hw hstride
  constructor
  · rintro ⟨f, hf, -⟩
    obtain ⟨hsize, hlast⟩ := of_fromRgb hw hh hf
    rw [hloop] at hlast
    exact ⟨hsize, hlast rfl⟩
  · rintro ⟨hsize, hlast⟩
    refine ⟨_, fromRgb_eq malloc hw hh hsize ?_ ?_, ?_⟩
    · rw [hloop]
      exact fun _ => hlast
    · rwa [hloop]
    · rw [fromRgb_eq malloc' hw hh hsize (fun hup => Bool.noConfusion hup) (by rwa [hloop]), hloop]
      congr 2
      exact packedRows_congr fun y hy => hrows y hy

/-- A row at the beginning of a buffer. -/
theorem pixelRow_take {rgb : List UInt8} {distance count y limit : ℕ} (h : distance * y + count ≤ limit) :
    pixelRow (rgb.take limit) distance count y = pixelRow rgb distance count y := by
  rw [pixelRow, pixelRow, List.drop_take, List.take_take, Nat.min_eq_left (by omega)]

/-- The copying loop does not take larger steps than the rows are apart. -/
theorem loopStride_le (width : UInt32) (format : ImageFormat) (stride : UInt32) :
    (loopStride width stride).toNat ≤ rowDistance width format stride := by
  unfold loopStride rowDistance
  split
  · exact Nat.le_mul_of_pos_left _ (bytesPerPixel_pos format)
  · exact Nat.le_refl _

/-- The place of the last row can be counted for the copying loop if it can for the stride. -/
theorem loopStride_mul_lt_iff {stride : UInt32} (hw : 0 < width.toNat)
    (hsize : pixelBytes width height format < 2 ^ 31)
    (hstride : stride = 0 ∨ lineBytes width format ≤ stride.toNat) :
    (loopStride width stride).toNat * (height.toNat - 1) < 2 ^ 32 ↔
      stride.toNat * (height.toNat - 1) < 2 ^ 32 := by
  rcases hstride with rfl | hle
  · have hcount : width.toNat * (height.toNat - 1) ≤ width.toNat * height.toNat :=
      Nat.mul_le_mul_left _ (Nat.sub_le _ _)
    have hsmall : width.toNat * height.toNat < 2 ^ 31 := count_lt_of_bytes_lt hsize
    have hzero : UInt32.toNat 0 * (height.toNat - 1) = 0 := Nat.zero_mul _
    rw [hzero]
    exact iff_of_true (hcount.trans_lt (by omega)) (by decide)
  · rw [loopStride_of_le hw hle]

/-- All reads are inside of the image exactly if the pixels can be counted and, from the bottom up, the place of
the last row can be. -/
theorem readsInside_iff (hw : 0 < width.toNat) (hh : 0 < height.toNat) {stride : UInt32} (bottomUp : Bool)
    (hstride : stride = 0 ∨ lineBytes width format ≤ stride.toNat) {rgb : List UInt8}
    (hrgb : imageBytes width height format (rowDistance width format stride) ≤ rgb.length)
    (malloc malloc' : ℕ → UInt8) :
    ReadsInside malloc malloc' rgb width height format stride bottomUp ↔
      pixelBytes width height format < 2 ^ 31 ∧
        (bottomUp = true → stride.toNat * (height.toNat - 1) < 2 ^ 32) := by
  have hloop : imageBytes width height format (loopStride width stride).toNat ≤
      imageBytes width height format (rowDistance width format stride) :=
    Nat.add_le_add_right (Nat.mul_le_mul_right _ (loopStride_le width format stride)) _
  constructor
  · rintro ⟨f, -, hf⟩
    obtain ⟨hsize, hlast⟩ := of_fromRgb hw hh hf
    exact ⟨hsize, fun hup => (loopStride_mul_lt_iff hw hsize hstride).mp (hlast hup)⟩
  · rintro ⟨hsize, hlast⟩
    have hlast' := fun hup => (loopStride_mul_lt_iff hw hsize hstride).mpr (hlast hup)
    refine ⟨_, fromRgb_eq malloc hw hh hsize hlast' ?_, ?_⟩
    · rwa [List.length_take_of_le hrgb]
    · rw [fromRgb_eq malloc' hw hh hsize hlast' (hloop.trans hrgb)]
      congr 2
      refine packedRows_congr fun y hy => (pixelRow_take ?_).symm
      have hrow := Nat.le_sub_one_of_lt (rowAt_lt bottomUp hy)
      exact (Nat.add_le_add_right (Nat.mul_le_mul_left _ hrow) _).trans hloop

/-- A byte of a row in the packed pixels. -/
theorem getD_packedRows {rgb : List UInt8} {distance y c : ℕ} (bottomUp : Bool)
    (hrgb : imageBytes width height format distance ≤ rgb.length) (hy : y < height.toNat)
    (hc : c < lineBytes width format) :
    (packedRows rgb width height format distance bottomUp).getD (y * lineBytes width format + c) 0 =
      rgb.getD (distance * rowAt height bottomUp y + c) 0 := by
  rw [List.getD_eq_getElem?_getD, packedRows,
    getElem?_flatMap_range (fun y hy => length_pixelRow hrgb (rowAt_lt bottomUp hy)) hc hy,
    getElem?_pixelRow hc, List.getD_eq_getElem?_getD]

/-- What a function of the colours gives for a pixel in a buffer. -/
def sampleAt (value : UInt8 → UInt8 → UInt8 → ℚ) (format : ImageFormat) (rgb : List UInt8) (i : ℕ) : UInt8 :=
  UInt8.ofNat (trunc (value (rgb.getD (i + redPosition format) 0) (rgb.getD (i + greenPosition format) 0)
    (rgb.getD (i + bluePosition format) 0))).toNat

/-- The first pixel of a row of a frame is the first pixel of a row of the buffer. -/
theorem sample_packedRows (value : UInt8 → UInt8 → UInt8 → ℚ) {rgb : List UInt8} {distance y : ℕ}
    (bottomUp : Bool) (hw : 0 < width.toNat) (hrgb : imageBytes width height format distance ≤ rgb.length)
    (hy : y < height.toNat) :
    sample value format (packedRows rgb width height format distance bottomUp) (y * width.toNat) =
      sampleAt value format rgb (distance * rowAt height bottomUp y) := by
  have hindex : y * width.toNat * bytesPerPixel format = y * lineBytes width format := by
    rw [lineBytes]
    ring
  have hcolour (c : ℕ) (hc : c < bytesPerPixel format) : c < lineBytes width format :=
    Nat.lt_of_lt_of_le hc (Nat.le_mul_of_pos_right _ hw)
  rw [sample, sampleAt, red, green, blue, hindex,
    getD_packedRows bottomUp hrgb hy (hcolour _ (by cases format <;> decide)),
    getD_packedRows bottomUp hrgb hy (hcolour _ (by cases format <;> decide)),
    getD_packedRows bottomUp hrgb hy (hcolour _ (by cases format <;> decide))]

/-- The luminance of the first pixel of a row. -/
theorem luminance_fromRgb {malloc : ℕ → UInt8} {rgb : List UInt8} {stride : UInt32} {bottomUp : Bool}
    {f : YuvFrame} (hw : 0 < width.toNat) (hh : 0 < height.toNat)
    (hrgb : imageBytes width height format (loopStride width stride).toNat ≤ rgb.length)
    (hf : fromRgb malloc rgb width height format stride bottomUp = some f) {y : ℕ} (hy : y < height.toNat) :
    f.y[y * width.toNat]? = some
      (sampleAt yOf format rgb ((loopStride width stride).toNat * rowAt height bottomUp y)) := by
  have hp : y * width.toNat < width.toNat * height.toNat := by
    rw [Nat.mul_comm width.toNat]
    exact Nat.mul_lt_mul_of_pos_right hy hw
  obtain ⟨hsize, hlast⟩ := of_fromRgb hw hh hf
  rw [fromRgb_eq malloc hw hh hsize hlast hrgb, Option.some.injEq] at hf
  rw [← hf, ofPacked, List.getElem?_map, List.getElem?_range hp, Option.map_some,
    sample_packedRows yOf bottomUp hw hrgb hy]

/-- A black buffer with one green pixel, the first one of the second row. -/
def greenDot (width height : UInt32) (format : ImageFormat) : List UInt8 :=
  (List.replicate (imageBytes width height format (lineBytes width format)) 0).set
    (lineBytes width format + greenPosition format) 255

/-- The buffer holds the image without padding. -/
theorem length_greenDot : (greenDot width height format).length =
    imageBytes width height format (lineBytes width format) := by
  rw [greenDot, List.length_set, List.length_replicate]

/-- The pixel at its place is green. -/
theorem sampleAt_greenDot (hw : 0 < width.toNat) (hh : 2 ≤ height.toNat) :
    sampleAt yOf format (greenDot width height format) (lineBytes width format) =
      UInt8.ofNat (trunc (yOf 0 255 0)).toNat := by
  have hinside : lineBytes width format + greenPosition format <
      imageBytes width height format (lineBytes width format) := by
    have hrows : lineBytes width format * 1 ≤ lineBytes width format * (height.toNat - 1) :=
      Nat.mul_le_mul_left _ (by omega)
    have hgreen : greenPosition format < lineBytes width format :=
      Nat.lt_of_lt_of_le (by cases format <;> decide) (Nat.le_mul_of_pos_right _ hw)
    rw [imageBytes]
    omega
  have hother {c : ℕ} (hc : c ≠ greenPosition format) :
      (greenDot width height format).getD (lineBytes width format + c) 0 = 0 := by
    rw [greenDot, List.getD_eq_getElem?_getD, List.getElem?_set_ne (by omega),
      List.getElem?_getD_replicate_default_eq]
  have hgreen : (greenDot width height format).getD (lineBytes width format + greenPosition format) 0 = 255 := by
    rw [greenDot, List.getD_eq_getElem?_getD, List.getElem?_set_self (by rwa [List.length_replicate]),
      Option.getD_some]
  rw [sampleAt, hgreen, hother (by cases format <;> decide), hother (by cases format <;> decide)]

/-- As many bytes behind the beginning as there are pixels in a row, the buffer is black. -/
theorem sampleAt_width_greenDot (hw : 0 < width.toNat) :
    sampleAt yOf format (greenDot width height format) width.toNat = UInt8.ofNat (trunc (yOf 0 0 0)).toNat := by
  have hblack {c : ℕ} (hc : width.toNat + c ≠ lineBytes width format + greenPosition format) :
      (greenDot width height format).getD (width.toNat + c) 0 = 0 := by
    rw [greenDot, List.getD_eq_getElem?_getD, List.getElem?_set_ne hc.symm,
      List.getElem?_getD_replicate_default_eq]
  rw [sampleAt, hblack, hblack, hblack]
  all_goals
    rw [lineBytes]
    cases format <;> simp [bytesPerPixel, redPosition, greenPosition, bluePosition] <;> omega

/-- The row that is copied from the second place of a buffer. -/
theorem exists_rowAt_one (hh : 2 ≤ height.toNat) (bottomUp : Bool) :
    ∃ y < height.toNat, rowAt height bottomUp y = 1 := by
  cases bottomUp with
  | false => exact ⟨1, hh, rfl⟩
  | true =>
    refine ⟨height.toNat - 2, by omega, ?_⟩
    change height.toNat - 1 - (height.toNat - 2) = 1
    omega

/-- With several rows a stride of zero does not stand for rows without padding. -/
theorem not_sameFrame_greenDot (hw : 0 < width.toNat) (hh : 2 ≤ height.toNat)
    (hsize : pixelBytes width height format < 2 ^ 31) (bottomUp : Bool) (malloc malloc' : ℕ → UInt8) :
    ¬ SameFrame (fromRgb malloc (greenDot width height format) width height format 0 bottomUp)
        (fromRgb malloc' (greenDot width height format) width height format
          (UInt32.ofNat (lineBytes width format)) bottomUp) := by
  rintro ⟨f, hzero, hpacked⟩
  obtain ⟨y, hy, hrow⟩ := exists_rowAt_one hh bottomUp
  have hheight : 0 < height.toNat := by omega
  have hline := lineBytes_lt hheight hsize
  have hpackedStride : (UInt32.ofNat (lineBytes width format)).toNat = lineBytes width format := by
    rw [UInt32.toNat_ofNat', Nat.mod_eq_of_lt (by omega)]
  have hloop : (loopStride width (UInt32.ofNat (lineBytes width format))).toNat = lineBytes width format := by
    rw [loopStride_of_le hw hpackedStride.ge, hpackedStride]
  have hloopZero : loopStride width 0 = width := if_pos rfl
  have hwidth : width.toNat ≤ lineBytes width format := Nat.le_mul_of_pos_left _ (bytesPerPixel_pos format)
  have hblack := luminance_fromRgb hw hheight
    (length_greenDot ▸ Nat.add_le_add_right (Nat.mul_le_mul_right _ hwidth) _) hzero hy
  have hgreen := luminance_fromRgb hw hheight (by rw [hloop, length_greenDot]) hpacked hy
  rw [hloopZero, hrow, Nat.mul_one, sampleAt_width_greenDot hw] at hblack
  rw [hloop, hrow, Nat.mul_one, sampleAt_greenDot hw hh, hblack, Option.some.injEq] at hgreen
  exact absurd hgreen (by decide +kernel)

/-- A stride of zero stands for rows without padding in all buffers exactly if there is only one row and its
pixels can be counted. -/
theorem sameFrame_zero_iff (hw : 0 < width.toNat) (hh : 0 < height.toNat) (bottomUp : Bool)
    (malloc malloc' : ℕ → UInt8) :
    (∀ rgb : List UInt8, imageBytes width height format (lineBytes width format) ≤ rgb.length →
        SameFrame (fromRgb malloc rgb width height format 0 bottomUp)
          (fromRgb malloc' rgb width height format (UInt32.ofNat (lineBytes width format)) bottomUp)) ↔
      height.toNat = 1 ∧ pixelBytes width height format < 2 ^ 31 := by
  constructor
  · intro hsame
    obtain ⟨f, hf, -⟩ := hsame (greenDot width height format) length_greenDot.ge
    have hsize := (of_fromRgb hw hh hf).1
    refine ⟨?_, hsize⟩
    by_contra hone
    exact not_sameFrame_greenDot hw (by omega) hsize bottomUp malloc malloc'
      (hsame _ length_greenDot.ge)
  · rintro ⟨hone, hsize⟩ rgb hrgb
    have hbytes (distance : ℕ) : imageBytes width height format distance = lineBytes width format := by
      rw [imageBytes, hone, Nat.sub_self, Nat.mul_zero, Nat.zero_add]
    have hlast (stride : UInt32) : stride.toNat * (height.toNat - 1) < 2 ^ 32 := by
      rw [hone, Nat.sub_self, Nat.mul_zero]
      decide
    refine ⟨_, fromRgb_eq malloc hw hh hsize (fun _ => hlast _) ?_, ?_⟩
    · rw [hbytes] at hrgb ⊢
      exact hrgb
    · rw [fromRgb_eq malloc' hw hh hsize (fun _ => hlast _) (by rw [hbytes] at hrgb ⊢; exact hrgb)]
      congr 2
      refine packedRows_congr fun y hy => ?_
      have hfirst : rowAt height bottomUp y = 0 := by
        have hlt := rowAt_lt bottomUp hy
        omega
      rw [hfirst, pixelRow, pixelRow, Nat.mul_zero, Nat.mul_zero]

/-- A frame honours its stride and its orientation as follows. A stride of zero stands for rows without
padding in all buffers exactly if there is only one row. The frame from the bottom up is that of the buffer with
its rows reversed, and all reads are inside of the image, exactly if the place of the last row can be counted.
In each case the pixels can be counted. -/
theorem fromRgb_honours_iff (malloc malloc' : ℕ → UInt8) (width height : UInt32) (format : ImageFormat)
    (hw : 1 ≤ width.toNat) (hh : 1 ≤ height.toNat) :
    (∀ bottomUp, (∀ rgb : List UInt8, imageBytes width height format (lineBytes width format) ≤ rgb.length →
        SameFrame (fromRgb malloc rgb width height format 0 bottomUp)
          (fromRgb malloc' rgb width height format (UInt32.ofNat (lineBytes width format)) bottomUp)) ↔
      height.toNat = 1 ∧ pixelBytes width height format < 2 ^ 31) ∧
    (∀ stride : UInt32, lineBytes width format ≤ stride.toNat → ∀ rgb reversed : List UInt8,
      imageBytes width height format stride.toNat ≤ rgb.length →
      imageBytes width height format stride.toNat ≤ reversed.length →
      RowsReversed width height format stride rgb reversed →
      (SameFrame (fromRgb malloc rgb width height format stride true)
          (fromRgb malloc' reversed width height format stride false) ↔
        pixelBytes width height format < 2 ^ 31 ∧ stride.toNat * (height.toNat - 1) < 2 ^ 32)) ∧
    ∀ (stride : UInt32) (bottomUp : Bool), stride = 0 ∨ lineBytes width format ≤ stride.toNat →
      ∀ rgb : List UInt8, imageBytes width height format (rowDistance width format stride) ≤ rgb.length →
      (ReadsInside malloc malloc' rgb width height format stride bottomUp ↔
        pixelBytes width height format < 2 ^ 31 ∧
          (bottomUp = true → stride.toNat * (height.toNat - 1) < 2 ^ 32)) := by
  refine ⟨fun bottomUp => ?_, fun stride hstride rgb reversed hrgb hreversed hrows => ?_,
    fun stride bottomUp hstride rgb hrgb => ?_⟩
  · exact sameFrame_zero_iff hw hh bottomUp malloc malloc'
  · exact sameFrame_reversed_iff hw hh hstride hrgb hreversed hrows malloc malloc'
  · exact readsInside_iff hw hh bottomUp hstride hrgb malloc malloc'

/-- Two pixels below each other, with a byte of padding: the frame from the bottom up is that of the reversed
rows, and it is made of the 7 bytes of the image. Of a single row the stride may be zero. -/
theorem fromRgb_honours_iff_twoRows :
    SameFrame (fromRgb (fun _ => 0) [1, 2, 3, 0, 4, 5, 6] 1 2 .RGB24 4 true)
        (fromRgb (fun _ => 0) [4, 5, 6, 0, 1, 2, 3] 1 2 .RGB24 4 false) ∧
      ReadsInside (fun _ => 0) (fun _ => 0) [1, 2, 3, 0, 4, 5, 6, 7, 8] 1 2 .RGB24 4 true ∧
      SameFrame (fromRgb (fun _ => 0) [1, 2, 3, 4, 5, 6] 2 1 .RGB24 0 false)
        (fromRgb (fun _ => 0) [1, 2, 3, 4, 5, 6] 2 1 .RGB24 6 false) := by
  obtain ⟨-, hreversed, hreads⟩ :=
    fromRgb_honours_iff (fun _ => 0) (fun _ => 0) 1 2 .RGB24 (by decide) (by decide)
  obtain ⟨hzero, -⟩ := fromRgb_honours_iff (fun _ => 0) (fun _ => 0) 2 1 .RGB24 (by decide) (by decide)
  have hrows : RowsReversed 1 2 .RGB24 4 [1, 2, 3, 0, 4, 5, 6] [4, 5, 6, 0, 1, 2, 3] := by
    unfold RowsReversed
    decide
  refine ⟨?_, ?_, ?_⟩
  · exact (hreversed 4 (by decide) _ _ (by decide) (by decide) hrows).mpr ⟨by decide, by decide⟩
  · exact (hreads 4 true (.inr (by decide)) _ (by decide)).mpr ⟨by decide, fun _ => by decide⟩
  · exact (hzero false).mpr ⟨rfl, by decide⟩ _ (by decide)

/-- A black pixel above a green one without padding: with a stride of zero the second row is read one byte behind
the first one. -/
theorem fromRgb_overlappingRows :
    ¬ SameFrame (fromRgb (fun _ => 0) [0, 0, 0, 0, 255, 0] 1 2 .RGB24 0 false)
        (fromRgb (fun _ => 0) [0, 0, 0, 0, 255, 0] 1 2 .RGB24 3 false) :=
  not_sameFrame_greenDot (by decide) (by decide) (by decide) false _ _

end YuvFrame

end Ts3Video
