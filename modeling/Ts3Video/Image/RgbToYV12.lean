import Mathlib.Algebra.Order.Field.Rat
import Mathlib.Data.Rat.Floor
import Mathlib.Tactic.Linarith
import Mathlib.Tactic.NormNum
import Ts3Video.Library.CheckedMemory

/-!
# Conversion of pixels into planes

The pixels are converted in place, and their luminance is written out on the way. A second loop then picks the
chrominance of every second pixel of every second row from the converted pixels. The result is what the pixels
give one by one.
-/

namespace Ts3Video

open CheckedMemory

/-- The order of the bytes of a pixel. -/
inductive ImageFormat where
  | RGB24
  | ARGB32
  | BGA24
  | BGRA32
deriving DecidableEq

namespace ImageUtil

/-- Round towards zero. -/
def trunc (x : ℚ) : ℤ := x.num.tdiv x.den

/-- The byte of a number, which is undefined for a number out of range. -/
def toUChar (x : ℚ) : Option UInt8 :=
  if 0 ≤ trunc x ∧ trunc x ≤ 255 then some (UInt8.ofNat (trunc x).toNat) else none

/-- The luminance of a pixel. -/
def yOf (R G B : UInt8) : ℚ :=
  ((R.toNat * 66 + G.toNat * 129 + B.toNat * 25 + 128 : ℤ) : ℚ) / 256 + 16

/-- The first chrominance of a pixel. -/
def uOf (R G B : UInt8) : ℚ :=
  ((R.toNat * -38 + G.toNat * -74 + B.toNat * 112 + 128 : ℤ) : ℚ) / 256 + 128

/-- The second chrominance of a pixel. -/
def vOf (R G B : UInt8) : ℚ :=
  ((R.toNat * 112 + G.toNat * -94 + B.toNat * -18 + 128 : ℤ) : ℚ) / 256 + 128

/-- The number of bytes of a pixel. -/
def bytesPerPixel (format : ImageFormat) : ℕ := if format = .ARGB32 ∨ format = .BGRA32 then 4 else 3

/-- The bytes of a pixel before its colours. -/
def offset (format : ImageFormat) : ℕ := if format = .BGRA32 then 1 else 0

/-- The pixels and the plane of the luminance during the first loop. -/
structure Conversion where
  pRGBData : List UInt8
  pYPlaneOut : List UInt8
  nYPlaneOut : ℕ

/-- Convert the pixel at some index in place and write out its luminance. -/
def convertPixel (format : ImageFormat) (i : ℕ) (s : Conversion) : Option Conversion := do
  let first ← s.pRGBData[i + 0 + offset format]?
  let G ← s.pRGBData[i + 1 + offset format]?
  let third ← s.pRGBData[i + 2 + offset format]?
  let R := if format = .ARGB32 ∨ format = .RGB24 then third else first
  let B := if format = .ARGB32 ∨ format = .RGB24 then first else third
  let y ← toUChar (yOf R G B)
  let u ← toUChar (uOf R G B)
  let v ← toUChar (vOf R G B)
  let pRGBData ← write s.pRGBData (i + 0 + offset format) y
  let pRGBData ← write pRGBData (i + 1 + offset format) u
  let pRGBData ← write pRGBData (i + 2 + offset format) v
  let out ← pRGBData[i + 0 + offset format]?
  let pYPlaneOut ← write s.pYPlaneOut s.nYPlaneOut out
  some ⟨pRGBData, pYPlaneOut, s.nYPlaneOut + 1⟩

/-- The planes of the chrominance and the index of the next pixel during the second loop. -/
structure Downsampling where
  pUPlaneOut : List UInt8
  pVPlaneOut : List UInt8
  iBaseSrc : ℕ

/-- Copy the chrominance of the next pixel. -/
def downsamplePixel (format : ImageFormat) (pRGBData : List UInt8) (halfWidth yPixel xPixel : ℕ)
    (s : Downsampling) : Option Downsampling := do
  guard (IsInt (yPixel * halfWidth + xPixel))
  let u ← pRGBData[s.iBaseSrc + 1 + offset format]?
  let pUPlaneOut ← write s.pUPlaneOut (yPixel * halfWidth + xPixel) u
  let v ← pRGBData[s.iBaseSrc + 2 + offset format]?
  let pVPlaneOut ← write s.pVPlaneOut (yPixel * halfWidth + xPixel) v
  some ⟨pUPlaneOut, pVPlaneOut,
    if format = .ARGB32 ∨ format = .BGRA32 then s.iBaseSrc + 8 else s.iBaseSrc + 6⟩

/-- Copy the chrominance of every second pixel of a row. -/
def downsampleRow (format : ImageFormat) (pRGBData : List UInt8) (nFrameWidth yPixel : ℕ) (s : Downsampling) :
    Option Downsampling := do
  guard (IsInt (yPixel * 2 * nFrameWidth * bytesPerPixel format))
  forLoop 0 (nFrameWidth / 2) 1 (downsamplePixel format pRGBData (nFrameWidth / 2) yPixel)
    { s with iBaseSrc := yPixel * 2 * nFrameWidth * bytesPerPixel format }

/-- The pixels and the planes after the conversion. -/
structure Converted where
  pRGBData : List UInt8
  pFullYPlane : List UInt8
  pDownsampledUPlane : List UInt8
  pDownsampledVPlane : List UInt8

/-- Convert pixels into planes. -/
def rgbToYV12 (pRGBData : List UInt8) (nFrameWidth nFrameHeight : ℕ)
    (pFullYPlane pDownsampledUPlane pDownsampledVPlane : List UInt8) (format : ImageFormat) :
    Option Converted := do
  guard (IsInt (nFrameWidth * nFrameHeight))
  guard (IsInt (nFrameWidth * nFrameHeight * bytesPerPixel format))
  let converted ← forLoop 0 (nFrameWidth * nFrameHeight * bytesPerPixel format) (bytesPerPixel format)
    (convertPixel format) ⟨pRGBData, pFullYPlane, 0⟩
  let planes ← forLoop 0 (nFrameHeight / 2) 1 (downsampleRow format converted.pRGBData nFrameWidth)
    ⟨pDownsampledUPlane, pDownsampledVPlane, 0⟩
  some ⟨converted.pRGBData, converted.pYPlaneOut, planes.pUPlaneOut, planes.pVPlaneOut⟩

/-- The position of the red byte of a pixel. -/
def redPosition : ImageFormat → ℕ
  | .RGB24 => 2
  | .ARGB32 => 2
  | .BGA24 => 0
  | .BGRA32 => 1

/-- The position of the green byte of a pixel. -/
def greenPosition : ImageFormat → ℕ
  | .RGB24 => 1
  | .ARGB32 => 1
  | .BGA24 => 1
  | .BGRA32 => 2

/-- The position of the blue byte of a pixel. -/
def bluePosition : ImageFormat → ℕ
  | .RGB24 => 0
  | .ARGB32 => 0
  | .BGA24 => 2
  | .BGRA32 => 3

/-- The red byte of a pixel. -/
def red (format : ImageFormat) (pixels : List UInt8) (p : ℕ) : UInt8 :=
  pixels.getD (p * bytesPerPixel format + redPosition format) 0

/-- The green byte of a pixel. -/
def green (format : ImageFormat) (pixels : List UInt8) (p : ℕ) : UInt8 :=
  pixels.getD (p * bytesPerPixel format + greenPosition format) 0

/-- The blue byte of a pixel. -/
def blue (format : ImageFormat) (pixels : List UInt8) (p : ℕ) : UInt8 :=
  pixels.getD (p * bytesPerPixel format + bluePosition format) 0

/-- What a function of the colours gives for a pixel, rounded towards zero. -/
def sample (value : UInt8 → UInt8 → UInt8 → ℚ) (format : ImageFormat) (pixels : List UInt8) (p : ℕ) : UInt8 :=
  UInt8.ofNat (trunc (value (red format pixels p) (green format pixels p) (blue format pixels p))).toNat

/-- A number is not negative and at most 255. -/
def InByteRange (x : ℚ) : Prop := 0 ≤ x ∧ x ≤ 255

/-- A pixel has bytes. -/
theorem bytesPerPixel_pos (format : ImageFormat) : 0 < bytesPerPixel format := by
  cases format <;> decide

/-- Pixels can be counted if their bytes can be. -/
theorem count_lt_of_bytes_lt {format : ImageFormat} {count : ℕ} (h : count * bytesPerPixel format < 2 ^ 31) :
    count < 2 ^ 31 :=
  Nat.lt_of_le_of_lt (Nat.le_mul_of_pos_right count (bytesPerPixel_pos format)) h

/-- A number in range is rounded down. -/
theorem trunc_of_nonneg {x : ℚ} (h : 0 ≤ x) : trunc x = ⌊x⌋ := by
  rw [trunc, Int.tdiv_eq_ediv_of_nonneg (Rat.num_nonneg.mpr h)]
  exact Rat.floor_def'.symm

/-- A number in range has a byte. -/
theorem toUChar_of_mem {x : ℚ} (h : InByteRange x) : toUChar x = some (UInt8.ofNat (trunc x).toNat) := by
  have hnonneg : 0 ≤ trunc x := trunc_of_nonneg h.1 ▸ Int.floor_nonneg.mpr h.1
  have hle : trunc x ≤ 255 := by
    rw [trunc_of_nonneg h.1]
    exact Int.cast_le.mp ((Int.floor_le x).trans (by exact_mod_cast h.2))
  exact if_pos ⟨hnonneg, hle⟩

/-- A byte with a weight is between zero and 255 times the weight. -/
theorem weighted_mem (b : UInt8) (weight : ℤ) :
    255 * min weight 0 ≤ b.toNat * weight ∧ b.toNat * weight ≤ 255 * max weight 0 := by
  have hbyte : (b.toNat : ℤ) ≤ 255 := by exact_mod_cast Nat.le_of_lt_succ b.toNat_lt
  rcases le_total weight 0 with hweight | hweight
  · rw [min_eq_left hweight, max_eq_right hweight]
    constructor
    · exact Int.mul_le_mul_of_nonpos_right hbyte hweight
    · exact Int.mul_nonpos_of_nonneg_of_nonpos (Int.natCast_nonneg _) hweight
  · rw [min_eq_right hweight, max_eq_left hweight]
    constructor
    · exact Int.mul_nonneg (Int.natCast_nonneg _) hweight
    · exact Int.mul_le_mul_of_nonneg_right hbyte hweight

/-- A weighted sum of three bytes stays in the range of a byte if it does for the extreme bytes. -/
theorem weightedSum_mem {r g b : ℤ} (shift : ℤ)
    (hlow : 0 ≤ 255 * (min r 0 + min g 0 + min b 0) + 128 + 256 * shift)
    (hhigh : 255 * (max r 0 + max g 0 + max b 0) + 128 + 256 * shift ≤ 256 * 255) (R G B : UInt8) :
    InByteRange (((R.toNat * r + G.toNat * g + B.toNat * b + 128 : ℤ) : ℚ) / 256 + shift) := by
  obtain ⟨hR, hR'⟩ := weighted_mem R r
  obtain ⟨hG, hG'⟩ := weighted_mem G g
  obtain ⟨hB, hB'⟩ := weighted_mem B b
  have hnonneg : 0 ≤ (R.toNat * r + G.toNat * g + B.toNat * b + 128 : ℤ) + 256 * shift := by linarith
  have hle : (R.toNat * r + G.toNat * g + B.toNat * b + 128 : ℤ) + 256 * shift ≤ 256 * 255 := by linarith
  generalize (R.toNat * r + G.toNat * g + B.toNat * b + 128 : ℤ) = total at hnonneg hle ⊢
  have hnonneg' : (0 : ℚ) ≤ total + 256 * shift := by exact_mod_cast hnonneg
  have hle' : (total : ℚ) + 256 * shift ≤ 256 * 255 := by exact_mod_cast hle
  constructor
  · linarith
  · linarith

/-- No luminance leaves the range of a byte. -/
theorem yOf_mem (R G B : UInt8) : InByteRange (yOf R G B) :=
  weightedSum_mem 16 (by decide) (by decide) R G B

/-- No first chrominance leaves the range of a byte. -/
theorem uOf_mem (R G B : UInt8) : InByteRange (uOf R G B) :=
  weightedSum_mem 128 (by decide) (by decide) R G B

/-- No second chrominance leaves the range of a byte. -/
theorem vOf_mem (R G B : UInt8) : InByteRange (vOf R G B) :=
  weightedSum_mem 128 (by decide) (by decide) R G B

/-- The index of a colour of a pixel. -/
def colourIndex (format : ImageFormat) (p c : ℕ) : ℕ := 0 + p * bytesPerPixel format + c + offset format

/-- Different colours of pixels have different indices. -/
theorem colourIndex_inj {format : ImageFormat} {p p' c c' : ℕ} (hc : c < 3) (hc' : c' < 3)
    (h : colourIndex format p c = colourIndex format p' c') : p = p' ∧ c = c' := by
  cases format <;> simp [colourIndex, bytesPerPixel, offset] at h <;> omega

/-- The colours of a pixel are among its bytes. -/
theorem colourIndex_lt {format : ImageFormat} {p c count : ℕ} (hp : p < count) (hc : c < 3) :
    colourIndex format p c < count * bytesPerPixel format := by
  cases format <;> simp [colourIndex, bytesPerPixel, offset] <;> omega

/-- The conversion of a pixel stores its luminance and its chrominance in place of its colours. -/
theorem convertPixel_eq {format : ImageFormat} {p : ℕ} {s : Conversion}
    (hpixels : ∀ c < 3, colourIndex format p c < s.pRGBData.length)
    (hplane : s.nYPlaneOut < s.pYPlaneOut.length) :
    convertPixel format (0 + p * bytesPerPixel format) s =
      some ⟨((s.pRGBData.set (colourIndex format p 0) (sample yOf format s.pRGBData p)).set
            (colourIndex format p 1) (sample uOf format s.pRGBData p)).set
          (colourIndex format p 2) (sample vOf format s.pRGBData p),
        s.pYPlaneOut.set s.nYPlaneOut (sample yOf format s.pRGBData p), s.nYPlaneOut + 1⟩ := by
  have hindex (c : ℕ) :
      0 + p * bytesPerPixel format + c + offset format = colourIndex format p c := rfl
  have hget (c : ℕ) (hc : c < 3) :
      s.pRGBData[colourIndex format p c]? = some (s.pRGBData.getD (colourIndex format p c) 0) := by
    rw [List.getD_eq_getElem?_getD, List.getElem?_eq_getElem (hpixels c hc), Option.getD_some]
  have hred : (if format = .ARGB32 ∨ format = .RGB24 then s.pRGBData.getD (colourIndex format p 2) 0
      else s.pRGBData.getD (colourIndex format p 0) 0) = red format s.pRGBData p := by
    cases format <;> simp [red, redPosition, colourIndex, offset]
  have hgreen : s.pRGBData.getD (colourIndex format p 1) 0 = green format s.pRGBData p := by
    cases format <;> simp [green, greenPosition, colourIndex, offset]
  have hblue : (if format = .ARGB32 ∨ format = .RGB24 then s.pRGBData.getD (colourIndex format p 0) 0
      else s.pRGBData.getD (colourIndex format p 2) 0) = blue format s.pRGBData p := by
    cases format <;> simp [blue, bluePosition, colourIndex, offset]
  have hne (c : ℕ) (hc : c < 3) (h0 : c ≠ 0) : colourIndex format p c ≠ colourIndex format p 0 :=
    fun h => h0 (colourIndex_inj hc (by omega) h).2
  simp only [convertPixel, Option.bind_eq_bind, hindex, hget 0 (by omega), hget 1 (by omega),
    hget 2 (by omega), Option.bind_some, hred, hgreen, hblue, toUChar_of_mem (yOf_mem _ _ _),
    toUChar_of_mem (uOf_mem _ _ _), toUChar_of_mem (vOf_mem _ _ _)]
  rw [write_of_lt (hpixels 0 (by omega)), Option.bind_some,
    write_of_lt (by simpa using hpixels 1 (by omega)), Option.bind_some,
    write_of_lt (by simpa using hpixels 2 (by omega)), Option.bind_some,
    List.getElem?_set_ne (hne 2 (by omega) (by omega)), List.getElem?_set_ne (hne 1 (by omega) (by omega)),
    List.getElem?_set_self (hpixels 0 (by omega)), Option.bind_some, write_of_lt hplane]
  rfl

/-- A sample depends on the colours of its pixel. -/
theorem sample_congr {format : ImageFormat} {pixels pixels' : List UInt8} {p : ℕ}
    (h : ∀ c < 3, pixels[colourIndex format p c]? = pixels'[colourIndex format p c]?)
    (value : UInt8 → UInt8 → UInt8 → ℚ) : sample value format pixels p = sample value format pixels' p := by
  have hbyte (c : ℕ) (hc : c < 3) :
      pixels.getD (colourIndex format p c) 0 = pixels'.getD (colourIndex format p c) 0 := by
    rw [List.getD_eq_getElem?_getD, List.getD_eq_getElem?_getD, h c hc]
  have h0 := hbyte 0 (by omega)
  have h1 := hbyte 1 (by omega)
  have h2 := hbyte 2 (by omega)
  rw [sample, sample]
  cases format <;>
    simp_all [red, green, blue, redPosition, greenPosition, bluePosition, colourIndex, offset]

/-- The first pixels are converted, and the others are as they were. -/
structure HalfConverted (format : ImageFormat) (pixels converted : List UInt8) (count : ℕ) : Prop where
  length_eq : converted.length = pixels.length
  u : ∀ p < count, converted[colourIndex format p 1]? = some (sample uOf format pixels p)
  v : ∀ p < count, converted[colourIndex format p 2]? = some (sample vOf format pixels p)
  rest : ∀ p, count ≤ p → ∀ c < 3, converted[colourIndex format p c]? = pixels[colourIndex format p c]?

/-- At first no pixel is converted. -/
theorem HalfConverted.refl (format : ImageFormat) (pixels : List UInt8) :
    HalfConverted format pixels pixels 0 :=
  ⟨rfl, fun p hp => absurd hp (Nat.not_lt_zero p), fun p hp => absurd hp (Nat.not_lt_zero p),
    fun _ _ _ _ => rfl⟩

/-- The colours of other pixels are not changed. -/
theorem getElem?_set_colour {format : ImageFormat} {bytes : List UInt8} {p p' c c' : ℕ} {value : UInt8}
    (hc : c < 3) (hc' : c' < 3) (h : p' ≠ p ∨ c' ≠ c) :
    (bytes.set (colourIndex format p' c') value)[colourIndex format p c]? =
      bytes[colourIndex format p c]? := by
  refine List.getElem?_set_ne fun hindex => ?_
  obtain ⟨hp, hcolour⟩ := colourIndex_inj hc' hc hindex
  exact h.elim (fun hne => hne hp) fun hne => hne hcolour

/-- The next pixel is converted. -/
theorem HalfConverted.next {format : ImageFormat} {pixels converted : List UInt8} {count : ℕ}
    (h : HalfConverted format pixels converted count) (y : UInt8)
    (hpixels : ∀ c < 3, colourIndex format count c < pixels.length) :
    HalfConverted format pixels
      (((converted.set (colourIndex format count 0) y).set (colourIndex format count 1)
          (sample uOf format pixels count)).set (colourIndex format count 2) (sample vOf format pixels count))
      (count + 1) := by
  have hlt (c : ℕ) (hc : c < 3) : colourIndex format count c < converted.length :=
    h.length_eq.symm ▸ hpixels c hc
  refine ⟨by simp [h.length_eq], fun p hp => ?_, fun p hp => ?_, fun p hp c hc => ?_⟩
  · rw [getElem?_set_colour (by omega) (by omega) (.inr (by omega))]
    rcases Nat.lt_succ_iff_lt_or_eq.mp hp with hbefore | rfl
    · rw [getElem?_set_colour (by omega) (by omega) (.inl (by omega)),
        getElem?_set_colour (by omega) (by omega) (.inr (by omega)), h.u p hbefore]
    · rw [List.getElem?_set_self (by simpa using hlt 1 (by omega))]
  · rcases Nat.lt_succ_iff_lt_or_eq.mp hp with hbefore | rfl
    · rw [getElem?_set_colour (by omega) (by omega) (.inl (by omega)),
        getElem?_set_colour (by omega) (by omega) (.inl (by omega)),
        getElem?_set_colour (by omega) (by omega) (.inl (by omega)), h.v p hbefore]
    · rw [List.getElem?_set_self (by simpa using hlt 2 (by omega))]
  · rw [getElem?_set_colour hc (by omega) (.inl (by omega)),
      getElem?_set_colour hc (by omega) (.inl (by omega)),
      getElem?_set_colour hc (by omega) (.inl (by omega)), h.rest p (by omega) c hc]

/-- The first pixels are converted and their luminance is written out. -/
structure Converting (format : ImageFormat) (pixels plane : List UInt8) (count : ℕ) (s : Conversion) :
    Prop where
  converted : HalfConverted format pixels s.pRGBData count
  written : Written plane s.pYPlaneOut count (sample yOf format pixels)
  next : s.nYPlaneOut = count

/-- An iteration of the first loop converts the next pixel. -/
theorem Converting.step {format : ImageFormat} {pixels plane : List UInt8} {count k : ℕ} {s : Conversion}
    (h : Converting format pixels plane k s) (hpixels : pixels.length = count * bytesPerPixel format)
    (hplane : count ≤ plane.length) (hk : k < count) :
    ∃ s', convertPixel format (0 + k * bytesPerPixel format) s = some s' ∧
      Converting format pixels plane (k + 1) s' := by
  have hinside (c : ℕ) (hc : c < 3) : colourIndex format k c < pixels.length :=
    hpixels.symm ▸ colourIndex_lt hk hc
  have hsample := sample_congr (h.converted.rest k (Nat.le_refl k))
  refine ⟨_, convertPixel_eq (fun c hc => h.converted.length_eq.symm ▸ hinside c hc)
    (h.written.lt_length (h.next ▸ Nat.lt_of_lt_of_le hk hplane)), ?_, ?_, congrArg (· + 1) h.next⟩
  · rw [hsample, hsample, hsample]
    exact h.converted.next _ hinside
  · rw [hsample, h.next]
    exact h.written.set_next (Nat.lt_of_lt_of_le hk hplane)

/-- The first loop converts all pixels and writes out their luminance. -/
theorem convertPixels_eq {format : ImageFormat} {pixels plane : List UInt8} {count : ℕ}
    (hpixels : pixels.length = count * bytesPerPixel format) (hplane : count ≤ plane.length) :
    ∃ s, forLoop 0 (count * bytesPerPixel format) (bytesPerPixel format) (convertPixel format)
        ⟨pixels, plane, 0⟩ = some s ∧ Converting format pixels plane count s := by
  have hcount : iterations 0 (count * bytesPerPixel format) (bytesPerPixel format) = count :=
    iterations_mul count (bytesPerPixel_pos format)
  have hinit : Converting format pixels plane 0 ⟨pixels, plane, 0⟩ :=
    ⟨HalfConverted.refl format pixels, Written.refl plane _, rfl⟩
  obtain ⟨s, hrun, h⟩ := forLoop_invariant (Converting format pixels plane)
    (fun k s hk h => h.step hpixels hplane (hcount ▸ hk)) hinit
  exact ⟨s, hrun, hcount ▸ h⟩

/-- The pixel of an element of a plane with half the width. -/
def downsampledPixel (width n : ℕ) : ℕ := 2 * (n / (width / 2)) * width + 2 * (n % (width / 2))

/-- The first elements of the planes of the chrominance are written. -/
structure Picking (format : ImageFormat) (pixels uPlane vPlane : List UInt8) (width count : ℕ)
    (s : Downsampling) : Prop where
  u : Written uPlane s.pUPlaneOut count fun n => sample uOf format pixels (downsampledPixel width n)
  v : Written vPlane s.pVPlaneOut count fun n => sample vOf format pixels (downsampledPixel width n)

/-- The pixel of an element in some row and column. -/
theorem downsampledPixel_eq {width x : ℕ} (hx : x < width / 2) (y : ℕ) :
    downsampledPixel width (y * (width / 2) + x) = 2 * y * width + 2 * x := by
  have hdiv : (y * (width / 2) + x) / (width / 2) = y := by
    rw [Nat.add_comm, Nat.add_mul_div_right _ _ (by omega), Nat.div_eq_of_lt hx, Nat.zero_add]
  have hmod : (y * (width / 2) + x) % (width / 2) = x := by
    rw [Nat.add_comm, Nat.add_mul_mod_self_right, Nat.mod_eq_of_lt hx]
  rw [downsampledPixel, hdiv, hmod]

/-- An iteration of the inner loop copies the chrominance of the next pixel of a row. -/
theorem Picking.step {format : ImageFormat} {pixels converted uPlane vPlane : List UInt8}
    {width height x y : ℕ} {s : Downsampling}
    (h : Picking format pixels uPlane vPlane width (y * (width / 2) + x) s)
    (hbase : s.iBaseSrc = (2 * y * width + 2 * x) * bytesPerPixel format)
    (hconverted : HalfConverted format pixels converted (width * height))
    (hsize : width * height < 2 ^ 31) (hu : width / 2 * (height / 2) ≤ uPlane.length)
    (hv : width / 2 * (height / 2) ≤ vPlane.length) (hx : x < width / 2) (hy : y < height / 2) :
    ∃ s', downsamplePixel format converted (width / 2) y x s = some s' ∧
      Picking format pixels uPlane vPlane width (y * (width / 2) + (x + 1)) s' ∧
      s'.iBaseSrc = (2 * y * width + 2 * (x + 1)) * bytesPerPixel format := by
  have hpixel : 2 * y * width + 2 * x < width * height := rowIndex_lt (by omega) (by omega)
  have hindex : y * (width / 2) + x < width / 2 * (height / 2) := rowIndex_lt hx hy
  have hint : IsInt (y * ↑(width / 2) + x) := by
    have hquarter : width / 2 * (height / 2) ≤ width * height :=
      Nat.mul_le_mul (Nat.div_le_self _ _) (Nat.div_le_self _ _)
    exact_mod_cast isInt_natCast (by omega)
  have hcolour (c : ℕ) :
      s.iBaseSrc + c + offset format = colourIndex format (2 * y * width + 2 * x) c := by
    rw [hbase, colourIndex, Nat.zero_add]
  have hnextU := h.u.set_next (Nat.lt_of_lt_of_le hindex hu)
  have hnextV := h.v.set_next (Nat.lt_of_lt_of_le hindex hv)
  rw [downsampledPixel_eq hx] at hnextU hnextV
  have hnext : (if format = .ARGB32 ∨ format = .BGRA32 then s.iBaseSrc + 8 else s.iBaseSrc + 6) =
      (2 * y * width + 2 * (x + 1)) * bytesPerPixel format := by
    generalize 2 * y * width = row at hbase
    rw [hbase]
    cases format with
    | RGB24 | BGA24 =>
      change (row + 2 * x) * 3 + 6 = (row + 2 * (x + 1)) * 3
      omega
    | ARGB32 | BGRA32 =>
      change (row + 2 * x) * 4 + 8 = (row + 2 * (x + 1)) * 4
      omega
  refine ⟨⟨s.pUPlaneOut.set (y * (width / 2) + x) (sample uOf format pixels (2 * y * width + 2 * x)),
    s.pVPlaneOut.set (y * (width / 2) + x) (sample vOf format pixels (2 * y * width + 2 * x)),
    if format = .ARGB32 ∨ format = .BGRA32 then s.iBaseSrc + 8 else s.iBaseSrc + 6⟩,
    ?_, ⟨hnextU, hnextV⟩, hnext⟩
  simp only [downsamplePixel, Option.bind_eq_bind, guard_bind_of hint, Option.bind_some, hcolour,
    hconverted.u _ hpixel, hconverted.v _ hpixel,
    write_of_lt (h.u.lt_length (Nat.lt_of_lt_of_le hindex hu)),
    write_of_lt (h.v.lt_length (Nat.lt_of_lt_of_le hindex hv))]

/-- The inner loop copies the chrominance of every second pixel of a row. -/
theorem Picking.row {format : ImageFormat} {pixels converted uPlane vPlane : List UInt8}
    {width height y : ℕ} {s : Downsampling}
    (h : Picking format pixels uPlane vPlane width (y * (width / 2)) s)
    (hconverted : HalfConverted format pixels converted (width * height))
    (hsize : width * height * bytesPerPixel format < 2 ^ 31)
    (hu : width / 2 * (height / 2) ≤ uPlane.length) (hv : width / 2 * (height / 2) ≤ vPlane.length)
    (hy : y < height / 2) :
    ∃ s', downsampleRow format converted width y s = some s' ∧
      Picking format pixels uPlane vPlane width ((y + 1) * (width / 2)) s' := by
  have hcount : width * height < 2 ^ 31 := count_lt_of_bytes_lt hsize
  have hint : IsInt (y * 2 * width * bytesPerPixel format) := by
    have hrow : y * 2 * width ≤ width * height := by
      rw [Nat.mul_comm width]
      exact Nat.mul_le_mul_right width (by omega)
    exact_mod_cast isInt_natCast (Nat.lt_of_le_of_lt (Nat.mul_le_mul_right _ hrow) hsize)
  have hstart : Picking format pixels uPlane vPlane width (y * (width / 2) + 0)
      { s with iBaseSrc := y * 2 * width * bytesPerPixel format } := ⟨h.u, h.v⟩
  have hbase : y * 2 * width * bytesPerPixel format = (2 * y * width + 2 * 0) * bytesPerPixel format := by
    rw [Nat.mul_comm y 2, Nat.mul_zero, Nat.add_zero]
  obtain ⟨s', hrun, hpicked, -⟩ := forLoop_one_invariant
    (fun x t => Picking format pixels uPlane vPlane width (y * (width / 2) + x) t ∧
      t.iBaseSrc = (2 * y * width + 2 * x) * bytesPerPixel format)
    (fun x t hx ht => ht.1.step ht.2 hconverted hcount hu hv hx hy) ⟨hstart, hbase⟩
  refine ⟨s', ?_, by rwa [Nat.succ_mul]⟩
  rw [downsampleRow, Option.bind_eq_bind, guard_bind_of hint]
  exact hrun

/-- A plane whose elements were written in rows, for every second pixel of every second row, and nothing
else. -/
structure WrittenDownsampled (old new : List UInt8) (width height : ℕ) (value : ℕ → UInt8) : Prop where
  length_eq : new.length = old.length
  inside : ∀ x < width / 2, ∀ y < height / 2, new[y * (width / 2) + x]? = some (value (2 * y * width + 2 * x))
  outside : ∀ n, width / 2 * (height / 2) ≤ n → new[n]? = old[n]?

/-- A plane that is written element by element is written in rows. -/
theorem WrittenDownsampled.of_written {old new : List UInt8} {width height : ℕ} {value : ℕ → UInt8}
    (h : Written old new (height / 2 * (width / 2)) fun n => value (downsampledPixel width n)) :
    WrittenDownsampled old new width height value := by
  rw [Nat.mul_comm] at h
  refine ⟨h.length_eq, fun x hx y hy => ?_, h.outside⟩
  rw [h.inside _ (rowIndex_lt hx hy), downsampledPixel_eq hx]

/-- The conversion of pixels is defined and writes the planes element by element. -/
theorem rgbToYV12_written {format : ImageFormat} {width height : ℕ} {pixels yPlane uPlane vPlane : List UInt8}
    (hsize : width * height * bytesPerPixel format < 2 ^ 31)
    (hpixels : pixels.length = width * height * bytesPerPixel format)
    (hy : width * height ≤ yPlane.length) (hu : width / 2 * (height / 2) ≤ uPlane.length)
    (hv : width / 2 * (height / 2) ≤ vPlane.length) :
    ∃ result, rgbToYV12 pixels width height yPlane uPlane vPlane format = some result ∧
      Written yPlane result.pFullYPlane (width * height) (sample yOf format pixels) ∧
      Written uPlane result.pDownsampledUPlane (height / 2 * (width / 2))
        (fun n => sample uOf format pixels (downsampledPixel width n)) ∧
      Written vPlane result.pDownsampledVPlane (height / 2 * (width / 2))
        (fun n => sample vOf format pixels (downsampledPixel width n)) := by
  have hcount : width * height < 2 ^ 31 := count_lt_of_bytes_lt hsize
  have hcountInt : IsInt (width * height) := by exact_mod_cast isInt_natCast hcount
  have hsizeInt : IsInt (width * height * bytesPerPixel format) := by exact_mod_cast isInt_natCast hsize
  obtain ⟨s, hconvert, hs⟩ := convertPixels_eq hpixels hy
  have hinit : Picking format pixels uPlane vPlane width (0 * (width / 2)) ⟨uPlane, vPlane, 0⟩ := by
    rw [Nat.zero_mul]
    exact ⟨Written.refl _ _, Written.refl _ _⟩
  obtain ⟨planes, hpick, hplanes⟩ := forLoop_one_invariant
    (fun y t => Picking format pixels uPlane vPlane width (y * (width / 2)) t)
    (fun y t hy ht => ht.row hs.converted hsize hu hv hy) hinit
  refine ⟨⟨s.pRGBData, s.pYPlaneOut, planes.pUPlaneOut, planes.pVPlaneOut⟩, ?_, hs.written, hplanes.u,
    hplanes.v⟩
  simp only [rgbToYV12, Option.bind_eq_bind, guard_bind_of hcountInt, guard_bind_of hsizeInt,
    Option.bind_some, hconvert, hpick]

/-- The conversion of pixels is defined for all planes that are large enough. It writes the luminance of
every pixel and the chrominance of every second pixel of every second row, taken from the original pixels,
and nothing else, and no number leaves the range of a byte. -/
theorem rgbToYV12_eq (format : ImageFormat) (width height : ℕ) (pixels yPlane uPlane vPlane : List UInt8)
    (hsize : width * height * bytesPerPixel format < 2 ^ 31)
    (hpixels : pixels.length = width * height * bytesPerPixel format)
    (hy : width * height ≤ yPlane.length) (hu : width / 2 * (height / 2) ≤ uPlane.length)
    (hv : width / 2 * (height / 2) ≤ vPlane.length) :
    (∃ result, rgbToYV12 pixels width height yPlane uPlane vPlane format = some result ∧
      Written yPlane result.pFullYPlane (width * height) (sample yOf format pixels) ∧
      WrittenDownsampled uPlane result.pDownsampledUPlane width height (sample uOf format pixels) ∧
      WrittenDownsampled vPlane result.pDownsampledVPlane width height (sample vOf format pixels)) ∧
    ∀ R G B : UInt8, InByteRange (yOf R G B) ∧ InByteRange (uOf R G B) ∧ InByteRange (vOf R G B) := by
  obtain ⟨result, hrun, hyWritten, huWritten, hvWritten⟩ := rgbToYV12_written hsize hpixels hy hu hv
  exact ⟨⟨result, hrun, hyWritten, .of_written huWritten, .of_written hvWritten⟩,
    fun R G B => ⟨yOf_mem R G B, uOf_mem R G B, vOf_mem R G B⟩⟩

/-- The bytes of an image whose pixels differ in colour. -/
def coloured (length : ℕ) : List UInt8 := (List.range length).map fun n => UInt8.ofNat (37 * n * n)

/-- The luminance of the last pixel and the chrominance of the first one in an image with three pixels in
each of its three rows. Every format takes the bytes for other colours. -/
theorem rgbToYV12_eq_coloured :
    (∃ result, rgbToYV12 (coloured 27) 3 3 (List.replicate 9 0) [0] [0] .RGB24 = some result ∧
      result.pFullYPlane[8]? = some 111 ∧ result.pDownsampledUPlane[0]? = some 95 ∧
      result.pDownsampledVPlane[0]? = some 179) ∧
    (∃ result, rgbToYV12 (coloured 36) 3 3 (List.replicate 9 0) [0] [0] .ARGB32 = some result ∧
      result.pFullYPlane[8]? = some 72 ∧ result.pDownsampledUPlane[0]? = some 95 ∧
      result.pDownsampledVPlane[0]? = some 179) ∧
    (∃ result, rgbToYV12 (coloured 27) 3 3 (List.replicate 9 0) [0] [0] .BGA24 = some result ∧
      result.pFullYPlane[8]? = some 93 ∧ result.pDownsampledUPlane[0]? = some 182 ∧
      result.pDownsampledVPlane[0]? = some 104) ∧
    (∃ result, rgbToYV12 (coloured 36) 3 3 (List.replicate 9 0) [0] [0] .BGRA32 = some result ∧
      result.pFullYPlane[8]? = some 53 ∧ result.pDownsampledUPlane[0]? = some 113 ∧
      result.pDownsampledVPlane[0]? = some 84) := by
  have hplanes : ∀ format y u v,
      (sample yOf format (coloured (9 * bytesPerPixel format)) 8,
        sample uOf format (coloured (9 * bytesPerPixel format)) 0,
        sample vOf format (coloured (9 * bytesPerPixel format)) 0) = (y, u, v) →
      ∃ result, rgbToYV12 (coloured (9 * bytesPerPixel format)) 3 3 (List.replicate 9 0) [0] [0] format =
          some result ∧ result.pFullYPlane[8]? = some y ∧ result.pDownsampledUPlane[0]? = some u ∧
        result.pDownsampledVPlane[0]? = some v := by
    intro format y u v hvalues
    obtain ⟨rfl, rfl, rfl⟩ : _ ∧ _ ∧ _ := by simpa only [Prod.mk.injEq] using hvalues
    have hpixels : (coloured (9 * bytesPerPixel format)).length = 3 * 3 * bytesPerPixel format := by
      rw [coloured, List.length_map, List.length_range]
    have hsize : 3 * 3 * bytesPerPixel format < 2 ^ 31 := by
      cases format with
      | _ => decide
    obtain ⟨⟨result, hrun, hy, hu, hv⟩, -⟩ := rgbToYV12_eq format 3 3 (coloured (9 * bytesPerPixel format))
      (List.replicate 9 0) [0] [0] hsize hpixels (by decide) (by decide) (by decide)
    exact ⟨result, hrun, hy.inside 8 (by decide), hu.inside 0 (by decide) 0 (by decide),
      hv.inside 0 (by decide) 0 (by decide)⟩
  exact ⟨hplanes .RGB24 111 95 179 (by decide +kernel), hplanes .ARGB32 72 95 179 (by decide +kernel),
    hplanes .BGA24 93 182 104 (by decide +kernel), hplanes .BGRA32 53 113 84 (by decide +kernel)⟩

end ImageUtil

end Ts3Video
