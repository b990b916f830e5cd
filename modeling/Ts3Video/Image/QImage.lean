import Ts3Video.Image.ChromaUpsampling
import Ts3Video.Image.RgbToYV12

/-!
# Frames of images

An image has its pixels in scan lines, which are aligned to 4 bytes. A frame is made of the first bytes of an
image, as many as its pixels have. These are its pixels exactly if the scan lines have no padding or there is
only one of them.
-/

namespace Ts3Video

open CheckedMemory ImageUtil

/-- The formats of images that can be converted. -/
inductive QImage.Format where
  | RGB32
  | ARGB32
  | RGB888
deriving DecidableEq

namespace QImage

/-- The number of bits of a pixel. -/
def Format.depth : Format → ℕ
  | .RGB32 => 32
  | .ARGB32 => 32
  | .RGB888 => 24

/-- The number of bytes of a scan line, a multiple of 4. -/
def alignedBytes (width : ℕ) (format : Format) : ℕ := (width * format.depth + 31) / 32 * 4

/-- An image may have these sizes: its lines and its bytes can be counted. -/
structure Fits (width height : ℕ) (format : Format) : Prop where
  width_pos : 0 < width
  height_pos : 0 < height
  line : width * format.depth < 2 ^ 31
  bytes : alignedBytes width format * height < 2 ^ 31

/-- The numbers are compared. -/
instance (width height : ℕ) (format : Format) : Decidable (Fits width height format) :=
  decidable_of_iff (0 < width ∧ 0 < height ∧ width * format.depth < 2 ^ 31 ∧
      alignedBytes width format * height < 2 ^ 31)
    ⟨fun h => ⟨h.1, h.2.1, h.2.2.1, h.2.2.2⟩, fun h => ⟨h.1, h.2, h.3, h.4⟩⟩

end QImage

/-- An image: the bytes of its scan lines. -/
structure QImage where
  width : ℕ
  height : ℕ
  format : QImage.Format
  bits : List UInt8
  fits : QImage.Fits width height format
  bits_length : bits.length = QImage.alignedBytes width format * height

namespace QImage

variable (image : QImage)

/-- The number of bytes of a pixel. -/
def pixelBytes : ℕ := image.format.depth / 8

/-- The bytes of a pixel. -/
def pixel (x y : ℕ) : List UInt8 :=
  (image.bits.drop (alignedBytes image.width image.format * y + x * image.pixelBytes)).take image.pixelBytes

/-- The pixels of a scan line, without its padding. -/
def scanLine (y : ℕ) : List UInt8 :=
  (image.bits.drop (y * alignedBytes image.width image.format)).take (image.width * image.pixelBytes)

/-- The tightly packed pixels, row by row. -/
def packed : List UInt8 := (List.range image.height).flatMap image.scanLine

end QImage

/-- The order of the bytes of the pixels of an image. -/
def imageFormat : QImage.Format → ImageFormat
  | .ARGB32 => .ARGB32
  | .RGB32 => .ARGB32
  | .RGB888 => .RGB24

namespace YuvFrame

/-- The frame of planes with its sizes. -/
def ofPlanes (width height : ℕ) (planes : Converted) : Option YuvFrame :=
  if h : planes.pFullYPlane.length = (UInt32.ofNat width).toNat * (UInt32.ofNat height).toNat ∧
      planes.pDownsampledUPlane.length =
        (UInt32.ofNat width).toNat / 2 * ((UInt32.ofNat height).toNat / 2) ∧
      planes.pDownsampledVPlane.length =
        (UInt32.ofNat width).toNat / 2 * ((UInt32.ofNat height).toNat / 2) then
    some ⟨UInt32.ofNat width, UInt32.ofNat height, planes.pFullYPlane, planes.pDownsampledUPlane,
      planes.pDownsampledVPlane, h.1, h.2.1, h.2.2⟩
  else none

/-- Allocate the planes of a frame, with arbitrary content, and convert pixels. -/
def ofPixels (malloc : ℕ → UInt8) (width height : ℕ) (pixels : List UInt8) (format : ImageFormat) :
    Option YuvFrame := do
  let alloc := fun size => (List.range size).map malloc
  let planes ← rgbToYV12 pixels width height (alloc (width * height)) (alloc (width / 2 * (height / 2)))
    (alloc (width / 2 * (height / 2))) format
  ofPlanes width height planes

/-- The frame of an image. -/
def fromQImage (malloc : ℕ → UInt8) (img : QImage) : Option YuvFrame := do
  guard (IsInt (img.width * img.height))
  let numpixel := img.width * img.height
  let bytesPerPixel := img.format.depth / 8
  let orig ← memcpy img.bits (bytesPerPixel * numpixel)
  ofPixels malloc img.width img.height orig (imageFormat img.format)

end YuvFrame

/-- The pixels of an image have as many bytes as in the conversion. -/
theorem bytesPerPixel_imageFormat (format : QImage.Format) :
    bytesPerPixel (imageFormat format) = format.depth / 8 := by
  cases format <;> rfl

namespace QImage

/-- The lines of an image hold their pixels, with padding only for the pixels of 3 bytes. -/
theorem alignedBytes_eq (width : ℕ) (format : Format) :
    alignedBytes width format =
      width * (format.depth / 8) + if format = .RGB888 then (4 - width * 3 % 4) % 4 else 0 := by
  cases format <;> simp [alignedBytes, Format.depth] <;> omega

/-- The lines of an image are long enough for its pixels. -/
theorem le_alignedBytes (width : ℕ) (format : Format) :
    width * (format.depth / 8) ≤ alignedBytes width format :=
  alignedBytes_eq width format ▸ Nat.le_add_right _ _

/-- The bytes of the pixels can be counted. -/
theorem Fits.pixels_lt {width height : ℕ} {format : Format} (h : Fits width height format) :
    width * height * (format.depth / 8) < 2 ^ 31 := by
  calc width * height * (format.depth / 8) = width * (format.depth / 8) * height := Nat.mul_right_comm _ _ _
    _ ≤ alignedBytes width format * height := Nat.mul_le_mul_right _ (le_alignedBytes width format)
    _ < 2 ^ 31 := h.bytes

/-- The pixels can be counted. -/
theorem Fits.count_lt {width height : ℕ} {format : Format} (h : Fits width height format) :
    width * height < 2 ^ 31 := by
  have hbytes := h.pixels_lt
  rw [← bytesPerPixel_imageFormat] at hbytes
  exact count_lt_of_bytes_lt hbytes

/-- The sizes of an image can be stored in 32 bits. -/
theorem Fits.sizes_lt {width height : ℕ} {format : Format} (h : Fits width height format) :
    width < 2 ^ 32 ∧ height < 2 ^ 32 := by
  have hpixels := h.count_lt
  have hwidth := Nat.le_mul_of_pos_right width h.height_pos
  have hheight := Nat.le_mul_of_pos_left height h.width_pos
  omega

variable (image : QImage)

/-- A scan line has its pixels. -/
theorem length_scanLine {y : ℕ} (hy : y < image.height) :
    (image.scanLine y).length = image.width * image.pixelBytes := by
  have hline := le_alignedBytes image.width image.format
  have hlast : (y + 1) * alignedBytes image.width image.format ≤ image.bits.length := by
    rw [image.bits_length, Nat.mul_comm]
    exact Nat.mul_le_mul_left _ hy
  rw [Nat.succ_mul] at hlast
  rw [scanLine, List.length_take, List.length_drop, pixelBytes]
  omega

/-- The packed pixels have no padding. -/
theorem length_packed : image.packed.length = image.width * image.height * image.pixelBytes := by
  rw [packed, length_flatMap_range fun y hy => image.length_scanLine hy, Nat.mul_comm image.height,
    Nat.mul_right_comm]

/-- The first bytes are the packed pixels if the scan lines have no padding or there is only one of them. -/
theorem take_eq_packed
    (h : alignedBytes image.width image.format = image.width * image.pixelBytes ∨ image.height = 1) :
    image.bits.take (image.pixelBytes * (image.width * image.height)) = image.packed := by
  rcases h with hpacked | hone
  · have hcount : image.pixelBytes * (image.width * image.height) =
        image.height * (image.width * image.pixelBytes) := by
      rw [Nat.mul_comm, Nat.mul_right_comm, Nat.mul_comm]
    rw [hcount, take_eq_flatMap_range, packed]
    congr 1
    funext y
    rw [scanLine, hpacked]
  · rw [packed, hone, Nat.mul_one, Nat.mul_comm, List.range_one, List.flatMap_singleton, scanLine,
      Nat.zero_mul, List.drop_zero]

end QImage

namespace YuvFrame

variable (malloc : ℕ → UInt8)

/-- The conversion of pixels gives a frame with their luminance. -/
theorem ofPixels_eq {width height : ℕ} {pixels : List UInt8} (format : ImageFormat)
    (hsize : width * height * bytesPerPixel format < 2 ^ 31)
    (hpixels : pixels.length = width * height * bytesPerPixel format) (hwidth : width < 2 ^ 32)
    (hheight : height < 2 ^ 32) :
    ∃ f, ofPixels malloc width height pixels format = some f ∧
      ∀ p < width * height, f.y[p]? = some (sample yOf format pixels p) := by
  obtain ⟨result, hrun, hy, hu, hv⟩ := rgbToYV12_written hsize hpixels (length_alloc malloc (width * height)).ge
    (length_alloc malloc (width / 2 * (height / 2))).ge (length_alloc malloc (width / 2 * (height / 2))).ge
  have hlengths : result.pFullYPlane.length = (UInt32.ofNat width).toNat * (UInt32.ofNat height).toNat ∧
      result.pDownsampledUPlane.length =
        (UInt32.ofNat width).toNat / 2 * ((UInt32.ofNat height).toNat / 2) ∧
      result.pDownsampledVPlane.length =
        (UInt32.ofNat width).toNat / 2 * ((UInt32.ofNat height).toNat / 2) := by
    rw [UInt32.toNat_ofNat', UInt32.toNat_ofNat', Nat.mod_eq_of_lt hwidth, Nat.mod_eq_of_lt hheight,
      hy.length_eq, hu.length_eq, hv.length_eq, length_alloc, length_alloc]
    exact ⟨rfl, rfl, rfl⟩
  refine ⟨⟨UInt32.ofNat width, UInt32.ofNat height, result.pFullYPlane, result.pDownsampledUPlane,
    result.pDownsampledVPlane, hlengths.1, hlengths.2.1, hlengths.2.2⟩, ?_, hy.inside⟩
  simp only [ofPixels, Option.bind_eq_bind, hrun, Option.bind_some, ofPlanes, dif_pos hlengths]

/-- The frame of an image is made of its first bytes. -/
theorem fromQImage_eq (image : QImage) :
    fromQImage malloc image = ofPixels malloc image.width image.height
      (image.bits.take (image.pixelBytes * (image.width * image.height))) (imageFormat image.format) := by
  have hint : IsInt (image.width * image.height) := by exact_mod_cast isInt_natCast image.fits.count_lt
  have hbits : image.format.depth / 8 * (image.width * image.height) ≤ image.bits.length := by
    rw [image.bits_length, Nat.mul_comm, Nat.mul_right_comm]
    exact Nat.mul_le_mul_right _ (QImage.le_alignedBytes _ _)
  have hcopy : memcpy image.bits (image.format.depth / 8 * (image.width * image.height)) =
      some (image.bits.take (image.format.depth / 8 * (image.width * image.height))) := if_pos hbits
  rw [fromQImage, Option.bind_eq_bind, guard_bind_of hint]
  change (memcpy image.bits (image.format.depth / 8 * (image.width * image.height))).bind
    (fun orig => ofPixels malloc image.width image.height orig (imageFormat image.format)) = _
  rw [hcopy, Option.bind_some, QImage.pixelBytes]

/-- The frame of an image is made of its packed pixels. -/
def IsPacked (image : QImage) : Prop :=
  ∃ f, fromQImage malloc image = some f ∧
    ofPixels malloc image.width image.height image.packed (imageFormat image.format) = some f

/-- The frame of an image without padding between its pixels is made of its packed pixels. -/
theorem isPacked_of_aligned (image : QImage)
    (h : QImage.alignedBytes image.width image.format = image.width * image.pixelBytes ∨ image.height = 1) :
    IsPacked malloc image := by
  have hbytes := bytesPerPixel_imageFormat image.format
  obtain ⟨hwidth, hheight⟩ := image.fits.sizes_lt
  obtain ⟨f, hf, -⟩ := ofPixels_eq malloc _ (hbytes ▸ image.fits.pixels_lt)
    (image.length_packed.trans (congrArg (image.width * image.height * ·) hbytes.symm)) hwidth hheight
  exact ⟨f, by rw [fromQImage_eq, image.take_eq_packed h, hf], hf⟩

/-- An image whose first scan line is black and whose others are white, padding included. -/
def blackAboveWhite {width height : ℕ} {format : QImage.Format} (h : QImage.Fits width height format) :
    QImage where
  width := width
  height := height
  format := format
  bits := (List.range (QImage.alignedBytes width format * height)).map fun n =>
    if n < QImage.alignedBytes width format then 0 else 255
  fits := h
  bits_length := by rw [List.length_map, List.length_range]

/-- The bytes of the first scan line are black, and those of the others are white. -/
theorem getElem?_blackAboveWhite {width height : ℕ} {format : QImage.Format}
    (h : QImage.Fits width height format) {n : ℕ} (hn : n < QImage.alignedBytes width format * height) :
    (blackAboveWhite h).bits[n]? = some (if n < QImage.alignedBytes width format then 0 else 255) := by
  simp [blackAboveWhite, List.getElem?_range hn]

/-- A pixel without blue is darker than a white one. -/
theorem sample_ne_white {R G : UInt8} (hR : R = 0 ∨ R = 255) (hG : G = 0 ∨ G = 255) :
    UInt8.ofNat (trunc (yOf R G 0)).toNat ≠ UInt8.ofNat (trunc (yOf 255 255 255)).toNat := by
  rcases hR with rfl | rfl
  · rcases hG with rfl | rfl
    · decide +kernel
    · decide +kernel
  · rcases hG with rfl | rfl
    · decide +kernel
    · decide +kernel

/-- A pixel of three bytes, of which the first one is blue. -/
theorem sample_rgb24 {pixels : List UInt8} {p : ℕ} {R G B : UInt8} (hR : pixels[p * 3 + 2]? = some R)
    (hG : pixels[p * 3 + 1]? = some G) (hB : pixels[p * 3 + 0]? = some B) :
    sample yOf .RGB24 pixels p = UInt8.ofNat (trunc (yOf R G B)).toNat := by
  have hred : red .RGB24 pixels p = R := by
    change pixels.getD (p * 3 + 2) 0 = R
    rw [List.getD_eq_getElem?_getD, hR, Option.getD_some]
  have hgreen : green .RGB24 pixels p = G := by
    change pixels.getD (p * 3 + 1) 0 = G
    rw [List.getD_eq_getElem?_getD, hG, Option.getD_some]
  have hblue : blue .RGB24 pixels p = B := by
    change pixels.getD (p * 3 + 0) 0 = B
    rw [List.getD_eq_getElem?_getD, hB, Option.getD_some]
  rw [sample, hred, hgreen, hblue]

/-- The pixels of that image may have 3 bytes. -/
theorem pixelBytes_blackAboveWhite {width height : ℕ} (h : QImage.Fits width height .RGB888) :
    (blackAboveWhite h).pixelBytes = 3 := by
  change 24 / 8 = 3
  rfl

/-- The first pixel of the second line is white among the packed pixels. -/
theorem packed_blackAboveWhite {width height : ℕ} (h : QImage.Fits width height .RGB888)
    (hheight : 2 ≤ height) {c : ℕ} (hc : c < 3) : (blackAboveWhite h).packed[width * 3 + c]? = some 255 := by
  have hpositive := h.width_pos
  have hline : QImage.alignedBytes width .RGB888 = width * 3 + (4 - width * 3 % 4) % 4 :=
    QImage.alignedBytes_eq width .RGB888
  have hbits : QImage.alignedBytes width .RGB888 * 2 ≤ QImage.alignedBytes width .RGB888 * height :=
    Nat.mul_le_mul_left _ hheight
  have hrow : ∀ y < height, ((blackAboveWhite h).scanLine y).length = width * 3 := by
    intro y hy
    rw [(blackAboveWhite h).length_scanLine hy, pixelBytes_blackAboveWhite]
    rfl
  have hscan : ((blackAboveWhite h).scanLine 1)[c]? = some 255 := by
    rw [QImage.scanLine, pixelBytes_blackAboveWhite]
    change (((blackAboveWhite h).bits.drop (1 * QImage.alignedBytes width .RGB888)).take (width * 3))[c]? = _
    rw [List.getElem?_take_of_lt (by omega), List.getElem?_drop, getElem?_blackAboveWhite h (by omega),
      if_neg (by omega)]
  have hindex := getElem?_flatMap_range hrow (by omega : c < width * 3) (by omega : 1 < height)
  rw [Nat.one_mul] at hindex
  exact hindex.trans hscan

/-- The frame of an image with padding before its second line is not made of its packed pixels. -/
theorem not_isPacked_blackAboveWhite {width height : ℕ} (h : QImage.Fits width height .RGB888)
    (hwidth : width % 4 ≠ 0) (hheight : height ≠ 1) : ¬ IsPacked malloc (blackAboveWhite h) := by
  rintro ⟨f, hfrom, hpacked⟩
  have hwidth0 := h.width_pos
  have hheight0 := h.height_pos
  have htwo : 2 ≤ height := by omega
  have hline : QImage.alignedBytes width .RGB888 = width * 3 + (4 - width * 3 % 4) % 4 :=
    QImage.alignedBytes_eq width .RGB888
  have hpixel : width * 2 ≤ width * height := Nat.mul_le_mul_left _ htwo
  have hcount : 3 * (width * height) ≤ QImage.alignedBytes width .RGB888 * height := by
    rw [Nat.mul_comm 3, Nat.mul_right_comm]
    exact Nat.mul_le_mul_right _ (by omega)
  have hbits : (blackAboveWhite h).bits.length = QImage.alignedBytes width .RGB888 * height :=
    (blackAboveWhite h).bits_length
  have htake (c : ℕ) (hc : c < 3) : ((blackAboveWhite h).bits.take (3 * (width * height)))[width * 3 + c]? =
      some (if width * 3 + c < QImage.alignedBytes width .RGB888 then 0 else 255) := by
    rw [List.getElem?_take_of_lt (by omega), getElem?_blackAboveWhite h (by omega)]
  have hlength : ((blackAboveWhite h).bits.take (3 * (width * height))).length = width * height * 3 := by
    rw [List.length_take, hbits]
    omega
  have hlengthPacked : (blackAboveWhite h).packed.length = width * height * 3 := by
    rw [QImage.length_packed, pixelBytes_blackAboveWhite]
    rfl
  obtain ⟨hwidth32, hheight32⟩ := h.sizes_lt
  obtain ⟨f₁, hf₁, hy₁⟩ := ofPixels_eq malloc .RGB24 h.pixels_lt hlength hwidth32 hheight32
  obtain ⟨f₂, hf₂, hy₂⟩ := ofPixels_eq malloc .RGB24 h.pixels_lt hlengthPacked hwidth32 hheight32
  rw [fromQImage_eq, pixelBytes_blackAboveWhite] at hfrom
  have hsame : f₁ = f₂ := Option.some.inj ((hf₁.symm.trans hfrom).trans (hpacked.symm.trans hf₂))
  have hsamples := (hy₁ width (by omega)).symm.trans (hsame ▸ hy₂ width (by omega))
  rw [sample_rgb24 (htake 2 (by omega)) (htake 1 (by omega)) (htake 0 (by omega)),
    sample_rgb24 (packed_blackAboveWhite h htwo (by omega)) (packed_blackAboveWhite h htwo (by omega))
      (packed_blackAboveWhite h htwo (by omega)), if_pos (by omega : width * 3 + 0 < _)] at hsamples
  refine sample_ne_white ?_ ?_ (Option.some.inj hsamples)
  · split
    · exact .inl rfl
    · exact .inr rfl
  · split
    · exact .inl rfl
    · exact .inr rfl

/-- The frames of all images of some sizes and format are made of their packed pixels exactly if there is no
padding between the pixels of such an image. -/
theorem isPacked_iff {width height : ℕ} {format : QImage.Format} (h : QImage.Fits width height format) :
    (∀ image : QImage, image.width = width → image.height = height → image.format = format →
        IsPacked malloc image) ↔
      format ≠ .RGB888 ∨ width % 4 = 0 ∨ height = 1 := by
  constructor
  · intro hall
    by_contra hnot
    obtain ⟨hformat, hwidth, hheight⟩ : format = .RGB888 ∧ width % 4 ≠ 0 ∧ height ≠ 1 := by
      simpa only [not_or, not_not] using hnot
    subst hformat
    exact not_isPacked_blackAboveWhite malloc h hwidth hheight (hall (blackAboveWhite h) rfl rfl rfl)
  · rintro haligned image rfl rfl rfl
    refine isPacked_of_aligned malloc image ?_
    rcases haligned with hformat | hwidth | hone
    · exact .inl (by rw [QImage.alignedBytes_eq, if_neg hformat]; rfl)
    · refine .inl ?_
      rw [QImage.alignedBytes_eq, QImage.pixelBytes]
      split <;> omega
    · exact .inr hone

end YuvFrame

end Ts3Video
