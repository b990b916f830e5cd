import Ts3Video.Image.QImage

/-!
# Conversion between frames and images

A frame is shown as an image of which every pixel has the colours of its sample. The pixels are written
without padding, while the image takes them from aligned scan lines. Both conversions keep the pixels in
place exactly if the scan lines have no padding.
-/

namespace Ts3Video

open CheckedMemory ImageUtil

namespace ImageUtil

/-- Scale a number back and round it. -/
def SCALEYUV (v : ℤ) : ℤ := (v + 128000).tdiv 256000

/-- The red part of a sample. -/
def rcoeff (y u v : ℤ) : ℤ := 298082 * y + 0 * u + 408583 * v

/-- The green part of a sample. -/
def gcoeff (y u v : ℤ) : ℤ := 298082 * y - 100291 * u - 208120 * v

/-- The blue part of a sample. -/
def bcoeff (y u v : ℤ) : ℤ := 298082 * y + 516411 * u + 0 * v

/-- The byte of a colour of a sample. -/
def colour (coeff : ℤ → ℤ → ℤ → ℤ) (y u v : UInt8) : UInt8 :=
  UInt8.ofNat (clamp (SCALEYUV (coeff (y.toNat - 16) (u.toNat - 128) (v.toNat - 128)))).toNat

/-- The colours of a sample. -/
def rgbTriple (y u v : UInt8) : List UInt8 := [colour rcoeff y u v, colour gcoeff y u v, colour bcoeff y u v]

/-- The bytes that are written so far. -/
structure RgbBuffer where
  bytes : List UInt8
  next : ℕ

/-- Write the colours of the next sample. -/
def writeSample (py pu pv : List UInt8) (p : ℕ) (s : RgbBuffer) : Option RgbBuffer := do
  let y ← py[p]?
  let u ← pu[p]?
  let v ← pv[p]?
  let bytes ← write s.bytes (s.next + 0) (colour rcoeff y u v)
  let bytes ← write bytes (s.next + 1) (colour gcoeff y u v)
  let bytes ← write bytes (s.next + 2) (colour bcoeff y u v)
  some ⟨bytes, s.next + 3⟩

end ImageUtil

/-- The copy of an image over a buffer with pixels of 3 bytes. The copy reads all scan lines, which is
undefined outside of the buffer. -/
def QImage.ofBuffer (data : List UInt8) (width height : ℕ) : Option QImage :=
  if h : QImage.Fits width height .RGB888 ∧ QImage.alignedBytes width .RGB888 * height ≤ data.length then
    some ⟨width, height, .RGB888, data.take (QImage.alignedBytes width .RGB888 * height), h.1,
      List.length_take_of_le h.2⟩
  else none

namespace YuvFrame

variable {F : Type} (A : FloatArithmetic F) (memory : ℕ → F) (malloc : ℕ → UInt8) (f : YuvFrame)

/-- The image of a frame. -/
def toQImage : Option QImage := do
  let rgb := (List.range (3 * f.width * f.height).toNat).map malloc
  let pu ← f.upsample A memory malloc f.u
  let pv ← f.upsample A memory malloc f.v
  let out ← forLoop 0 f.height.toNat 1 (fun j =>
    forLoop 0 f.width.toNat 1 (fun i => writeSample f.y pu pv (j * f.width.toNat + i))) ⟨rgb, 0⟩
  QImage.ofBuffer out.bytes f.width.toNat f.height.toNat

/-- The image of the frame has its sizes, and every pixel has the colours of its sample. -/
def IsShown : Prop :=
  ∃ image pu pv, f.toQImage A memory malloc = some image ∧ f.upsample A memory malloc f.u = some pu ∧
    f.upsample A memory malloc f.v = some pv ∧ image.width = f.width.toNat ∧ image.height = f.height.toNat ∧
    ∀ x < f.width.toNat, ∀ y < f.height.toNat,
      image.pixel x y = rgbTriple (f.y.getD (y * f.width.toNat + x) 0)
        (pu.getD (y * f.width.toNat + x) 0) (pv.getD (y * f.width.toNat + x) 0)

end YuvFrame

namespace ImageUtil

/-- The colours of samples, one byte after the other. -/
def colourAt (py pu pv : List UInt8) (n : ℕ) : UInt8 :=
  (rgbTriple (py.getD (n / 3) 0) (pu.getD (n / 3) 0) (pv.getD (n / 3) 0)).getD (n % 3) 0

/-- The colours of the first samples are written. -/
structure Shown (rgb py pu pv : List UInt8) (count : ℕ) (s : RgbBuffer) : Prop where
  written : Written rgb s.bytes (3 * count) (colourAt py pu pv)
  next : s.next = 3 * count

/-- The byte of a colour of a sample. -/
theorem colourAt_eq (py pu pv : List UInt8) (p : ℕ) {c : ℕ} (hc : c < 3) :
    colourAt py pu pv (3 * p + c) =
      (rgbTriple (py.getD p 0) (pu.getD p 0) (pv.getD p 0)).getD c 0 := by
  have hdiv : (3 * p + c) / 3 = p := by omega
  have hmod : (3 * p + c) % 3 = c := by omega
  rw [colourAt, hdiv, hmod]

/-- The colours of the next sample are written. -/
theorem Shown.step {rgb py pu pv : List UInt8} {p : ℕ} {s : RgbBuffer} (h : Shown rgb py pu pv p s)
    (hrgb : 3 * p + 2 < rgb.length) (hy : p < py.length) (hu : p < pu.length) (hv : p < pv.length) :
    ∃ s', writeSample py pu pv p s = some s' ∧ Shown rgb py pu pv (p + 1) s' := by
  have hget {plane : List UInt8} (hp : p < plane.length) : plane[p]? = some (plane.getD p 0) := by
    rw [List.getD_eq_getElem?_getD, List.getElem?_eq_getElem hp, Option.getD_some]
  have hred : colour rcoeff (py.getD p 0) (pu.getD p 0) (pv.getD p 0) = colourAt py pu pv (3 * p) :=
    (colourAt_eq py pu pv p (by omega : 0 < 3)).symm
  have hgreen : colour gcoeff (py.getD p 0) (pu.getD p 0) (pv.getD p 0) = colourAt py pu pv (3 * p + 1) :=
    (colourAt_eq py pu pv p (by omega : 1 < 3)).symm
  have hblue : colour bcoeff (py.getD p 0) (pu.getD p 0) (pv.getD p 0) = colourAt py pu pv (3 * p + 2) :=
    (colourAt_eq py pu pv p (by omega : 2 < 3)).symm
  have hfirst := h.written.set_next (by omega)
  have hsecond := hfirst.set_next (by omega)
  have hthird := hsecond.set_next (by omega)
  refine ⟨⟨_, s.next + 3⟩, ?_, hthird, by rw [h.next, Nat.mul_succ]⟩
  simp only [writeSample, Option.bind_eq_bind, hget hy, hget hu, hget hv, Option.bind_some, h.next,
    Nat.add_zero, hred, hgreen, hblue]
  rw [write_of_lt (h.written.lt_length (by omega)), Option.bind_some,
    write_of_lt (hfirst.lt_length (by omega)), Option.bind_some,
    write_of_lt (hsecond.lt_length (by omega)), Option.bind_some]

/-- Writing a sample keeps the length of the buffer. -/
theorem length_of_writeSample {py pu pv : List UInt8} {p : ℕ} {s s' : RgbBuffer}
    (h : writeSample py pu pv p s = some s') : s'.bytes.length = s.bytes.length := by
  simp only [writeSample, Option.bind_eq_bind, Option.bind_eq_some_iff, Option.some.injEq] at h
  obtain ⟨y, -, u, -, v, -, first, hfirst, second, hsecond, third, hthird, rfl⟩ := h
  exact ((length_of_write hthird).trans (length_of_write hsecond)).trans (length_of_write hfirst)

/-- All samples are written. -/
theorem writeSamples_eq {rgb py pu pv : List UInt8} {width height : ℕ}
    (hrgb : rgb.length = 3 * (width * height)) (hy : py.length = width * height)
    (hu : pu.length = width * height) (hv : pv.length = width * height) :
    ∃ out, forLoop 0 height 1 (fun j =>
        forLoop 0 width 1 (fun i => writeSample py pu pv (j * width + i))) ⟨rgb, 0⟩ = some out ∧
      Shown rgb py pu pv (width * height) out := by
  have hstep : ∀ j s, j < height → Shown rgb py pu pv (j * width) s →
      ∃ s', forLoop 0 width 1 (fun i => writeSample py pu pv (j * width + i)) s = some s' ∧
        Shown rgb py pu pv ((j + 1) * width) s' := by
    intro j s hj hs
    rw [Nat.add_one_mul]
    refine forLoop_one_invariant (fun i s => Shown rgb py pu pv (j * width + i) s) (fun i s hi hs => ?_) hs
    have hindex : j * width + i < width * height := rowIndex_lt hi hj
    exact hs.step (by omega) (by omega) (by omega) (by omega)
  have hinit : Shown rgb py pu pv (0 * width) ⟨rgb, 0⟩ := by
    rw [Nat.zero_mul]
    exact ⟨Written.refl rgb _, rfl⟩
  rw [Nat.mul_comm width]
  exact forLoop_one_invariant (fun j s => Shown rgb py pu pv (j * width) s) hstep hinit

end ImageUtil

namespace QImage

/-- The scan lines of pixels with 3 bytes have padding unless their number is a multiple of four. -/
theorem alignedBytes_rgb888 (width : ℕ) :
    alignedBytes width .RGB888 = width * 3 + (4 - width * 3 % 4) % 4 :=
  alignedBytes_eq width .RGB888

/-- The pixel of an image over a buffer without padding. -/
theorem pixel_ofBuffer {data : List UInt8} {width height x y : ℕ} {image : QImage}
    (himage : ofBuffer data width height = some image) (hwidth : width % 4 = 0) (hx : x < width)
    (hy : y < height) {a b c : UInt8} (ha : data[3 * (y * width + x)]? = some a)
    (hb : data[3 * (y * width + x) + 1]? = some b) (hc : data[3 * (y * width + x) + 2]? = some c) :
    image.width = width ∧ image.height = height ∧ image.pixel x y = [a, b, c] := by
  obtain ⟨h, himage⟩ := Option.dite_none_right_eq_some.mp himage
  obtain rfl := Option.some.inj himage
  have hline : alignedBytes width .RGB888 = width * 3 := by
    rw [alignedBytes_rgb888]
    omega
  have hstart : alignedBytes width .RGB888 * y + x * 3 = 3 * (y * width + x) := by
    rw [hline]
    ring
  have hindex : y * width + x < width * height := rowIndex_lt hx hy
  have hinside {n : ℕ} (hn : n < 3) : 3 * (y * width + x) + n < alignedBytes width .RGB888 * height := by
    rw [hline, Nat.mul_right_comm]
    omega
  have htake {n : ℕ} (hn : n < 3) :
      (data.take (alignedBytes width .RGB888 * height))[3 * (y * width + x) + n]? =
        data[3 * (y * width + x) + n]? := List.getElem?_take_of_lt (hinside hn)
  refine ⟨rfl, rfl, ?_⟩
  change (((data.take (alignedBytes width .RGB888 * height)).drop
    (alignedBytes width .RGB888 * y + x * (24 / 8))).take (24 / 8)) = _
  rw [show 24 / 8 = 3 from rfl, hstart]
  exact take_three ((htake (by omega : 0 < 3)).trans ha) ((htake (by omega : 1 < 3)).trans hb)
    ((htake (by omega : 2 < 3)).trans hc)

/-- An image over a buffer needs all of its scan lines. -/
theorem ofBuffer_isSome_iff {data : List UInt8} {width height : ℕ} :
    (∃ image, ofBuffer data width height = some image) ↔
      Fits width height .RGB888 ∧ alignedBytes width .RGB888 * height ≤ data.length := by
  rw [ofBuffer]
  split
  · next h => exact iff_of_true ⟨_, rfl⟩ h
  · next h => exact iff_of_false (by simp) h

end QImage

namespace YuvFrame

variable {F : Type} (A : FloatArithmetic F) (memory : ℕ → F) (malloc : ℕ → UInt8) (f : YuvFrame)

/-- The memory for the pixels has its size in 32-bit arithmetic. -/
theorem length_rgb : ((List.range (3 * f.width * f.height).toNat).map malloc).length =
    3 * (f.width.toNat * f.height.toNat) % 2 ^ 32 := by
  rw [length_alloc, UInt32.toNat_mul, UInt32.toNat_mul, Nat.mod_mul_mod, Nat.mul_assoc]
  rfl

/-- An image of an even frame has no padding and is not too large. -/
theorem sizes_of_toQImage {image : QImage} (hh : 0 < f.height.toNat) (hwidth : f.width.toNat % 2 = 0)
    (h : f.toQImage A memory malloc = some image) :
    f.width.toNat % 4 = 0 ∧ 24 * f.width.toNat < 2 ^ 31 ∧ 3 * (f.width.toNat * f.height.toNat) < 2 ^ 31 := by
  simp only [toQImage, Option.bind_eq_bind, Option.bind_eq_some_iff] at h
  obtain ⟨pu, -, pv, -, out, hrun, himage⟩ := h
  obtain ⟨hfits, hbytes⟩ := QImage.ofBuffer_isSome_iff.mp ⟨image, himage⟩
  have hlength : out.bytes.length = 3 * (f.width.toNat * f.height.toNat) % 2 ^ 32 := by
    refine forLoop_preserves (fun s => s.bytes.length = _) (fun j s t hs hrow => ?_)
      (f.length_rgb malloc) hrun
    exact forLoop_preserves (fun s => s.bytes.length = _)
      (fun i s t hs hsample => (length_of_writeSample hsample).trans hs) hs hrow
  have hline := QImage.alignedBytes_rgb888 f.width.toNat
  have hle : QImage.alignedBytes f.width.toNat .RGB888 * f.height.toNat ≤
      3 * (f.width.toNat * f.height.toNat) := (hbytes.trans hlength.le).trans (Nat.mod_le _ _)
  have hfour : f.width.toNat % 4 = 0 := by
    by_contra hodd
    have hpadded : QImage.alignedBytes f.width.toNat .RGB888 = f.width.toNat * 3 + 2 := by omega
    rw [hpadded, Nat.add_mul, Nat.mul_right_comm, Nat.mul_comm _ 3] at hle
    omega
  have hpacked : QImage.alignedBytes f.width.toNat .RGB888 = f.width.toNat * 3 := by omega
  have hlineFits : f.width.toNat * 24 < 2 ^ 31 := hfits.line
  have hbytesFit := hfits.bytes
  rw [hpacked, Nat.mul_right_comm] at hbytesFit
  exact ⟨hfour, by omega, by omega⟩

/-- The image of an even frame keeps its pixels in place exactly if its width is a multiple of four and it
is not too large for an image. -/
theorem isShown_iff (hw : 0 < f.width.toNat) (hh : 0 < f.height.toNat) (hwidth : f.width.toNat % 2 = 0)
    (hheight : f.height.toNat % 2 = 0) :
    f.IsShown A memory malloc ↔
      f.width.toNat % 4 = 0 ∧ 24 * f.width.toNat < 2 ^ 31 ∧
        3 * (f.width.toNat * f.height.toNat) < 2 ^ 31 := by
  constructor
  · rintro ⟨image, pu, pv, himage, -⟩
    exact f.sizes_of_toQImage A memory malloc hh hwidth himage
  · rintro ⟨hfour, hline, hbytes⟩
    have hproduct : f.width.toNat * (f.height.toNat - 2) ≤ f.width.toNat * f.height.toNat :=
      Nat.mul_le_mul_left _ (Nat.sub_le _ _)
    have heven : f.IsEven := ⟨hwidth, hheight, by omega, by omega⟩
    obtain ⟨pu, hu, hulength⟩ := f.upsample_of_isEven A memory malloc hw hh heven f.u_length
    obtain ⟨pv, hv, hvlength⟩ := f.upsample_of_isEven A memory malloc hw hh heven f.v_length
    have hrgb := f.length_rgb malloc
    rw [Nat.mod_eq_of_lt (by omega)] at hrgb
    obtain ⟨out, hrun, hout⟩ := writeSamples_eq hrgb f.y_length hulength hvlength
    have hlength : out.bytes.length = 3 * (f.width.toNat * f.height.toNat) :=
      hout.written.length_eq.trans hrgb
    have hpacked : QImage.alignedBytes f.width.toNat .RGB888 = f.width.toNat * 3 := by
      rw [QImage.alignedBytes_rgb888]
      omega
    have htotal : QImage.alignedBytes f.width.toNat .RGB888 * f.height.toNat =
        3 * (f.width.toNat * f.height.toNat) := by
      rw [hpacked, Nat.mul_right_comm, Nat.mul_comm]
    have hfits : QImage.Fits f.width.toNat f.height.toNat .RGB888 :=
      ⟨hw, hh, (Nat.mul_comm _ 24).trans_lt hline, htotal.trans_lt hbytes⟩
    obtain ⟨image, himage⟩ := QImage.ofBuffer_isSome_iff.mpr ⟨hfits, htotal.trans_le hlength.ge⟩
    have hpixel (x : ℕ) (hx : x < f.width.toNat) (y : ℕ) (hy : y < f.height.toNat) :
        image.width = f.width.toNat ∧ image.height = f.height.toNat ∧
          image.pixel x y = rgbTriple (f.y.getD (y * f.width.toNat + x) 0)
            (pu.getD (y * f.width.toNat + x) 0) (pv.getD (y * f.width.toNat + x) 0) := by
      have hindex : y * f.width.toNat + x < f.width.toNat * f.height.toNat := rowIndex_lt hx hy
      have hcolour {c : ℕ} (hc : c < 3) := (hout.written.inside (3 * (y * f.width.toNat + x) + c)
        (by omega)).trans (congrArg some (colourAt_eq f.y pu pv (y * f.width.toNat + x) hc))
      exact QImage.pixel_ofBuffer himage hfour hx hy (hcolour (by omega : 0 < 3)) (hcolour (by omega : 1 < 3))
        (hcolour (by omega : 2 < 3))
    obtain ⟨hwidth', hheight', -⟩ := hpixel 0 hw 0 hh
    refine ⟨image, pu, pv, ?_, hu, hv, hwidth', hheight', fun x hx y hy => (hpixel x hx y hy).2.2⟩
    simp only [toQImage, Option.bind_eq_bind, hu, hv, Option.bind_some, hrun, himage]

/-- Conversion keeps pixels in place: the frames of the images of some sizes and format are made of their
packed pixels exactly if there is no padding between the pixels of such images, and the image of an even
frame has the colours of its samples exactly if its width is a multiple of four and it is not too large for
an image. -/
theorem conversion_iff :
    (∀ width height format, QImage.Fits width height format →
      ((∀ image : QImage, image.width = width → image.height = height → image.format = format →
          IsPacked malloc image) ↔
        format ≠ .RGB888 ∨ width % 4 = 0 ∨ height = 1)) ∧
    ∀ f : YuvFrame, 0 < f.width.toNat → 0 < f.height.toNat → f.width.toNat % 2 = 0 →
      f.height.toNat % 2 = 0 →
      (f.IsShown A memory malloc ↔
        f.width.toNat % 4 = 0 ∧ 24 * f.width.toNat < 2 ^ 31 ∧
          3 * (f.width.toNat * f.height.toNat) < 2 ^ 31) :=
  ⟨fun _ _ _ h => isPacked_iff malloc h,
    fun f hw hh hwidth hheight => f.isShown_iff A memory malloc hw hh hwidth hheight⟩

/-- A black image with four columns and two rows keeps its pixels in place. -/
theorem conversion_iff_aligned :
    IsPacked (fun _ => 0) (blackAboveWhite (by decide : QImage.Fits 4 2 .RGB888)) ∧
      (black 4 2).IsShown rationalArithmetic (fun _ => 0) (fun _ => 0) := by
  obtain ⟨hpacked, hshown⟩ := conversion_iff rationalArithmetic (fun _ => 0) (fun _ => 0)
  exact ⟨(hpacked 4 2 .RGB888 (by decide)).mpr (.inr (.inl rfl)) _ rfl rfl rfl,
    (hshown (black 4 2) (by decide) (by decide) rfl rfl).mpr ⟨rfl, by decide, by decide⟩⟩

/-- An image with one column of 3 bytes is converted with its padding, and a frame with two columns is read
with padding that it does not have. -/
theorem conversion_padded :
    ¬ IsPacked (fun _ => 0) (blackAboveWhite (by decide : QImage.Fits 1 2 .RGB888)) ∧
      ¬ (black 2 2).IsShown rationalArithmetic (fun _ => 0) (fun _ => 0) := by
  refine ⟨not_isPacked_blackAboveWhite _ _ (by decide) (by decide), ?_⟩
  rintro ⟨image, pu, pv, himage, -⟩
  exact absurd ((black 2 2).sizes_of_toQImage _ _ _ (by decide) rfl himage).1 (by decide)

end YuvFrame

end Ts3Video
