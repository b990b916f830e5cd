import Mathlib.Data.List.Basic
import Mathlib.Algebra.Order.Ring.Nat
import Mathlib.Tactic.Ring

/-!
# Big-endian numbers of a fixed width

Network byte order puts the most significant byte first. Writing a number keeps its value modulo
the range of the width, and reading the written bytes gives that value back.
-/

namespace BigEndian

/-- The `width` low bytes of a number, the most significant one first. -/
def toBytes : (width value : ℕ) → List UInt8
  | 0, _ => []
  | width + 1, value => UInt8.ofNat (value / 256 ^ width) :: toBytes width value

/-- The number whose bytes are given, the most significant one first. -/
def ofBytes (bytes : List UInt8) : ℕ :=
  bytes.foldl (fun value byte => value * 256 + byte.toNat) 0

/-- A number of a given width takes exactly that many bytes. -/
@[simp] theorem toBytes_length (width value : ℕ) : (toBytes width value).length = width := by
  induction width with
  | zero => rfl
  | succ width ih => simp [toBytes, ih]

/-- Reading continues a number that was read so far by shifting it past the new bytes. -/
theorem foldl_toBytes (width value start : ℕ) :
    (toBytes width value).foldl (fun value byte => value * 256 + byte.toNat) start =
      start * 256 ^ width + value % 256 ^ width := by
  induction width generalizing start with
  | zero => simp [toBytes, Nat.mod_one]
  | succ width ih =>
    have hsplit : value % 256 ^ (width + 1) =
        value % 256 ^ width + 256 ^ width * (value / 256 ^ width % 256) := by
      rw [pow_succ, Nat.mod_mul]
    rw [hsplit, toBytes, List.foldl_cons, ih, UInt8.toNat_ofNat', pow_succ 256 width]
    ring

/-- Reading the bytes of a number gives it back modulo the range of its width. -/
theorem ofBytes_toBytes (width value : ℕ) : ofBytes (toBytes width value) = value % 256 ^ width := by
  rw [ofBytes, foldl_toBytes, zero_mul, zero_add]

/-- Reading continues a number that was read so far by shifting it past the bytes still to come. -/
theorem foldl_eq (bytes : List UInt8) (start : ℕ) :
    bytes.foldl (fun value byte => value * 256 + byte.toNat) start =
      start * 256 ^ bytes.length + ofBytes bytes := by
  induction bytes generalizing start with
  | nil => simp [ofBytes]
  | cons byte bytes ih =>
    rw [ofBytes, List.foldl_cons, List.foldl_cons, ih, ih, List.length_cons, pow_succ]
    ring

/-- Only the low bytes of a number are written. -/
theorem toBytes_add (width high low : ℕ) :
    toBytes width (high * 256 ^ width + low) = toBytes width low := by
  induction width generalizing high with
  | zero => rfl
  | succ width ih =>
    have hshift : high * 256 ^ (width + 1) + low = high * 256 * 256 ^ width + low := by ring
    have hdiv : (high * 256 * 256 ^ width + low) / 256 ^ width = 256 * high + low / 256 ^ width := by
      rw [Nat.add_comm, Nat.add_mul_div_right _ _ (Nat.pow_pos (by decide)), Nat.add_comm,
        Nat.mul_comm high]
    have hbyte : UInt8.ofNat (256 * high + low / 256 ^ width) = UInt8.ofNat (low / 256 ^ width) := by
      rw [← UInt8.toNat_inj, UInt8.toNat_ofNat', UInt8.toNat_ofNat', Nat.mul_add_mod]
    rw [toBytes, toBytes, hshift, ih, hdiv, hbyte]

/-- The bytes read bound the number. -/
theorem ofBytes_lt (bytes : List UInt8) : ofBytes bytes < 256 ^ bytes.length := by
  induction bytes with
  | nil => decide
  | cons byte bytes ih =>
    have hbyte := byte.toNat_lt
    have hle : byte.toNat * 256 ^ bytes.length ≤ 255 * 256 ^ bytes.length :=
      Nat.mul_le_mul_right _ (by omega)
    rw [ofBytes, List.foldl_cons, foldl_eq, Nat.zero_mul, Nat.zero_add, List.length_cons, pow_succ]
    omega

/-- Writing a number that was read gives its bytes back. -/
theorem toBytes_ofBytes (bytes : List UInt8) : toBytes bytes.length (ofBytes bytes) = bytes := by
  induction bytes with
  | nil => rfl
  | cons byte bytes ih =>
    have hread : ofBytes (byte :: bytes) = byte.toNat * 256 ^ bytes.length + ofBytes bytes := by
      rw [ofBytes, List.foldl_cons, foldl_eq, Nat.zero_mul, Nat.zero_add]
    have hdiv : (byte.toNat * 256 ^ bytes.length + ofBytes bytes) / 256 ^ bytes.length = byte.toNat := by
      rw [Nat.add_comm, Nat.add_mul_div_right _ _ (Nat.pow_pos (by decide)),
        Nat.div_eq_of_lt (ofBytes_lt bytes), Nat.zero_add]
    rw [hread, List.length_cons, toBytes, toBytes_add, ih, hdiv, UInt8.ofNat_toNat]

/-- Only the remainder of a number is written. -/
theorem toBytes_mod (width value : ℕ) : toBytes width (value % 256 ^ width) = toBytes width value := by
  have hsplit := toBytes_add width (value / 256 ^ width) (value % 256 ^ width)
  rwa [Nat.div_add_mod', eq_comm] at hsplit

/-- The number of joined bytes. -/
theorem ofBytes_append (high low : List UInt8) :
    ofBytes (high ++ low) = ofBytes high * 256 ^ low.length + ofBytes low := by
  rw [ofBytes, List.foldl_append, foldl_eq]
  rfl

/-- The bytes of a number are those of its quotient and those of its remainder. -/
theorem toBytes_append (high low value : ℕ) :
    toBytes (high + low) value = toBytes high (value / 256 ^ low) ++ toBytes low value := by
  induction high with
  | zero => rw [Nat.zero_add, toBytes, List.nil_append]
  | succ high ih =>
    rw [Nat.add_right_comm, toBytes, toBytes, ih, List.cons_append, Nat.div_div_eq_div_mul, ← pow_add,
      Nat.add_comm low high]

/-- Zero is written with zero bytes. -/
theorem toBytes_zero (width : ℕ) : toBytes width 0 = List.replicate width 0 := by
  induction width with
  | zero => rfl
  | succ width ih =>
    rw [toBytes, ih, Nat.zero_div]
    rfl

example : toBytes 4 0x01020304 = [1, 2, 3, 4] := by decide

end BigEndian
