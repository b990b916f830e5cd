import Ts3Video.Library.BigEndian

/-!
# Numbers in memory

A machine stores the bytes of a number in its own order. The functions that convert between this order and
the one of the network keep the bytes where they are and change the number that they stand for.
-/

/-- The order in which a machine stores the bytes of a number. -/
inductive ByteOrder where
  | littleEndian
  | bigEndian
deriving DecidableEq

namespace ByteOrder

/-- The bytes that a number of the given width occupies. -/
def toBytes (order : ByteOrder) (width value : ℕ) : List UInt8 :=
  match order with
  | .littleEndian => (BigEndian.toBytes width value).reverse
  | .bigEndian => BigEndian.toBytes width value

/-- The number that is stored in the given bytes. -/
def ofBytes (order : ByteOrder) (bytes : List UInt8) : ℕ :=
  match order with
  | .littleEndian => BigEndian.ofBytes bytes.reverse
  | .bigEndian => BigEndian.ofBytes bytes

/-- A number of a given width takes exactly that many bytes. -/
@[simp] theorem toBytes_length (order : ByteOrder) (width value : ℕ) :
    (order.toBytes width value).length = width := by
  cases order with
  | littleEndian => rw [toBytes, List.length_reverse, BigEndian.toBytes_length]
  | bigEndian => exact BigEndian.toBytes_length width value

/-- A stored number is read back modulo the range of its width. -/
@[simp] theorem ofBytes_toBytes (order : ByteOrder) (width value : ℕ) :
    order.ofBytes (order.toBytes width value) = value % 256 ^ width := by
  cases order with
  | littleEndian => rw [toBytes, ofBytes, List.reverse_reverse, BigEndian.ofBytes_toBytes]
  | bigEndian => exact BigEndian.ofBytes_toBytes width value

/-- The number that is read from some bytes is stored in these bytes. -/
theorem toBytes_ofBytes (order : ByteOrder) (bytes : List UInt8) :
    order.toBytes bytes.length (order.ofBytes bytes) = bytes := by
  cases order with
  | littleEndian =>
    have hread := BigEndian.toBytes_ofBytes bytes.reverse
    rw [List.length_reverse] at hread
    rw [toBytes, ofBytes, hread, List.reverse_reverse]
  | bigEndian => exact BigEndian.toBytes_ofBytes bytes

/-- The bytes read bound the number. -/
theorem ofBytes_lt (order : ByteOrder) (bytes : List UInt8) :
    order.ofBytes bytes < 256 ^ bytes.length := by
  cases order with
  | littleEndian =>
    have hlt := BigEndian.ofBytes_lt bytes.reverse
    rwa [List.length_reverse] at hlt
  | bigEndian => exact BigEndian.ofBytes_lt bytes

/-- A number that does not need all bytes is filled up with zero bytes on the most significant side. -/
theorem toBytes_of_lt (order : ByteOrder) {width value : ℕ} (extra : ℕ) (h : value < 256 ^ width) :
    order.toBytes (extra + width) value =
      match order with
      | .littleEndian => order.toBytes width value ++ List.replicate extra 0
      | .bigEndian => List.replicate extra 0 ++ order.toBytes width value := by
  have happend : BigEndian.toBytes (extra + width) value =
      List.replicate extra 0 ++ BigEndian.toBytes width value := by
    rw [BigEndian.toBytes_append, Nat.div_eq_of_lt h, BigEndian.toBytes_zero]
  cases order with
  | littleEndian => rw [toBytes, happend, List.reverse_append, List.reverse_replicate, toBytes]
  | bigEndian => exact happend

/-- The number that a machine must store to have the bytes of the given number in network order. -/
def hton (order : ByteOrder) (width value : ℕ) : ℕ := order.ofBytes (BigEndian.toBytes width value)

/-- The converted number is in the range of the width. -/
theorem hton_lt (order : ByteOrder) (width value : ℕ) : order.hton width value < 256 ^ width := by
  have hlt := order.ofBytes_lt (BigEndian.toBytes width value)
  rwa [BigEndian.toBytes_length] at hlt

/-- A converted number is stored in network order. -/
theorem toBytes_hton (order : ByteOrder) (width value : ℕ) :
    order.toBytes width (order.hton width value) = BigEndian.toBytes width value := by
  have hbytes := order.toBytes_ofBytes (BigEndian.toBytes width value)
  rwa [BigEndian.toBytes_length] at hbytes

/-- Converting twice gives the number back. -/
theorem hton_hton (order : ByteOrder) (width value : ℕ) :
    order.hton width (order.hton width value) = value % 256 ^ width := by
  cases order with
  | bigEndian =>
    change BigEndian.ofBytes (BigEndian.toBytes width (BigEndian.ofBytes (BigEndian.toBytes width value))) = _
    rw [BigEndian.ofBytes_toBytes, BigEndian.ofBytes_toBytes, Nat.mod_mod]
  | littleEndian =>
    have hbytes := BigEndian.toBytes_ofBytes (BigEndian.toBytes width value).reverse
    rw [List.length_reverse, BigEndian.toBytes_length] at hbytes
    change BigEndian.ofBytes (BigEndian.toBytes width
      (BigEndian.ofBytes (BigEndian.toBytes width value).reverse)).reverse = _
    rw [hbytes, List.reverse_reverse, BigEndian.ofBytes_toBytes]

/-- Only the remainder of a number is converted. -/
theorem hton_mod (order : ByteOrder) (width value : ℕ) :
    order.hton width (value % 256 ^ width) = order.hton width value := by
  rw [hton, hton, BigEndian.toBytes_mod]

/-- On a little-endian machine the two parts of a number are converted and swapped. -/
theorem littleEndian_hton_append (high low value : ℕ) : littleEndian.hton (high + low) value =
    littleEndian.hton low value * 256 ^ high + littleEndian.hton high (value / 256 ^ low) := by
  change BigEndian.ofBytes (BigEndian.toBytes (high + low) value).reverse = _
  rw [BigEndian.toBytes_append, List.reverse_append, BigEndian.ofBytes_append, List.length_reverse,
    BigEndian.toBytes_length]
  rfl

end ByteOrder
