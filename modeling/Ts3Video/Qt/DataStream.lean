import Ts3Video.Library.BigEndian

/-!
# The data stream primitives

Both ends of every protocol of this program write and read their fields with `QDataStream` in
big-endian byte order. A read past the end consumes what is left and yields zero, so decoding is
total; `readRawData` copies at most what is left.
-/

namespace Ts3Video

/-- A byte array of Qt. The null array is distinct from the empty one on the wire. -/
abbrev QByteArray := Option (List UInt8)

/-- Write a number of the given width. -/
def writeNumber (width value : ℕ) : List UInt8 := BigEndian.toBytes width value

/-- Read a number of the given width, or zero if the stream ends before. -/
def readNumber (width : ℕ) (bytes : List UInt8) : ℕ × List UInt8 :=
  if width ≤ bytes.length then (BigEndian.ofBytes (bytes.take width), bytes.drop width) else (0, [])

/-- A written number is read back modulo its range, and the bytes after it remain. -/
@[simp] theorem readNumber_writeNumber (width value : ℕ) (rest : List UInt8) :
    readNumber width (writeNumber width value ++ rest) = (value % 256 ^ width, rest) := by
  have hlength : (writeNumber width value).length = width := BigEndian.toBytes_length width value
  rw [readNumber, if_pos (by simp [hlength]), List.take_left' hlength, List.drop_left' hlength,
    writeNumber, BigEndian.ofBytes_toBytes]

/-- A number in the range of its width is read back unchanged. -/
theorem readNumber_writeNumber_of_lt {width value : ℕ} (h : value < 256 ^ width)
    (rest : List UInt8) : readNumber width (writeNumber width value ++ rest) = (value, rest) := by
  rw [readNumber_writeNumber, Nat.mod_eq_of_lt h]

/-- The width of a field is the number of bytes written for it. -/
@[simp] theorem writeNumber_length (width value : ℕ) : (writeNumber width value).length = width :=
  BigEndian.toBytes_length width value

/-- A number that is there as a whole does not depend on what follows it. -/
theorem readNumber_append {width : ℕ} {bytes : List UInt8} (h : width ≤ bytes.length)
    (more : List UInt8) : (readNumber width (bytes ++ more)).1 = (readNumber width bytes).1 := by
  rw [readNumber, readNumber, if_pos h, if_pos (by simp; omega), List.take_append_of_le_length h]

/-- A number is read alike from a longer buffer and from what a shorter one keeps of it. -/
theorem readNumber_take {width size : ℕ} (h : width ≤ size) (bytes : List UInt8) :
    readNumber width (bytes.take size) =
      ((readNumber width bytes).1, (readNumber width bytes).2.take (size - width)) := by
  have hlength : width ≤ (bytes.take size).length ↔ width ≤ bytes.length := by
    rw [List.length_take]
    omega
  unfold readNumber
  split
  next hshort =>
    rw [if_pos (hlength.mp hshort), List.take_take, Nat.min_eq_left h, List.drop_take]
  next hshort =>
    rw [if_neg (mt hlength.mpr hshort), List.take_nil]

/-- A number takes its width out of the stream, or what is left of it. -/
@[simp] theorem readNumber_length (width : ℕ) (bytes : List UInt8) :
    (readNumber width bytes).2.length = bytes.length - width := by
  unfold readNumber
  split
  · exact List.length_drop
  · simp only [List.length_nil]
    omega

/-- Past the end of the stream, zero is read. -/
theorem readNumber_of_short {width : ℕ} {bytes : List UInt8} (h : bytes.length < width) :
    (readNumber width bytes).1 = 0 := by
  rw [readNumber, if_neg (Nat.not_le.mpr h)]

/-- A number that is there as a whole is written as it was read. -/
theorem writeNumber_readNumber {width : ℕ} {bytes : List UInt8} (h : width ≤ bytes.length) :
    writeNumber width (readNumber width bytes).1 ++ (readNumber width bytes).2 = bytes := by
  have hlength : (bytes.take width).length = width := List.length_take_of_le h
  have hwrite := BigEndian.toBytes_ofBytes (bytes.take width)
  rw [hlength] at hwrite
  rw [readNumber, if_pos h, writeNumber, hwrite, List.take_append_drop]

/-- A number that was read is in the range of its width. -/
theorem readNumber_lt (width : ℕ) (bytes : List UInt8) : (readNumber width bytes).1 < 256 ^ width := by
  unfold readNumber
  split
  next h =>
    have hlt := BigEndian.ofBytes_lt (bytes.take width)
    rwa [List.length_take_of_le h] at hlt
  next => exact Nat.pow_pos (by decide)

/-- Write an unsigned byte. -/
def writeUInt8 (value : UInt8) : List UInt8 := writeNumber 1 value.toNat

/-- Write an unsigned 16-bit field. -/
def writeUInt16 (value : UInt16) : List UInt8 := writeNumber 2 value.toNat

/-- Write an unsigned 32-bit field. -/
def writeUInt32 (value : UInt32) : List UInt8 := writeNumber 4 value.toNat

/-- Write an unsigned 64-bit field. -/
def writeUInt64 (value : UInt64) : List UInt8 := writeNumber 8 value.toNat

/-- Write a signed 32-bit field in two's complement. -/
def writeInt32 (value : Int32) : List UInt8 := writeUInt32 value.toUInt32

/-- Read an unsigned byte. -/
def readUInt8 (bytes : List UInt8) : UInt8 × List UInt8 :=
  (readNumber 1 bytes).map UInt8.ofNat id

/-- Read an unsigned 16-bit field. -/
def readUInt16 (bytes : List UInt8) : UInt16 × List UInt8 :=
  (readNumber 2 bytes).map UInt16.ofNat id

/-- Read an unsigned 32-bit field. -/
def readUInt32 (bytes : List UInt8) : UInt32 × List UInt8 :=
  (readNumber 4 bytes).map UInt32.ofNat id

/-- Read an unsigned 64-bit field. -/
def readUInt64 (bytes : List UInt8) : UInt64 × List UInt8 :=
  (readNumber 8 bytes).map UInt64.ofNat id

/-- Read a signed 32-bit field in two's complement. -/
def readInt32 (bytes : List UInt8) : Int32 × List UInt8 :=
  (readUInt32 bytes).map UInt32.toInt32 id

/-- A written byte is read back. -/
@[simp] theorem readUInt8_writeUInt8 (value : UInt8) (rest : List UInt8) :
    readUInt8 (writeUInt8 value ++ rest) = (value, rest) := by
  rw [readUInt8, writeUInt8, readNumber_writeNumber_of_lt value.toNat_lt]
  simp

/-- A written 16-bit field is read back. -/
@[simp] theorem readUInt16_writeUInt16 (value : UInt16) (rest : List UInt8) :
    readUInt16 (writeUInt16 value ++ rest) = (value, rest) := by
  rw [readUInt16, writeUInt16, readNumber_writeNumber_of_lt value.toNat_lt]
  simp

/-- A written 32-bit field is read back. -/
@[simp] theorem readUInt32_writeUInt32 (value : UInt32) (rest : List UInt8) :
    readUInt32 (writeUInt32 value ++ rest) = (value, rest) := by
  rw [readUInt32, writeUInt32, readNumber_writeNumber_of_lt value.toNat_lt]
  simp

/-- A written 64-bit field is read back. -/
@[simp] theorem readUInt64_writeUInt64 (value : UInt64) (rest : List UInt8) :
    readUInt64 (writeUInt64 value ++ rest) = (value, rest) := by
  rw [readUInt64, writeUInt64, readNumber_writeNumber_of_lt value.toNat_lt]
  simp

/-- A written signed field is read back. -/
@[simp] theorem readInt32_writeInt32 (value : Int32) (rest : List UInt8) :
    readInt32 (writeInt32 value ++ rest) = (value, rest) := by
  rw [readInt32, writeInt32, readUInt32_writeUInt32]
  simp

/-- A stream that is long enough starts with an unsigned byte. -/
theorem exists_writeUInt8 {bytes : List UInt8} {n : ℕ} (h : n + 1 ≤ bytes.length) :
    ∃ value rest, bytes = writeUInt8 value ++ rest ∧ n ≤ rest.length := by
  refine ⟨.ofNat (readNumber 1 bytes).1, (readNumber 1 bytes).2, ?_, ?_⟩
  · rw [writeUInt8, UInt8.toNat_ofNat_of_lt' (readNumber_lt 1 bytes), writeNumber_readNumber (by omega)]
  · rw [readNumber_length]
    omega

/-- A stream that is long enough starts with an unsigned 16-bit field. -/
theorem exists_writeUInt16 {bytes : List UInt8} {n : ℕ} (h : n + 2 ≤ bytes.length) :
    ∃ value rest, bytes = writeUInt16 value ++ rest ∧ n ≤ rest.length := by
  refine ⟨.ofNat (readNumber 2 bytes).1, (readNumber 2 bytes).2, ?_, ?_⟩
  · rw [writeUInt16, UInt16.toNat_ofNat_of_lt' (readNumber_lt 2 bytes), writeNumber_readNumber (by omega)]
  · rw [readNumber_length]
    omega

/-- A stream that is long enough starts with an unsigned 32-bit field. -/
theorem exists_writeUInt32 {bytes : List UInt8} {n : ℕ} (h : n + 4 ≤ bytes.length) :
    ∃ value rest, bytes = writeUInt32 value ++ rest ∧ n ≤ rest.length := by
  refine ⟨.ofNat (readNumber 4 bytes).1, (readNumber 4 bytes).2, ?_, ?_⟩
  · rw [writeUInt32, UInt32.toNat_ofNat_of_lt' (readNumber_lt 4 bytes), writeNumber_readNumber (by omega)]
  · rw [readNumber_length]
    omega

/-- A stream that is long enough starts with an unsigned 64-bit field. -/
theorem exists_writeUInt64 {bytes : List UInt8} {n : ℕ} (h : n + 8 ≤ bytes.length) :
    ∃ value rest, bytes = writeUInt64 value ++ rest ∧ n ≤ rest.length := by
  refine ⟨.ofNat (readNumber 8 bytes).1, (readNumber 8 bytes).2, ?_, ?_⟩
  · rw [writeUInt64, UInt64.toNat_ofNat_of_lt' (readNumber_lt 8 bytes), writeNumber_readNumber (by omega)]
  · rw [readNumber_length]
    omega

/-- A stream that is long enough starts with a signed 32-bit field. -/
theorem exists_writeInt32 {bytes : List UInt8} {n : ℕ} (h : n + 4 ≤ bytes.length) :
    ∃ value rest, bytes = writeInt32 value ++ rest ∧ n ≤ rest.length := by
  obtain ⟨value, rest, hbytes, hrest⟩ := exists_writeUInt32 h
  exact ⟨value.toInt32, rest, by rw [writeInt32, UInt32.toUInt32_toInt32, hbytes], hrest⟩

/-- Copy at most `length` raw bytes. -/
def readRawData (length : ℕ) (bytes : List UInt8) : List UInt8 × List UInt8 :=
  (bytes.take length, bytes.drop length)

/-- Raw bytes are followed by the rest of the stream. -/
theorem readRawData_append {length : ℕ} {data : List UInt8} (h : data.length = length)
    (rest : List UInt8) : readRawData length (data ++ rest) = (data, rest) := by
  rw [readRawData, List.take_left' h, List.drop_left' h]

/-- Write a byte array: its length and its bytes, or all ones for the null array. -/
def writeByteArray : QByteArray → List UInt8
  | none => writeUInt32 0xFFFFFFFF
  | some bytes => writeUInt32 (UInt32.ofNat bytes.length) ++ bytes

/-- Read a byte array. It is null if the stream ends before the announced length. -/
def readByteArray (bytes : List UInt8) : QByteArray × List UInt8 :=
  let length := readUInt32 bytes
  if length.1 = 0xFFFFFFFF then (none, length.2)
  else if length.1.toNat ≤ length.2.length then
    (readRawData length.1.toNat length.2).map some id
  else (none, [])

/-- A written byte array is read back, the null array included. -/
theorem readByteArray_writeByteArray {array : QByteArray}
    (h : ∀ bytes ∈ array, bytes.length < 2 ^ 32 - 1) (rest : List UInt8) :
    readByteArray (writeByteArray array ++ rest) = (array, rest) := by
  cases array with
  | none => simp [readByteArray, writeByteArray]
  | some bytes =>
    have hlength : (UInt32.ofNat bytes.length).toNat = bytes.length :=
      UInt32.toNat_ofNat_of_lt' (by have := h bytes rfl; change _ < 2 ^ 32; omega)
    have hnull : UInt32.ofNat bytes.length ≠ 0xFFFFFFFF := by
      intro heq
      have hvalue := congrArg UInt32.toNat heq
      rw [hlength] at hvalue
      change bytes.length = 4294967295 at hvalue
      have := h bytes rfl
      omega
    simp only [readByteArray, writeByteArray, List.append_assoc, readUInt32_writeUInt32,
      if_neg hnull, hlength, List.length_append]
    rw [if_pos (by omega), readRawData_append rfl]
    rfl

end Ts3Video
