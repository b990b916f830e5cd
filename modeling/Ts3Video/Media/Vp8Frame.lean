import Ts3Video.Qt.DataStream

/-!
# VP8 frames and their serialisation

A frame carries the counter of its encoder, its kind and the encoded image. The kind is a plain
integer on the wire, so a receiver may meet any value.
-/

namespace Ts3Video

/-- One encoded video frame. -/
structure VP8Frame where
  time : UInt64
  type : Int32
  data : QByteArray
deriving DecidableEq

/-- A frame that needs the frames before it. -/
def VP8Frame.NORMAL : Int32 := 0

/-- A frame that can be decoded on its own. -/
def VP8Frame.KEY : Int32 := 1

/-- Key frames are not normal frames. -/
theorem VP8Frame.KEY_ne_NORMAL : VP8Frame.KEY ≠ VP8Frame.NORMAL := by decide

/-- `operator<<`: the fields in order. -/
def VP8Frame.serialize (frame : VP8Frame) : List UInt8 :=
  writeUInt64 frame.time ++ writeInt32 frame.type ++ writeByteArray frame.data

/-- `operator>>`: the fields in order. -/
def VP8Frame.deserialize (bytes : List UInt8) : VP8Frame :=
  let time := readUInt64 bytes
  let type := readInt32 time.2
  let data := readByteArray type.2
  { time := time.1, type := type.1, data := data.1 }

/-- The image is shorter than the frame that contains it. -/
theorem VP8Frame.data_length_lt (frame : VP8Frame) {bytes : List UInt8} (h : frame.data = some bytes) :
    bytes.length < frame.serialize.length := by
  simp only [serialize, h, writeByteArray, writeUInt64, List.length_append, writeNumber_length]
  omega

/-- Deserialising a serialised frame gives the frame back. -/
theorem VP8Frame.deserialize_serialize {frame : VP8Frame} (h : frame.serialize.length < 2 ^ 32) :
    VP8Frame.deserialize frame.serialize = frame := by
  have hdata : ∀ bytes ∈ frame.data, bytes.length < 2 ^ 32 - 1 := by
    intro bytes hbytes
    have := frame.data_length_lt hbytes
    omega
  have hread := readByteArray_writeByteArray hdata []
  rw [List.append_nil] at hread
  simp only [deserialize, serialize, List.append_assoc, readUInt64_writeUInt64,
    readInt32_writeInt32, hread]

/-- The fields in front of the image have a fixed width. -/
theorem VP8Frame.serialize_length (frame : VP8Frame) :
    frame.serialize.length = 16 + (frame.data.getD []).length := by
  cases h : frame.data with
  | none => simp [serialize, h, writeByteArray, writeUInt64, writeInt32, writeUInt32]
  | some bytes =>
    simp only [serialize, h, writeByteArray, writeUInt64, writeInt32, writeUInt32, List.length_append,
      writeNumber_length, Option.getD_some]
    omega

/-- The counter is read from the first bytes alone. -/
theorem VP8Frame.time_deserialize_take (frame : VP8Frame) {size : ℕ} (h : 8 ≤ size) :
    (VP8Frame.deserialize (frame.serialize.take size)).time = frame.time := by
  have hread : (readUInt64 frame.serialize).1 = frame.time := by
    rw [serialize, List.append_assoc, readUInt64_writeUInt64]
  simp only [deserialize, readUInt64, readNumber_take h, Prod.map_fst] at hread ⊢
  exact hread

/-- An image that is read is there as a whole behind the other fields. -/
theorem VP8Frame.length_of_deserialize {bytes data : List UInt8} (hlong : 16 ≤ bytes.length)
    (h : (VP8Frame.deserialize bytes).data = some data) : 16 + data.length ≤ bytes.length := by
  simp only [deserialize, readByteArray, readUInt64, readInt32, readUInt32, Prod.map_fst, Prod.map_snd,
    id_eq, readRawData, readNumber_length] at h
  split at h
  · contradiction
  · split at h
    next hthere =>
      obtain rfl := Option.some.inj h
      rw [List.length_take, readNumber_length, readNumber_length, readNumber_length]
      omega
    next => contradiction

end Ts3Video
