import Ts3Video.Library.ByteOrder
import Ts3Video.Media.VideoEncoding

/-!
# The payload of a video frame

The encoder puts each packet of the codec behind a header of twelve bytes, which begins with the size of
the packet in little-endian order. The decoder reads the size of the first packet from the data that it
is given, and hands this packet to the codec. It does so without looking whether there is a header.
-/

namespace Ts3Video

namespace Vp8Payload

/-- The size of the header in front of a packet. -/
def IVF_FRAME_HDR_SZ : ℕ := 12

/-- The allocator only refuses blocks that are larger than any object. -/
def malloc (size : UInt64) : Bool := size.toNat < 2 ^ 63

/-- The first bytes behind `offset`, copied one after the other. `none` is a read outside of the array. -/
def copyBytes (arr : List UInt8) (offset : ℕ) : ℕ → Option (List UInt8)
  | 0 => some []
  | i + 1 => (copyBytes arr offset i).bind fun ret => arr[offset + i]?.map fun byte => ret ++ [byte]

/-- Copy a part of an array. The outer `none` is a read outside of it, and the inner one the null
pointer. -/
def extractData (arr : List UInt8) (offset : ℕ) (length : Int32) : Option (Option (List UInt8)) :=
  if (arr.length : ℤ) - offset < length.toInt then some none
  else if !malloc length.toInt64.toUInt64 then some none
  else (copyBytes arr offset length.toInt.toNat).map some

/-- The number in the four bytes behind a pointer. `none` is a read of memory that is not there. -/
def memGetLe32 (mem : Option (List UInt8)) : Option UInt32 := do
  let bytes ← mem
  let mem3 ← bytes[3]?
  let mem2 ← bytes[2]?
  let mem1 ← bytes[1]?
  let mem0 ← bytes[0]?
  return mem3.toUInt32 <<< 24 ||| mem2.toUInt32 <<< 16 ||| mem1.toUInt32 <<< 8 ||| mem0.toUInt32

/-- What the codec is given to decode: a pointer to some bytes, and how many of them it may read. -/
structure CodecInput where
  frame : List UInt8
  frameSz : UInt32
deriving DecidableEq

/-- What `decodeFrameRaw` hands to the codec. The outer `none` is a read of memory that is not there, and
the inner one a rejected frame. -/
def decodeFrameRaw (data : List UInt8) : Option (Option CodecInput) := do
  let header ← extractData data 0 4
  let frameSz ← memGetLe32 header
  let frame ← extractData data IVF_FRAME_HDR_SZ frameSz.toInt32
  return frame.map fun frame => { frame, frameSz }

/-- The bytes that are copied are those behind the offset. -/
theorem copyBytes_eq {arr : List UInt8} {offset length : ℕ} (h : offset + length ≤ arr.length) :
    copyBytes arr offset length = some ((arr.drop offset).take length) := by
  induction length with
  | zero => rfl
  | succ i ih =>
    have hlt : offset + i < arr.length := h
    rw [copyBytes, ih (Nat.le_of_succ_le h), Option.bind_some, List.take_add_one,
      List.getElem?_drop, List.getElem?_eq_getElem hlt]
    rfl

/-- Blocks are refused exactly for negative lengths, which are huge sizes. -/
theorem malloc_iff (length : Int32) :
    malloc length.toInt64.toUInt64 = true ↔ 0 ≤ length.toInt := by
  have hnat : length.toInt64.toUInt64.toNat = length.toInt64.toBitVec.toNat := rfl
  have hlt := length.toInt64.toBitVec.isLt
  have hint : length.toInt64.toBitVec.toInt = length.toInt := Int32.toInt_toInt64 length
  rw [BitVec.toInt_eq_toNat_cond] at hint
  rw [malloc, decide_eq_true_iff, hnat, ← hint]
  split
  next h => omega
  next h => omega

/-- The part is copied if it is inside of the array, and otherwise there is no part. -/
theorem extractData_eq (arr : List UInt8) (offset : ℕ) (length : Int32) :
    extractData arr offset length =
      some (if 0 ≤ length.toInt ∧ offset + length.toInt.toNat ≤ arr.length then
        some ((arr.drop offset).take length.toInt.toNat) else none) := by
  unfold extractData
  by_cases hshort : (arr.length : ℤ) - offset < length.toInt
  · rw [if_pos hshort, if_neg]
    rintro ⟨hpos, hfits⟩
    omega
  · rw [if_neg hshort]
    by_cases hpos : 0 ≤ length.toInt
    · have hfits : offset + length.toInt.toNat ≤ arr.length := by omega
      rw [(malloc_iff length).mpr hpos, if_neg (by decide), if_pos ⟨hpos, hfits⟩,
        copyBytes_eq hfits, Option.map_some]
    · rw [Bool.eq_false_iff.mpr (mt (malloc_iff length).mp hpos), if_pos (by decide),
        if_neg fun h => hpos h.1]

/-- Bytes that are shifted to their places and joined are a number in little-endian order. -/
theorem toNat_joined (b0 b1 b2 b3 : UInt8) :
    (b3.toUInt32 <<< 24 ||| b2.toUInt32 <<< 16 ||| b1.toUInt32 <<< 8 ||| b0.toUInt32).toNat =
      ByteOrder.littleEndian.ofBytes [b0, b1, b2, b3] := by
  have h0 := b0.toNat_lt
  have h1 := b1.toNat_lt
  have h2 := b2.toNat_lt
  have h3 := b3.toNat_lt
  have hor : ∀ high low i : ℕ, low < 256 →
      high <<< (8 + i) ||| low <<< i = (high * 256 + low) <<< i := by
    intro high low i hlow
    rw [Nat.shiftLeft_add, ← Nat.shiftLeft_or_distrib, ← Nat.shiftLeft_add_eq_or_of_lt hlow,
      Nat.shiftLeft_eq high]
  have hfit : ∀ byte i : ℕ, byte < 256 → i ≤ 24 → byte <<< i % 2 ^ 32 = byte <<< i := by
    intro byte i hbyte hi
    rw [Nat.mod_eq_of_lt]
    rw [Nat.shiftLeft_eq]
    calc byte * 2 ^ i < 2 ^ 8 * 2 ^ i := Nat.mul_lt_mul_of_pos_right hbyte (Nat.two_pow_pos i)
      _ = 2 ^ (8 + i) := (Nat.pow_add 2 8 i).symm
      _ ≤ 2 ^ 32 := Nat.pow_le_pow_right (by decide) (by omega)
  have hall := hor ((b3.toNat * 256 + b2.toNat) * 256 + b1.toNat) b0.toNat 0 h0
  rw [Nat.add_zero, ← hor (b3.toNat * 256 + b2.toNat) b1.toNat 8 h1,
    ← hor b3.toNat b2.toNat 16 h2] at hall
  simp only [UInt32.toNat_or, UInt32.toNat_shiftLeft, UInt8.toNat_toUInt32]
  change b3.toNat <<< 24 % 2 ^ 32 ||| b2.toNat <<< 16 % 2 ^ 32 ||| b1.toNat <<< 8 % 2 ^ 32 |||
    b0.toNat = _
  rw [hfit _ 24 h3 (by decide), hfit _ 16 h2 (by decide), hfit _ 8 h1 (by decide)]
  exact hall.trans (by simp [ByteOrder.ofBytes, BigEndian.ofBytes])

/-- The four bytes that are written for a number are its bytes in little-endian order. -/
theorem memPutLe32_eq (val : UInt32) :
    memPutLe32 val = ByteOrder.littleEndian.toBytes 4 val.toNat := by
  have hbyte : ∀ (k : ℕ) (n : UInt32), n.toNat = 8 * k → n.toNat < 32 →
      (val >>> n).toUInt8 = UInt8.ofNat (val.toNat / 256 ^ k) := by
    intro k n hn hlt
    rw [← UInt8.toNat_inj, UInt32.toNat_toUInt8, UInt32.toNat_shiftRight, UInt8.toNat_ofNat',
      Nat.mod_eq_of_lt hlt, hn, Nat.shiftRight_eq_div_pow, pow_mul]
    rfl
  have hlowest := hbyte 0 0 rfl (by decide)
  rw [UInt32.shiftRight_zero] at hlowest
  rw [memPutLe32, hlowest, hbyte 1 8 rfl (by decide), hbyte 2 16 rfl (by decide),
    hbyte 3 24 rfl (by decide)]
  rfl

/-- The size that the header of the data announces. -/
def announcedSize (data : List UInt8) : ℕ := ByteOrder.littleEndian.ofBytes (data.take 4)

/-- The size in the first four bytes is read as it was announced. -/
theorem memGetLe32_eq {data : List UInt8} (h : 4 ≤ data.length) :
    ∃ frameSz, memGetLe32 (some (data.take 4)) = some frameSz ∧
      frameSz.toNat = announcedSize data := by
  match data, h with
  | b0 :: b1 :: b2 :: b3 :: rest, _ => exact ⟨_, rfl, toNat_joined b0 b1 b2 b3⟩

/-- Without a header, the null pointer is read. -/
theorem decodeFrameRaw_of_short {data : List UInt8} (h : data.length < 4) :
    decodeFrameRaw data = none := by
  have hheader : extractData data 0 4 = some none := by
    rw [extractData_eq, if_neg]
    rintro ⟨-, hfits⟩
    exact absurd (Nat.zero_add 4 ▸ hfits) (Nat.not_le.mpr h)
  rw [decodeFrameRaw, hheader]
  rfl

/-- With a header, the packet is handed over if it is there, and rejected otherwise. -/
theorem decodeFrameRaw_eq {data : List UInt8} (h : 4 ≤ data.length) :
    ∃ frameSz : UInt32, frameSz.toNat = announcedSize data ∧ decodeFrameRaw data =
      some (if announcedSize data < 2 ^ 31 ∧ 12 + announcedSize data ≤ data.length then
        some ⟨(data.drop 12).take (announcedSize data), frameSz⟩ else none) := by
  obtain ⟨frameSz, hread, hsize⟩ := memGetLe32_eq h
  have hheader : extractData data 0 4 = some (some (data.take 4)) := by
    rw [extractData_eq, if_pos ⟨by decide, (Nat.zero_add 4).symm ▸ h⟩]
    rfl
  refine ⟨frameSz, hsize, ?_⟩
  have hint : frameSz.toInt32.toInt = if 2 * frameSz.toNat < 2 ^ 32 then (frameSz.toNat : ℤ)
      else (frameSz.toNat : ℤ) - (2 ^ 32 : ℕ) := BitVec.toInt_eq_toNat_cond frameSz.toBitVec
  rw [hsize] at hint
  simp only [decodeFrameRaw, hheader, Option.bind_eq_bind, Option.bind_some, hread, extractData_eq,
    Option.pure_def, IVF_FRAME_HDR_SZ]
  congr 1
  by_cases hpositive : announcedSize data < 2 ^ 31
  · rw [if_pos (by omega)] at hint
    rw [hint, Int.toNat_natCast]
    split
    next hfits => rw [if_pos ⟨hpositive, hfits.2⟩]; rfl
    next hcut => rw [if_neg fun hfits => hcut ⟨Int.natCast_nonneg _, hfits.2⟩]; rfl
  · have hlt := ByteOrder.ofBytes_lt .littleEndian (data.take 4)
    rw [List.length_take_of_le h] at hlt
    rw [if_neg (by omega)] at hint
    have hnegative : ¬ 0 ≤ frameSz.toInt32.toInt := by
      change announcedSize data < 256 ^ 4 at hlt
      omega
    rw [if_neg fun hfits => hnegative hfits.1, if_neg fun hfits => hpositive hfits.1]
    rfl

/-- The framing is respected. The data are rejected, or the codec is given exactly the announced bytes behind
the header. -/
def RespectsFraming (data : List UInt8) : Prop :=
  ∃ handed, decodeFrameRaw data = some handed ∧ ∀ input ∈ handed,
    12 + announcedSize data ≤ data.length ∧
      input.frame = (data.drop 12).take (announcedSize data) ∧
      input.frameSz.toNat = announcedSize data

/-- The framing is respected exactly if there are the four bytes of the size. -/
theorem respectsFraming_iff (data : List UInt8) : RespectsFraming data ↔ 4 ≤ data.length := by
  constructor
  · rintro ⟨handed, hdecode, -⟩
    by_contra hshort
    rw [decodeFrameRaw_of_short (Nat.lt_of_not_le hshort)] at hdecode
    contradiction
  · intro h
    obtain ⟨frameSz, hsize, hdecode⟩ := decodeFrameRaw_eq h
    refine ⟨_, hdecode, fun input hinput => ?_⟩
    split at hinput
    next hfits =>
      obtain rfl := Option.some.inj hinput
      exact ⟨hfits.2, rfl, hsize⟩
    next => contradiction

end Vp8Payload

/-- What a packet of the codec adds to the data of its frame. -/
def CodecPacket.framed : CodecPacket → List UInt8
  | .other => []
  | .frame buf pts => memPutLe32 (UInt32.ofNat buf.length) ++ memPutLe32 pts.toUInt64.toUInt32 ++
      memPutLe32 (pts >>> 32).toUInt64.toUInt32 ++ buf

/-- The data of a frame are its packets, one behind the other. -/
theorem VP8Encoder.data_foldl_appendPacket (packets : List CodecPacket) (encoder : VP8Encoder)
    (frame : VP8Frame) : (packets.foldl appendPacket (encoder, frame)).2.data.getD [] =
      frame.data.getD [] ++ packets.flatMap CodecPacket.framed := by
  induction packets generalizing encoder frame with
  | nil => simp
  | cons packet packets ih =>
    cases packet with
    | other => exact ih encoder frame
    | frame buf pts =>
      rw [List.foldl_cons, ih, List.flatMap_cons, ← List.append_assoc]
      simp [appendPacket, CodecPacket.framed]

namespace Vp8Payload

/-- Without a packet that carries a frame, there are no data. -/
theorem flatMap_framed_of_nil {packets : List CodecPacket} (h : CodecPacket.buffers packets = []) :
    packets.flatMap CodecPacket.framed = [] := by
  induction packets with
  | nil => rfl
  | cons packet packets ih =>
    cases packet with
    | other => exact ih h
    | frame buf pts => contradiction

/-- The data of a frame whose first packet is followed by others begin with that packet. -/
theorem flatMap_framed {packets : List CodecPacket} {first : List UInt8} {others : List (List UInt8)}
    (h : CodecPacket.buffers packets = first :: others) : ∃ header rest, header.length = 8 ∧
      packets.flatMap CodecPacket.framed =
        memPutLe32 (UInt32.ofNat first.length) ++ (header ++ (first ++ rest)) := by
  induction packets with
  | nil => contradiction
  | cons packet packets ih =>
    cases packet with
    | other => exact ih h
    | frame buf pts =>
      obtain ⟨rfl, -⟩ := List.cons.inj h
      exact ⟨memPutLe32 pts.toUInt64.toUInt32 ++ memPutLe32 (pts >>> 32).toUInt64.toUInt32, _, rfl,
        by simp [CodecPacket.framed]; rfl⟩

/-- Of packets with fewer than `2 ^ 31` bytes, the first one is handed over. -/
theorem decodeFrameRaw_flatMap {packets : List CodecPacket} {first : List UInt8}
    {others : List (List UInt8)} (h : CodecPacket.buffers packets = first :: others)
    (hsize : first.length < 2 ^ 31) : ∃ frameSz,
      decodeFrameRaw (packets.flatMap CodecPacket.framed) = some (some ⟨first, frameSz⟩) := by
  obtain ⟨header, rest, hheader, hdata⟩ := flatMap_framed h
  have hput := memPutLe32_eq (UInt32.ofNat first.length)
  have hlt : first.length < 256 ^ 4 := hsize.trans (by decide)
  rw [UInt32.toNat_ofNat_of_lt' hlt] at hput
  have hfour : (memPutLe32 (UInt32.ofNat first.length)).length = 4 := by
    rw [hput, ByteOrder.toBytes_length]
  have hannounced : announcedSize (packets.flatMap CodecPacket.framed) = first.length := by
    rw [hdata, announcedSize, List.take_left' hfour, hput, ByteOrder.ofBytes_toBytes,
      Nat.mod_eq_of_lt hlt]
  have hbehind : (packets.flatMap CodecPacket.framed).drop 12 = first ++ rest := by
    rw [hdata, ← List.append_assoc, List.drop_left' (by rw [List.length_append, hfour, hheader])]
  have hlength : 12 + first.length ≤ (packets.flatMap CodecPacket.framed).length := by
    rw [hdata, List.length_append, List.length_append, List.length_append, hfour, hheader]
    omega
  have hheld : 4 ≤ (packets.flatMap CodecPacket.framed).length := by omega
  obtain ⟨frameSz, -, hdecode⟩ := decodeFrameRaw_eq hheld
  rw [hannounced, hbehind, List.take_left' rfl, if_pos ⟨hsize, hlength⟩] at hdecode
  exact ⟨frameSz, hdecode⟩

/-- The decoder hands over the data of all packets that an encoder puts into a frame. -/
def HandsOverAll (encoder : VP8Encoder) (packets : List CodecPacket) : Prop :=
  ∀ encoder' frame, encoder.encode (some packets) = some (encoder', frame) →
    ∃ frameSz, decodeFrameRaw (frame.data.getD []) =
      some (some ⟨(CodecPacket.buffers packets).flatten, frameSz⟩)

/-- All of the data are handed over exactly if there is a first packet and the others carry none. -/
theorem handsOverAll_iff (encoder : VP8Encoder) {packets : List CodecPacket}
    (hsize : CodecPacket.encodedLength packets < 2 ^ 31) : HandsOverAll encoder packets ↔
      ∃ first others, CodecPacket.buffers packets = first :: others ∧ others.flatten = [] := by
  have hencode : HandsOverAll encoder packets ↔
      ∃ frameSz, decodeFrameRaw (packets.flatMap CodecPacket.framed) =
        some (some ⟨(CodecPacket.buffers packets).flatten, frameSz⟩) := by
    have hdata := VP8Encoder.data_foldl_appendPacket packets
      { encoder with incrementalFrameNumber := encoder.incrementalFrameNumber + 1 }
      ⟨encoder.incrementalFrameNumber + 1, VP8Frame.NORMAL, none⟩
    constructor
    · intro hall
      have hframe := hall _ _ rfl
      rwa [hdata] at hframe
    · rintro hframe encoder' frame hencode
      obtain ⟨rfl, rfl⟩ := Prod.mk.inj (Option.some.inj hencode)
      rwa [hdata]
  rw [hencode]
  cases hbuffers : CodecPacket.buffers packets with
  | nil =>
    have hnone : packets.flatMap CodecPacket.framed = [] := flatMap_framed_of_nil hbuffers
    rw [hnone, decodeFrameRaw_of_short (by decide)]
    exact ⟨fun ⟨_, h⟩ => absurd h (Option.some_ne_none _).symm,
      fun ⟨_, _, h, _⟩ => absurd h (List.cons_ne_nil _ _).symm⟩
  | cons first others =>
    have hfirst : first.length < 2 ^ 31 := by
      refine Nat.lt_of_le_of_lt ?_ hsize
      rw [CodecPacket.encodedLength, hbuffers, List.map_cons, List.sum_cons]
      omega
    obtain ⟨frameSz, hdecode⟩ := decodeFrameRaw_flatMap hbuffers hfirst
    rw [hdecode, List.flatten_cons]
    constructor
    · rintro ⟨_, hsame⟩
      obtain ⟨hall, -⟩ := CodecInput.mk.inj (Option.some.inj (Option.some.inj hsame))
      exact ⟨first, others, rfl, List.self_eq_append_right.mp hall⟩
    · rintro ⟨_, _, heq, hnone⟩
      obtain ⟨rfl, rfl⟩ := List.cons.inj heq
      exact ⟨frameSz, by rw [hnone, List.append_nil]⟩

/-- The framing of data is respected exactly if they have the four bytes of a size, and all of the data of a
frame are handed over exactly if no packet behind the first one carries any. -/
theorem payloadFraming_iff (data : List UInt8) (encoder : VP8Encoder) (packets : List CodecPacket)
    (hsize : CodecPacket.encodedLength packets < 2 ^ 31) :
    (RespectsFraming data ↔ 4 ≤ data.length) ∧
      (HandsOverAll encoder packets ↔
        ∃ first others, CodecPacket.buffers packets = first :: others ∧ others.flatten = []) :=
  ⟨respectsFraming_iff data, handsOverAll_iff encoder hsize⟩

/-- The framing of four bytes is respected, and the data of a single packet are handed over. -/
theorem payloadFraming_onePacket : RespectsFraming [0, 0, 0, 0] ∧
    HandsOverAll { width := 640, height := 480 } [.frame [7, 8] 1] := by
  have hframing := payloadFraming_iff [0, 0, 0, 0] { width := 640, height := 480 } [.frame [7, 8] 1]
    (by decide)
  exact ⟨hframing.1.mpr (by decide), hframing.2.mpr ⟨[7, 8], [], rfl, rfl⟩⟩

/-- Reading the size of an empty array follows the null pointer, and the second of two packets is not handed
over. -/
theorem payloadFraming_broken : ¬ RespectsFraming [] ∧
    ¬ HandsOverAll { width := 640, height := 480 } [.frame [7] 1, .frame [8] 1] := by
  constructor
  · rintro ⟨handed, hdecode, -⟩
    contradiction
  · intro hall
    obtain ⟨_, _, hbuffers, hnone⟩ := (handsOverAll_iff _ (by decide)).mp hall
    obtain ⟨rfl, rfl⟩ := List.cons.inj hbuffers
    contradiction

end Vp8Payload

end Ts3Video
