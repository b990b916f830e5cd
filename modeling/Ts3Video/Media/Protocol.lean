import Ts3Video.Library.Parts
import Ts3Video.Media.Vp8Frame

/-!
# Video datagrams

A serialised frame is cut into datagrams that fit into 512 bytes with their headers. Every
datagram names the number of datagrams of its frame in a 16-bit field.
-/

namespace Ts3Video

/-- The first byte of every datagram. -/
def Datagram.MAGIC : UInt8 := 0xAE

/-- The bytes left of 512 after the magic byte and the type. -/
def Datagram.MAXSIZE : ℕ := 512 - 1 - 1

/-- One part of a video frame. -/
structure VideoFrameDatagram where
  flags : UInt8
  sender : Int32
  frameId : UInt64
  index : UInt16
  count : UInt16
  size : UInt16
  data : List UInt8
deriving DecidableEq

/-- The datagram type of video parts. -/
def VideoFrameDatagram.TYPE : UInt8 := 0x02

/-- The payload bytes that fit after flags, sender, frame id, index, count and size. -/
def VideoFrameDatagram.MAXSIZE : ℕ := Datagram.MAXSIZE - (1 + 4 + 8 + 2 + 2 + 2)

/-- The loop of `split`: `pdata` points behind the bytes that are already in a datagram. -/
def VideoFrameDatagram.splitLoop (data : List UInt8) (frameId : UInt64) (senderId : Int32)
    (datagramsLength : UInt16) : ℕ → UInt16 → List UInt8 → List VideoFrameDatagram
  | 0, _, _ => []
  | remaining + 1, i, pdata =>
    let offset := i.toNat * MAXSIZE
    let len := UInt16.ofNat (if offset + MAXSIZE > data.length then data.length - offset else MAXSIZE)
    { flags := 0, sender := senderId, frameId, index := i, count := datagramsLength, size := len,
      data := pdata.take len.toNat } ::
        splitLoop data frameId senderId datagramsLength remaining (i + 1) (pdata.drop len.toNat)

/-- Cut the bytes of a frame into datagrams; `none` is the error code of an empty frame. -/
def VideoFrameDatagram.split (data : List UInt8) (frameId : UInt64) (senderId : Int32) :
    Option (List VideoFrameDatagram) :=
  if data.length = 0 then none
  else
    let datagramsLength := UInt16.ofNat (Parts.count MAXSIZE data.length)
    some (splitLoop data frameId senderId datagramsLength datagramsLength.toNat 0 data)

/-- The bytes a receiver copies out of a datagram. -/
def VideoFrameDatagram.payload (datagram : VideoFrameDatagram) : List UInt8 :=
  datagram.data.take datagram.size.toNat

/-- The datagram with a given index of a frame that is cut into `count` datagrams. -/
def VideoFrameDatagram.partOf (data : List UInt8) (frameId : UInt64) (senderId : Int32)
    (count i : ℕ) : VideoFrameDatagram where
  flags := 0
  sender := senderId
  frameId := frameId
  index := UInt16.ofNat i
  count := UInt16.ofNat count
  size := UInt16.ofNat (Parts.part MAXSIZE data i).length
  data := Parts.part MAXSIZE data i

/-- The loop of a function that cuts bytes into datagrams with at most `maxSize` bytes each. -/
def Datagram.splitLoop {δ : Type*} (maxSize : ℕ) (make : UInt16 → UInt16 → List UInt8 → δ)
    (data : List UInt8) : ℕ → UInt16 → List UInt8 → List δ
  | 0, _, _ => []
  | remaining + 1, i, pdata =>
    let offset := i.toNat * maxSize
    let len := UInt16.ofNat (if offset + maxSize > data.length then data.length - offset else maxSize)
    make i len (pdata.take len.toNat) ::
      splitLoop maxSize make data remaining (i + 1) (pdata.drop len.toNat)

/-- Cut bytes into datagrams that are made from index, count, size and payload; `none` is the error
code of an empty frame. -/
def Datagram.split {δ : Type*} (maxSize : ℕ) (make : UInt16 → UInt16 → UInt16 → List UInt8 → δ)
    (data : List UInt8) : Option (List δ) :=
  if data.length = 0 then none
  else
    let datagramsLength := UInt16.ofNat (Parts.count maxSize data.length)
    some (splitLoop maxSize (fun index => make index datagramsLength) data datagramsLength.toNat 0
      data)

/-- The loop emits the parts of the frame in the order of their indices. -/
theorem Datagram.splitLoop_eq {δ : Type*} {maxSize : ℕ} (hsize : maxSize < 2 ^ 16)
    (make : UInt16 → UInt16 → List UInt8 → δ) (data : List UInt8) (remaining i : ℕ)
    (hcount : i + remaining < 2 ^ 16) (hinside : ∀ j < i + remaining, j * maxSize < data.length) :
    splitLoop maxSize make data remaining (UInt16.ofNat i) (data.drop (i * maxSize)) =
      (List.range' i remaining).map fun i => make (UInt16.ofNat i)
        (UInt16.ofNat (Parts.part maxSize data i).length) (Parts.part maxSize data i) := by
  induction remaining generalizing i with
  | zero => rfl
  | succ remaining ih =>
    have hi : (UInt16.ofNat i).toNat = i := UInt16.toNat_ofNat_of_lt' (by change i < 2 ^ 16; omega)
    have hlength : (Parts.part maxSize data i).length =
        if i * maxSize + maxSize > data.length then data.length - i * maxSize else maxSize := by
      rw [Parts.part_length]
      split <;> omega
    have hlen : (UInt16.ofNat (Parts.part maxSize data i).length).toNat =
        (Parts.part maxSize data i).length := by
      apply UInt16.toNat_ofNat_of_lt'
      exact ((Parts.part_length maxSize data i).trans_le (Nat.min_le_left _ _)).trans_lt hsize
    have hnext : UInt16.ofNat i + 1 = UInt16.ofNat (i + 1) := by
      rw [UInt16.ofNat_add]
      rfl
    rw [splitLoop, hi, ← hlength, hlen, List.range'_succ, List.map_cons, List.cons.injEq]
    constructor
    · congr 1
      rw [Parts.part_length, Parts.part, List.take_eq_take_iff, List.length_drop]
      omega
    · rw [hnext, List.drop_drop]
      cases remaining with
      | zero => rfl
      | succ remaining =>
        have hfull : i * maxSize + (Parts.part maxSize data i).length = (i + 1) * maxSize := by
          have := hinside (i + 1) (by omega)
          rw [Parts.part_length, Nat.succ_mul] at *
          omega
        rw [hfull]
        exact ih (i + 1) (by omega) (fun j hj => hinside j (by omega))

/-- Bytes whose parts can be counted with 16 bits are cut into all their parts. -/
theorem Datagram.split_eq {δ : Type*} {maxSize : ℕ} (hpos : 0 < maxSize) (hsize : maxSize < 2 ^ 16)
    (make : UInt16 → UInt16 → UInt16 → List UInt8 → δ) {data : List UInt8} (hdata : 0 < data.length)
    (hfits : data.length ≤ 65535 * maxSize) :
    split maxSize make data = some ((List.range (Parts.count maxSize data.length)).map fun i =>
      make (UInt16.ofNat i) (UInt16.ofNat (Parts.count maxSize data.length))
        (UInt16.ofNat (Parts.part maxSize data i).length) (Parts.part maxSize data i)) := by
  have hcount := Parts.count_le hpos hfits
  have hlength : (UInt16.ofNat (Parts.count maxSize data.length)).toNat =
      Parts.count maxSize data.length := UInt16.toNat_ofNat_of_lt' (by change _ < 2 ^ 16; omega)
  have hloop := splitLoop_eq hsize (fun index => make index (UInt16.ofNat (Parts.count maxSize
    data.length))) data (Parts.count maxSize data.length) 0 (by omega)
    (fun j hj => Parts.mul_lt_of_lt_count hpos (by rwa [Nat.zero_add] at hj))
  rw [Nat.zero_mul, List.drop_zero] at hloop
  rw [split, if_neg (Nat.pos_iff_ne_zero.mp hdata), List.range_eq_range', ← hloop]
  dsimp only
  rw [hlength]
  rfl

/-- The loop over video datagrams is an instance of the general one. -/
theorem VideoFrameDatagram.splitLoop_eq_splitLoop (data : List UInt8) (frameId : UInt64)
    (senderId : Int32) (count : UInt16) (remaining : ℕ) (i : UInt16) (pdata : List UInt8) :
    splitLoop data frameId senderId count remaining i pdata =
      Datagram.splitLoop MAXSIZE (fun index size data =>
        { flags := 0, sender := senderId, frameId, index, count, size, data }) data remaining i
        pdata := by
  induction remaining generalizing i pdata with
  | zero => rfl
  | succ remaining ih =>
    rw [splitLoop, Datagram.splitLoop, ih]

/-- Cutting a video frame is an instance of the general function. -/
theorem VideoFrameDatagram.split_eq_split (data : List UInt8) (frameId : UInt64) (senderId : Int32) :
    split data frameId senderId = Datagram.split MAXSIZE (fun index count size data =>
      { flags := 0, sender := senderId, frameId, index, count, size, data }) data := by
  rw [split, Datagram.split]
  dsimp only
  rw [splitLoop_eq_splitLoop]

/-- The length of a frame that is cut into at most as many datagrams as the count field can name. -/
def VideoFrameDatagram.Fits (data : List UInt8) : Prop :=
  0 < data.length ∧ data.length ≤ 65535 * MAXSIZE

instance (data : List UInt8) : Decidable (VideoFrameDatagram.Fits data) :=
  inferInstanceAs (Decidable (_ ∧ _))

/-- The number of datagrams of a frame that fits. -/
def VideoFrameDatagram.datagramsLength (data : List UInt8) : ℕ := Parts.count MAXSIZE data.length

/-- A frame that fits is cut into at least one and at most 65535 datagrams. -/
theorem VideoFrameDatagram.datagramsLength_bounds {data : List UInt8} (h : Fits data) :
    0 < datagramsLength data ∧ datagramsLength data ≤ 65535 :=
  ⟨Parts.count_pos (by decide) h.1, Parts.count_le (by decide) h.2⟩

/-- `split` emits the first parts of a frame, as many as its number of parts is modulo 65536. -/
theorem VideoFrameDatagram.split_eq_parts {data : List UInt8} (hdata : 0 < data.length)
    (frameId : UInt64) (senderId : Int32) :
    split data frameId senderId = some ((List.range (datagramsLength data % 65536)).map
      (partOf data frameId senderId (datagramsLength data % 65536))) := by
  have hmod : (UInt16.ofNat (Parts.count MAXSIZE data.length)).toNat =
      datagramsLength data % 65536 := UInt16.toNat_ofNat'
  have hle : datagramsLength data % 65536 ≤ Parts.count MAXSIZE data.length := Nat.mod_le _ _
  have hloop := Datagram.splitLoop_eq (by decide : MAXSIZE < 2 ^ 16) (fun index size payload =>
    (⟨0, senderId, frameId, index, UInt16.ofNat (Parts.count MAXSIZE data.length), size, payload⟩ :
      VideoFrameDatagram)) data (datagramsLength data % 65536) 0
    (by have := Nat.mod_lt (datagramsLength data) (by decide : 65536 > 0); omega)
    (fun j hj => Parts.mul_lt_of_lt_count (by decide) (by omega))
  rw [Nat.zero_mul, List.drop_zero] at hloop
  rw [split_eq_split, Datagram.split, if_neg (Nat.pos_iff_ne_zero.mp hdata)]
  dsimp only
  rw [hmod, List.range_eq_range']
  refine congrArg some (hloop.trans (List.map_congr_left fun i _ => ?_))
  rw [partOf, ← hmod, UInt16.ofNat_toNat]

/-- `split` emits all parts of a frame that fits, in the order of their indices. -/
theorem VideoFrameDatagram.split_eq {data : List UInt8} (h : Fits data) (frameId : UInt64)
    (senderId : Int32) :
    split data frameId senderId = some ((List.range (datagramsLength data)).map
      (partOf data frameId senderId (datagramsLength data))) := by
  have hlt : datagramsLength data < 65536 := Nat.lt_succ_of_le (datagramsLength_bounds h).2
  rw [split_eq_parts h.1, Nat.mod_eq_of_lt hlt]

/-- A receiver copies exactly the bytes of the part. -/
@[simp] theorem VideoFrameDatagram.payload_partOf (data : List UInt8) (frameId : UInt64)
    (senderId : Int32) (count i : ℕ) :
    (partOf data frameId senderId count i).payload = Parts.part MAXSIZE data i := by
  have hle := (Parts.part_length MAXSIZE data i).trans_le (Nat.min_le_left _ _)
  have hsize : (UInt16.ofNat (Parts.part MAXSIZE data i).length).toNat =
      (Parts.part MAXSIZE data i).length :=
    UInt16.toNat_ofNat_of_lt' (hle.trans_lt (by decide))
  rw [payload, partOf, hsize, List.take_length]

/-- Joining the payloads of all parts gives the frame back. -/
theorem VideoFrameDatagram.flatMap_payload (data : List UInt8) (frameId : UInt64)
    (senderId : Int32) :
    (List.range (datagramsLength data)).flatMap
      (fun i => (partOf data frameId senderId (datagramsLength data) i).payload) = data := by
  simp only [payload_partOf]
  exact Parts.flatMap_part_count (by decide) data

end Ts3Video
