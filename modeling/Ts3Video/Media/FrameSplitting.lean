import Mathlib.Algebra.Order.BigOperators.Group.List
import Ts3Video.Media.DatagramParsing

/-!
# Cutting frames into datagrams

Audio and video frames are cut in the same way, with headers of different size. The number of parts is
stored in 16 bits and never checked, so a frame with more parts is cut off without an error.
-/

namespace Ts3Video

/-- One part of an audio frame. -/
structure AudioFrameDatagram where
  sender : Int32
  frameId : UInt64
  index : UInt16
  count : UInt16
  size : UInt16
  data : List UInt8
deriving DecidableEq

/-- The payload bytes that fit after sender, frame id, index, count and size. -/
def AudioFrameDatagram.MAXSIZE : ℕ := Datagram.MAXSIZE - (4 + 8 + 2 + 2 + 2)

/-- Cut the bytes of a frame into datagrams; `none` is the error code of an empty frame. -/
def AudioFrameDatagram.split (data : List UInt8) (frameId : UInt64) (senderId : Int32) :
    Option (List AudioFrameDatagram) :=
  Datagram.split MAXSIZE (fun index count size data =>
    { sender := senderId, frameId, index, count, size, data }) data

/-- The fields that the parts of audio and video frames have in common. -/
structure FramePart where
  sender : Int32
  frameId : UInt64
  index : UInt16
  count : UInt16
  size : UInt16
  data : List UInt8

/-- The bytes of the frame in this part. -/
def FramePart.payload (part : FramePart) : List UInt8 := part.data.take part.size.toNat

/-- A part of a video frame. -/
def VideoFrameDatagram.toPart (dg : VideoFrameDatagram) : FramePart :=
  ⟨dg.sender, dg.frameId, dg.index, dg.count, dg.size, dg.data⟩

/-- A part of an audio frame. -/
def AudioFrameDatagram.toPart (dg : AudioFrameDatagram) : FramePart :=
  ⟨dg.sender, dg.frameId, dg.index, dg.count, dg.size, dg.data⟩

/-- The parts of a frame with payloads of limited size: they are numbered and counted, are not empty,
name the frame and its sender, and the frame is their payloads one after the other. -/
structure Lossless (maxSize : ℕ) (data : List UInt8) (frameId : UInt64) (senderId : Int32)
    (parts : List FramePart) : Prop where
  nonempty : 1 ≤ parts.length
  count : ∀ part ∈ parts, part.count.toNat = parts.length
  index : (parts.map fun part => part.index.toNat) = List.range parts.length
  size : ∀ part ∈ parts, 1 ≤ part.size.toNat ∧ part.size.toNat ≤ maxSize ∧
    part.data.length = part.size.toNat
  frame : ∀ part ∈ parts, part.frameId = frameId ∧ part.sender = senderId
  joined : parts.flatMap FramePart.payload = data

/-- The frame is refused with an error or cut into parts without a loss. -/
def LosesNothing (maxSize : ℕ) (data : List UInt8) (frameId : UInt64) (senderId : Int32)
    (result : Option (List FramePart)) : Prop :=
  ∀ parts, result = some parts → Lossless maxSize data frameId senderId parts

/-- A count of 16 bits limits the length of the frame. -/
theorem Lossless.length_le {maxSize : ℕ} {data : List UInt8} {frameId : UInt64} {senderId : Int32}
    {parts : List FramePart} (h : Lossless maxSize data frameId senderId parts) :
    data.length ≤ 65535 * maxSize := by
  obtain ⟨part, hpart⟩ := List.exists_mem_of_length_pos h.nonempty
  have hcount := part.count.toNat_lt
  rw [h.count part hpart] at hcount
  have hsum : (parts.flatMap FramePart.payload).length ≤ parts.length * maxSize := by
    have hpayload : ∀ length ∈ parts.map (fun part => part.payload.length), length ≤ maxSize := by
      intro length hlength
      obtain ⟨part, hpart, rfl⟩ := List.mem_map.mp hlength
      have := (h.size part hpart).2.1
      rw [FramePart.payload, List.length_take]
      omega
    rw [List.length_flatMap]
    simpa using List.sum_le_card_nsmul _ maxSize hpayload
  rw [h.joined] at hsum
  exact hsum.trans (Nat.mul_le_mul_right maxSize (by omega))

/-- Bytes whose parts can be counted with 16 bits are cut without a loss. -/
theorem losesNothing_split {maxSize : ℕ} (hpos : 0 < maxSize) (hsize : maxSize < 2 ^ 16)
    {data : List UInt8} (frameId : UInt64) (senderId : Int32)
    (hfits : data.length ≤ 65535 * maxSize) :
    LosesNothing maxSize data frameId senderId
      (Datagram.split maxSize (fun index count size data =>
        (⟨senderId, frameId, index, count, size, data⟩ : FramePart)) data) := by
  intro parts hparts
  rcases Nat.eq_zero_or_pos data.length with hempty | hdata
  · rw [Datagram.split, if_pos hempty] at hparts
    contradiction
  rw [Datagram.split_eq hpos hsize _ hdata hfits, Option.some.injEq] at hparts
  subst hparts
  have hcount := Parts.count_le hpos hfits
  have hnat : ∀ n ≤ 65535, (UInt16.ofNat n).toNat = n := fun n hn =>
    UInt16.toNat_ofNat_of_lt' (by change n < 2 ^ 16; omega)
  have hpart : ∀ i < Parts.count maxSize data.length,
      1 ≤ (Parts.part maxSize data i).length ∧ (Parts.part maxSize data i).length ≤ maxSize := by
    intro i hi
    have hinside := Parts.mul_lt_of_lt_count hpos hi
    rw [Parts.part_length]
    omega
  refine ⟨?_, ?_, ?_, ?_, ?_, ?_⟩
  · rw [List.length_map, List.length_range]
    exact Parts.count_pos hpos hdata
  · intro part hmem
    obtain ⟨i, -, rfl⟩ := List.mem_map.mp hmem
    rw [List.length_map, List.length_range]
    exact hnat _ hcount
  · rw [List.map_map, List.length_map, List.length_range]
    refine List.map_congr_left (g := id) (fun i hi => ?_) |>.trans (List.map_id _)
    have := List.mem_range.mp hi
    exact hnat i (by omega)
  · intro part hmem
    obtain ⟨i, hi, rfl⟩ := List.mem_map.mp hmem
    obtain ⟨hlower, hupper⟩ := hpart i (List.mem_range.mp hi)
    dsimp only
    rw [hnat _ (by omega)]
    exact ⟨hlower, hupper, rfl⟩
  · intro part hmem
    obtain ⟨i, -, rfl⟩ := List.mem_map.mp hmem
    exact ⟨rfl, rfl⟩
  · rw [List.flatMap_map]
    refine Eq.trans (List.flatMap_congr fun i hi => ?_) (Parts.flatMap_part_count hpos data)
    obtain ⟨-, hupper⟩ := hpart i (List.mem_range.mp hi)
    dsimp only [FramePart.payload]
    rw [hnat _ (by omega), List.take_length]

/-- The datagrams of a frame may be looked at as parts while they are cut or afterwards. -/
theorem map_split {δ ε : Type*} (f : δ → ε) (maxSize : ℕ)
    (make : UInt16 → UInt16 → UInt16 → List UInt8 → δ) (data : List UInt8) :
    (Datagram.split maxSize make data).map (List.map f) =
      Datagram.split maxSize (fun index count size data => f (make index count size data)) data := by
  have hloop : ∀ (make : UInt16 → UInt16 → List UInt8 → δ) (remaining : ℕ) (i : UInt16)
      (pdata : List UInt8), (Datagram.splitLoop maxSize make data remaining i pdata).map f =
        Datagram.splitLoop maxSize (fun index size data => f (make index size data)) data remaining i
          pdata := by
    intro make remaining
    induction remaining with
    | zero => exact fun _ _ => rfl
    | succ remaining ih =>
      intro i pdata
      rw [Datagram.splitLoop, List.map_cons, ih, Datagram.splitLoop]
  unfold Datagram.split
  dsimp only
  split
  · rfl
  · rw [Option.map_some, hloop]

/-- A frame with more parts than 16 bits can count is not cut without a loss. -/
theorem losesNothing_split_iff {maxSize : ℕ} (hpos : 0 < maxSize) (hsize : maxSize < 2 ^ 16)
    (data : List UInt8) (frameId : UInt64) (senderId : Int32) :
    LosesNothing maxSize data frameId senderId
        (Datagram.split maxSize (fun index count size data =>
          (⟨senderId, frameId, index, count, size, data⟩ : FramePart)) data) ↔
      data.length ≤ 65535 * maxSize := by
  constructor
  · intro h
    rcases Nat.eq_zero_or_pos data.length with hempty | hdata
    · rw [hempty]
      exact Nat.zero_le _
    · exact (h _ (if_neg (Nat.pos_iff_ne_zero.mp hdata))).length_le
  · exact losesNothing_split hpos hsize frameId senderId

/-- A header and the largest payload fill a datagram. -/
example : VideoFrameDatagram.headerSize + VideoFrameDatagram.MAXSIZE = 512 := rfl

/-- A frame of 65536 full parts is neither refused nor cut into its parts. -/
theorem losesNothing_largeFrame :
    ¬ LosesNothing VideoFrameDatagram.MAXSIZE (List.replicate (65536 * 491) 0) 1 7
      ((VideoFrameDatagram.split (List.replicate (65536 * 491) 0) 1 7).map
        (List.map VideoFrameDatagram.toPart)) := by
  rw [VideoFrameDatagram.split_eq_split, map_split]
  refine fun h => absurd ((losesNothing_split_iff (by decide) (by decide) _ _ _).mp h) ?_
  rw [List.length_replicate]
  decide

/-- Cutting a frame loses nothing exactly if the frame has at most 65535 parts. -/
theorem split_losesNothing_iff (data : List UInt8) (frameId : UInt64) (senderId : Int32) :
    (LosesNothing VideoFrameDatagram.MAXSIZE data frameId senderId
        ((VideoFrameDatagram.split data frameId senderId).map (List.map VideoFrameDatagram.toPart)) ↔
      data.length ≤ 65535 * VideoFrameDatagram.MAXSIZE) ∧
    (LosesNothing AudioFrameDatagram.MAXSIZE data frameId senderId
        ((AudioFrameDatagram.split data frameId senderId).map (List.map AudioFrameDatagram.toPart)) ↔
      data.length ≤ 65535 * AudioFrameDatagram.MAXSIZE) := by
  constructor
  · rw [VideoFrameDatagram.split_eq_split, map_split]
    exact losesNothing_split_iff (by decide) (by decide) data frameId senderId
  · rw [AudioFrameDatagram.split, map_split]
    exact losesNothing_split_iff (by decide) (by decide) data frameId senderId

end Ts3Video
