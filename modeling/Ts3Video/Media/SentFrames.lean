import Ts3Video.Media.UdpVideoFrameDecoder

/-!
# What a sender puts on the network

A sender cuts frames with distinct positive ids into datagrams. A buffer that holds only parts of
one of its frames turns into exactly that frame once it is complete.
-/

namespace Ts3Video

/-- The frames of one sender. Their serialised forms fit the count field of the datagrams. -/
structure SentFrames where
  frames : List VP8Frame
  senderId : Int32
  ids_injective : ∀ f ∈ frames, ∀ g ∈ frames, f.time = g.time → f = g
  ids_positive : ∀ f ∈ frames, 1 ≤ f.time
  fits : ∀ f ∈ frames, VideoFrameDatagram.Fits f.serialize

namespace SentFrames

/-- A datagram that `split` emitted for the given frame. -/
def Emits (sent : SentFrames) (frame : VP8Frame) (dg : VideoFrameDatagram) : Prop :=
  ∃ datagrams, VideoFrameDatagram.split frame.serialize frame.time sent.senderId = some datagrams ∧
    dg ∈ datagrams

/-- The number of datagrams of a frame. -/
def parts (frame : VP8Frame) : ℕ := VideoFrameDatagram.datagramsLength frame.serialize

/-- The datagram of a frame with the given index. -/
def part (sent : SentFrames) (frame : VP8Frame) (i : ℕ) : VideoFrameDatagram :=
  VideoFrameDatagram.partOf frame.serialize frame.time sent.senderId (parts frame) i

/-- The emitted datagrams of a frame are its parts. -/
theorem emits_iff {sent : SentFrames} {frame : VP8Frame} (hframe : frame ∈ sent.frames)
    (dg : VideoFrameDatagram) :
    sent.Emits frame dg ↔ ∃ i < parts frame, dg = sent.part frame i := by
  simp only [Emits, VideoFrameDatagram.split_eq (sent.fits frame hframe), Option.some.injEq,
    exists_eq_left', List.mem_map, List.mem_range]
  exact ⟨fun ⟨i, hi, heq⟩ => ⟨i, hi, heq.symm⟩, fun ⟨i, hi, heq⟩ => ⟨i, hi, heq.symm⟩⟩

/-- The fields of a part that a receiver looks at. -/
theorem part_fields {sent : SentFrames} {frame : VP8Frame} (hframe : frame ∈ sent.frames) {i : ℕ}
    (hi : i < parts frame) :
    (sent.part frame i).frameId = frame.time ∧ (sent.part frame i).index.toNat = i ∧
      (sent.part frame i).count.toNat = parts frame := by
  have hbounds := VideoFrameDatagram.datagramsLength_bounds (sent.fits frame hframe)
  change _ < VideoFrameDatagram.datagramsLength frame.serialize at hi
  refine ⟨rfl, UInt16.toNat_ofNat_of_lt' ?_, UInt16.toNat_ofNat_of_lt' ?_⟩
  · change i < 2 ^ 16
    omega
  · change VideoFrameDatagram.datagramsLength frame.serialize < 2 ^ 16
    omega

/-- A buffer of the right length that holds parts of the frame only, each at its own index. -/
structure PartlyReceived (sent : SentFrames) (frame : VP8Frame) (buffer : DGPtrList) : Prop where
  length_eq : buffer.length = parts frame
  received : ∀ i dg, buffer[i]? = some (some dg) → dg = sent.part frame i

/-- A new buffer has received nothing. -/
theorem PartlyReceived.new (sent : SentFrames) (frame : VP8Frame) :
    sent.PartlyReceived frame (List.replicate (parts frame) none) := by
  refine ⟨List.length_replicate, fun i dg hget => ?_⟩
  rw [List.getElem?_replicate] at hget
  split at hget <;> simp at hget

/-- One more part may be stored at its index. -/
theorem PartlyReceived.set {sent : SentFrames} {frame : VP8Frame} {buffer : DGPtrList}
    (h : sent.PartlyReceived frame buffer) {i index : ℕ} (hindex : index = i) :
    sent.PartlyReceived frame (buffer.set index (some (sent.part frame i))) := by
  subst hindex
  refine ⟨by rw [List.length_set, h.length_eq], fun j dg hget => ?_⟩
  rw [List.getElem?_set] at hget
  split at hget
  next heq =>
    subst heq
    split at hget
    · simpa using hget.symm
    · contradiction
  next => exact h.received j dg hget

/-- A complete buffer holds all parts in order. -/
theorem PartlyReceived.eq_of_isComplete {sent : SentFrames} {frame : VP8Frame} {buffer : DGPtrList}
    (h : sent.PartlyReceived frame buffer) (hcomplete : VideoFrameUdpDecoder.isComplete buffer) :
    buffer = (List.range (parts frame)).map fun i => some (sent.part frame i) := by
  apply List.ext_getElem
  · simp [h.length_eq]
  · intro i hi _
    obtain ⟨dg, hdg⟩ := Option.isSome_iff_exists.mp
      (List.all_eq_true.mp hcomplete buffer[i] (List.getElem_mem hi))
    have hpart := h.received i dg (by rw [List.getElem?_eq_getElem hi, hdg])
    rw [List.getElem_map, List.getElem_range, hdg, hpart]

/-- A complete buffer of a frame is turned into exactly that frame. -/
theorem PartlyReceived.createFrame {sent : SentFrames} {frame : VP8Frame} {buffer : DGPtrList}
    (hframe : frame ∈ sent.frames) (h : sent.PartlyReceived frame buffer)
    (hcomplete : VideoFrameUdpDecoder.isComplete buffer) :
    VideoFrameUdpDecoder.createFrame buffer = frame := by
  have hfits := sent.fits frame hframe
  have hbytes : (buffer.flatMap fun dg => dg.elim [] VideoFrameDatagram.payload) =
      frame.serialize := by
    rw [h.eq_of_isComplete hcomplete, List.flatMap_map]
    exact VideoFrameDatagram.flatMap_payload frame.serialize frame.time sent.senderId
  rw [VideoFrameUdpDecoder.createFrame, hbytes]
  exact VP8Frame.deserialize_serialize (hfits.2.trans_lt (by decide))

end SentFrames

end Ts3Video
