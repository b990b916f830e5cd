import Mathlib.Data.List.Nodup
import Ts3Video.Media.InOrderDelivery
import Ts3Video.Media.MediaSocket

/-!
# The media pipeline on a lossless network

Seen from one sender, a run of the receiving socket is a run of that sender's decoder that asks
for a frame after every datagram. What the sending socket writes for a frame is read back as the
parts of the frame, so the delivery of frames in order carries over to the sockets.
-/

namespace Ts3Video.MediaSocket

open Std VideoFrameUdpDecoder

/-- A pending datagram that carries a part which some sender wrote. -/
structure Carries (senderId : Int32) (pending : PendingDatagram) (dg : VideoFrameDatagram) :
    Prop where
  data_eq : pending.data = dg.toBytes
  sender_eq : dg.sender = senderId
  length_eq : dg.data.length = dg.size.toNat
  size_ne_zero : dg.size ≠ 0

/-- One datagram of a sender is one call of `add` and one call of `next` of its decoder. -/
theorem onReadyRead_carries {senderId : Int32} {pending : PendingDatagram}
    {dg : VideoFrameDatagram} (hcarries : Carries senderId pending dg) {s : MediaSocket}
    {decoder : VideoFrameUdpDecoder} (hadd : (s.decoderOf senderId).add (some dg) = some decoder) :
    ∃ s' effects, s.onReadyRead pending = some (s', effects) ∧
      s'.decoderOf senderId = decoder.next.2 ∧
        enqueued senderId effects = decoder.next.1.toList := by
  obtain ⟨hdata, rfl, hlength, hsize⟩ := hcarries
  obtain ⟨data, now, heap⟩ := pending
  change data = _ at hdata
  rw [hdata, onReadyRead_toBytes s hlength hsize]
  exact handleVideoFrameDatagram_spec s hadd now

/-- A run of the socket over the datagrams of one sender is a run of the decoder of that sender. -/
theorem run_onReadyRead {senderId : Int32} {pendings : List PendingDatagram}
    {datagrams : List VideoFrameDatagram}
    (hcarries : List.Forall₂ (Carries senderId) pendings datagrams) {s : MediaSocket}
    {decoder : VideoFrameUdpDecoder} {frames : List VP8Frame}
    (hrun : Runs.run step (s.decoderOf senderId) (arrivals datagrams) = some (decoder, frames)) :
    ∃ s' effects, Runs.run onReadyRead s pendings = some (s', effects) ∧
      s'.decoderOf senderId = decoder ∧ enqueued senderId effects = frames := by
  induction hcarries generalizing s frames with
  | nil =>
    simp only [arrivals, List.flatMap_nil, Runs.run_nil, Option.some.injEq, Prod.mk.injEq] at hrun
    exact ⟨s, [], rfl, hrun.1, hrun.2⟩
  | @cons pending dg pendings datagrams hone _ ih =>
    obtain ⟨t, first, rest, hfirst, hafter, rfl⟩ := (Runs.run_cons_eq_some step).mp hrun
    obtain ⟨u, second, later, hnext, hlater, rfl⟩ := (Runs.run_cons_eq_some step).mp hafter
    obtain ⟨added, hadd, heq⟩ := Option.map_eq_some_iff.mp hfirst
    simp only [Prod.mk.injEq] at heq
    obtain ⟨rfl, rfl⟩ := heq
    simp only [step, Option.some.injEq, Prod.mk.injEq] at hnext
    obtain ⟨rfl, rfl⟩ := hnext
    obtain ⟨s', effects, hstep, hdecoder, heffects⟩ := onReadyRead_carries hone hadd
    obtain ⟨t, more, hrest, ht, hmore⟩ := ih (hdecoder ▸ hlater)
    refine ⟨t, effects ++ more, (Runs.run_cons_eq_some _).mpr ⟨s', effects, more, hstep, hrest,
      rfl⟩, ht, ?_⟩
    rw [enqueued_append, heffects, hmore]
    rfl

variable {sent : SentFrames} {frame : VP8Frame}

/-- The socket writes the parts of a frame in the order of their indices. -/
theorem sendVideoFrame_eq (hframe : frame ∈ sent.frames) :
    sendVideoFrame frame.serialize frame.time sent.senderId =
      (sent.emitted frame).map VideoFrameDatagram.toBytes := by
  have hfits := sent.fits frame hframe
  have hid : frame.time ≠ 0 := by
    intro hzero
    have hpositive := sent.ids_positive frame hframe
    rw [hzero] at hpositive
    exact absurd hpositive (by decide)
  have hsplit := split_eq_writtenDatagrams hfits.1 hid sent.senderId
  rw [VideoFrameDatagram.split_eq hfits] at hsplit
  rw [sendVideoFrame_eq_map, ← Option.some.inj hsplit]
  rfl

/-- Every part of a frame is well-formed on the wire. -/
theorem carries_part {dg : VideoFrameDatagram}
    (hdg : dg ∈ sent.emitted frame) {pending : PendingDatagram}
    (hdata : pending.data = dg.toBytes) : Carries sent.senderId pending dg := by
  obtain ⟨i, hi, rfl⟩ := List.mem_map.mp hdg
  have hinside := Parts.mul_lt_of_lt_count (by decide) (List.mem_range.mp hi)
  have hlength := Parts.part_length VideoFrameDatagram.MAXSIZE frame.serialize i
  have hsize : (sent.part frame i).size.toNat = (sent.part frame i).data.length :=
    UInt16.toNat_ofNat_of_lt' ((hlength.trans_le (Nat.min_le_left _ _)).trans_lt (by decide))
  refine ⟨hdata, rfl, hsize.symm, fun hzero => ?_⟩
  rw [hzero] at hsize
  change 0 = (Parts.part VideoFrameDatagram.MAXSIZE frame.serialize i).length at hsize
  have hpos : 0 < VideoFrameDatagram.MAXSIZE := by decide
  omega

/-- Datagrams that were written for parts of a frame carry these parts. -/
theorem carries_parts {pendings : List PendingDatagram} {datagrams : List VideoFrameDatagram}
    (hdata : pendings.map PendingDatagram.data = datagrams.map VideoFrameDatagram.toBytes)
    (hparts : ∀ dg ∈ datagrams, dg ∈ sent.emitted frame) :
    List.Forall₂ (Carries sent.senderId) pendings datagrams := by
  induction datagrams generalizing pendings with
  | nil =>
    rw [List.map_nil, List.map_eq_nil_iff] at hdata
    exact hdata ▸ .nil
  | cons dg datagrams ih =>
    obtain ⟨pending, rest, rfl, hfirst, hrest⟩ := List.map_eq_cons_iff.mp hdata
    exact .cons (carries_part (hparts dg List.mem_cons_self) hfirst)
      (ih hrest fun later hlater => hparts later (List.mem_cons_of_mem _ hlater))

/-- Whatever order the datagrams of a frame arrive in, they carry a permutation of its parts. -/
theorem exists_carried (hframe : frame ∈ sent.frames) {pendings : List PendingDatagram}
    (hperm : (pendings.map PendingDatagram.data).Perm
      (sendVideoFrame frame.serialize frame.time sent.senderId)) :
    ∃ datagrams, List.Forall₂ (Carries sent.senderId) pendings datagrams ∧
      datagrams.Perm (sent.emitted frame) := by
  rw [sendVideoFrame_eq hframe] at hperm
  have hcomp := congrFun₂ (List.eq_map_comp_perm VideoFrameDatagram.toBytes)
    (pendings.map PendingDatagram.data) (sent.emitted frame)
  obtain ⟨datagrams, hdata, horder⟩ := hcomp.mpr hperm
  exact ⟨datagrams, carries_parts hdata fun dg hdg => horder.mem_iff.mp hdg, horder⟩

/-- The datagrams that arrive for several frames carry, frame by frame, permutations of parts. -/
theorem exists_all_carried {frames : List VP8Frame} (hframes : ∀ frame ∈ frames, frame ∈ sent.frames)
    {received : List (List PendingDatagram)}
    (hperm : List.Forall₂ (fun frame pendings => (pendings.map PendingDatagram.data).Perm
      (sendVideoFrame frame.serialize frame.time sent.senderId)) frames received) :
    ∃ carried, List.Forall₂ (List.Forall₂ (Carries sent.senderId)) received carried ∧
      List.Forall₂ (fun frame datagrams => datagrams.Perm (sent.emitted frame)) frames carried := by
  induction hperm with
  | nil => exact ⟨[], .nil, .nil⟩
  | @cons frame pendings frames received hone _ ih =>
    obtain ⟨datagrams, hcarries, horder⟩ := exists_carried (hframes frame List.mem_cons_self) hone
    obtain ⟨carried, hrest, horders⟩ := ih fun later hlater =>
      hframes later (List.mem_cons_of_mem _ hlater)
    exact ⟨datagrams :: carried, .cons hcarries hrest, .cons horder horders⟩

/-- Frames with consecutive ids are frames of a sender. -/
def sentInOrder (senderId : Int32) (t : ℕ) (frames : List VP8Frame)
    (htimes : frames.map (fun frame => frame.time.toNat) = List.range' (t + 1) frames.length)
    (hfits : ∀ frame ∈ frames, VideoFrameDatagram.Fits frame.serialize) : SentFrames where
  frames := frames
  senderId := senderId
  ids_injective := by
    intro f hf g hg heq
    have hnodup : (frames.map fun frame => frame.time.toNat).Nodup := htimes ▸ List.nodup_range'
    exact List.inj_on_of_nodup_map hnodup hf hg (congrArg UInt64.toNat heq)
  ids_positive := by
    intro f hf
    have hmem : f.time.toNat ∈ frames.map fun frame => frame.time.toNat := List.mem_map_of_mem hf
    rw [htimes, List.mem_range'_1] at hmem
    exact UInt64.le_iff_toNat_le.mpr (Nat.le_trans (Nat.le_add_left 1 t) hmem.1)
  fits := hfits

/-- The media pipeline is the identity. Frames with consecutive ids, the first of them a key frame,
are enqueued in order, none missing and none changed, whatever order the datagrams of each frame
arrive in. -/
theorem pipeline_identity {s : MediaSocket} {senderId : Int32}
    (hnew : senderId ∉ s.videoFrameDatagramDecoders) (t : ℕ) (frames : List VP8Frame)
    (htimes : frames.map (fun frame => frame.time.toNat) = List.range' (t + 1) frames.length)
    (hkey : ∀ frame ∈ frames.head?, frame.type = VP8Frame.KEY)
    (hfits : ∀ frame ∈ frames, VideoFrameDatagram.Fits frame.serialize)
    (received : List (List PendingDatagram))
    (hperm : List.Forall₂ (fun frame pendings => (pendings.map PendingDatagram.data).Perm
      (sendVideoFrame frame.serialize frame.time senderId)) frames received) :
    ∃ s' effects, Runs.run onReadyRead s received.flatten = some (s', effects) ∧
      enqueued senderId effects = frames := by
  have hall : ∀ frame ∈ frames, frame ∈ (sentInOrder senderId t frames htimes hfits).frames :=
    fun _ h => h
  obtain ⟨carried, hcarries, horders⟩ := exists_all_carried hall hperm
  have hdecoder : s.decoderOf senderId = {} := by
    rw [decoderOf, ExtTreeMap.getElem?_eq_none hnew, Option.getD_none]
  have hstart : Between t 0 {} :=
    ⟨⟨rfl, rfl, rfl, Nat.le_refl 0, fun h => absurd h (Nat.lt_irrefl 0)⟩,
      fun id hmem => by simp at hmem⟩
  obtain ⟨decoder, hrun⟩ := hstart.run_frames hall htimes (fun _ => hkey) horders
  obtain ⟨s', effects, hsocket, -, henqueued⟩ :=
    run_onReadyRead (List.rel_flatten hcarries) (hdecoder ▸ hrun)
  exact ⟨s', effects, hsocket, henqueued⟩

/-- A frame of two datagrams that arrive in reverse order, followed by a small one. -/
theorem pipeline_identity_twoFrames :
    let frames : List VP8Frame :=
      [⟨1, VP8Frame.KEY, some (List.replicate 500 7)⟩, ⟨2, VP8Frame.NORMAL, some [8, 9]⟩]
    let received := frames.map fun frame =>
      (sendVideoFrame frame.serialize frame.time 5).reverse.map fun data =>
        ({ data, now := 0, heap := fun _ => 0 } : PendingDatagram)
    ∃ s' effects, Runs.run onReadyRead {} received.flatten = some (s', effects) ∧
      enqueued 5 effects = frames := by
  intro frames received
  refine pipeline_identity (by simp) 0 frames (by decide) (by decide) (by decide +kernel) received ?_
  rw [List.forall₂_map_right_iff, List.forall₂_same]
  intro frame _
  rw [List.map_map]
  exact (List.map_id _).symm ▸ List.reverse_perm _

end Ts3Video.MediaSocket
