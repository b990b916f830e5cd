import Ts3Video.Media.NumberedDatagrams
import Ts3Video.Media.VideoEncoding

/-!
# Receivers and restarted encoders

An encoder numbers its frames from one, and the socket numbers the frames of all encoders. The receiver
files datagrams under the number of the socket and frames under that of the encoder, and compares both
with the number of the last frame that it has handed out.
-/

namespace Ts3Video

open Std

/-- The encoding thread of a sender, the counter of its socket, and the decoder of a receiver. -/
structure VideoStream where
  videoEncodingThread : VideoEncodingThread := {}
  nextVideoFrameId : UInt64 := 1
  receiver : VideoFrameUdpDecoder := {}

namespace VideoStream

/-- What happens to a stream: the thread of the sender is configured and started, or it is stopped, or
asked for a key frame, or processes an image, or the receiver is a new one. -/
inductive Event where
  | initVideoEncoder (width height : Int32)
  | resetVideoEncoder
  | enqueueRecovery (ft : Int32)
  | image (image : CapturedImage)
  | newReceiver

/-- A frame that is sent, and what the receiver hands out while its datagrams arrive. -/
structure Delivery where
  frame : VP8Frame
  returned : List VP8Frame
deriving DecidableEq

/-- `onVideoFrameEncoded`: number a frame and send it. Its datagrams arrive in order, none missing. -/
def onVideoFrameEncoded (s : VideoStream) (frame : VP8Frame) (senderId : Int32) :
    Option (VideoStream × List Delivery) :=
  let datagrams := MediaSocket.writtenDatagrams frame.serialize s.nextVideoFrameId senderId
  (Runs.run VideoFrameUdpDecoder.step s.receiver (VideoFrameUdpDecoder.arrivals datagrams)).map
    fun done =>
      ({ s with nextVideoFrameId := s.nextVideoFrameId + 1, receiver := done.1 }, [⟨frame, done.2⟩])

/-- A stream as a machine whose outputs are the frames that are sent. -/
def step (senderId : Int32) (s : VideoStream) : Event → Option (VideoStream × List Delivery)
  | .initVideoEncoder width height =>
    some ({ s with videoEncodingThread := s.videoEncodingThread.init width height }, [])
  | .resetVideoEncoder => some ({ s with videoEncodingThread := s.videoEncodingThread.stop }, [])
  | .enqueueRecovery ft =>
    some ({ s with videoEncodingThread := s.videoEncodingThread.enqueueRecovery ft }, [])
  | .image image => (s.videoEncodingThread.run image).bind fun processed =>
    match processed.2 with
    | none => some ({ s with videoEncodingThread := processed.1 }, [])
    | some frame => { s with videoEncodingThread := processed.1 }.onVideoFrameEncoded frame senderId
  | .newReceiver => some ({ s with receiver := {} }, [])

/-- The receiver hands out every key frame that is sent. -/
def KeyFramesReturned (deliveries : List Delivery) : Prop :=
  ∀ delivery ∈ deliveries, delivery.frame.type = VP8Frame.KEY → delivery.frame ∈ delivery.returned

/-- The thread makes a key frame of the image: it is asked for one, and the codec hands out one frame. -/
def SendsKeyFrame (t : VideoEncodingThread) (image : CapturedImage) : Prop :=
  t.stopFlag = false ∧ (t.create image = true → image.initialized = true) ∧
    (t.encoderFor image).requestRecoveryFlag = VP8Frame.KEY ∧
      ∃ packets, image.packets = some packets ∧ (CodecPacket.buffers packets).length = 1

/-- The receiver is ready for the frame: the next number of the encoder is not one that it takes for the
number of a completed frame, and the frame is not too long to be cut into datagrams. -/
def ReadyFor (s : VideoStream) (image : CapturedImage) : Prop :=
  s.receiver.isAlreadyCompleted
      ((s.videoEncodingThread.encoderFor image).incrementalFrameNumber + 1) = false ∧
    ∀ packets, image.packets = some packets →
      16 + CodecPacket.encodedLength packets ≤ 65535 * VideoFrameDatagram.MAXSIZE

/-- A key frame is made only when the receiver is ready for it. -/
def Timely (s : VideoStream) : Event → Prop
  | .image image => SendsKeyFrame s.videoEncodingThread image → s.ReadyFor image
  | _ => True

/-- The counters of the sender and the state of the receiver between two frames. -/
structure Counted (s : VideoStream) (remaining : ℕ) : Prop where
  positive : 0 < s.nextVideoFrameId.toNat
  bounded : s.nextVideoFrameId.toNat + remaining < 2 ^ 64
  encoder : ∀ encoder, s.videoEncodingThread.encoder = some encoder →
    encoder.incrementalFrameNumber.toNat < s.nextVideoFrameId.toNat
  fresh : VideoFrameUdpDecoder.Fresh s.nextVideoFrameId s.receiver

end VideoStream

namespace VideoFrameUdpDecoder

/-- The datagrams of a frame are numbered in order. -/
theorem numbered_split {data : List UInt8} (hdata : 0 < data.length) (frameId : UInt64)
    (senderId : Int32) {datagrams : List VideoFrameDatagram}
    (hsplit : VideoFrameDatagram.split data frameId senderId = some datagrams) :
    Numbered frameId datagrams ∧
      datagrams.length = VideoFrameDatagram.datagramsLength data % 65536 ∧
      datagrams.flatMap VideoFrameDatagram.payload =
        data.take (datagrams.length * VideoFrameDatagram.MAXSIZE) := by
  rw [VideoFrameDatagram.split_eq_parts hdata] at hsplit
  generalize hn : VideoFrameDatagram.datagramsLength data % 65536 = n at hsplit
  have hbound : n < 65536 := hn ▸ Nat.mod_lt _ (by decide)
  obtain rfl := Option.some.inj hsplit
  rw [List.length_map, List.length_range]
  refine ⟨fun i dg hget => ?_, rfl, ?_⟩
  · obtain ⟨j, hj, rfl⟩ := Option.map_eq_some_iff.mp (List.getElem?_map ▸ hget)
    obtain ⟨hlt, rfl⟩ := List.getElem?_eq_some_iff.mp hj
    rw [List.getElem_range, List.length_map, List.length_range]
    rw [List.length_range] at hlt
    refine ⟨rfl, UInt16.toNat_ofNat_of_lt' ?_, UInt16.toNat_ofNat_of_lt' hbound⟩
    exact hlt.trans hbound
  · rw [List.flatMap_map, ← Parts.flatMap_part]
    exact List.flatMap_congr fun i _ =>
      VideoFrameDatagram.payload_partOf data frameId senderId n i

/-- The number of a frame is read from its datagrams, even if some of its bytes are cut off. A frame that
fits is read as a whole, and no other one is. -/
theorem carriedFrame_split {frame : VP8Frame} {frameId : UInt64} {senderId : Int32}
    {datagrams : List VideoFrameDatagram}
    (hsplit : VideoFrameDatagram.split frame.serialize frameId senderId = some datagrams)
    (hsome : datagrams ≠ []) :
    (carriedFrame datagrams).time = frame.time ∧
      (carriedFrame datagrams = frame ↔ VideoFrameDatagram.Fits frame.serialize) := by
  have hlength := frame.serialize_length
  obtain ⟨-, hcount, hbytes⟩ := numbered_split (by omega) frameId senderId hsplit
  have hpos := List.length_pos_iff.mpr hsome
  have hlong : 16 ≤ datagrams.length * VideoFrameDatagram.MAXSIZE := by
    have := Nat.le_mul_of_pos_left VideoFrameDatagram.MAXSIZE hpos
    have : VideoFrameDatagram.MAXSIZE = 491 := rfl
    omega
  rw [carriedFrame, hbytes]
  refine ⟨frame.time_deserialize_take (by omega), ?_⟩
  constructor
  · intro hread
    by_contra hnot
    have hcut : datagrams.length * VideoFrameDatagram.MAXSIZE < frame.serialize.length := by
      have hlt := Nat.mod_lt (VideoFrameDatagram.datagramsLength frame.serialize)
        (by decide : 65536 > 0)
      have hle := Nat.mul_le_mul_right VideoFrameDatagram.MAXSIZE (by omega : datagrams.length ≤ 65535)
      have hlarge := mt (fun h => ⟨by omega, h⟩ : _ → VideoFrameDatagram.Fits frame.serialize) hnot
      omega
    cases hdata : frame.data with
    | none =>
      rw [hdata, Option.getD_none, List.length_nil] at hlength
      omega
    | some data =>
      have hthere := VP8Frame.length_of_deserialize (by rw [List.length_take]; omega)
        ((congrArg VP8Frame.data hread).trans hdata)
      rw [List.length_take] at hthere
      rw [hdata, Option.getD_some] at hlength
      omega
  · intro hfits
    have hbounds := VideoFrameDatagram.datagramsLength_bounds hfits
    have hcover : frame.serialize.length ≤
        VideoFrameDatagram.datagramsLength frame.serialize * VideoFrameDatagram.MAXSIZE :=
      Parts.length_le_count_mul (by decide)
    rw [hcount, Nat.mod_eq_of_lt (by omega), List.take_of_length_le hcover]
    exact VP8Frame.deserialize_serialize (hfits.2.trans_lt (by decide))

/-- A newer frame id is fresh as well. -/
theorem Fresh.mono {s : VideoFrameUdpDecoder} {frameId frameId' : UInt64} (h : Fresh frameId s)
    (hlt : frameId < frameId') : Fresh frameId' s :=
  ⟨h.queue, UInt64.lt_trans h.last hlt, fun id hmem => UInt64.lt_trans (h.older id hmem) hlt⟩

/-- The datagrams of a frame with a new id arrive. A key frame is handed out exactly if its number is not
taken for that of a completed frame and none of its bytes are cut off. -/
theorem Fresh.run_split {s : VideoFrameUdpDecoder} {frameId frameId' : UInt64} (h : Fresh frameId s)
    {frame : VP8Frame} (hid : frameId < frameId') (htime : frame.time < frameId') {senderId : Int32}
    {datagrams : List VideoFrameDatagram}
    (hsplit : VideoFrameDatagram.split frame.serialize frameId senderId = some datagrams) :
    ∃ s' returned, Runs.run step s (arrivals datagrams) = some (s', returned) ∧ Fresh frameId' s' ∧
      (frame.type = VP8Frame.KEY → (frame ∈ returned ↔
        s.isAlreadyCompleted frame.time = false ∧ VideoFrameDatagram.Fits frame.serialize)) := by
  have hpos : 0 < frame.serialize.length := by
    rw [frame.serialize_length]
    omega
  obtain ⟨hnumbered, hcount, -⟩ := numbered_split hpos frameId senderId hsplit
  rcases datagrams.eq_nil_or_concat with rfl | hconcat
  · refine ⟨s, [], rfl, h.mono hid, fun _ => ⟨fun hmem => by contradiction, ?_⟩⟩
    rintro ⟨-, hfits⟩
    have hbounds := VideoFrameDatagram.datagramsLength_bounds hfits
    rw [List.length_nil, Nat.mod_eq_of_lt (by omega)] at hcount
    omega
  · have hsome : datagrams ≠ [] := by
      obtain ⟨init, last, rfl⟩ := hconcat
      rw [List.concat_eq_append]
      exact List.concat_ne_nil last init
    obtain ⟨hcarried, hwhole⟩ := carriedFrame_split hsplit hsome
    obtain ⟨added, hrun, harrived⟩ := h.run_arrivals hsome hnumbered
    refine ⟨_, _, hrun, harrived.fresh (UInt64.lt_trans h.last hid) (hcarried ▸ htime) hid,
      fun hkey => ?_⟩
    by_cases hfits : VideoFrameDatagram.Fits frame.serialize
    · rw [hwhole.mpr hfits] at harrived
      have hsame : added.isAlreadyCompleted frame.time = s.isAlreadyCompleted frame.time := by
        rw [isAlreadyCompleted, isAlreadyCompleted, harrived.last_eq]
      rw [harrived.next_key hkey, hsame, and_iff_left hfits]
      split
      next hlate => simp [hlate]
      next hrecent => simpa using hrecent
    · have hother : carriedFrame datagrams ≠ frame := mt hwhole.mp hfits
      refine ⟨fun hmem => ?_, fun h => absurd h.2 hfits⟩
      rcases harrived.next_or with hnone | hreturned
      · rw [hnone] at hmem
        contradiction
      · rw [hreturned, Option.toList_some, List.mem_singleton] at hmem
        exact absurd hmem.symm hother

end VideoFrameUdpDecoder

namespace VideoStream

variable {s s' : VideoStream} {senderId : Int32} {frame : VP8Frame} {image : CapturedImage}
  {remaining : ℕ}

/-- A frame is sent with a number that is not used up. -/
theorem onVideoFrameEncoded_spec (hpositive : 0 < s.nextVideoFrameId.toNat)
    (hnext : (s.nextVideoFrameId + 1).toNat = s.nextVideoFrameId.toNat + 1)
    (hfresh : VideoFrameUdpDecoder.Fresh s.nextVideoFrameId s.receiver)
    (htime : frame.time.toNat ≤ s.nextVideoFrameId.toNat) (senderId : Int32) :
    ∃ receiver returned, s.onVideoFrameEncoded frame senderId = some
        ({ s with nextVideoFrameId := s.nextVideoFrameId + 1, receiver }, [⟨frame, returned⟩]) ∧
      VideoFrameUdpDecoder.Fresh (s.nextVideoFrameId + 1) receiver ∧
      (frame.type = VP8Frame.KEY → (frame ∈ returned ↔
        s.receiver.isAlreadyCompleted frame.time = false ∧
          VideoFrameDatagram.Fits frame.serialize)) := by
  have hpos : 0 < frame.serialize.length := by
    rw [frame.serialize_length]
    omega
  have hid : s.nextVideoFrameId ≠ 0 := fun hzero => by
    rw [hzero] at hpositive
    exact Nat.lt_irrefl 0 hpositive
  have hsplit := MediaSocket.split_eq_writtenDatagrams hpos hid senderId
  obtain ⟨receiver, returned, hrun, hnewer, hreturned⟩ := hfresh.run_split
    (UInt64.lt_iff_toNat_lt.mpr (by omega) : s.nextVideoFrameId < s.nextVideoFrameId + 1)
    (UInt64.lt_iff_toNat_lt.mpr (by omega)) hsplit
  exact ⟨receiver, returned, by rw [onVideoFrameEncoded, hrun]; rfl, hnewer, hreturned⟩

/-- The next number of the encoder is at most that of the socket. -/
theorem Counted.encoderFor (h : s.Counted (remaining + 1)) (image : CapturedImage) :
    ((s.videoEncodingThread.encoderFor image).incrementalFrameNumber + 1).toNat ≤
      s.nextVideoFrameId.toNat := by
  have hpositive := h.positive
  have hlt : (s.videoEncodingThread.encoderFor image).incrementalFrameNumber.toNat <
      s.nextVideoFrameId.toNat := by
    rcases s.videoEncodingThread.encoderFor_cases image with hzero | ⟨encoder, hencoder, heq⟩
    · rw [hzero]
      exact hpositive
    · rw [heq]
      exact h.encoder encoder hencoder
  rw [UInt64.toNat_add]
  exact (Nat.mod_le _ _).trans hlt

/-- An image is processed. If a frame is sent, the receiver hands it out exactly if it is ready for it. -/
theorem Counted.process (h : s.Counted (remaining + 1)) {more : List Delivery}
    (hstep : step senderId s (.image image) = some (s', more)) :
    s'.Counted remaining ∧ (KeyFramesReturned more ↔ s.Timely (.image image)) := by
  have hbounded := h.bounded
  obtain ⟨⟨t, encoded⟩, hrun, hsent⟩ := Option.bind_eq_some_iff.mp hstep
  rcases VideoEncodingThread.run_cases hrun with ⟨hskipped, rfl, hencoder⟩ |
    ⟨packets, encoder, frame, hstop, hready, hpackets, hencode, rfl, hencoder⟩
  · obtain ⟨rfl, rfl⟩ := Prod.mk.inj (Option.some.inj hsent)
    refine ⟨⟨h.positive, by change s.nextVideoFrameId.toNat + _ < _; omega, fun encoder hsome => ?_,
      h.fresh⟩, fun _ hsends => ?_, fun _ delivery hmem => by contradiction⟩
    · rcases hencoder with heq | hnone
      · exact h.encoder encoder (heq.symm.trans hsome)
      · rw [hnone] at hsome
        contradiction
    · rcases hskipped with hstopped | ⟨hcreate, hfailed⟩
      · rw [hsends.1] at hstopped
        contradiction
      · rw [hsends.2.1 hcreate] at hfailed
        contradiction
  · obtain ⟨hnumber, htime, hkey, hlength⟩ :=
      (s.videoEncodingThread.encoderFor image).encode_spec packets hencode
    have hnext : (s.nextVideoFrameId + 1).toNat = s.nextVideoFrameId.toNat + 1 := by
      rw [UInt64.toNat_add]
      change (_ + 1) % 2 ^ 64 = _
      omega
    have hle : frame.time.toNat ≤ s.nextVideoFrameId.toNat := htime ▸ h.encoderFor image
    obtain ⟨receiver, returned, hdelivered, hnewer, hreturned⟩ :=
      onVideoFrameEncoded_spec (s := { s with videoEncodingThread := t }) h.positive hnext h.fresh hle
        senderId
    obtain ⟨rfl, rfl⟩ := Prod.mk.inj (Option.some.inj (hdelivered.symm.trans hsent))
    refine ⟨⟨?_, ?_, fun other hsome => ?_, hnewer⟩, ?_⟩
    · change 0 < (s.nextVideoFrameId + 1).toNat
      omega
    · change (s.nextVideoFrameId + 1).toNat + _ < _
      omega
    · obtain rfl := Option.some.inj (hencoder.symm.trans hsome)
      change _ < (s.nextVideoFrameId + 1).toNat
      rw [hnumber]
      omega
    · have hsends : SendsKeyFrame s.videoEncodingThread image ↔ frame.type = VP8Frame.KEY := by
        rw [hkey]
        constructor
        · rintro ⟨-, -, hasked, found, hfound, hone⟩
          obtain rfl := Option.some.inj (hpackets.symm.trans hfound)
          exact ⟨hasked, hone⟩
        · rintro ⟨hasked, hone⟩
          exact ⟨hstop, hready, hasked, packets, hpackets, hone⟩
      have hfits : VideoFrameDatagram.Fits frame.serialize ↔
          16 + CodecPacket.encodedLength packets ≤ 65535 * VideoFrameDatagram.MAXSIZE := by
        rw [VideoFrameDatagram.Fits, hlength]
        exact and_iff_right (by omega)
      have hready : s.ReadyFor image ↔ s.receiver.isAlreadyCompleted frame.time = false ∧
          VideoFrameDatagram.Fits frame.serialize := by
        rw [ReadyFor, hfits, htime, hpackets]
        simp
      rw [Timely, hsends, hready]
      simp only [KeyFramesReturned, List.mem_singleton, forall_eq]
      exact forall_congr' hreturned

/-- A step keeps the counters, and a key frame is handed out exactly if it is timely. -/
theorem Counted.step (h : s.Counted (remaining + 1)) {e : Event} {more : List Delivery}
    (hstep : VideoStream.step senderId s e = some (s', more)) :
    s'.Counted remaining ∧ (KeyFramesReturned more ↔ s.Timely e) := by
  have hbounded := h.bounded
  have hnothing : KeyFramesReturned [] ↔ True :=
    iff_true_intro fun delivery hmem => by contradiction
  cases e with
  | initVideoEncoder width height =>
    obtain ⟨rfl, rfl⟩ := Prod.mk.inj (Option.some.inj hstep)
    exact ⟨⟨h.positive, by change s.nextVideoFrameId.toNat + _ < _; omega,
      fun encoder hsome => by contradiction, h.fresh⟩, hnothing⟩
  | resetVideoEncoder =>
    obtain ⟨rfl, rfl⟩ := Prod.mk.inj (Option.some.inj hstep)
    exact ⟨⟨h.positive, by change s.nextVideoFrameId.toNat + _ < _; omega,
      fun encoder hsome => by contradiction, h.fresh⟩, hnothing⟩
  | enqueueRecovery ft =>
    obtain ⟨rfl, rfl⟩ := Prod.mk.inj (Option.some.inj hstep)
    exact ⟨⟨h.positive, by change s.nextVideoFrameId.toNat + _ < _; omega, h.encoder, h.fresh⟩,
      hnothing⟩
  | image image => exact h.process hstep
  | newReceiver =>
    obtain ⟨rfl, rfl⟩ := Prod.mk.inj (Option.some.inj hstep)
    refine ⟨⟨h.positive, by change s.nextVideoFrameId.toNat + _ < _; omega, h.encoder, rfl, ?_, ?_⟩,
      hnothing⟩
    · exact UInt64.lt_iff_toNat_lt.mpr h.positive
    · exact fun id hmem => by simp at hmem

/-- More key frames are handed out only if the ones before them were. -/
theorem keyFramesReturned_append {deliveries more : List Delivery} :
    KeyFramesReturned (deliveries ++ more) ↔
      KeyFramesReturned deliveries ∧ KeyFramesReturned more := List.forall_mem_append

/-- Every key frame that is sent over a lossless network is handed out exactly if key frames are sent
only when the receiver is ready for them. -/
theorem keyFramesReturned_iff (senderId : Int32) {events : List Event} {out : List Delivery}
    (hlength : events.length < 2 ^ 64 - 1)
    (hrun : Runs.run (step senderId) {} events = some (s, out)) :
    KeyFramesReturned out ↔ Runs.EachStep (step senderId) Timely {} events := by
  have hinit : Counted {} events.length := by
    refine ⟨by decide, ?_, fun encoder hsome => by contradiction, rfl, by decide, ?_⟩
    · change 1 + _ < 2 ^ 64
      omega
    · exact fun id hmem => by simp at hmem
  have hnothing : KeyFramesReturned [] := fun delivery hmem => by contradiction
  exact Runs.outputs_iff_eachStep (P := fun later s _ => s.Counted later.length)
    (fun _ _ _ _ _ _ h hstep => (h.step hstep).1)
    (fun _ _ _ _ _ _ h hreturned hstep => keyFramesReturned_append.trans
      ((and_iff_right hreturned).trans (h.step hstep).2))
    (fun _ _ h => (keyFramesReturned_append.mp h).1) hinit hnothing hrun

/-- Two images in the configured size, the first one as a key frame. -/
def firstImages : List Event :=
  [.initVideoEncoder 320 240, .enqueueRecovery VP8Frame.KEY,
    .image { width := 320, height := 240, packets := some [.frame [7] 1] },
    .image { width := 320, height := 240, packets := some [.frame [8] 2] }]

/-- A key frame is asked for, and the next image is given to a new encoder. -/
def restartedEncoder : List Event :=
  firstImages ++ [.enqueueRecovery VP8Frame.KEY,
    .image { width := 640, height := 480, packets := some [.frame [9] 1] }]

/-- A key frame is asked for, and the encoder goes on with it. -/
def continuedEncoder : List Event :=
  firstImages ++ [.enqueueRecovery VP8Frame.KEY,
    .image { width := 320, height := 240, packets := some [.frame [9] 3] }]

instance (deliveries : List Delivery) : Decidable (KeyFramesReturned deliveries) :=
  inferInstanceAs (Decidable (∀ delivery ∈ deliveries, _ → _))

/-- The key frame of the new encoder is taken for a frame that has been completed already. -/
theorem keyFramesReturned_restartedEncoder : ∃ s out,
    Runs.run (step 5) {} restartedEncoder = some (s, out) ∧ ¬ KeyFramesReturned out := by
  have hfacts : (Runs.run (step 5) {} restartedEncoder).map
      (fun done => decide (KeyFramesReturned done.2)) = some false := by decide +kernel
  obtain ⟨⟨s, out⟩, hrun, hout⟩ := Option.map_eq_some_iff.mp hfacts
  exact ⟨s, out, hrun, of_decide_eq_false hout⟩

/-- The receiver is ready for the key frames of an encoder that goes on. -/
theorem keyFramesReturned_iff_continuedEncoder :
    Runs.EachStep (step 5) Timely {} continuedEncoder := by
  have hfacts : (Runs.run (step 5) {} continuedEncoder).map
      (fun done => decide (KeyFramesReturned done.2)) = some true := by decide +kernel
  obtain ⟨⟨s, out⟩, hrun, hout⟩ := Option.map_eq_some_iff.mp hfacts
  exact (keyFramesReturned_iff 5 (by decide) hrun).mp (of_decide_eq_true hout)

end VideoStream

end Ts3Video
