import Ts3Video.Media.EncoderRestart
import Ts3Video.Media.LossyDelivery
import Ts3Video.Media.MediaPipeline
import Ts3Video.Media.RecoveryRequests

/-!
# A receiver that gets back into step

A sender encodes images in the size that it is configured for. The network loses, repeats and reorders the
datagrams of a frame, and it loses and delays the requests of the receiver. A request that reaches the sender
makes its next frame a key frame.
-/

namespace Ts3Video

open Std

/-- A sender, a receiver, and the requests that the receiver has written so far. -/
structure VideoCall where
  videoEncodingThread : VideoEncodingThread
  nextVideoFrameId : UInt64 := 1
  sender : MediaSocket := {}
  receiver : MediaSocket := {}
  requests : List (List UInt8) := []

namespace VideoCall

/-- An image is captured. The network delivers some datagrams of its frame to the receiver, and after that some
requests to the sender, each by its position and at a time. -/
structure Event where
  image : CapturedImage
  received : List (ℕ × UInt64)
  forwarded : List (ℕ × UInt64)

/-- The sender has been configured and started. -/
def start (width height : Int32) : VideoCall where
  videoEncodingThread := ({} : VideoEncodingThread).init width height

/-- The datagrams that the network delivers. -/
def delivered (datagrams : List (List UInt8)) (network : List (ℕ × UInt64)) :
    List MediaSocket.PendingDatagram :=
  network.filterMap fun delivery =>
    (datagrams[delivery.1]?).map fun data => { data, now := delivery.2, heap := fun _ => 0 }

/-- The datagrams among the effects of a socket. -/
def writtenBy (effects : List MediaSocket.Effect) : List (List UInt8) :=
  effects.filterMap fun
    | .writeDatagram datagram => some datagram
    | _ => none

/-- What a socket has the encoding thread do. -/
def handle (t : VideoEncodingThread) : MediaSocket.Effect → VideoEncodingThread
  | .enqueueRecovery => t.enqueueRecovery VP8Frame.KEY
  | _ => t

/-- A call as a machine whose outputs are the frames that are sent. -/
def step (senderId : Int32) (s : VideoCall) (e : Event) :
    Option (VideoCall × List VideoStream.Delivery) :=
  (s.videoEncodingThread.run e.image).bind fun processed =>
    match processed.2 with
    | none => some ({ s with videoEncodingThread := processed.1 }, [])
    | some frame =>
      let datagrams := MediaSocket.sendVideoFrame frame.serialize s.nextVideoFrameId senderId
      (Runs.run MediaSocket.onReadyRead s.receiver (delivered datagrams e.received)).bind fun received =>
        let requests := s.requests ++ writtenBy received.2
        (Runs.run MediaSocket.onReadyRead s.sender (delivered requests e.forwarded)).map fun answered =>
          ({ videoEncodingThread := answered.2.foldl handle processed.1
             nextVideoFrameId := s.nextVideoFrameId + 1
             sender := answered.1
             receiver := received.1
             requests }, [⟨frame, MediaSocket.enqueued senderId received.2⟩])

/-- The image has the configured size, its frame is not too long to be cut into datagrams, and the clock of the
receiver does not go back. -/
structure Steady (width height : Int32) (s : VideoCall) (e : Event) : Prop where
  width_eq : e.image.width = width
  height_eq : e.image.height = height
  fits : ∀ packets, e.image.packets = some packets →
    16 + CodecPacket.encodedLength packets ≤ 65535 * VideoFrameDatagram.MAXSIZE
  sorted : e.received.Pairwise fun a b => a.2.toNat ≤ b.2.toNat
  later : ∀ delivery ∈ e.received, s.receiver.lastFrameRequestTimestamp.toNat ≤ delivery.2.toNat

/-- The datagram is a request for a key frame. -/
def IsRequest (datagram : List UInt8) : Prop :=
  ∃ frameId senderId, MediaSocket.Effect.writeDatagram datagram ∈
    MediaSocket.sendVideoFrameRecoveryDatagram frameId senderId

/-- The sender and the receiver agree on what has been sent. -/
structure InStep (senderId width height : Int32) (s : VideoCall) (remaining : ℕ) : Prop where
  width_eq : s.videoEncodingThread.width = width
  height_eq : s.videoEncodingThread.height = height
  positive : 0 < s.nextVideoFrameId.toNat
  bounded : s.nextVideoFrameId.toNat + remaining < 2 ^ 64
  encoder : ∀ encoder, s.videoEncodingThread.encoder = some encoder →
    encoder.width = width ∧ encoder.height = height ∧
      encoder.incrementalFrameNumber + 1 = s.nextVideoFrameId
  unstarted : s.videoEncodingThread.encoder = none → s.nextVideoFrameId = 1
  fresh : VideoFrameUdpDecoder.Fresh s.nextVideoFrameId (s.receiver.decoderOf senderId)
  requests : ∀ datagram ∈ s.requests, IsRequest datagram

/-- The sender sends one frame only. -/
def single (senderId : Int32) (frame : VP8Frame) (hpositive : 1 ≤ frame.time)
    (hfits : VideoFrameDatagram.Fits frame.serialize) : SentFrames where
  frames := [frame]
  senderId
  ids_injective _ hf _ hg _ := (List.mem_singleton.mp hf).trans (List.mem_singleton.mp hg).symm
  ids_positive _ hf := List.mem_singleton.mp hf ▸ hpositive
  fits _ hf := List.mem_singleton.mp hf ▸ hfits

variable {senderId width height : Int32} {s t : VideoCall} {e : Event} {frame : VP8Frame} {remaining : ℕ}
  {sent : SentFrames}

/-- What the network delivers of a frame are parts of it, each as often as the network does. -/
theorem exists_delivered (sent : SentFrames) (frame : VP8Frame) (network : List (ℕ × UInt64)) :
    ∃ order : List ℕ,
      List.Forall₂ (MediaSocket.Carries sent.senderId)
        (delivered ((sent.emitted frame).map VideoFrameDatagram.toBytes) network)
        (order.map (sent.part frame)) ∧
      (∀ i ∈ order, i < SentFrames.parts frame) ∧
      ∀ i < SentFrames.parts frame, i ∈ network.map Prod.fst → i ∈ order := by
  induction network with
  | nil => exact ⟨[], .nil, by simp, by simp⟩
  | cons delivery network ih =>
    obtain ⟨order, hcarries, hbound, hall⟩ := ih
    by_cases hi : delivery.1 < SentFrames.parts frame
    · have hget : ((sent.emitted frame).map VideoFrameDatagram.toBytes)[delivery.1]? =
          some (sent.part frame delivery.1).toBytes := by
        rw [List.getElem?_map, SentFrames.emitted, List.getElem?_map, List.getElem?_range hi]
        rfl
      have hmem : sent.part frame delivery.1 ∈ sent.emitted frame :=
        List.mem_map_of_mem (List.mem_range.mpr hi)
      refine ⟨delivery.1 :: order, ?_, ?_, fun i hi hmem => ?_⟩
      · unfold delivered at hcarries ⊢
        rw [List.filterMap_cons, hget]
        exact .cons (MediaSocket.carries_part hmem rfl) hcarries
      · intro i hmem
        rcases List.mem_cons.mp hmem with rfl | hmem
        · exact hi
        · exact hbound i hmem
      · rw [List.map_cons] at hmem
        exact List.mem_cons.mpr ((List.mem_cons.mp hmem).imp_right (hall i hi))
    · have hget : ((sent.emitted frame).map VideoFrameDatagram.toBytes)[delivery.1]? = none := by
        rw [List.getElem?_eq_none]
        simpa [SentFrames.emitted] using Nat.not_lt.mp hi
      refine ⟨order, ?_, hbound, fun i hi' hmem => ?_⟩
      · unfold delivered at hcarries ⊢
        rw [List.filterMap_cons, hget]
        exact hcarries
      · rw [List.map_cons] at hmem
        rcases List.mem_cons.mp hmem with rfl | hmem
        · exact absurd hi' hi
        · exact hall i hi' hmem

/-- What a socket requests are the datagrams that it writes. -/
theorem requested_eq_map (effects : List MediaSocket.Effect) :
    MediaSocket.requested effects = (writtenBy effects).map MediaSocket.Effect.writeDatagram := by
  induction effects with
  | nil => rfl
  | cons effect effects ih =>
    cases effect with
    | writeDatagram datagram => exact congrArg (List.cons _) ih
    | enqueue frame senderId => exact ih
    | enqueueRecovery => exact ih

/-- A request has the sender's thread asked for a key frame. -/
theorem IsRequest.onReadyRead {pending : MediaSocket.PendingDatagram} (h : IsRequest pending.data)
    (socket : MediaSocket) : socket.onReadyRead pending = some (socket, [.enqueueRecovery]) := by
  obtain ⟨frameId, senderId, hmem⟩ := h
  unfold MediaSocket.sendVideoFrameRecoveryDatagram at hmem
  split at hmem
  · contradiction
  · obtain ⟨data, now, heap⟩ := pending
    obtain rfl := MediaSocket.Effect.writeDatagram.inj (List.mem_singleton.mp hmem)
    rfl

/-- Requests leave the socket of the sender alone. -/
theorem run_requests {pendings : List MediaSocket.PendingDatagram}
    (h : ∀ pending ∈ pendings, IsRequest pending.data) (socket : MediaSocket) :
    Runs.run MediaSocket.onReadyRead socket pendings =
      some (socket, List.replicate pendings.length .enqueueRecovery) := by
  induction pendings with
  | nil => rfl
  | cons pending pendings ih =>
    have hrest := ih fun later hmem => h later (List.mem_cons_of_mem _ hmem)
    exact (Runs.run_cons_eq_some _).mpr ⟨socket, _, _, (h pending List.mem_cons_self).onReadyRead socket,
      hrest, rfl⟩

/-- However often the thread is asked for a key frame, it is asked for one. -/
theorem foldl_handle_replicate (t : VideoEncodingThread) (n : ℕ) :
    (List.replicate n MediaSocket.Effect.enqueueRecovery).foldl handle t =
      if n = 0 then t else t.enqueueRecovery VP8Frame.KEY := by
  induction n generalizing t with
  | zero => rfl
  | succ n ih =>
    rw [List.replicate_succ, List.foldl_cons, ih, if_neg (Nat.succ_ne_zero n)]
    split
    · rfl
    · rfl

/-- Only datagrams that were written are delivered. -/
theorem mem_of_mem_delivered {datagrams : List (List UInt8)} {network : List (ℕ × UInt64)}
    {pending : MediaSocket.PendingDatagram} (h : pending ∈ delivered datagrams network) :
    pending.data ∈ datagrams ∧ ∃ delivery ∈ network, pending.now = delivery.2 := by
  obtain ⟨delivery, hmem, hsome⟩ := List.mem_filterMap.mp h
  obtain ⟨data, hget, rfl⟩ := Option.map_eq_some_iff.mp hsome
  exact ⟨List.mem_of_getElem? hget, delivery, hmem, rfl⟩

/-- The times of deliveries stay in order. -/
theorem pairwise_delivered (datagrams : List (List UInt8)) {network : List (ℕ × UInt64)}
    (h : network.Pairwise fun a b => a.2.toNat ≤ b.2.toNat) :
    (delivered datagrams network).Pairwise fun p q => p.time ≤ q.time := by
  refine List.Pairwise.filterMap _ (fun a b hle p hp q hq => ?_) h
  obtain ⟨data, -, rfl⟩ := Option.map_eq_some_iff.mp hp
  obtain ⟨data', -, rfl⟩ := Option.map_eq_some_iff.mp hq
  exact hle

/-- A datagram that was written is delivered if the network delivers it. -/
theorem delivered_ne_nil {datagrams : List (List UInt8)} {network : List (ℕ × UInt64)}
    (h : ∃ delivery ∈ network, delivery.1 < datagrams.length) : delivered datagrams network ≠ [] := by
  obtain ⟨delivery, hmem, hlt⟩ := h
  have hdelivered : { data := datagrams[delivery.1], now := delivery.2, heap := fun _ => 0 } ∈
      delivered datagrams network := by
    refine List.mem_filterMap.mpr ⟨delivery, hmem, ?_⟩
    rw [List.getElem?_eq_getElem hlt]
    rfl
  exact List.ne_nil_of_mem hdelivered

/-- In step, an image needs a new encoder only if there is none. -/
theorem InStep.create (h : InStep senderId width height s remaining) (hsteady : Steady width height s e)
    (hcreate : s.videoEncodingThread.create e.image = true) : s.videoEncodingThread.encoder = none := by
  cases hencoder : s.videoEncodingThread.encoder with
  | none => rfl
  | some encoder =>
    obtain ⟨hwidth, hheight, -⟩ := h.encoder encoder hencoder
    simp [VideoEncodingThread.create, hencoder, VP8Encoder.isValidFrame, hwidth, hheight,
      hsteady.width_eq, hsteady.height_eq] at hcreate

/-- In step, the encoder for an image has the configured size, and it numbers its next frame as the socket of
the sender does. -/
theorem InStep.encoderFor (h : InStep senderId width height s remaining)
    (hsteady : Steady width height s e) :
    (s.videoEncodingThread.encoderFor e.image).width = width ∧
      (s.videoEncodingThread.encoderFor e.image).height = height ∧
      (s.videoEncodingThread.encoderFor e.image).incrementalFrameNumber + 1 = s.nextVideoFrameId := by
  cases hencoder : s.videoEncodingThread.encoder with
  | none =>
    obtain ⟨hwidth, hheight, hnumber⟩ := s.videoEncodingThread.encoderFor_config e.image
      (by rw [hencoder, Option.getD_none, ite_self])
    rw [hwidth, hheight, hnumber, h.unstarted hencoder]
    exact ⟨h.width_eq, h.height_eq, rfl⟩
  | some encoder =>
    have hkept : ¬ s.videoEncodingThread.create e.image = true := fun hcreate => by
      rw [h.create hsteady hcreate] at hencoder
      contradiction
    obtain ⟨hwidth, hheight, hnumber⟩ := s.videoEncodingThread.encoderFor_config e.image
      (by rw [if_neg hkept, hencoder, Option.getD_some])
    rw [hwidth, hheight, hnumber]
    exact h.encoder encoder hencoder

/-- What a frame that is sent does to the call. -/
structure Sent (senderId : Int32) (s : VideoCall) (e : Event) (t : VideoCall)
    (delivery : VideoStream.Delivery) : Prop where
  key : (s.videoEncodingThread.encoderFor e.image).requestRecoveryFlag = VP8Frame.KEY →
    (∀ packets, e.image.packets = some packets → (CodecPacket.buffers packets).length = 1) →
      delivery.frame.type = VP8Frame.KEY
  taken : VideoFrameUdpDecoder.AllArrived delivery.frame (e.received.map Prod.fst) →
    VideoFrameUdpDecoder.Taken delivery.frame (s.receiver.decoderOf senderId).lastCompletedFrameId
      delivery.returned (t.receiver.decoderOf senderId)
  asks : (t.receiver.decoderOf senderId).getWaitsForType ≠ VP8Frame.NORMAL →
    VideoFrameUdpDecoder.AllArrived delivery.frame (e.received.map Prod.fst) →
    (∀ received ∈ e.received, s.receiver.lastFrameRequestTimestamp.toNat + 1000 < received.2.toNat) →
      t.requests ≠ []
  forwards : (∃ forwarded ∈ e.forwarded, forwarded.1 < t.requests.length) →
    t.videoEncodingThread.recoveryFlag ≠ VP8Frame.NORMAL

/-- In step, the next number is not the last one. -/
theorem InStep.next_toNat (h : InStep senderId width height s (remaining + 1)) :
    (s.nextVideoFrameId + 1).toNat = s.nextVideoFrameId.toNat + 1 := by
  have hbounded := h.bounded
  rw [UInt64.toNat_add]
  change (_ + 1) % 2 ^ 64 = _
  omega

/-- In step, the decoder knows of nothing as new as the next frame. -/
theorem InStep.receiving (h : InStep sent.senderId width height s remaining)
    (htime : frame.time = s.nextVideoFrameId) :
    VideoFrameUdpDecoder.Receiving sent frame [] (s.receiver.decoderOf sent.senderId) := by
  have hunknown : frame.time ∉ (s.receiver.decoderOf sent.senderId).frameBuffers := fun hmem =>
    UInt64.lt_irrefl _ (htime ▸ h.fresh.older _ hmem)
  refine ⟨h.fresh.queue, fun id hmem => .inr (htime ▸ h.fresh.older id hmem), ?_⟩
  rw [ExtTreeMap.getElem?_eq_none hunknown, SentFrames.filled_nil]
  rfl

/-- What the receiver does with the datagrams of a frame that the network delivers. -/
structure Receives (sent : SentFrames) (frame : VP8Frame) (s : VideoCall) (e : Event) (receiver : MediaSocket)
    (effects : List MediaSocket.Effect) : Prop where
  run : Runs.run MediaSocket.onReadyRead s.receiver
    (delivered ((sent.emitted frame).map VideoFrameDatagram.toBytes) e.received) = some (receiver, effects)
  fresh : VideoFrameUdpDecoder.Fresh (frame.time + 1) (receiver.decoderOf sent.senderId)
  taken : VideoFrameUdpDecoder.AllArrived frame (e.received.map Prod.fst) →
    VideoFrameUdpDecoder.Taken frame (s.receiver.decoderOf sent.senderId).lastCompletedFrameId
      (MediaSocket.enqueued sent.senderId effects) (receiver.decoderOf sent.senderId)
  asks : (receiver.decoderOf sent.senderId).getWaitsForType ≠ VP8Frame.NORMAL →
    VideoFrameUdpDecoder.AllArrived frame (e.received.map Prod.fst) →
    (∀ received ∈ e.received, s.receiver.lastFrameRequestTimestamp.toNat + 1000 < received.2.toNat) →
      writtenBy effects ≠ []
  requests : ∀ datagram ∈ writtenBy effects, IsRequest datagram

/-- In step, the receiver takes a frame whose datagrams all arrive, and it can ask for a key frame. -/
theorem InStep.receive (h : InStep sent.senderId width height s (remaining + 1))
    (hsender : sent.senderId ≠ 0) (hsteady : Steady width height s e) (hframe : frame ∈ sent.frames)
    (htime : frame.time = s.nextVideoFrameId) :
    ∃ receiver effects, Receives sent frame s e receiver effects := by
  obtain ⟨order, hcarries, hbound, hall⟩ := exists_delivered sent frame e.received
  have hlast : (s.receiver.decoderOf sent.senderId).lastCompletedFrameId < frame.time :=
    htime ▸ h.fresh.last
  have hpositive : 0 < SentFrames.parts frame :=
    (VideoFrameDatagram.datagramsLength_bounds (sent.fits frame hframe)).1
  have hmissing : ¬ VideoFrameUdpDecoder.AllArrived frame [] := fun hall =>
    List.not_mem_nil (hall 0 hpositive)
  obtain ⟨decoder, out, hdecoder, hreceiving, htaken, hsame⟩ :=
    (h.receiving htime).run_parts hframe hlast hmissing hbound
  rw [List.nil_append] at hreceiving htaken hsame
  obtain ⟨receiver, effects, hrun, rfl, rfl⟩ := MediaSocket.run_onReadyRead hcarries hdecoder
  have hsorted := pairwise_delivered ((sent.emitted frame).map VideoFrameDatagram.toBytes)
    hsteady.sorted
  have hstart : ∀ pending ∈ delivered ((sent.emitted frame).map VideoFrameDatagram.toBytes) e.received,
      s.receiver.lastFrameRequestTimestamp.toNat ≤ pending.time := by
    intro pending hmem
    obtain ⟨-, delivery, hdelivery, hnow⟩ := mem_of_mem_delivered hmem
    rw [MediaSocket.PendingDatagram.time, hnow]
    exact hsteady.later delivery hdelivery
  refine ⟨receiver, effects, hrun, ?_, fun hcomplete => htaken fun i hi => hall i hi (hcomplete i hi),
    fun hwaits hcomplete hdue => ?_, fun datagram hmem => ?_⟩
  · have hnext : frame.time < frame.time + 1 := by
      rw [UInt64.lt_iff_toNat_lt, htime, h.next_toNat]
      exact Nat.lt_succ_self _
    refine ⟨hreceiving.queue, ?_, fun id hmem => ?_⟩
    · by_cases hcomplete : VideoFrameUdpDecoder.AllArrived frame order
      · rcases (htaken hcomplete).last with hkept | hmoved
        · rw [hkept]
          exact UInt64.lt_trans hlast hnext
        · rwa [hmoved]
      · rw [(hsame hcomplete).2.last_eq]
        exact UInt64.lt_trans hlast hnext
    · rcases hreceiving.newest id hmem with rfl | hlt
      · exact hnext
      · exact UInt64.lt_trans hlt hnext
  · have hparts : ∀ pending ∈ delivered ((sent.emitted frame).map VideoFrameDatagram.toBytes) e.received,
        ∃ dg, MediaSocket.receivedVideoFrame pending = some dg ∧ dg.sender = sent.senderId ∧
          dg.frameId ≠ 0 := by
      intro pending hmem
      obtain ⟨dg, hdg, hcarry⟩ := PairedLists.exists_partner hcarries hmem
      obtain ⟨i, hi, rfl⟩ := List.mem_map.mp hdg
      refine ⟨_, hcarry.received, hcarry.sender_eq, fun hzero => ?_⟩
      rw [(SentFrames.part_fields hframe (hbound i hi)).1] at hzero
      have hpositive := UInt64.le_iff_toNat_le.mp (sent.ids_positive frame hframe)
      rw [hzero] at hpositive
      exact absurd hpositive (by decide)
    have hlength : ((sent.emitted frame).map VideoFrameDatagram.toBytes).length =
        SentFrames.parts frame := by
      rw [List.length_map, SentFrames.emitted, List.length_map, List.length_range]
    obtain ⟨first, hfirst, hzero⟩ := List.mem_map.mp (hcomplete 0 hpositive)
    have hsome := delivered_ne_nil ⟨first, hfirst, hlength.symm ▸ hzero.symm ▸ hpositive⟩
    have hdue' : ∀ pending ∈ delivered ((sent.emitted frame).map VideoFrameDatagram.toBytes) e.received,
        s.receiver.lastFrameRequestTimestamp.toNat + MediaSocket.requestGap ≤ pending.time := by
      intro pending hmem
      obtain ⟨-, delivery, hdelivery, hnow⟩ := mem_of_mem_delivered hmem
      rw [MediaSocket.PendingDatagram.time, hnow]
      exact hdue delivery hdelivery
    have hrequested := MediaSocket.requested_ne_nil hsome hparts hsender hsorted hdue' hrun hwaits
    rw [requested_eq_map] at hrequested
    exact fun hnone => hrequested (by rw [hnone]; rfl)
  · exact MediaSocket.of_mem_requested hsorted hstart hrun
      (by rw [requested_eq_map]; exact List.mem_map_of_mem hmem)

/-- In step, an image is skipped, or its frame is sent under its own number. -/
theorem InStep.image (h : InStep senderId width height s (remaining + 1)) (hsender : senderId ≠ 0)
    (hsteady : Steady width height s e) {thread : VideoEncodingThread}
    (hrun : s.videoEncodingThread.run e.image = some (thread, some frame)) :
    ∃ t delivery, step senderId s e = some (t, [delivery]) ∧ InStep senderId width height t remaining ∧
      delivery.frame = frame ∧ Sent senderId s e t delivery := by
  obtain ⟨packets, encoder, hpackets, hencode, hthread⟩ :
      ∃ packets encoder, e.image.packets = some packets ∧
        (s.videoEncodingThread.encoderFor e.image).encode (some packets) = some (encoder, frame) ∧
        thread.encoder = some encoder := by
    rcases VideoEncodingThread.run_cases hrun with ⟨-, hnone, -⟩ |
      ⟨packets, encoder, found, -, -, hpackets, hencode, hfound, hthread⟩
    · contradiction
    · obtain rfl := Option.some.inj hfound
      exact ⟨packets, encoder, hpackets, hencode, hthread⟩
  obtain ⟨hwidth, hheight, hnumber⟩ := h.encoderFor hsteady
  obtain ⟨hcount, htime, hkey, hlength⟩ :=
    (s.videoEncodingThread.encoderFor e.image).encode_spec packets hencode
  have htime : frame.time = s.nextVideoFrameId := htime.trans hnumber
  have hpositive : 1 ≤ frame.time := by
    rw [htime]
    exact UInt64.le_iff_toNat_le.mpr h.positive
  have hfits : VideoFrameDatagram.Fits frame.serialize := by
    have hbound := hsteady.fits packets hpackets
    exact ⟨by omega, by omega⟩
  obtain ⟨sent, hframe, rfl⟩ : ∃ sent : SentFrames, frame ∈ sent.frames ∧ sent.senderId = senderId :=
    ⟨single senderId frame hpositive hfits, List.mem_singleton_self frame, rfl⟩
  have hdatagrams : MediaSocket.sendVideoFrame frame.serialize s.nextVideoFrameId sent.senderId =
      (sent.emitted frame).map VideoFrameDatagram.toBytes := htime ▸ MediaSocket.sendVideoFrame_eq hframe
  obtain ⟨receiver, effects, hreceives⟩ := h.receive hsender hsteady hframe htime
  have hrequests : ∀ datagram ∈ s.requests ++ writtenBy effects, IsRequest datagram := fun datagram hmem =>
    (List.mem_append.mp hmem).elim (h.requests datagram) (hreceives.requests datagram)
  have hforwards : ∀ pending ∈ delivered (s.requests ++ writtenBy effects) e.forwarded,
      IsRequest pending.data := fun pending hmem => hrequests _ (mem_of_mem_delivered hmem).1
  have hanswered := run_requests hforwards s.sender
  have hthread_size := VideoEncodingThread.run_size hrun
  have hencoder_size := VP8Encoder.encode_size hencode
  have hnext := h.next_toNat
  have hbounded := h.bounded
  generalize hforwarded : delivered (s.requests ++ writtenBy effects) e.forwarded = forwarded at hanswered
  obtain ⟨thread', hthread', hkept⟩ : ∃ thread' : VideoEncodingThread,
      (List.replicate forwarded.length MediaSocket.Effect.enqueueRecovery).foldl handle thread = thread' ∧
        thread'.width = thread.width ∧ thread'.height = thread.height ∧
          thread'.encoder = thread.encoder ∧
            (forwarded ≠ [] → thread'.recoveryFlag = VP8Frame.KEY) := by
    refine ⟨_, foldl_handle_replicate thread forwarded.length, ?_⟩
    split
    next hnone => exact ⟨rfl, rfl, rfl, fun hsome => absurd (List.length_eq_zero_iff.mp hnone) hsome⟩
    next => exact ⟨rfl, rfl, rfl, fun _ => rfl⟩
  obtain ⟨hwidth', hheight', hencoder', hflag⟩ := hkept
  have hstep : step sent.senderId s e = some
      ({ videoEncodingThread := thread'
         nextVideoFrameId := s.nextVideoFrameId + 1
         sender := s.sender
         receiver := receiver
         requests := s.requests ++ writtenBy effects },
        [⟨frame, MediaSocket.enqueued sent.senderId effects⟩]) := by
    simp only [step, hrun, Option.bind_some, hdatagrams, hreceives.run, hforwarded, hanswered,
      Option.map_some, hthread']
  refine ⟨_, _, hstep, ?_, rfl, ?_⟩
  · refine ⟨?_, ?_, ?_, ?_, ?_, ?_, htime ▸ hreceives.fresh, hrequests⟩
    · exact hwidth'.trans (hthread_size.1.trans h.width_eq)
    · exact hheight'.trans (hthread_size.2.trans h.height_eq)
    · change 0 < (s.nextVideoFrameId + 1).toNat
      omega
    · change (s.nextVideoFrameId + 1).toNat + remaining < 2 ^ 64
      omega
    · intro found hfound
      obtain rfl := Option.some.inj (hthread.symm.trans (hencoder'.symm.trans hfound))
      exact ⟨hencoder_size.1.trans hwidth, hencoder_size.2.trans hheight, by rw [hcount, htime]⟩
    · intro hnone
      rw [hencoder'.symm.trans hnone] at hthread
      contradiction
  · refine ⟨fun hasked hone => hkey.mpr ⟨hasked, hone packets hpackets⟩, hreceives.taken,
      fun hwaits hcomplete hdue hnone => ?_, fun hsome => ?_⟩
    · exact hreceives.asks hwaits hcomplete hdue (List.append_eq_nil_iff.mp hnone).2
    · have hdelivered := hflag (hforwarded ▸ delivered_ne_nil hsome)
      change thread'.recoveryFlag ≠ VP8Frame.NORMAL
      rw [hdelivered]
      exact VP8Frame.KEY_ne_NORMAL

/-- A steady step keeps the sender and the receiver in step, and sends one frame at most. -/
theorem InStep.step (h : InStep senderId width height s (remaining + 1)) (hsender : senderId ≠ 0)
    (hsteady : Steady width height s e) {more : List VideoStream.Delivery}
    (hstep : VideoCall.step senderId s e = some (t, more)) :
    InStep senderId width height t remaining ∧
      ∀ delivery ∈ more, Sent senderId s e t delivery := by
  obtain ⟨⟨thread, encoded⟩, hrun, hsent⟩ := Option.bind_eq_some_iff.mp hstep
  cases encoded with
  | none =>
    obtain ⟨rfl, rfl⟩ := Prod.mk.inj (Option.some.inj hsent)
    obtain ⟨hwidth, hheight⟩ := VideoEncodingThread.run_size hrun
    have hbounded := h.bounded
    refine ⟨⟨hwidth.trans h.width_eq, hheight.trans h.height_eq, h.positive, ?_, ?_, ?_, h.fresh,
      h.requests⟩, fun delivery hmem => absurd hmem List.not_mem_nil⟩
    · change s.nextVideoFrameId.toNat + remaining < 2 ^ 64
      omega
    · intro encoder hencoder
      rcases VideoEncodingThread.encoder_of_run_none hrun with hsame | ⟨-, hnone⟩
      · exact h.encoder encoder (hsame.symm.trans hencoder)
      · rw [hnone] at hencoder
        contradiction
    · intro hnone
      rcases VideoEncodingThread.encoder_of_run_none hrun with hsame | ⟨hcreate, -⟩
      · exact h.unstarted (hsame.symm.trans hnone)
      · exact h.unstarted (h.create hsteady hcreate)
  | some frame =>
    obtain ⟨t', delivery, hstep', h', -, hdelivery⟩ := h.image hsender hsteady hrun
    obtain ⟨rfl, rfl⟩ := Prod.mk.inj (Option.some.inj (hstep'.symm.trans hstep))
    exact ⟨h', fun found hmem => List.mem_singleton.mp hmem ▸ hdelivery⟩

/-- In the beginning, nothing has been sent. -/
theorem inStep_start (senderId width height : Int32) {remaining : ℕ} (hremaining : remaining < 2 ^ 64 - 1) :
    InStep senderId width height (start width height) remaining := by
  have hlast : ((start width height).receiver.decoderOf senderId).lastCompletedFrameId <
      (start width height).nextVideoFrameId := by
    simp [start, MediaSocket.decoderOf]
  refine ⟨rfl, rfl, Nat.one_pos, ?_, fun encoder hencoder => by contradiction, fun _ => rfl, ⟨rfl, hlast,
    fun id hmem => by simp [start, MediaSocket.decoderOf] at hmem⟩,
    fun datagram hmem => absurd hmem List.not_mem_nil⟩
  change 1 + remaining < 2 ^ 64
  omega

/-- In a steady run, the sender and the receiver stay in step. -/
theorem inStep_run (hsender : senderId ≠ 0) {events : List Event}
    (h : InStep senderId width height s (events.length + remaining))
    (hsteady : Runs.EachStep (VideoCall.step senderId) (Steady width height) s events)
    {out : List VideoStream.Delivery} (hrun : Runs.run (VideoCall.step senderId) s events = some (t, out)) :
    InStep senderId width height t remaining := by
  induction events generalizing s out with
  | nil =>
    obtain ⟨rfl, -⟩ := Prod.mk.inj (Option.some.inj hrun)
    rwa [List.length_nil, Nat.zero_add] at h
  | cons e events ih =>
    obtain ⟨s', first, rest, hstep, hrest, -⟩ := (Runs.run_cons_eq_some _).mp hrun
    rw [List.length_cons, Nat.add_right_comm] at h
    exact ih (h.step hsender hsteady.1 hstep).1 (hsteady.2 s' first hstep) hrest

/-- All datagrams of the frame get through. -/
def Complete (delivery : VideoStream.Delivery) (e : Event) : Prop :=
  VideoFrameUdpDecoder.AllArrived delivery.frame (e.received.map Prod.fst)

/-- A receiver gets back into step with the second of two frames that arrive completely. If the first one is not
handed out, then a key frame is asked for. If nothing has been asked for within the last second, and a request
gets through to the sender, then the second one is a key frame, and it is handed out. -/
theorem getsBackIntoStep (hsender : senderId ≠ 0) {events : List Event} {out : List VideoStream.Delivery}
    {e e' : Event} {u : VideoCall} {delivery delivery' : VideoStream.Delivery}
    (hlength : events.length + 2 < 2 ^ 64 - 1)
    (hrun : Runs.run (VideoCall.step senderId) (start width height) events = some (s, out))
    (hsteady : Runs.EachStep (VideoCall.step senderId) (Steady width height) (start width height) events)
    (hfirst : Steady width height s e) (hsecond : Steady width height t e')
    (hstep : VideoCall.step senderId s e = some (t, [delivery]))
    (hstep' : VideoCall.step senderId t e' = some (u, [delivery']))
    (hcomplete : Complete delivery e) (hcomplete' : Complete delivery' e')
    (hdue : ∀ received ∈ e.received,
      s.receiver.lastFrameRequestTimestamp.toNat + 1000 < received.2.toNat)
    (hforwarded : t.requests ≠ [] → ∃ forwarded ∈ e.forwarded, forwarded.1 < t.requests.length)
    (hpacket : ∀ packets, e'.image.packets = some packets → (CodecPacket.buffers packets).length = 1) :
    delivery.returned = [delivery.frame] ∨
      delivery'.frame.type = VP8Frame.KEY ∧ delivery'.returned = [delivery'.frame] := by
  have hs : InStep senderId width height s 2 :=
    inStep_run hsender (inStep_start senderId width height hlength) hsteady hrun
  obtain ⟨ht, hsent⟩ := hs.step hsender hfirst hstep
  obtain ⟨-, hsent'⟩ := ht.step hsender hsecond hstep'
  have hsent := hsent delivery (List.mem_singleton_self delivery)
  have hsent' := hsent' delivery' (List.mem_singleton_self delivery')
  refine (hsent.taken hcomplete).returned.imp_right fun ⟨_, hwaits⟩ => ?_
  have hasked := hsent.forwards (hforwarded (hsent.asks hwaits hcomplete hdue))
  have hkey := hsent'.key (VideoEncodingThread.requestRecoveryFlag_encoderFor hasked) hpacket
  exact ⟨hkey, ((hsent'.taken hcomplete').key hkey).1⟩

/-- A small image whose datagram gets through at a time, and what the network does with the requests. -/
def smallImage (now : UInt64) (forwarded : List (ℕ × UInt64)) : Event where
  image := { width := 320, height := 240, packets := some [.frame [7] 1] }
  received := [(0, now)]
  forwarded := forwarded

/-- The first frame of a call is no key frame, so that the receiver gets into step with the second one. -/
theorem getsBackIntoStep_start : ∃ t u delivery delivery',
    VideoCall.step 5 (start 320 240) (smallImage 5000 [(0, 5010)]) = some (t, [delivery]) ∧
      VideoCall.step 5 t (smallImage 5040 []) = some (u, [delivery']) ∧ delivery.returned = [] ∧
      (delivery.returned = [delivery.frame] ∨
        delivery'.frame.type = VP8Frame.KEY ∧ delivery'.returned = [delivery'.frame]) := by
  have hfacts : (VideoCall.step 5 (start 320 240) (smallImage 5000 [(0, 5010)])).bind (fun first =>
      (VideoCall.step 5 first.1 (smallImage 5040 [])).map fun second =>
        (first.2.map fun delivery => (SentFrames.parts delivery.frame, delivery.returned),
          second.2.map fun delivery => SentFrames.parts delivery.frame,
          first.1.requests.length, first.1.receiver.lastFrameRequestTimestamp)) =
      some ([(1, [])], [1], 1, 5000) := by decide +kernel
  obtain ⟨⟨t, out⟩, hstep, hfacts⟩ := Option.bind_eq_some_iff.mp hfacts
  obtain ⟨⟨u, out'⟩, hstep', hfacts⟩ := Option.map_eq_some_iff.mp hfacts
  obtain ⟨hout, hfacts⟩ := Prod.mk.inj hfacts
  obtain ⟨hout', hfacts⟩ := Prod.mk.inj hfacts
  obtain ⟨hrequests, htime⟩ := Prod.mk.inj hfacts
  obtain ⟨delivery, rfl, hdelivery⟩ := List.map_eq_singleton_iff.mp hout
  obtain ⟨delivery', rfl, hdelivery'⟩ := List.map_eq_singleton_iff.mp hout'
  obtain ⟨hparts, hreturned⟩ := Prod.mk.inj hdelivery
  have hsteady : Steady 320 240 (start 320 240) (smallImage 5000 [(0, 5010)]) :=
    ⟨rfl, rfl, fun packets h => by obtain rfl := Option.some.inj h; decide, by decide, by decide⟩
  have hsteady' : Steady 320 240 t (smallImage 5040 []) := by
    refine ⟨rfl, rfl, fun packets h => by obtain rfl := Option.some.inj h; decide, by decide, ?_⟩
    rw [htime]
    decide
  refine ⟨t, u, delivery, delivery', hstep, hstep', hreturned, ?_⟩
  have hrun : Runs.run (VideoCall.step 5) (start 320 240) [] = some (start 320 240, []) := rfl
  refine getsBackIntoStep (by decide) (by decide) hrun trivial hsteady hsteady' hstep hstep' ?_ ?_
    (by decide) (fun _ => ⟨(0, 5010), by decide, by rw [hrequests]; decide⟩) ?_
  · intro i hi
    rw [hparts] at hi
    obtain rfl := Nat.lt_one_iff.mp hi
    exact List.mem_singleton_self 0
  · intro i hi
    rw [hdelivery'] at hi
    obtain rfl := Nat.lt_one_iff.mp hi
    exact List.mem_singleton_self 0
  · intro packets h
    obtain rfl := Option.some.inj h
    rfl

end VideoCall

end Ts3Video
