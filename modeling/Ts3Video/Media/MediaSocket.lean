import Ts3Video.Media.UdpVideoFrameDecoder

/-!
# The media socket of a client

The sending side cuts a frame and writes one UDP datagram per part. The receiving side parses
each datagram, hands it to the decoder of its sender and takes at most one frame out of it. The
clock and the content of freshly allocated memory are inputs of the receiving step. Audio
datagrams go to decoders of their own and are ignored here.
-/

namespace Ts3Video

open Std

/-- The datagram that `sendVideoFrame` writes for one part. -/
def VideoFrameDatagram.toBytes (dgvideo : VideoFrameDatagram) : List UInt8 :=
  writeUInt8 Datagram.MAGIC ++ (writeUInt8 VideoFrameDatagram.TYPE ++ (writeUInt8 dgvideo.flags ++
    (writeInt32 dgvideo.sender ++ (writeUInt64 dgvideo.frameId ++ (writeUInt16 dgvideo.index ++
      (writeUInt16 dgvideo.count ++ (writeUInt16 dgvideo.size ++
        dgvideo.data.take dgvideo.size.toNat)))))))

/-- The datagram type of recovery requests. -/
def VideoFrameRequestRecoveryDatagram.TYPE : UInt8 := 0x03

/-- What the socket keeps for incoming video: a decoder for each sender and the time of its last
recovery request. -/
structure MediaSocket where
  videoFrameDatagramDecoders : ExtTreeMap Int32 VideoFrameUdpDecoder := ∅
  lastFrameRequestTimestamp : UInt64 := 0

/-- The sender id that a client reads in a video datagram, behind the type and the flags. -/
def VideoFrameDatagram.readSender (data : List UInt8) : Int32 :=
  (readInt32 (readUInt8 (readUInt8 (readUInt8 data).2).2).2).1

/-- The sender id is read back. -/
theorem VideoFrameDatagram.readSender_toBytes (dg : VideoFrameDatagram) :
    readSender dg.toBytes = dg.sender := by
  rw [readSender, toBytes, readUInt8_writeUInt8, readUInt8_writeUInt8, readUInt8_writeUInt8,
    readInt32_writeInt32]

namespace MediaSocket

/-- What the socket does to the threads around it and to the network. -/
inductive Effect where
  | enqueue (frame : VP8Frame) (senderId : Int32)
  | enqueueRecovery
  | writeDatagram (datagram : List UInt8)
deriving DecidableEq

/-- A datagram to be read, with the clock and the memory of the step that reads it. -/
structure PendingDatagram where
  data : List UInt8
  now : UInt64
  heap : ℕ → UInt8

/-- Cut a frame and write its datagrams. A missing frame or frame id writes nothing. -/
def sendVideoFrame (frame : List UInt8) (frameId : UInt64) (senderId : Int32) :
    List (List UInt8) :=
  if frame.isEmpty ∨ frameId = 0 then []
  else
    match VideoFrameDatagram.split frame frameId senderId with
    | none => []
    | some datagrams => datagrams.map VideoFrameDatagram.toBytes

/-- The datagrams that `sendVideoFrame` writes, before they are put into bytes. -/
def writtenDatagrams (frame : List UInt8) (frameId : UInt64) (senderId : Int32) :
    List VideoFrameDatagram :=
  if frame.isEmpty ∨ frameId = 0 then []
  else (VideoFrameDatagram.split frame frameId senderId).getD []

/-- The socket writes these datagrams. -/
theorem sendVideoFrame_eq_map (frame : List UInt8) (frameId : UInt64) (senderId : Int32) :
    sendVideoFrame frame frameId senderId =
      (writtenDatagrams frame frameId senderId).map VideoFrameDatagram.toBytes := by
  rw [sendVideoFrame, writtenDatagrams]
  split
  · rfl
  · cases VideoFrameDatagram.split frame frameId senderId with
    | none => rfl
    | some datagrams => rfl

/-- If neither frame nor frame id is missing, these are the datagrams that the frame is cut into. -/
theorem split_eq_writtenDatagrams {frame : List UInt8} (hframe : 0 < frame.length)
    {frameId : UInt64} (hid : frameId ≠ 0) (senderId : Int32) :
    VideoFrameDatagram.split frame frameId senderId =
      some (writtenDatagrams frame frameId senderId) := by
  have hnonempty : ¬ (frame.isEmpty ∨ frameId = 0) := by
    rintro (hempty | hzero)
    · rw [List.isEmpty_iff.mp hempty] at hframe
      exact Nat.lt_irrefl 0 hframe
    · exact hid hzero
  rw [writtenDatagrams, if_neg hnonempty, VideoFrameDatagram.split_eq_parts hframe]
  rfl

/-- Ask for a frame that can be decoded on its own. A missing frame id or sender writes nothing. -/
def sendVideoFrameRecoveryDatagram (frameId : UInt64) (fromSenderId : Int32) : List Effect :=
  if frameId = 0 ∨ fromSenderId = 0 then []
  else
    [.writeDatagram (writeUInt8 Datagram.MAGIC ++
      writeUInt8 VideoFrameRequestRecoveryDatagram.TYPE ++ writeInt32 fromSenderId ++
      writeUInt64 frameId ++ writeUInt16 0)]

/-- Parse the fields behind the type. Bytes that are missing keep what the allocated memory held. -/
def readVideoFrameDatagram (heap : ℕ → UInt8) (bytes : List UInt8) : VideoFrameDatagram :=
  let flags := readUInt8 bytes
  let sender := readInt32 flags.2
  let frameId := readUInt64 sender.2
  let index := readUInt16 frameId.2
  let count := readUInt16 index.2
  let size := readUInt16 count.2
  let raw := (readRawData size.1.toNat size.2).1
  { flags := flags.1, sender := sender.1, frameId := frameId.1, index := index.1,
    count := count.1, size := size.1,
    data := (List.range size.1.toNat).map fun i => raw.getD i (heap i) }

/-- The decoder of a sender, a new one if there is none. -/
def decoderOf (s : MediaSocket) (senderId : Int32) : VideoFrameUdpDecoder :=
  (s.videoFrameDatagramDecoders[senderId]?).getD {}

/-- Hand a video part to the decoder of its sender and enqueue the frame it yields. If the decoder
waits for a certain kind of frame, ask for it, at most once a second. -/
def handleVideoFrameDatagram (s : MediaSocket) (dg : VideoFrameDatagram) (now : UInt64) :
    Option (MediaSocket × List Effect) :=
  ((s.decoderOf dg.sender).add (some dg)).map fun decoder =>
    let frame := decoder.next.1
    let decoder := decoder.next.2
    let waitForType := decoder.getWaitsForType
    let s := { s with
      videoFrameDatagramDecoders := s.videoFrameDatagramDecoders.insert dg.sender decoder }
    let enqueued := frame.toList.map fun frame => Effect.enqueue frame dg.sender
    if waitForType ≠ VP8Frame.NORMAL ∧ now - s.lastFrameRequestTimestamp > 1000 then
      ({ s with lastFrameRequestTimestamp := now },
        enqueued ++ sendVideoFrameRecoveryDatagram dg.frameId dg.sender)
    else (s, enqueued)

/-- The loop body of `onReadyRead` for one datagram. `none` is an access outside of a buffer. -/
def onReadyRead (s : MediaSocket) (pending : PendingDatagram) :
    Option (MediaSocket × List Effect) :=
  if pending.data.isEmpty then some (s, [])
  else
    let magic := readUInt8 pending.data
    if magic.1 ≠ Datagram.MAGIC then some (s, [])
    else
      let type := readUInt8 magic.2
      if type.1 = VideoFrameDatagram.TYPE then
        let dg := readVideoFrameDatagram pending.heap type.2
        if dg.size = 0 then some (s, []) else s.handleVideoFrameDatagram dg pending.now
      else if type.1 = VideoFrameRequestRecoveryDatagram.TYPE then some (s, [.enqueueRecovery])
      else some (s, [])

/-- The frames of one sender among the effects, in order. -/
def enqueued (senderId : Int32) (effects : List Effect) : List VP8Frame :=
  effects.filterMap fun
    | .enqueue frame sender => if sender = senderId then some frame else none
    | _ => none

/-- Only the data that is there is read, so a complete datagram is parsed independently of the
memory. -/
theorem readVideoFrameDatagram_of_complete (heap : ℕ → UInt8) {dg : VideoFrameDatagram}
    (hsize : dg.data.length = dg.size.toNat) :
    readVideoFrameDatagram heap (writeUInt8 dg.flags ++ (writeInt32 dg.sender ++
      (writeUInt64 dg.frameId ++ (writeUInt16 dg.index ++ (writeUInt16 dg.count ++
        (writeUInt16 dg.size ++ dg.data.take dg.size.toNat)))))) = dg := by
  have hraw : (List.range dg.size.toNat).map (fun i => dg.data.getD i (heap i)) = dg.data := by
    apply List.ext_getElem
    · simp [hsize]
    · intro i _ hi
      simp [List.getD_eq_getElem?_getD, List.getElem?_eq_getElem hi]
  have htake : dg.data.take dg.size.toNat = dg.data := by rw [← hsize, List.take_length]
  simp only [readVideoFrameDatagram, readUInt8_writeUInt8, readInt32_writeInt32,
    readUInt64_writeUInt64, readUInt16_writeUInt16, readRawData, htake, hraw]

/-- A datagram that is written for a non-empty part is received as that part. -/
theorem onReadyRead_toBytes (s : MediaSocket) {dg : VideoFrameDatagram}
    (hsize : dg.data.length = dg.size.toNat) (hpos : dg.size ≠ 0) (now : UInt64)
    (heap : ℕ → UInt8) :
    s.onReadyRead { data := dg.toBytes, now, heap } = s.handleVideoFrameDatagram dg now := by
  have hcons : dg.toBytes.isEmpty = false := by
    rw [List.isEmpty_eq_false_iff, ← List.length_pos_iff_ne_nil]
    simp [VideoFrameDatagram.toBytes, writeUInt8]
  have hread := readVideoFrameDatagram_of_complete heap hsize
  simp only [onReadyRead, hcons]
  simp only [VideoFrameDatagram.toBytes, readUInt8_writeUInt8, hread, if_neg hpos]
  simp

/-- Recovery requests are not frames. -/
@[simp] theorem enqueued_sendVideoFrameRecoveryDatagram (senderId : Int32) (frameId : UInt64)
    (fromSenderId : Int32) :
    enqueued senderId (sendVideoFrameRecoveryDatagram frameId fromSenderId) = [] := by
  unfold sendVideoFrameRecoveryDatagram
  split <;> rfl

/-- The frames of two lists of effects follow each other. -/
@[simp] theorem enqueued_append (senderId : Int32) (first second : List Effect) :
    enqueued senderId (first ++ second) = enqueued senderId first ++ enqueued senderId second :=
  List.filterMap_append

/-- An enqueued frame is one of its sender. -/
@[simp] theorem enqueued_map_enqueue (senderId : Int32) (frames : List VP8Frame) :
    enqueued senderId (frames.map fun frame => Effect.enqueue frame senderId) = frames := by
  induction frames with
  | nil => rfl
  | cons frame frames ih =>
    simp only [enqueued, List.map_cons, List.filterMap_cons, if_true] at ih ⊢
    rw [ih]

/-- Without an effect that enqueues a frame of the sender, there are none. -/
theorem enqueued_eq_nil {senderId : Int32} {effects : List Effect}
    (h : ∀ frame, Effect.enqueue frame senderId ∉ effects) : enqueued senderId effects = [] := by
  rw [enqueued, List.filterMap_eq_nil_iff]
  intro effect hmem
  cases effect with
  | enqueue frame sender =>
    refine if_neg fun heq => ?_
    subst heq
    exact h frame hmem
  | enqueueRecovery => rfl
  | writeDatagram datagram => rfl

/-- Handling a video part adds it to the decoder of its sender and asks that one for a frame. -/
theorem handleVideoFrameDatagram_spec (s : MediaSocket) {dg : VideoFrameDatagram}
    {decoder : VideoFrameUdpDecoder} (hadd : (s.decoderOf dg.sender).add (some dg) = some decoder)
    (now : UInt64) :
    ∃ s' out, s.handleVideoFrameDatagram dg now = some (s', out) ∧
      s'.decoderOf dg.sender = decoder.next.2 ∧ enqueued dg.sender out = decoder.next.1.toList := by
  simp only [handleVideoFrameDatagram, hadd, Option.map_some]
  split
  · refine ⟨_, _, rfl, ?_, ?_⟩
    · simp [decoderOf]
    · simp
  · refine ⟨_, _, rfl, ?_, ?_⟩
    · simp [decoderOf]
    · simp

/-- Handling a video part of one sender leaves the decoders of the others alone. -/
theorem decoderOf_handleVideoFrameDatagram {s s' : MediaSocket} {dg : VideoFrameDatagram}
    {now : UInt64} {effects : List Effect} {senderId : Int32}
    (h : s.handleVideoFrameDatagram dg now = some (s', effects)) (hne : dg.sender ≠ senderId) :
    s'.decoderOf senderId = s.decoderOf senderId := by
  obtain ⟨decoder, -, h⟩ := Option.map_eq_some_iff.mp h
  dsimp only at h
  split at h
  · obtain ⟨rfl, -⟩ := Prod.mk.inj h
    simp [decoderOf, ExtTreeMap.getElem?_insert, hne]
  · obtain ⟨rfl, -⟩ := Prod.mk.inj h
    simp [decoderOf, ExtTreeMap.getElem?_insert, hne]

/-- What is enqueued for a video part is a frame of its sender. -/
theorem senderId_of_handleVideoFrameDatagram {s s' : MediaSocket} {dg : VideoFrameDatagram}
    {now : UInt64} {effects : List Effect} {frame : VP8Frame} {senderId : Int32}
    (h : s.handleVideoFrameDatagram dg now = some (s', effects))
    (hmem : Effect.enqueue frame senderId ∈ effects) : senderId = dg.sender := by
  have hrecovery : Effect.enqueue frame senderId ∉
      sendVideoFrameRecoveryDatagram dg.frameId dg.sender := by
    unfold sendVideoFrameRecoveryDatagram
    split
    · exact List.not_mem_nil
    · simp
  obtain ⟨decoder, -, h⟩ := Option.map_eq_some_iff.mp h
  have henqueued : Effect.enqueue frame senderId ∈
      decoder.next.1.toList.map fun frame => Effect.enqueue frame dg.sender := by
    dsimp only at h
    split at h
    · obtain ⟨-, rfl⟩ := Prod.mk.inj h
      exact (List.mem_append.mp hmem).resolve_right hrecovery
    · obtain ⟨-, rfl⟩ := Prod.mk.inj h
      exact hmem
  obtain ⟨found, -, heq⟩ := List.mem_map.mp henqueued
  exact (Effect.enqueue.inj heq).2.symm

end MediaSocket

end Ts3Video
