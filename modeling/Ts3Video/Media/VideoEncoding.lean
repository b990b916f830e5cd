import Ts3Video.Media.DatagramParsing

/-!
# The encoding thread

Images are encoded in a thread of their own. The encoder numbers its frames and is created anew for an
image whose size is not the configured one. What the codec makes of an image is part of the input.
-/

namespace Ts3Video

/-- A packet that the codec hands out. Only those that carry a frame are used. -/
inductive CodecPacket where
  | frame (buf : List UInt8) (pts : Int64)
  | other

/-- The payloads of the packets that carry a frame. -/
def CodecPacket.buffers (packets : List CodecPacket) : List (List UInt8) :=
  packets.filterMap fun
    | .frame buf _ => some buf
    | .other => none

/-- The number of bytes that the packets are put into. -/
def CodecPacket.encodedLength (packets : List CodecPacket) : ℕ :=
  ((buffers packets).map fun buf => 12 + buf.length).sum

/-- Four bytes, the lowest one first. -/
def memPutLe32 (val : UInt32) : List UInt8 :=
  [val.toUInt8, (val >>> 8).toUInt8, (val >>> 16).toUInt8, (val >>> 24).toUInt8]

/-- An image, and what the codec does when it is configured for it and given the image. -/
structure CapturedImage where
  width : Int32
  height : Int32
  initialized : Bool := true
  packets : Option (List CodecPacket)

/-- The counter of an encoder, its configuration and the kind of frame it is asked for. -/
structure VP8Encoder where
  incrementalFrameNumber : UInt64 := 0
  width : Int32
  height : Int32
  requestRecoveryFlag : Int32 := VP8Frame.NORMAL

namespace VP8Encoder

/-- The image has the configured size. -/
def isValidFrame (encoder : VP8Encoder) (image : CapturedImage) : Bool :=
  encoder.width = image.width ∧ encoder.height = image.height

/-- Ask for a kind of frame. -/
def setRequestRecoveryFlag (encoder : VP8Encoder) (recoveryFlag : Int32) : VP8Encoder :=
  { encoder with requestRecoveryFlag := recoveryFlag }

/-- The loop body of `encode`: a packet follows the bytes before it with a header of its own. The request
is used up by the first one. -/
def appendPacket (state : VP8Encoder × VP8Frame) : CodecPacket → VP8Encoder × VP8Frame
  | .other => state
  | .frame buf pts =>
    let header := memPutLe32 (UInt32.ofNat buf.length) ++ memPutLe32 pts.toUInt64.toUInt32 ++
      memPutLe32 (pts >>> 32).toUInt64.toUInt32
    (state.1.setRequestRecoveryFlag VP8Frame.NORMAL,
      { state.2 with
        type := state.1.requestRecoveryFlag
        data := some (state.2.data.getD [] ++ header ++ buf) })

/-- Number an image and encode it. `none` is an error of the codec. -/
def encode (encoder : VP8Encoder) (packets : Option (List CodecPacket)) :
    Option (VP8Encoder × VP8Frame) :=
  let time := encoder.incrementalFrameNumber + 1
  packets.map fun packets =>
    packets.foldl appendPacket
      ({ encoder with incrementalFrameNumber := time }, { time, type := VP8Frame.NORMAL, data := none })

variable (packets : List CodecPacket) (encoder : VP8Encoder) (frame : VP8Frame)

/-- Packets change neither the counter of the encoder nor that of the frame, and lengthen its data. -/
theorem foldl_appendPacket : (packets.foldl appendPacket (encoder, frame)).1.incrementalFrameNumber =
      encoder.incrementalFrameNumber ∧
    (packets.foldl appendPacket (encoder, frame)).2.time = frame.time ∧
    ((packets.foldl appendPacket (encoder, frame)).2.data.getD []).length =
      (frame.data.getD []).length + CodecPacket.encodedLength packets := by
  induction packets generalizing encoder frame with
  | nil => exact ⟨rfl, rfl, rfl⟩
  | cons packet packets ih =>
    cases packet with
    | other => exact ih encoder frame
    | frame buf pts =>
      obtain ⟨hnumber, htime, hlength⟩ := ih (appendPacket (encoder, frame) (.frame buf pts)).1
        (appendPacket (encoder, frame) (.frame buf pts)).2
      refine ⟨hnumber, htime, ?_⟩
      have hsum : CodecPacket.encodedLength (.frame buf pts :: packets) =
          12 + buf.length + CodecPacket.encodedLength packets := by
        simp [CodecPacket.encodedLength, CodecPacket.buffers]
      have hone : ((appendPacket (encoder, frame) (.frame buf pts)).2.data.getD []).length =
          (frame.data.getD []).length + (12 + buf.length) := by
        simp [appendPacket, memPutLe32]
        omega
      rw [List.foldl_cons, hlength, hone, hsum, Nat.add_assoc]

/-- Once the request is used up, a further packet makes the frame a normal one. -/
theorem type_foldl_of_used (hused : encoder.requestRecoveryFlag = VP8Frame.NORMAL) :
    (packets.foldl appendPacket (encoder, frame)).2.type =
      if (CodecPacket.buffers packets).length = 0 then frame.type else VP8Frame.NORMAL := by
  induction packets generalizing encoder frame with
  | nil => rfl
  | cons packet packets ih =>
    cases packet with
    | other => exact ih encoder frame hused
    | frame buf pts =>
      have hrest := ih (appendPacket (encoder, frame) (.frame buf pts)).1
        (appendPacket (encoder, frame) (.frame buf pts)).2 rfl
      rw [List.foldl_cons, hrest]
      change (if _ then encoder.requestRecoveryFlag else VP8Frame.NORMAL) = VP8Frame.NORMAL
      rw [hused, ite_self]

/-- A frame is a key frame if one was asked for and it is put together from one packet. -/
theorem type_foldl (hnormal : frame.type = VP8Frame.NORMAL) :
    (packets.foldl appendPacket (encoder, frame)).2.type = VP8Frame.KEY ↔
      encoder.requestRecoveryFlag = VP8Frame.KEY ∧ (CodecPacket.buffers packets).length = 1 := by
  induction packets with
  | nil =>
    change frame.type = _ ↔ _ ∧ 0 = 1
    rw [hnormal]
    exact ⟨fun h => absurd h.symm VP8Frame.KEY_ne_NORMAL, fun h => absurd h.2 Nat.zero_ne_one⟩
  | cons packet packets ih =>
    cases packet with
    | other => exact ih
    | frame buf pts =>
      have hrest := type_foldl_of_used packets (appendPacket (encoder, frame) (.frame buf pts)).1
        (appendPacket (encoder, frame) (.frame buf pts)).2 rfl
      have hlength : (CodecPacket.buffers (.frame buf pts :: packets)).length =
          (CodecPacket.buffers packets).length + 1 := rfl
      rw [hlength, Nat.add_eq_right, List.foldl_cons, hrest]
      change (if _ then encoder.requestRecoveryFlag else VP8Frame.NORMAL) = VP8Frame.KEY ↔ _
      split
      next hnone => exact (and_iff_left hnone).symm
      next hsome => exact ⟨fun h => absurd h.symm VP8Frame.KEY_ne_NORMAL, fun h => absurd h.2 hsome⟩

/-- What is known of a frame before it is encoded. -/
theorem encode_spec {encoder' : VP8Encoder} {frame : VP8Frame}
    (h : encoder.encode (some packets) = some (encoder', frame)) :
    encoder'.incrementalFrameNumber = frame.time ∧
      frame.time = encoder.incrementalFrameNumber + 1 ∧
      (frame.type = VP8Frame.KEY ↔
        encoder.requestRecoveryFlag = VP8Frame.KEY ∧ (CodecPacket.buffers packets).length = 1) ∧
      frame.serialize.length = 16 + CodecPacket.encodedLength packets := by
  obtain ⟨rfl, rfl⟩ := Prod.mk.inj (Option.some.inj h)
  obtain ⟨hnumber, htime, hlength⟩ := foldl_appendPacket packets
    { encoder with incrementalFrameNumber := encoder.incrementalFrameNumber + 1 }
    ⟨encoder.incrementalFrameNumber + 1, VP8Frame.NORMAL, none⟩
  refine ⟨hnumber.trans htime.symm, htime, type_foldl packets _ _ rfl, ?_⟩
  rw [VP8Frame.serialize_length, hlength]
  simp

/-- Packets leave the configuration of an encoder alone. -/
theorem foldl_appendPacket_size (packets : List CodecPacket) (state : VP8Encoder × VP8Frame) :
    (packets.foldl appendPacket state).1.width = state.1.width ∧
      (packets.foldl appendPacket state).1.height = state.1.height := by
  induction packets generalizing state with
  | nil => exact ⟨rfl, rfl⟩
  | cons packet packets ih =>
    obtain ⟨hwidth, hheight⟩ := ih (appendPacket state packet)
    rw [List.foldl_cons, hwidth, hheight]
    cases packet with
    | other => exact ⟨rfl, rfl⟩
    | frame buf pts => exact ⟨rfl, rfl⟩

/-- Images leave the configuration of an encoder alone. -/
theorem encode_size {encoder encoder' : VP8Encoder} {packets : Option (List CodecPacket)} {frame : VP8Frame}
    (h : encoder.encode packets = some (encoder', frame)) :
    encoder'.width = encoder.width ∧ encoder'.height = encoder.height := by
  obtain ⟨packets, rfl, hencode⟩ := Option.map_eq_some_iff.mp h
  have hsize := foldl_appendPacket_size packets
    ({ encoder with incrementalFrameNumber := encoder.incrementalFrameNumber + 1 },
      { time := encoder.incrementalFrameNumber + 1, type := VP8Frame.NORMAL, data := none })
  rwa [hencode] at hsize

end VP8Encoder

/-- The configuration of the thread, and the encoder of its loop. It does not run before `start`. -/
structure VideoEncodingThread where
  width : Int32 := 0
  height : Int32 := 0
  stopFlag : Bool := true
  encoder : Option VP8Encoder := none
  recoveryFlag : Int32 := VP8Frame.NORMAL

namespace VideoEncodingThread

/-- `initVideoEncoder`: stop the thread, configure it and start its loop again. -/
def init (t : VideoEncodingThread) (width height : Int32) : VideoEncodingThread :=
  { t with width, height, stopFlag := false, encoder := none }

/-- `resetVideoEncoder`: end the loop, and with it the encoder. -/
def stop (t : VideoEncodingThread) : VideoEncodingThread :=
  { t with stopFlag := true, encoder := none }

/-- Ask for a kind of frame. -/
def enqueueRecovery (t : VideoEncodingThread) (ft : Int32) : VideoEncodingThread :=
  { t with recoveryFlag := ft }

/-- There is no encoder for images of this size. -/
def create (t : VideoEncodingThread) (image : CapturedImage) : Bool :=
  match t.encoder with
  | none => true
  | some encoder => !encoder.isValidFrame image

/-- The encoder that is given the image. Any request is one for a key frame. -/
def encoderFor (t : VideoEncodingThread) (image : CapturedImage) : VP8Encoder :=
  let new : VP8Encoder := { width := t.width, height := t.height }
  let encoder := if t.create image then new else t.encoder.getD new
  if t.recoveryFlag ≠ VP8Frame.NORMAL then encoder.setRequestRecoveryFlag VP8Frame.KEY else encoder

/-- The loop body of `run` for an image that is not skipped. `none` is a missing frame that is
serialised. -/
def run (t : VideoEncodingThread) (image : CapturedImage) :
    Option (VideoEncodingThread × Option VP8Frame) :=
  if t.stopFlag then some (t, none)
  else if t.create image && !image.initialized then
    some ({ t with encoder := none, stopFlag := true }, none)
  else
    ((t.encoderFor image).encode image.packets).map fun encoded =>
      ({ t with encoder := some encoded.1, recoveryFlag := VP8Frame.NORMAL }, some encoded.2)

/-- What the loop body does with an image. -/
theorem run_cases {t t' : VideoEncodingThread} {image : CapturedImage} {encoded : Option VP8Frame}
    (h : t.run image = some (t', encoded)) :
    ((t.stopFlag = true ∨ t.create image = true ∧ image.initialized = false) ∧ encoded = none ∧
        (t'.encoder = t.encoder ∨ t'.encoder = none)) ∨
      ∃ packets encoder frame, t.stopFlag = false ∧
        (t.create image = true → image.initialized = true) ∧ image.packets = some packets ∧
        (t.encoderFor image).encode (some packets) = some (encoder, frame) ∧
        encoded = some frame ∧ t'.encoder = some encoder := by
  unfold run at h
  split at h
  next hstop =>
    obtain ⟨rfl, rfl⟩ := Prod.mk.inj (Option.some.inj h)
    exact .inl ⟨.inl hstop, rfl, .inl rfl⟩
  next hstop =>
    split at h
    next hfailed =>
      obtain ⟨rfl, rfl⟩ := Prod.mk.inj (Option.some.inj h)
      exact .inl ⟨.inr (by simpa using hfailed), rfl, .inr rfl⟩
    next hready =>
      obtain ⟨⟨encoder, frame⟩, hencode, heq⟩ := Option.map_eq_some_iff.mp h
      obtain ⟨rfl, rfl⟩ := Prod.mk.inj heq
      cases hpackets : image.packets with
      | none =>
        rw [hpackets] at hencode
        contradiction
      | some packets =>
        rw [hpackets] at hencode
        exact .inr ⟨packets, encoder, frame, Bool.not_eq_true _ ▸ hstop, by simpa using hready, rfl,
          hencode, rfl, rfl⟩

/-- The encoder that is given an image has counted from zero or is the one of the image before. -/
theorem encoderFor_cases (t : VideoEncodingThread) (image : CapturedImage) :
    (t.encoderFor image).incrementalFrameNumber = 0 ∨ ∃ encoder, t.encoder = some encoder ∧
      (t.encoderFor image).incrementalFrameNumber = encoder.incrementalFrameNumber := by
  have hflag : (t.encoderFor image).incrementalFrameNumber =
      (if t.create image then ({ width := t.width, height := t.height } : VP8Encoder)
        else t.encoder.getD { width := t.width, height := t.height }).incrementalFrameNumber := by
    unfold encoderFor
    dsimp only
    split
    · rfl
    · rfl
  rw [hflag]
  split
  · exact .inl rfl
  · cases t.encoder with
    | none => exact .inl rfl
    | some encoder => exact .inr ⟨encoder, rfl, rfl⟩

variable {t t' : VideoEncodingThread} {image : CapturedImage} {encoded : Option VP8Frame}

/-- Images leave the configuration of the thread alone. -/
theorem run_size (h : t.run image = some (t', encoded)) : t'.width = t.width ∧ t'.height = t.height := by
  unfold run at h
  split at h
  · obtain ⟨rfl, -⟩ := Prod.mk.inj (Option.some.inj h)
    exact ⟨rfl, rfl⟩
  · split at h
    · obtain ⟨rfl, -⟩ := Prod.mk.inj (Option.some.inj h)
      exact ⟨rfl, rfl⟩
    · obtain ⟨result, -, heq⟩ := Option.map_eq_some_iff.mp h
      obtain ⟨rfl, -⟩ := Prod.mk.inj heq
      exact ⟨rfl, rfl⟩

/-- An image that is skipped leaves the encoder alone, unless a new one was needed. -/
theorem encoder_of_run_none (h : t.run image = some (t', none)) :
    t'.encoder = t.encoder ∨ t.create image = true ∧ t'.encoder = none := by
  unfold run at h
  split at h
  · obtain ⟨rfl, -⟩ := Prod.mk.inj (Option.some.inj h)
    exact .inl rfl
  · split at h
    next hfailed =>
      obtain ⟨rfl, -⟩ := Prod.mk.inj (Option.some.inj h)
      exact .inr ⟨(Bool.and_eq_true_iff.mp hfailed).1, rfl⟩
    · obtain ⟨result, -, heq⟩ := Option.map_eq_some_iff.mp h
      obtain ⟨-, hnone⟩ := Prod.mk.inj heq
      contradiction

/-- The encoder for an image is a new one or that of the image before, but for the kind of frame it is asked
for. -/
theorem encoderFor_config (t : VideoEncodingThread) (image : CapturedImage) {encoder : VP8Encoder}
    (h : (if t.create image then { width := t.width, height := t.height }
      else t.encoder.getD { width := t.width, height := t.height }) = encoder) :
    (t.encoderFor image).width = encoder.width ∧ (t.encoderFor image).height = encoder.height ∧
      (t.encoderFor image).incrementalFrameNumber = encoder.incrementalFrameNumber := by
  subst h
  unfold encoderFor
  dsimp only
  split
  · exact ⟨rfl, rfl, rfl⟩
  · exact ⟨rfl, rfl, rfl⟩

/-- The encoder for an image is asked for a key frame if the thread is. -/
theorem requestRecoveryFlag_encoderFor (h : t.recoveryFlag ≠ VP8Frame.NORMAL) :
    (t.encoderFor image).requestRecoveryFlag = VP8Frame.KEY := by
  rw [encoderFor, if_pos h]
  rfl

/-- An image that is skipped does not use up a request. -/
theorem recoveryFlag_of_run_none (h : t.run image = some (t', none)) : t'.recoveryFlag = t.recoveryFlag := by
  unfold run at h
  split at h
  · obtain ⟨rfl, -⟩ := Prod.mk.inj (Option.some.inj h)
    rfl
  · split at h
    · obtain ⟨rfl, -⟩ := Prod.mk.inj (Option.some.inj h)
      rfl
    · obtain ⟨result, -, heq⟩ := Option.map_eq_some_iff.mp h
      obtain ⟨-, hnone⟩ := Prod.mk.inj heq
      contradiction

/-- If a key frame is asked for, then an image that the codec makes one frame of becomes one. -/
theorem type_of_run {frame : VP8Frame} (h : t.run image = some (t', some frame))
    (hasked : t.recoveryFlag ≠ VP8Frame.NORMAL)
    (hone : ∀ packets, image.packets = some packets → (CodecPacket.buffers packets).length = 1) :
    frame.type = VP8Frame.KEY := by
  rcases run_cases h with ⟨-, hnone, -⟩ | ⟨packets, encoder, found, -, -, hpackets, hencode, hfound, -⟩
  · contradiction
  · obtain rfl := Option.some.inj hfound
    obtain ⟨-, -, hkey, -⟩ := (t.encoderFor image).encode_spec packets hencode
    exact hkey.mpr ⟨requestRecoveryFlag_encoderFor hasked, hone packets hpackets⟩

end VideoEncodingThread

end Ts3Video
