import Ts3Video.Media.MediaSocket

/-!
# What a client reads out of a datagram

A video datagram is a header of 21 bytes and the payload whose size the header announces. The client
reads the header field by field and allocates the payload before it knows how much of it there is.
-/

namespace Ts3Video

/-- The bytes of a video datagram in front of its payload. -/
def VideoFrameDatagram.headerSize : ℕ := 1 + 1 + 1 + 4 + 8 + 2 + 2 + 2

/-- The payload size in the last field of the header. -/
def VideoFrameDatagram.announcedSize (data : List UInt8) : ℕ :=
  BigEndian.ofBytes ((data.drop 19).take 2)

/-- The header is there as a whole and announces a payload. -/
def VideoFrameDatagram.HasHeader (data : List UInt8) : Prop :=
  data.take 2 = [Datagram.MAGIC, TYPE] ∧ headerSize ≤ data.length ∧ 0 < announcedSize data

/-- The header and the payload that it announces are there. -/
def VideoFrameDatagram.Complete (data : List UInt8) : Prop :=
  HasHeader data ∧ headerSize + announcedSize data ≤ data.length

/-- The header announces more bytes than follow it. -/
def VideoFrameDatagram.Truncated (data : List UInt8) : Prop :=
  HasHeader data ∧ data.length < headerSize + announcedSize data

instance (data : List UInt8) : Decidable (VideoFrameDatagram.HasHeader data) :=
  inferInstanceAs (Decidable (_ ∧ _))

instance (data : List UInt8) : Decidable (VideoFrameDatagram.Complete data) :=
  inferInstanceAs (Decidable (_ ∧ _))

/-- The fields of a datagram in the order in which they are written, in front of some payload. -/
def VideoFrameDatagram.withHeader (magic type : UInt8) (dg : VideoFrameDatagram)
    (payload : List UInt8) : List UInt8 :=
  writeUInt8 magic ++ (writeUInt8 type ++ (writeUInt8 dg.flags ++ (writeInt32 dg.sender ++
    (writeUInt64 dg.frameId ++ (writeUInt16 dg.index ++ (writeUInt16 dg.count ++
      (writeUInt16 dg.size ++ payload)))))))

/-- A string that is long enough consists of the fields of a header and a payload. -/
theorem VideoFrameDatagram.exists_withHeader {data : List UInt8} (h : headerSize ≤ data.length) :
    ∃ magic type dg payload, data = withHeader magic type dg payload := by
  obtain ⟨magic, data, rfl, h₁⟩ := exists_writeUInt8 (n := 20) h
  obtain ⟨type, data, rfl, h₂⟩ := exists_writeUInt8 (n := 19) h₁
  obtain ⟨flags, data, rfl, h₃⟩ := exists_writeUInt8 (n := 18) h₂
  obtain ⟨sender, data, rfl, h₄⟩ := exists_writeInt32 (n := 14) h₃
  obtain ⟨frameId, data, rfl, h₅⟩ := exists_writeUInt64 (n := 6) h₄
  obtain ⟨index, data, rfl, h₆⟩ := exists_writeUInt16 (n := 4) h₅
  obtain ⟨count, data, rfl, h₇⟩ := exists_writeUInt16 (n := 2) h₆
  obtain ⟨size, payload, rfl, -⟩ := exists_writeUInt16 (n := 0) h₇
  exact ⟨magic, type, ⟨flags, sender, frameId, index, count, size, []⟩, payload, rfl⟩

/-- The header begins with magic byte and type, ends with the size and does not depend on the payload. -/
theorem VideoFrameDatagram.withHeader_eq (magic type : UInt8) (dg : VideoFrameDatagram) :
    ∃ fields, fields.length = 19 ∧ fields.take 2 = [magic, type] ∧
      ∀ payload, withHeader magic type dg payload = fields ++ (writeUInt16 dg.size ++ payload) := by
  refine ⟨writeUInt8 magic ++ (writeUInt8 type ++ (writeUInt8 dg.flags ++ (writeInt32 dg.sender ++
    (writeUInt64 dg.frameId ++ (writeUInt16 dg.index ++ writeUInt16 dg.count))))), ?_, ?_, ?_⟩
  · simp [writeUInt8, writeInt32, writeUInt32, writeUInt64, writeUInt16]
  · have hbyte : ∀ value : UInt8, writeUInt8 value = [value] := by
      intro value
      simp [writeUInt8, writeNumber, BigEndian.toBytes]
    simp [hbyte]
  · intro payload
    simp only [withHeader, List.append_assoc]

/-- The size of the payload is announced in the last field. -/
theorem VideoFrameDatagram.announcedSize_withHeader (magic type : UInt8) (dg : VideoFrameDatagram)
    (payload : List UInt8) : announcedSize (withHeader magic type dg payload) = dg.size.toNat := by
  obtain ⟨fields, hlength, -, heq⟩ := withHeader_eq magic type dg
  have hwidth : (writeUInt16 dg.size).length = 2 := writeNumber_length 2 _
  rw [announcedSize, heq, List.drop_left' hlength, List.take_left' hwidth, writeUInt16, writeNumber,
    BigEndian.ofBytes_toBytes]
  exact Nat.mod_eq_of_lt dg.size.toNat_lt

/-- A header is one of a video datagram with a payload if it begins like one and announces one. -/
theorem VideoFrameDatagram.hasHeader_withHeader {magic type : UInt8} {dg : VideoFrameDatagram}
    {payload : List UInt8} : HasHeader (withHeader magic type dg payload) ↔
      magic = Datagram.MAGIC ∧ type = TYPE ∧ dg.size ≠ 0 := by
  obtain ⟨fields, hlength, hfirst, heq⟩ := withHeader_eq magic type dg
  have hsize : 0 < dg.size.toNat ↔ dg.size ≠ 0 := by
    rw [Nat.pos_iff_ne_zero, Ne, Ne, ← UInt16.toNat_inj]
    rfl
  have hlong : headerSize ≤ (withHeader magic type dg payload).length := by
    rw [heq, List.length_append, List.length_append, hlength, writeUInt16, writeNumber_length]
    change 21 ≤ _
    omega
  rw [HasHeader, announcedSize_withHeader, hsize, heq, List.take_append_of_le_length (by omega),
    hfirst, ← heq]
  simp [hlong, and_assoc]

namespace MediaSocket

/-- The datagram that the loop body of `onReadyRead` hands to a decoder, if it hands over any. -/
def receivedVideoFrame (pending : PendingDatagram) : Option VideoFrameDatagram :=
  let magic := readUInt8 pending.data
  if magic.1 ≠ Datagram.MAGIC then none
  else
    let type := readUInt8 magic.2
    if type.1 ≠ VideoFrameDatagram.TYPE then none
    else
      let dg := readVideoFrameDatagram pending.heap type.2
      if dg.size = 0 then none else some dg

/-- Nothing is received in an empty datagram. -/
theorem receivedVideoFrame_of_isEmpty {pending : PendingDatagram} (h : pending.data.isEmpty) :
    receivedVideoFrame pending = none := by
  rw [receivedVideoFrame, List.isEmpty_iff.mp h]
  exact if_pos (by decide)

/-- A datagram that is handed to a decoder is handled. -/
theorem onReadyRead_of_received {pending : PendingDatagram} {dg : VideoFrameDatagram}
    (h : receivedVideoFrame pending = some dg) (s : MediaSocket) :
    s.onReadyRead pending = s.handleVideoFrameDatagram dg pending.now := by
  have hnonempty : ¬ pending.data.isEmpty := by
    intro hempty
    rw [receivedVideoFrame_of_isEmpty hempty] at h
    contradiction
  rw [onReadyRead, if_neg hnonempty]
  unfold receivedVideoFrame at h
  dsimp only at h ⊢
  generalize readUInt8 pending.data = magic at h ⊢
  generalize readUInt8 magic.2 = type at h ⊢
  generalize readVideoFrameDatagram pending.heap type.2 = received at h ⊢
  split at h
  · contradiction
  next hmagic =>
    split at h
    · contradiction
    next htype =>
      split at h
      · contradiction
      next hsize =>
        obtain rfl := Option.some.inj h
        rw [if_neg hmagic, if_pos (not_not.mp htype), if_neg hsize]

/-- If nothing is handed to a decoder, the socket stays as it is, and at most a key frame is asked for. -/
theorem onReadyRead_not_received {pending : PendingDatagram} (h : receivedVideoFrame pending = none)
    (s : MediaSocket) :
    ∃ effects, s.onReadyRead pending = some (s, effects) ∧ (effects = [] ∨ effects = [.enqueueRecovery]) := by
  unfold receivedVideoFrame at h
  unfold onReadyRead
  dsimp only at h ⊢
  generalize readUInt8 pending.data = magic at h ⊢
  generalize readUInt8 magic.2 = type at h ⊢
  generalize readVideoFrameDatagram pending.heap type.2 = received at h ⊢
  split
  · exact ⟨_, rfl, .inl rfl⟩
  · split
    · exact ⟨_, rfl, .inl rfl⟩
    next hmagic =>
      rw [if_neg hmagic] at h
      split
      next htype =>
        rw [if_neg (not_not.mpr htype)] at h
        split at h
        next hsize => exact ⟨_, if_pos hsize, .inl rfl⟩
        next => contradiction
      next =>
        split
        · exact ⟨_, rfl, .inr rfl⟩
        · exact ⟨_, rfl, .inl rfl⟩

/-- If nothing is handed to a decoder, the socket keeps its decoders, and no frame is enqueued. -/
theorem onReadyRead_of_not_received {pending : PendingDatagram}
    (h : receivedVideoFrame pending = none) (s : MediaSocket) :
    ∃ effects, s.onReadyRead pending = some (s, effects) ∧
      ∀ senderId, enqueued senderId effects = [] := by
  obtain ⟨effects, hstep, heffects⟩ := onReadyRead_not_received h s
  refine ⟨effects, hstep, fun senderId => ?_⟩
  rcases heffects with rfl | rfl <;> rfl

/-- A datagram that is written for a non-empty part is received as that part. -/
theorem receivedVideoFrame_toBytes {dg : VideoFrameDatagram}
    (hsize : dg.data.length = dg.size.toNat) (hpos : dg.size ≠ 0) (now : UInt64)
    (heap : ℕ → UInt8) : receivedVideoFrame { data := dg.toBytes, now, heap } = some dg := by
  have hread := readVideoFrameDatagram_of_complete heap hsize
  simp only [receivedVideoFrame, VideoFrameDatagram.toBytes, readUInt8_writeUInt8, hread, if_neg hpos]
  simp

/-- The fields of a header are read as they were written. Payload bytes that are missing are those of
the allocated memory. -/
theorem receivedVideoFrame_withHeader {pending : PendingDatagram} {magic type : UInt8}
    {dg : VideoFrameDatagram} {payload : List UInt8}
    (hdata : pending.data = VideoFrameDatagram.withHeader magic type dg payload) :
    receivedVideoFrame pending =
      if magic = Datagram.MAGIC ∧ type = VideoFrameDatagram.TYPE ∧ dg.size ≠ 0 then
        some { dg with
          data := (List.range dg.size.toNat).map fun i =>
            (payload.take dg.size.toNat).getD i (pending.heap i) }
      else none := by
  simp only [receivedVideoFrame, hdata, VideoFrameDatagram.withHeader, readUInt8_writeUInt8,
    readVideoFrameDatagram, readInt32_writeInt32, readUInt64_writeUInt64, readUInt16_writeUInt16,
    readRawData]
  by_cases hmagic : magic = Datagram.MAGIC
  · by_cases htype : type = VideoFrameDatagram.TYPE
    · by_cases hsize : dg.size = 0
      · rw [if_neg (not_not.mpr hmagic), if_neg (not_not.mpr htype), if_pos hsize,
          if_neg fun h => h.2.2 hsize]
      · rw [if_neg (not_not.mpr hmagic), if_neg (not_not.mpr htype), if_neg hsize,
          if_pos ⟨hmagic, htype, hsize⟩]
    · rw [if_neg (not_not.mpr hmagic), if_pos htype, if_neg fun h => htype h.2.1]
  · rw [if_pos hmagic, if_neg fun h => hmagic h.1]

/-- Past the end of the stream, a payload size of zero is read. -/
theorem size_of_short (heap : ℕ → UInt8) {bytes : List UInt8} (h : bytes.length < 19) :
    (readVideoFrameDatagram heap bytes).size = 0 := by
  have hshort : (readNumber 2 (readNumber 2 (readNumber 8 (readNumber 4
      (readNumber 1 bytes).2).2).2).2).2.length < 2 := by
    simp only [readNumber_length]
    omega
  have hzero := readNumber_of_short hshort
  simp only [readVideoFrameDatagram, readUInt16, readUInt64, readInt32, readUInt32, readUInt8,
    Prod.map_fst, Prod.map_snd, id_eq, hzero]
  rfl

/-- In a string that is shorter than a header, no payload size is found. -/
theorem receivedVideoFrame_of_short {pending : PendingDatagram}
    (h : pending.data.length < VideoFrameDatagram.headerSize) : receivedVideoFrame pending = none := by
  have hlength : (readUInt8 (readUInt8 pending.data).2).2.length < 19 := by
    have hfirst := readNumber_length 1 pending.data
    have hsecond := readNumber_length 1 (readNumber 1 pending.data).2
    change (readNumber 1 (readNumber 1 pending.data).2).2.length < 19
    change pending.data.length < 21 at h
    omega
  have hsize := size_of_short pending.heap hlength
  unfold receivedVideoFrame
  dsimp only
  rw [if_pos hsize, ite_self, ite_self]

/-- A datagram is handed to a decoder exactly if its header is there. -/
theorem receivedVideoFrame_isSome (pending : PendingDatagram) :
    (receivedVideoFrame pending).isSome ↔ VideoFrameDatagram.HasHeader pending.data := by
  rcases Nat.lt_or_ge pending.data.length VideoFrameDatagram.headerSize with hshort | hlong
  · rw [receivedVideoFrame_of_short hshort]
    exact ⟨fun h => by contradiction, fun h => absurd h.2.1 (Nat.not_le.mpr hshort)⟩
  · obtain ⟨magic, type, dg, payload, hdata⟩ := VideoFrameDatagram.exists_withHeader hlong
    rw [receivedVideoFrame_withHeader hdata, hdata, VideoFrameDatagram.hasHeader_withHeader]
    simp

/-- Of a complete string, exactly the header and the payload that it announces are received. -/
theorem toBytes_of_received {pending : PendingDatagram} {dg : VideoFrameDatagram}
    (hcomplete : VideoFrameDatagram.Complete pending.data)
    (h : receivedVideoFrame pending = some dg) :
    dg.toBytes = pending.data.take (VideoFrameDatagram.headerSize + dg.size.toNat) := by
  obtain ⟨⟨-, hlong, -⟩, hpayload⟩ := hcomplete
  obtain ⟨magic, type, header, payload, hdata⟩ := VideoFrameDatagram.exists_withHeader hlong
  obtain ⟨fields, hlength, -, heq⟩ := VideoFrameDatagram.withHeader_eq magic type header
  have hwidth : (writeUInt16 header.size).length = 2 := writeNumber_length 2 _
  rw [hdata, VideoFrameDatagram.announcedSize_withHeader] at hpayload
  have hrest : header.size.toNat ≤ payload.length := by
    rw [heq, List.length_append, List.length_append, hlength, hwidth] at hpayload
    change 21 + _ ≤ _ at hpayload
    omega
  rw [receivedVideoFrame_withHeader hdata] at h
  split at h
  next hheader =>
    obtain ⟨rfl, rfl, -⟩ := hheader
    obtain rfl := Option.some.inj h
    have hraw : (List.range header.size.toNat).map (fun i =>
        (payload.take header.size.toNat).getD i (pending.heap i)) =
          payload.take header.size.toNat := by
      apply List.ext_getElem
      · simp [hrest]
      · intro i _ hi
        simp [List.getD_eq_getElem?_getD, List.getElem?_eq_getElem hi]
    have hfields : (fields ++ writeUInt16 header.size).length = VideoFrameDatagram.headerSize := by
      rw [List.length_append, hlength, hwidth]
      rfl
    change VideoFrameDatagram.withHeader _ _ header (List.take header.size.toNat _) =
      pending.data.take (VideoFrameDatagram.headerSize + header.size.toNat)
    rw [hraw, List.take_take, Nat.min_self, hdata, heq, heq, ← List.append_assoc, ← List.append_assoc,
      ← hfields, List.take_length_add_append]
  next => contradiction

/-- The client accepts a string exactly if it is complete: then the datagram that it hands to a decoder
is written as the string begins. Any other string leaves all decoders as they are. -/
structure AcceptsComplete (data : List UInt8) : Prop where
  received : ∀ (now : UInt64) (heap : ℕ → UInt8),
    (receivedVideoFrame { data, now, heap }).isSome ↔ VideoFrameDatagram.Complete data
  handled : ∀ (now : UInt64) (heap : ℕ → UInt8) (dg : VideoFrameDatagram),
    receivedVideoFrame { data, now, heap } = some dg →
      ∀ s : MediaSocket, s.onReadyRead { data, now, heap } = s.handleVideoFrameDatagram dg now
  reencoded : ∀ (now : UInt64) (heap : ℕ → UInt8) (dg : VideoFrameDatagram),
    receivedVideoFrame { data, now, heap } = some dg →
      dg.toBytes = data.take (VideoFrameDatagram.headerSize + dg.size.toNat)
  unchanged : ¬ VideoFrameDatagram.Complete data → ∀ (s : MediaSocket) (now : UInt64)
    (heap : ℕ → UInt8), ∃ effects, s.onReadyRead { data, now, heap } = some (s, effects)

/-- The header of a datagram that announces five bytes, and nothing behind it. -/
def headerOnly : List UInt8 :=
  [0xAE, 0x02, 0, 0, 0, 0, 7, 0, 0, 0, 0, 0, 0, 0, 1, 0, 0, 0, 1, 0, 5]

/-- A datagram with undefined bytes in the place of the missing ones is handed to a decoder. -/
theorem acceptsComplete_headerOnly : ¬ AcceptsComplete headerOnly := by
  intro h
  have hsome := (receivedVideoFrame_isSome { data := headerOnly, now := 0, heap := fun _ => 0 }).mpr
    (by decide)
  exact absurd ((h.received 0 fun _ => 0).mp hsome) (by decide)

/-- The client accepts exactly the complete datagrams unless a string begins with the header of a video
datagram and is shorter than this header announces. -/
theorem acceptsComplete_iff (data : List UInt8) :
    AcceptsComplete data ↔ ¬ VideoFrameDatagram.Truncated data := by
  have hsplit : VideoFrameDatagram.HasHeader data ↔
      VideoFrameDatagram.Complete data ∨ VideoFrameDatagram.Truncated data := by
    rw [VideoFrameDatagram.Complete, VideoFrameDatagram.Truncated, ← and_or_left]
    exact (and_iff_left (Nat.lt_or_ge _ _).symm).symm
  constructor
  · intro h htruncated
    have hsome := (receivedVideoFrame_isSome { data, now := 0, heap := fun _ => 0 }).mpr
      (hsplit.mpr (.inr htruncated))
    have hcomplete := (h.received 0 fun _ => 0).mp hsome
    exact absurd htruncated.2 (Nat.not_lt.mpr hcomplete.2)
  · intro hnot
    have hiff : VideoFrameDatagram.HasHeader data ↔ VideoFrameDatagram.Complete data :=
      hsplit.trans (or_iff_left hnot)
    have hreceived : ∀ now heap, (receivedVideoFrame { data, now, heap }).isSome ↔
        VideoFrameDatagram.Complete data := fun now heap =>
      (receivedVideoFrame_isSome { data, now, heap }).trans hiff
    refine ⟨hreceived, fun now heap dg h => onReadyRead_of_received h, fun now heap dg h => ?_,
      fun hincomplete s now heap => ?_⟩
    · exact toBytes_of_received ((hreceived now heap).mp (by rw [h]; rfl)) h
    · have hnone : receivedVideoFrame { data, now, heap } = none := by
        rw [← Option.not_isSome_iff_eq_none, hreceived]
        exact hincomplete
      obtain ⟨effects, hstep, -⟩ := onReadyRead_of_not_received hnone s
      exact ⟨effects, hstep⟩

end MediaSocket

end Ts3Video
