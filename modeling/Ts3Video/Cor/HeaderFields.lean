import Ts3Video.Cor.Delivery

/-!
# The fields of a header

A header has five fields. The version, the type, the correlation id and the length arrive as they were sent,
however the stream is cut. The flags do not: what is sent is whatever the memory of the item held, and the
parser skips them.
-/

namespace Ts3Video

/-- The fields whose big-endian values the 13 bytes of a header are. -/
def CorFrame.ofBytes (header : List UInt8) : CorFrame :=
  { version := some (UInt16.ofNat (BigEndian.ofBytes (header.take 2)))
    type := some (UInt16.ofNat (BigEndian.ofBytes ((header.drop 2).take 2)))
    flags := some (UInt8.ofNat (BigEndian.ofBytes ((header.drop 4).take 1)))
    correlationId := some (UInt32.ofNat (BigEndian.ofBytes ((header.drop 5).take 4)))
    length := some (UInt32.ofNat (BigEndian.ofBytes ((header.drop 9).take 4))) }

/-- The big-endian value of a number that fits its width. -/
theorem ofBytes_writeNumber {width value : ℕ} (h : value < 256 ^ width) :
    BigEndian.ofBytes (writeNumber width value) = value := by
  rw [writeNumber, BigEndian.ofBytes_toBytes, Nat.mod_eq_of_lt h]

/-- The big-endian value of an 8-bit field. -/
theorem ofBytes_writeUInt8 (value : UInt8) :
    UInt8.ofNat (BigEndian.ofBytes (writeUInt8 value)) = value := by
  rw [writeUInt8, ofBytes_writeNumber value.toNat_lt, UInt8.ofNat_toNat]

/-- The big-endian value of a 16-bit field. -/
theorem ofBytes_writeUInt16 (value : UInt16) :
    UInt16.ofNat (BigEndian.ofBytes (writeUInt16 value)) = value := by
  rw [writeUInt16, ofBytes_writeNumber value.toNat_lt, UInt16.ofNat_toNat]

/-- The big-endian value of a 32-bit field. -/
theorem ofBytes_writeUInt32 (value : UInt32) :
    UInt32.ofNat (BigEndian.ofBytes (writeUInt32 value)) = value := by
  rw [writeUInt32, ofBytes_writeNumber value.toNat_lt, UInt32.ofNat_toNat]

/-- The fields of a header are those that were written. -/
theorem CorFrame.ofBytes_written (version type : UInt16) (flags : UInt8) (correlationId length : UInt32)
    {header : List UInt8} (h : header = writeUInt16 version ++ (writeUInt16 type ++ (writeUInt8 flags ++
      (writeUInt32 correlationId ++ writeUInt32 length)))) :
    CorFrame.ofBytes header =
      ⟨some version, some type, some flags, some correlationId, some length⟩ := by
  have hlength₁ : (writeUInt8 flags).length = 1 := writeNumber_length 1 _
  have hlength₂ (value : UInt16) : (writeUInt16 value).length = 2 := writeNumber_length 2 _
  have hlength₄ (value : UInt32) : (writeUInt32 value).length = 4 := writeNumber_length 4 _
  have hdrop₂ : header.drop 2 = writeUInt16 type ++ (writeUInt8 flags ++
      (writeUInt32 correlationId ++ writeUInt32 length)) := by
    rw [h, List.drop_left' (hlength₂ _)]
  have hdrop₄ : header.drop 4 = writeUInt8 flags ++ (writeUInt32 correlationId ++ writeUInt32 length) := by
    rw [← List.drop_drop (i := 2) (j := 2), hdrop₂, List.drop_left' (hlength₂ _)]
  have hdrop₅ : header.drop 5 = writeUInt32 correlationId ++ writeUInt32 length := by
    rw [← List.drop_drop (i := 1) (j := 4), hdrop₄, List.drop_left' hlength₁]
  have hdrop₉ : header.drop 9 = writeUInt32 length := by
    rw [← List.drop_drop (i := 4) (j := 5), hdrop₅, List.drop_left' (hlength₄ _)]
  rw [CorFrame.ofBytes, hdrop₂, hdrop₄, hdrop₅, hdrop₉, h, List.take_left' (hlength₂ _),
    List.take_left' (hlength₂ _), List.take_left' hlength₁, List.take_left' (hlength₄ _),
    List.take_of_length_le (hlength₄ _).le, ofBytes_writeUInt16, ofBytes_writeUInt16,
    ofBytes_writeUInt8, ofBytes_writeUInt32, ofBytes_writeUInt32]

namespace CorParser

variable {σ : Type*}

/-- The same callbacks, and a record of the headers at their ends. -/
def recording (settings : CorParserSettings σ) : CorParserSettings (σ × List CorFrame) where
  onFrameBegin := some fun parser s => (executeCallback settings.onFrameBegin parser s.1, s.2)
  onFrameHeaderBegin := some fun parser s => (executeCallback settings.onFrameHeaderBegin parser s.1, s.2)
  onFrameHeaderEnd := some fun parser s =>
    (executeCallback settings.onFrameHeaderEnd parser s.1, s.2 ++ parser.request.toList)
  onFrameBodyData := some fun parser data s =>
    (executeDataCallback settings.onFrameBodyData parser data s.1, s.2)
  onFrameBodyDataEnd := some fun parser s => (executeCallback settings.onFrameBodyDataEnd parser s.1, s.2)
  onFrameEnd := some fun parser s => (executeCallback settings.onFrameEnd parser s.1, s.2)

/-- The headers that a new parser has read in the pieces of a stream. -/
def headers (settings : CorParserSettings σ) (object : σ) (pieces : List (List UInt8)) : List CorFrame :=
  (pieces.foldl (readPiece (recording settings)) (({}, (object, [])), [])).1.2.2

variable {settings : CorParserSettings σ}

/-- Recording hands out the body as before. -/
theorem appendsBody_recording (hbody : AppendsBody settings) : AppendsBody (recording settings) :=
  fun parser parser' object first second =>
    congrArg (·, object.2) (hbody parser parser' object.1 first second)

/-- The record changes nothing in reading the body. -/
theorem readBody_recording (parser : CorParser) (s : σ × List CorFrame) (p : List UInt8) :
    readBody settings parser s.1 p =
      Prod.map (Prod.map id Prod.fst) id (readBody (recording settings) parser s p) := by
  unfold readBody
  split <;> rfl

/-- The record changes nothing in ending the frame. -/
theorem endRequest_recording (parser : CorParser) (s : σ × List CorFrame) :
    endRequest settings parser s.1 =
      Prod.map id Prod.fst (endRequest (recording settings) parser s) := by
  unfold endRequest
  split <;> rfl

/-- The record changes nothing in an iteration of the parser. -/
theorem iterate_recording (s : CorParser × σ × List CorFrame) (p : List UInt8) :
    iterate settings (Prod.map id Prod.fst s) p =
      (iterate (recording settings) s p).map (Prod.map (Prod.map id Prod.fst) id) := by
  obtain ⟨parser, object, headers⟩ := s
  unfold iterate
  simp only [Prod.map_apply, id_eq]
  split
  · rfl
  · split
    · split
      · rfl
      · unfold readField
        split <;> rfl
    · rw [readBody_recording parser (object, headers), Option.map_some]
      simp only [Prod.map_fst, Prod.map_snd, id_eq, endRequest_recording]
      rfl

/-- The record changes nothing in the run of the parser. -/
theorem foldl_recording (hbody : AppendsBody settings) (object : σ) (pieces : List (List UInt8)) :
    pieces.foldl (readPiece settings) (({}, object), []) =
      Prod.map (Prod.map id Prod.fst) id
        (pieces.foldl (readPiece (recording settings)) (({}, (object, [])), [])) := by
  rw [foldl_readPiece hbody, foldl_readPiece (appendsBody_recording hbody)]
  exact Resumable.consume_map iterate_recording (fun _ _ => rfl) ({}, (object, [])) pieces.flatten

/-- Recorded headers stay recorded. -/
theorem prefix_iterate {s s' : CorParser × σ × List CorFrame} {p rest : List UInt8} (hs : Valid s)
    (hstep : iterate (recording settings) s p = some (s', rest)) : s.2.2 <+: s'.2.2 := by
  have hbody : ∀ data, (afterBody (recording settings) s data).2.2 = s.2.2 := by
    intro data
    unfold afterBody
    split <;> rfl
  rcases iterate_cases hs hstep with ⟨-, rfl, -⟩ | ⟨field, -, -, rfl, -⟩ | ⟨-, -, rfl, -⟩ |
    ⟨-, -, rfl, -⟩
  · exact List.prefix_refl _
  · unfold readField
    split
    · exact List.prefix_append _ _
    · exact List.prefix_refl _
  · change s.2.2 <+: (afterBody (recording settings) s _).2.2
    exact (hbody _).symm ▸ List.prefix_refl _
  · exact (hbody _).symm ▸ List.prefix_refl _

section Stream

variable (hbody : AppendsBody settings)

include hbody

/-- What is recorded stays recorded while a stream is consumed. -/
theorem prefix_consume {s : CorParser × σ × List CorFrame} (hs : Valid s) (input : List UInt8) :
    s.2.2 <+: (Resumable.consume (iterate (recording settings)) rank s input).1.2.2 :=
  Resumable.consume_invariant (iterate_lawful (appendsBody_recording hbody))
    (P := fun t => s.2.2 <+: t.2.2) (fun hs hstep h => h.trans (prefix_iterate hs hstep)) hs
    (List.prefix_refl _) input

/-- A header is added to the record. -/
theorem record_header (version type : UInt16) (correlationId : UInt32) (flags : UInt8) (length : UInt32)
    (s : σ × List CorFrame) (more : List UInt8) :
    let request : CorFrame := ⟨some version, some type, none, some correlationId, some length⟩
    ∃ object, Resumable.consume (iterate (recording settings)) rank (({} : CorParser), s)
        (writeUInt16 version ++ (writeUInt16 type ++ (writeUInt8 flags ++
          (writeUInt32 correlationId ++ (writeUInt32 length ++ more))))) =
      Resumable.consume (iterate (recording settings)) rank
        ({ state := .bodyData, request := some request }, (object, s.2 ++ [request])) more :=
  ⟨_, consume_header (appendsBody_recording hbody) version type correlationId flags length s more⟩

/-- A frame adds its header to the record, once something follows the header. -/
theorem record_frame (frame : WireFrame) (s : σ × List CorFrame) {more : List UInt8}
    (hsome : frame.data ++ more ≠ []) :
    ∃ object, Resumable.consume (iterate (recording settings)) rank ({}, s) (frame.bytes ++ more) =
      Resumable.consume (iterate (recording settings)) rank ({}, (object, s.2 ++ [frame.header])) more := by
  have hlength : (UInt32.ofNat frame.data.length).toNat = frame.data.length :=
    UInt32.toNat_ofNat_of_lt' frame.size
  have hbytes : frame.bytes ++ more = writeUInt16 frame.version ++ (writeUInt16 frame.type ++
      (writeUInt8 frame.flags ++ (writeUInt32 frame.correlationId ++
        (writeUInt32 (UInt32.ofNat frame.data.length) ++ (frame.data ++ more))))) := by
    simp only [WireFrame.bytes, List.append_assoc]
  obtain ⟨object, hheader⟩ := record_header hbody frame.version frame.type frame.correlationId frame.flags
    (UInt32.ofNat frame.data.length) s (frame.data ++ more)
  rw [hbytes, hheader, consume_body (appendsBody_recording hbody) rfl _ hlength.symm hsome]
  refine ⟨_, congrArg (fun s => Resumable.consume _ _ (({} : CorParser), s) more) (Prod.ext rfl ?_)⟩
  change (afterBody (recording settings) _ _).2.2 = _
  unfold afterBody
  split <;> rfl

/-- Several frames add their headers to the record. -/
theorem record_frames (frames : List WireFrame) (s : σ × List CorFrame) {more : List UInt8}
    (hsome : more ≠ []) :
    ∃ object, Resumable.consume (iterate (recording settings)) rank ({}, s)
        (frames.flatMap WireFrame.bytes ++ more) =
      Resumable.consume (iterate (recording settings)) rank
        ({}, (object, s.2 ++ frames.map WireFrame.header)) more := by
  induction frames generalizing s with
  | nil => exact ⟨s.1, by rw [List.flatMap_nil, List.nil_append, List.map_nil, List.append_nil]⟩
  | cons frame frames ih =>
    have hmore : frame.data ++ (frames.flatMap WireFrame.bytes ++ more) ≠ [] :=
      List.append_ne_nil_of_right_ne_nil _ (List.append_ne_nil_of_right_ne_nil _ hsome)
    obtain ⟨object, hframe⟩ := record_frame hbody frame s hmore
    obtain ⟨object', hframes⟩ := ih (object, s.2 ++ [frame.header])
    refine ⟨object', ?_⟩
    rw [List.flatMap_cons, List.append_assoc, hframe, hframes, List.map_cons, List.append_assoc]
    rfl

/-- Behind any number of frames the fields of a header are recorded, all but the flags. -/
theorem headers_getElem? (object : σ) (frames : List WireFrame) {header more : List UInt8}
    {pieces : List (List UInt8)} (hheader : header.length = 13)
    (hpieces : pieces.flatten = frames.flatMap WireFrame.bytes ++ header ++ more) :
    (headers settings object pieces)[frames.length]? =
      some { CorFrame.ofBytes header with flags := none } := by
  obtain ⟨version, type, flags, correlationId, length, rest, rfl⟩ := WireFrame.exists_header hheader.ge
  have hrest : rest = [] := by
    simp only [writeUInt16, writeUInt8, writeUInt32, List.length_append, writeNumber_length] at hheader
    exact List.eq_nil_of_length_eq_zero (by omega)
  rw [hrest, List.append_nil] at hpieces ⊢
  rw [CorFrame.ofBytes_written version type flags correlationId length rfl]
  have hsome : writeUInt16 version ++ (writeUInt16 type ++ (writeUInt8 flags ++
      (writeUInt32 correlationId ++ (writeUInt32 length ++ more)))) ≠ [] :=
    List.append_ne_nil_of_left_ne_nil (List.ne_nil_of_length_pos (by simp [writeUInt16])) _
  obtain ⟨object', hframes⟩ := record_frames hbody frames (object, []) hsome
  have hread := foldl_readPiece (appendsBody_recording hbody) (object, []) pieces
  simp only [hpieces, List.append_assoc, List.nil_append] at hread hframes
  obtain ⟨last, hrequest⟩ := record_header hbody version type correlationId flags length
    (object', frames.map WireFrame.header) more
  rw [hframes, hrequest] at hread
  have hrecord : frames.map WireFrame.header ++
      [⟨some version, some type, none, some correlationId, some length⟩] <+:
        headers settings object pieces := by
    rw [headers, hread]
    exact prefix_consume hbody (valid_behind_header _ (last, frames.map WireFrame.header ++ [_])) more
  obtain ⟨later, hheaders⟩ := hrecord
  rw [← hheaders, List.append_assoc, List.getElem?_append_right (by rw [List.length_map]),
    List.length_map, Nat.sub_self]
  rfl

end Stream

end CorParser

namespace QCorConnection

open QCorConnectionPrivate CorParser

/-- Headers are recorded along the way of the connection. -/
theorem onSocketReadyRead_recording (d : QCorConnectionPrivate) (pieces : List (List UInt8)) :
    (onSocketReadyRead { d } pieces).d =
      (pieces.foldl (readPiece (recording corSettings)) (({}, (d, [])), [])).1.2.1 := by
  have hrun := foldl_recording appendsBody_corSettings d pieces
  rw [foldl_readPiece appendsBody_corSettings] at hrun
  have hread := onSocketReadyRead_eq (ready_of_idle d) pieces
  rw [Resumable.receive, List.nil_append] at hread
  exact congrArg (fun x => x.1.2) (hread.trans hrun)

/-- An item is written as a frame of the same fields. Without its flags the parser keeps them. -/
theorem exists_wireFrame {item : SendQueueItem} (hitem : IsFrame item) :
    ∃ frame : WireFrame, write item = frame.bytes ∧ frame.header = { item.frame with flags := none } := by
  obtain ⟨type, correlationId, flags, data, -, rfl⟩ := hitem
  have hle : (UInt32.ofNat data.length).toNat ≤ data.length := by
    rw [UInt32.toNat_ofNat']
    exact Nat.mod_le _ _
  have hlength : (data.take (UInt32.ofNat data.length).toNat).length = (UInt32.ofNat data.length).toNat := by
    rw [List.length_take, Nat.min_eq_left hle]
  have hfield : UInt32.ofNat (data.take (UInt32.ofNat data.length).toNat).length =
      UInt32.ofNat data.length := by
    rw [hlength, UInt32.ofNat_toNat]
  refine ⟨⟨1, type, flags, correlationId, data.take (UInt32.ofNat data.length).toNat, ?_⟩, ?_, ?_⟩
  · rw [hlength]
    exact UInt32.toNat_lt _
  · simp only [write, newItem, WireFrame.bytes, hfield, Option.getD_some]
  · simp only [WireFrame.header, newItem, hfield]

/-- Items are written as frames. -/
theorem exists_wireFrames {items : List SendQueueItem} (hitems : ∀ item ∈ items, IsFrame item) :
    ∃ frames : List WireFrame, items.flatMap write = frames.flatMap WireFrame.bytes ∧
      frames.length = items.length := by
  induction items with
  | nil => exact ⟨[], rfl, rfl⟩
  | cons item items ih =>
    obtain ⟨frames, hbytes, hlength⟩ := ih fun later hlater =>
      hitems later (List.mem_cons_of_mem _ hlater)
    obtain ⟨frame, hwrite, -⟩ := exists_wireFrame (hitems item List.mem_cons_self)
    refine ⟨frame :: frames, ?_, congrArg (· + 1) hlength⟩
    rw [List.flatMap_cons, List.flatMap_cons, hbytes, hwrite]

/-- The 13 bytes of a header. -/
theorem take_write (type : UInt16) (correlationId : UInt32) (flags : UInt8) (data : List UInt8) :
    (write (newItem type correlationId flags data)).take 13 =
      writeUInt16 1 ++ (writeUInt16 type ++ (writeUInt8 flags ++
        (writeUInt32 correlationId ++ writeUInt32 (UInt32.ofNat data.length)))) := by
  have hlength : (writeUInt16 1 ++ (writeUInt16 type ++ (writeUInt8 flags ++
      (writeUInt32 correlationId ++ writeUInt32 (UInt32.ofNat data.length))))).length = 13 := by
    simp only [writeUInt16, writeUInt8, writeUInt32, List.length_append, writeNumber_length]
  have hwrite : write (newItem type correlationId flags data) =
      writeUInt16 1 ++ (writeUInt16 type ++ (writeUInt8 flags ++
        (writeUInt32 correlationId ++ writeUInt32 (UInt32.ofNat data.length)))) ++
          data.take (UInt32.ofNat data.length).toNat := by
    simp only [write, newItem, Option.getD_some, List.append_assoc]
  rw [hwrite, List.take_left' hlength]

/-- A header is written as a whole. -/
theorem take_write_length {item : SendQueueItem} (hitem : IsFrame item) :
    ((write item).take 13).length = 13 := by
  obtain ⟨type, correlationId, flags, data, -, rfl⟩ := hitem
  rw [take_write]
  simp only [writeUInt16, writeUInt8, writeUInt32, List.length_append, writeNumber_length]

/-- The header bytes of an item are its fields. -/
theorem ofBytes_take_write {item : SendQueueItem} (hitem : IsFrame item) :
    CorFrame.ofBytes ((write item).take 13) = item.frame := by
  obtain ⟨type, correlationId, flags, data, -, rfl⟩ := hitem
  exact CorFrame.ofBytes_written _ _ _ _ _ (take_write type correlationId flags data)

/-- What is sent of the flags is what the memory of the item held. -/
theorem take_write_eq_iff (type : UInt16) (correlationId : UInt32) (flags flags' : UInt8)
    {data data' : List UInt8} (hlength : data.length = data'.length) :
    (write (newItem type correlationId flags data)).take 13 =
      (write (newItem type correlationId flags' data')).take 13 ↔ flags = flags' := by
  have hfields (flags : UInt8) (data : List UInt8) :
      CorFrame.ofBytes ((write (newItem type correlationId flags data)).take 13) =
        ⟨some 1, some type, some flags, some correlationId, some (UInt32.ofNat data.length)⟩ :=
    CorFrame.ofBytes_written _ _ _ _ _ (take_write type correlationId flags data)
  constructor
  · intro h
    have hsame := congrArg CorFrame.ofBytes h
    rw [hfields, hfields] at hsame
    exact Option.some.inj (congrArg CorFrame.flags hsame)
  · rintro rfl
    rw [take_write, take_write, hlength]

/-- The headers of the frames that a connection has sent are recorded, all but the flags. -/
theorem headers_sent {events : List Event} {s : QCorConnection} {out : List Output}
    (hrun : Runs.run step {} events = some (s, out)) (d : QCorConnectionPrivate)
    {pieces : List (List UInt8)} (hpieces : pieces.flatten <+: written out)
    {before after : List SendQueueItem} {item : SendQueueItem}
    (hsplit : accepted out = before ++ item :: after)
    (hlength : (before.flatMap write).length + 13 ≤ pieces.flatten.length) :
    (headers corSettings d pieces)[before.length]? = some { item.frame with flags := none } := by
  obtain ⟨hitems, hwritten⟩ := run_written (ready_of_idle _) hrun
  rw [hsplit] at hitems hwritten
  have hitem : IsFrame item := hitems item (List.mem_append_right _ List.mem_cons_self)
  obtain ⟨frames, hframes, hcount⟩ := exists_wireFrames fun earlier hearlier =>
    hitems earlier (List.mem_append_left _ hearlier)
  have hheader := take_write_length hitem
  have hall : written out <+: before.flatMap write ++ (write item ++ after.flatMap write) := by
    rw [← List.flatMap_cons, ← List.flatMap_append]
    exact ⟨_, hwritten⟩
  have hsent : before.flatMap write ++ (write item).take 13 <+:
      before.flatMap write ++ (write item ++ after.flatMap write) :=
    (List.prefix_append_right_inj _).mpr ((List.take_prefix _ _).trans (List.prefix_append _ _))
  have hread : before.flatMap write ++ (write item).take 13 <+: pieces.flatten := by
    refine List.prefix_of_prefix_length_le hsent (hpieces.trans hall) ?_
    rw [List.length_append, hheader]
    exact hlength
  obtain ⟨rest, hstream⟩ := hread
  rw [hframes] at hstream
  have hrecorded := headers_getElem? appendsBody_corSettings d frames hheader hstream.symm
  rw [hcount, ofBytes_take_write hitem] at hrecorded
  exact hrecorded

/-- No header arrives as it was sent. Headers are recorded while the connection reads as it does without the
record. Behind any number of frames the fields of the 13 bytes are recorded without the flags, as are those of
every frame that a connection has sent, and the 13 bytes of a frame are those of another of the same type,
correlation id and length only when the memory of both held the same. -/
theorem header_never_exact (d : QCorConnectionPrivate) (pieces : List (List UInt8)) :
    (onSocketReadyRead { d } pieces).d =
      (pieces.foldl (readPiece (recording corSettings)) (({}, (d, [])), [])).1.2.1 ∧
    (∀ (frames : List WireFrame) (header more : List UInt8), header.length = 13 →
      pieces.flatten = frames.flatMap WireFrame.bytes ++ header ++ more →
        (headers corSettings d pieces)[frames.length]? =
            some { CorFrame.ofBytes header with flags := none } ∧
          (headers corSettings d pieces)[frames.length]? ≠ some (CorFrame.ofBytes header)) ∧
    (∀ events s out, Runs.run step {} events = some (s, out) → pieces.flatten <+: written out →
      ∀ before item after, accepted out = before ++ item :: after →
        (before.flatMap write).length + 13 ≤ pieces.flatten.length →
          (∃ type correlationId flags, item.frame =
              ⟨some 1, some type, some flags, some correlationId, some (UInt32.ofNat item.data.length)⟩ ∧
            (headers corSettings d pieces)[before.length]? =
              some ⟨some 1, some type, none, some correlationId, some (UInt32.ofNat item.data.length)⟩) ∧
          (headers corSettings d pieces)[before.length]? ≠ some item.frame) ∧
    ∀ type correlationId flags flags' data data', data.length = data'.length →
      ((write (newItem type correlationId flags data)).take 13 =
        (write (newItem type correlationId flags' data')).take 13 ↔ flags = flags') := by
  refine ⟨onSocketReadyRead_recording d pieces, ?_, ?_,
    fun type correlationId flags flags' data data' hlength =>
      take_write_eq_iff type correlationId flags flags' hlength⟩
  · intro frames header more hheader hpieces
    have hrecorded := headers_getElem? appendsBody_corSettings d frames hheader hpieces
    refine ⟨hrecorded, fun h => ?_⟩
    have hflags := congrArg CorFrame.flags (Option.some.inj (hrecorded.symm.trans h))
    contradiction
  · intro events s out hrun hpieces before item after hsplit hlength
    have hrecorded := headers_sent hrun d hpieces hsplit hlength
    have hitem : IsFrame item := by
      refine (run_written (ready_of_idle _) hrun).1 item ?_
      rw [hsplit]
      exact List.mem_append_right _ List.mem_cons_self
    obtain ⟨type, correlationId, flags, data, -, rfl⟩ := hitem
    refine ⟨⟨type, correlationId, flags, rfl, hrecorded⟩, fun h => ?_⟩
    have hflags := congrArg CorFrame.flags (Option.some.inj (hrecorded.symm.trans h))
    contradiction

/-- A request that is read in two pieces. -/
theorem header_never_exact_request :
    (headers corSettings {} [(write (newItem COR_FRAME_TYPE_REQUEST 1 7 [1, 2])).take 6,
        (write (newItem COR_FRAME_TYPE_REQUEST 1 7 [1, 2])).drop 6])[0]? ≠
      some (newItem COR_FRAME_TYPE_REQUEST 1 7 [1, 2]).frame := by
  have hrun : Runs.run step {} [.sendRequest 7 [1, 2]] =
      some (_, [.accepted (newItem COR_FRAME_TYPE_REQUEST 1 7 [1, 2]),
        .written (write (newItem COR_FRAME_TYPE_REQUEST 1 7 [1, 2]))]) := rfl
  exact ((header_never_exact {} _).2.2.1 _ _ _ hrun (by decide) [] _ [] rfl (by decide)).2

/-- The flags of a request are lost on the way, and what is sent of them was never set. -/
theorem header_flagsLost :
    headers corSettings {} [write (newItem COR_FRAME_TYPE_REQUEST 1 7 [1, 2])] =
        [⟨some 1, some COR_FRAME_TYPE_REQUEST, none, some 1, some 2⟩] ∧
      headers corSettings {} [write (newItem COR_FRAME_TYPE_REQUEST 1 7 [1, 2])] ≠
        [(newItem COR_FRAME_TYPE_REQUEST 1 7 [1, 2]).frame] ∧
      (write (newItem COR_FRAME_TYPE_REQUEST 1 7 [1, 2])).take 13 ≠
        (write (newItem COR_FRAME_TYPE_REQUEST 1 8 [1, 2])).take 13 := by
  decide +kernel

end QCorConnection

end Ts3Video
