import Ts3Video.Cor.Chunking

/-!
# The frames of a stream

A stream consists of frames with any header and the beginning of one more. The parser consumes the header
of a frame field by field and then its body, and the connection delivers the frames one after the other.
What it has read of the last one is in its parser, and it does not depend on anything that the connection
keeps for sending or for the replies.
-/

namespace Ts3Video

open Std QCorConnectionPrivate

/-- A frame on the wire. Its length fits into the header. -/
@[ext] structure WireFrame where
  version : UInt16
  type : UInt16
  flags : UInt8
  correlationId : UInt32
  data : List UInt8
  size : data.length < 2 ^ 32

namespace WireFrame

/-- The bytes of a frame. -/
def bytes (frame : WireFrame) : List UInt8 :=
  writeUInt16 frame.version ++ (writeUInt16 frame.type ++ (writeUInt8 frame.flags ++
    (writeUInt32 frame.correlationId ++ (writeUInt32 (UInt32.ofNat frame.data.length) ++ frame.data))))

/-- The header as the parser keeps it. -/
def header (frame : WireFrame) : CorFrame :=
  ⟨some frame.version, some frame.type, none, some frame.correlationId,
    some (UInt32.ofNat frame.data.length)⟩

/-- The frame as the application sees it. -/
def toQCorFrame (frame : WireFrame) : QCorFrame where
  type := if frame.type = COR_FRAME_TYPE_RESPONSE then .ResponseType else .RequestType
  correlationId := some frame.correlationId
  data := frame.data

/-- The length of a header is fixed. -/
theorem bytes_length (frame : WireFrame) : frame.bytes.length = 13 + frame.data.length := by
  simp only [bytes, writeUInt16, writeUInt8, writeUInt32, List.length_append, writeNumber_length]
  omega

/-- A stream that is long enough begins with a header. -/
theorem exists_header {stream : List UInt8} (h : 13 ≤ stream.length) :
    ∃ version type flags correlationId length rest,
      stream = writeUInt16 version ++ (writeUInt16 type ++ (writeUInt8 flags ++
        (writeUInt32 correlationId ++ (writeUInt32 length ++ rest)))) := by
  obtain ⟨version, stream, rfl, h₁⟩ := exists_writeUInt16 (n := 11) h
  obtain ⟨type, stream, rfl, h₂⟩ := exists_writeUInt16 (n := 9) h₁
  obtain ⟨flags, stream, rfl, h₃⟩ := exists_writeUInt8 (n := 8) h₂
  obtain ⟨correlationId, stream, rfl, h₄⟩ := exists_writeUInt32 (n := 4) h₃
  obtain ⟨length, rest, rfl, -⟩ := exists_writeUInt32 (n := 0) h₄
  exact ⟨version, type, flags, correlationId, length, rest, rfl⟩

/-- A frame can be told from what follows it. -/
theorem bytes_append_inj {first second : WireFrame} {rest more : List UInt8}
    (h : first.bytes ++ rest = second.bytes ++ more) : first = second ∧ rest = more := by
  simp only [bytes, List.append_assoc] at h
  have hversion := congrArg readUInt16 h
  rw [readUInt16_writeUInt16, readUInt16_writeUInt16, Prod.mk.injEq] at hversion
  have htype := congrArg readUInt16 hversion.2
  rw [readUInt16_writeUInt16, readUInt16_writeUInt16, Prod.mk.injEq] at htype
  have hflags := congrArg readUInt8 htype.2
  rw [readUInt8_writeUInt8, readUInt8_writeUInt8, Prod.mk.injEq] at hflags
  have hcorrelationId := congrArg readUInt32 hflags.2
  rw [readUInt32_writeUInt32, readUInt32_writeUInt32, Prod.mk.injEq] at hcorrelationId
  have hlength := congrArg readUInt32 hcorrelationId.2
  rw [readUInt32_writeUInt32, readUInt32_writeUInt32, Prod.mk.injEq] at hlength
  have hsize := congrArg UInt32.toNat hlength.1
  rw [UInt32.toNat_ofNat_of_lt' first.size, UInt32.toNat_ofNat_of_lt' second.size] at hsize
  obtain ⟨hdata, hrest⟩ := List.append_inj hlength.2 hsize
  exact ⟨WireFrame.ext hversion.1 htype.1 hflags.1 hcorrelationId.1 hdata, hrest⟩

end WireFrame

/-- The frame that is delivered. -/
def Delivery.frame : Delivery → Option QCorFrame
  | .newIncomingRequest frame => frame
  | .finished _ frame => frame
  | .dropped frame => frame

namespace QCorConnection

/-- What an idle parser makes of some input. -/
abbrev consumeIdle (d : QCorConnectionPrivate) (input : List UInt8) :
    (CorParser × QCorConnectionPrivate) × List UInt8 :=
  Resumable.consume (CorParser.iterate corSettings) CorParser.rank ({}, d) input

/-- What a parser makes of some input that was stopped somewhere inside of a frame. -/
abbrev consumeFrom (state : CorParser.State) (request : CorFrame) (d : QCorConnectionPrivate)
    (input : List UInt8) : (CorParser × QCorConnectionPrivate) × List UInt8 :=
  Resumable.consume (CorParser.iterate corSettings) CorParser.rank
    ({ state, request := some request }, d) input

/-- The parser consumes the header of a frame. The flags are skipped. -/
theorem consume_header (version type : UInt16) (correlationId : UInt32) (flags : UInt8)
    (length : UInt32) (d : QCorConnectionPrivate) (more : List UInt8) :
    consumeIdle d (writeUInt16 version ++ (writeUInt16 type ++ (writeUInt8 flags ++
        (writeUInt32 correlationId ++ (writeUInt32 length ++ more))))) =
      consumeFrom .bodyData ⟨some version, some type, none, some correlationId, some length⟩
        (onParserFrameHeaderEnd
          { state := .bodyData
            request := some ⟨some version, some type, none, some correlationId, some length⟩ }
          { d with frame := some {} }) more :=
  CorParser.consume_header appendsBody_corSettings version type correlationId flags length d more

/-- The parser consumes a body that is there as a whole, provided that it is run at all. -/
theorem consume_body {request : CorFrame} {length : UInt32} (hrequest : request.length = some length)
    (d : QCorConnectionPrivate) {data : List UInt8} (hlength : data.length = length.toNat)
    {more : List UInt8} (hsome : data ++ more ≠ []) :
    consumeFrom .bodyData request d (data ++ more) =
      Resumable.consume (CorParser.iterate corSettings) CorParser.rank
        (CorParser.afterFrame corSettings
          ({ state := .bodyData, request := some request }, d) data) more :=
  CorParser.consume_body appendsBody_corSettings hrequest d hlength hsome

/-- The private part behind a frame that was received as a whole. -/
def receiveFrame (d : QCorConnectionPrivate) (frame : WireFrame) : QCorConnectionPrivate :=
  onParserFrameEnd { request := some frame.header } { d with frame := some frame.toQCorFrame }

/-- The parser has not noticed the end of a frame in this stream: if there is one, then it is the end of
the stream, and the frame has no body. -/
def Unfinished (stream : List UInt8) : Prop :=
  ∀ (frame : WireFrame) (rest : List UInt8), stream = frame.bytes ++ rest → frame.data ++ rest = []

/-- The frame in progress and the deliveries of one private part in the place of those of another. -/
def withFrame (other d : QCorConnectionPrivate) : QCorConnectionPrivate :=
  { other with frame := d.frame, delivered := d.delivered }

/-- The bytes of the header in front of the field that is read in a state. -/
def bytesBefore : CorParser.State → ℕ
  | .headerType => 2
  | .headerFlags => 4
  | .headerCorrelationId => 5
  | .headerBodyLength => 9
  | .headerEnd | .bodyData => 13
  | _ => 0

variable {s s' : CorParser × QCorConnectionPrivate} {input rest : List UInt8}

/-- The end of a frame looks at the type and the correlation id of the header only. -/
theorem onParserFrameEnd_congr {parser parser' : CorParser} (h : parser.request = parser'.request)
    (d : QCorConnectionPrivate) : onParserFrameEnd parser d = onParserFrameEnd parser' d := by
  rw [onParserFrameEnd, onParserFrameEnd, h]

/-- Behind the header a frame has its kind and its correlation id. -/
theorem onParserFrameHeaderEnd_frame (frame : WireFrame) (d : QCorConnectionPrivate)
    {state : CorParser.State} :
    onParserFrameHeaderEnd { state, request := some frame.header } { d with frame := some {} } =
      { d with frame := some { frame.toQCorFrame with data := [] } } := by
  simp only [onParserFrameHeaderEnd, WireFrame.header, WireFrame.toQCorFrame, Option.bind_some,
    Option.map_some, Option.some.injEq]
  by_cases hrequest : frame.type = COR_FRAME_TYPE_REQUEST
  · rw [if_pos hrequest, hrequest]
    rfl
  · rw [if_neg hrequest]

/-- The body is collected in the frame. -/
theorem afterBody_frame (frame : WireFrame) (d : QCorConnectionPrivate) :
    (CorParser.afterBody corSettings ({ state := .bodyData, request := some frame.header },
        { d with frame := some { frame.toQCorFrame with data := [] } }) frame.data).2 =
      { d with frame := some frame.toQCorFrame } := by
  have hlength : (UInt32.ofNat frame.data.length).toNat = frame.data.length :=
    UInt32.toNat_ofNat_of_lt' frame.size
  change (if 0 < (UInt32.ofNat frame.data.length).toNat then _ else _) = _
  split
  · rfl
  next hzero =>
    have hempty : frame.data = [] := List.eq_nil_of_length_eq_zero (by omega)
    rw [WireFrame.toQCorFrame, hempty]

/-- A frame whose end is noticed is received, and the parser is idle again. -/
theorem consume_frame (frame : WireFrame) (d : QCorConnectionPrivate) {more : List UInt8}
    (hsome : frame.data ++ more ≠ []) :
    consumeIdle d (frame.bytes ++ more) = consumeIdle (receiveFrame d frame) more := by
  have hlength : (UInt32.ofNat frame.data.length).toNat = frame.data.length :=
    UInt32.toNat_ofNat_of_lt' frame.size
  have hheader := consume_header frame.version frame.type frame.correlationId frame.flags
    (UInt32.ofNat frame.data.length) d (frame.data ++ more)
  have hbytes : frame.bytes ++ more = writeUInt16 frame.version ++ (writeUInt16 frame.type ++
      (writeUInt8 frame.flags ++ (writeUInt32 frame.correlationId ++
        (writeUInt32 (UInt32.ofNat frame.data.length) ++ (frame.data ++ more))))) := by
    simp only [WireFrame.bytes, List.append_assoc]
  have hend : CorParser.afterFrame corSettings
      ({ state := .bodyData, request := some frame.header },
        { d with frame := some { frame.toQCorFrame with data := [] } }) frame.data =
      ({}, receiveFrame d frame) := by
    rw [CorParser.afterFrame, afterBody_frame]
    exact congrArg (Prod.mk ({} : CorParser)) (onParserFrameEnd_congr rfl _)
  rw [hbytes, hheader]
  change consumeFrom .bodyData frame.header (onParserFrameHeaderEnd
    { state := .bodyData, request := some frame.header } _) _ = _
  rw [onParserFrameHeaderEnd_frame, consume_body rfl _ hlength.symm hsome, hend]

/-- The end of a frame adds one delivery. -/
theorem delivered_onParserFrameEnd (parser : CorParser) (d : QCorConnectionPrivate) :
    ∃ delivery, (onParserFrameEnd parser d).delivered = d.delivered ++ [delivery] := by
  simp only [onParserFrameEnd]
  split
  · exact ⟨_, rfl⟩
  · split
    · exact ⟨_, rfl⟩
    · exact ⟨_, rfl⟩

/-- An iteration ends a frame, or it delivers nothing and depends on the frame in progress alone. -/
theorem iterate_delivered (hs : CorParser.Valid s)
    (hstep : CorParser.iterate corSettings s input = some (s', rest))
    (other : QCorConnectionPrivate) :
    s'.2.delivered.length = s.2.delivered.length + 1 ∨
      s'.2.delivered = s.2.delivered ∧
        CorParser.iterate corSettings (s.1, withFrame other s.2) input =
          some ((s'.1, withFrame other s'.2), rest) := by
  rcases CorParser.iterate_cases hs hstep with ⟨hnone, rfl, rfl⟩ | ⟨field, hfield, hsize, rfl, rfl⟩ |
    ⟨hdata, hwhole, rfl, rfl⟩ | ⟨hdata, hcut, rfl, rfl⟩
  · have hother := @CorParser.iterate_of_none _ corSettings (s.1, withFrame other s.2) hnone rest
    exact .inr ⟨rfl, hother⟩
  · refine .inr ?_
    have hother := @CorParser.iterate_of_field _ corSettings (s.1, withFrame other s.2) _ hfield
      input hsize
    rw [hother]
    unfold CorParser.readField
    dsimp only
    split
    · exact ⟨rfl, rfl⟩
    · exact ⟨rfl, rfl⟩
  · left
    obtain ⟨delivery, hdelivered⟩ := delivered_onParserFrameEnd
      (CorParser.afterBody corSettings s (input.take s.1.bodyLeft)).1
      (CorParser.afterBody corSettings s (input.take s.1.bodyLeft)).2
    have hbody : (CorParser.afterBody corSettings s (input.take s.1.bodyLeft)).2.delivered =
        s.2.delivered := by
      unfold CorParser.afterBody
      split
      · rfl
      · rfl
    change (onParserFrameEnd _ (CorParser.afterBody corSettings s _).2).delivered.length = _
    rw [hdelivered, hbody, List.length_append, List.length_singleton]
  · refine .inr ?_
    have hother := @CorParser.iterate_of_cut_body _ corSettings (s.1, withFrame other s.2) hdata
      input hcut
    rw [hother]
    unfold CorParser.afterBody
    split
    · exact ⟨rfl, rfl⟩
    · exact ⟨rfl, rfl⟩

/-- Reading never takes deliveries back, and if it delivers nothing, it depends on the frame in progress
alone. -/
theorem consume_delivered (hs : CorParser.Valid s) (input : List UInt8)
    (other : QCorConnectionPrivate) {x : (CorParser × QCorConnectionPrivate) × List UInt8}
    (hx : Resumable.consume (CorParser.iterate corSettings) CorParser.rank s input = x) :
    s.2.delivered.length ≤ x.1.2.delivered.length ∧ (x.1.2.delivered = s.2.delivered →
      Resumable.consume (CorParser.iterate corSettings) CorParser.rank
        (s.1, withFrame other s.2) input = ((x.1.1, withFrame other x.1.2), x.2)) := by
  subst hx
  refine Resumable.consume_induction parser_lawful (P := fun s input x =>
    s.2.delivered.length ≤ x.1.2.delivered.length ∧ (x.1.2.delivered = s.2.delivered →
      Resumable.consume (CorParser.iterate corSettings) CorParser.rank
        (s.1, withFrame other s.2) input = ((x.1.1, withFrame other x.1.2), x.2))) ?_ ?_ hs input
  · rintro s input hs (rfl | hnone)
    · exact ⟨Nat.le_refl _, fun _ => Resumable.consume_nil _⟩
    · obtain ⟨field, hfield, hcut⟩ := CorParser.iterate_eq_none hs hnone
      have hother : CorParser.iterate corSettings (s.1, withFrame other s.2) input = none :=
        CorParser.iterate_of_cut_field (s := (s.1, withFrame other s.2)) hfield hcut
      exact ⟨Nat.le_refl _, fun _ => Resumable.consume_of_none hother⟩
  · intro s input s' rest x hs hinput hstep ih
    obtain ⟨hle, hsame⟩ := ih
    rcases iterate_delivered hs hstep other with hend | ⟨hnothing, hother⟩
    · refine ⟨by omega, fun heq => ?_⟩
      rw [heq] at hle
      omega
    · refine ⟨hnothing ▸ hle, fun heq => ?_⟩
      have hvalid : CorParser.Valid (s.1, withFrame other s.2) := hs
      rw [Resumable.consume_of_some parser_lawful hvalid hinput hother,
        hsame (heq.trans hnothing.symm)]

/-- Each header field takes its bytes. -/
theorem bytesBefore_nextState {state : CorParser.State} {field : CorParser.HeaderField}
    (h : CorParser.headerField state = some field) :
    bytesBefore field.nextState = bytesBefore state + field.fieldSize := by
  cases state <;> simp only [CorParser.headerField, reduceCtorEq, Option.some.injEq] at h
  all_goals
    subst h
    rfl

/-- Nothing is delivered of a stream that ends inside of a header. -/
theorem consume_short (hs : CorParser.Valid s) (input : List UInt8)
    (hshort : bytesBefore s.1.state + input.length < 13) :
    (Resumable.consume (CorParser.iterate corSettings) CorParser.rank s input).1.2.delivered =
      s.2.delivered := by
  refine Resumable.consume_induction parser_lawful (P := fun s input x =>
    bytesBefore s.1.state + input.length < 13 → x.1.2.delivered = s.2.delivered)
    (fun _ _ _ => rfl) ?_ hs input hshort
  intro s input s' rest x hs hinput hstep ih hshort
  rcases CorParser.iterate_cases hs hstep with ⟨hnone, rfl, rfl⟩ | ⟨field, hfield, hsize, rfl, rfl⟩ |
    ⟨hdata, -, -, -⟩ | ⟨hdata, -, -, -⟩
  · rw [hnone] at hshort
    exact ih hshort
  · have hnext := bytesBefore_nextState hfield
    have hsame : (CorParser.readField corSettings field s.1 s.2 input).2.delivered =
        s.2.delivered := by
      unfold CorParser.readField
      split
      · rfl
      · rfl
    rw [← hsame]
    refine ih ?_
    rw [CorParser.readField_fst, hnext, List.length_drop]
    omega
  · rw [hdata] at hshort
    exact absurd hshort (Nat.not_lt.mpr (Nat.le_add_right 13 _))
  · rw [hdata] at hshort
    exact absurd hshort (Nat.not_lt.mpr (Nat.le_add_right 13 _))

/-- Nothing is delivered of a body that is cut off, or of nothing at all. -/
theorem consume_cut_body {request : CorFrame} {length : UInt32} (hrequest : request.length = some length)
    (d : QCorConnectionPrivate) {body : List UInt8} (hcut : body = [] ∨ body.length < length.toNat) :
    (consumeFrom .bodyData request d body).1.2.delivered = d.delivered := by
  by_cases hbody : body = []
  · rw [hbody, consumeFrom, Resumable.consume_nil]
  · have hlt := hcut.resolve_left hbody
    have hleft : body.length < CorParser.bodyLeft { state := .bodyData, request := some request } := by
      rwa [CorParser.bodyLeft, CorParser.requestLength, Option.bind_some, hrequest, Option.map_some,
        Option.getD_some, Nat.sub_zero]
    rw [consumeFrom, Resumable.consume_of_some parser_lawful (CorParser.valid_behind_header request d) hbody
      (CorParser.iterate_of_cut_body rfl hleft), Resumable.consume_nil]
    unfold CorParser.afterBody
    split
    · rfl
    · rfl

/-- Nothing is delivered of a stream in which no frame has ended. -/
theorem Unfinished.nothing_delivered {stream : List UInt8} (h : Unfinished stream)
    (d : QCorConnectionPrivate) : (consumeIdle d stream).1.2.delivered = d.delivered := by
  rcases Nat.lt_or_ge stream.length 13 with hshort | hlong
  · have hstart : bytesBefore CorParser.State.none + stream.length < 13 := by
      change 0 + stream.length < 13
      omega
    exact consume_short (CorParser.valid_idle d) stream hstart
  · obtain ⟨version, type, flags, correlationId, length, body, rfl⟩ := WireFrame.exists_header hlong
    rw [consume_header]
    refine consume_cut_body rfl _ ?_
    by_contra hwhole
    rw [not_or, Nat.not_lt] at hwhole
    have hlength : (body.take length.toNat).length = length.toNat := List.length_take_of_le hwhole.2
    have hframe := h ⟨version, type, flags, correlationId, body.take length.toNat, by
      rw [hlength]
      exact length.toNat_lt⟩ (body.drop length.toNat) (by
        simp only [WireFrame.bytes, hlength, UInt32.ofNat_toNat, List.append_assoc,
          List.take_append_drop])
    exact hwhole.1 ((List.take_append_drop length.toNat body).symm.trans hframe)

/-- No frame is in progress behind frames that were received as a whole. -/
theorem foldl_receiveFrame_frame (frames : List WireFrame) {d : QCorConnectionPrivate}
    (hidle : d.frame = none) :
    (frames.foldl receiveFrame d).frame = none := by
  induction frames generalizing d with
  | nil => exact hidle
  | cons frame frames ih =>
    refine ih ?_
    unfold receiveFrame onParserFrameEnd
    dsimp only
    split
    · rfl
    · split <;> rfl

/-- A stream is cut into the frames whose ends are noticed and an unfinished rest. The connection receives
the frames one after the other and then reads the rest. -/
theorem exists_frames (stream : List UInt8) :
    ∃ (frames : List WireFrame) (tail : List UInt8), stream = frames.flatMap WireFrame.bytes ++ tail ∧
      Unfinished tail ∧ ∀ d, consumeIdle d stream = consumeIdle (frames.foldl receiveFrame d) tail := by
  induction hlength : stream.length using Nat.strongRecOn generalizing stream with
  | ind n ih =>
    by_cases hunfinished : Unfinished stream
    · exact ⟨[], stream, rfl, hunfinished, fun _ => rfl⟩
    · unfold Unfinished at hunfinished
      push Not at hunfinished
      obtain ⟨frame, rest, rfl, hsome⟩ := hunfinished
      have hshorter : rest.length < n := by
        rw [← hlength, List.length_append, frame.bytes_length]
        omega
      obtain ⟨frames, tail, rfl, htail, hconsume⟩ := ih rest.length hshorter rest rfl
      refine ⟨frame :: frames, tail, by rw [List.flatMap_cons, List.append_assoc], htail, fun d => ?_⟩
      rw [consume_frame frame d hsome, hconsume]
      rfl

/-- A private part that reads an unfinished stream changes in its frame in progress alone. -/
theorem Unfinished.consume_frame_only {stream : List UInt8} (h : Unfinished stream)
    {d : QCorConnectionPrivate} (hidle : d.frame = none)
    {x : (CorParser × QCorConnectionPrivate) × List UInt8} (hx : consumeIdle d stream = x) :
    { x.1.2 with frame := none } = d := by
  have hnothing := h.nothing_delivered d
  rw [hx] at hnothing
  have hsame := (consume_delivered (CorParser.valid_idle d) stream d hx).2 hnothing
  have heq : x = ((x.1.1, withFrame d x.1.2), x.2) := hx.symm.trans hsame
  have hd : x.1.2 = withFrame d x.1.2 := congrArg (fun x => x.1.2) heq
  rw [hd, withFrame, hnothing, ← hidle]

/-- What a connection reads of an unfinished stream does not depend on the rest of its private part. -/
theorem Unfinished.consume_other {stream : List UInt8} (h : Unfinished stream)
    {parser : CorParser} {d other : QCorConnectionPrivate} {buffer : List UInt8}
    (hx : consumeIdle { d with frame := none } stream = ((parser, d), buffer))
    (hframe : other.frame = d.frame) (hdelivered : other.delivered = d.delivered) :
    consumeIdle { other with frame := none } stream = ((parser, other), buffer) := by
  have hnothing := h.nothing_delivered { d with frame := none }
  rw [hx] at hnothing
  have hsame := (consume_delivered (CorParser.valid_idle _) stream other hx).2 hnothing
  have hstart : withFrame other { d with frame := none } = { other with frame := none } := by
    rw [withFrame, ← hdelivered]
  have hend : withFrame other d = other := by
    rw [withFrame, ← hdelivered, ← hframe]
  rw [consumeIdle, ← hstart, hsame, hend]

/-- A part of a stream in which no frame has ended is no longer than the next frame. -/
theorem Unfinished.length_le {tail bytes rest : List UInt8} (h : Unfinished tail) {frame : WireFrame}
    (heq : tail ++ bytes = frame.bytes ++ rest) :
    tail.length < frame.bytes.length ∨ tail = frame.bytes := by
  rcases List.append_eq_append_iff.mp heq with ⟨more, hframe, -⟩ | ⟨more, htail, -⟩
  · rcases more with _ | ⟨byte, more⟩
    · exact .inr (by rw [hframe, List.append_nil])
    · left
      rw [hframe, List.length_append, List.length_cons]
      omega
  · have hempty := h frame more htail
    rw [(List.append_eq_nil_iff.mp hempty).2, List.append_nil] at htail
    exact .inr htail

/-- What a connection has read behind the last frame end that it noticed. -/
structure InProgress (tail : List UInt8) (parser : CorParser) (d : QCorConnectionPrivate)
    (buffer : List UInt8) : Prop where
  unfinished : Unfinished tail
  parsed : consumeIdle { d with frame := none } tail = ((parser, d), buffer)

variable {tail buffer buffer' : List UInt8} {parser parser' : CorParser} {d d' : QCorConnectionPrivate}

/-- Nothing has been read. -/
theorem InProgress.init (hidle : d.frame = none) : InProgress [] {} d [] := by
  refine ⟨fun frame rest hempty => ?_, ?_⟩
  · have hlength := congrArg List.length hempty
    rw [List.length_append, frame.bytes_length, List.length_nil] at hlength
    omega
  · rw [← hidle]
    exact Resumable.consume_nil _

/-- The rest of the private part does not matter. -/
theorem InProgress.other (h : InProgress tail parser d buffer) (hframe : d'.frame = d.frame)
    (hdelivered : d'.delivered = d.delivered) : InProgress tail parser d' buffer :=
  ⟨h.unfinished, h.unfinished.consume_other h.parsed hframe hdelivered⟩

/-- Some frames end in what is read next. -/
theorem InProgress.read (h : InProgress tail parser d buffer) {bytes : List UInt8}
    (hread : Resumable.consume (CorParser.iterate corSettings) CorParser.rank (parser, d)
      (buffer ++ bytes) = ((parser', d'), buffer')) :
    ∃ (frames : List WireFrame) (rest : List UInt8),
      tail ++ bytes = frames.flatMap WireFrame.bytes ++ rest ∧
      InProgress rest parser' d' buffer' ∧
        { d' with frame := none } = frames.foldl receiveFrame { d with frame := none } := by
  obtain ⟨frames, rest, hframes, hrest, hconsume⟩ := exists_frames (tail ++ bytes)
  have hbefore := h.parsed
  rw [consumeIdle] at hbefore
  have hparsed : consumeIdle (frames.foldl receiveFrame { d with frame := none }) rest =
      ((parser', d'), buffer') := by
    rw [← hconsume, consumeIdle, Resumable.consume_append parser_lawful (CorParser.valid_idle _),
      hbefore]
    exact hread
  have hidle := hrest.consume_frame_only (foldl_receiveFrame_frame frames rfl) hparsed
  rw [← hidle] at hparsed
  exact ⟨frames, rest, hframes, ⟨hrest, hparsed⟩, hidle⟩

/-- Every frame is delivered, to whomever. -/
theorem delivered_foldl_receiveFrame (frames : List WireFrame) (d : QCorConnectionPrivate) :
    (frames.foldl receiveFrame d).delivered.map Delivery.frame =
      d.delivered.map Delivery.frame ++ frames.map fun frame => some frame.toQCorFrame := by
  induction frames generalizing d with
  | nil => exact (List.append_nil _).symm
  | cons frame frames ih =>
    have hone : (receiveFrame d frame).delivered.map Delivery.frame =
        d.delivered.map Delivery.frame ++ [some frame.toQCorFrame] := by
      unfold receiveFrame onParserFrameEnd
      dsimp only
      split
      · simp [Delivery.frame]
      · split <;> simp [Delivery.frame]
    rw [List.foldl_cons, ih, hone, List.append_assoc]
    rfl

/-- An idle connection receives a frame whose end it notices. -/
theorem onSocketReadyRead_frame {s : QCorConnection} (hparser : s.corParser = {}) (hbuffer : s.buffer = [])
    (frame : WireFrame) (hsome : frame.data ≠ []) :
    (s.onSocketReadyRead [frame.bytes]).d = receiveFrame s.d frame := by
  have hready : Ready s := ⟨by rw [parserState, hparser]; exact CorParser.valid_idle s.d, .inl hbuffer⟩
  have heq := onSocketReadyRead_eq hready [frame.bytes]
  have hframe : consumeIdle s.d (frame.bytes ++ []) = consumeIdle (receiveFrame s.d frame) [] :=
    consume_frame frame s.d (by rwa [List.append_nil])
  rw [List.append_nil, consumeIdle, consumeIdle, Resumable.consume_nil] at hframe
  rw [Resumable.receive, parserState, parserState, hparser, hbuffer, List.nil_append,
    List.flatten_singleton, hframe] at heq
  exact congrArg (fun x => x.1.2) heq

end QCorConnection

end Ts3Video
