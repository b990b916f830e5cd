import Mathlib.Data.List.Nodup
import Ts3Video.Cor.SendQueue
import Ts3Video.Cor.WireFrames

/-!
# Replies and the peer that answers them

A request gets the next correlation id, and its reply waits in a table under this id. The peer may send
any frames. The first response with the id that ends after the request was made answers it, and all other
frames leave the table as it is, provided that the id is not that of a response whose end the parser has
read but not noticed.
-/

namespace Ts3Video

open Std QCorConnection QCorConnectionPrivate

/-- A connection with all bytes that it has received, and the requests it was given: the correlation id of
each and the number of bytes that had been received before. -/
structure ObservedConnection where
  posting : PostingConnection := {}
  received : List UInt8 := []
  requests : List (UInt32 × ℕ) := []

namespace ObservedConnection

/-- The private part of the connection. -/
abbrev d (s : ObservedConnection) : QCorConnectionPrivate := s.posting.connection.d

/-- The bytes that are read in an event. -/
def readBytes : PostingConnection.Event → List UInt8
  | .onSocketReadyRead reads => reads.flatten
  | _ => []

/-- The request that is made in an event. -/
def newRequest (s : ObservedConnection) : PostingConnection.Event → List (UInt32 × ℕ)
  | .sendRequest _ _ => [(s.d.nextCorrelationId + 1, s.received.length)]
  | _ => []

/-- The connection as a machine, observed. -/
def step (s : ObservedConnection) (e : PostingConnection.Event) :
    Option (ObservedConnection × List Output) :=
  (PostingConnection.step s.posting e).map fun done =>
    ({ posting := done.1
       received := s.received ++ readBytes e
       requests := s.requests ++ s.newRequest e }, done.2)

/-- Frames with the number of bytes that have been received when they end. -/
def ends : ℕ → List WireFrame → List (ℕ × WireFrame)
  | _, [] => []
  | start, frame :: frames =>
    (start + frame.bytes.length, frame) :: ends (start + frame.bytes.length) frames

/-- A frame is a response with this correlation id and ends after so many bytes. -/
def answersAfter (correlationId : UInt32) (start : ℕ) (ended : ℕ × WireFrame) : Bool :=
  ended.2.type = COR_FRAME_TYPE_RESPONSE ∧ ended.2.correlationId = correlationId ∧ start < ended.1

/-- The replies that have been finished, each with its frame. -/
def finishedReplies (delivered : List Delivery) : List (UInt32 × Option QCorFrame) :=
  delivered.filterMap fun
    | .finished correlationId frame => some (correlationId, frame)
    | _ => none

/-- The parser has read a response with this correlation id up to its end, but not noticed the end. -/
def EndUnnoticed (parser : CorParser) (correlationId : UInt32) : Prop :=
  parser.state = .bodyData ∧ parser.requestBodyBytesRead = parser.requestLength ∧
    parser.request.bind CorFrame.type = some COR_FRAME_TYPE_RESPONSE ∧
      parser.request.bind CorFrame.correlationId = some correlationId

/-- A request does not get the correlation id of a response whose end has not been noticed. -/
def Timely (s : ObservedConnection) : PostingConnection.Event → Prop
  | .sendRequest _ _ => ¬ EndUnnoticed s.posting.connection.corParser (s.d.nextCorrelationId + 1)
  | _ => True

/-- What the deliveries say about the requests, given the frames that have ended so far. -/
structure History (ended : List (ℕ × WireFrame)) (requests : List (UInt32 × ℕ))
    (d : QCorConnectionPrivate) : Prop where
  pending : ∀ correlationId, correlationId ∈ d.replies ↔ correlationId ∈ requests.map Prod.fst ∧
    correlationId ∉ (finishedReplies d.delivered).map Prod.fst
  once : ((finishedReplies d.delivered).map Prod.fst).Nodup
  first : ∀ correlationId frame, (correlationId, frame) ∈ finishedReplies d.delivered →
    ∃ start pos wire, (correlationId, start) ∈ requests ∧
      ended.find? (answersAfter correlationId start) = some (pos, wire) ∧
        frame = some wire.toQCorFrame
  unanswered : ∀ correlationId start, (correlationId, start) ∈ requests →
    correlationId ∈ d.replies → ended.find? (answersAfter correlationId start) = none

variable {ended : List (ℕ × WireFrame)} {requests : List (UInt32 × ℕ)} {d : QCorConnectionPrivate}

/-- A frame finishes the reply that it answers, or it changes nothing for the replies. -/
theorem receiveFrame_cases (d : QCorConnectionPrivate) (frame : WireFrame) :
    (frame.type = COR_FRAME_TYPE_RESPONSE ∧ frame.correlationId ∈ d.replies ∧
        (receiveFrame d frame).replies = d.replies.erase frame.correlationId ∧
        finishedReplies (receiveFrame d frame).delivered =
          finishedReplies d.delivered ++ [(frame.correlationId, some frame.toQCorFrame)]) ∨
      ((frame.type = COR_FRAME_TYPE_RESPONSE → frame.correlationId ∉ d.replies) ∧
        (receiveFrame d frame).replies = d.replies ∧
        finishedReplies (receiveFrame d frame).delivered = finishedReplies d.delivered) := by
  unfold receiveFrame onParserFrameEnd
  simp only [WireFrame.header, Option.bind_some, Option.some.injEq, Option.getD_some]
  split
  next hrequest =>
    refine .inr ⟨fun hresponse => ?_, rfl, ?_⟩
    · rw [hrequest] at hresponse
      exact absurd hresponse (by decide)
    · simp [finishedReplies]
  next =>
    split
    next hanswer => exact .inl ⟨hanswer.1, hanswer.2, rfl, by simp [finishedReplies]⟩
    next hnot =>
      exact .inr ⟨fun hresponse hmem => hnot ⟨hresponse, hmem⟩, rfl, by simp [finishedReplies]⟩

/-- A frame ends. If it answers a request, it ends after that request was made. -/
theorem History.receive (h : History ended requests d) {frame : WireFrame} {pos : ℕ}
    (hlate : frame.type = COR_FRAME_TYPE_RESPONSE → frame.correlationId ∈ d.replies →
      ∀ start, (frame.correlationId, start) ∈ requests → start < pos) :
    History (ended ++ [(pos, frame)]) requests (receiveFrame d frame) := by
  have hkeep : ∀ correlationId start pos' wire,
      ended.find? (answersAfter correlationId start) = some (pos', wire) →
        (ended ++ [(pos, frame)]).find? (answersAfter correlationId start) = some (pos', wire) := by
    intro correlationId start pos' wire hfound
    rw [List.find?_append, hfound]
    rfl
  have hother : ∀ correlationId start,
      ended.find? (answersAfter correlationId start) = none →
        answersAfter correlationId start (pos, frame) = false →
          (ended ++ [(pos, frame)]).find? (answersAfter correlationId start) = none := by
    intro correlationId start hnone hfalse
    rw [List.find?_append, hnone, List.find?_cons_of_neg (by rw [hfalse]; exact Bool.false_ne_true)]
    rfl
  rcases receiveFrame_cases d frame with ⟨hresponse, hmem, hreplies, hfinished⟩ |
    ⟨hnot, hreplies, hfinished⟩
  · obtain ⟨hrequested, hwaits⟩ := (h.pending frame.correlationId).mp hmem
    have herase : ∀ correlationId, correlationId ∈ d.replies.erase frame.correlationId ↔
        frame.correlationId ≠ correlationId ∧ correlationId ∈ d.replies := by
      intro correlationId
      rw [ExtTreeSet.mem_erase, Ne, Ne, Std.compare_eq_iff_eq]
    refine ⟨fun correlationId => ?_, ?_, fun correlationId found hfound => ?_,
      fun correlationId start hrequest hpending => ?_⟩
    · rw [hreplies, hfinished, herase, h.pending, List.map_append, List.mem_append, not_or,
        List.map_singleton, List.mem_singleton]
      constructor
      · rintro ⟨hne, hmem, hnot⟩
        exact ⟨hmem, hnot, fun heq => hne heq.symm⟩
      · rintro ⟨hmem, hnot, hne⟩
        exact ⟨fun heq => hne heq.symm, hmem, hnot⟩
    · rw [hfinished, List.map_append, List.map_singleton]
      refine List.nodup_append.mpr ⟨h.once, List.pairwise_singleton _ _, fun id hid other hother heq => ?_⟩
      rw [heq, List.mem_singleton.mp hother] at hid
      exact hwaits hid
    · rw [hfinished, List.mem_append, List.mem_singleton] at hfound
      rcases hfound with hold | hnew
      · obtain ⟨start, pos', wire, hrequest, hfirst, heq⟩ := h.first correlationId found hold
        exact ⟨start, pos', wire, hrequest, hkeep _ _ _ _ hfirst, heq⟩
      · obtain ⟨rfl, rfl⟩ := Prod.mk.inj hnew
        obtain ⟨⟨correlationId, start⟩, hrequest, heq⟩ := List.mem_map.mp hrequested
        obtain rfl : correlationId = frame.correlationId := heq
        have hanswers : answersAfter frame.correlationId start (pos, frame) = true :=
          decide_eq_true ⟨hresponse, rfl, hlate hresponse hmem start hrequest⟩
        refine ⟨start, pos, frame, hrequest, ?_, rfl⟩
        rw [List.find?_append, h.unanswered _ _ hrequest hmem, List.find?_cons_of_pos hanswers]
        rfl
    · rw [hreplies, herase] at hpending
      refine hother _ _ (h.unanswered correlationId start hrequest hpending.2) ?_
      rw [answersAfter, decide_eq_false_iff_not]
      exact fun hanswers => hpending.1 hanswers.2.1
  · refine ⟨by rw [hreplies, hfinished]; exact h.pending, by rw [hfinished]; exact h.once, ?_, ?_⟩
    · rw [hfinished]
      intro correlationId found hfound
      obtain ⟨start, pos', wire, hrequest, hfirst, heq⟩ := h.first correlationId found hfound
      exact ⟨start, pos', wire, hrequest, hkeep _ _ _ _ hfirst, heq⟩
    · rw [hreplies]
      intro correlationId start hrequest hpending
      refine hother _ _ (h.unanswered correlationId start hrequest hpending) ?_
      rw [answersAfter, decide_eq_false_iff_not]
      rintro ⟨hresponse, rfl, -⟩
      exact hnot hresponse hpending

/-- The frames of two parts of a stream follow each other. -/
theorem ends_append (start : ℕ) (frames more : List WireFrame) :
    ends start (frames ++ more) =
      ends start frames ++ ends (start + (frames.flatMap WireFrame.bytes).length) more := by
  induction frames generalizing start with
  | nil => rfl
  | cons frame frames ih =>
    rw [List.cons_append, ends, ih, ends, List.cons_append, List.flatMap_cons, List.length_append,
      Nat.add_assoc]

/-- Frames that begin when all requests have been made may answer them. -/
theorem History.receiveFrames (h : History ended requests d) {start : ℕ}
    (hmade : ∀ request ∈ requests, request.2 ≤ start) (frames : List WireFrame) :
    History (ended ++ ends start frames) requests (frames.foldl receiveFrame d) := by
  induction frames generalizing ended d start with
  | nil => rwa [ends, List.append_nil]
  | cons frame frames ih =>
    have hlength := frame.bytes_length
    have hone : History (ended ++ [(start + frame.bytes.length, frame)]) requests
        (receiveFrame d frame) := h.receive fun _ _ made hrequest => by
      have := hmade _ hrequest
      omega
    have hmade' : ∀ request ∈ requests, request.2 ≤ start + frame.bytes.length :=
      fun request hrequest => (hmade request hrequest).trans (Nat.le_add_right _ _)
    have hrest := ih hone hmade'
    rwa [List.append_assoc] at hrest

/-- A connection between two events, with the frames that have ended and what is left of the stream. -/
structure Reading (frames : List WireFrame) (tail : List UInt8) (s : ObservedConnection) : Prop where
  stream : s.received = frames.flatMap WireFrame.bytes ++ tail
  progress : InProgress tail s.posting.connection.corParser s.d s.posting.connection.buffer
  history : History (ends 0 frames) s.requests s.d
  unnoticed : ∀ frame : WireFrame, tail = frame.bytes → frame.type = COR_FRAME_TYPE_RESPONSE →
    frame.correlationId ∈ s.d.replies → ∀ start, (frame.correlationId, start) ∈ s.requests →
      start < s.received.length

/-- A request is made in an event. -/
def isRequest : PostingConnection.Event → Bool
  | .sendRequest _ _ => true
  | _ => false

/-- What holds of a connection whose correlation ids suffice for the events to come. -/
structure Numbered (later : List PostingConnection.Event) (s : ObservedConnection) : Prop where
  ready : Ready s.posting.connection
  connected : s.d.socketConnected = true
  numbered : s.requests.map Prod.fst = (List.range' 1 s.requests.length).map UInt32.ofNat
  nextId : s.d.nextCorrelationId = UInt32.ofNat s.requests.length
  bounded : s.requests.length + later.countP isRequest < 2 ^ 32
  made : ∀ request ∈ s.requests, request.2 ≤ s.received.length
  reading : ∃ frames tail, s.Reading frames tail

variable {s s' : ObservedConnection} {frames : List WireFrame} {tail : List UInt8} {out : List Output}

/-- A request is entered under the next correlation id. -/
theorem step_sendRequest (hconnected : s.d.socketConnected = true) {flags : UInt8} {data : List UInt8}
    (hstep : step s (.sendRequest flags data) = some (s', out)) :
    (∃ queue current, s'.posting.connection = s.posting.connection.withQueue
      { s.d with
        nextCorrelationId := s.d.nextCorrelationId + 1
        replies := s.d.replies.insert (s.d.nextCorrelationId + 1) } queue current) ∧
      s'.received = s.received ∧
      s'.requests = s.requests ++ [(s.d.nextCorrelationId + 1, s.received.length)] := by
  obtain ⟨done, hpost, heq⟩ := Option.map_eq_some_iff.mp hstep
  obtain ⟨rfl, -⟩ := Prod.mk.inj heq
  exact ⟨PostingConnection.step_sendRequest hconnected hpost, List.append_nil _, rfl⟩

/-- Nothing but the queue changes when a response is sent or an item is done. -/
theorem step_send {e : PostingConnection.Event} (hother : ∀ flags data, e ≠ .sendRequest flags data)
    (hnothing : ∀ reads, e ≠ .onSocketReadyRead reads) (hstep : step s e = some (s', out)) :
    (∃ queue current,
      s'.posting.connection = s.posting.connection.withQueue s.d queue current) ∧
      s'.received = s.received ∧ s'.requests = s.requests := by
  obtain ⟨done, hpost, heq⟩ := Option.map_eq_some_iff.mp hstep
  obtain ⟨rfl, -⟩ := Prod.mk.inj heq
  refine ⟨PostingConnection.step_send hother hnothing hpost, ?_, ?_⟩
  · cases e with
    | onSocketReadyRead reads => exact absurd rfl (hnothing reads)
    | _ => exact List.append_nil _
  · cases e with
    | sendRequest flags data => exact absurd rfl (hother flags data)
    | _ => exact List.append_nil _

/-- Only the replies and the deliveries count. -/
theorem History.congr (h : History ended requests d) {d' : QCorConnectionPrivate}
    (hreplies : d'.replies = d.replies) (hdelivered : d'.delivered = d.delivered) :
    History ended requests d' := by
  refine ⟨?_, ?_, ?_, ?_⟩
  · rw [hreplies, hdelivered]
    exact h.pending
  · rw [hdelivered]
    exact h.once
  · rw [hdelivered]
    exact h.first
  · rw [hreplies]
    exact h.unanswered

/-- Frames end within the stream that they are a part of. -/
theorem ends_le {start pos : ℕ} {frames : List WireFrame} {frame : WireFrame}
    (h : (pos, frame) ∈ ends start frames) :
    pos ≤ start + (frames.flatMap WireFrame.bytes).length := by
  induction frames generalizing start with
  | nil => exact absurd h List.not_mem_nil
  | cons first frames ih =>
    rw [List.flatMap_cons, List.length_append, ← Nat.add_assoc]
    rcases List.mem_cons.mp h with heq | hlater
    · obtain ⟨rfl, -⟩ := Prod.mk.inj heq
      exact Nat.le_add_right _ _
    · exact ih hlater

/-- A reply is waited for under a new correlation id. No frame has answered it yet. -/
theorem History.request (h : History ended requests d) {correlationId : UInt32} {start : ℕ}
    (hfresh : correlationId ∉ requests.map Prod.fst) (hended : ∀ other ∈ ended, other.1 ≤ start)
    {replies : ExtTreeSet UInt32} (hreplies : replies = d.replies.insert correlationId)
    {d' : QCorConnectionPrivate} (hd : d'.replies = replies) (hdelivered : d'.delivered = d.delivered) :
    History ended (requests ++ [(correlationId, start)]) d' := by
  have hinsert : ∀ other, other ∈ d'.replies ↔ correlationId = other ∨ other ∈ d.replies := by
    intro other
    rw [hd, hreplies, ExtTreeSet.mem_insert, Std.compare_eq_iff_eq]
  have hunfinished : correlationId ∉ (finishedReplies d.delivered).map Prod.fst := by
    intro hmem
    obtain ⟨⟨other, frame⟩, hfinished, rfl⟩ := List.mem_map.mp hmem
    obtain ⟨made, -, -, hrequest, -⟩ := h.first other frame hfinished
    exact hfresh (List.mem_map_of_mem hrequest)
  refine ⟨fun other => ?_, by rw [hdelivered]; exact h.once, fun other frame hfinished => ?_,
    fun other made hrequest hpending => ?_⟩
  · rw [hinsert, hdelivered, h.pending, List.map_append, List.mem_append, List.map_singleton,
      List.mem_singleton]
    constructor
    · rintro (rfl | ⟨hmem, hnot⟩)
      · exact ⟨.inr rfl, hunfinished⟩
      · exact ⟨.inl hmem, hnot⟩
    · rintro ⟨hmem | rfl, hnot⟩
      · exact .inr ⟨hmem, hnot⟩
      · exact .inl rfl
  · rw [hdelivered] at hfinished
    obtain ⟨made, pos, wire, hrequest, hfirst, heq⟩ := h.first other frame hfinished
    exact ⟨made, pos, wire, List.mem_append_left _ hrequest, hfirst, heq⟩
  · rcases List.mem_append.mp hrequest with hold | hnew
    · rcases (hinsert other).mp hpending with rfl | hwaits
      · exact absurd (List.mem_map_of_mem hold) hfresh
      · exact h.unanswered other made hold hwaits
    · obtain ⟨rfl, rfl⟩ := Prod.mk.inj (List.mem_singleton.mp hnew)
      rw [List.find?_eq_none]
      rintro ⟨pos, wire⟩ hmem hanswers
      rw [answersAfter, decide_eq_true_eq] at hanswers
      have := hended _ hmem
      exact absurd hanswers.2.2 (Nat.not_lt.mpr this)

/-- The parser has read a whole frame without a body and waits for the first byte behind it. -/
theorem parser_of_whole_frame {frame : WireFrame} (hempty : frame.data = [])
    {d d' : QCorConnectionPrivate} {parser : CorParser} {buffer : List UInt8}
    (h : consumeIdle d frame.bytes = ((parser, d'), buffer)) :
    parser = { state := .bodyData, request := some frame.header } := by
  rw [WireFrame.bytes, consume_header, hempty, consumeFrom, Resumable.consume_nil] at h
  rw [WireFrame.header, hempty]
  exact (congrArg (fun x => x.1.1) h).symm

/-- A response that ends without a body is not answered by a request that is made in time. -/
theorem Reading.of_request (h : s.Reading frames tail) (hconnected : s.d.socketConnected = true)
    (hfresh : s.d.nextCorrelationId + 1 ∉ s.requests.map Prod.fst)
    {flags : UInt8} {data : List UInt8} (htimely : Timely s (.sendRequest flags data))
    (hstep : step s (.sendRequest flags data) = some (s', out)) : s'.Reading frames tail := by
  obtain ⟨⟨queue, current, hconnection⟩, hreceived, hrequests⟩ := step_sendRequest hconnected hstep
  have hended : ∀ other ∈ ends 0 frames, other.1 ≤ s.received.length := by
    rintro ⟨pos, frame⟩ hmem
    have := ends_le hmem
    rw [h.stream, List.length_append]
    omega
  have hd : s'.d = (s.posting.connection.withQueue
      { s.d with
        nextCorrelationId := s.d.nextCorrelationId + 1
        replies := s.d.replies.insert (s.d.nextCorrelationId + 1) } queue current).d :=
    congrArg QCorConnection.d hconnection
  refine ⟨hreceived ▸ h.stream, ?_, ?_, ?_⟩
  · rw [hd, hconnection]
    exact h.progress.other rfl rfl
  · rw [hrequests, hd]
    exact h.history.request hfresh hended rfl rfl rfl
  · intro frame htail hresponse hpending start hrequest
    rw [hreceived]
    rw [hrequests] at hrequest
    rcases List.mem_append.mp hrequest with hold | hnew
    · refine h.unnoticed frame htail hresponse ?_ start hold
      have hinserted : frame.correlationId ∈ s.d.replies.insert (s.d.nextCorrelationId + 1) := by
        rwa [hd] at hpending
      rw [ExtTreeSet.mem_insert, Std.compare_eq_iff_eq] at hinserted
      refine hinserted.resolve_left fun heq => hfresh ?_
      rw [heq]
      exact List.mem_map_of_mem hold
    · obtain ⟨hid, -⟩ := Prod.mk.inj (List.mem_singleton.mp hnew)
      have hempty : frame.data = [] := by
        have := h.progress.unfinished frame [] (by rw [htail, List.append_nil])
        rwa [List.append_nil] at this
      have hparsed := h.progress.parsed
      rw [htail] at hparsed
      have hparser := parser_of_whole_frame hempty hparsed
      have hlength : CorFrame.length frame.header = some 0 := by rw [WireFrame.header, hempty]; rfl
      refine absurd ?_ htimely
      rw [hparser]
      exact ⟨rfl, by simp [CorParser.requestLength, hlength], congrArg some hresponse, congrArg some hid⟩

/-- Nothing that is sent apart from a request matters for the frames that are read. -/
theorem Reading.of_send (h : s.Reading frames tail) {queue : List SendQueueItem}
    {current : Option SendQueueItem} (hconnection : s'.posting.connection =
      s.posting.connection.withQueue s.d queue current)
    (hreceived : s'.received = s.received) (hrequests : s'.requests = s.requests) :
    s'.Reading frames tail := by
  have hd : s'.d = (s.posting.connection.withQueue s.d queue current).d := congrArg QCorConnection.d hconnection
  refine ⟨hreceived ▸ h.stream, ?_, ?_, ?_⟩
  · rw [hd, hconnection]
    exact h.progress.other rfl rfl
  · rw [hrequests, hd]
    exact h.history.congr rfl rfl
  · rw [hreceived, hrequests, hd]
    exact h.unnoticed

/-- The frames that end in a read answer the requests made before. -/
theorem Reading.history_of_read (h : s.Reading frames tail) (hmade : ∀ request ∈ s.requests,
      request.2 ≤ s.received.length) {bytes rest : List UInt8} {more : List WireFrame}
    (heq : tail ++ bytes = more.flatMap WireFrame.bytes ++ rest) :
    History (ends 0 (frames ++ more)) s.requests
      (more.foldl receiveFrame { s.d with frame := none }) := by
  have hstart : History (ends 0 frames) s.requests { s.d with frame := none } :=
    h.history.congr rfl rfl
  rw [ends_append]
  cases more with
  | nil =>
    rw [ends, List.append_nil]
    exact hstart
  | cons frame more =>
    rw [List.flatMap_cons, List.append_assoc] at heq
    have hlength : s.received.length = (frames.flatMap WireFrame.bytes).length + tail.length := by
      rw [h.stream, List.length_append]
    have hshort := h.progress.unfinished.length_le heq
    have hfirst : History (ends 0 frames ++
        [(0 + (frames.flatMap WireFrame.bytes).length + frame.bytes.length, frame)]) s.requests
        (receiveFrame { s.d with frame := none } frame) :=
      hstart.receive fun hresponse hpending start hrequest => by
        have hle : start ≤ s.received.length := hmade _ hrequest
        rcases hshort with hlt | htail
        · omega
        · have hlt := h.unnoticed frame htail hresponse hpending start hrequest
          rw [hlength, htail] at hlt
          omega
    have hlater : ∀ request ∈ s.requests, request.2 ≤
        0 + (frames.flatMap WireFrame.bytes).length + frame.bytes.length := by
      intro request hrequest
      have hle := hmade request hrequest
      rcases hshort with hlt | htail
      · omega
      · rw [hlength, htail] at hle
        omega
    have hrest := hfirst.receiveFrames hlater more
    rwa [List.append_assoc] at hrest

/-- A read adds frames. -/
theorem Reading.of_read (h : s.Reading frames tail) (hready : Ready s.posting.connection)
    (hmade : ∀ request ∈ s.requests, request.2 ≤ s.received.length) {reads : List (List UInt8)}
    (hconnection : s'.posting.connection = s.posting.connection.onSocketReadyRead reads)
    (hreceived : s'.received = s.received ++ reads.flatten) (hrequests : s'.requests = s.requests) :
    ∃ frames tail, s'.Reading frames tail := by
  have hread : ((s'.posting.connection.corParser, s'.posting.connection.d),
        s'.posting.connection.buffer) =
      Resumable.receive (CorParser.iterate corSettings) CorParser.rank
        ((s.posting.connection.corParser, s.d), s.posting.connection.buffer) reads.flatten := by
    rw [hconnection]
    exact onSocketReadyRead_eq hready reads
  by_cases hnothing : reads.flatten = []
  · rw [hnothing, Resumable.receive, List.append_nil] at hread
    have hsame := hread.trans hready.settled
    simp only [Prod.mk.injEq] at hsame
    have hunchanged : s'.posting.connection =
        s.posting.connection.withQueue s.d s.d.sendQueue s.d.sendQueueCurrent :=
      QCorConnection.ext hsame.1.2 hsame.1.1 hsame.2
    rw [hnothing, List.append_nil] at hreceived
    exact ⟨frames, tail, h.of_send hunchanged hreceived hrequests⟩
  · obtain ⟨more, rest, hmore, hprogress, hframes⟩ := h.progress.read hread.symm
    have hhistory := h.history_of_read hmade hmore
    rw [← hframes] at hhistory
    refine ⟨frames ++ more, rest, ?_, hprogress, ?_, ?_⟩
    · rw [hreceived, h.stream, List.append_assoc, hmore, List.flatMap_append, List.append_assoc]
    · rw [hrequests]
      exact hhistory.congr rfl rfl
    · intro frame _ _ _ start hrequest
      rw [hrequests] at hrequest
      have hle : start ≤ s.received.length := hmade _ hrequest
      have hpos := List.length_pos_iff.mpr hnothing
      rw [hreceived, List.length_append]
      omega

variable {e : PostingConnection.Event} {later : List PostingConnection.Event}

/-- The next correlation id is new. -/
theorem Numbered.fresh (h : Numbered later s) (hmore : s.requests.length + 1 < 2 ^ 32) :
    s.d.nextCorrelationId + 1 ∉ s.requests.map Prod.fst := by
  rw [h.numbered, h.nextId]
  intro hmem
  obtain ⟨number, hnumber, heq⟩ := List.mem_map.mp hmem
  obtain ⟨-, hle⟩ := List.mem_range'_1.mp hnumber
  have hnext : UInt32.ofNat s.requests.length + 1 = UInt32.ofNat (s.requests.length + 1) :=
    (UInt32.ofNat_add s.requests.length 1).symm
  have hvalue := congrArg UInt32.toNat (heq.trans hnext)
  rw [UInt32.toNat_ofNat_of_lt' (show number < 2 ^ 32 by omega),
    UInt32.toNat_ofNat_of_lt' hmore] at hvalue
  omega

/-- Numbers below the limit are different correlation ids. -/
theorem Numbered.distinct (h : Numbered later s) : (s.requests.map Prod.fst).Nodup := by
  rw [h.numbered]
  refine List.Nodup.map_on (fun first hfirst second hsecond heq => ?_) List.nodup_range'
  have hbound := h.bounded
  have hfirst := (List.mem_range'_1.mp hfirst).2
  have hsecond := (List.mem_range'_1.mp hsecond).2
  have hvalue := congrArg UInt32.toNat heq
  rwa [UInt32.toNat_ofNat_of_lt' (show first < 2 ^ 32 by omega),
    UInt32.toNat_ofNat_of_lt' (show second < 2 ^ 32 by omega)] at hvalue

/-- A request that is made in time keeps the connection numbered. -/
theorem Numbered.of_request {flags : UInt8} {data : List UInt8}
    (h : Numbered (.sendRequest flags data :: later) s) (htimely : Timely s (.sendRequest flags data))
    (hstep : step s (.sendRequest flags data) = some (s', out)) : Numbered later s' := by
  obtain ⟨⟨queue, current, hconnection⟩, hreceived, hrequests⟩ := step_sendRequest h.connected hstep
  obtain ⟨frames, tail, hreading⟩ := h.reading
  have hbound := h.bounded
  rw [List.countP_cons_of_pos rfl] at hbound
  have hlength : s'.requests.length = s.requests.length + 1 := by
    rw [hrequests, List.length_append, List.length_singleton]
  have hnext : s.d.nextCorrelationId + 1 = UInt32.ofNat (s.requests.length + 1) := by
    rw [h.nextId, UInt32.ofNat_add]
    rfl
  refine ⟨?_, ?_, ?_, ?_, by omega, ?_, frames, tail,
    hreading.of_request h.connected (h.fresh (by omega)) htimely hstep⟩
  · rw [hconnection]
    exact h.ready.with_d _
  · rw [d, hconnection]
    exact h.connected
  · rw [hlength, List.range'_1_concat, List.map_append, ← h.numbered, hrequests, List.map_append,
      List.map_singleton, List.map_singleton, hnext, Nat.add_comm 1]
  · rw [d, hconnection, hlength]
    exact hnext
  · rw [hrequests, hreceived]
    intro request hrequest
    rcases List.mem_append.mp hrequest with hold | hnew
    · exact h.made request hold
    · exact (List.mem_singleton.mp hnew) ▸ Nat.le_refl _

/-- Whatever else is sent keeps the connection numbered. -/
theorem Numbered.of_send (h : Numbered (e :: later) s) (hother : ∀ flags data, e ≠ .sendRequest flags data)
    (hnothing : ∀ reads, e ≠ .onSocketReadyRead reads) (hstep : step s e = some (s', out)) :
    Numbered later s' := by
  obtain ⟨⟨queue, current, hconnection⟩, hreceived, hrequests⟩ :=
    step_send hother hnothing hstep
  obtain ⟨frames, tail, hreading⟩ := h.reading
  have hbound := h.bounded
  rw [List.countP_cons] at hbound
  refine ⟨?_, ?_, hrequests ▸ h.numbered, ?_, ?_, ?_, frames, tail,
    hreading.of_send hconnection hreceived hrequests⟩
  · rw [hconnection]
    exact h.ready.with_d _
  · rw [d, hconnection]
    exact h.connected
  · rw [d, hconnection, hrequests]
    exact h.nextId
  · rw [hrequests]
    omega
  · rw [hrequests, hreceived]
    exact h.made

/-- A read keeps the connection numbered. -/
theorem Numbered.of_read {reads : List (List UInt8)} (h : Numbered (.onSocketReadyRead reads :: later) s)
    (hstep : step s (.onSocketReadyRead reads) = some (s', out)) : Numbered later s' := by
  obtain ⟨done, hpost, heq⟩ := Option.map_eq_some_iff.mp hstep
  obtain ⟨rfl, -⟩ := Prod.mk.inj heq
  rw [PostingConnection.step, PostingConnection.posting, QCorConnection.step, Option.map_some] at hpost
  obtain rfl := Option.some.inj hpost
  obtain ⟨frames, tail, hreading⟩ := h.reading
  have hsending := onSocketReadyRead_sendState h.ready reads
  simp only [sendState, Prod.mk.injEq] at hsending
  have hbound := h.bounded
  rw [List.countP_cons_of_neg Bool.false_ne_true] at hbound
  refine ⟨h.ready.onSocketReadyRead reads, hsending.1.trans h.connected, ?_, ?_, ?_, ?_,
    hreading.of_read h.ready h.made rfl rfl (List.append_nil _)⟩
  · change (s.requests ++ []).map Prod.fst = (List.range' 1 (s.requests ++ []).length).map _
    rw [List.append_nil]
    exact h.numbered
  · change _ = UInt32.ofNat (s.requests ++ []).length
    rw [List.append_nil]
    exact hsending.2.1.trans h.nextId
  · change (s.requests ++ []).length + _ < _
    rwa [List.append_nil]
  · intro request hrequest
    have hmem : request ∈ s.requests := List.append_nil s.requests ▸ hrequest
    exact (h.made request hmem).trans (by
      change s.received.length ≤ (s.received ++ reads.flatten).length
      rw [List.length_append]
      exact Nat.le_add_right _ _)

/-- A response with a body of one byte. -/
def response (correlationId : UInt32) (byte : UInt8) : WireFrame where
  version := 1
  type := COR_FRAME_TYPE_RESPONSE
  flags := 0
  correlationId
  data := [byte]
  size := by
    rw [List.length_singleton]
    decide

end ObservedConnection

end Ts3Video
