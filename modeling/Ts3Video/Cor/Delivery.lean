import Ts3Video.Cor.Sending
import Ts3Video.Cor.WireFrames

/-!
# What becomes of a written item

A connection writes the items of its queue as frames. The peer delivers each of them with its last byte.
Without a body there is no such byte: the end of the frame is noticed when the first byte of the next
one is there.
-/

namespace Ts3Video.QCorConnection

open Std QCorConnectionPrivate

/-- The frame the application of the peer should see for an item. -/
def frameOf (item : SendQueueItem) : QCorFrame where
  type := if item.frame.type = some COR_FRAME_TYPE_RESPONSE then .ResponseType else .RequestType
  correlationId := item.frame.correlationId
  data := item.data

/-- What becomes of a frame, given the correlation ids that replies wait for. -/
def outcome (replies : ExtTreeSet UInt32) (frame : QCorFrame) : Delivery :=
  match frame.type with
  | .RequestType => .newIncomingRequest (some frame)
  | .ResponseType =>
    if frame.correlationId.getD 0 ∈ replies then
      .finished (frame.correlationId.getD 0) (some frame)
    else .dropped (some frame)

/-- The correlation ids that replies still wait for after a frame. -/
def repliesAfter (replies : ExtTreeSet UInt32) (frame : QCorFrame) : ExtTreeSet UInt32 :=
  match frame.type with
  | .RequestType => replies
  | .ResponseType => replies.erase (frame.correlationId.getD 0)

/-- What becomes of several frames in order. -/
def outcomes (replies : ExtTreeSet UInt32) : List QCorFrame → List Delivery
  | [] => []
  | frame :: frames => outcome replies frame :: outcomes (repliesAfter replies frame) frames

/-- The private part behind a frame that was delivered. -/
def deliver (d : QCorConnectionPrivate) (frame : QCorFrame) : QCorConnectionPrivate :=
  { d with
    frame := none
    replies := repliesAfter d.replies frame
    delivered := d.delivered ++ [outcome d.replies frame] }

/-- An item is written as a frame, and the application of the peer should see that frame. -/
theorem exists_frame {item : SendQueueItem} (hitem : IsFrame item) (hsize : item.data.length < 2 ^ 32) :
    ∃ frame : WireFrame, write item = frame.bytes ∧ frame.data = item.data ∧
      frame.toQCorFrame = frameOf item ∧
        (frame.type = COR_FRAME_TYPE_REQUEST ∨ frame.type = COR_FRAME_TYPE_RESPONSE) := by
  obtain ⟨type, correlationId, flags, data, htype, rfl⟩ := hitem
  refine ⟨⟨1, type, flags, correlationId, data, hsize⟩, ?_, rfl, ?_, htype⟩
  · have hlength : (UInt32.ofNat data.length).toNat = data.length := UInt32.toNat_ofNat_of_lt' hsize
    simp [write, newItem, WireFrame.bytes, hlength]
  · simp [frameOf, newItem, WireFrame.toQCorFrame]

/-- Removing an id that no reply waits for changes nothing. -/
theorem erase_of_not_mem {replies : ExtTreeSet UInt32} {id : UInt32} (h : id ∉ replies) :
    replies.erase id = replies := by
  apply ExtTreeSet.ext_mem
  intro k
  rw [ExtTreeSet.mem_erase]
  constructor
  · exact fun hk => hk.2
  · refine fun hk => ⟨fun heq => ?_, hk⟩
    rw [Std.compare_eq_iff_eq] at heq
    exact h (heq ▸ hk)

/-- A frame of a known kind that was received is delivered. -/
theorem receiveFrame_eq_deliver {frame : WireFrame}
    (htype : frame.type = COR_FRAME_TYPE_REQUEST ∨ frame.type = COR_FRAME_TYPE_RESPONSE)
    (d : QCorConnectionPrivate) : receiveFrame d frame = deliver d frame.toQCorFrame := by
  obtain ⟨version, type, flags, correlationId, data, hsize⟩ := frame
  rcases htype with rfl | rfl
  · rfl
  · by_cases hreply : correlationId ∈ d.replies
    · simp [receiveFrame, onParserFrameEnd, WireFrame.header, WireFrame.toQCorFrame, deliver, outcome,
        repliesAfter, hreply, COR_FRAME_TYPE_REQUEST, COR_FRAME_TYPE_RESPONSE]
    · simp [receiveFrame, onParserFrameEnd, WireFrame.header, WireFrame.toQCorFrame, deliver, outcome,
        repliesAfter, hreply, erase_of_not_mem hreply, COR_FRAME_TYPE_REQUEST, COR_FRAME_TYPE_RESPONSE]

/-- A frame whose end is noticed is delivered, and the parser is idle again. -/
theorem consume_item {item : SendQueueItem} (hitem : IsFrame item)
    (hsize : item.data.length < 2 ^ 32) (d : QCorConnectionPrivate) {more : List UInt8}
    (hsome : item.data ++ more ≠ []) :
    consumeIdle d (write item ++ more) = consumeIdle (deliver d (frameOf item)) more := by
  obtain ⟨frame, hwrite, hdata, hframe, htype⟩ := exists_frame hitem hsize
  rw [← hdata] at hsome
  rw [hwrite, consume_frame frame d hsome, receiveFrame_eq_deliver htype, hframe]

/-- A frame without a body stays in the parser until more is read. -/
theorem consume_last_item {item : SendQueueItem} (hitem : IsFrame item) (hempty : item.data = [])
    (d : QCorConnectionPrivate) :
    (consumeIdle d (write item)).1.1.state = .bodyData := by
  obtain ⟨frame, hwrite, hdata, -, -⟩ := exists_frame hitem (by rw [hempty]; decide)
  rw [hwrite, WireFrame.bytes, hdata, hempty, consume_header, consumeFrom, Resumable.consume_nil]

/-- Every item takes some bytes. -/
theorem write_ne_nil (item : SendQueueItem) : write item ≠ [] :=
  List.append_ne_nil_of_left_ne_nil (List.ne_nil_of_length_pos (by simp [writeUInt16])) _

/-- Frames are delivered one after the other as long as something is left to read after those
without a body. -/
theorem consume_items {items : List SendQueueItem} (hitems : ∀ item ∈ items, IsFrame item)
    (hsize : ∀ item ∈ items, item.data.length < 2 ^ 32) {more : List UInt8}
    (hlast : ∀ item ∈ items.getLast?, item.data ++ more ≠ []) (d : QCorConnectionPrivate) :
    consumeIdle d (items.flatMap write ++ more) =
      consumeIdle ((items.map frameOf).foldl deliver d) more := by
  induction items generalizing d with
  | nil => rfl
  | cons item items ih =>
    have hsome : item.data ++ (items.flatMap write ++ more) ≠ [] := by
      cases items with
      | nil => exact hlast item rfl
      | cons next items =>
        rw [List.flatMap_cons, List.append_assoc]
        exact List.append_ne_nil_of_right_ne_nil _
          (List.append_ne_nil_of_left_ne_nil (write_ne_nil next) _)
    have hlast' : ∀ last ∈ items.getLast?, last.data ++ more ≠ [] := by
      intro last hmem
      cases items with
      | nil => contradiction
      | cons next items => exact hlast last hmem
    rw [List.flatMap_cons, List.append_assoc,
      consume_item (hitems item List.mem_cons_self) (hsize item List.mem_cons_self) d hsome,
      ih (fun later hlater => hitems later (List.mem_cons_of_mem _ hlater))
        (fun later hlater => hsize later (List.mem_cons_of_mem _ hlater)) hlast']
    rfl

/-- What was delivered grows by the outcomes of the frames. -/
theorem delivered_foldl (frames : List QCorFrame) (d : QCorConnectionPrivate) :
    (frames.foldl deliver d).delivered = d.delivered ++ outcomes d.replies frames := by
  induction frames generalizing d with
  | nil => exact (List.append_nil _).symm
  | cons frame frames ih =>
    rw [List.foldl_cons, ih]
    exact (List.append_cons _ _ _).symm

end Ts3Video.QCorConnection
