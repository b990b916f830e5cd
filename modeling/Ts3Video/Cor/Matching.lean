import Ts3Video.Cor.Session
import Ts3Video.Library.PairedLists

/-!
# The frames of a session and their deliveries

The frames that end at one end are written for the items that the other end has accepted. A request is
handed out, and a response finishes the reply that waits for it. If every response that ends carries the id
of a request made before, then it is dropped only if it is not the first one for its request.
-/

namespace Ts3Video

open Std QCorConnection QCorConnectionPrivate

namespace Session

open ObservedConnection (finishedReplies)

/-- A frame is what is written for an item. -/
structure Encodes (frame : WireFrame) (item : SendQueueItem) : Prop where
  item_eq : item = newItem frame.type frame.correlationId frame.flags frame.data
  bytes_eq : write item = frame.bytes
  kind : frame.type = COR_FRAME_TYPE_REQUEST ∨ frame.type = COR_FRAME_TYPE_RESPONSE

variable {frame : WireFrame} {item : SendQueueItem} {frames : List WireFrame}
  {items : List SendQueueItem} {rest tail : List UInt8} {d d' : QCorConnectionPrivate}
  {requested : List UInt32} {correlationId : UInt32}

/-- The application should see the frame of the item. -/
theorem Encodes.toQCorFrame_eq (h : Encodes frame item) : frame.toQCorFrame = frameOf item := by
  simp [h.item_eq, frameOf, newItem, WireFrame.toQCorFrame]

/-- An item that was accepted is written as a frame. -/
theorem exists_encodes (hitem : IsFrame item) (hsize : item.data.length < 2 ^ 32) :
    ∃ frame, Encodes frame item := by
  obtain ⟨type, correlationId, flags, data, htype, rfl⟩ := hitem
  have hlength : (UInt32.ofNat data.length).toNat = data.length := UInt32.toNat_ofNat_of_lt' hsize
  exact ⟨⟨1, type, flags, correlationId, data, hsize⟩, rfl,
    by simp [write, newItem, WireFrame.bytes, hlength], htype⟩

/-- The frames that a stream of items begins with are those of the first items. -/
theorem exists_sent (hitems : ∀ item ∈ items, IsFrame item ∧ item.data.length < 2 ^ 32)
    (hstream : items.flatMap write = frames.flatMap WireFrame.bytes ++ rest) :
    ∃ sent later, items = sent ++ later ∧ List.Forall₂ Encodes frames sent ∧
      rest = later.flatMap write := by
  induction frames generalizing items with
  | nil => exact ⟨[], items, rfl, .nil, hstream.symm⟩
  | cons frame frames ih =>
    rw [List.flatMap_cons, List.append_assoc] at hstream
    cases items with
    | nil =>
      have hlength := congrArg List.length hstream
      rw [List.flatMap_nil, List.length_append, frame.bytes_length, List.length_nil] at hlength
      omega
    | cons item items =>
      have hfirst := hitems item List.mem_cons_self
      obtain ⟨wire, hwire⟩ := exists_encodes hfirst.1 hfirst.2
      rw [List.flatMap_cons, hwire.bytes_eq] at hstream
      obtain ⟨rfl, hrest⟩ := WireFrame.bytes_append_inj hstream
      obtain ⟨sent, later, rfl, hsent, hlater⟩ :=
        ih (fun item hmem => hitems item (List.mem_cons_of_mem _ hmem)) hrest
      exact ⟨item :: sent, later, rfl, .cons hwire hsent, hlater⟩

/-- What a frame of a known kind does when it ends: a request is handed out, a response finishes the reply
that waits for it, and a response for which none waits is dropped. -/
theorem receiveFrame_known
    (hkind : frame.type = COR_FRAME_TYPE_REQUEST ∨ frame.type = COR_FRAME_TYPE_RESPONSE)
    (d : QCorConnectionPrivate) :
    (frame.type = COR_FRAME_TYPE_REQUEST ∧ (receiveFrame d frame).replies = d.replies ∧
        (receiveFrame d frame).delivered =
          d.delivered ++ [.newIncomingRequest (some frame.toQCorFrame)]) ∨
      (frame.type = COR_FRAME_TYPE_RESPONSE ∧ frame.correlationId ∈ d.replies ∧
        (receiveFrame d frame).replies = d.replies.erase frame.correlationId ∧
        (receiveFrame d frame).delivered =
          d.delivered ++ [.finished frame.correlationId (some frame.toQCorFrame)]) ∨
      (frame.type = COR_FRAME_TYPE_RESPONSE ∧ frame.correlationId ∉ d.replies ∧
        (receiveFrame d frame).replies = d.replies ∧
        (receiveFrame d frame).delivered = d.delivered ++ [.dropped (some frame.toQCorFrame)]) := by
  unfold receiveFrame onParserFrameEnd
  simp only [WireFrame.header, Option.bind_some, Option.some.injEq, Option.getD_some]
  rcases hkind with hrequest | hresponse
  · rw [if_pos hrequest]
    exact .inl ⟨hrequest, rfl, rfl⟩
  · have hnot : frame.type ≠ COR_FRAME_TYPE_REQUEST := by
      rw [hresponse]
      decide
    rw [if_neg hnot]
    by_cases hmem : frame.correlationId ∈ d.replies
    · rw [if_pos ⟨hresponse, hmem⟩]
      exact .inr (.inl ⟨hresponse, hmem, rfl, rfl⟩)
    · rw [if_neg fun h => hmem h.2]
      exact .inr (.inr ⟨hresponse, hmem, rfl, rfl⟩)

/-- The deliveries fit the frames that have ended, and the replies that wait are those of the requests made
that have not been finished. -/
structure Matched (requested : List UInt32) (frames : List WireFrame) (d : QCorConnectionPrivate) :
    Prop where
  delivered : List.Forall₂ (fun delivery frame => Delivers delivery frame.toQCorFrame) d.delivered frames
  pending : ∀ correlationId, correlationId ∈ d.replies ↔ correlationId ∈ requested ∧
    correlationId ∉ (finishedReplies d.delivered).map Prod.fst
  once : ((finishedReplies d.delivered).map Prod.fst).Nodup
  finished : ∀ correlationId frame, (correlationId, frame) ∈ finishedReplies d.delivered →
    ∃ wire ∈ frames, wire.type = COR_FRAME_TYPE_RESPONSE ∧ wire.correlationId = correlationId ∧
      frame = some wire.toQCorFrame
  dropped : ∀ before frame later, d.delivered = before ++ .dropped frame :: later →
    ∃ correlationId, frame.bind QCorFrame.correlationId = some correlationId ∧
      correlationId ∈ (finishedReplies before).map Prod.fst

/-- A request is a frame of its type. -/
theorem delivers_request (hrequest : frame.type = COR_FRAME_TYPE_REQUEST) :
    Delivers (.newIncomingRequest (some frame.toQCorFrame)) frame.toQCorFrame := by
  have htype : frame.toQCorFrame.type = .RequestType := by
    simp [WireFrame.toQCorFrame, hrequest, COR_FRAME_TYPE_REQUEST, COR_FRAME_TYPE_RESPONSE]
  refine ⟨frame.correlationId, rfl, ?_⟩
  rw [htype]

/-- A response finishes a reply or is dropped. -/
theorem delivers_response (hresponse : frame.type = COR_FRAME_TYPE_RESPONSE) {delivery : Delivery}
    (h : delivery = .finished frame.correlationId (some frame.toQCorFrame) ∨
      delivery = .dropped (some frame.toQCorFrame)) : Delivers delivery frame.toQCorFrame := by
  have htype : frame.toQCorFrame.type = .ResponseType := by
    rw [WireFrame.toQCorFrame, if_pos hresponse]
  refine ⟨frame.correlationId, rfl, ?_⟩
  rw [htype]
  exact h

/-- The finished replies of two lists of deliveries follow each other. -/
theorem finishedReplies_append (first second : List Delivery) :
    finishedReplies (first ++ second) = finishedReplies first ++ finishedReplies second :=
  List.filterMap_append

/-- What was dropped when one more frame is delivered was dropped before, unless it is this frame. -/
theorem dropped_append {delivered before later : List Delivery} {delivery : Delivery}
    {frame : Option QCorFrame} (h : delivered ++ [delivery] = before ++ .dropped frame :: later) :
    (∃ rest, delivered = before ++ .dropped frame :: rest) ∨
      delivered = before ∧ delivery = .dropped frame := by
  rcases List.eq_nil_or_concat later with rfl | ⟨rest, last, rfl⟩
  · obtain ⟨hbefore, hlast⟩ := List.append_inj' h rfl
    exact .inr ⟨hbefore, List.singleton_injective hlast⟩
  · rw [List.concat_eq_append, ← List.cons_append, ← List.append_assoc] at h
    exact .inl ⟨rest, (List.append_inj' h rfl).1⟩

/-- Only the replies and the deliveries count. -/
theorem Matched.congr (h : Matched requested frames d) (hreplies : d'.replies = d.replies)
    (hdelivered : d'.delivered = d.delivered) : Matched requested frames d' := by
  refine ⟨?_, ?_, ?_, ?_, ?_⟩
  · rw [hdelivered]
    exact h.delivered
  · rw [hreplies, hdelivered]
    exact h.pending
  · rw [hdelivered]
    exact h.once
  · rw [hdelivered]
    exact h.finished
  · rw [hdelivered]
    exact h.dropped

/-- A request is made under a new id, for which no response has been received. -/
theorem Matched.request (h : Matched requested frames d) (hfresh : correlationId ∉ requested)
    (hresponses : ∀ wire ∈ frames, wire.type = COR_FRAME_TYPE_RESPONSE →
      wire.correlationId ∈ requested)
    (hreplies : d'.replies = d.replies.insert correlationId)
    (hdelivered : d'.delivered = d.delivered) :
    Matched (requested ++ [correlationId]) frames d' := by
  have hunfinished : correlationId ∉ (finishedReplies d.delivered).map Prod.fst := by
    intro hmem
    obtain ⟨⟨other, found⟩, hfinished, rfl⟩ := List.mem_map.mp hmem
    obtain ⟨wire, hwire, hresponse, hid, -⟩ := h.finished other found hfinished
    exact hfresh (hid ▸ hresponses wire hwire hresponse)
  have hsame : Matched requested frames { d with delivered := d'.delivered } := h.congr rfl hdelivered
  refine ⟨hsame.delivered, fun other => ?_, hsame.once, hsame.finished, hsame.dropped⟩
  rw [hreplies, hdelivered, ExtTreeSet.mem_insert, Std.compare_eq_iff_eq, h.pending, List.mem_append,
    List.mem_singleton]
  constructor
  · rintro (rfl | ⟨hmem, hnot⟩)
    · exact ⟨.inr rfl, hunfinished⟩
    · exact ⟨.inl hmem, hnot⟩
  · rintro ⟨hmem | rfl, hnot⟩
    · exact .inr ⟨hmem, hnot⟩
    · exact .inl rfl

/-- A frame ends. If it is a response, it is one to a request that was made. -/
theorem Matched.receive (h : Matched requested frames d)
    (hkind : frame.type = COR_FRAME_TYPE_REQUEST ∨ frame.type = COR_FRAME_TYPE_RESPONSE)
    (hresponses : frame.type = COR_FRAME_TYPE_RESPONSE → frame.correlationId ∈ requested) :
    Matched requested (frames ++ [frame]) (receiveFrame d frame) := by
  have hmore : ∀ correlationId found, (correlationId, found) ∈ finishedReplies d.delivered →
      ∃ wire ∈ frames ++ [frame], wire.type = COR_FRAME_TYPE_RESPONSE ∧
        wire.correlationId = correlationId ∧ found = some wire.toQCorFrame := by
    intro correlationId found hfound
    obtain ⟨wire, hwire, hfits⟩ := h.finished correlationId found hfound
    exact ⟨wire, List.mem_append_left _ hwire, hfits⟩
  rcases receiveFrame_known hkind d with ⟨hrequest, hreplies, hdelivered⟩ |
    ⟨hresponse, hmem, hreplies, hdelivered⟩ | ⟨hresponse, hmem, hreplies, hdelivered⟩
  · have hfinished : finishedReplies (receiveFrame d frame).delivered = finishedReplies d.delivered := by
      rw [hdelivered, finishedReplies_append]
      exact List.append_nil _
    refine ⟨?_, by rw [hreplies, hfinished]; exact h.pending, by rw [hfinished]; exact h.once,
      by rw [hfinished]; exact hmore, fun before found later heq => ?_⟩
    · rw [hdelivered]
      exact List.rel_append h.delivered (.cons (delivers_request hrequest) .nil)
    · rw [hdelivered] at heq
      rcases dropped_append heq with ⟨rest, hbefore⟩ | ⟨-, hlast⟩
      · exact h.dropped before found rest hbefore
      · exact absurd hlast (by simp)
  · have hfinished : finishedReplies (receiveFrame d frame).delivered =
        finishedReplies d.delivered ++ [(frame.correlationId, some frame.toQCorFrame)] := by
      rw [hdelivered, finishedReplies_append]
      rfl
    have hwaits := ((h.pending _).mp hmem).2
    refine ⟨?_, fun other => ?_, ?_, fun other found hfound => ?_, fun before found later heq => ?_⟩
    · rw [hdelivered]
      exact List.rel_append h.delivered (.cons (delivers_response hresponse (.inl rfl)) .nil)
    · rw [hreplies, hfinished, ExtTreeSet.mem_erase, Ne, Std.compare_eq_iff_eq, h.pending,
        List.map_append, List.mem_append, List.map_singleton, List.mem_singleton, not_or]
      constructor
      · rintro ⟨hne, hmem, hnot⟩
        exact ⟨hmem, hnot, fun heq => hne heq.symm⟩
      · rintro ⟨hmem, hnot, hne⟩
        exact ⟨fun heq => hne heq.symm, hmem, hnot⟩
    · rw [hfinished, List.map_append, List.map_singleton]
      refine List.nodup_append.mpr ⟨h.once, List.pairwise_singleton _ _, fun id hid other hother heq => ?_⟩
      rw [heq, List.mem_singleton.mp hother] at hid
      exact hwaits hid
    · rw [hfinished, List.mem_append, List.mem_singleton] at hfound
      rcases hfound with hold | hnew
      · exact hmore other found hold
      · obtain ⟨rfl, rfl⟩ := Prod.mk.inj hnew
        exact ⟨frame, List.mem_append_right _ (List.mem_singleton_self _), hresponse, rfl, rfl⟩
    · rw [hdelivered] at heq
      rcases dropped_append heq with ⟨rest, hbefore⟩ | ⟨-, hlast⟩
      · exact h.dropped before found rest hbefore
      · exact absurd hlast (by simp)
  · have hfinished : finishedReplies (receiveFrame d frame).delivered = finishedReplies d.delivered := by
      rw [hdelivered, finishedReplies_append]
      exact List.append_nil _
    refine ⟨?_, by rw [hreplies, hfinished]; exact h.pending, by rw [hfinished]; exact h.once,
      by rw [hfinished]; exact hmore, fun before found later heq => ?_⟩
    · rw [hdelivered]
      exact List.rel_append h.delivered (.cons (delivers_response hresponse (.inr rfl)) .nil)
    · rw [hdelivered] at heq
      rcases dropped_append heq with ⟨rest, hbefore⟩ | ⟨rfl, hlast⟩
      · exact h.dropped before found rest hbefore
      · -- no reply waits for this id, and it is that of a request, so its reply was finished
        obtain rfl := Delivery.dropped.inj hlast
        refine ⟨frame.correlationId, rfl, ?_⟩
        by_contra hnot
        exact hmem ((h.pending _).mpr ⟨hresponses hresponse, hnot⟩)

/-- A request that was handed out is one of the frames. -/
theorem Matched.exists_request (h : Matched requested frames d) {request : QCorFrame}
    (hmem : .newIncomingRequest (some request) ∈ d.delivered) :
    ∃ wire ∈ frames, wire.toQCorFrame = request ∧ wire.type ≠ COR_FRAME_TYPE_RESPONSE := by
  obtain ⟨wire, hwire, id, -, hdelivers⟩ := PairedLists.exists_partner h.delivered hmem
  refine ⟨wire, hwire, ?_⟩
  by_cases hresponse : wire.type = COR_FRAME_TYPE_RESPONSE
  · have htype : wire.toQCorFrame.type = .ResponseType := by
      rw [WireFrame.toQCorFrame, if_pos hresponse]
    rw [htype] at hdelivers
    rcases hdelivers with heq | heq
    · exact absurd heq (by simp)
    · exact absurd heq (by simp)
  · have htype : wire.toQCorFrame.type = .RequestType := by
      rw [WireFrame.toQCorFrame, if_neg hresponse]
    rw [htype] at hdelivers
    exact ⟨(Option.some.inj (Delivery.newIncomingRequest.inj hdelivers)).symm, hresponse⟩

/-- Several frames end. -/
theorem Matched.receiveFrames (h : Matched requested frames d) {more : List WireFrame}
    (hmore : ∀ frame ∈ more,
      (frame.type = COR_FRAME_TYPE_REQUEST ∨ frame.type = COR_FRAME_TYPE_RESPONSE) ∧
        (frame.type = COR_FRAME_TYPE_RESPONSE → frame.correlationId ∈ requested)) :
    Matched requested (frames ++ more) (more.foldl receiveFrame d) := by
  induction more generalizing frames d with
  | nil => rwa [List.append_nil]
  | cons frame more ih =>
    have hfirst := hmore frame List.mem_cons_self
    have hone := ih (h.receive hfirst.1 hfirst.2) fun frame hmem =>
      hmore frame (List.mem_cons_of_mem _ hmem)
    rwa [List.append_assoc, List.singleton_append] at hone

end Session

end Ts3Video
