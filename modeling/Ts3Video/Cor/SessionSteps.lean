import Ts3Video.Cor.RemoteCalls

/-!
# What happens to the applications of a session

An application puts items into the queue of its end and is told of deliveries in their order. The delivery of
one end at some place is that of the item which the other end has accepted at the same place. A response is
never dropped if no two responses carry the same id.
-/

namespace Ts3Video

open Std QCorConnection QCorConnectionPrivate

namespace Session

open SessionEnd
open ObservedConnection (finishedReplies)

/-- Any answer will do. -/
def anyAnswer : Side → List UInt8 → List UInt8 → Prop := fun _ _ _ => True

/-- The items that an event puts into the queue, if this is the number of requests made before. -/
def EndEvent.items (count : ℕ) : EndEvent → List SendQueueItem
  | .sendRequest flags data => [newItem COR_FRAME_TYPE_REQUEST (UInt32.ofNat (count + 1)) flags data]
  | .sendResponse correlationId flags data => [newItem COR_FRAME_TYPE_RESPONSE correlationId flags data]
  | _ => []

/-- The event is a read. -/
def EndEvent.IsRead : EndEvent → Prop
  | .onSocketReadyRead _ => True
  | _ => False

variable {s t : Session} {side : Side} {e : EndEvent} {service : Side → List UInt8 → List UInt8 → Prop}

/-- What an event at one end does, as far as the applications can tell. -/
structure Changed (s : Session) (side : Side) (e : EndEvent) (t : Session) : Prop where
  accepted : (t side).accepted = (s side).accepted ++ e.items (s side).requested.length
  acceptedOther : (t side.other).accepted = (s side.other).accepted
  deliveredOther : (t side.other).d.delivered = (s side.other).d.delivered
  delivered : (s side).d.delivered <+: (t side).d.delivered
  nothing : ¬ e.IsRead → (t side).d.delivered = (s side).d.delivered

/-- The frames that end add deliveries. -/
theorem delivered_receiveFrames (frames : List WireFrame) (d : QCorConnectionPrivate) :
    d.delivered <+: (frames.foldl receiveFrame d).delivered := by
  induction frames generalizing d with
  | nil => exact List.prefix_rfl
  | cons frame frames ih =>
    obtain ⟨delivery, hone⟩ := delivered_onParserFrameEnd { request := some frame.header }
      { d with frame := some frame.toQCorFrame }
    have hfirst : d.delivered <+: (receiveFrame d frame).delivered := ⟨[delivery], hone.symm⟩
    exact hfirst.trans (ih _)

/-- A read adds deliveries. -/
theorem Receiving.delivered_read {frames : List WireFrame} {tail : List UInt8}
    {receiver sender : SessionEnd} (h : Receiving frames tail receiver sender) (hsound : receiver.Sound)
    (reads : List (List UInt8)) : receiver.d.delivered <+:
      (receiver.posting.connection.onSocketReadyRead reads).d.delivered := by
  obtain ⟨q, hsending, -⟩ := hsound.sending
  obtain ⟨more, rest, -, -, hdelivered⟩ := h.progress.read (onSocketReadyRead_eq hsending.ready reads).symm
  have hprefix := delivered_receiveFrames more { receiver.d with frame := none }
  rw [← hdelivered] at hprefix
  exact hprefix

/-- A polite event is processed, and the applications see what it does. -/
theorem Invariant.changed (h : Invariant service s) (hpolite : Polite service s (side, e)) :
    ∃ t out, Session.step s (side, e) = some (t, out) ∧ Invariant service t ∧ Changed s side e t := by
  obtain ⟨posting, out, hstep, hposting, -, -, haccepted⟩ := exists_step (h.sound side) hpolite
  obtain ⟨q, hsending, -⟩ := (h.sound side).sending
  obtain ⟨frames, tail, hreceiving⟩ := h.receiving side
  refine ⟨_, _, hstep, h.step hpolite hstep, ?_⟩
  have hother : (s.after side e posting out side.other).accepted = (s side.other).accepted ∧
      (s.after side e posting out side.other).d.delivered = (s side.other).d.delivered := by
    rw [after_other]
    exact ⟨rfl, rfl⟩
  have hnext : UInt32.ofNat (s side).requested.length + 1 = UInt32.ofNat ((s side).requested.length + 1) :=
    (UInt32.ofNat_add _ 1).symm
  have hdelivered : (s side).d.delivered <+: posting.connection.d.delivered ∧
      (¬ e.IsRead → posting.connection.d.delivered = (s side).d.delivered) := by
    cases e with
    | sendRequest flags data =>
      obtain ⟨queue, current, hconnection⟩ := PostingConnection.step_sendRequest hsending.connected hposting
      have hsame : posting.connection.d.delivered = (s side).d.delivered := by
        rw [hconnection]
        rfl
      exact ⟨hsame ▸ List.prefix_rfl, fun _ => hsame⟩
    | onSocketReadyRead sizes =>
      obtain rfl := PostingConnection.step_onSocketReadyRead hposting
      exact ⟨hreceiving.delivered_read (h.sound side) _, fun hnot => absurd trivial hnot⟩
    | _ =>
      obtain ⟨queue, current, hconnection⟩ := PostingConnection.step_send (by simp [EndEvent.toEvent])
        (by simp [EndEvent.toEvent]) hposting
      have hsame : posting.connection.d.delivered = (s side).d.delivered := by
        rw [hconnection]
        rfl
      exact ⟨hsame ▸ List.prefix_rfl, fun _ => hsame⟩
  refine ⟨?_, hother.1, hother.2, ?_, ?_⟩
  · rw [after_self, haccepted]
    cases e with
    | sendRequest flags data =>
      rw [EndEvent.items, ← hnext]
      rfl
    | _ => rfl
  · rw [after_self]
    exact hdelivered.1
  · rw [after_self]
    exact hdelivered.2

/-- The delivery at some place is that of the item at the same place. -/
theorem Invariant.exists_item (h : Invariant service s) {n : ℕ} {delivery : Delivery}
    (hdelivery : (s side).d.delivered[n]? = some delivery) :
    ∃ item, (s side.other).accepted[n]? = some item ∧ Delivers delivery (frameOf item) := by
  obtain ⟨frames, tail, hreceiving⟩ := h.receiving side
  obtain ⟨sent, later, haccepted, hdelivered, -⟩ :=
    hreceiving.exists_delivered (h.sound side.other).frames
  obtain ⟨hlt, rfl⟩ := List.getElem?_eq_some_iff.mp hdelivery
  have hlength : n < sent.length := by
    have := hdelivered.length_eq
    rw [List.length_map] at this
    omega
  refine ⟨sent[n], ?_, ?_⟩
  · rw [haccepted, List.getElem?_append_left hlength, List.getElem?_eq_getElem hlength]
  · have hpair := hdelivered.get hlt (by rwa [List.length_map])
    rw [List.get_eq_getElem, List.get_eq_getElem, List.getElem_map] at hpair
    exact hpair

/-- What has been delivered has been accepted. -/
theorem Invariant.length_delivered_le (h : Invariant service s) (side : Side) :
    (s side).d.delivered.length ≤ (s side.other).accepted.length := by
  obtain ⟨frames, tail, hreceiving⟩ := h.receiving side
  obtain ⟨sent, later, haccepted, hdelivered, -⟩ :=
    hreceiving.exists_delivered (h.sound side.other).frames
  rw [haccepted, hdelivered.length_eq, List.length_map, List.length_append]
  exact Nat.le_add_right _ _

/-- Items of one type at two places have different ids if no id is used twice. -/
theorem eq_of_idsOf_nodup {type : UInt16} {items : List SendQueueItem} (h : (idsOf type items).Nodup)
    {m n : ℕ} {first second : SendQueueItem} (hfirst : items[m]? = some first)
    (hsecond : items[n]? = some second) (htype : first.frame.type = some type)
    (htype' : second.frame.type = some type)
    (hid : first.frame.correlationId.getD 0 = second.frame.correlationId.getD 0) : m = n := by
  have hnot : ∀ {m n : ℕ} {first second : SendQueueItem}, items[m]? = some first → items[n]? = some second →
      first.frame.type = some type → second.frame.type = some type →
      first.frame.correlationId.getD 0 = second.frame.correlationId.getD 0 → ¬ m < n := by
    intro m n first second hfirst hsecond htype htype' hid hlt
    obtain ⟨hn, rfl⟩ := List.getElem?_eq_some_iff.mp hsecond
    have hmem : first ∈ items.take n := by
      refine List.mem_iff_getElem?.mpr ⟨m, ?_⟩
      rw [List.getElem?_take_of_lt hlt, hfirst]
    have hsplit : items = items.take n ++ items[n] :: items.drop (n + 1) := by
      rw [List.getElem_cons_drop, List.take_append_drop]
    rw [hsplit, idsOf_append] at h
    refine (List.nodup_append.mp h).2.2 _ (List.mem_map_of_mem (List.mem_filter.mpr ⟨hmem,
      decide_eq_true htype⟩)) _ (List.mem_map_of_mem (List.mem_filter.mpr ⟨List.mem_cons_self,
      decide_eq_true htype'⟩)) hid
  exact Nat.le_antisymm (Nat.not_lt.mp (hnot hsecond hfirst htype' htype hid.symm))
    (Nat.not_lt.mp (hnot hfirst hsecond htype htype' hid))

/-- A finished reply was delivered at some place. -/
theorem exists_finished {delivered : List Delivery} {correlationId : UInt32}
    (h : correlationId ∈ (finishedReplies delivered).map Prod.fst) :
    ∃ (n : ℕ) (frame : Option QCorFrame), delivered[n]? = some (Delivery.finished correlationId frame) := by
  obtain ⟨⟨id, frame⟩, hmem, rfl⟩ := List.mem_map.mp h
  obtain ⟨delivery, hdelivery, hfinished⟩ := List.mem_filterMap.mp hmem
  obtain ⟨n, hn⟩ := List.mem_iff_getElem?.mp hdelivery
  refine ⟨n, frame, hn.trans ?_⟩
  cases delivery with
  | finished other found =>
    obtain ⟨rfl, rfl⟩ := Prod.mk.inj (Option.some.inj hfinished)
    rfl
  | newIncomingRequest found => contradiction
  | dropped found => contradiction

/-- An item is delivered as a request, or it finishes the reply that waits for its id. -/
inductive DeliveredAs (item : SendQueueItem) : Delivery → Prop
  | request (correlationId : UInt32) (htype : item.frame.type = some COR_FRAME_TYPE_REQUEST)
    (hid : item.frame.correlationId = some correlationId) :
    DeliveredAs item (.newIncomingRequest (some (frameOf item)))
  | response (correlationId : UInt32) (htype : item.frame.type = some COR_FRAME_TYPE_RESPONSE)
    (hid : item.frame.correlationId = some correlationId) :
    DeliveredAs item (.finished correlationId (some (frameOf item)))

/-- No response is dropped if each answers another request. -/
theorem Invariant.deliveredAs (h : Invariant service s)
    (hnodup : (idsOf COR_FRAME_TYPE_RESPONSE (s side.other).accepted).Nodup) {n : ℕ} {delivery : Delivery}
    (hdelivery : (s side).d.delivered[n]? = some delivery) :
    ∃ item, (s side.other).accepted[n]? = some item ∧ DeliveredAs item delivery := by
  obtain ⟨item, hitem, correlationId, hid, hdelivers⟩ := h.exists_item hdelivery
  refine ⟨item, hitem, ?_⟩
  have hid' : item.frame.correlationId = some correlationId := hid
  obtain ⟨⟨type, id, flags, data, htype, rfl⟩, -⟩ :=
    (h.sound side.other).frames item (List.mem_of_getElem? hitem)
  obtain rfl := Option.some.inj hid'
  rcases htype with rfl | rfl
  · have hkind : (frameOf (newItem COR_FRAME_TYPE_REQUEST id flags data)).type = .RequestType := rfl
    rw [hkind] at hdelivers
    rw [hdelivers]
    exact .request id rfl rfl
  · have hkind : (frameOf (newItem COR_FRAME_TYPE_RESPONSE id flags data)).type = .ResponseType := rfl
    rw [hkind] at hdelivers
    rcases hdelivers with rfl | rfl
    · exact .response id rfl rfl
    · -- the reply was finished before, by a response with the same id at another place
      obtain ⟨hlt, heq⟩ := List.getElem?_eq_some_iff.mp hdelivery
      have hsplit : (s side).d.delivered = (s side).d.delivered.take n ++
          .dropped (some (frameOf (newItem COR_FRAME_TYPE_RESPONSE id flags data))) ::
            (s side).d.delivered.drop (n + 1) := by
        rw [← heq, List.getElem_cons_drop, List.take_append_drop]
      obtain ⟨other, hother, hbefore⟩ := (h.callsWork side).dropped _ _ _ hsplit
      obtain rfl := Option.some.inj hother
      obtain ⟨m, found, hm⟩ := exists_finished hbefore
      have hmn : m < n := by
        have := (List.getElem?_eq_some_iff.mp hm).1
        rw [List.length_take] at this
        omega
      rw [List.getElem?_take_of_lt hmn] at hm
      obtain ⟨earlier, hearlier, id', hid', hdelivers⟩ := h.exists_item hm
      obtain ⟨⟨type, id'', flags', data', htype, rfl⟩, -⟩ :=
        (h.sound side.other).frames earlier (List.mem_of_getElem? hearlier)
      obtain rfl := Option.some.inj hid'
      rcases htype with rfl | rfl
      · change Delivery.finished _ _ = Delivery.newIncomingRequest _ at hdelivers
        contradiction
      · have hsame : id = id'' := by
          rcases hdelivers with hfinished | hdropped
          · exact (Delivery.finished.inj hfinished).1
          · contradiction
        have := eq_of_idsOf_nodup hnodup hearlier hitem rfl rfl hsame.symm
        omega

end Session

end Ts3Video
