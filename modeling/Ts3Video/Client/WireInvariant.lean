import Ts3Video.Client.ParticipantAgreement
import Ts3Video.Client.WireSending

/-!
# What the wire keeps

A response of the server carries the id of a request that it has been told of, no two responses carry the
same id, and the slot that waits for it is the one that the action of this request calls for. So every item of
the server is delivered to the client as the message that it stands for.
-/

namespace Ts3Video

open Std QCorConnection Session SessionEnd NetworkClient

namespace WiredSystem

variable {wire : Wire} {fromUtf8 : List UInt8 → String} {opts : VirtualServerOptions}
  {bans : ExtTreeSet String} {a : ℤ} {s : WiredSystem} {t : Session}

/-- The server has been told of a request under this id. -/
def Handled (s : WiredSystem) (correlationId : UInt32) : Prop :=
  ∃ n < s.handled .server, ∃ frame : QCorFrame,
    (s.session .server).d.delivered[n]? = some (.newIncomingRequest (some frame)) ∧
      frame.correlationId = some correlationId

/-- The ids that the server has answered or will answer. -/
def answeredIds (a : ℤ) (s : WiredSystem) : List UInt32 :=
  idsOf COR_FRAME_TYPE_RESPONSE (s.session .server).accepted ++ idsFor a s.server.outstanding

/-- What holds of a client and the server on the wire. -/
structure Linked (wire : Wire) (fromUtf8 : List UInt8 → String) (opts : VirtualServerOptions)
    (bans : ExtTreeSet String) (a : ℤ) (s : WiredSystem) : Prop where
  reachable : Runs.Reachable (VirtualServer.step fromUtf8) (VirtualServer.init opts bans) s.server
  session : Invariant anyAnswer s.session
  handled : ∀ side, s.handled side ≤ (s.session side).d.delivered.length
  slots : s.slots.map Prod.fst = (s.session .client).requested
  asked : ∀ item ∈ (s.session .client).accepted, item.frame.type = some COR_FRAME_TYPE_REQUEST →
    ∃ action parameters,
      wire.fromJson item.data = some (.object (JsonProtocolHelper.createJsonRequest action parameters)) ∧
        (item.frame.correlationId.getD 0, replySlot action) ∈ s.slots
  readable : ∀ item ∈ (s.session .server).accepted, item.data ≠ [] ∧
    ∃ document : QJsonObject, wire.fromJson item.data = some (.object document)
  distinct : (s.answeredIds a).Nodup
  answers : ∀ correlationId ∈ s.answeredIds a, s.Handled correlationId
  waiting : ∀ correlationId ∈ idsFor a s.server.outstanding, (correlationId, .onAuthFinished) ∈ s.slots

/-- Nothing has been sent. -/
theorem linked_init (wire : Wire) (fromUtf8 : List UInt8 → String) (opts : VirtualServerOptions)
    (bans : ExtTreeSet String) (a : ℤ) : Linked wire fromUtf8 opts bans a (init opts bans) where
  reachable := .refl _
  session := invariant_init anyAnswer
  handled _ := Nat.le_refl 0
  slots := rfl
  asked _ hitem := absurd hitem List.not_mem_nil
  readable _ hitem := absurd hitem List.not_mem_nil
  distinct := List.nodup_nil
  answers _ hmem := absurd hmem List.not_mem_nil
  waiting _ hmem := absurd hmem List.not_mem_nil

/-- The slot of a request is found under its id. -/
theorem Linked.lookup_slots (h : Linked wire fromUtf8 opts bans a s) {correlationId : UInt32}
    {slot : ReplySlot} (hmem : (correlationId, slot) ∈ s.slots) :
    s.slots.lookup correlationId = some slot := by
  have hnodup : (s.slots.map Prod.fst).Nodup := by
    rw [h.slots]
    exact ((h.session.callsWork .client).distinct)
  generalize s.slots = slots at hmem hnodup
  induction slots with
  | nil => exact absurd hmem List.not_mem_nil
  | cons first slots ih =>
    obtain ⟨hfresh, hrest⟩ := List.nodup_cons.mp hnodup
    obtain ⟨id, found⟩ := first
    rcases List.mem_cons.mp hmem with heq | hlater
    · obtain ⟨rfl, rfl⟩ := Prod.mk.inj heq
      exact List.lookup_cons_self
    · have hne : correlationId ≠ id := fun heq =>
        hfresh (List.mem_map.mpr ⟨_, hlater, heq⟩)
      rw [List.lookup_cons, beq_false_of_ne hne]
      exact ih hlater hrest

/-- A request that is made later does not change the slots of the earlier ones. -/
theorem lookup_append_of_mem {slots more : List (UInt32 × ReplySlot)} {correlationId : UInt32}
    (hmem : correlationId ∈ slots.map Prod.fst) :
    (slots ++ more).lookup correlationId = slots.lookup correlationId := by
  rw [List.lookup_append]
  cases hlookup : slots.lookup correlationId with
  | some slot => rfl
  | none =>
    obtain ⟨⟨id, slot⟩, hentry, rfl⟩ := List.mem_map.mp hmem
    have hnot := List.lookup_eq_none_iff.mp hlookup _ hentry
    exact absurd hnot (by simp)

/-- What the server has been told of does not become less. -/
theorem Handled.mono {s' : WiredSystem} {correlationId : UInt32} (h : s.Handled correlationId)
    (hhandled : s.handled .server ≤ s'.handled .server)
    (hdelivered : (s.session .server).d.delivered <+: (s'.session .server).d.delivered) :
    s'.Handled correlationId := by
  obtain ⟨n, hlt, frame, hfound, hid⟩ := h
  refine ⟨n, hlt.trans_le hhandled, frame, ?_, hid⟩
  obtain ⟨hbound, heq⟩ := List.getElem?_eq_some_iff.mp hfound
  rw [← heq]
  exact (List.prefix_iff_getElem?.mp hdelivered) n hbound

/-- An end has been told of one more delivery. -/
theorem Linked.advance (h : Linked wire fromUtf8 opts bans a s) {side : Side} {delivery : Delivery}
    (hnext : s.nextDelivery side = some delivery) :
    Linked wire fromUtf8 opts bans a (s.advance side) := by
  have hbound := (List.getElem?_eq_some_iff.mp hnext).1
  refine ⟨h.reachable, h.session, fun x => ?_, h.slots, h.asked, h.readable, h.distinct,
    fun correlationId hmem => (h.answers correlationId hmem).mono ?_ List.prefix_rfl, h.waiting⟩
  · rw [WiredSystem.advance]
    dsimp only
    split
    next heq => exact heq ▸ hbound
    next => exact h.handled x
  · rw [WiredSystem.advance]
    dsimp only
    split
    · exact Nat.le_succ _
    · exact Nat.le_refl _

/-- A request that the server is told of next was made by the client, in the slot for its action, and has
not been answered. -/
theorem Linked.next_request (h : Linked wire fromUtf8 opts bans a s) {frame : QCorFrame}
    (hnext : s.nextDelivery .server = some (.newIncomingRequest (some frame))) :
    ∃ action parameters correlationId,
      wire.fromJson frame.data =
          some (.object (JsonProtocolHelper.createJsonRequest action parameters)) ∧
        frame.correlationId = some correlationId ∧ (correlationId, replySlot action) ∈ s.slots ∧
          (s.advance .server).Handled correlationId ∧ correlationId ∉ s.answeredIds a := by
  obtain ⟨item, hitem, correlationId, hid, hdelivers⟩ := h.session.exists_item hnext
  have hmem := List.mem_of_getElem? hitem
  obtain ⟨⟨type, id, flags, data, htype, rfl⟩, -⟩ := (h.session.sound .client).frames item hmem
  obtain rfl := Option.some.inj hid
  rcases htype with rfl | rfl
  · obtain rfl := Option.some.inj (Delivery.newIncomingRequest.inj hdelivers)
    obtain ⟨action, parameters, hread, hslot⟩ := h.asked _ hmem rfl
    refine ⟨action, parameters, id, hread, rfl, hslot, ?_, fun hanswered => ?_⟩
    · exact ⟨s.handled .server, by simp [WiredSystem.advance], _, hnext, rfl⟩
    · -- a request with this id was delivered before, at another place
      obtain ⟨n, hlt, earlier, hfound, hearlier⟩ := h.answers id hanswered
      obtain ⟨other, hother, id', hid', hdelivers'⟩ := h.session.exists_item hfound
      obtain ⟨⟨type, id'', flags', data', htype, rfl⟩, -⟩ :=
        (h.session.sound .client).frames other (List.mem_of_getElem? hother)
      rcases htype with rfl | rfl
      · obtain rfl := Option.some.inj (Delivery.newIncomingRequest.inj hdelivers')
        obtain rfl := Option.some.inj hearlier
        have hsame := eq_of_idsOf_nodup (h.session.callsWork .client).distinct hother hitem rfl rfl rfl
        omega
      · rcases hdelivers' with hfinished | hdropped
        · contradiction
        · contradiction
  · rcases hdelivers with hfinished | hdropped
    · contradiction
    · contradiction

/-- The slot of the event that a request is for the server. -/
theorem replySlot_createJsonRequest (a : ℤ) (correlationId : UInt32) (action : String)
    (parameters : QJsonObject) :
    VirtualServer.Event.replySlot (.newIncomingRequest a correlationId
      (some (.object (JsonProtocolHelper.createJsonRequest action parameters)))) = replySlot action := by
  rw [VirtualServer.Event.replySlot, fromJsonRequest_createJsonRequest]
  by_cases hempty : action.isEmpty = true
  · rw [if_pos hempty, String.isEmpty_iff.mp hempty]
    rfl
  · rw [if_neg hempty]

/-- What is in flight when the server has sent more. -/
theorem messages_append (h : s.handled .client ≤ (s.session .client).d.delivered.length)
    (hsession : Invariant anyAnswer s.session) {accepted items : List SendQueueItem}
    (haccepted : accepted = (s.session .server).accepted ++ items) :
    (accepted.drop (s.handled .client)).map (message wire s.slots) =
      (s.toClientSystem wire).messages ++ items.map (message wire s.slots) := by
  have hle : s.handled .client ≤ (s.session .server).accepted.length :=
    h.trans (hsession.length_delivered_le .client)
  rw [haccepted, List.drop_append_of_le_length hle, List.map_append, toClientSystem]

end WiredSystem

end Ts3Video
