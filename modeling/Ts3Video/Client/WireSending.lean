import Ts3Video.Client.PendingAnswers
import Ts3Video.Client.WiredSystem

/-!
# Documents in the session

What an application sends is accepted as items that carry its documents, in their order. Nothing is delivered
by that, and the other end does not see it yet.
-/

namespace Ts3Video

open Std QCorConnection Session SessionEnd

/-- The correlation ids of one client. -/
def idsFor (a : ℤ) (asks : List (ℤ × UInt32)) : List UInt32 :=
  (asks.filter fun ask => ask.1 = a).map Prod.snd

/-- Two lists have the ids of both. -/
theorem idsFor_append (a : ℤ) (first second : List (ℤ × UInt32)) :
    idsFor a (first ++ second) = idsFor a first ++ idsFor a second := by
  rw [idsFor, List.filter_append, List.map_append, idsFor, idsFor]

/-- An id is one of the client. -/
theorem mem_idsFor {a : ℤ} {asks : List (ℤ × UInt32)} {correlationId : UInt32} :
    correlationId ∈ idsFor a asks ↔ (a, correlationId) ∈ asks := by
  rw [idsFor, List.mem_map]
  constructor
  · rintro ⟨⟨c, id⟩, hmem, rfl⟩
    obtain ⟨hmem, hclient⟩ := List.mem_filter.mp hmem
    rwa [show a = c from (of_decide_eq_true hclient).symm]
  · exact fun hmem => ⟨(a, correlationId), List.mem_filter.mpr ⟨hmem, decide_eq_true rfl⟩, rfl⟩

namespace Effect

/-- An effect is a message for the client if it hands something over to its connection. -/
theorem message?_eq (a : ℤ) (slot : NetworkClient.ReplySlot) (effect : Effect) :
    effect.message? a slot = (effect.outgoing? a).map (Outgoing.toMessage slot) := by
  cases effect with
  | sendRequest c request =>
    rw [message?, outgoing?]
    split
    · rfl
    · rfl
  | sendResponse c correlationId response =>
    rw [message?, outgoing?]
    split
    · rfl
    · rfl
  | _ => rfl

end Effect

/-- The messages to the client are what is handed over to its connection. -/
theorem messagesTo_eq (a : ℤ) (slot : NetworkClient.ReplySlot) (out : List Effect) :
    messagesTo a slot out = (out.filterMap (Effect.outgoing? a)).map (Outgoing.toMessage slot) := by
  rw [messagesTo, List.map_filterMap]
  exact congrArg (fun f => out.filterMap f) (funext fun effect => effect.message?_eq a slot)

/-- The responses that are handed over are the answers for the client. -/
theorem answeredIds_outgoing (a : ℤ) (out : List Effect) :
    (out.filterMap (Effect.outgoing? a)).filterMap Outgoing.answeredId? =
      idsFor a (VirtualServer.answered out) := by
  induction out with
  | nil => rfl
  | cons effect out ih =>
    have hone : ((Effect.outgoing? a effect).bind Outgoing.answeredId?).toList =
        idsFor a (VirtualServer.answered [effect]) := by
      cases effect with
      | sendRequest c request =>
        rw [Effect.outgoing?]
        split
        · rfl
        · rfl
      | sendResponse c correlationId response =>
        by_cases hclient : c = a
        · simp [Effect.outgoing?, hclient, Outgoing.answeredId?, idsFor, VirtualServer.answered, responses,
            Effect.response?]
        · simp [Effect.outgoing?, hclient, idsFor, VirtualServer.answered, responses, Effect.response?]
      | _ => rfl
    have hsplit : VirtualServer.answered (effect :: out) =
        VirtualServer.answered [effect] ++ VirtualServer.answered out := by
      rw [VirtualServer.answered, responses, ← List.singleton_append, List.filterMap_append, List.map_append]
      rfl
    rw [hsplit, idsFor_append, ← hone, ← ih, List.filterMap_cons]
    cases Effect.outgoing? a effect with
    | none => rfl
    | some outgoing =>
      rw [Option.bind_some, List.filterMap_cons]
      cases outgoing.answeredId? with
      | none => rfl
      | some correlationId => rfl

namespace WiredSystem

variable {wire : Wire} {slots : List (UInt32 × NetworkClient.ReplySlot)} {item : SendQueueItem}

/-- A request is a message for nobody in particular. -/
theorem message_of_request (htype : item.frame.type = some COR_FRAME_TYPE_REQUEST) :
    message wire slots item = .request ((wire.fromJson item.data).getD .null).toObject :=
  if_pos htype

/-- A response is a message for the slot that waits for it. -/
theorem message_of_response (htype : item.frame.type = some COR_FRAME_TYPE_RESPONSE) :
    message wire slots item =
      .response ((slots.lookup (item.frame.correlationId.getD 0)).getD .ignored)
        ((wire.fromJson item.data).getD .null).toObject := by
  refine if_neg ?_
  rw [htype]
  decide

end WiredSystem

namespace Wire

/-- A document is the body of an item. -/
inductive Carries (wire : Wire) : Outgoing → SendQueueItem → Prop
  | request (correlationId : UInt32) (flags : UInt8) (document : QJsonObject) :
    Carries wire (.request document)
      (newItem COR_FRAME_TYPE_REQUEST correlationId flags (wire.toJson document))
  | response (correlationId : UInt32) (flags : UInt8) (document : QJsonObject) :
    Carries wire (.response correlationId document)
      (newItem COR_FRAME_TYPE_RESPONSE correlationId flags (wire.toJson document))

/-- A document may be sent: it fits into a frame, and a response answers a request that was delivered. -/
structure Sendable (wire : Wire) (s : Session) (side : Side) (outgoing : Outgoing) : Prop where
  fits : wire.Fits outgoing.document
  asked : ∀ correlationId ∈ outgoing.answeredId?, ∃ request : QCorFrame,
    .newIncomingRequest (some request) ∈ (s side).d.delivered ∧
      request.correlationId = some correlationId

/-- One end has sent documents. -/
structure Sent (wire : Wire) (side : Side) (s : Session) (sent : List Outgoing) (t : Session) : Prop where
  accepted : ∃ items, (t side).accepted = (s side).accepted ++ items ∧
    List.Forall₂ wire.Carries sent items
  acceptedOther : (t side.other).accepted = (s side.other).accepted
  delivered : ∀ x, (t x).d.delivered = (s x).d.delivered

variable {wire : Wire} {side : Side} {s t : Session} {outgoing : Outgoing} {sent : List Outgoing}
  {items : List SendQueueItem} {item : SendQueueItem}

/-- The ids of the responses among the items. -/
theorem idsOf_response_carried (h : List.Forall₂ wire.Carries sent items) :
    idsOf COR_FRAME_TYPE_RESPONSE items = sent.filterMap Outgoing.answeredId? := by
  induction h with
  | nil => rfl
  | cons hone _ ih =>
    rw [← List.singleton_append, idsOf_append, ih]
    cases hone with
    | request => rfl
    | response => rfl

/-- A carried document is a message for the slot that waits for its id. -/
theorem message_of_carries (h : wire.Carries outgoing item) (hfits : wire.Fits outgoing.document)
    {slots : List (UInt32 × NetworkClient.ReplySlot)} {slot : NetworkClient.ReplySlot}
    (hslot : ∀ correlationId ∈ outgoing.answeredId?, slots.lookup correlationId = some slot) :
    WiredSystem.message wire slots item = outgoing.toMessage slot := by
  have hread := hfits.readBack
  cases h with
  | request correlationId flags document =>
    rw [WiredSystem.message_of_request rfl, Outgoing.toMessage]
    exact congrArg (fun document => NetworkClient.Message.request (document.getD .null).toObject) hread
  | response correlationId flags document =>
    rw [WiredSystem.message_of_response rfl, Outgoing.toMessage]
    refine congrArg₂ NetworkClient.Message.response ?_ ?_
    · exact congrArg (fun slot => slot.getD .ignored) (hslot correlationId rfl)
    · exact congrArg (fun document => (document.getD QJsonValue.null).toObject) hread

/-- The event that sends a document that may be sent is polite. -/
theorem Sendable.polite (h : wire.Sendable s side outgoing) (count : ℕ)
    (hids : outgoing.isRequest = true → (s side).requested.length + 1 < 2 ^ 32) :
    Polite anyAnswer s (side, wire.sendEvent side count outgoing) := by
  cases outgoing with
  | request document => exact ⟨h.fits.short, hids rfl⟩
  | response correlationId document =>
    obtain ⟨request, hdelivered, hid⟩ := h.asked correlationId rfl
    exact ⟨h.fits.short, request, hdelivered, hid, trivial⟩

/-- The item that a document becomes. -/
theorem items_sendEvent (wire : Wire) (side : Side) (count requested : ℕ) (outgoing : Outgoing) :
    ∃ item, (wire.sendEvent side count outgoing).items requested = [item] ∧ wire.Carries outgoing item ∧
      (idsOf COR_FRAME_TYPE_REQUEST [item]).length = [outgoing].countP Outgoing.isRequest := by
  cases outgoing with
  | request document => exact ⟨_, rfl, .request _ _ document, rfl⟩
  | response correlationId document => exact ⟨_, rfl, .response correlationId _ document, rfl⟩

/-- A document that may be sent is sent. -/
theorem exists_send (h : Invariant anyAnswer s) (hsendable : wire.Sendable s side outgoing)
    (hids : outgoing.isRequest = true → (s side).requested.length + 1 < 2 ^ 32) :
    ∃ t, wire.send side s outgoing = some t ∧ Invariant anyAnswer t ∧
      Changed s side (wire.sendEvent side (s side).accepted.length outgoing) t := by
  obtain ⟨t, out, hstep, hinvariant, hchanged⟩ :=
    h.changed (hsendable.polite (s side).accepted.length hids)
  exact ⟨t, by rw [send, hstep, Option.map_some], hinvariant, hchanged⟩

/-- Sending delivers nothing. -/
theorem delivered_of_send {count : ℕ}
    (h : Changed s side (wire.sendEvent side count outgoing) t) (x : Side) :
    (t x).d.delivered = (s x).d.delivered := by
  rcases side.eq_or_eq_other x with rfl | rfl
  · refine h.nothing ?_
    cases outgoing with
    | request document => exact id
    | response correlationId document => exact id
  · exact h.deliveredOther

/-- Documents that may be sent are sent in their order. -/
theorem exists_sendAll (h : Invariant anyAnswer s) (hsendable : ∀ outgoing ∈ sent, wire.Sendable s side outgoing)
    (hids : (s side).requested.length + sent.countP Outgoing.isRequest < 2 ^ 32) :
    ∃ t, wire.sendAll side s sent = some t ∧ Invariant anyAnswer t ∧ wire.Sent side s sent t := by
  induction sent generalizing s with
  | nil => exact ⟨s, rfl, h, ⟨[], (List.append_nil _).symm, .nil⟩, rfl, fun _ => rfl⟩
  | cons outgoing sent ih =>
    rw [List.countP_cons] at hids
    obtain ⟨u, hsend, hinvariant, hchanged⟩ := exists_send h (hsendable outgoing List.mem_cons_self)
      fun hrequest => by
        rw [if_pos hrequest] at hids
        omega
    obtain ⟨item, hitem, hcarries, hcount⟩ := items_sendEvent wire side (s side).accepted.length
      (s side).requested.length outgoing
    have hdelivered := delivered_of_send hchanged
    have haccepted := hchanged.accepted
    rw [hitem] at haccepted
    have hrequested : (u side).requested.length =
        (s side).requested.length + if outgoing.isRequest = true then 1 else 0 := by
      rw [requested, haccepted, idsOf_append, List.length_append, hcount, List.countP_cons, List.countP_nil,
        Nat.zero_add]
    obtain ⟨t, hall, hlater, hsent⟩ := ih hinvariant
      (fun later hmem => ⟨(hsendable later (List.mem_cons_of_mem _ hmem)).fits, by
        rw [hdelivered]
        exact (hsendable later (List.mem_cons_of_mem _ hmem)).asked⟩) (by omega)
    refine ⟨t, ?_, hlater, ?_⟩
    · rw [sendAll, List.foldlM_cons, hsend]
      exact hall
    · obtain ⟨items, hitems, hcarried⟩ := hsent.accepted
      refine ⟨⟨item :: items, ?_, .cons hcarries hcarried⟩, ?_, fun x => ?_⟩
      · rw [hitems, haccepted, List.append_assoc, List.singleton_append]
      · rw [hsent.acceptedOther, hchanged.acceptedOther]
      · rw [hsent.delivered, hdelivered]

end Wire

end Ts3Video
