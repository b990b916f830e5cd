import Ts3Video.Client.WireInvariant
import Ts3Video.Library.Simulation

/-!
# The wire does not matter

A client and the server on the wire do what they do without it: what one of them is told of is what the other
one has sent, in the same order and for the slot that waits for it. So what holds in every run of messages
holds in every run of bytes.
-/

namespace Ts3Video

open Std QCorConnection Session SessionEnd NetworkClient

namespace WiredSystem

variable {wire : Wire} {fromUtf8 : List UInt8 → String} {opts : VirtualServerOptions}
  {bans : ExtTreeSet String} {a : ℤ} {s : WiredSystem}

/-- What is answered or outstanding was outstanding or is asked for now, seen by one client. -/
theorem subperm_idsFor {first second : List (ℤ × UInt32)} (h : first.Subperm second) :
    (idsFor a first).Subperm (idsFor a second) := by
  obtain ⟨between, hperm, hsublist⟩ := h
  exact ⟨idsFor a between, (hperm.filter _).map _, (hsublist.filter _).map _⟩

/-- A list has no more duplicates than one that has each of its elements as often. -/
theorem nodup_of_subperm {α : Type*} {first second : List α} (h : first.Subperm second)
    (hnodup : second.Nodup) : first.Nodup := by
  obtain ⟨between, hperm, hsublist⟩ := h
  exact hperm.nodup_iff.mp (hnodup.sublist hsublist)

/-- A request is asked for once. -/
theorem nodup_asked (a : ℤ) (event : VirtualServer.Event) : (idsFor a event.asked).Nodup := by
  cases event with
  | newIncomingRequest c correlationId document =>
    rw [VirtualServer.Event.asked, idsFor]
    exact ((List.nodup_singleton _).filter _).map_on (by simp +contextual)
  | _ => exact List.nodup_nil

/-- The bodies of the items that carry documents are read back. -/
theorem readable_of_carries {sent : List Outgoing} {items : List SendQueueItem}
    (hcarries : List.Forall₂ wire.Carries sent items)
    (hfits : ∀ outgoing ∈ sent, wire.Fits outgoing.document) :
    ∀ item ∈ items, item.data ≠ [] ∧
      ∃ document : QJsonObject, wire.fromJson item.data = some (.object document) := by
  intro item hitem
  obtain ⟨outgoing, hmem, hone⟩ := PairedLists.exists_partner hcarries.flip hitem
  have hdocument := hfits outgoing hmem
  cases hone with
  | request correlationId flags document => exact ⟨hdocument.nonempty, document, hdocument.readBack⟩
  | response correlationId flags document => exact ⟨hdocument.nonempty, document, hdocument.readBack⟩

/-- The items that carry documents are the messages for the slot that waits for the responses. -/
theorem map_of_carries {sent : List Outgoing} {items : List SendQueueItem} {slot : ReplySlot}
    {slots : List (UInt32 × ReplySlot)} (hcarries : List.Forall₂ wire.Carries sent items)
    (hfits : ∀ outgoing ∈ sent, wire.Fits outgoing.document)
    (hslot : ∀ outgoing ∈ sent, ∀ correlationId ∈ outgoing.answeredId?,
      slots.lookup correlationId = some slot) :
    items.map (message wire slots) = sent.map (Outgoing.toMessage slot) := by
  induction hcarries with
  | nil => rfl
  | cons hone _ ih =>
    rw [List.map_cons, List.map_cons, Wire.message_of_carries hone (hfits _ List.mem_cons_self)
      (hslot _ List.mem_cons_self), ih (fun later hlater => hfits later (List.mem_cons_of_mem _ hlater))
      fun later hlater => hslot later (List.mem_cons_of_mem _ hlater)]

/-- An event of the server is the same event without the wire. -/
theorem Linked.server (h : Linked wire fromUtf8 opts bans a s) {event : VirtualServer.Event}
    {server : VirtualServer} {out : List Effect}
    (hstep : VirtualServer.step fromUtf8 s.server event = some (server, out))
    (hasked : ∀ correlationId ∈ idsFor a event.asked, s.Handled correlationId ∧
      correlationId ∉ s.answeredIds a ∧ (correlationId, event.replySlot) ∈ s.slots)
    (hfits : ∀ outgoing ∈ out.filterMap (Effect.outgoing? a), wire.Fits outgoing.document)
    (hids : (s.session .server).requested.length +
      (out.filterMap (Effect.outgoing? a)).countP Outgoing.isRequest < 2 ^ 32) (accepted : List String) :
    ∃ session, wire.sendAll .server s.session (out.filterMap (Effect.outgoing? a)) = some session ∧
      Linked wire fromUtf8 opts bans a { s with server, session, accepted } ∧
      WiredSystem.toClientSystem wire { s with server, session, accepted } =
        { s.toClientSystem wire with
          server
          messages := (s.toClientSystem wire).messages ++ messagesTo a event.replySlot out
          accepted } := by
  have hchange := VirtualServer.answersAsked_of_step hstep
  have hanswered : ∀ correlationId ∈ idsFor a (VirtualServer.answered out),
      s.Handled correlationId ∧ (correlationId, event.replySlot) ∈ s.slots := by
    intro correlationId hmem
    rcases hchange.answered_slot _ (mem_idsFor.mp hmem) with hask | ⟨hwaits, hslot⟩
    · have hfresh := hasked correlationId (mem_idsFor.mpr hask)
      exact ⟨hfresh.1, hfresh.2.2⟩
    · have hwaiting := mem_idsFor.mpr hwaits
      exact ⟨h.answers correlationId (List.mem_append_right _ hwaiting),
        hslot ▸ h.waiting correlationId hwaiting⟩
  have hsent_ids : ∀ outgoing ∈ out.filterMap (Effect.outgoing? a),
      ∀ correlationId ∈ outgoing.answeredId?, correlationId ∈ idsFor a (VirtualServer.answered out) := by
    intro outgoing hmem correlationId hid
    rw [← answeredIds_outgoing]
    exact List.mem_filterMap.mpr ⟨outgoing, hmem, hid⟩
  have hsendable : ∀ outgoing ∈ out.filterMap (Effect.outgoing? a),
      wire.Sendable s.session .server outgoing := by
    refine fun outgoing hmem => ⟨hfits outgoing hmem, fun correlationId hid => ?_⟩
    obtain ⟨n, -, frame, hfound, hframe⟩ := (hanswered _ (hsent_ids outgoing hmem correlationId hid)).1
    exact ⟨frame, List.mem_of_getElem? hfound, hframe⟩
  obtain ⟨session, hall, hinvariant, hsent⟩ := Wire.exists_sendAll h.session hsendable hids
  obtain ⟨items, haccepted, hcarries⟩ := hsent.accepted
  have hclient : (session .client).accepted = (s.session .client).accepted := hsent.acceptedOther
  have hresponses : idsOf COR_FRAME_TYPE_RESPONSE (session .server).accepted =
      idsOf COR_FRAME_TYPE_RESPONSE (s.session .server).accepted ++
        idsFor a (VirtualServer.answered out) := by
    rw [haccepted, idsOf_append, Wire.idsOf_response_carried hcarries, answeredIds_outgoing]
  -- each answer was outstanding or is asked for now, and what is asked for now has no answer yet
  have hsubperm : (idsOf COR_FRAME_TYPE_RESPONSE (session .server).accepted ++
      idsFor a server.outstanding).Subperm (s.answeredIds a ++ idsFor a event.asked) := by
    rw [hresponses, answeredIds, List.append_assoc, List.append_assoc, ← idsFor_append, ← idsFor_append]
    exact (List.subperm_append_left _).mpr (subperm_idsFor hchange.subperm)
  have hnodup : (s.answeredIds a ++ idsFor a event.asked).Nodup :=
    List.nodup_append.mpr ⟨h.distinct, nodup_asked a event, fun id hid other hother heq =>
      (hasked other hother).2.1 (heq ▸ hid)⟩
  refine ⟨session, hall, ?_, ?_⟩
  · refine ⟨h.reachable.next hstep, hinvariant, fun side => ?_, ?_, ?_, ?_,
      nodup_of_subperm hsubperm hnodup, fun correlationId hmem => ?_, fun correlationId hmem => ?_⟩
    · rw [hsent.delivered]
      exact h.handled side
    · rw [requested, hclient]
      exact h.slots
    · rw [hclient]
      exact h.asked
    · rw [haccepted]
      intro item hitem
      rcases List.mem_append.mp hitem with hold | hnew
      · exact h.readable item hold
      · exact readable_of_carries hcarries hfits item hnew
    · have hhandled : s.Handled correlationId := by
        rcases List.mem_append.mp (hsubperm.subset hmem) with hold | hnew
        · exact h.answers correlationId hold
        · exact (hasked correlationId hnew).1
      exact hhandled.mono (Nat.le_refl _) (by rw [hsent.delivered])
    · rcases hchange.outstanding_slot _ (mem_idsFor.mp hmem) with hold | ⟨hnew, hslot⟩
      · exact h.waiting correlationId (mem_idsFor.mpr hold)
      · exact hslot ▸ (hasked correlationId (mem_idsFor.mpr hnew)).2.2
  · have hmessages : items.map (message wire s.slots) = messagesTo a event.replySlot out := by
      rw [messagesTo_eq]
      refine map_of_carries hcarries hfits fun outgoing hmem correlationId hid => ?_
      exact h.lookup_slots (hanswered _ (hsent_ids outgoing hmem correlationId hid)).2
    rw [← hmessages, ← messages_append (h.handled .client) h.session haccepted]
    rfl

/-- The client is in another state. -/
theorem Linked.withClient (h : Linked wire fromUtf8 opts bans a s) (client : NetworkClient) :
    Linked wire fromUtf8 opts bans a { s with client } :=
  ⟨h.reachable, h.session, h.handled, h.slots, h.asked, h.readable, h.distinct, h.answers, h.waiting⟩

/-- The responses of the server are for requests that have been made, so later requests do not change what
they are. -/
theorem Linked.message_append (h : Linked wire fromUtf8 opts bans a s) {item : SendQueueItem}
    (hitem : item ∈ (s.session .server).accepted) (more : List (UInt32 × ReplySlot)) :
    message wire (s.slots ++ more) item = message wire s.slots item := by
  obtain ⟨⟨type, id, flags, data, htype, rfl⟩, -⟩ := (h.session.sound .server).frames item hitem
  rcases htype with rfl | rfl
  · rw [message_of_request rfl, message_of_request rfl]
  · obtain ⟨request, hrequest, htype, hid, -⟩ := h.session.answers .server _ hitem rfl
    have hmade : id ∈ s.slots.map Prod.fst := by
      rw [h.slots]
      exact mem_requested hrequest htype hid
    rw [message_of_response rfl, message_of_response rfl]
    exact congrArg (fun slot => Message.response (slot.getD .ignored) _) (lookup_append_of_mem hmade)

/-- A request of the client gets the next id, with the slot for its action. It is not seen without the
wire. -/
theorem Linked.request (h : Linked wire fromUtf8 opts bans a s) {action : String} {parameters : QJsonObject}
    {slot : ReplySlot} (hslot : slot = replySlot action)
    (hfits : wire.Fits (JsonProtocolHelper.createJsonRequest action parameters))
    (hids : (s.session .client).requested.length + 1 < 2 ^ 32) :
    ∃ session, wire.sendAll .client s.session
        [.request (JsonProtocolHelper.createJsonRequest action parameters)] = some session ∧
      Linked wire fromUtf8 opts bans a
        { (s.request slot (JsonProtocolHelper.createJsonRequest action parameters)).system with session } ∧
      WiredSystem.toClientSystem wire
          { (s.request slot (JsonProtocolHelper.createJsonRequest action parameters)).system with session } =
        s.toClientSystem wire := by
  generalize hdocument : JsonProtocolHelper.createJsonRequest action parameters = document at hfits ⊢
  have hsendable : wire.Sendable s.session .client (.request document) :=
    ⟨hfits, fun _ hnone => absurd hnone (Option.not_mem_none _)⟩
  obtain ⟨session, hsend, hinvariant, hchanged⟩ := Wire.exists_send h.session hsendable fun _ => hids
  obtain ⟨q, hsending, -⟩ := (h.session.sound .client).sending
  have hid : (s.session .client).d.nextCorrelationId + 1 =
      UInt32.ofNat ((s.session .client).requested.length + 1) := by
    rw [hsending.id_eq, UInt32.ofNat_add]
    rfl
  have haccepted : (session .client).accepted = (s.session .client).accepted ++
      [newItem COR_FRAME_TYPE_REQUEST (UInt32.ofNat ((s.session .client).requested.length + 1))
        (wire.flags .client (s.session .client).accepted.length) (wire.toJson document)] := hchanged.accepted
  have hserver : (session .server).accepted = (s.session .server).accepted := hchanged.acceptedOther
  have hdelivered := Wire.delivered_of_send hchanged
  have hrequested : (session .client).requested = (s.session .client).requested ++
      [(s.session .client).d.nextCorrelationId + 1] := by
    rw [requested, haccepted, idsOf_append, hid]
    rfl
  have hslots : (s.slots ++ [((s.session .client).d.nextCorrelationId + 1, slot)]).map Prod.fst =
      (session .client).requested := by
    rw [List.map_append, h.slots, hrequested]
    rfl
  refine ⟨session, ?_, ?_, ?_⟩
  · rw [Wire.sendAll, List.foldlM_cons, hsend]
    rfl
  · refine ⟨h.reachable, hinvariant, fun side => ?_, hslots, ?_, ?_, ?_, fun correlationId hmem => ?_,
      fun correlationId hmem => List.mem_append_left _ (h.waiting correlationId hmem)⟩
    · change s.handled side ≤ (session side).d.delivered.length
      rw [hdelivered]
      exact h.handled side
    · intro item hitem htype
      change item ∈ (session .client).accepted at hitem
      rw [haccepted] at hitem
      rcases List.mem_append.mp hitem with hold | hnew
      · obtain ⟨before, earlier, hread, hfound⟩ := h.asked item hold htype
        exact ⟨before, earlier, hread, List.mem_append_left _ hfound⟩
      · rw [List.mem_singleton.mp hnew]
        refine ⟨action, parameters, hdocument ▸ hfits.readBack, List.mem_append_right _ ?_⟩
        rw [hid, hslot]
        exact List.mem_singleton_self _
    · change ∀ item ∈ (session .server).accepted, _
      rw [hserver]
      exact h.readable
    · change (idsOf _ (session .server).accepted ++ _).Nodup
      rw [hserver]
      exact h.distinct
    · change correlationId ∈ idsOf _ (session .server).accepted ++ _ at hmem
      rw [hserver] at hmem
      refine (h.answers correlationId hmem).mono (Nat.le_refl _) ?_
      change _ <+: (session .server).d.delivered
      rw [hdelivered]
  · -- the responses in flight are for requests that were made before
    have hmessages : ((session .server).accepted.drop (s.handled .client)).map (message wire
        (s.slots ++ [((s.session .client).d.nextCorrelationId + 1, slot)])) =
          (s.toClientSystem wire).messages := by
      rw [hserver]
      refine List.map_congr_left fun item hitem => ?_
      exact h.message_append (List.mem_of_mem_drop hitem) _
    exact congrArg (fun messages => ClientSystem.mk s.server s.client messages s.accepted) hmessages

/-- The client answers a request that it has been told of. That is not seen without the wire. -/
theorem Linked.respond (h : Linked wire fromUtf8 opts bans a s) {frame : QCorFrame} {document : QJsonObject}
    {correlationId : UInt32} (hframe : frame.correlationId = some correlationId)
    (hdelivered : .newIncomingRequest (some frame) ∈ (s.session .client).d.delivered)
    (hfits : wire.Fits document) :
    ∃ session, wire.sendAll .client s.session [.response correlationId document] = some session ∧
      Linked wire fromUtf8 opts bans a { s with session } ∧
      WiredSystem.toClientSystem wire { s with session } = s.toClientSystem wire := by
  have hsendable : wire.Sendable s.session .client (.response correlationId document) :=
    ⟨hfits, fun id hid => ⟨frame, hdelivered, hframe.trans hid⟩⟩
  obtain ⟨session, hsend, hinvariant, hchanged⟩ :=
    Wire.exists_send h.session hsendable fun hrequest => Bool.noConfusion hrequest
  have haccepted : (session .client).accepted = (s.session .client).accepted ++
      [newItem COR_FRAME_TYPE_RESPONSE correlationId
        (wire.flags .client (s.session .client).accepted.length) (wire.toJson document)] := hchanged.accepted
  have hserver : (session .server).accepted = (s.session .server).accepted := hchanged.acceptedOther
  have hsame := Wire.delivered_of_send hchanged
  refine ⟨session, ?_, ?_, ?_⟩
  · rw [Wire.sendAll, List.foldlM_cons, hsend]
    rfl
  · refine ⟨h.reachable, hinvariant, fun side => ?_, ?_, ?_, ?_, ?_, fun id hmem => ?_, h.waiting⟩
    · rw [hsame]
      exact h.handled side
    · rw [requested, haccepted, idsOf_append, h.slots]
      exact (List.append_nil _).symm
    · rw [haccepted]
      intro item hitem htype
      rcases List.mem_append.mp hitem with hold | hnew
      · exact h.asked item hold htype
      · rw [List.mem_singleton.mp hnew] at htype
        change some COR_FRAME_TYPE_RESPONSE = some COR_FRAME_TYPE_REQUEST at htype
        exact absurd htype (by decide)
    · rw [hserver]
      exact h.readable
    · rw [answeredIds, hserver]
      exact h.distinct
    · rw [answeredIds, hserver] at hmem
      refine (h.answers id hmem).mono (Nat.le_refl _) ?_
      change _ <+: (session .server).d.delivered
      rw [hsame]
  · rw [toClientSystem, hserver]
    rfl

/-- What happens without the applications is not seen without the wire. -/
theorem Linked.transport (h : Linked wire fromUtf8 opts bans a s) (side : Side) (event : TransportEvent) :
    ∃ session out, Session.step s.session (side, event.toEndEvent) = some (session, out) ∧
      Linked wire fromUtf8 opts bans a { s with session } ∧
        WiredSystem.toClientSystem wire { s with session } = s.toClientSystem wire := by
  have hpolite : Polite anyAnswer s.session (side, event.toEndEvent) := by
    cases event with
    | onCurrentSendItemDone => trivial
    | onSocketReadyRead sizes => trivial
  obtain ⟨session, out, hstep, hinvariant, hchanged⟩ := h.session.changed hpolite
  have hitems : event.toEndEvent.items (s.session side).requested.length = [] := by
    cases event with
    | onCurrentSendItemDone => rfl
    | onSocketReadyRead sizes => rfl
  have haccepted : ∀ x, (session x).accepted = (s.session x).accepted := by
    intro x
    rcases side.eq_or_eq_other x with rfl | rfl
    · rw [hchanged.accepted, hitems, List.append_nil]
    · exact hchanged.acceptedOther
  have hdelivered : ∀ x, (s.session x).d.delivered <+: (session x).d.delivered := by
    intro x
    rcases side.eq_or_eq_other x with rfl | rfl
    · exact hchanged.delivered
    · rw [hchanged.deliveredOther]
  refine ⟨session, out, hstep, ⟨h.reachable, hinvariant,
    fun x => (h.handled x).trans (hdelivered x).length_le, ?_, ?_, ?_, ?_, fun id hmem => ?_, h.waiting⟩, ?_⟩
  · rw [requested, haccepted]
    exact h.slots
  · rw [haccepted]
    exact h.asked
  · rw [haccepted]
    exact h.readable
  · rw [answeredIds, haccepted]
    exact h.distinct
  · rw [answeredIds, haccepted] at hmem
    exact (h.answers id hmem).mono (Nat.le_refl _) (hdelivered .server)
  · rw [toClientSystem, haccepted]
    rfl

/-- The client is told of the first message in flight, and nothing else changes. -/
theorem Linked.received (h : Linked wire fromUtf8 opts bans a s) {delivery : Delivery}
    (hnext : s.nextDelivery .client = some delivery) :
    ∃ item, item ∈ (s.session .server).accepted ∧ DeliveredAs item delivery ∧
      (s.toClientSystem wire).messages =
        message wire s.slots item :: ((s.advance .client).toClientSystem wire).messages := by
  have hnodup : (idsOf COR_FRAME_TYPE_RESPONSE (s.session Side.client.other).accepted).Nodup :=
    (List.nodup_append.mp h.distinct).1
  obtain ⟨item, hitem, hdelivered⟩ := h.session.deliveredAs hnodup hnext
  change (s.session .server).accepted[s.handled .client]? = some item at hitem
  obtain ⟨hlt, hfound⟩ := List.getElem?_eq_some_iff.mp hitem
  refine ⟨item, List.mem_of_getElem? hitem, hdelivered, ?_⟩
  change ((s.session .server).accepted.drop (s.handled .client)).map (message wire s.slots) = _ ::
    ((s.session .server).accepted.drop (s.handled .client + 1)).map (message wire s.slots)
  rw [List.drop_eq_getElem_cons hlt, List.map_cons]
  exact congrArg (fun first => message wire s.slots first :: _) hfound

/-- The response to a request arrives in its slot. -/
theorem receive_response (d : NetworkClient) (slot : ReplySlot) (document : QJsonObject) :
    d.receive (.response slot document) = some (d.finish slot (some (.object document))) := by
  cases slot with
  | onAuthFinished => rfl
  | onJoinChannelFinished => rfl
  | ignored => rfl

/-- What becomes of an event on the wire, seen without it. -/
abbrev Mirrored (wire : Wire) (fromUtf8 : List UInt8 → String) (opts : VirtualServerOptions)
    (bans : ExtTreeSet String) (a : ℤ) (s : WiredSystem) :=
  Simulation.Mirrored (ClientSystem.step fromUtf8 a) (Linked wire fromUtf8 opts bans a)
    (toClientSystem wire) (s.toClientSystem wire)

/-- An event that nothing is sent in is not seen without the wire. -/
theorem Linked.mirrored_silent (h : Linked wire fromUtf8 opts bans a s) (side : Side) :
    Mirrored wire fromUtf8 opts bans a s none (s.transmit wire { system := s, side }) :=
  .unseen h rfl

/-- What is transmitted is seen without the wire. -/
theorem mirrored_transmit {s' : WiredSystem} {done : Outcome} {e : ClientSystem.Event}
    (hsend : s.transmit wire done = some (s', done.out)) (hlinked : Linked wire fromUtf8 opts bans a s')
    (hstep : ClientSystem.step fromUtf8 a (s.toClientSystem wire) e =
      some (s'.toClientSystem wire, done.out)) :
    Mirrored wire fromUtf8 opts bans a s (some e) (s.transmit wire done) := by
  rw [hsend]
  exact .seen hlinked hstep

/-- An event of the server that asks for nothing new is the same event without the wire. -/
theorem Linked.mirrored_serverEvent (h : Linked wire fromUtf8 opts bans a s) {event : VirtualServer.Event}
    (hasked : ∀ correlationId ∈ idsFor a event.asked, s.Handled correlationId ∧
      correlationId ∉ s.answeredIds a ∧ (correlationId, event.replySlot) ∈ s.slots)
    (hfits : ∀ done ∈ s.serverEvent fromUtf8 a event,
      (∀ outgoing ∈ done.sent, wire.Fits outgoing.document) ∧
        (s.session done.side).requested.length + done.sent.countP Outgoing.isRequest < 2 ^ 32) :
    Mirrored wire fromUtf8 opts bans a s (some (.server event))
      ((s.serverEvent fromUtf8 a event).bind (s.transmit wire)) := by
  cases hstep : VirtualServer.step fromUtf8 s.server event with
  | none =>
    rw [serverEvent, hstep]
    exact .stuck (by rw [ClientSystem.step]; exact congrArg (Option.map _) hstep)
  | some done =>
    rw [serverEvent, hstep, Option.map_some] at hfits ⊢
    obtain ⟨session, hsend, hlinked, hmessages⟩ := h.server hstep hasked (hfits _ rfl).1 (hfits _ rfl).2
      (s.accepted ++ ClientSystem.acceptedTokens fromUtf8 a s.server event)
    rw [Option.bind_some, transmit, hsend]
    refine .seen hlinked ?_
    rw [ClientSystem.step, hmessages]
    exact congrArg (Option.map _) hstep

/-- A delivery that is a request for the server is that of a frame. -/
theorem exists_frame_of_requestOf {delivery : Delivery} {event : VirtualServer.Event}
    (h : wire.requestOf a delivery = some event) : ∃ frame, delivery = .newIncomingRequest (some frame) ∧
      event = .newIncomingRequest a (frame.correlationId.getD 0) (wire.fromJson frame.data) := by
  cases delivery with
  | newIncomingRequest frame =>
    cases frame with
    | none => contradiction
    | some frame => exact ⟨frame, rfl, (Option.some.inj h).symm⟩
  | finished correlationId frame => contradiction
  | dropped frame => contradiction

/-- The server is told of its next delivery on the wire as without it. -/
theorem Linked.mirrored_serverReceives (h : Linked wire fromUtf8 opts bans a s)
    (hfits : Fits wire fromUtf8 a s .serverReceives) :
    Mirrored wire fromUtf8 opts bans a s (mirror wire a s .serverReceives)
      ((s.serverReceives wire fromUtf8 a).bind (s.transmit wire)) := by
  rw [Fits, outcome] at hfits
  rw [mirror]
  rw [serverReceives] at hfits ⊢
  by_cases hgone : a ∉ s.server.connections
  · rw [if_pos hgone, if_pos hgone]
    exact h.mirrored_silent .server
  rw [if_neg hgone] at hfits
  rw [if_neg hgone, if_neg hgone]
  cases hnext : s.nextDelivery .server with
  | none => exact h.mirrored_silent .server
  | some delivery =>
    rw [hnext] at hfits
    rw [Option.bind_some]
    dsimp only at hfits ⊢
    have hadvanced := h.advance hnext
    cases hrequest : wire.requestOf a delivery with
    | none => exact .unseen hadvanced rfl
    | some event =>
      rw [hrequest] at hfits
      obtain ⟨frame, rfl, rfl⟩ := exists_frame_of_requestOf hrequest
      obtain ⟨action, parameters, correlationId, hread, hid, hslot, hhandled, hfresh⟩ := h.next_request hnext
      rw [hread, hid, Option.getD_some] at hfits ⊢
      have hasked : ∀ id ∈ idsFor a [(a, correlationId)], (s.advance .server).Handled id ∧
          id ∉ (s.advance .server).answeredIds a ∧ (id, replySlot action) ∈ s.slots := by
        intro id hmem
        obtain rfl : id = correlationId := (Prod.mk.inj (List.mem_singleton.mp (mem_idsFor.mp hmem))).2
        exact ⟨hhandled, hfresh, hslot⟩
      rw [← replySlot_createJsonRequest a correlationId action parameters] at hasked
      exact hadvanced.mirrored_serverEvent hasked hfits

/-- The client is told of its next delivery on the wire as without it. -/
theorem Linked.mirrored_clientReceives (h : Linked wire fromUtf8 opts bans a s)
    (hfits : Fits wire fromUtf8 a s .clientReceives) :
    Mirrored wire fromUtf8 opts bans a s (mirror wire a s .clientReceives)
      ((s.clientReceives wire).bind (s.transmit wire)) := by
  rw [Fits, outcome] at hfits
  rw [mirror]
  rw [clientReceives] at hfits ⊢
  cases hnext : s.nextDelivery .client with
  | none => exact h.mirrored_silent .client
  | some delivery =>
    rw [hnext] at hfits
    obtain ⟨item, hitem, hdelivered, hmessages⟩ := h.received hnext
    obtain ⟨-, document, hread⟩ := h.readable item hitem
    have hframe : wire.fromJson (frameOf item).data = some (.object document) := hread
    cases hdelivered with
    | request correlationId htype hid =>
      have hresponds : (frameOf item).correlationId = some correlationId := hid
      have hreceive : ClientSystem.step fromUtf8 a (s.toClientSystem wire) .receive =
          ((s.client.onNewIncomingRequest (some (.object document))).map Prod.fst).map fun client =>
            ({ (s.advance .client).toClientSystem wire with client }, []) := by
        rw [ClientSystem.step, hmessages, message_of_request htype, hread]
        rfl
      dsimp only at hfits ⊢
      rw [hframe] at hfits ⊢
      cases hhandle : s.client.onNewIncomingRequest (some (.object document)) with
      | none =>
        rw [hhandle] at hreceive
        exact .stuck hreceive
      | some done =>
        rw [hhandle] at hfits hreceive
        have hresponse : wire.Fits done.2 := (hfits _ rfl).1 _ (List.mem_singleton_self _)
        obtain ⟨session, hsend, hlinked, hsame⟩ := ((h.advance hnext).withClient done.1).respond hresponds
          (List.mem_of_getElem? hnext) hresponse
        rw [hresponds, Option.getD_some]
        refine mirrored_transmit (congrArg (Option.map _) hsend) hlinked ?_
        rw [hsame]
        exact hreceive
    | response correlationId htype hid =>
      refine .seen ((h.advance hnext).withClient _) ?_
      rw [ClientSystem.step, hmessages, message_of_response htype, hid, hread]
      change (s.client.receive (.response (s.slot correlationId) document)).map _ = _
      rw [receive_response, ← hframe]
      rfl

/-- A request that the client makes is not seen without the wire. -/
theorem Linked.transmit_request (h : Linked wire fromUtf8 opts bans a s) {action : String}
    {parameters : QJsonObject} {slot : ReplySlot} (hslot : slot = replySlot action)
    (hfits : wire.Fits (JsonProtocolHelper.createJsonRequest action parameters))
    (hids : (s.session .client).requested.length + 1 < 2 ^ 32) :
    ∃ s', s.transmit wire (s.request slot (JsonProtocolHelper.createJsonRequest action parameters)) =
        some (s', []) ∧
      Linked wire fromUtf8 opts bans a s' ∧ s'.toClientSystem wire = s.toClientSystem wire := by
  obtain ⟨session, hsend, hlinked, hsame⟩ := h.request hslot hfits hids
  exact ⟨_, congrArg (Option.map _) hsend, hlinked, hsame⟩

/-- Every event on the wire whose documents fit is an event without it or is not seen there. -/
theorem mirrors_clientSystem (wire : Wire) (fromUtf8 : List UInt8 → String) (opts : VirtualServerOptions)
    (bans : ExtTreeSet String) (a : ℤ) :
    Simulation.Mirrors (step wire fromUtf8 a) (ClientSystem.step fromUtf8 a)
      (Linked wire fromUtf8 opts bans a) (Fits wire fromUtf8 a) (toClientSystem wire) (mirror wire a) := by
  intro s e h hfits
  cases e with
  | server event =>
    rw [Fits, outcome] at hfits
    change Mirrored wire fromUtf8 opts bans a s _
      ((s.outcome wire fromUtf8 a (.server event)).bind (s.transmit wire))
    rw [outcome, mirror]
    by_cases hrequest : event.isRequestOf a = true
    · rw [if_pos hrequest, if_pos hrequest]
      exact h.mirrored_silent .server
    · rw [if_neg hrequest] at hfits
      rw [if_neg hrequest, if_neg hrequest]
      have hnone : idsFor a event.asked = [] := by
        cases event with
        | newIncomingRequest c correlationId document =>
          have hne : ¬ c = a := fun heq => hrequest (decide_eq_true heq)
          simp [idsFor, VirtualServer.Event.asked, hne]
        | _ => rfl
      exact h.mirrored_serverEvent (fun id hmem => absurd (hnone ▸ hmem) List.not_mem_nil) hfits
  | serverReceives => exact h.mirrored_serverReceives hfits
  | clientReceives => exact h.mirrored_clientReceives hfits
  | sendRequest action parameters =>
    have hone := hfits _ rfl
    obtain ⟨s', hsend, hlinked, hsame⟩ := h.transmit_request rfl
      (hone.1 _ (List.mem_singleton_self _)) hone.2
    change Mirrored wire fromUtf8 opts bans a s _ (s.transmit wire _)
    rw [hsend]
    exact .unseen hlinked hsame
  | enableVideoStream width height bitrate =>
    have hone := hfits _ rfl
    have hslot : ReplySlot.ignored = replySlot "clientenablevideo" := by decide
    obtain ⟨s', hsend, hlinked, hsame⟩ := (h.withClient
      (s.client.enableVideoStream width height bitrate).1).transmit_request hslot
        (hone.1 _ (List.mem_singleton_self _)) hone.2
    exact mirrored_transmit hsend hlinked (by rw [hsame]; rfl)
  | disableVideoStream =>
    have hone := hfits _ rfl
    have hslot : ReplySlot.ignored = replySlot "clientdisablevideo" := by decide
    obtain ⟨s', hsend, hlinked, hsame⟩ := (h.withClient s.client.disableVideoStream.1).transmit_request hslot
      (hone.1 _ (List.mem_singleton_self _)) hone.2
    exact mirrored_transmit hsend hlinked (by rw [hsame]; rfl)
  | transport side event =>
    obtain ⟨session, out, hstep, hlinked, hsame⟩ := h.transport side event
    rw [step, hstep]
    exact .unseen hlinked hsame

end WiredSystem

end Ts3Video
