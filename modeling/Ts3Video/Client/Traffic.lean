import Ts3Video.Client.ClientSystem
import Ts3Video.Server.Notifications

/-!
# What the server tells its clients

Only accepted tokens, join requests and lost connections have the server send what the list of members
or the media socket of a client depends on. Everything else is quiet.
-/

namespace Ts3Video

open Std NetworkClient ActionBase

/-- The message changes no list of members and authenticates no media socket. -/
structure NetworkClient.Message.Quiet (message : Message) : Prop where
  ids : ∀ ids, message.updateIds ids = ids
  success : ¬ message.IsMediaAuthSuccess

/-- Whichever client it is for, the effect is quiet. -/
def Effect.Quiet (effect : Effect) : Prop :=
  ∀ a slot message, effect.message? a slot = some message → message.Quiet

/-- All effects are quiet. -/
def AllQuiet (out : List Effect) : Prop := ∀ effect ∈ out, effect.Quiet

/-- The requests of the server that are not quiet. -/
def loudActions : List String :=
  ["notify.mediaauthsuccess", "notify.clientjoinedchannel", "notify.clientleftchannel",
    "notify.clientdisconnected"]

/-- A request is read as it was written, unless it has no action. -/
theorem fromJsonRequest_createJsonRequest (text : String) (parameters : QJsonObject) :
    JsonProtocolHelper.fromJsonRequest
        (some (.object (JsonProtocolHelper.createJsonRequest text parameters))) =
      if text.isEmpty then none else some (text, parameters) := by
  by_cases hempty : text.isEmpty
  · rw [if_pos hempty]
    exact if_pos (.inr (.inl hempty))
  · rw [if_neg hempty]
    refine if_neg ?_
    rintro (hmissing | hnone | hmissing)
    · exact hmissing rfl
    · exact hempty hnone
    · exact hmissing rfl

/-- A request is not read as another one. -/
theorem eq_of_fromJsonRequest {text action : String} {parameters params : QJsonObject}
    (h : JsonProtocolHelper.fromJsonRequest
        (some (.object (JsonProtocolHelper.createJsonRequest text parameters))) =
      some (action, params)) : text = action ∧ parameters = params := by
  rw [fromJsonRequest_createJsonRequest] at h
  split at h
  · contradiction
  · exact Prod.mk.inj (Option.some.inj h)

/-- A request is quiet unless it is one of the loud ones. -/
theorem quiet_request {text : String} (parameters : QJsonObject) (htext : text ∉ loudActions) :
    (Message.request (JsonProtocolHelper.createJsonRequest text parameters)).Quiet := by
  simp only [loudActions, List.mem_cons, List.not_mem_nil, or_false, not_or] at htext
  obtain ⟨hsuccess, hjoined, hleft, hdisconnected⟩ := htext
  constructor
  · intro ids
    rw [Message.updateIds, notifiedIds]
    split
    next => rfl
    next action params hread =>
      obtain ⟨rfl, rfl⟩ := eq_of_fromJsonRequest hread
      rw [if_neg hjoined, if_neg (not_or.mpr ⟨hleft, hdisconnected⟩)]
  · rintro ⟨params, hread⟩
    exact hsuccess (eq_of_fromJsonRequest hread).1

/-- A response without participants is quiet. -/
theorem quiet_response (slot : ReplySlot) {response : QJsonObject}
    (hnone : ((response.value "data").toObject.value "participants").toArray = []) :
    (Message.response slot response).Quiet := by
  refine ⟨fun ids => ?_, id⟩
  cases slot with
  | onJoinChannelFinished =>
    rw [Message.updateIds, joinedIds, JsonProtocolHelper.fromJsonResponse]
    split
    next => rfl
    next status params error hread =>
      split at hread
      · contradiction
      · obtain ⟨-, hparams⟩ := Prod.mk.inj (Option.some.inj hread)
        rw [← (Prod.mk.inj hparams).1, hnone]
        split
        · rfl
        · exact List.append_nil ids
  | _ => rfl

namespace Effect

/-- A request to a client that is not one of the loud ones. -/
theorem quiet_sendRequest (c : ℤ) {text : String} (parameters : QJsonObject)
    (htext : text ∉ loudActions) :
    (sendRequest c (JsonProtocolHelper.createJsonRequest text parameters)).Quiet := by
  intro a slot message hmessage
  rw [message?] at hmessage
  split at hmessage
  · obtain rfl := Option.some.inj hmessage
    exact quiet_request parameters htext
  · contradiction

/-- A response without participants. -/
theorem quiet_sendResponse (c : ℤ) (correlationId : UInt32) {response : QJsonObject}
    (hnone : ((response.value "data").toObject.value "participants").toArray = []) :
    (sendResponse c correlationId response).Quiet := by
  intro a slot message hmessage
  rw [message?] at hmessage
  split at hmessage
  · obtain rfl := Option.some.inj hmessage
    exact quiet_response slot hnone
  · contradiction

/-- What is no message at all. -/
theorem quiet_of_message? {effect : Effect} (hnone : ∀ a slot, effect.message? a slot = none) :
    effect.Quiet := by
  intro a slot message hmessage
  rw [hnone] at hmessage
  contradiction

end Effect

/-- Nothing is sent. -/
theorem allQuiet_nil : AllQuiet [] := fun _ h => absurd h List.not_mem_nil

/-- One effect more. -/
theorem AllQuiet.cons {effect : Effect} {out : List Effect} (heffect : effect.Quiet)
    (hout : AllQuiet out) : AllQuiet (effect :: out) := by
  intro other hother
  rcases List.mem_cons.mp hother with rfl | hlater
  · exact heffect
  · exact hout other hlater

/-- Quiet effects are quiet messages. -/
theorem AllQuiet.messagesTo {out : List Effect} (h : AllQuiet out) {a : ℤ} {slot : ReplySlot}
    {message : Message} (hmessage : message ∈ messagesTo a slot out) : message.Quiet := by
  obtain ⟨effect, heffect, hsome⟩ := List.mem_filterMap.mp hmessage
  exact h effect heffect a slot message hsome

namespace VirtualServer

/-- A broadcast of what is not loud. -/
theorem allQuiet_broadcast (s : VirtualServer) (req : ActionData) (client : ServerClientEntity)
    {text : String} (parameters : QJsonObject) (htext : text ∉ loudActions) :
    AllQuiet (broadcastNotificationToSiblingClients s req client text parameters) := by
  intro effect heffect
  obtain ⟨c, -, rfl, -⟩ := mem_broadcast.mp heffect
  exact Effect.quiet_sendRequest c parameters htext

/-- An error is reported quietly. -/
theorem allQuiet_error (req : ActionData) (code : ℤ) (message : String) :
    AllQuiet [sendDefaultErrorResponse req code message] :=
  .cons (Effect.quiet_sendResponse _ _ rfl) allQuiet_nil

/-- Success is reported quietly, unless participants are listed. -/
theorem allQuiet_ok (req : ActionData) {data : QJsonObject}
    (hnone : (data.value "participants").toArray = []) :
    AllQuiet [sendDefaultOkResponse req data] :=
  .cons (Effect.quiet_sendResponse _ _ hnone) allQuiet_nil

/-- Closing a connection is no message. -/
theorem quiet_disconnectFromHost (c : ℤ) : (Effect.disconnectFromHost c).Quiet :=
  Effect.quiet_of_message? fun _ _ => rfl

/-- The connection of the client is lost but not destroyed yet. -/
def Lost (s : VirtualServer) (c : ℤ) : Prop :=
  (s.connections[c]?).map ClientConnectionHandler.deleteLater = some true

/-- The states agree on the members of all channels and on the connections that are lost. -/
structure SameMembers (s s' : VirtualServer) : Prop where
  participants : s'.participants = s.participants
  client2channels : s'.client2channels = s.client2channels
  lost : ∀ c, s'.Lost c ↔ s.Lost c

/-- The client has become a member of the channel, and nothing else has happened to members. -/
structure Entered (s : VirtualServer) (c ch : ℤ) (s' : VirtualServer) : Prop where
  participants : s'.participants = SetMap.insertAt s.participants ch c
  client2channels : s'.client2channels = SetMap.insertAt s.client2channels c ch
  lost : ∀ c, s'.Lost c ↔ s.Lost c

/-- The client, the action and the parameters of a request that passes the checks of its action. -/
def admitted? (s : VirtualServer) : Event → Option (ServerClientEntity × ActionBase × QJsonObject)
  | .newIncomingRequest c _ document =>
    match s.clients[c]? with
    | none => none
    | some client =>
      if c ∉ s.connections then none
      else
        match ClientConnectionHandler.dispatch client document with
        | .run action params => some (client, action, params)
        | .refuse _ _ => none
  | _ => none

/-- The client and the channel of a join request that is granted: the channel is there or is created, and
the request brings the password, unless none is needed. -/
def grantedJoin? (s : VirtualServer) (e : Event) : Option (ℤ × ℤ) :=
  match s.admitted? e with
  | none => none
  | some (client, action, params) =>
    let password := (params.value "password").toString
    if ¬ IsJoin action ∨ s.joinId params ≤ 0 ∧ joinIdent params = "" then none
    else
      match JoinChannelAction.retrieveChannel s (s.joinId params) (joinIdent params) password with
      | (_, none) => none
      | (_, some channel) =>
        if client.admin ∨ channel.password = "" ∨ channel.password = password then
          some (client.id, channel.id)
        else none

/-- What an event does to the members and tells the clients. -/
inductive Traffic (fromUtf8 : List UInt8 → String) (s : VirtualServer) (e : Event) (s' : VirtualServer)
    (out : List Effect) : Prop
  | quiet (hmembers : SameMembers s s') (hquiet : AllQuiet out)
  | accepted {c : ℤ} (hbound : s.boundClient? fromUtf8 e = some c) (hmembers : SameMembers s s')
    (hout : out = [sendMediaAuthSuccessNotify c])
  | created {c : ℤ} {client : ServerClientEntity} {params : QJsonObject}
    (hadmits : Admits s e c client .CreateChannelAction params)
    (hentered : Entered s c (s.nextChannelId + 1) s') (hquiet : AllQuiet out)
  | joined {c ch : ℤ} {client : ServerClientEntity} {correlationId : UInt32}
    {params channel : QJsonObject} (hgranted : s.grantedJoin? e = some (c, ch))
    (hclient : s.clients[c]? = some client) (hclients : s'.clients = s.clients)
    (hslot : e.replySlot = .onJoinChannelFinished)
    (hentered : Entered s c ch s')
    (hout : out = sendDefaultOkResponse ⟨c, correlationId, params⟩ [("channel", .object channel),
        ("participants", .array (s'.listedMembers client ch))] ::
      broadcastNotificationToSiblingClients s' ⟨c, correlationId, params⟩ client
        "notify.clientjoinedchannel"
        [("channel", .object channel), ("client", .object client.toQJsonObject)])
  | unconnected {c : ℤ} {client : ServerClientEntity} (he : e = .unconnected c)
    (hclient : s.clients[c]? = some client)
    (hhandle : ClientConnectionHandler.onUnconnected s c client = (s', out))
  | destroyed {c : ℤ} (he : e = .destroyed c) (hlost : s.Lost c)
    (hdestroy : ClientConnectionHandler.destroy s c = some s') (hout : out = [])

/-- Nothing happened. -/
theorem SameMembers.refl (s : VirtualServer) : SameMembers s s := ⟨rfl, rfl, fun _ => Iff.rfl⟩

section Step

variable {fromUtf8 : List UInt8 → String} {s s' : VirtualServer} {e : Event} {c : ℤ}
  {client : ServerClientEntity} {action : ActionBase} {params : QJsonObject} {out : List Effect}
  {correlationId : UInt32}

/-- What passes the checks of its action is found. -/
theorem Admits.admitted? (h : Admits s e c client action params) :
    s.admitted? e = some (client, action, params) := by
  obtain ⟨correlationId, document, rfl, hdispatch⟩ := h.dispatch
  rw [VirtualServer.admitted?, h.live]
  dsimp only
  rw [if_neg (not_not.mpr h.connected), hdispatch]

/-- A new connection is not lost, and its client is no member of a channel. -/
theorem Sessions.sameMembers_create (h : s.Sessions) (peerAddress : QHostAddress) :
    SameMembers s (ClientConnectionHandler.create s peerAddress) := by
  refine ⟨rfl, rfl, fun k => ?_⟩
  change ((s.connections.insert (s.nextClientId + 1) _)[k]?).map _ = _ ↔ _
  rw [Table.getElem?_insert, Lost]
  split
  next hk =>
    have hgone : k ∉ s.connections := by
      intro hconn
      have hbound := (h.client k ((h.connected k).mp hconn)).2
      omega
    rw [ExtTreeMap.getElem?_eq_none hgone]
    simp
  next => exact Iff.rfl

/-- The state after the channel of a join request has been found or created. -/
structure Retrieved (s t : VirtualServer) (channel : ServerChannelEntity) (password : String) : Prop where
  participants : t.participants = s.participants
  client2channels : t.client2channels = s.client2channels
  clients : t.clients = s.clients
  connections : t.connections = s.connections
  found : t.id2channel[channel.id]? = some channel
  password : t = s ∨ channel.password = password

/-- A channel is found under its id or is created. -/
theorem retrieved_of_retrieveChannel (hkeyed : s.Keyed) {channelId : ℤ} {ident password : String}
    {t : VirtualServer} {channel : ServerChannelEntity}
    (h : JoinChannelAction.retrieveChannel s channelId ident password = (t, some channel)) :
    Retrieved s t channel password := by
  unfold JoinChannelAction.retrieveChannel at h
  split at h
  next found hfound =>
    obtain ⟨rfl, hchannel⟩ := Prod.mk.inj h
    obtain rfl := Option.some.inj hchannel
    exact ⟨rfl, rfl, rfl, rfl, by rwa [hkeyed.channel hfound], .inl rfl⟩
  next =>
    split at h
    · obtain ⟨rfl, hchannel⟩ := Prod.mk.inj h
      obtain rfl := Option.some.inj hchannel
      exact ⟨rfl, rfl, rfl, rfl, ExtTreeMap.getElem?_insert_self, .inr rfl⟩
    · exact absurd (Prod.mk.inj h).2 (Option.some_ne_none _).symm

/-- No channel is found, and nothing has changed. -/
theorem eq_of_retrieveChannel {channelId : ℤ} {ident password : String} {t : VirtualServer}
    (h : JoinChannelAction.retrieveChannel s channelId ident password = (t, none)) : t = s := by
  unfold JoinChannelAction.retrieveChannel at h
  split at h
  · exact absurd (Prod.mk.inj h).2 (Option.some_ne_none _)
  · split at h
    · exact absurd (Prod.mk.inj h).2 (Option.some_ne_none _)
    · exact (Prod.mk.inj h).1.symm

/-- A granted join request makes its client a member of the channel, which is told to the siblings. -/
theorem traffic_join (hkeyed : s.Keyed) (hadmits : Admits s e c client action params)
    (haction : IsJoin action) (hslot : e.replySlot = .onJoinChannelFinished)
    (hrun : JoinChannelAction.run s ⟨c, correlationId, params⟩ client = (s', out)) :
    Traffic fromUtf8 s e s' out := by
  have hrefused : ∀ t code message, t = s →
      (t, [sendDefaultErrorResponse ⟨c, correlationId, params⟩ code message]) = (s', out) →
        Traffic fromUtf8 s e s' out := by
    rintro t code message rfl h
    obtain ⟨rfl, rfl⟩ := Prod.mk.inj h
    exact .quiet (.refl t) (allQuiet_error _ _ _)
  unfold JoinChannelAction.run at hrun
  dsimp only at hrun
  split at hrun
  · exact hrefused s _ _ rfl hrun
  next hnamed =>
    split at hrun
    next t hretrieve => exact hrefused t _ _ (eq_of_retrieveChannel hretrieve) hrun
    next t channel hretrieve =>
      have hretrieved := retrieved_of_retrieveChannel hkeyed hretrieve
      split at hrun
      next hwrong =>
        refine hrefused t _ _ (hretrieved.password.resolve_right ?_) hrun
        exact hwrong.2.2
      next hallowed =>
        obtain ⟨rfl, rfl⟩ := Prod.mk.inj hrun
        have hadd := addClientToChannel_eq hretrieved.found rfl client.id
        have hid := hkeyed.client hadmits.live
        subst hid
        have hgranted : s.grantedJoin? e = some (client.id, channel.id) := by
          rw [String.isEmpty_iff] at hnamed
          rw [grantedJoin?, hadmits.admitted?]
          refine (if_neg (not_or.mpr ⟨not_not.mpr haction, hnamed⟩)).trans ?_
          rw [joinId, joinIdent, hretrieve]
          refine if_pos ?_
          rw [← String.isEmpty_iff]
          by_contra hnot
          simp only [not_or] at hnot
          exact hallowed hnot
        refine .joined hgranted hadmits.live ?_ hslot ?_ rfl
        · change (t.addClientToChannel client.id channel.id).clients = s.clients
          rw [clients_addClientToChannel, hretrieved.clients]
        · have hstate : ∀ u, u = (t.withMember client.id channel.id).updateMediaRecipients →
              Entered s client.id channel.id u := by
            rintro u rfl
            refine ⟨?_, ?_, fun k => ?_⟩
            · exact hretrieved.participants ▸ rfl
            · exact hretrieved.client2channels ▸ rfl
            · rw [Lost, Lost, ← hretrieved.connections]
              exact Iff.rfl
          exact hstate _ (by rw [hadd])

/-- A change of what a client sends is quiet. -/
theorem traffic_updateMediaState (req : ActionData) (client : ServerClientEntity) {text : String}
    (htext : text ∉ loudActions) (hrun : updateMediaState s req client text = (s', out)) :
    Traffic fromUtf8 s e s' out := by
  obtain ⟨rfl, rfl⟩ := Prod.mk.inj hrun
  exact .quiet ⟨rfl, rfl, fun _ => Iff.rfl⟩
    (.cons (Effect.quiet_sendResponse _ _ rfl) (allQuiet_broadcast _ _ _ _ htext))

/-- An authentication request is quiet. -/
theorem traffic_authenticate (req : ActionData) (peerAddress : QHostAddress)
    (hrun : AuthenticationAction.run s req peerAddress = (s', out)) : Traffic fromUtf8 s e s' out := by
  have hrefused : ∀ code message, AuthenticationAction.refuse s req code message = (s', out) →
      Traffic fromUtf8 s e s' out := by
    intro code message h
    obtain ⟨rfl, rfl⟩ := Prod.mk.inj h
    exact .quiet (.refl s) (.cons (Effect.quiet_sendResponse _ _ rfl)
      (.cons (quiet_disconnectFromHost _) allQuiet_nil))
  unfold AuthenticationAction.run at hrun
  dsimp only at hrun
  split at hrun
  · exact hrefused _ _ hrun
  split at hrun
  · exact hrefused _ _ hrun
  split at hrun
  · exact hrefused _ _ hrun
  split at hrun
  · exact hrefused _ _ hrun
  split at hrun
  · exact hrefused _ _ hrun
  · obtain ⟨rfl, rfl⟩ := Prod.mk.inj hrun
    exact .quiet ⟨rfl, rfl, fun _ => Iff.rfl⟩ allQuiet_nil

/-- A new channel has its creator as a member, and nobody is told about it. -/
theorem traffic_createChannel (hkeyed : s.Keyed)
    (hadmits : Admits s e c client .CreateChannelAction params)
    (hrun : CreateChannelAction.run s ⟨c, correlationId, params⟩ client = (s', out)) :
    Traffic fromUtf8 s e s' out := by
  have hentered : Entered s c (s.nextChannelId + 1)
      (CreateChannelAction.run s ⟨c, correlationId, params⟩ client).1 := by
    rw [run_createChannel s correlationId params (hkeyed.client hadmits.live)]
    exact ⟨rfl, rfl, fun _ => Iff.rfl⟩
  obtain ⟨rfl, rfl⟩ := Prod.mk.inj hrun
  exact .created hadmits hentered (allQuiet_ok _ rfl)

/-- A request runs the action that it names. -/
theorem name_of_dispatch {document : Option QJsonValue}
    (h : ClientConnectionHandler.dispatch client document = .run action params) :
    ∃ text, JsonProtocolHelper.fromJsonRequest document = some (text, params) ∧ action.name = text := by
  unfold ClientConnectionHandler.dispatch at h
  split at h
  · contradiction
  next text parameters hread =>
    split at h
    · contradiction
    next found hfound =>
      split at h
      · contradiction
      · split at h
        · contradiction
        · obtain ⟨rfl, rfl⟩ := ClientConnectionHandler.Dispatch.run.inj h
          have hname := List.find?_some hfound
          exact ⟨text, hread, of_decide_eq_true hname⟩

/-- The slot that waits for the response to a join request. -/
theorem replySlot_of_join (hadmits : Admits s e c client action params) (haction : IsJoin action) :
    e.replySlot = .onJoinChannelFinished := by
  obtain ⟨correlationId, document, rfl, hdispatch⟩ := hadmits.dispatch
  obtain ⟨text, hread, hname⟩ := name_of_dispatch hdispatch
  rw [Event.replySlot, hread]
  rcases haction with rfl | rfl
  · rw [← hname]
    rfl
  · rw [← hname]
    rfl

/-- A refused request is quiet. -/
theorem traffic_refused {req : ActionData} {result : ActionResult}
    (hrefused : Refused s req result) (hresult : result = (s', out)) :
    Traffic fromUtf8 s e s' out := by
  obtain ⟨code, message, -, herror⟩ := hrefused
  obtain ⟨rfl, rfl⟩ := Prod.mk.inj (herror.symm.trans hresult)
  exact .quiet (.refl s) (allQuiet_error req code message)

/-- What an admitted request does to the members and tells the clients. -/
theorem traffic_of_run (hkeyed : s.Keyed) (hadmits : Admits s e c client action params)
    {peerAddress : QHostAddress}
    (hrun : action.run s ⟨c, correlationId, params⟩ client peerAddress = some (s', out)) :
    Traffic fromUtf8 s e s' out := by
  cases action with
  | HeartbeatAction =>
    obtain ⟨rfl, rfl⟩ := Prod.mk.inj (Option.some.inj hrun)
    exact .quiet (.refl s) (allQuiet_ok _ rfl)
  | GoodbyeAction =>
    obtain ⟨rfl, rfl⟩ := Prod.mk.inj (Option.some.inj hrun)
    exact .quiet (.refl s) (.cons (Effect.quiet_sendResponse _ _ rfl)
      (.cons (quiet_disconnectFromHost _) allQuiet_nil))
  | AuthenticationAction => exact traffic_authenticate _ _ (Option.some.inj hrun)
  | GetChannelListAction =>
    rcases run_getChannelList_cases s ⟨c, correlationId, params⟩ with hrefused | ⟨_, hlisted⟩
    · exact traffic_refused hrefused (Option.some.inj hrun)
    · obtain ⟨rfl, rfl⟩ := Prod.mk.inj (hlisted.symm.trans (Option.some.inj hrun))
      exact .quiet (.refl s) (allQuiet_ok _ rfl)
  | CreateChannelAction => exact traffic_createChannel hkeyed hadmits (Option.some.inj hrun)
  | JoinChannelAction =>
    have haction : IsJoin .JoinChannelAction := .inl rfl
    exact traffic_join hkeyed hadmits haction (replySlot_of_join hadmits haction) (Option.some.inj hrun)
  | JoinChannel2Action =>
    have haction : IsJoin .JoinChannel2Action := .inr rfl
    exact traffic_join hkeyed hadmits haction (replySlot_of_join hadmits haction) (Option.some.inj hrun)
  | EnableVideoAction =>
    rcases run_enableVideo_cases s ⟨c, correlationId, params⟩ client with
      hrefused | ⟨_, _, henabled⟩
    · exact traffic_refused hrefused (Option.some.inj hrun)
    · exact traffic_updateMediaState _ _ (by decide) (henabled.symm.trans (Option.some.inj hrun))
  | DisableVideoAction => exact traffic_updateMediaState _ _ (by decide) (Option.some.inj hrun)
  | EnableAudioInputAction => exact traffic_updateMediaState _ _ (by decide) (Option.some.inj hrun)
  | DisableAudioInputAction => exact traffic_updateMediaState _ _ (by decide) (Option.some.inj hrun)
  | AdminAuthAction =>
    rcases run_adminAuth_cases s ⟨c, correlationId, params⟩ client with hrefused | hadmin
    · exact traffic_refused hrefused (Option.some.inj hrun)
    · obtain ⟨rfl, rfl⟩ := Prod.mk.inj (hadmin.symm.trans (Option.some.inj hrun))
      exact .quiet ⟨rfl, rfl, fun _ => Iff.rfl⟩ (allQuiet_ok _ rfl)
  | KickClientAction =>
    obtain ⟨kicked, -, -, -, rfl⟩ := of_run_kick hrun
    obtain ⟨bans, rfl⟩ := eq_of_run_kick hrun
    exact .quiet ⟨rfl, rfl, fun _ => Iff.rfl⟩ (.cons (Effect.quiet_sendRequest _ _ (by decide))
      (.cons (quiet_disconnectFromHost _) (allQuiet_ok _ rfl)))
  | UpdateVisibilityLevelAction =>
    obtain ⟨rfl, rfl⟩ := Prod.mk.inj (Option.some.inj hrun)
    exact .quiet ⟨rfl, rfl, fun _ => Iff.rfl⟩ (allQuiet_ok _ rfl)
  | AddDirectStreamingRelationAction =>
    rcases run_addRelation_cases s ⟨c, correlationId, params⟩ with hrefused | ⟨-, -, hadded⟩
    · exact traffic_refused hrefused (Option.some.inj hrun)
    · obtain ⟨rfl, rfl⟩ := Prod.mk.inj (hadded.symm.trans (Option.some.inj hrun))
      exact .quiet ⟨rfl, rfl, fun _ => Iff.rfl⟩ (allQuiet_ok _ rfl)
  | RemoveDirectStreamingRelationAction =>
    obtain ⟨rfl, rfl⟩ := Prod.mk.inj (Option.some.inj hrun)
    exact .quiet ⟨rfl, rfl, fun _ => Iff.rfl⟩ (allQuiet_ok _ rfl)

/-- The answer to an authentication is quiet. -/
theorem traffic_onFinished {pending : PendingAuthentication} {data : Bool} {now : String}
    (authentications : List PendingAuthentication)
    (h : AuthenticationAction.onFinished { s with authentications } pending data now =
      some (s', out)) : Traffic fromUtf8 s e s' out := by
  have hsame : SameMembers s { s with authentications } := ⟨rfl, rfl, fun _ => Iff.rfl⟩
  unfold AuthenticationAction.onFinished at h
  dsimp only at h
  split at h
  · obtain ⟨rfl, rfl⟩ := Prod.mk.inj (Option.some.inj h)
    exact .quiet hsame (.cons (Effect.quiet_sendResponse _ _ rfl)
      (.cons (quiet_disconnectFromHost _) allQuiet_nil))
  · split at h
    · obtain ⟨rfl, rfl⟩ := Prod.mk.inj (Option.some.inj h)
      exact .quiet hsame allQuiet_nil
    · obtain ⟨client, -, h⟩ := Option.map_eq_some_iff.mp h
      obtain ⟨rfl, rfl⟩ := Prod.mk.inj h
      exact .quiet ⟨rfl, rfl, fun _ => Iff.rfl⟩ (allQuiet_ok _ rfl)

/-- Datagrams that are written are quiet. -/
theorem allQuiet_foldl_writeDatagram (data : List UInt8) (receivers : List MediaReceiverEntity)
    {done : ActionResult} (hdone : AllQuiet done.2) :
    AllQuiet ((receivers.map fun r => MediaSocketHandler.Output.writeDatagram data r.address r.port).foldl
      onMediaSocketOutput done).2 := by
  induction receivers generalizing done with
  | nil => exact hdone
  | cons receiver receivers ih =>
    apply ih
    intro effect heffect
    rcases List.mem_append.mp heffect with hold | hnew
    · exact hdone effect hold
    · rw [List.mem_singleton.mp hnew]
      exact Effect.quiet_of_message? fun _ _ => rfl

/-- A datagram is quiet unless it brings a token of a client that is there. -/
theorem traffic_readyRead (h : s.Sessions) (datagram : List UInt8) (address : QHostAddress)
    (port : UInt16) : Traffic fromUtf8 s (.readyRead datagram address port)
      (s.onReadyRead fromUtf8 datagram address port).1
      (s.onReadyRead fromUtf8 datagram address port).2 := by
  have hrecipients : ∀ recipients, SameMembers s (s.withRecipients recipients) :=
    fun _ => ⟨rfl, rfl, fun _ => Iff.rfl⟩
  cases hparse : MediaSocketHandler.parse (datagram.take MediaSocketHandler.bufferSize) with
  | invalid =>
    simp only [onReadyRead, MediaSocketHandler.onReadyRead, hparse]
    exact .quiet (.refl s) allQuiet_nil
  | relay =>
    rw [onReadyRead_relay fromUtf8 address port hparse]
    refine .quiet (hrecipients _) ?_
    simp only [onReadyRead, MediaSocketHandler.onReadyRead, hparse]
    exact allQuiet_foldl_writeDatagram _ _ allQuiet_nil
  | recover sender =>
    rw [onReadyRead_recover fromUtf8 address port hparse]
    refine .quiet (hrecipients _) ?_
    simp only [onReadyRead, MediaSocketHandler.onReadyRead, hparse]
    split
    · exact allQuiet_nil
    · exact .cons (Effect.quiet_of_message? fun _ _ => rfl) allQuiet_nil
  | authenticate data =>
    have hbound : s.boundClient? fromUtf8 (.readyRead datagram address port) =
        (s.tokens[fromUtf8 data]?).filter fun c => c ∈ s.clients := by
      simp only [boundClient?, hparse]
    simp only [onReadyRead, MediaSocketHandler.onReadyRead, hparse, List.foldl_cons, List.foldl_nil,
      onMediaSocketOutput, onMediaSocketTokenAuthentication, List.nil_append]
    split
    · exact .quiet (.refl s) allQuiet_nil
    next c htoken =>
      split
      · exact .quiet ⟨rfl, rfl, fun _ => Iff.rfl⟩ allQuiet_nil
      next client hclient =>
        have hmem : c ∈ s.clients := Table.mem_of_getElem? hclient
        rw [htoken, Option.filter_some, if_pos (decide_eq_true hmem)] at hbound
        refine .accepted hbound ⟨rfl, rfl, fun _ => Iff.rfl⟩ ?_
        exact if_pos ((h.connected c).mpr hmem)

end Step

/-- What every event does to the members and tells the clients. -/
theorem traffic_of_step {fromUtf8 : List UInt8 → String} {s s' : VirtualServer} {e : Event}
    {out : List Effect} (hkeyed : s.Keyed) (hsessions : s.Sessions)
    (hstep : step fromUtf8 s e = some (s', out)) : Traffic fromUtf8 s e s' out := by
  have hquiet : Traffic fromUtf8 s e s [] := .quiet (.refl s) allQuiet_nil
  cases e with
  | newConnection peerAddress =>
    obtain ⟨rfl, rfl⟩ := Prod.mk.inj (Option.some.inj hstep)
    exact .quiet (hsessions.sameMembers_create peerAddress) allQuiet_nil
  | newIncomingRequest c correlationId document =>
    rcases withConnection_cases hstep with ⟨rfl, rfl⟩ | ⟨client, conn, hclient, hconn, hhandle⟩
    · exact hquiet
    · unfold ClientConnectionHandler.onNewIncomingRequest at hhandle
      split at hhandle
      · obtain ⟨rfl, rfl⟩ := Prod.mk.inj (Option.some.inj hhandle)
        exact .quiet (.refl s) (allQuiet_error _ _ _)
      next action params hdispatch =>
        have hadmits : Admits s (.newIncomingRequest c correlationId document) c client action params :=
          ⟨hclient, Table.mem_of_getElem? hconn, correlationId, document, rfl, hdispatch⟩
        exact traffic_of_run hkeyed hadmits hhandle
  | authenticationFinished index ts3Allowed now =>
    simp only [step, onAuthenticationFinished] at hstep
    split at hstep
    · obtain ⟨rfl, rfl⟩ := Prod.mk.inj (Option.some.inj hstep)
      exact hquiet
    · exact traffic_onFinished _ hstep
  | readyRead datagram address port =>
    obtain ⟨rfl, rfl⟩ := Prod.mk.inj (Option.some.inj hstep)
    exact traffic_readyRead hsessions datagram address port
  | networkUsageUpdated networkUsage =>
    obtain ⟨rfl, rfl⟩ := Prod.mk.inj (Option.some.inj hstep)
    exact .quiet ⟨rfl, rfl, fun _ => Iff.rfl⟩ allQuiet_nil
  | unconnected c =>
    rcases withConnection_cases hstep with ⟨rfl, rfl⟩ | ⟨client, conn, hclient, -, hhandle⟩
    · exact hquiet
    · exact .unconnected rfl hclient (Option.some.inj hhandle)
  | destroyed c =>
    rcases withConnection_cases hstep with ⟨rfl, rfl⟩ | ⟨client, conn, -, hconn, hhandle⟩
    · exact hquiet
    · split at hhandle
      next hdelete =>
        obtain ⟨t, hdestroy, h⟩ := Option.map_eq_some_iff.mp hhandle
        obtain ⟨rfl, rfl⟩ := Prod.mk.inj h
        refine .destroyed rfl ?_ hdestroy rfl
        rw [Lost, hconn, Option.map_some, hdelete]
      next =>
        obtain ⟨rfl, rfl⟩ := Prod.mk.inj (Option.some.inj hhandle)
        exact hquiet
  | authenticationTimeout c =>
    rcases withConnection_cases hstep with ⟨rfl, rfl⟩ | ⟨client, conn, -, -, hhandle⟩
    · exact hquiet
    · obtain ⟨rfl, rfl⟩ := Prod.mk.inj (Option.some.inj hhandle)
      refine .quiet (.refl s) ?_
      unfold ClientConnectionHandler.onAuthenticationTimeout
      split
      · exact allQuiet_nil
      · exact .cons (Effect.quiet_sendRequest _ _ (by decide))
          (.cons (quiet_disconnectFromHost _) allQuiet_nil)
  | connectionTimeout c =>
    rcases withConnection_cases hstep with ⟨rfl, rfl⟩ | ⟨client, conn, -, -, hhandle⟩
    · exact hquiet
    · obtain ⟨rfl, rfl⟩ := Prod.mk.inj (Option.some.inj hhandle)
      exact .quiet (.refl s) (.cons (Effect.quiet_sendRequest _ _ (by decide))
        (.cons (quiet_disconnectFromHost _)
          (.cons (Effect.quiet_of_message? fun _ _ => rfl) allQuiet_nil)))

end VirtualServer

end Ts3Video
