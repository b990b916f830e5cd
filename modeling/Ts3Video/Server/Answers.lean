import Ts3Video.Server.Handlers

/-!
# How requests are answered

A request is answered at once, successfully or with an error, or it is an authentication and answered
when the TeamSpeak server has answered. An error leaves the state as it is. Who is connected and
logged in is up to authentications and connections only.
-/

namespace Ts3Video

open Std

/-- The client, the correlation id and the document of a response. -/
def Effect.response? : Effect → Option (ℤ × UInt32 × QJsonObject)
  | .sendResponse clientId correlationId response => some (clientId, correlationId, response)
  | _ => none

/-- The responses among the effects, in order. -/
def responses (out : List Effect) : List (ℤ × UInt32 × QJsonObject) :=
  out.filterMap Effect.response?

namespace VirtualServer

open ActionBase

/-- The states agree on the configuration, on the ids that have been handed out, on who is connected
and logged in, on the outstanding authentications and on the tokens. -/
structure SameSessions (s s' : VirtualServer) : Prop where
  opts : s'.opts = s.opts
  nextClientId : s'.nextClientId = s.nextClientId
  connected : ∀ c : ℤ, c ∈ s'.connections ↔ c ∈ s.connections
  login : ∀ c : ℤ, (s'.clients[c]?).map (·.authenticated) = (s.clients[c]?).map (·.authenticated)
  authentications : s'.authentications = s.authentications
  tokens : s'.tokens = s.tokens

/-- How a request is answered. Only an authentication may be answered later. -/
inductive Answer (s : VirtualServer) (authenticates : Prop) (req : ActionData) (s' : VirtualServer)
    (out : List Effect) : Prop
  | ok (data : QJsonObject) (hdata : data.contains "authtoken" = false)
    (hsessions : SameSessions s s') (hresponses : responses out =
      [(req.clientId, req.correlationId, JsonProtocolHelper.createJsonResponse data)])
  | refused (status : ℤ) (message : String) (hstatus : status ≠ 0) (hstate : s' = s)
    (hresponses : responses out = [(req.clientId, req.correlationId,
      JsonProtocolHelper.createJsonResponseError status message)])
  | pending (username : String) (hauthenticates : authenticates)
    (hlimit : (s.connections.size : ℤ) ≤ s.opts.connectionLimit)
    (hstate : s' = { s with
      authentications := s.authentications ++ [⟨req.clientId, req.correlationId, username⟩] })
    (hresponses : responses out = [])

/-- Nothing happened. -/
theorem SameSessions.refl (s : VirtualServer) : SameSessions s s :=
  ⟨rfl, rfl, fun _ => Iff.rfl, fun _ => rfl, rfl, rfl⟩

/-- One change after another. -/
theorem SameSessions.trans {s t u : VirtualServer} (h₁ : SameSessions s t) (h₂ : SameSessions t u) :
    SameSessions s u where
  opts := h₂.opts.trans h₁.opts
  nextClientId := h₂.nextClientId.trans h₁.nextClientId
  connected c := (h₂.connected c).trans (h₁.connected c)
  login c := (h₂.login c).trans (h₁.login c)
  authentications := h₂.authentications.trans h₁.authentications
  tokens := h₂.tokens.trans h₁.tokens

/-- The record of a client is updated in other fields. -/
theorem sameSessions_setClient {s : VirtualServer} {c : ℤ} {client client' : ServerClientEntity}
    (hclient : s.clients[c]? = some client)
    (hauthenticated : client'.authenticated = client.authenticated) :
    SameSessions s (s.setClient c client') where
  opts := rfl
  nextClientId := rfl
  connected _ := Iff.rfl
  login := by
    intro k
    change ((s.clients.insert c client')[k]?).map _ = _
    rw [Table.getElem?_insert]
    split
    next hk =>
      rw [← hk, hclient]
      exact congrArg some hauthenticated
    next => rfl
  authentications := rfl
  tokens := rfl

/-- A client becomes a member of a channel. -/
theorem sameSessions_addClientToChannel (s : VirtualServer) (c ch : ℤ) :
    SameSessions s (s.addClientToChannel c ch) := by
  unfold addClientToChannel
  split
  · exact .refl s
  · exact ⟨rfl, rfl, fun _ => Iff.rfl, fun _ => rfl, rfl, rfl⟩

/-- The table of recipients is computed. -/
theorem SameSessions.updateMediaRecipients {s t : VirtualServer} (h : SameSessions s t) :
    SameSessions s t.updateMediaRecipients :=
  ⟨h.opts, h.nextClientId, h.connected, h.login, h.authentications, h.tokens⟩

/-- A broadcast is the same request to every connected sibling that may see the client. -/
theorem mem_broadcast {s : VirtualServer} {req : ActionData} {client : ServerClientEntity}
    {text : String} {params : QJsonObject} {effect : Effect} :
    effect ∈ broadcastNotificationToSiblingClients s req client text params ↔
      ∃ c participant, effect = .sendRequest c (JsonProtocolHelper.createJsonRequest text params) ∧
        c ∈ s.getSiblingClientIds client.id false ∧ s.clients[c]? = some participant ∧
          participant.isAllowedToSee client = true ∧ c ∈ s.connections ∧ c ≠ req.clientId := by
  rw [broadcastNotificationToSiblingClients, List.mem_filterMap]
  constructor
  · rintro ⟨c, hsibling, heffect⟩
    split at heffect
    · contradiction
    next participant hparticipant =>
      split at heffect
      · contradiction
      next hsees =>
        split at heffect
        · contradiction
        next hconn =>
          rw [not_or, Decidable.not_not] at hconn
          exact ⟨c, participant, (Option.some.inj heffect).symm, hsibling, hparticipant,
            Decidable.not_not.mp hsees, hconn⟩
  · rintro ⟨c, participant, rfl, hsibling, hparticipant, hsees, hconn, hne⟩
    refine ⟨c, hsibling, ?_⟩
    rw [hparticipant]
    dsimp only
    rw [if_neg (not_not.mpr hsees), if_neg (not_or.mpr ⟨not_not.mpr hconn, hne⟩)]

/-- Notifications are not responses. -/
theorem responses_broadcast (s : VirtualServer) (req : ActionData) (client : ServerClientEntity)
    (action : String) (params : QJsonObject) :
    responses (broadcastNotificationToSiblingClients s req client action params) = [] := by
  rw [responses, List.filterMap_eq_nil_iff]
  intro effect heffect
  obtain ⟨c, participant, rfl, -⟩ := mem_broadcast.mp heffect
  rfl

section Actions

variable {s s' : VirtualServer} {client : ServerClientEntity} {action : ActionBase}
  {req : ActionData} {out : List Effect} {authenticates : Prop}

/-- An authentication is refused, or it waits for the TeamSpeak server. -/
theorem answer_authenticate (s : VirtualServer) (req : ActionData) (peerAddress : QHostAddress)
    (hauthenticates : authenticates) :
    Answer s authenticates req (AuthenticationAction.run s req peerAddress).1
      (AuthenticationAction.run s req peerAddress).2 := by
  unfold AuthenticationAction.run
  dsimp only
  split
  · exact .refused _ _ (by decide) rfl rfl
  next hlimit =>
    split
    · exact .refused _ _ (by decide) rfl rfl
    split
    · exact .refused _ _ (by decide) rfl rfl
    split
    · exact .refused _ _ (by decide) rfl rfl
    split
    · exact .refused _ _ (by decide) rfl rfl
    · exact .pending _ hauthenticates (Int.not_lt.mp hlimit) rfl rfl

/-- A change of what a client sends is answered first and announced then. -/
theorem answer_updateMediaState {client client' : ServerClientEntity} (notification : String)
    (hclient : s.clients[req.clientId]? = some client)
    (hauthenticated : client'.authenticated = client.authenticated) :
    Answer s authenticates req (updateMediaState s req client' notification).1
      (updateMediaState s req client' notification).2 := by
  refine .ok [] rfl (sameSessions_setClient hclient hauthenticated).updateMediaRecipients ?_
  change _ :: responses (broadcastNotificationToSiblingClients _ _ _ _ _) = _
  rw [responses_broadcast]

/-- A client that joins a channel gets the channel and its members. -/
theorem answer_joined {t : VirtualServer} (hsessions : SameSessions s t)
    (client : ServerClientEntity) (channel : ServerChannelEntity) :
    Answer s authenticates req (JoinChannelAction.join t req client channel).1
      (JoinChannelAction.join t req client channel).2 := by
  have hjoined := hsessions.trans (sameSessions_addClientToChannel t client.id channel.id)
  apply Answer.ok [("channel", _), ("participants", _)] rfl hjoined.updateMediaRecipients
  change _ :: responses (broadcastNotificationToSiblingClients _ _ _ _ _) = _
  rw [responses_broadcast]

/-- The channel of a join request is found as it is, or created with the password of the request. -/
theorem retrieveChannel_cases (s : VirtualServer) (channelId : ℤ) (channelIdent password : String) :
    JoinChannelAction.retrieveChannel s channelId channelIdent password =
        (s, s.id2channel[channelId]?) ∨
      ∃ t channel, JoinChannelAction.retrieveChannel s channelId channelIdent password =
        (t, some channel) ∧ SameSessions s t ∧ t.clients = s.clients ∧
          channel.password = password := by
  unfold JoinChannelAction.retrieveChannel
  split
  next channel hchannel => exact .inl (by rw [hchannel])
  next hnone =>
    split
    · exact .inr ⟨_, _, rfl, ⟨rfl, rfl, fun _ => Iff.rfl, fun _ => rfl, rfl, rfl⟩, rfl, rfl⟩
    · exact .inl (by rw [hnone])

/-- A join request is refused before anything has changed, or the client joins a channel that is
there or has just been created. -/
theorem run_join_eq (s : VirtualServer) (req : ActionData) (client : ServerClientEntity) :
    Refused s req (JoinChannelAction.run s req client) ∨
      ∃ t channel, SameSessions s t ∧ t.clients = s.clients ∧
        JoinChannelAction.run s req client = JoinChannelAction.join t req client channel := by
  unfold JoinChannelAction.run
  dsimp only
  split
  · exact .inl ⟨_, _, by decide, rfl⟩
  generalize JoinChannelAction.findChannelId s _ _ = channelId
  generalize (req.params.value "password").toString = password
  rcases retrieveChannel_cases s channelId (req.params.value "identifier").toString password with
    hfound | ⟨t, channel, hcreated, hsessions, hclients, hpassword⟩
  · rw [hfound]
    cases s.id2channel[channelId]? with
    | none => exact .inl ⟨_, _, by decide, rfl⟩
    | some channel =>
      dsimp only
      split
      · exact .inl ⟨_, _, by decide, rfl⟩
      · exact .inr ⟨s, channel, .refl s, rfl, rfl⟩
  · rw [hcreated]
    dsimp only
    rw [if_neg (fun hwrong => hwrong.2.2 hpassword)]
    exact .inr ⟨t, channel, hsessions, hclients, rfl⟩

/-- A refused request is answered by an error. -/
theorem answer_refused {result : ActionResult} (hrefused : Refused s req result)
    (hresult : result = (s', out)) : Answer s authenticates req s' out := by
  obtain ⟨code, message, hcode, herror⟩ := hrefused
  obtain ⟨rfl, rfl⟩ := Prod.mk.inj (herror.symm.trans hresult)
  exact .refused code message hcode rfl rfl

/-- A join request is refused before anything has changed, or it succeeds. -/
theorem answer_join (s : VirtualServer) (req : ActionData) (client : ServerClientEntity) :
    Answer s authenticates req (JoinChannelAction.run s req client).1
      (JoinChannelAction.run s req client).2 := by
  rcases run_join_eq s req client with hrefused | ⟨t, channel, hsessions, -, hrun⟩
  · exact answer_refused hrefused rfl
  · rw [hrun]
    exact answer_joined hsessions client channel

/-- A channel is created without asking anybody. -/
theorem answer_createChannel (s : VirtualServer) (req : ActionData) (client : ServerClientEntity) :
    Answer s authenticates req (CreateChannelAction.run s req client).1
      (CreateChannelAction.run s req client).2 := by
  have hjoined := fun t (hsessions : SameSessions s t) (channelId : ℤ) =>
    (hsessions.trans (sameSessions_addClientToChannel t client.id channelId)).updateMediaRecipients
  refine .ok [("channel", _)] rfl (hjoined _ ?_ _) rfl
  exact ⟨rfl, rfl, fun _ => Iff.rfl, fun _ => rfl, rfl, rfl⟩

/-- An action that runs to its end answers its request. -/
theorem answer_of_run (hclient : s.clients[req.clientId]? = some client)
    {peerAddress : QHostAddress} (hrun : action.run s req client peerAddress = some (s', out)) :
    Answer s (action = .AuthenticationAction) req s' out := by
  cases action with
  | HeartbeatAction =>
    obtain ⟨rfl, rfl⟩ := Prod.mk.inj (Option.some.inj hrun)
    exact .ok [] rfl (.refl s) rfl
  | GoodbyeAction =>
    obtain ⟨rfl, rfl⟩ := Prod.mk.inj (Option.some.inj hrun)
    exact .ok [] rfl (.refl s) rfl
  | AuthenticationAction =>
    obtain ⟨rfl, rfl⟩ := Prod.mk.inj (Option.some.inj hrun)
    exact answer_authenticate s req peerAddress rfl
  | GetChannelListAction =>
    rcases run_getChannelList_cases s req with hrefused | ⟨channels, hlisted⟩
    · exact answer_refused hrefused (Option.some.inj hrun)
    · obtain ⟨rfl, rfl⟩ := Prod.mk.inj (hlisted.symm.trans (Option.some.inj hrun))
      exact .ok [("channels", channels)] rfl (.refl s) rfl
  | CreateChannelAction =>
    obtain ⟨rfl, rfl⟩ := Prod.mk.inj (Option.some.inj hrun)
    exact answer_createChannel s req client
  | JoinChannelAction =>
    obtain ⟨rfl, rfl⟩ := Prod.mk.inj (Option.some.inj hrun)
    exact answer_join s req client
  | JoinChannel2Action =>
    obtain ⟨rfl, rfl⟩ := Prod.mk.inj (Option.some.inj hrun)
    exact answer_join s req client
  | EnableVideoAction =>
    rcases run_enableVideo_cases s req client with hrefused | ⟨_, _, henabled⟩
    · exact answer_refused hrefused (Option.some.inj hrun)
    · obtain ⟨rfl, rfl⟩ := Prod.mk.inj (henabled.symm.trans (Option.some.inj hrun))
      exact answer_updateMediaState "notify.clientvideoenabled" hclient rfl
  | DisableVideoAction =>
    obtain ⟨rfl, rfl⟩ := Prod.mk.inj (Option.some.inj hrun)
    exact answer_updateMediaState "notify.clientvideodisabled" hclient rfl
  | EnableAudioInputAction =>
    obtain ⟨rfl, rfl⟩ := Prod.mk.inj (Option.some.inj hrun)
    exact answer_updateMediaState "notify.clientaudioinputenabled" hclient rfl
  | DisableAudioInputAction =>
    obtain ⟨rfl, rfl⟩ := Prod.mk.inj (Option.some.inj hrun)
    exact answer_updateMediaState "notify.clientaudioinputdisabled" hclient rfl
  | AdminAuthAction =>
    rcases run_adminAuth_cases s req client with hrefused | hadmin
    · exact answer_refused hrefused (Option.some.inj hrun)
    · obtain ⟨rfl, rfl⟩ := Prod.mk.inj (hadmin.symm.trans (Option.some.inj hrun))
      exact .ok [] rfl (sameSessions_setClient hclient rfl) rfl
  | KickClientAction =>
    obtain ⟨kicked, -, -, -, rfl⟩ := of_run_kick hrun
    obtain ⟨bans, rfl⟩ := eq_of_run_kick hrun
    exact .ok [] rfl ⟨rfl, rfl, fun _ => Iff.rfl, fun _ => rfl, rfl, rfl⟩ rfl
  | UpdateVisibilityLevelAction =>
    obtain ⟨rfl, rfl⟩ := Prod.mk.inj (Option.some.inj hrun)
    exact .ok [] rfl (sameSessions_setClient hclient rfl) rfl
  | AddDirectStreamingRelationAction =>
    rcases run_addRelation_cases s req with hrefused | ⟨-, -, hadded⟩
    · exact answer_refused hrefused (Option.some.inj hrun)
    · obtain ⟨rfl, rfl⟩ := Prod.mk.inj (hadded.symm.trans (Option.some.inj hrun))
      exact .ok [] rfl ⟨rfl, rfl, fun _ => Iff.rfl, fun _ => rfl, rfl, rfl⟩ rfl
  | RemoveDirectStreamingRelationAction =>
    obtain ⟨rfl, rfl⟩ := Prod.mk.inj (Option.some.inj hrun)
    exact .ok [] rfl ⟨rfl, rfl, fun _ => Iff.rfl, fun _ => rfl, rfl, rfl⟩ rfl

end Actions

/-- A request that is not run is refused. -/
theorem status_of_dispatch {client : ServerClientEntity} {document : Option QJsonValue} {status : ℤ}
    {message : String}
    (h : ClientConnectionHandler.dispatch client document = .refuse status message) : status ≠ 0 := by
  have hstatus : status = IFVS_STATUS_INTERNAL_ERROR ∨ status = IFVS_STATUS_NOT_IMPLEMENTED ∨
      status = IFVS_STATUS_FORBIDDEN := by
    unfold ClientConnectionHandler.dispatch at h
    split at h
    · exact .inl (ClientConnectionHandler.Dispatch.refuse.inj h).1.symm
    · split at h
      · exact .inr (.inl (ClientConnectionHandler.Dispatch.refuse.inj h).1.symm)
      · split at h
        · exact .inr (.inr (ClientConnectionHandler.Dispatch.refuse.inj h).1.symm)
        · split at h
          · exact .inr (.inr (ClientConnectionHandler.Dispatch.refuse.inj h).1.symm)
          · contradiction
  rcases hstatus with rfl | rfl | rfl
  · decide
  · decide
  · decide

/-- The event is an admitted authentication request. -/
def Authenticates (s : VirtualServer) (e : Event) : Prop :=
  ∃ c client params, Admits s e c client .AuthenticationAction params

/-- A request that is processed to its end is answered. -/
theorem answer_of_request {fromUtf8 : List UInt8 → String} {s s' : VirtualServer} {c : ℤ}
    {client : ServerClientEntity} {correlationId : UInt32} {document : Option QJsonValue}
    {out : List Effect} (hclient : s.clients[c]? = some client) (hconn : c ∈ s.connections)
    (hstep : step fromUtf8 s (.newIncomingRequest c correlationId document) = some (s', out)) :
    ∃ params, Answer s (Authenticates s (.newIncomingRequest c correlationId document))
      ⟨c, correlationId, params⟩ s' out := by
  obtain ⟨conn, hfound⟩ := Table.mem_iff.mp hconn
  rw [step, withConnection, hclient, hfound] at hstep
  simp only [ClientConnectionHandler.onNewIncomingRequest] at hstep
  split at hstep
  next status message hdispatch =>
    obtain ⟨rfl, rfl⟩ := Prod.mk.inj (Option.some.inj hstep)
    exact ⟨[], .refused status message (status_of_dispatch hdispatch) rfl rfl⟩
  next action params hdispatch =>
    have hadmits : Admits s (.newIncomingRequest c correlationId document) c client action params :=
      ⟨hclient, hconn, correlationId, document, rfl, hdispatch⟩
    refine ⟨params, ?_⟩
    cases answer_of_run hclient hstep with
    | ok data hdata hsessions hresponses => exact .ok data hdata hsessions hresponses
    | refused status message hstatus hstate hresponses =>
      exact .refused status message hstatus hstate hresponses
    | pending username haction hlimit hstate hresponses =>
      exact .pending username ⟨c, client, params, haction ▸ hadmits⟩ hlimit hstate hresponses

end VirtualServer

end Ts3Video
