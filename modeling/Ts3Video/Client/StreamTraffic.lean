import Ts3Video.Client.ConferenceWindow
import Ts3Video.Client.Traffic

/-!
# What the server tells its clients about streams

Only successful logins and joins, lost connections and video that is turned on or off have a signal at a
client. Everything else is silent.
-/

namespace Ts3Video

open Std NetworkClient ActionBase

/-- No message of the effect has a signal, whichever client it is for. -/
def Effect.Silent (slot : ReplySlot) (effect : Effect) : Prop :=
  ∀ a message, effect.message? a slot = some message → message.signal? = none

/-- All effects are silent. -/
def AllSilent (slot : ReplySlot) (out : List Effect) : Prop := ∀ effect ∈ out, effect.Silent slot

/-- The requests of the server that have a signal. -/
def signalActions : List String :=
  ["notify.clientvideoenabled", "notify.clientvideodisabled", "notify.clientjoinedchannel",
    "notify.clientleftchannel", "notify.clientdisconnected"]

namespace Effect

variable {slot : ReplySlot}

/-- A request without a signal. -/
theorem silent_sendRequest (c : ℤ) {text : String} (parameters : QJsonObject)
    (htext : text ∉ signalActions) :
    (sendRequest c (JsonProtocolHelper.createJsonRequest text parameters)).Silent slot := by
  simp only [signalActions, List.mem_cons, List.not_mem_nil, or_false, not_or] at htext
  obtain ⟨henabled, hdisabled, hjoined, hleft, hdisconnected⟩ := htext
  intro a message hmessage
  rw [message?] at hmessage
  split at hmessage
  · obtain rfl := Option.some.inj hmessage
    rw [Message.signal?, emitted?]
    split
    next => rfl
    next action params hread =>
      obtain ⟨rfl, rfl⟩ := eq_of_fromJsonRequest hread
      dsimp only
      rw [if_neg henabled, if_neg hdisabled, if_neg hjoined, if_neg hleft, if_neg hdisconnected]
  · contradiction

/-- A response that nothing waits for. -/
theorem silent_ignored (c : ℤ) (correlationId : UInt32) (response : QJsonObject) :
    (sendResponse c correlationId response).Silent .ignored := by
  intro a message hmessage
  rw [message?] at hmessage
  split at hmessage
  · obtain rfl := Option.some.inj hmessage
    rfl
  · contradiction

/-- An error is no success. -/
theorem silent_error (req : ActionData) {code : ℤ} (text : String) (hcode : 0 < code ∧ code < 1000) :
    (sendDefaultErrorResponse req code text).Silent slot := by
  obtain ⟨hpositive, hhigh⟩ := hcode
  have hnone : success? (JsonProtocolHelper.createJsonResponseError code text) = none := by
    change (if (QJsonValue.ofInt code).toInt ≠ 0 then none else _) = _
    rw [QJsonValue.toInt_ofInt (by omega) (by omega), if_pos (by omega)]
  intro a message hmessage
  rw [sendDefaultErrorResponse, message?] at hmessage
  split at hmessage
  · obtain rfl := Option.some.inj hmessage
    cases slot with
    | onAuthFinished => rw [Message.signal?, hnone, Option.map_none]
    | onJoinChannelFinished => rw [Message.signal?, hnone, Option.map_none]
    | ignored => rfl
  · contradiction

/-- What is no message at all. -/
theorem silent_of_message? {effect : Effect} (hnone : ∀ a slot, effect.message? a slot = none) :
    effect.Silent slot := by
  intro a message hmessage
  rw [hnone] at hmessage
  contradiction

end Effect

variable {slot : ReplySlot}

/-- Nothing is sent. -/
theorem allSilent_nil : AllSilent slot [] := fun _ h => absurd h List.not_mem_nil

/-- One effect more. -/
theorem AllSilent.cons {effect : Effect} {out : List Effect} (heffect : effect.Silent slot)
    (hout : AllSilent slot out) : AllSilent slot (effect :: out) := by
  intro other hother
  rcases List.mem_cons.mp hother with rfl | hlater
  · exact heffect
  · exact hout other hlater

/-- More effects. -/
theorem AllSilent.append {first later : List Effect} (hfirst : AllSilent slot first)
    (hlater : AllSilent slot later) : AllSilent slot (first ++ later) := by
  intro effect heffect
  rcases List.mem_append.mp heffect with h | h
  · exact hfirst effect h
  · exact hlater effect h

/-- The messages of silent effects have no signal. -/
theorem AllSilent.messagesTo {out : List Effect} (h : AllSilent slot out) {a : ℤ} {message : Message}
    (hmessage : message ∈ messagesTo a slot out) : message.signal? = none := by
  obtain ⟨effect, heffect, hsome⟩ := List.mem_filterMap.mp hmessage
  exact h effect heffect a message hsome

namespace VirtualServer

/-- Closing a connection is no message. -/
theorem silent_disconnectFromHost (c : ℤ) : (Effect.disconnectFromHost c).Silent slot :=
  Effect.silent_of_message? fun _ _ => rfl

/-- A broadcast without a signal. -/
theorem allSilent_broadcast (s : VirtualServer) (req : ActionData) (client : ServerClientEntity)
    {text : String} (parameters : QJsonObject) (htext : text ∉ signalActions) :
    AllSilent slot (broadcastNotificationToSiblingClients s req client text parameters) := by
  intro effect heffect
  obtain ⟨c, -, rfl, -⟩ := mem_broadcast.mp heffect
  exact Effect.silent_sendRequest c parameters htext

/-- Clients that are there before and after send video as before, and nobody has logged in. -/
structure SameStreams (s s' : VirtualServer) : Prop where
  video : ∀ {k : ℤ} {client client' : ServerClientEntity}, s.clients[k]? = some client →
    s'.clients[k]? = some client' → client'.videoEnabled = client.videoEnabled
  login : ∀ {k : ℤ} {client' : ServerClientEntity}, s'.clients[k]? = some client' →
    client'.authenticated = true → ∃ client, s.clients[k]? = some client ∧ client.authenticated = true

variable {s s' : VirtualServer}

/-- The clients stay the same. -/
theorem sameStreams_of_clients (hclients : s'.clients = s.clients) : SameStreams s s' := by
  constructor
  · intro k client client' hclient hclient'
    rw [hclients, hclient] at hclient'
    rw [Option.some.inj hclient']
  · intro k client' hclient' hauthenticated
    rw [hclients] at hclient'
    exact ⟨client', hclient', hauthenticated⟩

/-- One record changes in other fields. -/
theorem sameStreams_setClient {c : ℤ} {client client' : ServerClientEntity}
    (hclient : s.clients[c]? = some client) (hclients : s'.clients = s.clients.insert c client')
    (hvideo : client'.videoEnabled = client.videoEnabled)
    (hlogin : client'.authenticated = client.authenticated) : SameStreams s s' := by
  constructor
  · intro k before after hbefore hafter
    rw [hclients, Table.getElem?_insert] at hafter
    split at hafter
    next hk =>
      subst hk
      obtain rfl := Option.some.inj (hbefore.symm.trans hclient)
      obtain rfl := Option.some.inj hafter
      exact hvideo
    next => rw [Option.some.inj (hafter.symm.trans hbefore)]
  · intro k after hafter hauthenticated
    rw [hclients, Table.getElem?_insert] at hafter
    split at hafter
    next hk =>
      subst hk
      obtain rfl := Option.some.inj hafter
      exact ⟨client, hclient, hlogin ▸ hauthenticated⟩
    next => exact ⟨after, hafter, hauthenticated⟩

/-- A new client has not logged in. -/
theorem sameStreams_create (peerAddress : QHostAddress) (hnew : s.clients[s.nextClientId + 1]? = none) :
    SameStreams s (ClientConnectionHandler.create s peerAddress) := by
  have hlookup : ∀ k : ℤ, (ClientConnectionHandler.create s peerAddress).clients[k]? =
      if s.nextClientId + 1 = k then some { id := s.nextClientId + 1 } else s.clients[k]? :=
    fun k => Table.getElem?_insert s.clients (s.nextClientId + 1) k _
  constructor
  · intro k client client' hclient hclient'
    rw [hlookup] at hclient'
    split at hclient'
    next hk =>
      rw [← hk, hnew] at hclient
      contradiction
    next => rw [Option.some.inj (hclient'.symm.trans hclient)]
  · intro k client' hclient' hauthenticated
    rw [hlookup] at hclient'
    split at hclient'
    · obtain rfl := Option.some.inj hclient'
      contradiction
    · exact ⟨client', hclient', hauthenticated⟩

/-- A client that goes takes its record along. -/
theorem sameStreams_destroy {c : ℤ} (hdestroy : ClientConnectionHandler.destroy s c = some s') :
    SameStreams s s' := by
  obtain ⟨t, hleave, rfl⟩ := Option.map_eq_some_iff.mp hdestroy
  have hclients := removeClientFromChannels_eq VirtualServer.clients (fun _ _ _ _ _ => rfl) hleave
  have hold : ∀ {k : ℤ} {client' : ServerClientEntity}, (t.clients.erase c)[k]? = some client' →
      s.clients[k]? = some client' := fun h => hclients ▸ (Table.of_getElem?_erase h).2
  constructor
  · intro k client client' hclient hclient'
    rw [Option.some.inj ((hold hclient').symm.trans hclient)]
  · exact fun hclient' hauthenticated => ⟨_, hold hclient', hauthenticated⟩

/-- What an event does to streams and logins, and what it tells the clients about them. -/
inductive Showing (s : VirtualServer) (e : Event) (s' : VirtualServer) (out : List Effect) : Prop
  | silent (hstreams : SameStreams s s') (hsilent : AllSilent e.replySlot out)
  | login {c : ℤ} {client client' : ServerClientEntity} {correlationId : UInt32} {data : QJsonObject}
    (hclient : s.clients[c]? = some client) (hclients : s'.clients = s.clients.insert c client')
    (hid : client'.id = client.id) (hvideo : client'.videoEnabled = client.videoEnabled)
    (hslot : e.replySlot = .onAuthFinished)
    (hdata : data.value "client" = .object client'.toQJsonObject)
    (hout : out = [sendDefaultOkResponse ⟨c, correlationId, []⟩ data])
  | switched {c : ℤ} {client client' : ServerClientEntity} {action : ActionBase} {text : String}
    {correlationId : UInt32} {params : QJsonObject} (hadmits : Admits s e c client action params)
    (hswitch : action = .EnableVideoAction ∧ client'.videoEnabled = true ∧
        text = "notify.clientvideoenabled" ∨
      action = .DisableVideoAction ∧ client'.videoEnabled = false ∧ text = "notify.clientvideodisabled")
    (hmembers : SameMembers s s') (hclients : s'.clients = s.clients.insert c client')
    (hid : client'.id = client.id) (hlogin : client'.authenticated = client.authenticated)
    (hlevel : client'.visibilityLevel = client.visibilityLevel)
    (hout : out = sendDefaultOkResponse ⟨c, correlationId, params⟩ [] ::
      broadcastNotificationToSiblingClients s' ⟨c, correlationId, params⟩ client' text
        [("client", .object client'.toQJsonObject)])
  | joined {c ch : ℤ} {client : ServerClientEntity} {correlationId : UInt32} {params channel : QJsonObject}
    (hclient : s.clients[c]? = some client) (hlogin : client.authenticated = true)
    (hclients : s'.clients = s.clients) (hslot : e.replySlot = .onJoinChannelFinished)
    (hmember : SetMap.Rel s'.participants ch c)
    (hout : out = sendDefaultOkResponse ⟨c, correlationId, params⟩ [("channel", .object channel),
        ("participants", .array (s'.listedMembers client ch))] ::
      broadcastNotificationToSiblingClients s' ⟨c, correlationId, params⟩ client
        "notify.clientjoinedchannel"
        [("channel", .object channel), ("client", .object client.toQJsonObject)])
  | unconnected {c : ℤ} {client : ServerClientEntity} (hclient : s.clients[c]? = some client)
    (hhandle : ClientConnectionHandler.onUnconnected s c client = (s', out))

section Step

variable {e : Event} {c : ℤ} {client : ServerClientEntity} {action : ActionBase} {params : QJsonObject}
  {out : List Effect} {correlationId : UInt32}

/-- An error is silent and changes nothing. -/
theorem showing_error {req : ActionData} {code : ℤ} {text : String} (hcode : 0 < code ∧ code < 1000)
    (hresult : (s, [sendDefaultErrorResponse req code text]) = (s', out)) : Showing s e s' out := by
  obtain ⟨rfl, rfl⟩ := Prod.mk.inj hresult
  exact .silent (sameStreams_of_clients rfl) (.cons (Effect.silent_error req text hcode) allSilent_nil)

/-- A request that is not dispatched is refused with one of a few codes. -/
theorem code_of_dispatch {document : Option QJsonValue} {code : ℤ} {text : String}
    (h : ClientConnectionHandler.dispatch client document = .refuse code text) :
    0 < code ∧ code < 1000 := by
  unfold ClientConnectionHandler.dispatch at h
  split at h
  · obtain ⟨rfl, -⟩ := ClientConnectionHandler.Dispatch.refuse.inj h
    decide
  · split at h
    · obtain ⟨rfl, -⟩ := ClientConnectionHandler.Dispatch.refuse.inj h
      decide
    · split at h
      · obtain ⟨rfl, -⟩ := ClientConnectionHandler.Dispatch.refuse.inj h
        decide
      · split at h
        · obtain ⟨rfl, -⟩ := ClientConnectionHandler.Dispatch.refuse.inj h
          decide
        · contradiction

/-- The slot that waits for the response to an admitted request. -/
theorem Admits.replySlot (hadmits : Admits s e c client action params) :
    e.replySlot = NetworkClient.replySlot action.name := by
  obtain ⟨correlationId, document, rfl, hdispatch⟩ := hadmits.dispatch
  obtain ⟨text, hread, hname⟩ := name_of_dispatch hdispatch
  rw [Event.replySlot, hread, hname]

/-- A join request makes its client a member, unless it is refused. -/
theorem showing_join (hkeyed : s.Keyed) (hadmits : Admits s e c client action params)
    (haction : IsJoin action)
    (hrun : JoinChannelAction.run s ⟨c, correlationId, params⟩ client = (s', out)) :
    Showing s e s' out := by
  unfold JoinChannelAction.run at hrun
  dsimp only at hrun
  split at hrun
  · exact showing_error (by decide) hrun
  · split at hrun
    next t hretrieve =>
      obtain rfl := eq_of_retrieveChannel hretrieve
      exact showing_error (by decide) hrun
    next t channel hretrieve =>
      have hretrieved := retrieved_of_retrieveChannel hkeyed hretrieve
      split at hrun
      next hwrong =>
        obtain rfl := hretrieved.password.resolve_right hwrong.2.2
        exact showing_error (by decide) hrun
      next =>
        obtain ⟨rfl, rfl⟩ := Prod.mk.inj hrun
        have hid := hkeyed.client hadmits.live
        subst hid
        refine .joined hadmits.live (hadmits.authenticated haction.ne_authentication) ?_
          (replySlot_of_join hadmits haction) ?_ rfl
        · change (t.addClientToChannel client.id channel.id).clients = s.clients
          rw [clients_addClientToChannel, hretrieved.clients]
        · change SetMap.Rel (t.addClientToChannel client.id channel.id).participants _ _
          rw [addClientToChannel_eq hretrieved.found rfl]
          exact SetMap.rel_insertAt.mpr (.inl ⟨rfl, rfl⟩)

/-- An authentication request is silent. -/
theorem showing_authenticate (req : ActionData) (peerAddress : QHostAddress)
    (hrun : AuthenticationAction.run s req peerAddress = (s', out)) : Showing s e s' out := by
  have hrefused : ∀ code text, 0 < code ∧ code < 1000 →
      AuthenticationAction.refuse s req code text = (s', out) → Showing s e s' out := by
    intro code text hcode h
    obtain ⟨rfl, rfl⟩ := Prod.mk.inj h
    exact .silent (sameStreams_of_clients rfl) (.cons (Effect.silent_error _ _ hcode)
      (.cons (silent_disconnectFromHost _) allSilent_nil))
  unfold AuthenticationAction.run at hrun
  dsimp only at hrun
  split at hrun
  · exact hrefused _ _ (by decide) hrun
  split at hrun
  · exact hrefused _ _ (by decide) hrun
  split at hrun
  · exact hrefused _ _ (by decide) hrun
  split at hrun
  · exact hrefused _ _ (by decide) hrun
  split at hrun
  · exact hrefused _ _ (by decide) hrun
  · obtain ⟨rfl, rfl⟩ := Prod.mk.inj hrun
    exact .silent (sameStreams_of_clients rfl) allSilent_nil

/-- A request whose response nothing waits for. -/
theorem showing_answered (hadmits : Admits s e c client action params)
    (hslot : NetworkClient.replySlot action.name = .ignored) (hstreams : SameStreams s s')
    (hsilent : AllSilent .ignored out) : Showing s e s' out := by
  rw [← hslot, ← hadmits.replySlot] at hsilent
  exact .silent hstreams hsilent

/-- A response alone is silent if nothing waits for it. -/
theorem allSilent_answer (c : ℤ) (correlationId : UInt32) (response : QJsonObject) :
    AllSilent .ignored [.sendResponse c correlationId response] :=
  .cons (Effect.silent_ignored _ _ _) allSilent_nil

/-- A refused request is silent if nothing waits for its response. -/
theorem showing_refused {req : ActionData} {result : ActionResult}
    (hadmits : Admits s e c client action params)
    (hslot : NetworkClient.replySlot action.name = .ignored) (hrefused : Refused s req result)
    (hresult : result = (s', out)) : Showing s e s' out := by
  obtain ⟨code, message, -, herror⟩ := hrefused
  obtain ⟨rfl, rfl⟩ := Prod.mk.inj (herror.symm.trans hresult)
  exact showing_answered hadmits hslot (sameStreams_of_clients rfl) (allSilent_answer _ _ _)

/-- A change of the audio is silent. -/
theorem showing_updateAudio (hadmits : Admits s e c client action params)
    (hslot : NetworkClient.replySlot action.name = .ignored) (audioInputEnabled : Bool) {text : String}
    (htext : text ∉ signalActions)
    (hrun : updateMediaState s ⟨c, correlationId, params⟩ { client with audioInputEnabled } text =
      (s', out)) : Showing s e s' out := by
  obtain ⟨rfl, rfl⟩ := Prod.mk.inj hrun
  exact showing_answered hadmits hslot (sameStreams_setClient hadmits.live rfl rfl rfl)
    (.cons (Effect.silent_ignored _ _ _) (allSilent_broadcast _ _ _ _ htext))

/-- What an admitted request does to streams and logins. -/
theorem showing_of_run (hkeyed : s.Keyed) (hadmits : Admits s e c client action params)
    {peerAddress : QHostAddress}
    (hrun : action.run s ⟨c, correlationId, params⟩ client peerAddress = some (s', out)) :
    Showing s e s' out := by
  have hanswered : ∀ hslot : NetworkClient.replySlot action.name = .ignored, s'.clients = s.clients →
      (∃ response, out = [.sendResponse c correlationId response]) → Showing s e s' out := by
    rintro hslot hclients ⟨response, rfl⟩
    exact showing_answered hadmits hslot (sameStreams_of_clients hclients) (allSilent_answer _ _ _)
  cases action with
  | HeartbeatAction =>
    obtain ⟨rfl, rfl⟩ := Prod.mk.inj (Option.some.inj hrun)
    exact hanswered rfl rfl ⟨_, rfl⟩
  | GoodbyeAction =>
    obtain ⟨rfl, rfl⟩ := Prod.mk.inj (Option.some.inj hrun)
    exact showing_answered hadmits rfl (sameStreams_of_clients rfl)
      (.cons (Effect.silent_ignored _ _ _) (.cons (silent_disconnectFromHost _) allSilent_nil))
  | AuthenticationAction => exact showing_authenticate _ _ (Option.some.inj hrun)
  | GetChannelListAction =>
    rcases run_getChannelList_cases s ⟨c, correlationId, params⟩ with hrefused | ⟨_, hlisted⟩
    · exact showing_refused hadmits rfl hrefused (Option.some.inj hrun)
    · obtain ⟨rfl, rfl⟩ := Prod.mk.inj (hlisted.symm.trans (Option.some.inj hrun))
      exact hanswered rfl rfl ⟨_, rfl⟩
  | CreateChannelAction =>
    have hclients : (CreateChannelAction.run s ⟨c, correlationId, params⟩ client).1.clients =
        s.clients := by
      rw [run_createChannel s correlationId params (hkeyed.client hadmits.live)]
      rfl
    obtain ⟨rfl, rfl⟩ := Prod.mk.inj (Option.some.inj hrun)
    exact hanswered rfl hclients ⟨_, rfl⟩
  | JoinChannelAction => exact showing_join hkeyed hadmits (.inl rfl) (Option.some.inj hrun)
  | JoinChannel2Action => exact showing_join hkeyed hadmits (.inr rfl) (Option.some.inj hrun)
  | EnableVideoAction =>
    rcases run_enableVideo_cases s ⟨c, correlationId, params⟩ client with
      hrefused | ⟨_, _, henabled⟩
    · exact showing_refused hadmits rfl hrefused (Option.some.inj hrun)
    · obtain ⟨rfl, rfl⟩ := Prod.mk.inj (henabled.symm.trans (Option.some.inj hrun))
      exact .switched hadmits (.inl ⟨rfl, rfl, rfl⟩) ⟨rfl, rfl, fun _ => Iff.rfl⟩ rfl rfl rfl rfl rfl
  | DisableVideoAction =>
    obtain ⟨rfl, rfl⟩ := Prod.mk.inj (Option.some.inj hrun)
    exact .switched hadmits (.inr ⟨rfl, rfl, rfl⟩) ⟨rfl, rfl, fun _ => Iff.rfl⟩ rfl rfl rfl rfl rfl
  | EnableAudioInputAction =>
    exact showing_updateAudio hadmits rfl true (by decide) (Option.some.inj hrun)
  | DisableAudioInputAction =>
    exact showing_updateAudio hadmits rfl false (by decide) (Option.some.inj hrun)
  | AdminAuthAction =>
    rcases run_adminAuth_cases s ⟨c, correlationId, params⟩ client with hrefused | hadmin
    · exact showing_refused hadmits rfl hrefused (Option.some.inj hrun)
    · obtain ⟨rfl, rfl⟩ := Prod.mk.inj (hadmin.symm.trans (Option.some.inj hrun))
      exact showing_answered hadmits rfl (sameStreams_setClient hadmits.live rfl rfl rfl)
        (allSilent_answer _ _ _)
  | KickClientAction =>
    obtain ⟨kicked, -, -, -, rfl⟩ := of_run_kick hrun
    obtain ⟨bans, rfl⟩ := eq_of_run_kick hrun
    exact showing_answered hadmits rfl (sameStreams_of_clients rfl)
      (.cons (Effect.silent_sendRequest _ _ (by decide))
        (.cons (silent_disconnectFromHost _) (allSilent_answer _ _ _)))
  | UpdateVisibilityLevelAction =>
    obtain ⟨rfl, rfl⟩ := Prod.mk.inj (Option.some.inj hrun)
    exact showing_answered hadmits rfl (sameStreams_setClient hadmits.live rfl rfl rfl)
      (allSilent_answer _ _ _)
  | AddDirectStreamingRelationAction =>
    rcases run_addRelation_cases s ⟨c, correlationId, params⟩ with hrefused | ⟨-, -, hadded⟩
    · exact showing_refused hadmits rfl hrefused (Option.some.inj hrun)
    · obtain ⟨rfl, rfl⟩ := Prod.mk.inj (hadded.symm.trans (Option.some.inj hrun))
      exact hanswered rfl rfl ⟨_, rfl⟩
  | RemoveDirectStreamingRelationAction =>
    obtain ⟨rfl, rfl⟩ := Prod.mk.inj (Option.some.inj hrun)
    exact hanswered rfl rfl ⟨_, rfl⟩

/-- The answer to an authentication logs a client in, unless it is refused. -/
theorem showing_onFinished {pending : PendingAuthentication} {data : Bool} {now : String}
    (authentications : List PendingAuthentication) (hslot : e.replySlot = .onAuthFinished)
    (h : AuthenticationAction.onFinished { s with authentications } pending data now =
      some (s', out)) : Showing s e s' out := by
  unfold AuthenticationAction.onFinished at h
  dsimp only at h
  split at h
  · obtain ⟨rfl, rfl⟩ := Prod.mk.inj (Option.some.inj h)
    exact .silent (sameStreams_of_clients rfl) (.cons (Effect.silent_error _ _ (by decide))
      (.cons (silent_disconnectFromHost _) allSilent_nil))
  · split at h
    · obtain ⟨rfl, rfl⟩ := Prod.mk.inj (Option.some.inj h)
      exact .silent (sameStreams_of_clients rfl) allSilent_nil
    · obtain ⟨client, hclient, h⟩ := Option.map_eq_some_iff.mp h
      obtain ⟨rfl, rfl⟩ := Prod.mk.inj h
      exact .login hclient rfl rfl rfl hslot rfl rfl

/-- What the media socket does is silent. -/
theorem allSilent_outputs (slot : ReplySlot) (outputs : List MediaSocketHandler.Output)
    {done : ActionResult} (hdone : AllSilent slot done.2) :
    AllSilent slot (outputs.foldl onMediaSocketOutput done).2 := by
  induction outputs generalizing done with
  | nil => exact hdone
  | cons output outputs ih =>
    refine ih ?_
    cases output with
    | tokenAuthentication token address port =>
      refine hdone.append ?_
      unfold onMediaSocketTokenAuthentication
      split
      · exact allSilent_nil
      · dsimp only
        split
        · exact allSilent_nil
        · dsimp only
          split
          · exact .cons (Effect.silent_sendRequest _ _ (by decide)) allSilent_nil
          · exact allSilent_nil
    | writeDatagram data address port =>
      exact hdone.append (.cons (Effect.silent_of_message? fun _ _ => rfl) allSilent_nil)

/-- A datagram changes at most the media address of a client. -/
theorem sameStreams_readyRead (fromUtf8 : List UInt8 → String) (datagram : List UInt8)
    (address : QHostAddress) (port : UInt16) :
    SameStreams s (s.onReadyRead fromUtf8 datagram address port).1 := by
  cases hparse : MediaSocketHandler.parse (datagram.take MediaSocketHandler.bufferSize) with
  | invalid =>
    simp only [onReadyRead, MediaSocketHandler.onReadyRead, hparse]
    exact sameStreams_of_clients rfl
  | relay =>
    rw [onReadyRead_relay fromUtf8 address port hparse]
    exact sameStreams_of_clients rfl
  | recover sender =>
    rw [onReadyRead_recover fromUtf8 address port hparse]
    exact sameStreams_of_clients rfl
  | authenticate data =>
    simp only [onReadyRead, MediaSocketHandler.onReadyRead, hparse, List.foldl_cons, List.foldl_nil,
      onMediaSocketOutput, onMediaSocketTokenAuthentication]
    split
    · exact sameStreams_of_clients rfl
    · split
      · exact sameStreams_of_clients rfl
      next client hclient => exact sameStreams_setClient hclient rfl rfl rfl

end Step

/-- What every event does to streams and logins, and what it tells the clients about them. -/
theorem showing_of_step {fromUtf8 : List UInt8 → String} {e : Event} {out : List Effect}
    (hkeyed : s.Keyed) (hnew : s.clients[s.nextClientId + 1]? = none)
    (hstep : step fromUtf8 s e = some (s', out)) : Showing s e s' out := by
  have hquiet : Showing s e s [] := .silent (sameStreams_of_clients rfl) allSilent_nil
  cases e with
  | newConnection peerAddress =>
    obtain ⟨rfl, rfl⟩ := Prod.mk.inj (Option.some.inj hstep)
    exact .silent (sameStreams_create peerAddress hnew) allSilent_nil
  | newIncomingRequest c correlationId document =>
    rcases withConnection_cases hstep with ⟨rfl, rfl⟩ | ⟨client, conn, hclient, hconn, hhandle⟩
    · exact hquiet
    · unfold ClientConnectionHandler.onNewIncomingRequest at hhandle
      split at hhandle
      next code text hdispatch =>
        exact showing_error (code_of_dispatch hdispatch) (Option.some.inj hhandle)
      next action params hdispatch =>
        have hadmits : Admits s (.newIncomingRequest c correlationId document) c client action params :=
          ⟨hclient, Table.mem_of_getElem? hconn, correlationId, document, rfl, hdispatch⟩
        exact showing_of_run hkeyed hadmits hhandle
  | authenticationFinished index ts3Allowed now =>
    simp only [step, onAuthenticationFinished] at hstep
    split at hstep
    · obtain ⟨rfl, rfl⟩ := Prod.mk.inj (Option.some.inj hstep)
      exact hquiet
    · exact showing_onFinished _ rfl hstep
  | readyRead datagram address port =>
    obtain ⟨rfl, rfl⟩ := Prod.mk.inj (Option.some.inj hstep)
    exact .silent (sameStreams_readyRead fromUtf8 datagram address port)
      (allSilent_outputs _ _ allSilent_nil)
  | networkUsageUpdated networkUsage =>
    obtain ⟨rfl, rfl⟩ := Prod.mk.inj (Option.some.inj hstep)
    exact .silent (sameStreams_of_clients rfl) allSilent_nil
  | unconnected c =>
    rcases withConnection_cases hstep with ⟨rfl, rfl⟩ | ⟨client, conn, hclient, -, hhandle⟩
    · exact hquiet
    · exact .unconnected hclient (Option.some.inj hhandle)
  | destroyed c =>
    rcases withConnection_cases hstep with ⟨rfl, rfl⟩ | ⟨client, conn, -, hconn, hhandle⟩
    · exact hquiet
    · split at hhandle
      · obtain ⟨t, hdestroy, h⟩ := Option.map_eq_some_iff.mp hhandle
        obtain ⟨rfl, rfl⟩ := Prod.mk.inj h
        exact .silent (sameStreams_destroy hdestroy) allSilent_nil
      · obtain ⟨rfl, rfl⟩ := Prod.mk.inj (Option.some.inj hhandle)
        exact hquiet
  | authenticationTimeout c =>
    rcases withConnection_cases hstep with ⟨rfl, rfl⟩ | ⟨client, conn, -, -, hhandle⟩
    · exact hquiet
    · obtain ⟨rfl, rfl⟩ := Prod.mk.inj (Option.some.inj hhandle)
      refine .silent (sameStreams_of_clients rfl) ?_
      unfold ClientConnectionHandler.onAuthenticationTimeout
      split
      · exact allSilent_nil
      · exact .cons (Effect.silent_sendRequest _ _ (by decide))
          (.cons (silent_disconnectFromHost _) allSilent_nil)
  | connectionTimeout c =>
    rcases withConnection_cases hstep with ⟨rfl, rfl⟩ | ⟨client, conn, -, -, hhandle⟩
    · exact hquiet
    · obtain ⟨rfl, rfl⟩ := Prod.mk.inj (Option.some.inj hhandle)
      exact .silent (sameStreams_of_clients rfl) (.cons (Effect.silent_sendRequest _ _ (by decide))
        (.cons (silent_disconnectFromHost _)
          (.cons (Effect.silent_of_message? fun _ _ => rfl) allSilent_nil)))

end VirtualServer

end Ts3Video
