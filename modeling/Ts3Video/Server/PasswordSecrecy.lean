import Mathlib.Logic.Equiv.Basic
import Ts3Video.Server.Requests

/-!
# Passwords stay secret

Passwords are compared and tested for emptiness, and nothing else is done with them. A server whose passwords
are exchanged for others, in its configuration, in its channels and in the requests that it gets, sends the
same messages.
-/

namespace Ts3Video

open Std ActionBase

/-- Change the value of a member of an object. -/
def QJsonObject.mapValue (name : String) (f : QJsonValue → QJsonValue) (obj : QJsonObject) : QJsonObject :=
  obj.map fun member => if member.1 = name then (member.1, f member.2) else member

/-- Exchange a text. -/
def QJsonValue.exchange (swap : String → String) : QJsonValue → QJsonValue
  | .string password => .string (swap password)
  | value => value

/-- Exchange the password among the parameters of a request. -/
def QJsonObject.exchange (swap : String → String) (params : QJsonObject) : QJsonObject :=
  params.mapValue "password" (QJsonValue.exchange swap)

/-- Exchange the password among parameters. -/
def QJsonValue.exchangeParameters (swap : String → String) : QJsonValue → QJsonValue
  | .object params => .object (QJsonObject.exchange swap params)
  | value => value

/-- Exchange the password in the document of a request. -/
def exchangeDocument (swap : String → String) : Option QJsonValue → Option QJsonValue
  | some (.object root) =>
    some (.object (QJsonObject.mapValue "parameters" (QJsonValue.exchangeParameters swap) root))
  | document => document

/-- Exchange the password of a channel. -/
def ServerChannelEntity.exchange (swap : String → String) (channel : ServerChannelEntity) :
    ServerChannelEntity :=
  { channel with password := swap channel.password }

/-- Exchange the passwords of the configuration. -/
def VirtualServerOptions.exchange (swap : String → String) (opts : VirtualServerOptions) :
    VirtualServerOptions :=
  { opts with password := swap opts.password, adminPassword := swap opts.adminPassword }

/-- What becomes of a request whose password is exchanged. -/
def ClientConnectionHandler.Dispatch.exchange (swap : String → String) :
    ClientConnectionHandler.Dispatch → ClientConnectionHandler.Dispatch
  | .refuse statusCode message => .refuse statusCode message
  | .run action params => .run action (params.exchange swap)

namespace VirtualServer

/-- Exchange the passwords of the server and its channels. -/
def exchange (swap : String → String) (s : VirtualServer) : VirtualServer :=
  { s with
    opts := s.opts.exchange swap
    id2channel := s.id2channel.map fun _ channel => channel.exchange swap }

/-- Exchange the password in a request. -/
def Event.exchange (swap : String → String) : Event → Event
  | .newIncomingRequest clientId correlationId document =>
    .newIncomingRequest clientId correlationId (exchangeDocument swap document)
  | e => e

/-- The result of a step with the passwords of its state exchanged. -/
def exchangeResult (swap : String → String) (result : ActionResult) : ActionResult :=
  (result.1.exchange swap, result.2)

end VirtualServer

/-- Passwords are exchanged for others one to one, and no password remains none. -/
structure Exchanges (swap : String → String) : Prop where
  injective : Function.Injective swap
  empty : swap "" = ""

variable {swap : String → String}

/-- No password is exchanged for one, and none for another. -/
theorem Exchanges.isEmpty (h : Exchanges swap) (password : String) :
    (swap password).isEmpty = password.isEmpty := by
  rw [Bool.eq_iff_iff, String.isEmpty_iff, String.isEmpty_iff]
  exact ⟨fun heq => h.injective (heq.trans h.empty.symm), fun heq => heq ▸ h.empty⟩

/-- A member is found as before, with its value changed if it is the one that is changed. -/
theorem QJsonObject.lookup_mapValue (name key : String) (f : QJsonValue → QJsonValue) (obj : QJsonObject) :
    (obj.mapValue name f).lookup key = (obj.lookup key).map (if key = name then f else id) := by
  induction obj with
  | nil => rfl
  | cons member obj ih =>
    obtain ⟨first, value⟩ := member
    rw [mapValue] at ih
    by_cases hkey : key = first
    · subst hkey
      by_cases hname : key = name
      · simp [mapValue, hname]
      · simp [mapValue, hname]
    · have hne : (key == first) = false := beq_false_of_ne hkey
      by_cases hname : first = name
      · simp [mapValue, List.lookup_cons, hname, hname ▸ hne, ih]
      · simp [mapValue, List.lookup_cons, hname, hne, ih]

/-- Other parameters stay the same. -/
theorem QJsonObject.value_exchange {params : QJsonObject} {key : String} (hkey : key ≠ "password") :
    (params.exchange swap).value key = params.value key := by
  rw [value, QJsonObject.exchange, lookup_mapValue, if_neg hkey, Option.map_id, id, value]

/-- The password is exchanged. -/
theorem QJsonObject.password_exchange (h : Exchanges swap) (params : QJsonObject) :
    ((params.exchange swap).value "password").toString = swap (params.value "password").toString := by
  rw [value, QJsonObject.exchange, lookup_mapValue, if_pos rfl, value]
  cases params.lookup "password" with
  | none => exact h.empty.symm
  | some found =>
    cases found with
    | string => rfl
    | _ => exact h.empty.symm

/-- Changing the value of a member adds and removes none. -/
theorem QJsonObject.contains_mapValue (name key : String) (f : QJsonValue → QJsonValue) (obj : QJsonObject) :
    (obj.mapValue name f).contains key = obj.contains key := by
  rw [contains, lookup_mapValue, Option.isSome_map, contains]

/-- The parameters of a document are exchanged. -/
theorem QJsonObject.parameters_exchange (swap : String → String) (root : QJsonObject) :
    ((root.mapValue "parameters" (QJsonValue.exchangeParameters swap)).value "parameters").toObject =
      (root.value "parameters").toObject.exchange swap := by
  rw [value, lookup_mapValue, if_pos rfl, value]
  cases root.lookup "parameters" with
  | none => rfl
  | some found =>
    cases found with
    | _ => rfl

/-- A request is read as before, with its password exchanged. -/
theorem fromJsonRequest_exchange (swap : String → String) (document : Option QJsonValue) :
    JsonProtocolHelper.fromJsonRequest (exchangeDocument swap document) =
      (JsonProtocolHelper.fromJsonRequest document).map fun request =>
        (request.1, request.2.exchange swap) := by
  cases document with
  | none => rfl
  | some root =>
    cases root with
    | object root =>
      have haction : QJsonObject.value (QJsonObject.mapValue "parameters"
          (QJsonValue.exchangeParameters swap) root) "action" = QJsonObject.value root "action" := by
        rw [QJsonObject.value, QJsonObject.lookup_mapValue, if_neg (by decide), Option.map_id, id,
          QJsonObject.value]
      simp only [exchangeDocument, JsonProtocolHelper.fromJsonRequest, QJsonObject.contains_mapValue, haction,
        QJsonObject.parameters_exchange]
      split
      · rfl
      · rfl
    | _ => rfl

/-- The conditions of an action do not depend on passwords. -/
theorem dispatch_exchange (swap : String → String) (client : ServerClientEntity)
    (document : Option QJsonValue) :
    ClientConnectionHandler.dispatch client (exchangeDocument swap document) =
      (ClientConnectionHandler.dispatch client document).exchange swap := by
  rw [ClientConnectionHandler.dispatch, fromJsonRequest_exchange, ClientConnectionHandler.dispatch]
  cases JsonProtocolHelper.fromJsonRequest document with
  | none => rfl
  | some request =>
    simp only [Option.map_some]
    split
    · rfl
    · split
      · rfl
      · split
        · rfl
        · rfl

namespace VirtualServer

variable {s s' : VirtualServer} {c ch : ℤ} {channel : ServerChannelEntity} {client : ServerClientEntity}

/-- A channel is found as before, with its password exchanged. -/
theorem getElem?_exchange (swap : String → String) (s : VirtualServer) (ch : ℤ) :
    (s.exchange swap).id2channel[ch]? = (s.id2channel[ch]?).map (·.exchange swap) :=
  ExtTreeMap.getElem?_map

/-- Storing a channel before or after the exchange is the same. -/
theorem insert_exchange (swap : String → String) (channels : ExtTreeMap ℤ ServerChannelEntity) (ch : ℤ)
    (channel : ServerChannelEntity) :
    (channels.map fun _ channel => channel.exchange swap).insert ch (channel.exchange swap) =
      (channels.insert ch channel).map fun _ channel => channel.exchange swap := by
  apply ExtTreeMap.ext_getElem?
  intro k
  rw [Table.getElem?_insert, ExtTreeMap.getElem?_map, ExtTreeMap.getElem?_map, Table.getElem?_insert]
  split
  · rfl
  · rfl

/-- Removing a channel before or after the exchange is the same. -/
theorem erase_exchange (swap : String → String) (channels : ExtTreeMap ℤ ServerChannelEntity) (ch : ℤ) :
    (channels.map fun _ channel => channel.exchange swap).erase ch =
      (channels.erase ch).map fun _ channel => channel.exchange swap := by
  apply ExtTreeMap.ext_getElem?
  intro k
  rw [Table.getElem?_erase, ExtTreeMap.getElem?_map, ExtTreeMap.getElem?_map, Table.getElem?_erase]
  split
  · rfl
  · rfl

/-- A channel is stored. -/
theorem setChannel_exchange (swap : String → String) (s : VirtualServer) (channel : ServerChannelEntity) :
    (s.exchange swap).setChannel (channel.exchange swap) = (s.setChannel channel).exchange swap := by
  rw [setChannel, VirtualServer.exchange, VirtualServer.exchange]
  dsimp only
  rw [show (channel.exchange swap).id = channel.id from rfl, insert_exchange]
  rfl

/-- A channel is created without a password. -/
theorem createChannel_exchange (h : Exchanges swap) (s : VirtualServer) (ident : String) :
    (s.exchange swap).createChannel ident =
      ((s.createChannel ident).1.exchange swap, (s.createChannel ident).2) := by
  have hcreated : (s.createChannel ident).2.exchange swap = (s.createChannel ident).2 := by
    simp only [createChannel, ServerChannelEntity.exchange, h.empty]
  have hinsert := insert_exchange swap s.id2channel (s.createChannel ident).2.id (s.createChannel ident).2
  rw [hcreated] at hinsert
  rw [createChannel, VirtualServer.exchange]
  dsimp only
  rw [Prod.mk.injEq]
  refine ⟨?_, rfl⟩
  rw [VirtualServer.exchange, createChannel]
  dsimp only
  rw [VirtualServer.mk.injEq]
  exact ⟨rfl, rfl, rfl, rfl, rfl, hinsert, rfl, rfl, rfl, rfl, rfl, rfl, rfl, rfl, rfl⟩

/-- A client becomes a member. -/
theorem addClientToChannel_exchange (swap : String → String) (s : VirtualServer) (c ch : ℤ) :
    (s.exchange swap).addClientToChannel c ch = (s.addClientToChannel c ch).exchange swap := by
  rw [addClientToChannel, getElem?_exchange, addClientToChannel]
  cases s.id2channel[ch]? with
  | none => rfl
  | some channel => rfl

/-- A client leaves a channel. -/
theorem removeClientFromChannel_exchange (swap : String → String) (s : VirtualServer) (c ch : ℤ) :
    (s.exchange swap).removeClientFromChannel c ch =
      (s.removeClientFromChannel c ch).map (VirtualServer.exchange swap) := by
  rw [removeClientFromChannel, getElem?_exchange, removeClientFromChannel]
  dsimp only [VirtualServer.exchange]
  by_cases hempty : (SetMap.value (SetMap.eraseAt s.participants ch c) ch).isEmpty
  · simp only [hempty, if_true]
    cases s.id2channel[ch]? with
    | none => rfl
    | some channel =>
      dsimp only [Option.map_some]
      rw [erase_exchange]
      rfl
  · simp only [hempty, Bool.false_eq_true, if_false]
    rfl

/-- A client leaves all its channels. -/
theorem removeClientFromChannels_exchange (swap : String → String) (s : VirtualServer) (c : ℤ) :
    (s.exchange swap).removeClientFromChannels c =
      (s.removeClientFromChannels c).map (VirtualServer.exchange swap) := by
  have hfold : ∀ (channelIds : List ℤ) (s : VirtualServer),
      channelIds.foldlM (fun (t : VirtualServer) ch => t.removeClientFromChannel c ch) (s.exchange swap) =
        (channelIds.foldlM (fun (t : VirtualServer) ch => t.removeClientFromChannel c ch) s).map
          (VirtualServer.exchange swap) := by
    intro channelIds
    induction channelIds with
    | nil => exact fun _ => rfl
    | cons ch channelIds ih =>
      intro s
      rw [List.foldlM_cons, List.foldlM_cons, removeClientFromChannel_exchange]
      cases s.removeClientFromChannel c ch with
      | none => rfl
      | some t => exact ih t
  exact hfold _ s

/-- A connection is destroyed. -/
theorem destroy_exchange (swap : String → String) (s : VirtualServer) (c : ℤ) :
    ClientConnectionHandler.destroy (s.exchange swap) c =
      (ClientConnectionHandler.destroy s c).map (VirtualServer.exchange swap) := by
  rw [ClientConnectionHandler.destroy, removeClientFromChannels_exchange, ClientConnectionHandler.destroy]
  cases s.removeClientFromChannels c with
  | none => rfl
  | some t => rfl

/-- A join request finds the same channel. -/
theorem retrieveChannel_exchange (h : Exchanges swap) (s : VirtualServer) (channelId : ℤ)
    (channelIdent password : String) :
    JoinChannelAction.retrieveChannel (s.exchange swap) channelId channelIdent (swap password) =
      ((JoinChannelAction.retrieveChannel s channelId channelIdent password).1.exchange swap,
        (JoinChannelAction.retrieveChannel s channelId channelIdent password).2.map (·.exchange swap)) := by
  rw [JoinChannelAction.retrieveChannel, getElem?_exchange, JoinChannelAction.retrieveChannel]
  cases s.id2channel[channelId]? with
  | some channel => rfl
  | none =>
    simp only [Option.map_none, createChannel_exchange h, h.isEmpty]
    split
    · have hset := setChannel_exchange swap (s.createChannel channelIdent).1
        { (s.createChannel channelIdent).2 with isPasswordProtected := ¬ password.isEmpty, password }
      exact Prod.ext hset rfl
    · rfl

/-- A client joins a channel. -/
theorem join_exchange (swap : String → String) (s : VirtualServer) (c : ℤ) (correlationId : UInt32)
    (params : QJsonObject) (client : ServerClientEntity) (channel : ServerChannelEntity) :
    JoinChannelAction.join (s.exchange swap) ⟨c, correlationId, params.exchange swap⟩ client
        (channel.exchange swap) =
      exchangeResult swap (JoinChannelAction.join s ⟨c, correlationId, params⟩ client channel) := by
  rw [JoinChannelAction.join, show (channel.exchange swap).id = channel.id from rfl,
    addClientToChannel_exchange, JoinChannelAction.join]
  rfl

/-- A join request has the same outcome. -/
theorem run_join_exchange (h : Exchanges swap) (s : VirtualServer) (c : ℤ) (correlationId : UInt32)
    (params : QJsonObject) (client : ServerClientEntity) :
    JoinChannelAction.run (s.exchange swap) ⟨c, correlationId, params.exchange swap⟩ client =
      exchangeResult swap (JoinChannelAction.run s ⟨c, correlationId, params⟩ client) := by
  rw [JoinChannelAction.run, JoinChannelAction.run]
  simp only [QJsonObject.value_exchange (show "identifier" ≠ "password" by decide),
    QJsonObject.value_exchange (show "channelid" ≠ "password" by decide), QJsonObject.password_exchange h]
  rw [show JoinChannelAction.findChannelId (s.exchange swap) = JoinChannelAction.findChannelId s from rfl,
    retrieveChannel_exchange h]
  split
  · rfl
  · cases JoinChannelAction.retrieveChannel s
      (JoinChannelAction.findChannelId s (params.value "channelid").toInt (params.value "identifier").toString)
      (params.value "identifier").toString (params.value "password").toString with
    | mk t found =>
      cases found with
      | none => rfl
      | some channel =>
        have hwrong : (channel.exchange swap).password ≠ swap (params.value "password").toString ↔
            channel.password ≠ (params.value "password").toString :=
          not_congr h.injective.eq_iff
        have hprotected : (channel.exchange swap).password.isEmpty = channel.password.isEmpty :=
          h.isEmpty channel.password
        simp only [Option.map_some, hwrong, hprotected]
        split
        · rfl
        · exact join_exchange swap t c correlationId params client channel

/-- A channel is created. -/
theorem run_createChannel_exchange (h : Exchanges swap) (s : VirtualServer) (c : ℤ) (correlationId : UInt32)
    (params : QJsonObject) (client : ServerClientEntity) :
    CreateChannelAction.run (s.exchange swap) ⟨c, correlationId, params.exchange swap⟩ client =
      exchangeResult swap (CreateChannelAction.run s ⟨c, correlationId, params⟩ client) := by
  rw [CreateChannelAction.run, CreateChannelAction.run]
  simp only [QJsonObject.value_exchange (show "channel" ≠ "password" by decide),
    QJsonObject.password_exchange h, h.isEmpty, createChannel_exchange h]
  generalize hmerged : (s.createChannel "").2.merge
    (ChannelEntity.fromQJsonObject (params.value "channel").toObject) = merged
  have hnone : merged.exchange swap = merged := by
    rw [← hmerged]
    simp only [ServerChannelEntity.merge, createChannel, ServerChannelEntity.exchange, h.empty]
  generalize (params.value "password").toString = password
  have hchannel : (if password.isEmpty then merged else
      { merged with isPasswordProtected := true, password := swap password }) =
      ServerChannelEntity.exchange swap (if password.isEmpty then merged else
        { merged with isPasswordProtected := true, password }) := by
    split
    · exact hnone.symm
    · rfl
  rw [hchannel, setChannel_exchange]
  rw [addClientToChannel_exchange]
  rfl

/-- The channels are listed. -/
theorem run_getChannelList_exchange (swap : String → String) (s : VirtualServer) (c : ℤ)
    (correlationId : UInt32) (params : QJsonObject) :
    GetChannelListAction.run (s.exchange swap) ⟨c, correlationId, params.exchange swap⟩ =
      exchangeResult swap (GetChannelListAction.run s ⟨c, correlationId, params⟩) := by
  have hsize : (s.exchange swap).id2channel.size = s.id2channel.size := ExtTreeMap.size_map
  have hsorted : (((s.exchange swap).id2channel.toList.map Prod.snd).mergeSort fun a b => a.id ≤ b.id) =
      ((s.id2channel.toList.map Prod.snd).mergeSort fun a b => a.id ≤ b.id).map (·.exchange swap) := by
    have hcompare : ∀ a ∈ s.id2channel.toList.map Prod.snd, ∀ b ∈ s.id2channel.toList.map Prod.snd,
        decide (a.id ≤ b.id) = decide ((a.exchange swap).id ≤ (b.exchange swap).id) :=
      fun _ _ _ _ => rfl
    rw [List.map_mergeSort (s := fun a b => decide (a.id ≤ b.id)) hcompare, VirtualServer.exchange]
    dsimp only
    rw [ExtTreeMap.toList_map, List.map_map, List.map_map]
    rfl
  rw [GetChannelListAction.run, GetChannelListAction.run]
  simp only [QJsonObject.value_exchange (show "offset" ≠ "password" by decide),
    QJsonObject.value_exchange (show "limit" ≠ "password" by decide), hsize, hsorted, List.map_map]
  split
  · rfl
  · rfl

/-- A client asks to be let in. -/
theorem run_authentication_exchange (h : Exchanges swap) (s : VirtualServer) (c : ℤ) (correlationId : UInt32)
    (params : QJsonObject) (peerAddress : QHostAddress) :
    AuthenticationAction.run (s.exchange swap) ⟨c, correlationId, params.exchange swap⟩ peerAddress =
      exchangeResult swap (AuthenticationAction.run s ⟨c, correlationId, params⟩ peerAddress) := by
  have hprotected : (s.exchange swap).opts.password.isEmpty = s.opts.password.isEmpty := h.isEmpty _
  have hwrong : (s.exchange swap).opts.password ≠ swap (params.value "password").toString ↔
      s.opts.password ≠ (params.value "password").toString := not_congr h.injective.eq_iff
  rw [AuthenticationAction.run, AuthenticationAction.run]
  simp only [QJsonObject.value_exchange (show "version" ≠ "password" by decide),
    QJsonObject.value_exchange (show "supportedversions" ≠ "password" by decide),
    QJsonObject.value_exchange (show "username" ≠ "password" by decide), QJsonObject.password_exchange h,
    hprotected, hwrong, apply_ite (exchangeResult swap)]
  rfl

/-- An action has the same outcome. -/
theorem run_exchange (h : Exchanges swap) (s : VirtualServer) (c : ℤ) (correlationId : UInt32)
    (params : QJsonObject) (client : ServerClientEntity) (peerAddress : QHostAddress) (action : ActionBase) :
    action.run (s.exchange swap) ⟨c, correlationId, params.exchange swap⟩ client peerAddress =
      (action.run s ⟨c, correlationId, params⟩ client peerAddress).map (exchangeResult swap) := by
  have hvalue : ∀ key : String, key ≠ "password" → (params.exchange swap).value key = params.value key :=
    fun key => QJsonObject.value_exchange
  cases action with
  | AuthenticationAction =>
    exact congrArg some (run_authentication_exchange h s c correlationId params peerAddress)
  | GetChannelListAction => exact congrArg some (run_getChannelList_exchange swap s c correlationId params)
  | CreateChannelAction => exact congrArg some (run_createChannel_exchange h s c correlationId params client)
  | JoinChannelAction => exact congrArg some (run_join_exchange h s c correlationId params client)
  | JoinChannel2Action => exact congrArg some (run_join_exchange h s c correlationId params client)
  | EnableVideoAction =>
    simp only [ActionBase.run, EnableVideoAction.run, hvalue "width" (by decide), hvalue "height" (by decide),
      hvalue "bitrate" (by decide), Option.map_some, apply_ite (exchangeResult swap)]
    rfl
  | AdminAuthAction =>
    have hprotected : (s.exchange swap).opts.adminPassword.isEmpty = s.opts.adminPassword.isEmpty :=
      h.isEmpty _
    have hwrong : swap (params.value "password").toString ≠ (s.exchange swap).opts.adminPassword ↔
        (params.value "password").toString ≠ s.opts.adminPassword := not_congr h.injective.eq_iff
    simp only [ActionBase.run, AdminAuthAction.run, QJsonObject.password_exchange h, h.isEmpty, hprotected,
      hwrong, Option.map_some, apply_ite (exchangeResult swap)]
    rfl
  | KickClientAction =>
    have hban : ∀ address, (s.exchange swap).ban address = (s.ban address).exchange swap := fun address => by
      rw [ban, ban, apply_ite (VirtualServer.exchange swap)]
      rfl
    simp only [ActionBase.run, KickClientAction.run, hvalue "clientid" (by decide), hvalue "ban" (by decide),
      hban, apply_ite (Option.map (exchangeResult swap)), Option.map_none, Option.map_map]
    congr 2
    funext kicked
    simp only [Function.comp_apply, exchangeResult, apply_ite (VirtualServer.exchange swap)]
    rfl
  | UpdateVisibilityLevelAction =>
    simp only [ActionBase.run, UpdateVisibilityLevelAction.run, hvalue "visibilitylevel" (by decide)]
    rfl
  | AddDirectStreamingRelationAction =>
    simp only [ActionBase.run, AddDirectStreamingRelationAction.run, hvalue "senderid" (by decide),
      hvalue "receiverid" (by decide), Option.map_some, apply_ite (exchangeResult swap)]
    rfl
  | RemoveDirectStreamingRelationAction =>
    simp only [ActionBase.run, RemoveDirectStreamingRelationAction.run, hvalue "senderid" (by decide),
      hvalue "receiverid" (by decide)]
    rfl
  | _ => rfl

/-- An authentication is completed. -/
theorem onAuthenticationFinished_exchange (swap : String → String) (s : VirtualServer) (index : ℕ)
    (ts3Allowed : Bool) (now : String) :
    (s.exchange swap).onAuthenticationFinished index ts3Allowed now =
      (s.onAuthenticationFinished index ts3Allowed now).map (exchangeResult swap) := by
  rw [onAuthenticationFinished, onAuthenticationFinished,
    show (s.exchange swap).authentications[index]? = s.authentications[index]? from rfl]
  cases s.authentications[index]? with
  | none => rfl
  | some pending =>
    simp only [AuthenticationAction.onFinished, apply_ite (Option.map (exchangeResult swap)), Option.map_map]
    rfl

/-- A datagram arrives. -/
theorem onReadyRead_exchange (swap : String → String) (fromUtf8 : List UInt8 → String) (s : VirtualServer)
    (datagram : List UInt8) (address : QHostAddress) (port : UInt16) :
    (s.exchange swap).onReadyRead fromUtf8 datagram address port =
      exchangeResult swap (s.onReadyRead fromUtf8 datagram address port) := by
  have htoken : ∀ (t : VirtualServer) (token : String) (address : QHostAddress) (port : UInt16),
      (t.exchange swap).onMediaSocketTokenAuthentication token address port =
        exchangeResult swap (t.onMediaSocketTokenAuthentication token address port) := by
    intro t token address port
    rw [onMediaSocketTokenAuthentication, onMediaSocketTokenAuthentication,
      show (t.exchange swap).tokens[token]? = t.tokens[token]? from rfl]
    cases t.tokens[token]? with
    | none => rfl
    | some clientId =>
      dsimp only
      rw [show ({ t.exchange swap with tokens := (t.exchange swap).tokens.erase token } :
        VirtualServer).clients[clientId]? = t.clients[clientId]? from rfl]
      cases t.clients[clientId]? with
      | none => rfl
      | some client => rfl
  have hone : ∀ (done : ActionResult) (output : MediaSocketHandler.Output),
      onMediaSocketOutput (exchangeResult swap done) output =
        exchangeResult swap (onMediaSocketOutput done output) := by
    intro done output
    cases output with
    | tokenAuthentication token address port =>
      simp only [onMediaSocketOutput, exchangeResult, htoken]
    | writeDatagram data address port => rfl
  have hfold : ∀ (outputs : List MediaSocketHandler.Output) (done : ActionResult),
      outputs.foldl onMediaSocketOutput (exchangeResult swap done) =
        exchangeResult swap (outputs.foldl onMediaSocketOutput done) := by
    intro outputs
    induction outputs with
    | nil => exact fun _ => rfl
    | cons output outputs ih =>
      intro done
      rw [List.foldl_cons, hone, ih, List.foldl_cons]
  generalize hresult : MediaSocketHandler.onReadyRead fromUtf8 s.recipients datagram address port = result
  have hrun := hfold result.2 ({ s with recipients := result.1 }, [])
  rw [← hresult] at hrun
  exact hrun

/-- An event has the same outcome, with the passwords exchanged before or after it. -/
theorem step_exchange (h : Exchanges swap) (fromUtf8 : List UInt8 → String) (s : VirtualServer) (e : Event) :
    step fromUtf8 (s.exchange swap) (e.exchange swap) = (step fromUtf8 s e).map (exchangeResult swap) := by
  have hconnection : ∀ (c : ℤ)
      (handle handle' : ServerClientEntity → ClientConnectionHandler → Option ActionResult),
      (∀ client conn, handle' client conn = (handle client conn).map (exchangeResult swap)) →
      (s.exchange swap).withConnection c handle' = (s.withConnection c handle).map (exchangeResult swap) := by
    intro c handle handle' hhandle
    rw [withConnection, withConnection, show (s.exchange swap).clients[c]? = s.clients[c]? from rfl,
      show (s.exchange swap).connections[c]? = s.connections[c]? from rfl]
    cases s.clients[c]? with
    | none => rfl
    | some client =>
      cases s.connections[c]? with
      | none => rfl
      | some conn => exact hhandle client conn
  cases e with
  | newConnection peerAddress => rfl
  | newIncomingRequest c correlationId document =>
    refine hconnection c _ _ fun client conn => ?_
    rw [ClientConnectionHandler.onNewIncomingRequest, dispatch_exchange,
      ClientConnectionHandler.onNewIncomingRequest]
    cases ClientConnectionHandler.dispatch client document with
    | refuse statusCode message => rfl
    | run action params => exact run_exchange h s c correlationId params client conn.peerAddress action
  | authenticationFinished index ts3Allowed now =>
    exact onAuthenticationFinished_exchange swap s index ts3Allowed now
  | readyRead datagram address port =>
    exact congrArg some (onReadyRead_exchange swap fromUtf8 s datagram address port)
  | networkUsageUpdated networkUsage => rfl
  | unconnected c => exact hconnection c _ _ fun _ _ => rfl
  | destroyed c =>
    refine hconnection c _ _ fun client conn => ?_
    split
    · rw [destroy_exchange]
      cases ClientConnectionHandler.destroy s c with
      | none => rfl
      | some t => rfl
    · rfl
  | authenticationTimeout c => exact hconnection c _ _ fun _ _ => rfl
  | connectionTimeout c => exact hconnection c _ _ fun _ _ => rfl

/-- Servers whose passwords are exchanged one to one send the same messages, whatever happens to them. So what
a client gets to know about the passwords of others is whether they are equal and whether there are any. -/
theorem passwords_secret (h : Exchanges swap) (fromUtf8 : List UInt8 → String) (s : VirtualServer)
    (events : List Event) :
    Runs.run (step fromUtf8) (s.exchange swap) (events.map (Event.exchange swap)) =
      (Runs.run (step fromUtf8) s events).map fun last => (last.1.exchange swap, last.2) :=
  Runs.run_rename (fun s e => step_exchange h fromUtf8 s e) s events

/-- Two passwords change places. -/
def swapped : String → String := Equiv.swap "secret" "sesame"

/-- The password of a channel is refused to the second client, which has another one. -/
def wrongPassword : List Event :=
  protectedChannel ++ [.request 2 .JoinChannelAction
    [("identifier", .string "lobby"), ("password", .string "sesame")]]

/-- The answers do not tell which of the two passwords is the right one. -/
theorem passwords_secret_wrongPassword : ∃ t t' out,
    Runs.run (step fun _ => "") (init {} ∅) wrongPassword = some (t, out) ∧
      Runs.run (step fun _ => "") ((init {} ∅).exchange swapped) (wrongPassword.map (Event.exchange swapped)) =
        some (t', out) := by
  have hexchanges : Exchanges swapped :=
    ⟨(Equiv.swap "secret" "sesame").injective, Equiv.swap_apply_of_ne_of_ne (by decide) (by decide)⟩
  have hdefined : (Runs.run (step fun _ => "") (init {} ∅) wrongPassword).isSome = true := by decide +kernel
  obtain ⟨⟨t, out⟩, hrun⟩ := Option.isSome_iff_exists.mp hdefined
  have hexchanged := passwords_secret hexchanges (fun _ => "") (init {} ∅) wrongPassword
  rw [hrun] at hexchanged
  exact ⟨t, t.exchange swapped, out, hrun, hexchanged⟩

end VirtualServer

end Ts3Video
