import Ts3Video.Library.Runs
import Ts3Video.Server.ClientConnectionHandler

/-!
# What an event does to the tables

Every event either leaves the tables alone or changes them in one of a few ways. The invariants of
the server are proved for these transitions, not for the handlers.
-/

namespace Ts3Video.VirtualServer

open Std ActionBase

/-- Every record is stored under its id. -/
structure Keyed (s : VirtualServer) : Prop where
  client : ∀ {k : ℤ} {client : ServerClientEntity}, s.clients[k]? = some client → client.id = k
  channel : ∀ {k : ℤ} {channel : ServerChannelEntity}, s.id2channel[k]? = some channel → channel.id = k

/-- The event is a request that passes the checks of its action. -/
structure Admits (s : VirtualServer) (e : Event) (c : ℤ) (client : ServerClientEntity)
    (action : ActionBase) (params : QJsonObject) : Prop where
  live : s.clients[c]? = some client
  connected : c ∈ s.connections
  dispatch : ∃ correlationId document, e = .newIncomingRequest c correlationId document ∧
    ClientConnectionHandler.dispatch client document = .run action params

/-- The states agree in all tables, not in what is going on in the background. -/
structure SameTables (s s' : VirtualServer) : Prop where
  opts : s'.opts = s.opts
  nextClientId : s'.nextClientId = s.nextClientId
  clients : s'.clients = s.clients
  nextChannelId : s'.nextChannelId = s.nextChannelId
  id2channel : s'.id2channel = s.id2channel
  ident2channel : s'.ident2channel = s.ident2channel
  participants : s'.participants = s.participants
  client2channels : s'.client2channels = s.client2channels
  sender2receiver : s'.sender2receiver = s.sender2receiver
  recipients : s'.recipients = s.recipients
  tokens : s'.tokens = s.tokens

/-- The state with one more member of a channel. -/
def withMember (s : VirtualServer) (c ch : ℤ) : VirtualServer :=
  { s with
    participants := SetMap.insertAt s.participants ch c
    client2channels := SetMap.insertAt s.client2channels c ch }

/-- The state with one more channel. -/
def withChannel (s : VirtualServer) (channel : ServerChannelEntity) : VirtualServer :=
  { s with
    nextChannelId := channel.id
    id2channel := s.id2channel.insert channel.id channel
    ident2channel :=
      if ¬ channel.ident.isEmpty then s.ident2channel.insert channel.ident channel.id
      else s.ident2channel }

/-- The state with other direct streaming relations. -/
def withRelations (s : VirtualServer) (sender2receiver : ExtTreeMap ℤ (ExtTreeSet ℤ)) :
    VirtualServer :=
  { s with sender2receiver }

/-- The state with another table of recipients. -/
def withRecipients (s : VirtualServer) (recipients : MediaRecipients) : VirtualServer :=
  { s with recipients }

/-- The state without a token. -/
def withoutToken (s : VirtualServer) (token : String) : VirtualServer :=
  { s with tokens := s.tokens.erase token }

/-- The alias that a join request names. -/
def joinIdent (params : QJsonObject) : String := (params.value "identifier").toString

/-- The id of the channel that a join request asks for. -/
def joinId (s : VirtualServer) (params : QJsonObject) : ℤ :=
  JoinChannelAction.findChannelId s (params.value "channelid").toInt (joinIdent params)

/-- The action is one of the two names of the join action. -/
def IsJoin (action : ActionBase) : Prop :=
  action = .JoinChannelAction ∨ action = .JoinChannel2Action

instance (action : ActionBase) : Decidable (IsJoin action) := inferInstanceAs (Decidable (_ ∨ _))

/-- The ways in which an event changes the tables. -/
inductive Transition (s : VirtualServer) : Event → VirtualServer → Prop
  | quiet {e : Event} {s' : VirtualServer} (hsame : SameTables s s') : Transition s e s'
  | connect (peerAddress : QHostAddress) :
    Transition s (.newConnection peerAddress) (ClientConnectionHandler.create s peerAddress)
  | login {e : Event} {c : ℤ} {client : ServerClientEntity} (name token : String)
    (authentications : List PendingAuthentication) (hclient : s.clients[c]? = some client) :
    Transition s e
      { s.setClient c { client with name, authenticated := true } with
        tokens := s.tokens.insert token client.id, authentications }
  | sendMedia {e : Event} {c : ℤ} {client : ServerClientEntity} {action : ActionBase}
    {params : QJsonObject} (hadmits : Admits s e c client action params)
    (haction : action ≠ .AuthenticationAction) (videoEnabled : Bool) (videoWidth videoHeight : ℤ)
    (audioInputEnabled : Bool) :
    Transition s e (s.setClient c
      { client with videoEnabled, videoWidth, videoHeight, audioInputEnabled }).updateMediaRecipients
  | becomeAdmin {e : Event} {c : ℤ} {client : ServerClientEntity} {params : QJsonObject}
    (hadmits : Admits s e c client .AdminAuthAction params) :
    Transition s e (s.setClient c { client with admin := true })
  | changeVisibility {e : Event} {c : ℤ} {client : ServerClientEntity} {params : QJsonObject}
    (hadmits : Admits s e c client .UpdateVisibilityLevelAction params) :
    Transition s e (s.setClient c
      { client with visibilityLevel := (params.value "visibilitylevel").toInt })
  | createChannel {e : Event} {c : ℤ} {client : ServerClientEntity} {params : QJsonObject}
    {channel : ServerChannelEntity} (hadmits : Admits s e c client .CreateChannelAction params)
    (hid : channel.id = s.nextChannelId + 1) (hident : channel.ident = "") :
    Transition s e ((s.withChannel channel).withMember c channel.id).updateMediaRecipients
  | createByIdent {e : Event} {c : ℤ} {client : ServerClientEntity} {action : ActionBase}
    {params : QJsonObject} {channel : ServerChannelEntity}
    (hadmits : Admits s e c client action params) (haction : IsJoin action)
    (hid : channel.id = s.nextChannelId + 1) (hident : channel.ident = joinIdent params)
    (hnonempty : joinIdent params ≠ "") (hnone : s.id2channel[s.joinId params]? = none) :
    Transition s e ((s.withChannel channel).withMember c channel.id).updateMediaRecipients
  | join {e : Event} {c : ℤ} {client : ServerClientEntity} {action : ActionBase}
    {params : QJsonObject} {ch : ℤ} {channel : ServerChannelEntity}
    (hadmits : Admits s e c client action params) (haction : IsJoin action)
    (hchannel : s.id2channel[ch]? = some channel) :
    Transition s e (s.withMember c ch).updateMediaRecipients
  | addRelation {e : Event} {c : ℤ} {client : ServerClientEntity} {params : QJsonObject}
    {sender receiver : ℤ}
    (hadmits : Admits s e c client .AddDirectStreamingRelationAction params)
    (hsender : sender ∈ s.clients) (hreceiver : receiver ∈ s.clients) :
    Transition s e
      (s.withRelations (SetMap.insertAt s.sender2receiver sender receiver)).updateMediaRecipients
  | removeRelation {e : Event} {c : ℤ} {client : ServerClientEntity} {params : QJsonObject}
    {sender receiver : ℤ}
    (hadmits : Admits s e c client .RemoveDirectStreamingRelationAction params)
    (hsender : sender ∈ s.sender2receiver) :
    Transition s e (s.withRelations (SetMap.dropEmpty
      (SetMap.eraseAt s.sender2receiver sender receiver) sender)).updateMediaRecipients
  | updateRecipients {e : Event} {c : ℤ} {client : ServerClientEntity} {params : QJsonObject}
    (hadmits : Admits s e c client .RemoveDirectStreamingRelationAction params) :
    Transition s e s.updateMediaRecipients
  | bindToken {e : Event} {token : String} {c : ℤ} {client : ServerClientEntity}
    (mediaAddress : QHostAddress) (mediaPort : UInt16) (htoken : s.tokens[token]? = some c)
    (hclient : s.clients[c]? = some client) :
    Transition s e ((s.withoutToken token).setClient c
      { client with mediaAddress, mediaPort }).updateMediaRecipients
  | dropToken {e : Event} {token : String} {c : ℤ} (htoken : s.tokens[token]? = some c)
    (hclient : s.clients[c]? = none) : Transition s e (s.withoutToken token)
  | lookupSender {datagram : List UInt8} {address : QHostAddress} {port : UInt16}
    (hparse : MediaSocketHandler.parse (datagram.take MediaSocketHandler.bufferSize) = .relay) :
    Transition s (.readyRead datagram address port) (s.withRecipients
      (s.recipients.insertSender address port ((s.recipients.sender? address port).getD {})))
  | lookupReceiver {datagram : List UInt8} {address : QHostAddress} {port : UInt16} {sender : ℤ}
    (hparse : MediaSocketHandler.parse (datagram.take MediaSocketHandler.bufferSize) =
      .recover sender) :
    Transition s (.readyRead datagram address port) (s.withRecipients
      (s.recipients.insertReceiver sender ((s.recipients.clientid2receiver[sender]?).getD {})))
  | destroy {c : ℤ} {s' : VirtualServer} (hdestroy : ClientConnectionHandler.destroy s c = some s') :
    Transition s (.destroyed c) s'

/-- Connections, traffic figures, bans and outstanding authentications are not tables. -/
theorem SameTables.background (s : VirtualServer)
    (connections : ExtTreeMap ℤ ClientConnectionHandler)
    (networkUsageMediaSocket : NetworkUsageEntity) (bans : ExtTreeSet String)
    (authentications : List PendingAuthentication) :
    SameTables s { s with connections, networkUsageMediaSocket, bans, authentications } :=
  ⟨rfl, rfl, rfl, rfl, rfl, rfl, rfl, rfl, rfl, rfl, rfl⟩

/-- Nothing happened. -/
theorem SameTables.refl (s : VirtualServer) : SameTables s s := .background s _ _ _ _

/-- A request is only run for a client that meets the conditions of its action. -/
theorem flags_of_dispatch {client : ServerClientEntity} {document : Option QJsonValue}
    {action : ActionBase} {params : QJsonObject}
    (h : ClientConnectionHandler.dispatch client document = .run action params) :
    (testFlag action.flags RequiresAuthentication → client.authenticated) ∧
      (testFlag action.flags RequiresAdminPrivileges → client.admin) := by
  unfold ClientConnectionHandler.dispatch at h
  split at h
  · contradiction
  · split at h
    · contradiction
    · split at h
      · contradiction
      next hauthenticated =>
        split at h
        · contradiction
        next hadmin =>
          obtain ⟨rfl, -⟩ := ClientConnectionHandler.Dispatch.run.inj h
          simp only [not_and, Decidable.not_not] at hauthenticated hadmin
          exact ⟨hauthenticated, hadmin⟩

/-- Only the authentication itself is open to clients that are not logged in. -/
theorem Admits.authenticated {s : VirtualServer} {e : Event} {c : ℤ} {client : ServerClientEntity}
    {action : ActionBase} {params : QJsonObject} (h : Admits s e c client action params)
    (haction : action ≠ .AuthenticationAction) : client.authenticated = true := by
  obtain ⟨correlationId, document, -, hdispatch⟩ := h.dispatch
  apply (flags_of_dispatch hdispatch).1
  cases action with
  | AuthenticationAction => contradiction
  | _ => rfl

/-- An admitted request runs its action. -/
theorem Admits.step_eq {s : VirtualServer} {e : Event} {c : ℤ} {client : ServerClientEntity}
    {action : ActionBase} {params : QJsonObject} (h : Admits s e c client action params)
    (fromUtf8 : List UInt8 → String) : ∃ correlationId peerAddress,
      step fromUtf8 s e = action.run s ⟨c, correlationId, params⟩ client peerAddress := by
  obtain ⟨correlationId, document, rfl, hdispatch⟩ := h.dispatch
  obtain ⟨conn, hconn⟩ := Table.mem_iff.mp h.connected
  refine ⟨correlationId, conn.peerAddress, ?_⟩
  rw [step, withConnection, h.live, hconn]
  simp only [ClientConnectionHandler.onNewIncomingRequest, hdispatch]

/-- A join action is not the authentication. -/
theorem IsJoin.ne_authentication {action : ActionBase} (h : IsJoin action) :
    action ≠ .AuthenticationAction := by
  rintro rfl
  cases h <;> contradiction

end Ts3Video.VirtualServer
