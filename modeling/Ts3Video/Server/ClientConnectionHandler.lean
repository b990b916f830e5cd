import Ts3Video.Server.Actions

/-!
# The server and its clients

A connection gets a client id and keeps it until it is destroyed. The connection is announced as
lost first and destroyed by the event loop later; in between the client is still in all tables. The
server processes one event at a time.
-/

namespace Ts3Video

open Std ActionBase

namespace ClientConnectionHandler

/-- A new connection gets the next client id. -/
def create (s : VirtualServer) (peerAddress : QHostAddress) : VirtualServer :=
  let clientEntity : ServerClientEntity := { id := s.nextClientId + 1 }
  { s with
    nextClientId := s.nextClientId + 1
    clients := s.clients.insert clientEntity.id clientEntity
    connections := s.connections.insert clientEntity.id { peerAddress } }

/-- Remove a client from all tables. `none` is a dereference of the null pointer. -/
def destroy (s : VirtualServer) (clientId : ℤ) : Option VirtualServer :=
  (s.removeClientFromChannels clientId).map fun s =>
    { s with
      clients := s.clients.erase clientId
      connections := s.connections.erase clientId
      sender2receiver := SetMap.eraseFromAll (s.sender2receiver.erase clientId) clientId
    }.updateMediaRecipients

/-- The connection is lost: notify the siblings that the client may see, and destroy it later. -/
def onUnconnected (s : VirtualServer) (clientId : ℤ) (client : ServerClientEntity) :
    ActionResult :=
  let request := JsonProtocolHelper.createJsonRequest "notify.clientdisconnected"
    [("client", .object client.toQJsonObject)]
  let siblings := (s.getSiblingClientIds clientId true).filter fun sibling =>
    sibling ∈ s.connections ∧ sibling ≠ clientId
  ({ s with
      connections := s.connections.modify clientId fun conn => { conn with deleteLater := true } },
    siblings.map fun sibling => .sendRequest sibling request)

/-- The server reads the request that a client has written. -/
theorem fromJsonRequest_createJsonRequest (action : ActionBase) (parameters : QJsonObject) :
    JsonProtocolHelper.fromJsonRequest
        (some (.object (JsonProtocolHelper.createJsonRequest action.name parameters))) =
      some (action.name, parameters) := by
  cases action with
  | _ => rfl

/-- What becomes of a request. -/
inductive Dispatch where
  | refuse (statusCode : ℤ) (message : String)
  | run (action : ActionBase) (params : QJsonObject)

/-- Find the action of a request and check its conditions. -/
def dispatch (client : ServerClientEntity) (document : Option QJsonValue) : Dispatch :=
  match JsonProtocolHelper.fromJsonRequest document with
  | none => .refuse IFVS_STATUS_INTERNAL_ERROR "Invalid JSON protocol format"
  | some (action, params) =>
    match findHandlerByName action with
    | none =>
      .refuse IFVS_STATUS_NOT_IMPLEMENTED (QString.arg "Action not implemented (action=%1)" action)
    | some actionHandler =>
      if testFlag actionHandler.flags RequiresAuthentication ∧ ¬ client.authenticated then
        .refuse IFVS_STATUS_FORBIDDEN
          (QString.arg "You are not allowed to perform this action (action=%1)" action)
      else if testFlag actionHandler.flags RequiresAdminPrivileges ∧ ¬ client.admin then
        .refuse IFVS_STATUS_FORBIDDEN
          (QString.arg "You are not allowed to perform this action (action=%1)" action)
      else .run actionHandler params

/-- A request that a client has written runs the action that the client has named, if any. -/
theorem dispatch_createJsonRequest {client : ServerClientEntity} {action action' : ActionBase}
    {parameters parameters' : QJsonObject}
    (h : dispatch client (some (.object
      (JsonProtocolHelper.createJsonRequest action.name parameters))) = .run action' parameters') :
    action' = action ∧ parameters' = parameters := by
  rw [dispatch, fromJsonRequest_createJsonRequest] at h
  dsimp only at h
  rw [findHandlerByName_name] at h
  dsimp only at h
  split at h
  · contradiction
  · split at h
    · contradiction
    · obtain ⟨rfl, rfl⟩ := Dispatch.run.inj h
      exact ⟨rfl, rfl⟩

/-- A request arrived. -/
def onNewIncomingRequest (s : VirtualServer) (clientId : ℤ) (client : ServerClientEntity)
    (conn : ClientConnectionHandler) (correlationId : UInt32) (document : Option QJsonValue) :
    Option ActionResult :=
  match dispatch client document with
  | .refuse statusCode message =>
    some (s, [sendDefaultErrorResponse ⟨clientId, correlationId, []⟩ statusCode message])
  | .run action params => action.run s ⟨clientId, correlationId, params⟩ client conn.peerAddress

/-- The time for the authentication is over. -/
def onAuthenticationTimeout (clientId : ℤ) (client : ServerClientEntity) : List Effect :=
  if client.authenticated then []
  else
    [sendErrorRequest clientId IFVS_STATUS_AUTHENTICATION_TIMEOUT
      "Authentication process took too long. Check your connection and try it again.",
      .disconnectFromHost clientId]

/-- Nothing was heard of the client for too long. -/
def onConnectionTimeout (clientId : ℤ) : List Effect :=
  [sendErrorRequest clientId IFVS_STATUS_CONNECTION_TIMEOUT
    "Connection timeout. No heartbeat since 20 seconds.",
    .disconnectFromHost clientId, .closeSocket clientId]

end ClientConnectionHandler

namespace VirtualServer

/-- What happens to the server. An event of a connection names its client; the answer of the
TeamSpeak server names an outstanding authentication and comes with the time of its arrival. -/
inductive Event where
  | newConnection (peerAddress : QHostAddress)
  | newIncomingRequest (clientId : ℤ) (correlationId : UInt32) (document : Option QJsonValue)
  | authenticationFinished (index : ℕ) (ts3Allowed : Bool) (now : String)
  | readyRead (datagram : List UInt8) (senderAddress : QHostAddress) (senderPort : UInt16)
  | networkUsageUpdated (networkUsage : NetworkUsageEntity)
  | unconnected (clientId : ℤ)
  | destroyed (clientId : ℤ)
  | authenticationTimeout (clientId : ℤ)
  | connectionTimeout (clientId : ℤ)

/-- Handle an event of a connection that is there. Other connections have no events. -/
def withConnection (s : VirtualServer) (clientId : ℤ)
    (handle : ServerClientEntity → ClientConnectionHandler → Option ActionResult) :
    Option ActionResult :=
  match s.clients[clientId]?, s.connections[clientId]? with
  | some client, some conn => handle client conn
  | _, _ => some (s, [])

/-- The outcome of a background check, if it is still outstanding. -/
def onAuthenticationFinished (s : VirtualServer) (index : ℕ) (ts3Allowed : Bool) (now : String) :
    Option ActionResult :=
  match s.authentications[index]? with
  | none => some (s, [])
  | some pending =>
    AuthenticationAction.onFinished { s with authentications := s.authentications.eraseIdx index }
      pending (¬ s.opts.ts3Enabled ∨ ts3Allowed) now

/-- The media socket signals a token or writes a datagram. -/
def onMediaSocketOutput (done : ActionResult) : MediaSocketHandler.Output → ActionResult
  | .tokenAuthentication token address port =>
    let answer := done.1.onMediaSocketTokenAuthentication token address port
    (answer.1, done.2 ++ answer.2)
  | .writeDatagram data address port => (done.1, done.2 ++ [.writeDatagram data address port])

/-- A datagram arrived at the media socket. -/
def onReadyRead (fromUtf8 : List UInt8 → String) (s : VirtualServer) (datagram : List UInt8)
    (senderAddress : QHostAddress) (senderPort : UInt16) : ActionResult :=
  let result := MediaSocketHandler.onReadyRead fromUtf8 s.recipients datagram senderAddress senderPort
  result.2.foldl onMediaSocketOutput ({ s with recipients := result.1 }, [])

/-- Process one event. `none` is a dereference of the null pointer. -/
def step (fromUtf8 : List UInt8 → String) (s : VirtualServer) : Event → Option ActionResult
  | .newConnection peerAddress => some (ClientConnectionHandler.create s peerAddress, [])
  | .newIncomingRequest clientId correlationId document =>
    s.withConnection clientId fun client conn =>
      ClientConnectionHandler.onNewIncomingRequest s clientId client conn correlationId document
  | .authenticationFinished index ts3Allowed now => s.onAuthenticationFinished index ts3Allowed now
  | .readyRead datagram senderAddress senderPort =>
    some (s.onReadyRead fromUtf8 datagram senderAddress senderPort)
  | .networkUsageUpdated networkUsage =>
    some (s.onMediaSocketNetworkUsageUpdated networkUsage, [])
  | .unconnected clientId =>
    s.withConnection clientId fun client _ =>
      some (ClientConnectionHandler.onUnconnected s clientId client)
  | .destroyed clientId =>
    s.withConnection clientId fun _ conn =>
      if conn.deleteLater then
        (ClientConnectionHandler.destroy s clientId).map fun s => (s, [])
      else some (s, [])
  | .authenticationTimeout clientId =>
    s.withConnection clientId fun client _ =>
      some (s, ClientConnectionHandler.onAuthenticationTimeout clientId client)
  | .connectionTimeout clientId =>
    s.withConnection clientId fun _ _ =>
      some (s, ClientConnectionHandler.onConnectionTimeout clientId)

/-- A request as clients write it. -/
def Event.request (clientId : ℤ) (action : ActionBase) (parameters : QJsonObject) : Event :=
  .newIncomingRequest clientId 0
    (some (.object (JsonProtocolHelper.createJsonRequest action.name parameters)))

/-- A client connects and logs in before anything else happens. -/
def Event.logIn (clientId : ℤ) (username now : String) : List Event :=
  [.newConnection "192.0.2.1",
    .request clientId .AuthenticationAction
      [("version", .string IFVS_SOFTWARE_VERSION), ("username", .string username)],
    .authenticationFinished 0 true now]

/-- A client sends its token to the media socket. -/
def Event.sendAuthToken (token : String) (address : QHostAddress) (port : UInt16) : Event :=
  .readyRead (AuthDatagram.toBytes (QString.toLatin1 token)) address port

/-- A server without clients. The ban file outlives the server. -/
def init (opts : VirtualServerOptions) (bans : ExtTreeSet String) : VirtualServer := { opts, bans }

end VirtualServer

end Ts3Video
