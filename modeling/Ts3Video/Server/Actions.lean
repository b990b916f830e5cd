import Ts3Video.Qt.Text
import Ts3Video.Server.VirtualServer

/-!
# The actions of the server

Each action reads its parameters, updates the tables and answers its request. The clients of the
same channels are notified, as far as they may see the client that sent the request.
-/

namespace Ts3Video

open Std

def IFVS_SOFTWARE_VERSION : String := "0.15"
def IFVS_SERVER_SUPPORTED_CLIENT_VERSIONS : String := "0.6,0.7,0.8,0.9,0.10,0.11,0.12,0.13,0.14"
def IFVS_STATUS_INTERNAL_ERROR : ℤ := 500
def IFVS_STATUS_NOT_IMPLEMENTED : ℤ := 501
def IFVS_STATUS_INCOMPATIBLE_VERSION : ℤ := 505
def IFVS_STATUS_CONNECTION_LIMIT_REACHED : ℤ := 429
def IFVS_STATUS_CONNECTION_TIMEOUT : ℤ := 504
def IFVS_STATUS_BANDWIDTH_LIMIT_REACHED : ℤ := 509
def IFVS_STATUS_UNAUTHORIZED : ℤ := 401
def IFVS_STATUS_FORBIDDEN : ℤ := 403
def IFVS_STATUS_AUTHENTICATION_TIMEOUT : ℤ := 419
def IFVS_STATUS_INVALID_PARAMETERS : ℤ := 701
def IFVS_STATUS_BANNED : ℤ := 702

/-- Client and server are of the same version, or one of them supports the version of the other. -/
def ELWS.isVersionSupported (clientVersion serverVersion clientSupportedServerVersions
    serverSupportedClientVersions : String) : Bool :=
  if clientVersion = serverVersion then true
  else if (QString.splitSkipEmptyParts clientSupportedServerVersions ',').contains serverVersion then
    true
  else (QString.splitSkipEmptyParts serverSupportedClientVersions ',').contains clientVersion

/-- A request together with the client that sent it. -/
structure ActionData where
  clientId : ℤ
  correlationId : UInt32
  params : QJsonObject

/-- The state after an action and what it does to the network. -/
abbrev ActionResult : Type := VirtualServer × List Effect

namespace ActionBase

/-- A request that reports an error. -/
def sendErrorRequest (clientId : ℤ) (code : ℤ) (message : String) : Effect :=
  .sendRequest clientId (JsonProtocolHelper.createJsonRequest "error"
    [("code", .ofInt code), ("message", .string message)])

/-- The answer to a successful request. -/
def sendDefaultOkResponse (req : ActionData) (params : QJsonObject) : Effect :=
  .sendResponse req.clientId req.correlationId (JsonProtocolHelper.createJsonResponse params)

/-- The answer to a request that failed. -/
def sendDefaultErrorResponse (req : ActionData) (statusCode : ℤ) (message : String) : Effect :=
  .sendResponse req.clientId req.correlationId
    (JsonProtocolHelper.createJsonResponseError statusCode message)

/-- Close the connection of a request after what is being processed. -/
def disconnectFromHostDelayed (req : ActionData) : Effect := .disconnectFromHost req.clientId

/-- Notify the members of the client's channels that may see it, but not the client itself. -/
def broadcastNotificationToSiblingClients (s : VirtualServer) (req : ActionData)
    (client : ServerClientEntity) (action : String) (params : QJsonObject) : List Effect :=
  (s.getSiblingClientIds client.id false).filterMap fun pid =>
    match s.clients[pid]? with
    | none => none
    | some participant =>
      if ¬ participant.isAllowedToSee client then none
      else if pid ∉ s.connections ∨ pid = req.clientId then none
      else some (.sendRequest pid (JsonProtocolHelper.createJsonRequest action params))

end ActionBase

open ActionBase

/-- Refuse an authentication and close the connection. -/
def AuthenticationAction.refuse (s : VirtualServer) (req : ActionData) (statusCode : ℤ)
    (message : String) : ActionResult :=
  (s, [sendDefaultErrorResponse req statusCode message, disconnectFromHostDelayed req])

/-- Check the limits, the ban file, the version and the password, then ask the TeamSpeak server in
the background. -/
def AuthenticationAction.run (s : VirtualServer) (req : ActionData) (peerAddress : QHostAddress) :
    ActionResult :=
  let clientVersion := (req.params.value "version").toString
  let clientSupportedServerVersions := (req.params.value "supportedversions").toString
  let username := (req.params.value "username").toString
  let password := (req.params.value "password").toString
  let usage := s.networkUsageMediaSocket
  if s.connections.size > s.opts.connectionLimit then
    refuse s req IFVS_STATUS_CONNECTION_LIMIT_REACHED "Server connection limit exceeded."
  else if usage.bandwidthRead > s.opts.bandwidthReadLimit ∨
      usage.bandwidthWrite > s.opts.bandwidthWriteLimit then
    refuse s req IFVS_STATUS_BANDWIDTH_LIMIT_REACHED "Server bandwidth limit exceeded."
  else if s.isBanned peerAddress then
    refuse s req IFVS_STATUS_BANNED "You are banned from the server."
  else if ¬ ELWS.isVersionSupported clientVersion IFVS_SOFTWARE_VERSION
      clientSupportedServerVersions IFVS_SERVER_SUPPORTED_CLIENT_VERSIONS then
    refuse s req IFVS_STATUS_INCOMPATIBLE_VERSION
      (QString.arg (QString.arg "Incompatible version (client=%1; server=%2)" clientVersion)
        IFVS_SOFTWARE_VERSION)
  else if username.isEmpty ∨ (¬ s.opts.password.isEmpty ∧ s.opts.password ≠ password) then
    refuse s req IFVS_STATUS_UNAUTHORIZED
      "Authentication failed by user (empty username or wrong password?)"
  else
    let pending : PendingAuthentication :=
      { clientId := req.clientId, correlationId := req.correlationId, username }
    ({ s with authentications := s.authentications ++ [pending] }, [])

/-- The answer of the TeamSpeak server arrived. The connection may be gone by then. -/
def AuthenticationAction.onFinished (s : VirtualServer) (pending : PendingAuthentication)
    (data : Bool) (now : String) : Option ActionResult :=
  let req : ActionData := ⟨pending.clientId, pending.correlationId, []⟩
  if ¬ data then
    some (refuse s req IFVS_STATUS_UNAUTHORIZED
      ("Authorization against TeamSpeak 3 Server failed. " ++
        "Looks like you do not have the required permission (TS3 Server Group)"))
  else if pending.clientId ∉ s.connections then some (s, [])
  else
    (s.clients[pending.clientId]?).map fun client =>
      let client := { client with name := pending.username, authenticated := true }
      let token := QString.arg (QString.arg "%1-%2" (toString client.id)) now
      let config : VirtualServerConfigEntity :=
        { maxVideoResolutionWidth := s.opts.maximumResolutionWidth
          maxVideoResolutionHeight := s.opts.maximumResolutionHeight
          maxVideoBitrate := s.opts.maximumBitrate }
      let s := s.setClient pending.clientId client
      ({ s with tokens := s.tokens.insert token client.id },
        [sendDefaultOkResponse req [("client", .object client.toQJsonObject),
          ("authtoken", .string token), ("virtualserverconfig", .object config.toQJsonObject)]])

/-- Say goodbye and close the connection. -/
def GoodbyeAction.run (s : VirtualServer) (req : ActionData) : ActionResult :=
  (s, [sendDefaultOkResponse req [], disconnectFromHostDelayed req])

/-- The timer that closes silent connections starts anew. -/
def HeartbeatAction.run (s : VirtualServer) (req : ActionData) : ActionResult :=
  (s, [sendDefaultOkResponse req []])

/-- Store what a client sends from now on, and tell the client and its siblings. -/
def updateMediaState (s : VirtualServer) (req : ActionData) (client : ServerClientEntity)
    (notification : String) : ActionResult :=
  let s := (s.setClient req.clientId client).updateMediaRecipients
  (s, sendDefaultOkResponse req [] :: broadcastNotificationToSiblingClients s req client
    notification [("client", .object client.toQJsonObject)])

/-- The client sends audio. -/
def EnableAudioInputAction.run (s : VirtualServer) (req : ActionData)
    (client : ServerClientEntity) : ActionResult :=
  updateMediaState s req { client with audioInputEnabled := true } "notify.clientaudioinputenabled"

/-- The client does not send audio. -/
def DisableAudioInputAction.run (s : VirtualServer) (req : ActionData)
    (client : ServerClientEntity) : ActionResult :=
  updateMediaState s req { client with audioInputEnabled := false }
    "notify.clientaudioinputdisabled"

/-- The client sends video, if its resolution is supported. -/
def EnableVideoAction.run (s : VirtualServer) (req : ActionData) (client : ServerClientEntity) :
    ActionResult :=
  let width := (req.params.value "width").toInt
  let height := (req.params.value "height").toInt
  let bitrate := (req.params.value "bitrate").toInt
  let config : VirtualServerConfigEntity :=
    { maxVideoResolutionWidth := s.opts.maximumResolutionWidth
      maxVideoResolutionHeight := s.opts.maximumResolutionHeight }
  if ¬ config.isResolutionSupported width height then
    (s, [sendDefaultErrorResponse req IFVS_STATUS_INVALID_PARAMETERS
      (QString.arg (QString.arg (QString.arg "Unsupported video settings by server (%1x%2 @ %3 bps)"
        (toString width)) (toString height)) (toString bitrate))])
  else
    updateMediaState s req
      { client with videoEnabled := true, videoWidth := width, videoHeight := height }
      "notify.clientvideoenabled"

/-- The client does not send video. -/
def DisableVideoAction.run (s : VirtualServer) (req : ActionData) (client : ServerClientEntity) :
    ActionResult :=
  updateMediaState s req { client with videoEnabled := false, videoWidth := 0, videoHeight := 0 }
    "notify.clientvideodisabled"

/-- The client becomes an administrator by the password for it. -/
def AdminAuthAction.run (s : VirtualServer) (req : ActionData) (client : ServerClientEntity) :
    ActionResult :=
  let password := (req.params.value "password").toString
  let adminPassword := s.opts.adminPassword
  if password.isEmpty ∨ adminPassword.isEmpty ∨ password ≠ adminPassword then
    (s, [sendDefaultErrorResponse req 1 "Wrong password"])
  else (s.setClient req.clientId { client with admin := true }, [sendDefaultOkResponse req []])

/-- Close the connection of a client and ban its media address on demand. Without a connection the
response is sent through the null pointer. -/
def KickClientAction.run (s : VirtualServer) (req : ActionData) (client : ServerClientEntity) :
    Option ActionResult :=
  let clientId := (req.params.value "clientid").toInt
  let ban := (req.params.value "ban").toBool
  if clientId ∉ s.connections then none
  else
    (s.clients[clientId]?).map fun kicked =>
      (if ban then s.ban kicked.mediaAddress else s,
        [.sendRequest clientId (JsonProtocolHelper.createJsonRequest "notify.kicked"
          [("client", .object client.toQJsonObject)]),
          .disconnectFromHost clientId, sendDefaultOkResponse req []])

/-- Store the visibility level of the client. -/
def UpdateVisibilityLevelAction.run (s : VirtualServer) (req : ActionData)
    (client : ServerClientEntity) : ActionResult :=
  let vlevel := (req.params.value "visibilitylevel").toInt
  (s.setClient req.clientId { client with visibilityLevel := vlevel },
    [sendDefaultOkResponse req []])

/-- The error of a request that names a client that is not there. -/
def unknownClient (req : ActionData) (clientId : ℤ) : Effect :=
  sendDefaultErrorResponse req IFVS_STATUS_INVALID_PARAMETERS
    (QString.arg "Unknown client (clientid=%1)" (toString clientId))

/-- Send the media of one client to another one, whatever channels they are in. -/
def AddDirectStreamingRelationAction.run (s : VirtualServer) (req : ActionData) : ActionResult :=
  let senderId := (req.params.value "senderid").toInt
  let receiverId := (req.params.value "receiverid").toInt
  if senderId ∉ s.clients then (s, [unknownClient req senderId])
  else if receiverId ∉ s.clients then (s, [unknownClient req receiverId])
  else
    ({ s with
        sender2receiver := SetMap.insertAt s.sender2receiver senderId receiverId
      }.updateMediaRecipients, [sendDefaultOkResponse req []])

/-- End a direct streaming relation. -/
def RemoveDirectStreamingRelationAction.run (s : VirtualServer) (req : ActionData) :
    ActionResult :=
  let senderId := (req.params.value "senderid").toInt
  let receiverId := (req.params.value "receiverid").toInt
  let sender2receiver :=
    if senderId ∈ s.sender2receiver then
      SetMap.dropEmpty (SetMap.eraseAt s.sender2receiver senderId receiverId) senderId
    else s.sender2receiver
  ({ s with sender2receiver }.updateMediaRecipients, [sendDefaultOkResponse req []])

/-- List all channels, in the order of their ids. The range is only checked. -/
def GetChannelListAction.run (s : VirtualServer) (req : ActionData) : ActionResult :=
  let offset := (req.params.value "offset").toInt
  let limit := (req.params.value "limit").toInt
  if offset < 0 ∨ offset ≥ s.id2channel.size ∨ limit ≤ 0 then
    (s, [sendDefaultErrorResponse req IFVS_STATUS_INVALID_PARAMETERS "Offset/Limit out of range."])
  else
    let channels := (s.id2channel.toList.map Prod.snd).mergeSort fun a b => a.id ≤ b.id
    (s, [sendDefaultOkResponse req
      [("channels", .array (channels.map fun c => .object c.toQJsonObject))]])

/-- Create a channel without an alias and join it. -/
def CreateChannelAction.run (s : VirtualServer) (req : ActionData) (client : ServerClientEntity) :
    ActionResult :=
  let channel := ChannelEntity.fromQJsonObject (req.params.value "channel").toObject
  let password := (req.params.value "password").toString
  let (s, created) := s.createChannel ""
  let sce := created.merge channel
  let sce := if password.isEmpty then sce else { sce with isPasswordProtected := true, password }
  let s := ((s.setChannel sce).addClientToChannel client.id sce.id).updateMediaRecipients
  (s, [sendDefaultOkResponse req [("channel", .object sce.toQJsonObject)]])

/-- The channel that a join request names by id or alias. A new channel is created for an alias if
the id names none. -/
def JoinChannelAction.retrieveChannel (s : VirtualServer) (channelId : ℤ)
    (channelIdent password : String) : VirtualServer × Option ServerChannelEntity :=
  match s.id2channel[channelId]? with
  | some channelEntity => (s, some channelEntity)
  | none =>
    if ¬ channelIdent.isEmpty then
      let (s, created) := s.createChannel channelIdent
      let channelEntity := { created with isPasswordProtected := ¬ password.isEmpty, password }
      (s.setChannel channelEntity, some channelEntity)
    else (s, none)

/-- The id of a join request, looked up by its alias if it is not positive. -/
def JoinChannelAction.findChannelId (s : VirtualServer) (channelId : ℤ) (channelIdent : String) :
    ℤ :=
  if channelId ≤ 0 then (s.ident2channel[channelIdent]?).getD 0 else channelId

/-- Become a member of a channel: list the members that may be seen, and notify them. -/
def JoinChannelAction.join (s : VirtualServer) (req : ActionData) (client : ServerClientEntity)
    (channelEntity : ServerChannelEntity) : ActionResult :=
  let s := (s.addClientToChannel client.id channelEntity.id).updateMediaRecipients
  let participants := (SetMap.value s.participants channelEntity.id).toList.filterMap fun pid =>
    match s.clients[pid]? with
    | none => none
    | some participant =>
      if ¬ client.isAllowedToSee participant then none
      else some (QJsonValue.object participant.toQJsonObject)
  (s, sendDefaultOkResponse req [("channel", .object channelEntity.toQJsonObject),
      ("participants", .array participants)] ::
    broadcastNotificationToSiblingClients s req client "notify.clientjoinedchannel"
      [("channel", .object channelEntity.toQJsonObject), ("client", .object client.toQJsonObject)])

/-- Join a channel by its id, or by its alias, which creates the channel if it does not exist. -/
def JoinChannelAction.run (s : VirtualServer) (req : ActionData) (client : ServerClientEntity) :
    ActionResult :=
  let channelIdent := (req.params.value "identifier").toString
  let password := (req.params.value "password").toString
  let channelId := findChannelId s (req.params.value "channelid").toInt channelIdent
  if channelId ≤ 0 ∧ channelIdent.isEmpty then
    (s, [sendDefaultErrorResponse req IFVS_STATUS_INVALID_PARAMETERS
      (QString.arg (QString.arg "Invalid channel identification (channelid=%1; channelident=%2)"
        (toString channelId)) channelIdent)])
  else
    match retrieveChannel s channelId channelIdent password with
    | (s, none) =>
      (s, [sendDefaultErrorResponse req IFVS_STATUS_INVALID_PARAMETERS
        (QString.arg "Channel not available (channelid=%1)" (toString channelId))])
    | (s, some channelEntity) =>
      if ¬ client.admin ∧ ¬ channelEntity.password.isEmpty ∧ channelEntity.password ≠ password then
        (s, [sendDefaultErrorResponse req IFVS_STATUS_UNAUTHORIZED
          (QString.arg "Wrong channel password (channelid=%1)" (toString channelEntity.id))])
      else join s req client channelEntity

/-- The actions that the server registers. -/
inductive ActionBase where
  | HeartbeatAction
  | GoodbyeAction
  | AuthenticationAction
  | GetChannelListAction
  | CreateChannelAction
  | JoinChannelAction
  | JoinChannel2Action
  | EnableVideoAction
  | DisableVideoAction
  | EnableAudioInputAction
  | DisableAudioInputAction
  | AdminAuthAction
  | KickClientAction
  | UpdateVisibilityLevelAction
  | AddDirectStreamingRelationAction
  | RemoveDirectStreamingRelationAction
deriving DecidableEq

namespace ActionBase

/-- No condition. -/
def NoFlag : ℕ := 0

/-- The flag of actions for clients that are logged in. -/
def RequiresAuthentication : ℕ := 1

/-- The flag of actions for administrators. -/
def RequiresAdminPrivileges : ℕ := 2

/-- The name by which requests call the action. -/
def name : ActionBase → String
  | HeartbeatAction => "heartbeat"
  | GoodbyeAction => "goodbye"
  | AuthenticationAction => "auth"
  | GetChannelListAction => "/channels"
  | CreateChannelAction => "/channels/new"
  | JoinChannelAction => "joinchannel"
  | JoinChannel2Action => "joinchannelbyidentifier"
  | EnableVideoAction => "clientenablevideo"
  | DisableVideoAction => "clientdisablevideo"
  | EnableAudioInputAction => "clientenableaudioinput"
  | DisableAudioInputAction => "clientdisableaudioinput"
  | AdminAuthAction => "adminauth"
  | KickClientAction => "kickclient"
  | UpdateVisibilityLevelAction => "UpdateVisibilityLevelAction"
  | AddDirectStreamingRelationAction => "AddDirectStreamingRelationAction"
  | RemoveDirectStreamingRelationAction => "RemoveDirectStreamingRelationAction"

/-- The flags of the action. -/
def flags : ActionBase → ℕ
  | AuthenticationAction => NoFlag
  | KickClientAction => RequiresAuthentication ||| RequiresAdminPrivileges
  | UpdateVisibilityLevelAction => RequiresAuthentication ||| RequiresAdminPrivileges
  | AddDirectStreamingRelationAction => RequiresAuthentication ||| RequiresAdminPrivileges
  | RemoveDirectStreamingRelationAction => RequiresAuthentication ||| RequiresAdminPrivileges
  | _ => RequiresAuthentication

/-- All bits of a flag are set. -/
def testFlag (flags flag : ℕ) : Bool := flags &&& flag = flag

/-- The actions in the order in which they are registered. -/
def registered : List ActionBase :=
  [HeartbeatAction, GoodbyeAction, AuthenticationAction, GetChannelListAction, CreateChannelAction,
    JoinChannelAction, JoinChannel2Action, EnableVideoAction, DisableVideoAction,
    EnableAudioInputAction, DisableAudioInputAction, AdminAuthAction, KickClientAction,
    UpdateVisibilityLevelAction, AddDirectStreamingRelationAction,
    RemoveDirectStreamingRelationAction]

/-- The action of a name. -/
def findHandlerByName (name : String) : Option ActionBase :=
  registered.find? fun action => action.name = name

/-- Every action is found under its name. -/
theorem findHandlerByName_name (action : ActionBase) :
    findHandlerByName action.name = some action := by
  cases action with
  | _ => decide

/-- Run an action for the client of a request. -/
def run (s : VirtualServer) (req : ActionData) (client : ServerClientEntity)
    (peerAddress : QHostAddress) : ActionBase → Option ActionResult
  | HeartbeatAction => some (HeartbeatAction.run s req)
  | GoodbyeAction => some (GoodbyeAction.run s req)
  | AuthenticationAction => some (AuthenticationAction.run s req peerAddress)
  | GetChannelListAction => some (GetChannelListAction.run s req)
  | CreateChannelAction => some (CreateChannelAction.run s req client)
  | JoinChannelAction => some (JoinChannelAction.run s req client)
  | JoinChannel2Action => some (JoinChannelAction.run s req client)
  | EnableVideoAction => some (EnableVideoAction.run s req client)
  | DisableVideoAction => some (DisableVideoAction.run s req client)
  | EnableAudioInputAction => some (EnableAudioInputAction.run s req client)
  | DisableAudioInputAction => some (DisableAudioInputAction.run s req client)
  | AdminAuthAction => some (AdminAuthAction.run s req client)
  | KickClientAction => KickClientAction.run s req client
  | UpdateVisibilityLevelAction => some (UpdateVisibilityLevelAction.run s req client)
  | AddDirectStreamingRelationAction => some (AddDirectStreamingRelationAction.run s req)
  | RemoveDirectStreamingRelationAction => some (RemoveDirectStreamingRelationAction.run s req)

end ActionBase

end Ts3Video
