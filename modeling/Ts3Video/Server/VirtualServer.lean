import Ts3Video.Library.SetMap
import Ts3Video.Server.MediaSocketHandler

/-!
# The state of the server

The tables of clients, channels and memberships, and the operations on them that requests are made
of. The order in which hash tables are traversed is not specified; here it is the order of the keys,
or a parameter where it makes a difference. Ids are integers that never wrap around.
-/

namespace Ts3Video

open Std

/-- The connection of a client, until the event loop has destroyed it. -/
structure ClientConnectionHandler where
  peerAddress : QHostAddress
  deleteLater : Bool := false
deriving DecidableEq

/-- An authentication whose answer from the TeamSpeak server is outstanding. -/
structure PendingAuthentication where
  clientId : ℤ
  correlationId : UInt32
  username : String
deriving DecidableEq

/-- The tables of the server, with the ban file and the authentications that are being checked in
the background. -/
structure VirtualServer where
  opts : VirtualServerOptions := {}
  nextClientId : ℤ := 0
  clients : ExtTreeMap ℤ ServerClientEntity := ∅
  connections : ExtTreeMap ℤ ClientConnectionHandler := ∅
  nextChannelId : ℤ := 0
  id2channel : ExtTreeMap ℤ ServerChannelEntity := ∅
  ident2channel : ExtTreeMap String ℤ := ∅
  participants : ExtTreeMap ℤ (ExtTreeSet ℤ) := ∅
  client2channels : ExtTreeMap ℤ (ExtTreeSet ℤ) := ∅
  sender2receiver : ExtTreeMap ℤ (ExtTreeSet ℤ) := ∅
  recipients : MediaRecipients := {}
  tokens : ExtTreeMap String ℤ := ∅
  networkUsageMediaSocket : NetworkUsageEntity := {}
  bans : ExtTreeSet String := ∅
  authentications : List PendingAuthentication := []

/-- What the server does to the network. Requests and responses are named by the client they go to,
responses also by the request they answer. -/
inductive Effect where
  | sendRequest (clientId : ℤ) (request : QJsonObject)
  | sendResponse (clientId : ℤ) (correlationId : UInt32) (response : QJsonObject)
  | disconnectFromHost (clientId : ℤ)
  | closeSocket (clientId : ℤ)
  | writeDatagram (data : List UInt8) (address : QHostAddress) (port : UInt16)

/-- The client can send and receive media. -/
def ServerClientEntity.hasMedia (client : ServerClientEntity) : Bool :=
  ¬(client.mediaAddress.isNull ∨ client.mediaPort ≤ 0)

/-- The client sends media. -/
def ServerClientEntity.isSending (client : ServerClientEntity) : Bool :=
  ¬(¬client.videoEnabled ∧ ¬client.audioInputEnabled)

/-- The receiver entry of a client. -/
def ServerClientEntity.toReceiver (client : ServerClientEntity) : MediaReceiverEntity where
  clientId := client.id
  address := client.mediaAddress
  port := client.mediaPort

namespace VirtualServer

/-- Update the record of a client. -/
def setClient (s : VirtualServer) (clientId : ℤ) (client : ServerClientEntity) : VirtualServer :=
  { s with clients := s.clients.insert clientId client }

/-- Update the record of a channel. -/
def setChannel (s : VirtualServer) (channel : ServerChannelEntity) : VirtualServer :=
  { s with id2channel := s.id2channel.insert channel.id channel }

/-- The first client sees the second one, and both are there. -/
def isVisible (s : VirtualServer) (clientId participantId : ℤ) : Bool :=
  match s.clients[clientId]?, s.clients[participantId]? with
  | some c1, some c2 => c1.isAllowedToSee c2
  | _, _ => false

/-- The set that `getSiblingClientIds` fills. -/
def siblingClientIds (s : VirtualServer) (clientId : ℤ) (filterByVisibilityLevel : Bool) :
    ExtTreeSet ℤ :=
  (SetMap.value s.client2channels clientId).toList.foldl (fun clientIds channelId =>
    (SetMap.value s.participants channelId).toList.foldl (fun clientIds participantId =>
      if filterByVisibilityLevel ∧ ¬ s.isVisible clientId participantId then clientIds
      else clientIds.insert participantId) clientIds) ∅

/-- The members of all channels of a client, the client included. -/
def getSiblingClientIds (s : VirtualServer) (clientId : ℤ) (filterByVisibilityLevel : Bool) :
    List ℤ :=
  (s.siblingClientIds clientId filterByVisibilityLevel).toList

/-- The receiver entry of a client for a given sender. Entities are identified by their id. -/
def receiverFor (s : VirtualServer) (client : ServerClientEntity) (clientId : ℤ) :
    Option MediaReceiverEntity :=
  match s.clients[clientId]? with
  | none => none
  | some c => if ¬ c.hasMedia then none else if c.id = client.id then none else some c.toReceiver

/-- The sender entry of a client: its conference members, then its direct receivers. -/
def toSender (s : VirtualServer) (client : ServerClientEntity) : MediaSenderEntity where
  clientId := client.id
  address := client.mediaAddress
  port := client.mediaPort
  receivers := (s.getSiblingClientIds client.id true).filterMap (s.receiverFor client) ++
    (SetMap.value s.sender2receiver client.id).toList.filterMap (s.receiverFor client)

/-- The loop body of `updateMediaRecipients`. -/
def addRecipient (s : VirtualServer) (recips : MediaRecipients) (client : ServerClientEntity) :
    MediaRecipients :=
  if ¬ client.hasMedia then recips
  else if ¬ client.isSending then recips
  else
    (recips.insertSender client.mediaAddress client.mediaPort (s.toSender client)).insertReceiver
      client.id client.toReceiver

/-- The table that `updateMediaRecipients` computes if it goes through the clients in the given
order. -/
def mediaRecipientsInOrder (s : VirtualServer) (order : List ServerClientEntity) : MediaRecipients :=
  order.foldl s.addRecipient {}

/-- The table that `updateMediaRecipients` computes. -/
def mediaRecipients (s : VirtualServer) : MediaRecipients :=
  s.clients.toList.foldl (fun recips entry => s.addRecipient recips entry.2) {}

/-- Compute the table of recipients and hand it to the media socket. -/
def updateMediaRecipients (s : VirtualServer) : VirtualServer :=
  { s with recipients := s.mediaRecipients }

/-- Create a channel under the next id, with an alias unless it is empty. -/
def createChannel (s : VirtualServer) (ident : String) : VirtualServer × ServerChannelEntity :=
  let c : ServerChannelEntity := { id := s.nextChannelId + 1, ident }
  ({ s with
      nextChannelId := s.nextChannelId + 1
      id2channel := s.id2channel.insert c.id c
      ident2channel :=
        if ¬ c.ident.isEmpty then s.ident2channel.insert c.ident c.id else s.ident2channel }, c)

/-- Make a client a member of a channel that exists. -/
def addClientToChannel (s : VirtualServer) (clientId channelId : ℤ) : VirtualServer :=
  match s.id2channel[channelId]? with
  | none => s
  | some channelEntity =>
    { s with
      participants := SetMap.insertAt s.participants channelEntity.id clientId
      client2channels := SetMap.insertAt s.client2channels clientId channelEntity.id }

/-- End a membership, and delete the channel if it was the last one. `none` is the dereference of
the null pointer if that channel is not there. -/
def removeClientFromChannel (s : VirtualServer) (clientId channelId : ℤ) : Option VirtualServer :=
  let participants := SetMap.eraseAt s.participants channelId clientId
  let client2channels := SetMap.dropEmpty (SetMap.eraseAt s.client2channels clientId channelId) clientId
  if (SetMap.value participants channelId).isEmpty then
    match s.id2channel[channelId]? with
    | none => none
    | some c =>
      some { s with
        participants := SetMap.dropEmpty participants channelId
        client2channels
        id2channel := s.id2channel.erase channelId
        ident2channel := s.ident2channel.erase c.ident }
  else some { s with participants, client2channels }

/-- End all memberships of a client. -/
def removeClientFromChannels (s : VirtualServer) (clientId : ℤ) : Option VirtualServer :=
  (SetMap.value s.client2channels clientId).toList.foldlM
    (fun s channelId => s.removeClientFromChannel clientId channelId) s

/-- Add an address to the ban file. The settings file has no entry with an empty name. -/
def ban (s : VirtualServer) (address : QHostAddress) : VirtualServer :=
  if address.isEmpty then s else { s with bans := s.bans.insert address }

/-- The address is in the ban file. -/
def isBanned (s : VirtualServer) (address : QHostAddress) : Bool := s.bans.contains address

/-- The notification that media can be sent now. -/
def sendMediaAuthSuccessNotify (clientId : ℤ) : Effect :=
  .sendRequest clientId (JsonProtocolHelper.createJsonRequest "notify.mediaauthsuccess" [])

/-- A token arrived at the media socket: it is used up, and its client gets the address. -/
def onMediaSocketTokenAuthentication (s : VirtualServer) (token : String) (address : QHostAddress)
    (port : UInt16) : VirtualServer × List Effect :=
  match s.tokens[token]? with
  | none => (s, [])
  | some clientId =>
    let s := { s with tokens := s.tokens.erase token }
    match s.clients[clientId]? with
    | none => (s, [])
    | some clientEntity =>
      let s := s.setClient clientId { clientEntity with mediaAddress := address, mediaPort := port }
      (s.updateMediaRecipients,
        if clientId ∈ s.connections then [sendMediaAuthSuccessNotify clientId] else [])

/-- New traffic figures arrived from the media socket. -/
def onMediaSocketNetworkUsageUpdated (s : VirtualServer) (networkUsage : NetworkUsageEntity) :
    VirtualServer :=
  { s with networkUsageMediaSocket := networkUsage }

end VirtualServer

end Ts3Video
