import Ts3Video.Client.NetworkClient
import Ts3Video.Library.InFlight
import Ts3Video.Server.Tokens

/-!
# A client and the server

What the server sends to a client arrives in the order in which it was sent. Requests and datagrams are
events of the server, so those of the client may arrive at any time.
-/

namespace Ts3Video

namespace NetworkClient

/-- What waits for the reply to a request of the client. -/
inductive ReplySlot where
  | onAuthFinished
  | onJoinChannelFinished
  | ignored
deriving DecidableEq

/-- The slot that is connected to the reply to a request. -/
def replySlot (action : String) : ReplySlot :=
  if action = "auth" then .onAuthFinished
  else if action = "joinchannel" ∨ action = "joinchannelbyidentifier" then .onJoinChannelFinished
  else .ignored

/-- A request of the server, or its response to a request together with the slot that waits for it. -/
inductive Message where
  | request (document : QJsonObject)
  | response (slot : ReplySlot) (document : QJsonObject)

/-- A message of the server arrived. -/
def receive (d : NetworkClient) : Message → Option NetworkClient
  | .request document => (d.onNewIncomingRequest (some (.object document))).map Prod.fst
  | .response .onAuthFinished document => some (d.onAuthFinished (some (.object document)))
  | .response .onJoinChannelFinished document =>
    some (d.onJoinChannelFinished (some (.object document)))
  | .response .ignored _ => some d

namespace Message

/-- What a message does to the ids of the members. -/
def updateIds (ids : List ℤ) : Message → List ℤ
  | .request document => notifiedIds ids (some (.object document))
  | .response .onJoinChannelFinished document => joinedIds ids (some (.object document))
  | .response _ _ => ids

/-- What a message does to the token of the media socket. -/
def updateToken (token : Option String) : Message → Option String
  | .response .onAuthFinished document => authToken? token (some (.object document))
  | _ => token

/-- The message tells the client that its media socket is authenticated. -/
def IsMediaAuthSuccess : Message → Prop
  | .request document => ∃ parameters, JsonProtocolHelper.fromJsonRequest (some (.object document)) =
      some ("notify.mediaauthsuccess", parameters)
  | .response _ _ => False

end Message

variable {d d' : NetworkClient} {message : Message}

/-- A request of the server is handled in one of two ways. -/
theorem notified_of_receive {document : QJsonObject}
    (h : d.receive (.request document) = some d') : Notified d (some (.object document)) d' := by
  obtain ⟨⟨next, response⟩, hrequest, rfl⟩ := Option.map_eq_some_iff.mp h
  exact notified_of_onNewIncomingRequest _ hrequest

/-- The members of the client follow its messages. -/
theorem ids_receive (h : d.receive message = some d') :
    d'.clientModel.ids = message.updateIds d.clientModel.ids := by
  match message with
  | .request document =>
    cases notified_of_receive h with
    | authenticated hrequest _ hstate =>
      rw [hstate, Message.updateIds, notifiedIds, hrequest]
      rfl
    | members clientModel hids hstate =>
      rw [hstate]
      exact hids
  | .response .onAuthFinished document =>
    obtain rfl := Option.some.inj h
    exact congrArg ClientListModel.ids (onAuthFinished_spec d _).1
  | .response .onJoinChannelFinished document =>
    obtain rfl := Option.some.inj h
    exact (onJoinChannelFinished_spec d _).1
  | .response .ignored document =>
    obtain rfl := Option.some.inj h
    rfl

/-- The token of the client follows its messages. -/
theorem socketToken_receive (h : d.receive message = some d') :
    d'.socketToken = message.updateToken d.socketToken := by
  match message with
  | .request document =>
    cases notified_of_receive h with
    | authenticated _ hsocket hstate =>
      rw [hstate]
      change _ = d.socketToken
      rw [socketToken, socketToken, hsocket]
      rfl
    | members clientModel _ hstate =>
      rw [hstate]
      rfl
  | .response .onAuthFinished document =>
    obtain rfl := Option.some.inj h
    exact (onAuthFinished_spec d _).2.1
  | .response .onJoinChannelFinished document =>
    obtain rfl := Option.some.inj h
    exact congrArg (Option.map MediaSocket.token) (onJoinChannelFinished_spec d _).2
  | .response .ignored document =>
    obtain rfl := Option.some.inj h
    rfl

/-- A socket stops when the client is told that it is authenticated, and never else. -/
theorem hasStopped_receive {mediaSocket : MediaSocket} (h : d.receive message = some d')
    (hsocket : d'.mediaSocket = some mediaSocket) (hstopped : mediaSocket.HasStopped) :
    message.IsMediaAuthSuccess ∨ d.mediaSocket = some mediaSocket := by
  match message with
  | .request document =>
    cases notified_of_receive h with
    | authenticated hrequest => exact .inl ⟨_, hrequest⟩
    | members clientModel _ hstate =>
      rw [hstate] at hsocket
      exact .inr hsocket
  | .response .onAuthFinished document =>
    obtain rfl := Option.some.inj h
    rcases (onAuthFinished_spec d (some (.object document))).2.2 with hsame | ⟨token, hnew⟩
    · exact .inr (hsame.symm.trans hsocket)
    · obtain rfl := Option.some.inj (hnew.symm.trans hsocket)
      rcases hstopped with hauthenticated | htimer
      · contradiction
      · contradiction
  | .response .onJoinChannelFinished document =>
    obtain rfl := Option.some.inj h
    exact .inr ((onJoinChannelFinished_spec d _).2.symm.trans hsocket)
  | .response .ignored document =>
    obtain rfl := Option.some.inj h
    exact .inr hsocket

end NetworkClient

open NetworkClient

/-- The slot that waits for the responses that an event brings. -/
def VirtualServer.Event.replySlot : VirtualServer.Event → ReplySlot
  | .newIncomingRequest _ _ document =>
    match JsonProtocolHelper.fromJsonRequest document with
    | some (action, _) => NetworkClient.replySlot action
    | none => .ignored
  | .authenticationFinished _ _ _ => .onAuthFinished
  | _ => .ignored

/-- The message that an effect is for the client. -/
def Effect.message? (a : ℤ) (slot : ReplySlot) : Effect → Option Message
  | .sendRequest clientId request => if clientId = a then some (.request request) else none
  | .sendResponse clientId _ response => if clientId = a then some (.response slot response) else none
  | _ => none

/-- The messages to the client, in the order in which they are sent. -/
def messagesTo (a : ℤ) (slot : ReplySlot) (out : List Effect) : List Message :=
  out.filterMap (Effect.message? a slot)

/-- The token that a datagram brings. -/
def VirtualServer.Event.sentToken? (fromUtf8 : List UInt8 → String) : VirtualServer.Event → Option String
  | .readyRead datagram _ _ =>
    match MediaSocketHandler.parse (datagram.take MediaSocketHandler.bufferSize) with
    | .authenticate data => some (fromUtf8 data)
    | _ => none
  | _ => none

/-- A client and the server, the messages to the client that are in flight, and the tokens of the client
that the server has accepted so far. -/
structure ClientSystem where
  server : VirtualServer
  client : NetworkClient := {}
  messages : List Message := []
  accepted : List String := []

namespace ClientSystem

/-- What happens to the server or on the side of the client. -/
inductive Event where
  | server (event : VirtualServer.Event)
  | receive
  | enableVideoStream (width height bitrate : ℤ)
  | disableVideoStream

/-- The server has just been started, and the client has not heard of it yet. -/
def init (opts : VirtualServerOptions) (bans : Std.ExtTreeSet String) : ClientSystem where
  server := VirtualServer.init opts bans

/-- The tokens of the client that the server accepts in an event. -/
def acceptedTokens (fromUtf8 : List UInt8 → String) (a : ℤ) (server : VirtualServer)
    (event : VirtualServer.Event) : List String :=
  if server.boundClient? fromUtf8 event = some a then (event.sentToken? fromUtf8).toList else []

/-- Process one event. `none` is a dereference of the null pointer. -/
def step (fromUtf8 : List UInt8 → String) (a : ℤ) (s : ClientSystem) :
    Event → Option (ClientSystem × List Effect)
  | .server event => (VirtualServer.step fromUtf8 s.server event).map fun done =>
      ({ s with
          server := done.1
          messages := s.messages ++ messagesTo a event.replySlot done.2
          accepted := s.accepted ++ acceptedTokens fromUtf8 a s.server event }, done.2)
  | .receive =>
    match s.messages with
    | [] => some (s, [])
    | message :: messages =>
      (s.client.receive message).map fun client => ({ s with client, messages }, [])
  | .enableVideoStream width height bitrate =>
    some ({ s with client := (s.client.enableVideoStream width height bitrate).1 }, [])
  | .disableVideoStream => some ({ s with client := s.client.disableVideoStream.1 }, [])

/-- What an event changes. -/
inductive Change (fromUtf8 : List UInt8 → String) (a : ℤ) (s : ClientSystem) : Event → ClientSystem → Prop
  | server {event : VirtualServer.Event} {server : VirtualServer} {out : List Effect}
    (hstep : VirtualServer.step fromUtf8 s.server event = some (server, out)) :
    Change fromUtf8 a s (.server event)
      { s with
        server
        messages := s.messages ++ messagesTo a event.replySlot out
        accepted := s.accepted ++ acceptedTokens fromUtf8 a s.server event }
  | receive {message : Message} {messages : List Message} {client : NetworkClient}
    (hmessages : s.messages = message :: messages)
    (hreceive : s.client.receive message = some client) :
    Change fromUtf8 a s .receive { s with client, messages }
  | own {e : Event} (client : NetworkClient) (hids : client.clientModel.ids = s.client.clientModel.ids)
    (hsocket : client.mediaSocket = s.client.mediaSocket) : Change fromUtf8 a s e { s with client }

/-- Every step is one of these changes. -/
theorem change_of_step {fromUtf8 : List UInt8 → String} {a : ℤ} {s s' : ClientSystem} {e : Event}
    {out : List Effect} (h : step fromUtf8 a s e = some (s', out)) : Change fromUtf8 a s e s' := by
  cases e with
  | server event =>
    obtain ⟨⟨server, sent⟩, hstep, hdone⟩ := Option.map_eq_some_iff.mp h
    obtain ⟨rfl, -⟩ := Prod.mk.inj hdone
    exact .server hstep
  | receive =>
    simp only [step] at h
    split at h
    · obtain ⟨rfl, -⟩ := Prod.mk.inj (Option.some.inj h)
      exact .own s.client rfl rfl
    next message messages hmessages =>
      obtain ⟨client, hreceive, hdone⟩ := Option.map_eq_some_iff.mp h
      obtain ⟨rfl, -⟩ := Prod.mk.inj hdone
      exact .receive hmessages hreceive
  | enableVideoStream width height bitrate =>
    obtain ⟨rfl, -⟩ := Prod.mk.inj (Option.some.inj h)
    exact .own _ (ClientListModel.ids_updateClient _ _) rfl
  | disableVideoStream =>
    obtain ⟨rfl, -⟩ := Prod.mk.inj (Option.some.inj h)
    exact .own _ (ClientListModel.ids_updateClient _ _) rfl

end ClientSystem

end Ts3Video
