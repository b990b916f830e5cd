import Ts3Video.Client.ClientSystem
import Ts3Video.Cor.SessionSteps

/-!
# A client and the server on the wire

Documents are written as bytes and sent in frames of the session between a client and the server, where they
arrive in pieces. Each end is told of the frames that its connection has delivered, one after the other. The
response to a request of the client goes to the slot that was connected when the request was made, and is
found by its correlation id. Requests of other clients are events of the server.
-/

namespace Ts3Video

open NetworkClient

/-- How documents become bytes and back, and the flags of the frames, which are whatever the memory of the
items held. -/
structure Wire where
  toJson : QJsonObject → List UInt8
  fromJson : List UInt8 → Option QJsonValue
  flags : Side → ℕ → UInt8 := fun _ _ => 0

/-- A document that is handed over to the connection of an end. -/
inductive Outgoing where
  | request (document : QJsonObject)
  | response (correlationId : UInt32) (document : QJsonObject)

namespace Outgoing

/-- The document. -/
def document : Outgoing → QJsonObject
  | request document => document
  | response _ document => document

/-- It is a request, which gets the next correlation id. -/
def isRequest : Outgoing → Bool
  | request _ => true
  | response _ _ => false

/-- The correlation id of a response. -/
def answeredId? : Outgoing → Option UInt32
  | request _ => none
  | response correlationId _ => some correlationId

/-- The message that it is for the slot that waits for responses. -/
def toMessage (slot : ReplySlot) : Outgoing → Message
  | request document => .request document
  | response _ document => .response slot document

end Outgoing

/-- What an effect hands over to the connection of the client. -/
def Effect.outgoing? (a : ℤ) : Effect → Option Outgoing
  | .sendRequest clientId request => if clientId = a then some (.request request) else none
  | .sendResponse clientId correlationId response =>
    if clientId = a then some (.response correlationId response) else none
  | _ => none

/-- The event is a request of the client. -/
def VirtualServer.Event.isRequestOf (a : ℤ) : VirtualServer.Event → Bool
  | .newIncomingRequest clientId _ _ => clientId = a
  | _ => false

/-- The response to a request of the client arrived in the slot that waits for it. -/
def NetworkClient.finish (d : NetworkClient) (slot : ReplySlot) (document : Option QJsonValue) :
    NetworkClient :=
  match slot with
  | .onAuthFinished => d.onAuthFinished document
  | .onJoinChannelFinished => d.onJoinChannelFinished document
  | .ignored => d

namespace Wire

variable (wire : Wire)

/-- A document is read back as it was written, and its bytes fit into a frame. -/
structure Fits (document : QJsonObject) : Prop where
  readBack : wire.fromJson (wire.toJson document) = some (.object document)
  nonempty : wire.toJson document ≠ []
  short : (wire.toJson document).length < 2 ^ 31

/-- What sending a document is for the connection that has accepted so many items. -/
def sendEvent (side : Side) (count : ℕ) : Outgoing → Session.EndEvent
  | .request document => .sendRequest (wire.flags side count) (wire.toJson document)
  | .response correlationId document =>
    .sendResponse correlationId (wire.flags side count) (wire.toJson document)

/-- Send a document. -/
def send (side : Side) (s : Session) (outgoing : Outgoing) : Option Session :=
  (s.step (side, wire.sendEvent side (s side).accepted.length outgoing)).map Prod.fst

/-- Send several documents, one after the other. -/
def sendAll (side : Side) (s : Session) (sent : List Outgoing) : Option Session :=
  sent.foldlM (wire.send side) s

/-- The request that a delivery is for the server, if it is one. -/
def requestOf (a : ℤ) : Delivery → Option VirtualServer.Event
  | .newIncomingRequest (some frame) =>
    some (.newIncomingRequest a (frame.correlationId.getD 0) (wire.fromJson frame.data))
  | _ => none

end Wire

/-- The server, a client and the session between them, with the number of deliveries that each end has been
told of, the slot that was connected to the reply under each id, and the tokens of the client that the server
has accepted so far. -/
structure WiredSystem where
  server : VirtualServer
  client : NetworkClient := {}
  session : Session := fun _ => {}
  handled : Side → ℕ := fun _ => 0
  slots : List (UInt32 × ReplySlot) := []
  accepted : List String := []

namespace WiredSystem

/-- What happens without the applications: a connection writes its next item, or it reads pieces of these
sizes. -/
inductive TransportEvent where
  | onCurrentSendItemDone
  | onSocketReadyRead (sizes : List ℕ)

/-- The event of the session. -/
def TransportEvent.toEndEvent : TransportEvent → Session.EndEvent
  | onCurrentSendItemDone => .onCurrentSendItemDone
  | onSocketReadyRead sizes => .onSocketReadyRead sizes

/-- What happens to the system. -/
inductive Event where
  | server (event : VirtualServer.Event)
  | serverReceives
  | clientReceives
  | sendRequest (action : String) (parameters : QJsonObject)
  | enableVideoStream (width height bitrate : ℤ)
  | disableVideoStream
  | transport (side : Side) (event : TransportEvent)

/-- What the applications make of an event: their next state, and what one of them sends. -/
structure Outcome where
  system : WiredSystem
  side : Side
  sent : List Outgoing := []
  out : List Effect := []

/-- The server has just been started, and the client has not connected yet. -/
def init (opts : VirtualServerOptions) (bans : Std.ExtTreeSet String) : WiredSystem where
  server := VirtualServer.init opts bans

/-- The delivery that an end is told of next. -/
def nextDelivery (s : WiredSystem) (side : Side) : Option Delivery :=
  (s.session side).d.delivered[s.handled side]?

/-- An end has been told of its next delivery. -/
def advance (s : WiredSystem) (side : Side) : WiredSystem :=
  { s with handled := fun x => if x = side then s.handled x + 1 else s.handled x }

/-- The slot that waits for the reply under an id. -/
def slot (s : WiredSystem) (correlationId : UInt32) : ReplySlot :=
  (s.slots.lookup correlationId).getD .ignored

/-- The client makes a request and connects the slot to its reply. -/
def request (s : WiredSystem) (slot : ReplySlot) (document : QJsonObject) : Outcome where
  system := { s with slots := s.slots ++ [((s.session .client).d.nextCorrelationId + 1, slot)] }
  side := .client
  sent := [.request document]

/-- An event of the server. -/
def serverEvent (fromUtf8 : List UInt8 → String) (a : ℤ) (s : WiredSystem) (event : VirtualServer.Event) :
    Option Outcome :=
  (VirtualServer.step fromUtf8 s.server event).map fun done =>
    { system := { s with
        server := done.1
        accepted := s.accepted ++ ClientSystem.acceptedTokens fromUtf8 a s.server event }
      side := .server
      sent := done.2.filterMap (Effect.outgoing? a)
      out := done.2 }

/-- The server is told of the next delivery of the connection, as long as it is there. Replies to its own
requests are ignored. -/
def serverReceives (wire : Wire) (fromUtf8 : List UInt8 → String) (a : ℤ) (s : WiredSystem) :
    Option Outcome :=
  if a ∉ s.server.connections then some { system := s, side := .server }
  else
    match s.nextDelivery .server with
    | none => some { system := s, side := .server }
    | some delivery =>
      match wire.requestOf a delivery with
      | some event => serverEvent fromUtf8 a (s.advance .server) event
      | none => some { system := s.advance .server, side := .server }

/-- The client is told of the next delivery of its connection. `none` is a dereference of the null
pointer. -/
def clientReceives (wire : Wire) (s : WiredSystem) : Option Outcome :=
  match s.nextDelivery .client with
  | none => some { system := s, side := .client }
  | some (.newIncomingRequest (some frame)) =>
    (s.client.onNewIncomingRequest (wire.fromJson frame.data)).map fun done =>
      { system := { s.advance .client with client := done.1 }
        side := .client
        sent := [.response (frame.correlationId.getD 0) done.2] }
  | some (.finished correlationId (some frame)) =>
    some
      { system := { s.advance .client with
          client := s.client.finish (s.slot correlationId) (wire.fromJson frame.data) }
        side := .client }
  | some _ => some { system := s.advance .client, side := .client }

variable (wire : Wire) (fromUtf8 : List UInt8 → String) (a : ℤ)

/-- What the applications make of an event. The requests of the client come out of its session. -/
def outcome (s : WiredSystem) : Event → Option Outcome
  | .server event =>
    if event.isRequestOf a then some { system := s, side := .server } else serverEvent fromUtf8 a s event
  | .serverReceives => s.serverReceives wire fromUtf8 a
  | .clientReceives => s.clientReceives wire
  | .sendRequest action parameters =>
    some (s.request (replySlot action) (JsonProtocolHelper.createJsonRequest action parameters))
  | .enableVideoStream width height bitrate =>
    let done := s.client.enableVideoStream width height bitrate
    some ({ s with client := done.1 }.request .ignored done.2)
  | .disableVideoStream =>
    let done := s.client.disableVideoStream
    some ({ s with client := done.1 }.request .ignored done.2)
  | .transport _ _ => none

/-- What is sent goes into the session. -/
def transmit (s : WiredSystem) (outcome : Outcome) : Option (WiredSystem × List Effect) :=
  (wire.sendAll outcome.side s.session outcome.sent).map fun session =>
    ({ outcome.system with session }, outcome.out)

/-- Process one event. -/
def step (s : WiredSystem) (e : Event) : Option (WiredSystem × List Effect) :=
  match e with
  | .transport side event =>
    (s.session.step (side, event.toEndEvent)).map fun done => ({ s with session := done.1 }, [])
  | e => (s.outcome wire fromUtf8 a e).bind (s.transmit wire)

/-- The documents that are sent can be read, and the correlation ids suffice for the requests. -/
def Fits (s : WiredSystem) (e : Event) : Prop :=
  ∀ outcome ∈ s.outcome wire fromUtf8 a e,
    (∀ outgoing ∈ outcome.sent, wire.Fits outgoing.document) ∧
      (s.session outcome.side).requested.length + outcome.sent.countP Outgoing.isRequest < 2 ^ 32

/-- The message that an item of the server is for the client. -/
def message (slots : List (UInt32 × ReplySlot)) (item : SendQueueItem) : Message :=
  let document := ((wire.fromJson item.data).getD .null).toObject
  if item.frame.type = some COR_FRAME_TYPE_REQUEST then .request document
  else .response ((slots.lookup (item.frame.correlationId.getD 0)).getD .ignored) document

/-- The system without the wire: what the server has sent and the client has not been told of is in flight. -/
def toClientSystem (s : WiredSystem) : ClientSystem where
  server := s.server
  client := s.client
  messages := ((s.session .server).accepted.drop (s.handled .client)).map (message wire s.slots)
  accepted := s.accepted

/-- What an event is without the wire, if it is anything. -/
def mirror (s : WiredSystem) : Event → Option ClientSystem.Event
  | .server event => if event.isRequestOf a then none else some (.server event)
  | .serverReceives =>
    if a ∉ s.server.connections then none
    else ((s.nextDelivery .server).bind (wire.requestOf a)).map .server
  | .clientReceives => (s.nextDelivery .client).map fun _ => .receive
  | .enableVideoStream width height bitrate => some (.enableVideoStream width height bitrate)
  | .disableVideoStream => some .disableVideoStream
  | .sendRequest _ _ => none
  | .transport _ _ => none

end WiredSystem

end Ts3Video
