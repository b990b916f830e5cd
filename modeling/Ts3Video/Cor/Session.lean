import Ts3Video.Cor.Replies

/-!
# A session between two connections

What one connection writes arrives at the other one as a stream, of which it reads pieces of any size. Each
side may make requests and answer those it was given, in any order, while frames are on their way.
-/

namespace Ts3Video

open QCorConnection QCorConnectionPrivate

/-- The two ends of a session. -/
inductive Side where
  | client
  | server
deriving DecidableEq

/-- The other end. -/
def Side.other : Side → Side
  | .client => .server
  | .server => .client

/-- A connection with the bytes that have arrived for it, and all that it has accepted for sending. -/
structure SessionEnd where
  posting : PostingConnection := {}
  incoming : List UInt8 := []
  accepted : List SendQueueItem := []

/-- Both ends. -/
abbrev Session := Side → SessionEnd

namespace SessionEnd

/-- The private part of the connection. -/
abbrev d (s : SessionEnd) : QCorConnectionPrivate := s.posting.connection.d

/-- The correlation ids of the accepted items of one type. -/
def idsOf (type : UInt16) (items : List SendQueueItem) : List UInt32 :=
  (items.filter fun item => item.frame.type = some type).map fun item =>
    item.frame.correlationId.getD 0

/-- The correlation ids of the requests that were made at this end. -/
abbrev requested (s : SessionEnd) : List UInt32 := idsOf COR_FRAME_TYPE_REQUEST s.accepted

end SessionEnd

namespace Session

/-- What happens at an end. A read is given the sizes of the pieces in which the socket hands out what has
arrived. -/
inductive EndEvent where
  | sendRequest (flags : UInt8) (data : List UInt8)
  | sendResponse (correlationId : UInt32) (flags : UInt8) (data : List UInt8)
  | onCurrentSendItemDone
  | onSocketReadyRead (sizes : List ℕ)

/-- The pieces in which some bytes are read. -/
def pieces : List ℕ → List UInt8 → List (List UInt8)
  | [], _ => []
  | size :: sizes, bytes => bytes.take size :: pieces sizes (bytes.drop size)

/-- What happens to the connection of an end. -/
def EndEvent.toEvent (incoming : List UInt8) : EndEvent → PostingConnection.Event
  | .sendRequest flags data => .sendRequest flags data
  | .sendResponse correlationId flags data => .sendResponse correlationId flags data
  | .onCurrentSendItemDone => .onCurrentSendItemDone
  | .onSocketReadyRead sizes => .onSocketReadyRead (pieces sizes incoming)

/-- What has arrived and is not read in an event. -/
def EndEvent.unread (incoming : List UInt8) : EndEvent → List UInt8
  | .onSocketReadyRead sizes => incoming.drop sizes.sum
  | _ => incoming

/-- The session after something has happened at an end: what is written there arrives at the other one. -/
def after (s : Session) (side : Side) (e : EndEvent) (posting : PostingConnection) (out : List Output) :
    Session := fun x =>
  if x = side then
    { posting
      incoming := e.unread (s side).incoming
      accepted := (s side).accepted ++ accepted out }
  else { s x with incoming := (s x).incoming ++ written out }

/-- A session as a machine. -/
def step (s : Session) (e : Side × EndEvent) : Option (Session × List (Side × Output)) :=
  (PostingConnection.step (s e.1).posting (e.2.toEvent (s e.1).incoming)).map fun done =>
    (s.after e.1 e.2 done.1 done.2, done.2.map (Prod.mk e.1))

/-- Bodies are as long as a byte array can be, the correlation ids suffice, and what is answered is a
request that has been delivered. Which answers a request may get is up to the service. -/
def Polite (service : Side → List UInt8 → List UInt8 → Prop) (s : Session) : Side × EndEvent → Prop
  | (side, .sendRequest _ data) => data.length < 2 ^ 31 ∧ (s side).requested.length + 1 < 2 ^ 32
  | (side, .sendResponse correlationId _ data) => data.length < 2 ^ 31 ∧
      ∃ request, .newIncomingRequest (some request) ∈ (s side).d.delivered ∧
        request.correlationId = some correlationId ∧ service side request.data data
  | _ => True

/-- What may become of a frame. -/
def Delivers (delivery : Delivery) (frame : QCorFrame) : Prop :=
  ∃ correlationId, frame.correlationId = some correlationId ∧
    match frame.type with
    | .RequestType => delivery = .newIncomingRequest (some frame)
    | .ResponseType =>
      delivery = .finished correlationId (some frame) ∨ delivery = .dropped (some frame)

/-- Some events are posted or some bytes are on their way to an end. -/
def Busy (s : Session) (side : Side) : Prop :=
  0 < (s side.other).posting.posted ∨ (s side).incoming ≠ []

/-- Remote calls work at one end: what the other end has accepted is delivered once and in order, a
reply is finished once, with an answer of the service to the request that was made under its id, and a
response is dropped only if the reply was finished before. -/
structure CallsWork (service : Side → List UInt8 → List UInt8 → Prop) (s : Session) (side : Side) :
    Prop where
  inOrder : ∃ frames, frames <+: (s side.other).accepted.map frameOf ∧
    List.Forall₂ Delivers (s side).d.delivered frames
  distinct : (s side).requested.Nodup
  pending : ∀ correlationId, correlationId ∈ (s side).d.replies ↔
    correlationId ∈ (s side).requested ∧
      correlationId ∉ (ObservedConnection.finishedReplies (s side).d.delivered).map Prod.fst
  once : ((ObservedConnection.finishedReplies (s side).d.delivered).map Prod.fst).Nodup
  answered : ∀ correlationId frame,
    (correlationId, frame) ∈ ObservedConnection.finishedReplies (s side).d.delivered →
      ∃ request ∈ (s side).accepted, ∃ response : QCorFrame,
        request.frame.type = some COR_FRAME_TYPE_REQUEST ∧
        request.frame.correlationId = some correlationId ∧ frame = some response ∧
        response.correlationId = some correlationId ∧
        service side.other request.data response.data
  dropped : ∀ before frame later,
    (s side).d.delivered = before ++ .dropped frame :: later → ∃ correlationId,
      frame.bind QCorFrame.correlationId = some correlationId ∧
        correlationId ∈ (ObservedConnection.finishedReplies before).map Prod.fst
  nothingLost : ¬ s.Busy side → (∀ item ∈ (s side.other).accepted.getLast?, item.data ≠ []) →
    List.Forall₂ Delivers (s side).d.delivered ((s side.other).accepted.map frameOf)

end Session

end Ts3Video
