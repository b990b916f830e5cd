import Ts3Video.Cor.Parser
import Ts3Video.Library.Runs

/-!
# The COR connection

A connection writes its queued frames one at a time, the next one after the event loop has seen
the last one off, and feeds everything it reads to its parser. Requests are handed to the
application, responses to the reply that waits for their correlation id.
-/

namespace Ts3Video

open Std

/-- The kind of a frame. -/
inductive QCorFrame.Type where
  | RequestType
  | ResponseType
deriving DecidableEq

/-- How far a frame has come. -/
inductive QCorFrame.State where
  | TransferingState
  | FinishedState
  | ErrorState
deriving DecidableEq

/-- A frame as the application sees it. The correlation id is not set by the constructor. -/
structure QCorFrame where
  state : QCorFrame.State := .TransferingState
  type : QCorFrame.Type := .RequestType
  correlationId : Option UInt32 := none
  data : List UInt8 := []
deriving DecidableEq

/-- The type of requests on the wire. -/
def COR_FRAME_TYPE_REQUEST : UInt16 := 0

/-- The type of responses on the wire. -/
def COR_FRAME_TYPE_RESPONSE : UInt16 := 1

/-- What becomes of a frame that was received as a whole. -/
inductive Delivery where
  | newIncomingRequest (frame : Option QCorFrame)
  | finished (correlationId : UInt32) (frame : Option QCorFrame)
  | dropped (frame : Option QCorFrame)
deriving DecidableEq

/-- A frame that waits to be written. -/
structure SendQueueItem where
  frame : CorFrame
  data : List UInt8

/-- The private part of a connection, on which the callbacks of the parser act, together with all
that was delivered so far. -/
structure QCorConnectionPrivate where
  socketConnected : Bool := true
  frame : Option QCorFrame := none
  replies : ExtTreeSet UInt32 := ∅
  nextCorrelationId : UInt32 := 0
  sendQueue : List SendQueueItem := []
  sendQueueCurrent : Option SendQueueItem := none
  delivered : List Delivery := []

namespace QCorConnectionPrivate

/-- A new frame starts. -/
def onParserFrameBegin (_ : CorParser) (d : QCorConnectionPrivate) : QCorConnectionPrivate :=
  { d with frame := some {} }

/-- Nothing happens at the beginning of a header. -/
def onParserFrameHeaderBegin (_ : CorParser) (d : QCorConnectionPrivate) :
    QCorConnectionPrivate := d

/-- The header tells the kind and the correlation id. -/
def onParserFrameHeaderEnd (parser : CorParser) (d : QCorConnectionPrivate) :
    QCorConnectionPrivate :=
  let type := parser.request.bind CorFrame.type
  { d with frame := d.frame.map fun frame =>
      { frame with
        type :=
          if type = some COR_FRAME_TYPE_REQUEST then .RequestType
          else if type = some COR_FRAME_TYPE_RESPONSE then .ResponseType
          else frame.type
        correlationId := parser.request.bind CorFrame.correlationId } }

/-- Some more of the body. -/
def onParserFrameBodyData (_ : CorParser) (data : List UInt8) (d : QCorConnectionPrivate) :
    QCorConnectionPrivate :=
  { d with frame := d.frame.map fun frame => { frame with data := frame.data ++ data } }

/-- A frame is complete: notify the application or the reply that waits for it. -/
def onParserFrameEnd (parser : CorParser) (d : QCorConnectionPrivate) : QCorConnectionPrivate :=
  let f := d.frame
  let d := { d with frame := none }
  let type := parser.request.bind CorFrame.type
  let correlationId := (parser.request.bind CorFrame.correlationId).getD 0
  if type = some COR_FRAME_TYPE_REQUEST then
    { d with delivered := d.delivered ++ [.newIncomingRequest f] }
  else if type = some COR_FRAME_TYPE_RESPONSE ∧ correlationId ∈ d.replies then
    { d with
      replies := d.replies.erase correlationId
      delivered := d.delivered ++ [.finished correlationId f] }
  else { d with delivered := d.delivered ++ [.dropped f] }

/-- The callbacks that a connection installs. -/
def corSettings : CorParserSettings QCorConnectionPrivate where
  onFrameBegin := some onParserFrameBegin
  onFrameHeaderBegin := some onParserFrameHeaderBegin
  onFrameHeaderEnd := some onParserFrameHeaderEnd
  onFrameBodyData := some onParserFrameBodyData
  onFrameEnd := some onParserFrameEnd

/-- The bytes of an item on the wire. -/
def write (item : SendQueueItem) : List UInt8 :=
  writeUInt16 (item.frame.version.getD 0) ++ (writeUInt16 (item.frame.type.getD 0) ++
    (writeUInt8 (item.frame.flags.getD 0) ++ (writeUInt32 (item.frame.correlationId.getD 0) ++
      (writeUInt32 (item.frame.length.getD 0) ++
        item.data.take (item.frame.length.getD 0).toNat))))

/-- Write the next item unless one is on its way. The bytes that are written are returned. -/
def doNextSendItem (d : QCorConnectionPrivate) : QCorConnectionPrivate × List UInt8 :=
  if !d.socketConnected then (d, [])
  else
    match d.sendQueueCurrent, d.sendQueue with
    | none, item :: sendQueue =>
      ({ d with sendQueueCurrent := some item, sendQueue }, write item)
    | _, _ => (d, [])

/-- Put an item into the queue. -/
def enqueue (d : QCorConnectionPrivate) (item : SendQueueItem) : QCorConnectionPrivate :=
  { d with sendQueue := d.sendQueue ++ [item] }

end QCorConnectionPrivate

/-- A connection with its parser and the bytes the parser has not taken yet. -/
@[ext] structure QCorConnection where
  d : QCorConnectionPrivate := {}
  corParser : CorParser := {}
  buffer : List UInt8 := []

namespace QCorConnection

open QCorConnectionPrivate

/-- An item of the queue. Its flags are whatever the memory of the item held. -/
def newItem (type : UInt16) (correlationId : UInt32) (flags : UInt8) (data : List UInt8) :
    SendQueueItem where
  frame :=
    { version := some 1
      type := some type
      flags := some flags
      correlationId := some correlationId
      length := some (UInt32.ofNat data.length) }
  data := data

/-- One iteration of `onSocketReadyRead`: parse what is there and keep what was not taken. -/
def readAvailable (s : QCorConnection) (bytes : List UInt8) : QCorConnection :=
  let buffer := s.buffer ++ bytes
  let parsed := CorParser.parse corSettings (s.corParser, s.d) buffer
  let read := parsed.2
  { d := parsed.1.2
    corParser := parsed.1.1
    buffer :=
      if read > 0 then if read < buffer.length then buffer.drop read else []
      else buffer }

/-- Read until nothing is available. -/
def onSocketReadyRead (s : QCorConnection) (reads : List (List UInt8)) : QCorConnection :=
  reads.foldl readAvailable s

/-- What happens to a connection. -/
inductive Event where
  | sendRequest (flags : UInt8) (data : List UInt8)
  | sendResponse (correlationId : UInt32) (flags : UInt8) (data : List UInt8)
  | onCurrentSendItemDone
  | onSocketReadyRead (reads : List (List UInt8))
  | disconnected

/-- What a connection does: it accepts an item for sending, or it writes bytes. -/
inductive Output where
  | accepted (item : SendQueueItem)
  | written (bytes : List UInt8)

/-- Accept an item and write it if it is its turn. -/
def sendItem (s : QCorConnection) (d : QCorConnectionPrivate) (item : SendQueueItem) :
    QCorConnection × List Output :=
  let next := doNextSendItem (d.enqueue item)
  ({ s with d := next.1 }, [.accepted item, .written next.2])

/-- The connection as a machine. Without a connected socket nothing is accepted. -/
def step (s : QCorConnection) : Event → Option (QCorConnection × List Output)
  | .sendRequest flags data =>
    if !s.d.socketConnected then some (s, [])
    else
      let correlationId := s.d.nextCorrelationId + 1
      some (sendItem s
        { s.d with nextCorrelationId := correlationId, replies := s.d.replies.insert correlationId }
        (newItem COR_FRAME_TYPE_REQUEST correlationId flags data))
  | .sendResponse correlationId flags data =>
    if !s.d.socketConnected then some (s, [])
    else some (sendItem s s.d (newItem COR_FRAME_TYPE_RESPONSE correlationId flags data))
  | .onCurrentSendItemDone =>
    let next := doNextSendItem { s.d with sendQueueCurrent := none }
    some ({ s with d := next.1 }, [.written next.2])
  | .onSocketReadyRead reads => some (s.onSocketReadyRead reads, [])
  | .disconnected =>
    some ({ s with d := { s.d with
      socketConnected := false
      frame := s.d.frame.map fun frame =>
        if frame.state ≠ .FinishedState then { frame with state := .ErrorState } else frame } }, [])

end QCorConnection

end Ts3Video
