import Ts3Video.Library.Resumable
import Ts3Video.Qt.DataStream

/-!
# The COR frame parser

The parser reads header fields only as a whole and hands out the body as it arrives. It looks for
the end of a frame inside of the loop over the remaining input, so a frame without a body ends
with the first byte after it.
-/

namespace Ts3Video

/-- The states of the parser, in the order of the source. -/
inductive CorParser.State where
  | none
  | headerBegin
  | headerVersion
  | headerType
  | headerFlags
  | headerCorrelationId
  | headerBodyLength
  | headerEnd
  | bodyData
deriving DecidableEq

/-- A frame header in memory that was allocated without being initialised. -/
structure CorFrame where
  version : Option UInt16 := none
  type : Option UInt16 := none
  flags : Option UInt8 := none
  correlationId : Option UInt32 := none
  length : Option UInt32 := none
deriving DecidableEq

/-- The parser between two calls. -/
structure CorParser where
  state : CorParser.State := .none
  requestBodyBytesRead : ℕ := 0
  request : Option CorFrame := none
deriving DecidableEq

/-- The callbacks of the user of the parser, acting on its object. -/
structure CorParserSettings (σ : Type*) where
  onFrameBegin : Option (CorParser → σ → σ) := none
  onFrameHeaderBegin : Option (CorParser → σ → σ) := none
  onFrameHeaderEnd : Option (CorParser → σ → σ) := none
  onFrameBodyDataBegin : Option (CorParser → σ → σ) := none
  onFrameBodyData : Option (CorParser → List UInt8 → σ → σ) := none
  onFrameBodyDataEnd : Option (CorParser → σ → σ) := none
  onFrameEnd : Option (CorParser → σ → σ) := none

namespace CorParser

/-- Call back unless the pointer is null. -/
def executeCallback {σ : Type*} (callback : Option (CorParser → σ → σ)) (parser : CorParser)
    (object : σ) : σ :=
  callback.elim object fun call => call parser object

/-- Call back with some data unless the pointer is null. -/
def executeDataCallback {σ : Type*} (callback : Option (CorParser → List UInt8 → σ → σ))
    (parser : CorParser) (data : List UInt8) (object : σ) : σ :=
  callback.elim object fun call => call parser data object

/-- One header field: its size, how it is stored and the state after it. -/
structure HeaderField where
  fieldSize : ℕ
  store : List UInt8 → CorFrame → CorFrame
  nextState : State

/-- The field that is read in each header state. Flags are skipped: there is no conversion for a
single byte. -/
def headerField : State → Option HeaderField
  | .headerVersion => some
    { fieldSize := 2
      store := fun p request => { request with version := some (readUInt16 p).1 }
      nextState := .headerType }
  | .headerType => some
    { fieldSize := 2
      store := fun p request => { request with type := some (readUInt16 p).1 }
      nextState := .headerFlags }
  | .headerFlags => some
    { fieldSize := 1
      store := fun _ request => request
      nextState := .headerCorrelationId }
  | .headerCorrelationId => some
    { fieldSize := 4
      store := fun p request => { request with correlationId := some (readUInt32 p).1 }
      nextState := .headerBodyLength }
  | .headerBodyLength => some
    { fieldSize := 4
      store := fun p request => { request with length := some (readUInt32 p).1 }
      nextState := .bodyData }
  | _ => none

/-- The length of the body as the header tells it. -/
def requestLength (parser : CorParser) : ℕ :=
  ((parser.request.bind CorFrame.length).map UInt32.toNat).getD 0

variable {σ : Type*} (settings : CorParserSettings σ)

/-- Start a new frame. -/
def beginRequest (parser : CorParser) (object : σ) : CorParser × σ :=
  let parser := { parser with state := .headerVersion, request := some {} }
  let object := executeCallback settings.onFrameBegin parser object
  (parser, executeCallback settings.onFrameHeaderBegin parser object)

/-- Read one header field. The header ends with the field that leads to the body. -/
def readField (field : HeaderField) (parser : CorParser) (object : σ) (p : List UInt8) :
    CorParser × σ :=
  let parser := { parser with
    state := field.nextState
    request := parser.request.map (field.store p) }
  if field.nextState = .bodyData then
    (parser, executeCallback settings.onFrameHeaderEnd parser object)
  else (parser, object)

/-- Hand out as much of the body as there is. -/
def readBody (parser : CorParser) (object : σ) (p : List UInt8) :
    (CorParser × σ) × List UInt8 :=
  if parser.state = .bodyData ∧ parser.requestBodyBytesRead < parser.requestLength then
    let lengthLeft := p.length
    let requestBodyDataLeft := parser.requestLength - parser.requestBodyBytesRead
    let len := if lengthLeft > requestBodyDataLeft then requestBodyDataLeft else lengthLeft
    let object := executeDataCallback settings.onFrameBodyData parser (p.take len) object
    (({ parser with requestBodyBytesRead := parser.requestBodyBytesRead + len }, object),
      p.drop len)
  else ((parser, object), p)

/-- End the frame once its body is complete. -/
def endRequest (parser : CorParser) (object : σ) : CorParser × σ :=
  if parser.state = .bodyData ∧ parser.requestBodyBytesRead = parser.requestLength then
    let object := executeCallback settings.onFrameBodyDataEnd parser object
    ({}, executeCallback settings.onFrameEnd parser object)
  else (parser, object)

/-- One iteration of the loop of `cor_parser_parse`; `none` waits for the rest of a field. -/
def iterate (s : CorParser × σ) (p : List UInt8) : Option ((CorParser × σ) × List UInt8) :=
  if s.1.state = .none then some (beginRequest settings s.1 s.2, p)
  else
    match headerField s.1.state with
    | some field =>
      if p.length < field.fieldSize then none
      else some (readField settings field s.1 s.2 p, p.drop field.fieldSize)
    | none =>
      let body := readBody settings s.1 s.2 p
      some (endRequest settings body.1.1 body.1.2, body.2)

/-- The iterations that a state may still take without consuming anything. -/
def State.weight : State → ℕ
  | .none => 1
  | .bodyData => 2
  | _ => 0

/-- A bound on the iterations that are left. -/
def rank (s : CorParser × σ) (p : List UInt8) : ℕ := 3 * p.length + s.1.state.weight

/-- `cor_parser_parse`, with the number of bytes it has read. -/
def parse (s : CorParser × σ) (data : List UInt8) : (CorParser × σ) × ℕ :=
  let done := Resumable.loop (iterate settings) (3 * data.length + 2) s data
  (done.1, data.length - done.2.length)

/-- A parser that was initialised: a request exists from its first byte on, and of its body no more
is read than the header tells. -/
def Valid (s : CorParser × σ) : Prop :=
  match s.1.state with
  | .none => s.1.requestBodyBytesRead = 0 ∧ s.1.request = none
  | .bodyData => s.1.requestBodyBytesRead ≤ s.1.requestLength ∧ s.1.request.isSome
  | state => (headerField state).isSome ∧ s.1.requestBodyBytesRead = 0 ∧ s.1.request.isSome

/-- Body data may be handed out in pieces. -/
def AppendsBody : Prop :=
  ∀ parser parser' object first second,
    executeDataCallback settings.onFrameBodyData parser (first ++ second) object =
      executeDataCallback settings.onFrameBodyData parser' second
        (executeDataCallback settings.onFrameBodyData parser first object)

end CorParser

end Ts3Video
