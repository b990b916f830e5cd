import Ts3Video.Cor.SendQueue
import Ts3Video.Cor.WireFrames

/-!
# Connecting again

A connection may be given a new socket. This replaces the socket alone: the parser, the buffer, the queue
and the replies are those of the old one. The new socket starts clean only if they are empty.
-/

namespace Ts3Video

open Std QCorConnection QCorConnectionPrivate

/-- A connection and whether its socket is being connected. -/
structure ReconnectingConnection where
  posting : PostingConnection := {}
  connecting : Bool := false

/-- A delivery of another frame. -/
def Delivery.map (f : QCorFrame → QCorFrame) : Delivery → Delivery
  | .newIncomingRequest frame => .newIncomingRequest (frame.map f)
  | .finished correlationId frame => .finished correlationId (frame.map f)
  | .dropped frame => .dropped (frame.map f)

namespace ReconnectingConnection

/-- What happens to a connection with changing sockets: something that also happens while one is connected,
its socket is disconnected, it is given a new one, or the new one is connected. -/
inductive Event where
  | use (e : PostingConnection.Event)
  | disconnected
  | connectTo
  | connected

/-- Something is read in an event. -/
def reads : PostingConnection.Event → Bool
  | .onSocketReadyRead _ => true
  | _ => false

/-- The socket is unconnected. -/
def unconnect (s : PostingConnection) : Option (PostingConnection × List Output) :=
  PostingConnection.posting s.posted (QCorConnection.step s.connection .disconnected)

/-- The socket is connected. -/
def establish (s : PostingConnection) : PostingConnection :=
  { s with connection :=
      { s.connection with d := { s.connection.d with socketConnected := true } } }

/-- A connection with changing sockets as a machine. Nothing is read from a socket that is not connected, and
the old socket is aborted when there is a new one. -/
def step (s : ReconnectingConnection) : Event → Option (ReconnectingConnection × List Output)
  | .use e =>
    if reads e ∧ !s.posting.connection.d.socketConnected then none
    else (PostingConnection.step s.posting e).map fun done => ({ s with posting := done.1 }, done.2)
  | .disconnected => (unconnect s.posting).map fun done => ({ posting := done.1 }, done.2)
  | .connectTo =>
    if s.posting.connection.d.socketConnected ∨ s.connecting then
      (unconnect s.posting).map fun done => ({ posting := done.1, connecting := true }, done.2)
    else some ({ s with connecting := true }, [])
  | .connected => if s.connecting then some ({ posting := establish s.posting }, []) else none

/-- A new connection. It goes on with the numbers of the requests. -/
def fresh (s : PostingConnection) : PostingConnection where
  connection := { d := { nextCorrelationId := s.connection.d.nextCorrelationId } }

/-- Whatever happens from now on while the socket is connected, the connection delivers what a new one would
deliver, and it writes only what is accepted from now on, in order. -/
def StartsClean (s : PostingConnection) : Prop :=
  ∀ later t out, Runs.run PostingConnection.step s later = some (t, out) →
    (∃ u more, Runs.run PostingConnection.step (fresh s) later = some (u, more) ∧
      t.connection.d.delivered = s.connection.d.delivered ++ u.connection.d.delivered) ∧
    ∃ sent, sent <+: SingleFlight.puts
      (PostingConnection.queueEvents s.connection.d.nextCorrelationId later) ∧
        written out = sent.flatMap write

/-- The parser is between two frames, no reply waits and nothing is queued. -/
structure Clean (s : QCorConnection) : Prop where
  idle : s.corParser.state = .none
  replies : s.d.replies = ∅
  sendQueue : s.d.sendQueue = []

/-- The frame is in progress, whatever has become of its socket. -/
def unmark (frame : QCorFrame) : QCorFrame := { frame with state := .TransferingState }

/-- A private part whose frames are not marked. -/
def unmarked (d : QCorConnectionPrivate) : QCorConnectionPrivate :=
  { d with frame := d.frame.map unmark, delivered := d.delivered.map (Delivery.map unmark) }

/-- The marks of the frames do not matter for the parser. -/
theorem commutes_unmarked : CorParser.Commutes corSettings unmarked where
  onFrameBegin _ _ := rfl
  onFrameHeaderBegin _ _ := rfl
  onFrameHeaderEnd parser d := by
    change onParserFrameHeaderEnd parser (unmarked d) = unmarked (onParserFrameHeaderEnd parser d)
    unfold onParserFrameHeaderEnd unmarked
    cases d.frame <;> rfl
  onFrameBodyData parser data d := by
    change onParserFrameBodyData parser data (unmarked d) =
      unmarked (onParserFrameBodyData parser data d)
    unfold onParserFrameBodyData unmarked
    cases d.frame <;> rfl
  onFrameBodyDataEnd _ _ := rfl
  onFrameEnd parser d := by
    change onParserFrameEnd parser (unmarked d) = unmarked (onParserFrameEnd parser d)
    unfold onParserFrameEnd unmarked
    dsimp only
    split
    · simp [Delivery.map]
    · split
      · simp [Delivery.map]
      · simp [Delivery.map]

/-- A private part that goes on behind earlier deliveries, with its own queue. -/
def behind (delivered : List Delivery) (queue : List SendQueueItem) (current : Option SendQueueItem)
    (d : QCorConnectionPrivate) : QCorConnectionPrivate :=
  { d with sendQueue := queue, sendQueueCurrent := current, delivered := delivered ++ d.delivered }

/-- Earlier deliveries and the queue do not matter for the parser. -/
theorem commutes_behind (delivered : List Delivery) (queue : List SendQueueItem)
    (current : Option SendQueueItem) :
    CorParser.Commutes corSettings (behind delivered queue current) where
  onFrameBegin _ _ := rfl
  onFrameHeaderBegin _ _ := rfl
  onFrameHeaderEnd _ _ := rfl
  onFrameBodyData _ _ _ := rfl
  onFrameBodyDataEnd _ _ := rfl
  onFrameEnd parser d := by
    change onParserFrameEnd parser (behind delivered queue current d) =
      behind delivered queue current (onParserFrameEnd parser d)
    unfold onParserFrameEnd behind
    dsimp only
    split
    · simp
    · split
      · simp
      · simp

variable {f : QCorConnectionPrivate → QCorConnectionPrivate}

/-- A map that the callbacks commute with commutes with reading. -/
theorem consume_of_commutes (hf : CorParser.Commutes corSettings f)
    (s : CorParser × QCorConnectionPrivate) (input : List UInt8) :
    Resumable.consume (CorParser.iterate corSettings) CorParser.rank (Prod.map id f s) input =
      Prod.map (Prod.map id f) id
        (Resumable.consume (CorParser.iterate corSettings) CorParser.rank s input) :=
  Resumable.consume_map (CorParser.iterate_map hf) (fun _ _ => rfl) s input

/-- Such a map also commutes with the reads of a connection. -/
theorem onSocketReadyRead_of_commutes (hf : CorParser.Commutes corSettings f) {s : QCorConnection}
    (h : Ready s) (reads : List (List UInt8)) :
    ({ s with d := f s.d } : QCorConnection).onSocketReadyRead reads =
      { s.onSocketReadyRead reads with d := f (s.onSocketReadyRead reads).d } := by
  have hmapped := onSocketReadyRead_eq (h.with_d (f s.d)) reads
  have hcommutes := consume_of_commutes hf s.parserState (s.buffer ++ reads.flatten)
  have hplain : _ = Resumable.consume (CorParser.iterate corSettings) CorParser.rank s.parserState
    (s.buffer ++ reads.flatten) := onSocketReadyRead_eq h reads
  have heq := hmapped.trans hcommutes
  rw [← hplain] at heq
  simp only [Prod.map_apply, Prod.mk.injEq, id_eq] at heq
  exact QCorConnection.ext heq.1.2 heq.1.1 heq.2

/-- A connection does what another one does, behind earlier deliveries and with its own queue. -/
def Follows (delivered : List Delivery) (s t : PostingConnection) : Prop :=
  ∃ queue current, s.connection =
    { t.connection with d := behind delivered queue current t.connection.d }

variable {s s' t t' : PostingConnection} {delivered : List Delivery} {e : PostingConnection.Event}
  {out more : List Output}

/-- The other connection does the same in every step. -/
theorem Follows.step (h : Follows delivered s t) (hready : Ready t.connection)
    (hconnected : t.connection.d.socketConnected = true)
    (hs : PostingConnection.step s e = some (s', out))
    (ht : PostingConnection.step t e = some (t', more)) : Follows delivered s' t' := by
  obtain ⟨queue, current, heq⟩ := h
  have hopen : s.connection.d.socketConnected = true := by
    rw [heq]
    exact hconnected
  cases e with
  | sendRequest flags data =>
    obtain ⟨queue₁, current₁, hs'⟩ := PostingConnection.step_sendRequest hopen hs
    obtain ⟨queue₂, current₂, ht'⟩ := PostingConnection.step_sendRequest hconnected ht
    refine ⟨queue₁, current₁, ?_⟩
    rw [hs', ht', heq]
    rfl
  | sendResponse correlationId flags data =>
    obtain ⟨queue₁, current₁, hs'⟩ :=
      PostingConnection.step_send (fun _ _ => by simp) (fun _ => by simp) hs
    obtain ⟨queue₂, current₂, ht'⟩ :=
      PostingConnection.step_send (fun _ _ => by simp) (fun _ => by simp) ht
    refine ⟨queue₁, current₁, ?_⟩
    rw [hs', ht', heq]
    rfl
  | onCurrentSendItemDone =>
    obtain ⟨queue₁, current₁, hs'⟩ :=
      PostingConnection.step_send (fun _ _ => by simp) (fun _ => by simp) hs
    obtain ⟨queue₂, current₂, ht'⟩ :=
      PostingConnection.step_send (fun _ _ => by simp) (fun _ => by simp) ht
    refine ⟨queue₁, current₁, ?_⟩
    rw [hs', ht', heq]
    rfl
  | onSocketReadyRead reads =>
    refine ⟨queue, current, ?_⟩
    rw [PostingConnection.step_onSocketReadyRead hs, PostingConnection.step_onSocketReadyRead ht,
      heq]
    exact onSocketReadyRead_of_commutes (commutes_behind delivered queue current) hready reads

/-- The other connection does the same in every run. -/
theorem Follows.run (h : Follows delivered s t) {id : UInt32} {q : SingleFlight.Queue SendQueueItem}
    (hsending : PostingConnection.Sending id q t) {later : List PostingConnection.Event}
    (hs : Runs.run PostingConnection.step s later = some (s', out)) :
    ∃ t' more, Runs.run PostingConnection.step t later = some (t', more) ∧
      Follows delivered s' t' := by
  induction later generalizing s t id q out with
  | nil =>
    obtain ⟨rfl, -⟩ := Prod.mk.inj (Option.some.inj hs)
    exact ⟨t, [], rfl, h⟩
  | cons e later ih =>
    obtain ⟨s₁, first, rest, hstep, hrest, rfl⟩ := (Runs.run_cons_eq_some _).mp hs
    obtain ⟨t₁, begun, q₁, -, htstep, -, hnext, -⟩ := hsending.step e
    obtain ⟨t', more, htrun, hfollows⟩ :=
      ih (h.step hsending.ready hsending.connected hstep htstep) hnext hrest
    exact ⟨t', begun ++ more, (Runs.run_cons_eq_some _).mpr ⟨t₁, begun, more, htstep, htrun, rfl⟩,
      hfollows⟩

/-- A run of a connected connection takes what is queued and what is accepted, in this order. -/
theorem taken_of_run (hready : Ready s.connection) (hconnected : s.connection.d.socketConnected = true)
    {later : List PostingConnection.Event}
    (hs : Runs.run PostingConnection.step s later = some (s', out)) :
    ∃ taken left, taken ++ left = s.connection.d.sendQueue ++ SingleFlight.puts
      (PostingConnection.queueEvents s.connection.d.nextCorrelationId later) ∧
        written out = taken.flatMap write := by
  have hsending : PostingConnection.Sending s.connection.d.nextCorrelationId s.queueOf s :=
    ⟨hready, hconnected, rfl, rfl⟩
  obtain ⟨s₁, out₁, q, taken, hrun, hqueue, -, hwritten⟩ := hsending.run later
  obtain ⟨-, rfl⟩ := Prod.mk.inj (Option.some.inj (hrun.symm.trans hs))
  exact ⟨taken, q.waiting, SingleFlight.run_append hqueue, hwritten⟩

/-- What holds of a connection, whatever happens to its sockets. -/
structure Kept (s : PostingConnection) : Prop where
  ready : Ready s.connection
  busy : s.connection.d.sendQueueCurrent ≠ none → 0 < s.posted
  idle : s.connection.corParser.state = .none → s.connection.d.frame = none
  progress : ∃ tail,
    InProgress tail s.connection.corParser (unmarked s.connection.d) s.connection.buffer

/-- While an item is on its way, an event is posted for it. -/
theorem posted_doNextSendItem {d : QCorConnectionPrivate} {posted : ℕ}
    (h : d.sendQueueCurrent ≠ none → 0 < posted) :
    (doNextSendItem d).1.sendQueueCurrent ≠ none →
      0 < posted + PostingConnection.posts [.written (doNextSendItem d).2] := by
  unfold doNextSendItem
  split
  · exact fun hcurrent => Nat.lt_of_lt_of_le (h hcurrent) (Nat.le_add_right _ _)
  · split
    next item queue hcurrent hqueue =>
      have hsome : (write item).isEmpty = false := List.isEmpty_eq_false_iff.mpr (write_ne_nil item)
      simp [PostingConnection.posts, hsome]
    next => exact fun hcurrent => Nat.lt_of_lt_of_le (h hcurrent) (Nat.le_add_right _ _)

/-- An idle connection has no frame in progress, and it begins one when it gets something. -/
theorem idle_iterate {s s' : CorParser × QCorConnectionPrivate} {input rest : List UInt8}
    (hs : CorParser.Valid s) (hstep : CorParser.iterate corSettings s input = some (s', rest)) :
    s'.1.state = .none → s'.2.frame = none := by
  rcases CorParser.iterate_cases hs hstep with ⟨-, rfl, -⟩ | ⟨field, hfield, -, rfl, -⟩ |
    ⟨-, -, rfl, -⟩ | ⟨hdata, -, rfl, -⟩
  · exact fun hidle => nomatch hidle
  · intro hidle
    rw [CorParser.readField_fst] at hidle
    have hnext : field.nextState = .none := hidle
    rcases (CorParser.headerField_spec hfield).2.2 with hbody | ⟨-, hheader⟩
    · rw [hnext] at hbody
      exact nomatch hbody
    · rw [hnext] at hheader
      exact nomatch hheader
  · intro _
    change (onParserFrameEnd _ _).frame = none
    unfold onParserFrameEnd
    dsimp only
    split
    · rfl
    · split <;> rfl
  · intro hidle
    have hsame : s.1.state = .none := hidle
    rw [hdata] at hsame
    exact nomatch hsame

/-- What is sent keeps the connection. -/
theorem Kept.send (h : Kept s) {queue : List SendQueueItem} {current : Option SendQueueItem}
    {d : QCorConnectionPrivate} (hframe : d.frame = s.connection.d.frame)
    (hdelivered : d.delivered = s.connection.d.delivered) {s' : PostingConnection}
    (hs' : s'.connection = s.connection.withQueue d queue current)
    (hbusy : s'.connection.d.sendQueueCurrent ≠ none → 0 < s'.posted) : Kept s' := by
  obtain ⟨tail, hprogress⟩ := h.progress
  refine ⟨?_, hbusy, ?_, tail, ?_⟩
  · rw [hs']
    exact h.ready.with_d _
  · rw [hs']
    exact fun hidle => hframe.trans (h.idle hidle)
  · rw [hs']
    refine hprogress.other ?_ ?_
    · exact congrArg (Option.map unmark) hframe
    · exact congrArg (List.map (Delivery.map unmark)) hdelivered

/-- Reading keeps the connection. -/
theorem Kept.read (h : Kept s) (reads : List (List UInt8)) :
    Kept { s with connection := s.connection.onSocketReadyRead reads } := by
  obtain ⟨tail, hprogress⟩ := h.progress
  have hsending := onSocketReadyRead_sendState h.ready reads
  simp only [sendState, Prod.mk.injEq] at hsending
  refine ⟨h.ready.onSocketReadyRead reads, ?_, ?_, ?_⟩
  · change (s.connection.onSocketReadyRead reads).d.sendQueueCurrent ≠ none → _
    rw [hsending.2.2.2]
    exact h.busy
  · have heq := onSocketReadyRead_eq h.ready reads
    have hidle := Resumable.consume_invariant parser_lawful
      (P := fun s => s.1.state = .none → s.2.frame = none)
      (fun hs hstep _ => idle_iterate hs hstep) h.ready.valid h.idle
      (s.connection.buffer ++ reads.flatten)
    rw [Resumable.receive] at heq
    rw [← heq] at hidle
    exact hidle
  · have heq := onSocketReadyRead_eq (h.ready.with_d (unmarked s.connection.d)) reads
    rw [onSocketReadyRead_of_commutes commutes_unmarked h.ready] at heq
    obtain ⟨frames, rest, -, hrest, -⟩ := hprogress.read heq.symm
    exact ⟨rest, hrest⟩

/-- The frame in progress is marked when the socket is disconnected. -/
theorem Kept.unconnected (h : Kept s) (hs : unconnect s = some (s', out)) : Kept s' := by
  obtain ⟨rfl, -⟩ := Prod.mk.inj (Option.some.inj hs)
  obtain ⟨tail, hprogress⟩ := h.progress
  refine ⟨h.ready.with_d _, fun hbusy => ?_, fun hidle => ?_, tail, hprogress.other ?_ rfl⟩
  · exact Nat.lt_of_lt_of_le (h.busy hbusy) (Nat.le_add_right _ _)
  · change Option.map _ s.connection.d.frame = none
    rw [h.idle hidle]
    rfl
  · change Option.map unmark (Option.map _ s.connection.d.frame) =
      Option.map unmark s.connection.d.frame
    rw [Option.map_map]
    refine congrArg (fun f => Option.map f s.connection.d.frame) (funext fun frame => ?_)
    change unmark (if _ then _ else _) = _
    split <;> rfl

/-- The connection is the same when the new socket is connected. -/
theorem Kept.established (h : Kept s) : Kept (establish s) := by
  obtain ⟨tail, hprogress⟩ := h.progress
  exact ⟨h.ready.with_d _, h.busy, h.idle, tail, hprogress.other rfl rfl⟩

/-- An item that is accepted keeps the connection. -/
theorem Kept.put (h : Kept s) {d : QCorConnectionPrivate} (hframe : d.frame = s.connection.d.frame)
    (hdelivered : d.delivered = s.connection.d.delivered)
    (hcurrent : d.sendQueueCurrent = s.connection.d.sendQueueCurrent) {item : SendQueueItem}
    (hs : PostingConnection.posting s.posted (some (sendItem s.connection d item)) = some (s', out)) :
    Kept s' := by
  obtain ⟨rfl, -⟩ := Prod.mk.inj (Option.some.inj hs)
  obtain ⟨queue, current, hnext⟩ := PostingConnection.exists_doNextSendItem (d.enqueue item)
  refine h.send hframe hdelivered (congrArg (fun d => { s.connection with d }) hnext) ?_
  have hbusy : (d.enqueue item).sendQueueCurrent ≠ none → 0 < s.posted := by
    change d.sendQueueCurrent ≠ none → _
    rw [hcurrent]
    exact h.busy
  exact posted_doNextSendItem hbusy

/-- Whatever is done with a connection while its socket is the same keeps it. -/
theorem Kept.use (h : Kept s) (hs : PostingConnection.step s e = some (s', out)) : Kept s' := by
  cases e with
  | sendRequest flags data =>
    rw [PostingConnection.step, QCorConnection.step] at hs
    split at hs
    · obtain ⟨rfl, -⟩ := Prod.mk.inj (Option.some.inj hs)
      exact h
    · refine h.put ?_ ?_ ?_ hs
      · rfl
      · rfl
      · rfl
  | sendResponse correlationId flags data =>
    rw [PostingConnection.step, QCorConnection.step] at hs
    split at hs
    · obtain ⟨rfl, -⟩ := Prod.mk.inj (Option.some.inj hs)
      exact h
    · exact h.put rfl rfl rfl hs
  | onCurrentSendItemDone =>
    by_cases hnone : s.posted = 0
    · rw [PostingConnection.step, if_pos hnone] at hs
      obtain ⟨rfl, -⟩ := Prod.mk.inj (Option.some.inj hs)
      exact h
    · rw [PostingConnection.step, if_neg hnone] at hs
      obtain ⟨rfl, -⟩ := Prod.mk.inj (Option.some.inj hs)
      obtain ⟨queue, current, hnext⟩ :=
        PostingConnection.exists_doNextSendItem { s.connection.d with sendQueueCurrent := none }
      refine h.send rfl rfl (congrArg (fun d => { s.connection with d }) hnext) ?_
      exact posted_doNextSendItem fun hcurrent => absurd rfl hcurrent
  | onSocketReadyRead reads =>
    rw [PostingConnection.step_onSocketReadyRead hs]
    exact h.read reads

/-- Whatever happens to a connection and its sockets keeps it. -/
theorem Kept.step {s s' : ReconnectingConnection} {e : Event} (h : Kept s.posting)
    (hs : step s e = some (s', out)) : Kept s'.posting := by
  cases e with
  | use e =>
    rw [ReconnectingConnection.step] at hs
    split at hs
    · exact nomatch hs
    · obtain ⟨done, hdone, heq⟩ := Option.map_eq_some_iff.mp hs
      obtain ⟨rfl, -⟩ := Prod.mk.inj heq
      exact h.use hdone
  | disconnected =>
    rw [ReconnectingConnection.step] at hs
    obtain ⟨done, hdone, heq⟩ := Option.map_eq_some_iff.mp hs
    obtain ⟨rfl, -⟩ := Prod.mk.inj heq
    exact h.unconnected hdone
  | connectTo =>
    rw [ReconnectingConnection.step] at hs
    split at hs
    · obtain ⟨done, hdone, heq⟩ := Option.map_eq_some_iff.mp hs
      obtain ⟨rfl, -⟩ := Prod.mk.inj heq
      exact h.unconnected hdone
    · obtain ⟨rfl, -⟩ := Prod.mk.inj (Option.some.inj hs)
      exact h
  | connected =>
    rw [ReconnectingConnection.step] at hs
    split at hs
    · obtain ⟨rfl, -⟩ := Prod.mk.inj (Option.some.inj hs)
      exact h.established
    · exact nomatch hs

/-- A connection that was used in any way is kept. -/
theorem kept_of_reachable {s : ReconnectingConnection} (h : Runs.Reachable step {} s) :
    Kept s.posting := by
  refine h.invariant (P := fun s => Kept s.posting) ?_ fun _ _ _ _ h hstep => h.step hstep
  exact ⟨ready_of_idle {}, fun hbusy => absurd rfl hbusy, fun _ => rfl, [], .init rfl⟩

/-- Between two frames nothing is left of what was read. -/
theorem parser_of_idle {s : QCorConnection} (h : Ready s) (hidle : s.corParser.state = .none) :
    s.corParser = {} ∧ s.buffer = [] := by
  refine ⟨h.valid.of_none hidle, h.waits.resolve_right ?_⟩
  rintro ⟨field, hfield, -⟩
  rw [hidle] at hfield
  exact nomatch hfield

/-- A connection whose parser is between two frames, without replies and queue, starts clean. -/
theorem Kept.startsClean (h : Kept s) (hclean : Clean s.connection) : StartsClean (establish s) := by
  obtain ⟨hparser, hbuffer⟩ := parser_of_idle h.ready hclean.idle
  intro later t out hrun
  constructor
  · have hfollows : Follows s.connection.d.delivered (establish s) (fresh s) := by
      refine ⟨s.connection.d.sendQueue, s.connection.d.sendQueueCurrent, ?_⟩
      refine QCorConnection.ext ?_ hparser hbuffer
      rw [establish, fresh, behind, List.append_nil, ← h.idle hclean.idle, ← hclean.replies]
    have hfresh : PostingConnection.Sending s.connection.d.nextCorrelationId {} (fresh s) :=
      ⟨ready_of_idle _, rfl, rfl, rfl⟩
    obtain ⟨u, more, hu, queue, current, hend⟩ := hfollows.run hfresh hrun
    exact ⟨u, more, hu, congrArg (fun c => c.d.delivered) hend⟩
  · have hready : Ready (establish s).connection := h.ready.with_d _
    obtain ⟨taken, left, hall, hwritten⟩ := taken_of_run hready rfl hrun
    refine ⟨taken, ⟨left, ?_⟩, hwritten⟩
    have hqueue : (establish s).connection.d.sendQueue = [] := hclean.sendQueue
    rw [hall, hqueue, List.nil_append]

/-- A request whose bytes look like a header at no other place. -/
def probe : WireFrame where
  version := 0x0202
  type := COR_FRAME_TYPE_REQUEST
  flags := 2
  correlationId := 0x02020202
  data := [0]
  size := by decide

/-- The end of a header with its body of one byte. -/
theorem drop_bytes {frame : WireFrame} (hdata : frame.data = [0]) :
    frame.bytes.drop 9 = [0, 0, 0, 1, 0] := by
  have hhead : (writeUInt16 frame.version ++ (writeUInt16 frame.type ++ (writeUInt8 frame.flags ++
      writeUInt32 frame.correlationId))).length = 9 := by
    simp [writeUInt16, writeUInt8, writeUInt32]
  have hbytes : frame.bytes = (writeUInt16 frame.version ++ (writeUInt16 frame.type ++
      (writeUInt8 frame.flags ++ writeUInt32 frame.correlationId))) ++ [0, 0, 0, 1, 0] := by
    rw [WireFrame.bytes, hdata]
    simp only [List.append_assoc]
    rfl
  rw [hbytes, List.drop_left' hhead]

/-- Behind a frame that has not ended, another frame is read. -/
theorem probe_behind {tail rest : List UInt8} (h : Unfinished tail) (hsome : tail ≠ [])
    {frame : WireFrame} (heq : tail ++ probe.bytes = frame.bytes ++ rest) : frame.data ≠ [0] := by
  intro hdata
  have hlength : frame.bytes.length = 14 := by rw [frame.bytes_length, hdata]; rfl
  have hpos := List.length_pos_iff.mpr hsome
  have hshort : tail.length < 14 := by
    rcases h.length_le heq with hlt | hwhole
    · omega
    · have hnone := h frame [] (by rw [hwhole, List.append_nil])
      rw [hdata] at hnone
      exact nomatch hnone
  have hdrop : (tail ++ probe.bytes).drop 9 = [0, 0, 0, 1, 0] ++ rest := by
    rw [heq, List.drop_append_of_le_length (by omega), drop_bytes hdata]
  by_cases hheader : tail.length = 13
  · have hbyte := congrArg (fun bytes => bytes[4]?) hdrop
    simp only [List.getElem?_drop] at hbyte
    rw [List.getElem?_append_right (by omega), hheader] at hbyte
    have hfirst : probe.bytes[9 + 4 - 13]? = some 0 := hbyte
    exact absurd hfirst (by decide)
  · have hbyte := congrArg (fun bytes => bytes[3]?) hdrop
    simp only [List.getElem?_drop] at hbyte
    rw [List.getElem?_append_right (by omega)] at hbyte
    have hnever : ∀ i < 12, probe.bytes[i]? ≠ some 1 := by decide
    exact hnever (9 + 3 - tail.length) (by omega) hbyte

/-- A run of one read. -/
theorem run_read (s : PostingConnection) (bytes : List UInt8) :
    Runs.run PostingConnection.step s [.onSocketReadyRead [bytes]] =
      some ({ s with connection := s.connection.onSocketReadyRead [bytes] }, []) := rfl

/-- What a connection that starts clean delivers when it reads a frame. -/
theorem StartsClean.of_frame (h : StartsClean s) (frame : WireFrame) (hsome : frame.data ≠ []) :
    (s.connection.onSocketReadyRead [frame.bytes]).d.delivered =
      s.connection.d.delivered ++ (receiveFrame (fresh s).connection.d frame).delivered := by
  obtain ⟨⟨u, more, hu, hdelivered⟩, -⟩ := h _ _ _ (run_read s frame.bytes)
  obtain ⟨rfl, -⟩ := Prod.mk.inj (Option.some.inj (hu.symm.trans (run_read (fresh s) frame.bytes)))
  rw [← onSocketReadyRead_frame (s := (fresh s).connection) rfl rfl frame hsome]
  exact hdelivered

/-- The parser of a connection that starts clean is between two frames. -/
theorem Kept.idle_of_startsClean (h : Kept s) (hclean : StartsClean s) :
    s.connection.corParser.state = .none := by
  obtain ⟨tail, hprogress⟩ := h.progress
  by_cases hempty : tail = []
  · have hparsed := hprogress.parsed
    rw [hempty, consumeIdle, Resumable.consume_nil] at hparsed
    have hparser := congrArg (fun x => x.1.1) hparsed
    change ({} : CorParser) = s.connection.corParser at hparser
    rw [← hparser]
  · exfalso
    have hread := onSocketReadyRead_eq (h.ready.with_d (unmarked s.connection.d)) [probe.bytes]
    rw [onSocketReadyRead_of_commutes commutes_unmarked h.ready] at hread
    obtain ⟨frames, rest, hframes, -, hreceived⟩ := hprogress.read hread.symm
    have hprobe : (s.connection.onSocketReadyRead [probe.bytes]).d.delivered =
        s.connection.d.delivered ++ [.newIncomingRequest (some probe.toQCorFrame)] :=
      hclean.of_frame probe (by decide)
    have hdelivered := congrArg (fun d => d.delivered.map Delivery.frame) hreceived
    dsimp only at hdelivered
    rw [delivered_foldl_receiveFrame] at hdelivered
    change ((s.connection.onSocketReadyRead [probe.bytes]).d.delivered.map
      (Delivery.map unmark)).map Delivery.frame = _ at hdelivered
    rw [hprobe, List.map_append, List.map_append] at hdelivered
    have hone := List.append_cancel_left hdelivered
    cases frames with
    | nil => exact absurd hone (List.cons_ne_nil _ _)
    | cons frame frames =>
      rw [List.flatten_singleton, List.flatMap_cons, List.append_assoc] at hframes
      refine probe_behind hprogress.unfinished hempty hframes ?_
      have hsame : probe.toQCorFrame = frame.toQCorFrame := Option.some.inj (List.cons.inj hone).1
      exact (congrArg QCorFrame.data hsame).symm

/-- A response. -/
def answer (correlationId : UInt32) : WireFrame where
  version := 1
  type := COR_FRAME_TYPE_RESPONSE
  flags := 0
  correlationId
  data := [0]
  size := by decide

/-- No reply waits in a connection that starts clean. -/
theorem Kept.replies_of_startsClean (h : Kept s) (hclean : StartsClean s) :
    s.connection.d.replies = ∅ := by
  have hidle := h.idle_of_startsClean hclean
  refine ExtTreeSet.ext_mem fun correlationId => ⟨fun hmem => ?_, fun hmem => ?_⟩
  · obtain ⟨hparser, hbuffer⟩ := parser_of_idle h.ready hidle
    have hsome : (answer correlationId).data ≠ [] := List.cons_ne_nil _ _
    have hresponse : ¬ (some (answer correlationId).header).bind CorFrame.type =
        some COR_FRAME_TYPE_REQUEST := fun hrequest => by
      have htype : COR_FRAME_TYPE_RESPONSE = COR_FRAME_TYPE_REQUEST := Option.some.inj hrequest
      exact absurd htype (by decide)
    have hanswer := hclean.of_frame (answer correlationId) hsome
    have hold : (receiveFrame s.connection.d (answer correlationId)).delivered =
        s.connection.d.delivered ++
          [.finished correlationId (some (answer correlationId).toQCorFrame)] := by
      unfold receiveFrame onParserFrameEnd
      dsimp only
      rw [if_neg hresponse, if_pos ⟨rfl, hmem⟩]
      rfl
    have hnew : (receiveFrame (fresh s).connection.d (answer correlationId)).delivered =
        [.dropped (some (answer correlationId).toQCorFrame)] := by
      unfold receiveFrame onParserFrameEnd
      dsimp only
      rw [if_neg hresponse, if_neg fun hmem => absurd hmem.2 ExtTreeSet.not_mem_empty]
      rfl
    rw [onSocketReadyRead_frame hparser hbuffer _ hsome, hold, hnew] at hanswer
    exact nomatch List.append_cancel_left hanswer
  · exact absurd hmem ExtTreeSet.not_mem_empty

/-- The first item of the queue is written when nothing is on its way. -/
theorem doNextSendItem_cons {d : QCorConnectionPrivate} (hconnected : d.socketConnected = true)
    (hcurrent : d.sendQueueCurrent = none) {item : SendQueueItem} {queue : List SendQueueItem}
    (hqueue : d.sendQueue = item :: queue) : (doNextSendItem d).2 = write item := by
  rw [doNextSendItem, if_neg (by rw [hconnected]; decide), hcurrent, hqueue]

/-- An item that was queued before is written when the next response is accepted or the last item is done. -/
theorem exists_written (h : Kept s) (hconnected : s.connection.d.socketConnected = true)
    {item : SendQueueItem} {queue : List SendQueueItem}
    (hqueue : s.connection.d.sendQueue = item :: queue) (data : List UInt8) :
    ∃ later t out, Runs.run PostingConnection.step s later = some (t, out) ∧
      written out = write item ∧ SingleFlight.puts (PostingConnection.queueEvents
        s.connection.d.nextCorrelationId later) <+: [newItem COR_FRAME_TYPE_RESPONSE 0 0 data] := by
  by_cases hnone : s.posted = 0
  · have hcurrent : s.connection.d.sendQueueCurrent = none := by
      by_contra hcurrent
      have := h.busy hcurrent
      omega
    have hstep : PostingConnection.step s (.sendResponse 0 0 data) = PostingConnection.posting s.posted
        (some (sendItem s.connection s.connection.d (newItem COR_FRAME_TYPE_RESPONSE 0 0 data))) := by
      rw [PostingConnection.step, QCorConnection.step, if_neg (by rw [hconnected]; decide)]
    refine ⟨[.sendResponse 0 0 data], _, _, by rw [Runs.run, hstep]; rfl, ?_, List.prefix_refl _⟩
    have hbytes : (doNextSendItem (s.connection.d.enqueue
        (newItem COR_FRAME_TYPE_RESPONSE 0 0 data))).2 = write item :=
      doNextSendItem_cons (d := s.connection.d.enqueue (newItem COR_FRAME_TYPE_RESPONSE 0 0 data))
        hconnected hcurrent (congrArg (· ++ [newItem COR_FRAME_TYPE_RESPONSE 0 0 data]) hqueue)
    simp [written, sendItem, hbytes]
  · have hstep : PostingConnection.step s .onCurrentSendItemDone =
        PostingConnection.posting (s.posted - 1) (QCorConnection.step s.connection .onCurrentSendItemDone) := by
      rw [PostingConnection.step, if_neg hnone]
    refine ⟨[.onCurrentSendItemDone], _, _, by rw [Runs.run, hstep]; rfl, ?_, List.nil_prefix⟩
    have hbytes : (doNextSendItem { s.connection.d with sendQueueCurrent := none }).2 = write item :=
      doNextSendItem_cons (d := { s.connection.d with sendQueueCurrent := none }) hconnected rfl
        hqueue
    simp [written, hbytes]

/-- Nothing is queued in a connection that starts clean. -/
theorem Kept.sendQueue_of_startsClean (h : Kept s) (hconnected : s.connection.d.socketConnected = true)
    (hclean : StartsClean s) : s.connection.d.sendQueue = [] := by
  by_contra hsome
  obtain ⟨item, queue, hqueue⟩ := List.exists_cons_of_ne_nil hsome
  obtain ⟨data, hother⟩ : ∃ data, write item ≠ write (newItem COR_FRAME_TYPE_RESPONSE 0 0 data) := by
    by_cases hempty : write item = write (newItem COR_FRAME_TYPE_RESPONSE 0 0 [])
    · exact ⟨[0], by rw [hempty]; decide⟩
    · exact ⟨[], hempty⟩
  obtain ⟨later, t, out, hrun, hwritten, hputs⟩ := exists_written h hconnected hqueue data
  obtain ⟨-, sent, hsent, heq⟩ := hclean later t out hrun
  rw [hwritten] at heq
  rcases List.prefix_cons_iff.mp (hsent.trans hputs) with rfl | ⟨more, rfl, hmore⟩
  · exact write_ne_nil item heq
  · obtain rfl := List.prefix_nil.mp hmore
    exact hother (heq.trans (List.append_nil _))

/-- A new socket starts clean if and only if the parser is between two frames, no reply waits and nothing is
queued when it is connected. -/
theorem startsClean_iff {s s' : ReconnectingConnection} {out : List Output}
    (hs : Runs.Reachable step {} s) (hstep : step s .connected = some (s', out)) :
    StartsClean s'.posting ↔ Clean s.posting.connection := by
  have hkept := kept_of_reachable hs
  have heq : s'.posting = establish s.posting := by
    rw [step] at hstep
    split at hstep
    · obtain ⟨rfl, -⟩ := Prod.mk.inj (Option.some.inj hstep)
      rfl
    · exact nomatch hstep
  rw [heq]
  constructor
  · intro hclean
    have hnew := hkept.established
    exact ⟨hnew.idle_of_startsClean hclean, hnew.replies_of_startsClean hclean,
      hnew.sendQueue_of_startsClean rfl hclean⟩
  · exact hkept.startsClean

/-- A socket is disconnected inside of a header, and there is a new one. -/
def cutHeader : List Event :=
  [.use (.onSocketReadyRead [[0, 1, 0]]), .disconnected, .connectTo]

/-- The rest of the header is taken from the new socket. -/
theorem startsClean_cutHeader :
    ¬ ∀ s s' out, Runs.Reachable step {} s → step s .connected = some (s', out) →
      StartsClean s'.posting := by
  intro h
  have hclean := h _ _ _ ⟨cutHeader, _, rfl⟩ rfl
  have hfrom := hclean.of_frame probe (by decide)
  have hcount := congrArg List.length hfrom
  exact absurd hcount (by decide +kernel)

/-- A request is answered before the socket is disconnected, and there is a new one. -/
def answered : List Event :=
  [.use (.sendRequest 0 [1]), .use .onCurrentSendItemDone,
    .use (.onSocketReadyRead [(answer 1).bytes]), .disconnected, .connectTo]

/-- The new socket starts clean behind an answer. -/
theorem startsClean_iff_answered : ∃ s s' out, Runs.run step {} answered = some (s, out) ∧
    step s .connected = some (s', []) ∧ StartsClean s'.posting := by
  have hfacts : (Runs.run step {} answered).map (fun done => (done.1.posting.connection.corParser,
      done.1.posting.connection.d.replies.isEmpty, done.1.posting.connection.d.sendQueue.length,
      done.1.connecting)) = some ({}, true, 0, true) := by decide +kernel
  obtain ⟨⟨s, out⟩, hrun, hs⟩ := Option.map_eq_some_iff.mp hfacts
  simp only [Prod.mk.injEq] at hs
  have hstep : step s .connected = some ({ posting := establish s.posting }, []) := if_pos hs.2.2.2
  refine ⟨s, _, out, hrun, hstep, (startsClean_iff ⟨answered, out, hrun⟩ hstep).mpr ⟨?_, ?_, ?_⟩⟩
  · rw [hs.1]
  · exact ExtTreeSet.isEmpty_iff.mp hs.2.1
  · exact List.eq_nil_of_length_eq_zero hs.2.2.1

end ReconnectingConnection

end Ts3Video
