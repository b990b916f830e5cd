import Ts3Video.Cor.Connection
import Ts3Video.Cor.Resume

/-!
# Reading does not depend on how the stream is cut

Between two reads the parser of a connection waits: either everything was taken, or the beginning
of a header field is left in the buffer. From such a state on, the reads of a stream lead where
one read of all of it leads.
-/

namespace Ts3Video.QCorConnection

open QCorConnectionPrivate

/-- The parser together with the object of its callbacks. -/
abbrev parserState (s : QCorConnection) : CorParser × QCorConnectionPrivate := (s.corParser, s.d)

/-- A connection between two reads. -/
structure Ready (s : QCorConnection) : Prop where
  valid : CorParser.Valid s.parserState
  waits : s.buffer = [] ∨
    ∃ field, CorParser.headerField s.corParser.state = some field ∧
      s.buffer.length < field.fieldSize

/-- The connection collects a body in pieces. -/
theorem appendsBody_corSettings : CorParser.AppendsBody corSettings := by
  intro parser parser' d first second
  simp only [CorParser.executeDataCallback, corSettings, Option.elim_some, onParserFrameBodyData]
  cases d.frame with
  | none => rfl
  | some frame => simp

/-- The loop of the parser with the callbacks of a connection. -/
theorem parser_lawful :
    Resumable.Lawful (CorParser.iterate corSettings) CorParser.Valid CorParser.rank :=
  CorParser.iterate_lawful appendsBody_corSettings

/-- A new connection has read nothing. -/
theorem ready_of_idle (d : QCorConnectionPrivate) : Ready { d } := ⟨⟨rfl, rfl⟩, Or.inl rfl⟩

/-- The parser gets no further on its own. -/
theorem Ready.settled {s : QCorConnection} (h : Ready s) :
    Resumable.Settled (CorParser.iterate corSettings) CorParser.rank (s.parserState, s.buffer) := by
  rcases h.waits with hempty | ⟨field, hfield, hcut⟩
  · rw [Resumable.Settled, hempty, Resumable.consume_nil]
  · exact Resumable.consume_of_none (CorParser.iterate_of_cut_field hfield hcut)

/-- A read lets the parser consume what was left and what is new. -/
theorem readAvailable_eq {s : QCorConnection} (h : Ready s) (bytes : List UInt8) :
    ((s.readAvailable bytes).parserState, (s.readAvailable bytes).buffer) =
      Resumable.receive (CorParser.iterate corSettings) CorParser.rank (s.parserState, s.buffer)
        bytes :=
  CorParser.readPiece_eq (x := (s.parserState, s.buffer)) appendsBody_corSettings h.valid bytes

/-- A connection is ready again after a read. -/
theorem Ready.readAvailable {s : QCorConnection} (h : Ready s) (bytes : List UInt8) :
    Ready (s.readAvailable bytes) := by
  have heq := readAvailable_eq h bytes
  rw [Resumable.receive, Prod.mk.injEq] at heq
  have hvalid := Resumable.consume_valid parser_lawful h.valid (s.buffer ++ bytes)
  refine ⟨heq.1 ▸ hvalid, ?_⟩
  rw [heq.2]
  refine (Resumable.consume_stuck parser_lawful h.valid (s.buffer ++ bytes)).imp_right ?_
  intro hstuck
  have hstate : (s.readAvailable bytes).corParser.state =
      (Resumable.consume (CorParser.iterate corSettings) CorParser.rank s.parserState
        (s.buffer ++ bytes)).1.1.state := by rw [← heq.1]
  rw [hstate]
  exact CorParser.iterate_eq_none hvalid hstuck

/-- Several reads let the parser receive their bytes one after the other. -/
theorem onSocketReadyRead_eq {s : QCorConnection} (h : Ready s) (reads : List (List UInt8)) :
    ((s.onSocketReadyRead reads).parserState, (s.onSocketReadyRead reads).buffer) =
      Resumable.receive (CorParser.iterate corSettings) CorParser.rank (s.parserState, s.buffer)
        reads.flatten := by
  rw [← Resumable.foldl_receive parser_lawful h.valid h.settled]
  induction reads generalizing s with
  | nil => rfl
  | cons bytes reads ih =>
    change ((onSocketReadyRead (s.readAvailable bytes) reads).parserState,
      (onSocketReadyRead (s.readAvailable bytes) reads).buffer) = _
    rw [ih (h.readAvailable bytes), readAvailable_eq h, List.foldl_cons]

/-- A connection is ready again after several reads. -/
theorem Ready.onSocketReadyRead {s : QCorConnection} (h : Ready s) (reads : List (List UInt8)) :
    Ready (s.onSocketReadyRead reads) := by
  induction reads generalizing s with
  | nil => exact h
  | cons bytes reads ih => exact ih (h.readAvailable bytes)

/-- What the application does with the connection leaves its parser alone. -/
theorem Ready.with_d {s : QCorConnection} (h : Ready s) (d : QCorConnectionPrivate) :
    Ready { s with d } := ⟨h.valid, h.waits⟩

/-- Whatever happens to a connection, it is ready for the next read. -/
theorem ready_step {s s' : QCorConnection} {e : Event} {out : List Output} (h : Ready s)
    (hstep : step s e = some (s', out)) : Ready s' := by
  cases e with
  | sendRequest flags data =>
    simp only [step, sendItem] at hstep
    split at hstep
    · obtain ⟨rfl, -⟩ := Prod.mk.inj (Option.some.inj hstep)
      exact h
    · obtain ⟨rfl, -⟩ := Prod.mk.inj (Option.some.inj hstep)
      exact h.with_d _
  | sendResponse correlationId flags data =>
    simp only [step, sendItem] at hstep
    split at hstep
    · obtain ⟨rfl, -⟩ := Prod.mk.inj (Option.some.inj hstep)
      exact h
    · obtain ⟨rfl, -⟩ := Prod.mk.inj (Option.some.inj hstep)
      exact h.with_d _
  | onCurrentSendItemDone =>
    obtain ⟨rfl, -⟩ := Prod.mk.inj (Option.some.inj hstep)
    exact h.with_d _
  | onSocketReadyRead reads =>
    obtain ⟨rfl, -⟩ := Prod.mk.inj (Option.some.inj hstep)
    exact h.onSocketReadyRead reads
  | disconnected =>
    obtain ⟨rfl, -⟩ := Prod.mk.inj (Option.some.inj hstep)
    exact h.with_d _

/-- A connection that was used in any way is ready for the next read. -/
theorem ready_of_reachable {s : QCorConnection} (h : Runs.Reachable step {} s) : Ready s :=
  h.invariant (ready_of_idle {}) fun _ _ _ _ => ready_step

/-- In every state of a connection, two ways of cutting a stream into reads deliver the same frames
and leave the same parser, the same collected body and the same unconsumed bytes. -/
theorem reads_independent_of_chunking {s : QCorConnection} (hs : Runs.Reachable step {} s)
    {first second : List (List UInt8)} (h : first.flatten = second.flatten) :
    s.onSocketReadyRead first = s.onSocketReadyRead second := by
  have hready := ready_of_reachable hs
  have heq : ((s.onSocketReadyRead first).parserState, (s.onSocketReadyRead first).buffer) =
      ((s.onSocketReadyRead second).parserState, (s.onSocketReadyRead second).buffer) := by
    rw [onSocketReadyRead_eq hready, onSocketReadyRead_eq hready, h]
  simp only [Prod.mk.injEq] at heq
  exact QCorConnection.ext heq.1.2 heq.1.1 heq.2

/-- A request of four bytes is cut inside of its header and inside of its body. -/
theorem reads_independent_of_chunking_twoCuts :
    let bytes := write (newItem COR_FRAME_TYPE_REQUEST 1 0 [1, 2, 3, 4])
    ({} : QCorConnection).onSocketReadyRead [bytes.take 3, (bytes.drop 3).take 12, bytes.drop 15] =
      ({} : QCorConnection).onSocketReadyRead [bytes] :=
  reads_independent_of_chunking (Runs.Reachable.refl _) (by decide)

end Ts3Video.QCorConnection
