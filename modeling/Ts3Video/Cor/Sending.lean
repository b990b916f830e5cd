import Ts3Video.Cor.Chunking

/-!
# What a connection writes

A connection accepts frames while its socket is connected and writes them in order. What is not
written yet is in its queue.
-/

namespace Ts3Video.QCorConnection

open QCorConnectionPrivate

/-- The items that were accepted for sending, in order. -/
def accepted (out : List Output) : List SendQueueItem :=
  out.filterMap fun
    | .accepted item => some item
    | .written _ => none

/-- The bytes that were written to the socket, in order. -/
def written (out : List Output) : List UInt8 :=
  out.flatMap fun
    | .accepted _ => []
    | .written bytes => bytes

@[simp] theorem accepted_append (first second : List Output) :
    accepted (first ++ second) = accepted first ++ accepted second := List.filterMap_append

@[simp] theorem written_append (first second : List Output) :
    written (first ++ second) = written first ++ written second := List.flatMap_append

/-- Writing the next item moves it from the queue to the socket. -/
theorem doNextSendItem_written (d : QCorConnectionPrivate) :
    (doNextSendItem d).2 ++ (doNextSendItem d).1.sendQueue.flatMap write =
      d.sendQueue.flatMap write := by
  unfold doNextSendItem
  split
  · rfl
  · split
    next item sendQueue hcurrent hqueue => rw [hqueue, List.flatMap_cons]
    next => rfl

/-- The parts of a connection that have to do with sending. -/
def sendState (d : QCorConnectionPrivate) :
    Bool × UInt32 × List SendQueueItem × Option SendQueueItem :=
  (d.socketConnected, d.nextCorrelationId, d.sendQueue, d.sendQueueCurrent)

/-- The parser leaves the sending side alone. -/
theorem untouched_sendState : CorParser.Untouched corSettings sendState where
  onFrameBegin _ _ := rfl
  onFrameHeaderBegin _ _ := rfl
  onFrameHeaderEnd _ _ := rfl
  onFrameBodyData _ _ _ := rfl
  onFrameBodyDataEnd _ _ := rfl
  onFrameEnd parser d := by
    change sendState (onParserFrameEnd parser d) = _
    simp only [onParserFrameEnd]
    split
    · rfl
    · split <;> rfl

/-- Reading leaves the sending side alone. -/
theorem onSocketReadyRead_sendState {s : QCorConnection} (h : Ready s)
    (reads : List (List UInt8)) : sendState (s.onSocketReadyRead reads).d = sendState s.d := by
  have heq := onSocketReadyRead_eq h reads
  rw [Resumable.receive, Prod.mk.injEq] at heq
  have hsame := Resumable.consume_invariant parser_lawful
    (P := fun t => sendState t.2 = sendState s.d)
    (fun hs hstep hqueue => (CorParser.untouched_iterate untouched_sendState hs hstep).trans hqueue)
    h.valid rfl (s.buffer ++ reads.flatten)
  rw [← heq.1] at hsame
  exact hsame

/-- Reading leaves the queue alone. -/
theorem onSocketReadyRead_sendQueue {s : QCorConnection} (h : Ready s)
    (reads : List (List UInt8)) : (s.onSocketReadyRead reads).d.sendQueue = s.d.sendQueue :=
  congrArg (fun sending => sending.2.2.1) (onSocketReadyRead_sendState h reads)

/-- An item that was accepted is a request or a response. -/
def IsFrame (item : SendQueueItem) : Prop :=
  ∃ type correlationId flags data,
    (type = COR_FRAME_TYPE_REQUEST ∨ type = COR_FRAME_TYPE_RESPONSE) ∧
      item = newItem type correlationId flags data

/-- An item that is accepted is written now, or later out of the queue. -/
theorem sendItem_written {s s' : QCorConnection} {d : QCorConnectionPrivate}
    {item : SendQueueItem} {out : List Output} (hitem : IsFrame item)
    (hsend : sendItem s d item = (s', out)) :
    (∀ item ∈ accepted out, IsFrame item) ∧
      written out ++ s'.d.sendQueue.flatMap write =
        d.sendQueue.flatMap write ++ (accepted out).flatMap write := by
  obtain ⟨rfl, rfl⟩ := Prod.mk.inj hsend
  have h := doNextSendItem_written (d.enqueue item)
  have hqueue : (d.enqueue item).sendQueue = d.sendQueue ++ [item] := rfl
  rw [hqueue, List.flatMap_append] at h
  constructor
  · intro item hmem
    rw [List.mem_singleton.mp hmem]
    exact hitem
  · change [] ++ ((doNextSendItem (d.enqueue item)).2 ++ []) ++ _ = _
    rw [List.nil_append, List.append_nil]
    exact h

/-- What a step accepts is a frame, and it is written now or later out of the queue. -/
theorem step_written {s s' : QCorConnection} {e : Event} {out : List Output} (h : Ready s)
    (hstep : step s e = some (s', out)) :
    (∀ item ∈ accepted out, IsFrame item) ∧
      written out ++ s'.d.sendQueue.flatMap write =
        s.d.sendQueue.flatMap write ++ (accepted out).flatMap write := by
  have hnothing : (∀ item ∈ accepted [], IsFrame item) ∧
      written [] ++ s.d.sendQueue.flatMap write =
        s.d.sendQueue.flatMap write ++ (accepted []).flatMap write :=
    ⟨fun _ hmem => absurd hmem List.not_mem_nil, (List.append_nil _).symm⟩
  cases e with
  | sendRequest flags data =>
    simp only [step] at hstep
    split at hstep
    · obtain ⟨rfl, rfl⟩ := Prod.mk.inj (Option.some.inj hstep)
      exact hnothing
    · have hsent := sendItem_written ⟨_, _, flags, data, Or.inl rfl, rfl⟩ (Option.some.inj hstep)
      exact hsent
  | sendResponse correlationId flags data =>
    simp only [step] at hstep
    split at hstep
    · obtain ⟨rfl, rfl⟩ := Prod.mk.inj (Option.some.inj hstep)
      exact hnothing
    · exact sendItem_written ⟨_, _, flags, data, Or.inr rfl, rfl⟩ (Option.some.inj hstep)
  | onCurrentSendItemDone =>
    obtain ⟨rfl, rfl⟩ := Prod.mk.inj (Option.some.inj hstep)
    have h := doNextSendItem_written { s.d with sendQueueCurrent := none }
    exact ⟨fun _ hmem => absurd hmem List.not_mem_nil, by simpa [written, accepted] using h⟩
  | onSocketReadyRead reads =>
    obtain ⟨rfl, rfl⟩ := Prod.mk.inj (Option.some.inj hstep)
    rw [onSocketReadyRead_sendQueue h]
    exact hnothing
  | disconnected =>
    obtain ⟨rfl, rfl⟩ := Prod.mk.inj (Option.some.inj hstep)
    exact hnothing

/-- All that a connection accepts are frames, and it writes them in order, up to those that are
still in its queue. -/
theorem run_written {s t : QCorConnection} {events : List Event} {out : List Output} (h : Ready s)
    (hrun : Runs.run step s events = some (t, out)) :
    (∀ item ∈ accepted out, IsFrame item) ∧
      written out ++ t.d.sendQueue.flatMap write =
        s.d.sendQueue.flatMap write ++ (accepted out).flatMap write := by
  induction events generalizing s out with
  | nil =>
    obtain ⟨rfl, rfl⟩ := Prod.mk.inj (Option.some.inj hrun)
    exact ⟨fun _ hmem => absurd hmem List.not_mem_nil, (List.append_nil _).symm⟩
  | cons e events ih =>
    obtain ⟨s', first, rest, hstep, hrest, rfl⟩ := (Runs.run_cons_eq_some step).mp hrun
    obtain ⟨hfirst, hwritten⟩ := step_written h hstep
    obtain ⟨hlater, hrest⟩ := ih (ready_step h hstep) hrest
    rw [accepted_append, written_append]
    refine ⟨fun item hmem => (List.mem_append.mp hmem).elim (hfirst item) (hlater item), ?_⟩
    rw [List.append_assoc, hrest, ← List.append_assoc, hwritten, List.flatMap_append,
      List.append_assoc]

end Ts3Video.QCorConnection
