import Ts3Video.Cor.Delivery
import Ts3Video.Library.SingleFlight

/-!
# The send queue of a connection

Writing a frame posts an event, and the next frame is written when the event loop dispatches it. A frame
may also be written at once, when it is accepted. Seen from the queue, a connection is a queue with one
item on its way.
-/

namespace Ts3Video

open QCorConnection QCorConnectionPrivate

/-- The connection with another private part and queue. -/
def QCorConnection.withQueue (s : QCorConnection) (d : QCorConnectionPrivate)
    (queue : List SendQueueItem) (current : Option SendQueueItem) : QCorConnection :=
  { s with d := { d with sendQueue := queue, sendQueueCurrent := current } }

/-- A connection with the number of its posted `onCurrentSendItemDone` events. -/
structure PostingConnection where
  connection : QCorConnection := {}
  posted : ℕ := 0

namespace PostingConnection

/-- What happens to a connection that stays connected: frames are sent, the event loop dispatches the next
posted event, if there is one, or something is read. -/
inductive Event where
  | sendRequest (flags : UInt8) (data : List UInt8)
  | sendResponse (correlationId : UInt32) (flags : UInt8) (data : List UInt8)
  | onCurrentSendItemDone
  | onSocketReadyRead (reads : List (List UInt8))

/-- Every item that is written posts an event. -/
def posts (out : List Output) : ℕ :=
  out.countP fun
    | .written bytes => !bytes.isEmpty
    | .accepted _ => false

/-- The connection after a step, with the events that are posted then. -/
def posting (posted : ℕ) (result : Option (QCorConnection × List Output)) :
    Option (PostingConnection × List Output) :=
  result.map fun done => ({ connection := done.1, posted := posted + posts done.2 }, done.2)

/-- A connection as a machine that counts its posted events. -/
def step (s : PostingConnection) : Event → Option (PostingConnection × List Output)
  | .sendRequest flags data =>
    posting s.posted (QCorConnection.step s.connection (.sendRequest flags data))
  | .sendResponse correlationId flags data =>
    posting s.posted (QCorConnection.step s.connection (.sendResponse correlationId flags data))
  | .onCurrentSendItemDone =>
    if s.posted = 0 then some (s, [])
    else posting (s.posted - 1) (QCorConnection.step s.connection .onCurrentSendItemDone)
  | .onSocketReadyRead reads =>
    posting s.posted (QCorConnection.step s.connection (.onSocketReadyRead reads))

/-- The correlation id of the last request. -/
def nextId (id : UInt32) : Event → UInt32
  | .sendRequest _ _ => id + 1
  | _ => id

/-- What a call does to the queue. Requests are numbered. -/
def queueEvent (id : UInt32) : Event → List (SingleFlight.Event SendQueueItem)
  | .sendRequest flags data => [.put (newItem COR_FRAME_TYPE_REQUEST (id + 1) flags data)]
  | .sendResponse correlationId flags data =>
    [.put (newItem COR_FRAME_TYPE_RESPONSE correlationId flags data)]
  | .onCurrentSendItemDone => [.done]
  | .onSocketReadyRead _ => []

/-- What several calls do to the queue. -/
def queueEvents : UInt32 → List Event → List (SingleFlight.Event SendQueueItem)
  | _, [] => []
  | id, e :: events => queueEvent id e ++ queueEvents (nextId id e) events

/-- The frames of all calls in order. -/
def calledFrames (events : List Event) : List SendQueueItem := SingleFlight.puts (queueEvents 0 events)

/-- The complete encoding of a frame. -/
def encoding (item : SendQueueItem) : List UInt8 :=
  writeUInt16 (item.frame.version.getD 0) ++ (writeUInt16 (item.frame.type.getD 0) ++
    (writeUInt8 (item.frame.flags.getD 0) ++ (writeUInt32 (item.frame.correlationId.getD 0) ++
      (writeUInt32 (UInt32.ofNat item.data.length) ++ item.data))))

/-- The queue of a connection. -/
def queueOf (s : PostingConnection) : SingleFlight.Queue SendQueueItem where
  waiting := s.connection.d.sendQueue
  current := s.connection.d.sendQueueCurrent
  posted := s.posted

/-- The bytes are those of the first frames, completely encoded and in order. An event is posted while a
frame is queued, and once none is posted all frames have been written. -/
structure WritesInOrder (frames : List SendQueueItem) (bytes : List UInt8) (s : PostingConnection) :
    Prop where
  written_first : ∃ sent, sent <+: frames ∧ bytes = sent.flatMap encoding
  posted_of_queued : s.connection.d.sendQueue ≠ [] → 0 < s.posted
  written_of_not_posted : s.posted = 0 → bytes = frames.flatMap encoding

/-- A connected connection whose queue is in the given state. -/
structure Sending (id : UInt32) (q : SingleFlight.Queue SendQueueItem) (s : PostingConnection) :
    Prop where
  ready : Ready s.connection
  connected : s.connection.d.socketConnected = true
  id_eq : s.connection.d.nextCorrelationId = id
  queue : s.queueOf = q

variable {s s' : PostingConnection} {id : UInt32} {q : SingleFlight.Queue SendQueueItem}
  {out : List Output}

/-- A frame that is written whole is written as its complete encoding. -/
theorem write_eq_encoding {type : UInt16} {correlationId : UInt32} {flags : UInt8} {data : List UInt8}
    (hsize : data.length < 2 ^ 32) :
    write (newItem type correlationId flags data) = encoding (newItem type correlationId flags data) := by
  have hlength : (UInt32.ofNat data.length).toNat = data.length := UInt32.toNat_ofNat_of_lt' hsize
  simp [write, encoding, newItem, hlength]

/-- A connected connection writes the frame that is next in its queue, and posts an event for it. -/
theorem doNextSendItem_takeNext {d : QCorConnectionPrivate} (hconnected : d.socketConnected = true)
    (posted : ℕ) : ∃ taken, (doNextSendItem d).2 = taken.flatMap write ∧
      SingleFlight.Queue.takeNext ⟨d.sendQueue, d.sendQueueCurrent, posted⟩ =
        (⟨(doNextSendItem d).1.sendQueue, (doNextSendItem d).1.sendQueueCurrent,
          posted + posts [.written (doNextSendItem d).2]⟩, taken) ∧
      (doNextSendItem d).1.socketConnected = true ∧
      (doNextSendItem d).1.nextCorrelationId = d.nextCorrelationId := by
  unfold doNextSendItem SingleFlight.Queue.takeNext
  rw [hconnected]
  cases hcurrent : d.sendQueueCurrent with
  | some item => exact ⟨[], by simp [hcurrent, hconnected, posts]⟩
  | none =>
    cases hqueue : d.sendQueue with
    | nil => exact ⟨[], by simp [hcurrent, hqueue, hconnected, posts]⟩
    | cons item queue =>
      have hsome : (write item).isEmpty = false := List.isEmpty_eq_false_iff.mpr (write_ne_nil item)
      exact ⟨[item], by simp [posts, hsome]⟩

/-- Writing the next item changes the queue alone. -/
theorem exists_doNextSendItem (d : QCorConnectionPrivate) : ∃ queue current,
    (doNextSendItem d).1 = { d with sendQueue := queue, sendQueueCurrent := current } := by
  unfold doNextSendItem
  split
  · exact ⟨d.sendQueue, d.sendQueueCurrent, rfl⟩
  · split
    · exact ⟨_, _, rfl⟩
    · exact ⟨d.sendQueue, d.sendQueueCurrent, rfl⟩

/-- A request is entered under the next correlation id. -/
theorem step_sendRequest (hconnected : s.connection.d.socketConnected = true) {flags : UInt8}
    {data : List UInt8} (hstep : step s (.sendRequest flags data) = some (s', out)) :
    ∃ queue current, s'.connection = s.connection.withQueue
      { s.connection.d with
        nextCorrelationId := s.connection.d.nextCorrelationId + 1
        replies := s.connection.d.replies.insert (s.connection.d.nextCorrelationId + 1) }
      queue current := by
  obtain ⟨sent, hsent, heq⟩ := Option.map_eq_some_iff.mp hstep
  obtain ⟨rfl, -⟩ := Prod.mk.inj heq
  rw [QCorConnection.step, if_neg (by rw [hconnected]; decide)] at hsent
  obtain rfl := Option.some.inj hsent
  obtain ⟨queue, current, hnext⟩ := exists_doNextSendItem (enqueue { s.connection.d with
    nextCorrelationId := s.connection.d.nextCorrelationId + 1
    replies := s.connection.d.replies.insert (s.connection.d.nextCorrelationId + 1) }
      (newItem COR_FRAME_TYPE_REQUEST (s.connection.d.nextCorrelationId + 1) flags data))
  exact ⟨queue, current, congrArg (fun d => { s.connection with d }) hnext⟩

/-- Nothing but the queue changes when a response is sent or an item is done. -/
theorem step_send {e : Event} (hother : ∀ flags data, e ≠ .sendRequest flags data)
    (hnothing : ∀ reads, e ≠ .onSocketReadyRead reads) (hstep : step s e = some (s', out)) :
    ∃ queue current, s'.connection = s.connection.withQueue s.connection.d queue current := by
  cases e with
  | sendRequest flags data => exact absurd rfl (hother flags data)
  | onSocketReadyRead reads => exact absurd rfl (hnothing reads)
  | sendResponse correlationId flags data =>
    obtain ⟨sent, hsent, heq⟩ := Option.map_eq_some_iff.mp hstep
    obtain ⟨rfl, -⟩ := Prod.mk.inj heq
    rw [QCorConnection.step] at hsent
    split at hsent
    · obtain rfl := Option.some.inj hsent
      exact ⟨s.connection.d.sendQueue, s.connection.d.sendQueueCurrent, rfl⟩
    · obtain rfl := Option.some.inj hsent
      obtain ⟨queue, current, hnext⟩ := exists_doNextSendItem
        (s.connection.d.enqueue (newItem COR_FRAME_TYPE_RESPONSE correlationId flags data))
      exact ⟨queue, current, congrArg (fun d => { s.connection with d }) hnext⟩
  | onCurrentSendItemDone =>
    by_cases hnone : s.posted = 0
    · rw [step, if_pos hnone] at hstep
      obtain ⟨rfl, -⟩ := Prod.mk.inj (Option.some.inj hstep)
      exact ⟨s.connection.d.sendQueue, s.connection.d.sendQueueCurrent, rfl⟩
    · rw [step, if_neg hnone] at hstep
      obtain ⟨sent, hsent, heq⟩ := Option.map_eq_some_iff.mp hstep
      obtain ⟨rfl, -⟩ := Prod.mk.inj heq
      obtain rfl := Option.some.inj hsent
      obtain ⟨queue, current, hnext⟩ :=
        exists_doNextSendItem { s.connection.d with sendQueueCurrent := none }
      exact ⟨queue, current, congrArg (fun d => { s.connection with d }) hnext⟩

/-- A read goes to the connection. -/
theorem step_onSocketReadyRead {reads : List (List UInt8)}
    (hstep : step s (.onSocketReadyRead reads) = some (s', out)) :
    s' = { s with connection := s.connection.onSocketReadyRead reads } := by
  rw [step, posting, QCorConnection.step, Option.map_some] at hstep
  exact (congrArg Prod.fst (Option.some.inj hstep)).symm

/-- An item that is accepted is put into the queue. -/
theorem Sending.put (h : Sending id q s) {d : QCorConnectionPrivate}
    (hsame : (d.socketConnected, d.sendQueue, d.sendQueueCurrent) =
      (true, s.connection.d.sendQueue, s.connection.d.sendQueueCurrent)) (item : SendQueueItem) :
    ∃ s' out q' taken, posting s.posted (some (sendItem s.connection d item)) = some (s', out) ∧
      SingleFlight.step q (.put item) = some (q', taken) ∧ Sending d.nextCorrelationId q' s' ∧
      written out = taken.flatMap write := by
  obtain ⟨hconnected, hqueue, hcurrent⟩ := by simpa only [Prod.mk.injEq] using hsame
  obtain ⟨taken, hbytes, htake, hstill, hid⟩ :=
    doNextSendItem_takeNext (d := d.enqueue item) hconnected s.posted
  refine ⟨_, _, _, taken, rfl, ?_, ⟨h.ready.with_d _, hstill, hid, rfl⟩, ?_⟩
  · have hput : ({ q with waiting := q.waiting ++ [item] } : SingleFlight.Queue SendQueueItem) =
        ⟨(d.enqueue item).sendQueue, (d.enqueue item).sendQueueCurrent, s.posted⟩ := by
      rw [← h.queue]
      change _ = SingleFlight.Queue.mk (d.sendQueue ++ [item]) d.sendQueueCurrent s.posted
      rw [hqueue, hcurrent]
      rfl
    rw [SingleFlight.step, hput, htake]
    rfl
  · change [] ++ ((doNextSendItem (d.enqueue item)).2 ++ []) = _
    rw [List.nil_append, List.append_nil, hbytes]

/-- What happens to a connection happens to its queue. -/
theorem Sending.step (h : Sending id q s) (e : Event) :
    ∃ s' out q' taken, PostingConnection.step s e = some (s', out) ∧
      Runs.run SingleFlight.step q (queueEvent id e) = some (q', taken) ∧
      Sending (nextId id e) q' s' ∧ written out = taken.flatMap write := by
  have hconnected := h.connected
  have hone : ∀ {e : SingleFlight.Event SendQueueItem} {q' taken},
      SingleFlight.step q e = some (q', taken) →
        Runs.run SingleFlight.step q [e] = some (q', taken) := by
    intro e q' taken hstep
    simp [Runs.run, hstep]
  cases e with
  | sendRequest flags data =>
    have hcall : QCorConnection.step s.connection (.sendRequest flags data) =
        some (sendItem s.connection
          { s.connection.d with
            nextCorrelationId := s.connection.d.nextCorrelationId + 1
            replies := s.connection.d.replies.insert (s.connection.d.nextCorrelationId + 1) }
          (newItem COR_FRAME_TYPE_REQUEST (s.connection.d.nextCorrelationId + 1) flags data)) := by
      simp [QCorConnection.step, hconnected]
    obtain ⟨s', out, q', taken, hstep, hput, hsending, hbytes⟩ := h.put (d :=
      { s.connection.d with
        nextCorrelationId := s.connection.d.nextCorrelationId + 1
        replies := s.connection.d.replies.insert (s.connection.d.nextCorrelationId + 1) })
      (by rw [hconnected])
      (newItem COR_FRAME_TYPE_REQUEST (s.connection.d.nextCorrelationId + 1) flags data)
    rw [h.id_eq] at hput hsending
    exact ⟨s', out, q', taken, by rw [PostingConnection.step, hcall, hstep], hone hput, hsending,
      hbytes⟩
  | sendResponse correlationId flags data =>
    have hcall : QCorConnection.step s.connection (.sendResponse correlationId flags data) =
        some (sendItem s.connection s.connection.d
          (newItem COR_FRAME_TYPE_RESPONSE correlationId flags data)) := by
      simp [QCorConnection.step, hconnected]
    obtain ⟨s', out, q', taken, hstep, hput, hsending, hbytes⟩ := h.put (d := s.connection.d)
      (by rw [hconnected]) (newItem COR_FRAME_TYPE_RESPONSE correlationId flags data)
    rw [h.id_eq] at hsending
    exact ⟨s', out, q', taken, by rw [PostingConnection.step, hcall, hstep], hone hput, hsending,
      hbytes⟩
  | onCurrentSendItemDone =>
    by_cases hnone : s.posted = 0
    · refine ⟨s, [], q, [], if_pos hnone, hone (if_pos ?_), h, rfl⟩
      rw [← h.queue]
      exact hnone
    · obtain ⟨taken, hbytes, htake, hstill, hid⟩ := doNextSendItem_takeNext
        (d := { s.connection.d with sendQueueCurrent := none }) hconnected (s.posted - 1)
      refine ⟨_, _, _, taken, if_neg hnone, hone ?_, ⟨h.ready.with_d _, hstill, hid.trans h.id_eq,
        rfl⟩, ?_⟩
      · have hposted : q.posted ≠ 0 := by
          rw [← h.queue]
          exact hnone
        rw [SingleFlight.step_done hposted, ← h.queue]
        exact congrArg some htake
      · change (doNextSendItem _).2 ++ [] = _
        rw [List.append_nil, hbytes]
  | onSocketReadyRead reads =>
    have hsame := onSocketReadyRead_sendState h.ready reads
    simp only [sendState, Prod.mk.injEq] at hsame
    obtain ⟨hconnected', hid, hqueue, hcurrent⟩ := hsame
    refine ⟨_, [], q, [], rfl, rfl, ⟨h.ready.onSocketReadyRead reads, hconnected'.trans hconnected,
      hid.trans h.id_eq, ?_⟩, rfl⟩
    rw [← h.queue]
    simp only [queueOf, hqueue, hcurrent]
    rfl

/-- A run of a connection is a run of its queue. -/
theorem Sending.run (h : Sending id q s) (events : List Event) :
    ∃ s' out q' taken, Runs.run PostingConnection.step s events = some (s', out) ∧
      Runs.run SingleFlight.step q (queueEvents id events) = some (q', taken) ∧ s'.queueOf = q' ∧
      written out = taken.flatMap write := by
  induction events generalizing id q s with
  | nil => exact ⟨s, [], q, [], rfl, rfl, h.queue, rfl⟩
  | cons e events ih =>
    obtain ⟨t, first, q₁, taken, hstep, hqueue, hsending, hbytes⟩ := h.step e
    obtain ⟨u, rest, q₂, later, hrun, hrest, hlast, hmore⟩ := ih hsending
    refine ⟨u, first ++ rest, q₂, taken ++ later,
      (Runs.run_cons_eq_some _).mpr ⟨t, first, rest, hstep, hrun, rfl⟩,
      Runs.run_append _ hqueue hrest, hlast, ?_⟩
    rw [written_append, hbytes, hmore, List.flatMap_append]

/-- The calls enqueue requests and responses. -/
theorem isFrame_of_put {item : SendQueueItem} {events : List Event}
    (h : item ∈ SingleFlight.puts (queueEvents id events)) : IsFrame item := by
  induction events generalizing id with
  | nil => contradiction
  | cons e events ih =>
    rw [queueEvents, SingleFlight.puts_append, List.mem_append] at h
    rcases h with hfirst | hlater
    · cases e with
      | sendRequest flags data =>
        exact ⟨_, _, flags, data, .inl rfl, List.mem_singleton.mp hfirst⟩
      | sendResponse correlationId flags data =>
        exact ⟨_, _, flags, data, .inr rfl, List.mem_singleton.mp hfirst⟩
      | onCurrentSendItemDone => contradiction
      | onSocketReadyRead reads => contradiction
    · exact ih hlater

/-- In every interleaving of calls and events, a connection writes the frames completely and in order. No
frame is left in its queue without a posted event. The length of a frame is that of a byte array. -/
theorem writesInOrder (events : List Event)
    (hsize : ∀ frame ∈ calledFrames events, frame.data.length < 2 ^ 31) :
    ∃ s out, Runs.run step {} events = some (s, out) ∧
      WritesInOrder (calledFrames events) (written out) s := by
  have hinit : Sending 0 {} {} := ⟨ready_of_idle {}, rfl, rfl, rfl⟩
  obtain ⟨s, out, q, taken, hrun, hqueue, rfl, hbytes⟩ := hinit.run events
  obtain ⟨hfirst, hposted, htaken⟩ := SingleFlight.inOrder_run hqueue
  have hencoding : ∀ sent, sent <+: calledFrames events → sent.flatMap write = sent.flatMap encoding := by
    intro sent hsent
    refine List.flatMap_congr fun item hitem => ?_
    have hmem := hsent.subset hitem
    obtain ⟨type, correlationId, flags, data, -, rfl⟩ := isFrame_of_put hmem
    exact write_eq_encoding ((hsize _ hmem).trans (by decide))
  refine ⟨s, out, hrun, ⟨taken, hfirst, by rw [hbytes, hencoding taken hfirst]⟩, hposted, fun hnone => ?_⟩
  rw [hbytes, htaken hnone]
  exact hencoding _ ⟨[], List.append_nil _⟩

/-- A response is accepted while a request is on its way. -/
def interleavedCalls : List Event :=
  [.sendRequest 7 [1, 2], .sendResponse 9 0 [], .onSocketReadyRead [[0, 1]], .onCurrentSendItemDone]

/-- The response is written behind the request. -/
theorem writesInOrder_interleavedCalls : ∃ s out,
    Runs.run step {} interleavedCalls = some (s, out) ∧
      WritesInOrder [newItem COR_FRAME_TYPE_REQUEST 1 7 [1, 2],
        newItem COR_FRAME_TYPE_RESPONSE 9 0 []] (written out) s :=
  writesInOrder interleavedCalls (by decide)

end PostingConnection

end Ts3Video
