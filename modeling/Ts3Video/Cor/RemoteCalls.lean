import Ts3Video.Cor.Matching

/-!
# Remote calls

The frames that have ended at one end are the first ones that the other end has accepted, and what is left
of them is in the parser, on its way or in the queue. A response is only sent for a request that has been
delivered, so the id it carries is that of a request made before, and no request gets an id twice. So
each reply is finished by an answer to its own request, whatever happens at the two ends in between.
-/

namespace Ts3Video

open Std QCorConnection QCorConnectionPrivate

namespace Side

/-- The other end of the other end. -/
@[simp] theorem other_other (side : Side) : side.other.other = side := by
  cases side <;> rfl

/-- The ends are different. -/
theorem other_ne (side : Side) : side.other ≠ side := by
  cases side <;> decide

/-- There are no more than two ends. -/
theorem eq_or_eq_other (side x : Side) : x = side ∨ x = side.other := by
  cases side <;> cases x <;> decide

end Side

namespace PostingConnection

variable {s s' : PostingConnection} {id : UInt32} {q : SingleFlight.Queue SendQueueItem}
  {out : List Output}

/-- A connected connection accepts what is put into its queue. -/
theorem accepted_step (hconnected : s.connection.d.socketConnected = true) {e : Event}
    (hstep : step s e = some (s', out)) :
    accepted out = SingleFlight.puts (queueEvent s.connection.d.nextCorrelationId e) := by
  cases e with
  | sendRequest flags data =>
    obtain ⟨sent, hsent, heq⟩ := Option.map_eq_some_iff.mp hstep
    rw [QCorConnection.step, if_neg (by rw [hconnected]; decide)] at hsent
    obtain rfl := Option.some.inj hsent
    exact congrArg accepted (congrArg Prod.snd heq).symm
  | sendResponse correlationId flags data =>
    obtain ⟨sent, hsent, heq⟩ := Option.map_eq_some_iff.mp hstep
    rw [QCorConnection.step, if_neg (by rw [hconnected]; decide)] at hsent
    obtain rfl := Option.some.inj hsent
    exact congrArg accepted (congrArg Prod.snd heq).symm
  | onCurrentSendItemDone =>
    by_cases hnone : s.posted = 0
    · rw [step, if_pos hnone] at hstep
      exact congrArg accepted (congrArg Prod.snd (Option.some.inj hstep)).symm
    · rw [step, if_neg hnone] at hstep
      obtain ⟨sent, hsent, heq⟩ := Option.map_eq_some_iff.mp hstep
      obtain rfl := Option.some.inj hsent
      exact congrArg accepted (congrArg Prod.snd heq).symm
  | onSocketReadyRead reads =>
    exact congrArg accepted (congrArg Prod.snd (Option.some.inj hstep)).symm

/-- What happens to a connection that sends: it accepts what is put into its queue, writes the first items of
the queue, and leaves none behind. -/
theorem Sending.step_cases (h : Sending id q s) (hawake : q.Awake) (e : Event) :
    ∃ s' out, PostingConnection.step s e = some (s', out) ∧ (∃ q', Sending (nextId id e) q' s' ∧ q'.Awake) ∧
      accepted out = SingleFlight.puts (queueEvent id e) ∧
      written out ++ s'.connection.d.sendQueue.flatMap write =
        s.connection.d.sendQueue.flatMap write ++ (accepted out).flatMap write := by
  obtain ⟨s', out, q', taken, hstep, hrun, hsending, hwritten⟩ := h.step e
  have hawake' : q'.Awake := Runs.run_invariant (P := SingleFlight.Queue.Awake)
    (fun _ _ _ _ hq hone => hq.step hone) hawake hrun
  have haccepted := accepted_step h.connected hstep
  rw [h.id_eq] at haccepted
  have hitems : taken ++ s'.connection.d.sendQueue =
      s.connection.d.sendQueue ++ SingleFlight.puts (queueEvent id e) := by
    have hall := SingleFlight.run_append hrun
    rwa [← h.queue, ← hsending.queue] at hall
  refine ⟨s', out, hstep, ⟨q', hsending, hawake'⟩, haccepted, ?_⟩
  rw [hwritten, haccepted, ← List.flatMap_append, hitems, List.flatMap_append]

end PostingConnection

namespace SessionEnd

/-- Two lists of items have the ids of both. -/
theorem idsOf_append (type : UInt16) (first second : List SendQueueItem) :
    idsOf type (first ++ second) = idsOf type first ++ idsOf type second := by
  simp [idsOf]

/-- The first numbers as correlation ids. -/
def firstIds (count : ℕ) : List UInt32 := (List.range' 1 count).map UInt32.ofNat

/-- One more number. -/
theorem firstIds_succ (count : ℕ) : firstIds (count + 1) = firstIds count ++ [UInt32.ofNat (count + 1)] := by
  rw [firstIds, List.range'_1_concat, List.map_append, List.map_singleton, Nat.add_comm 1]
  rfl

/-- Below the limit the numbers are different correlation ids. -/
theorem firstIds_nodup {count : ℕ} (hbound : count < 2 ^ 32) : (firstIds count).Nodup := by
  refine List.Nodup.map_on (fun first hfirst second hsecond heq => ?_) List.nodup_range'
  have hfirst := (List.mem_range'_1.mp hfirst).2
  have hsecond := (List.mem_range'_1.mp hsecond).2
  have hvalue := congrArg UInt32.toNat heq
  rwa [UInt32.toNat_ofNat_of_lt' (show first < 2 ^ 32 by omega),
    UInt32.toNat_ofNat_of_lt' (show second < 2 ^ 32 by omega)] at hvalue

/-- An end whose requests are numbered, and which forgets nothing that it has accepted. -/
structure Sound (s : SessionEnd) : Prop where
  sending : ∃ q, PostingConnection.Sending (UInt32.ofNat s.requested.length) q s.posting ∧ q.Awake
  frames : ∀ item ∈ s.accepted, IsFrame item ∧ item.data.length < 2 ^ 32
  numbered : s.requested = firstIds s.requested.length
  bounded : s.requested.length < 2 ^ 32

/-- The next request gets a new id. -/
theorem Sound.fresh {s : SessionEnd} (h : s.Sound) (hmore : s.requested.length + 1 < 2 ^ 32) :
    UInt32.ofNat (s.requested.length + 1) ∉ s.requested := by
  have hnodup := firstIds_nodup hmore
  rw [firstIds_succ, ← h.numbered] at hnodup
  exact fun hmem => (List.nodup_append.mp hnodup).2.2 _ hmem _ (List.mem_singleton_self _) rfl

/-- A new end. -/
theorem sound_init : Sound {} where
  sending := ⟨{}, ⟨ready_of_idle {}, rfl, rfl, rfl⟩, ⟨fun h => absurd rfl h, rfl⟩⟩
  frames _ hmem := absurd hmem List.not_mem_nil
  numbered := rfl
  bounded := by decide

end SessionEnd

namespace Session

open SessionEnd

variable {s t : Session} {side x : Side} {e : EndEvent} {service : Side → List UInt8 → List UInt8 → Prop}

/-- The pieces that are read are the first bytes. -/
theorem pieces_flatten (sizes : List ℕ) (bytes : List UInt8) :
    (pieces sizes bytes).flatten = bytes.take sizes.sum := by
  induction sizes generalizing bytes with
  | nil => rfl
  | cons size sizes ih => rw [pieces, List.flatten_cons, ih, List.sum_cons, List.take_add]

/-- The id of the request that is made in an event, if the last one was `id`. -/
def EndEvent.newIds (id : UInt32) : EndEvent → List UInt32
  | .sendRequest _ _ => [id + 1]
  | _ => []

/-- The requests that an event puts into the queue. -/
theorem requested_puts (id : UInt32) (incoming : List UInt8) (e : EndEvent) :
    idsOf COR_FRAME_TYPE_REQUEST
        (SingleFlight.puts (PostingConnection.queueEvent id (e.toEvent incoming))) = e.newIds id := by
  cases e with
  | sendRequest flags data => rfl
  | sendResponse correlationId flags data => rfl
  | onCurrentSendItemDone => rfl
  | onSocketReadyRead sizes => rfl

/-- What an event puts into the queue of a polite end is a frame. -/
theorem isFrame_puts (hpolite : Polite service s (side, e)) (id : UInt32) (incoming : List UInt8)
    {item : SendQueueItem}
    (hitem : item ∈ SingleFlight.puts (PostingConnection.queueEvent id (e.toEvent incoming))) :
    IsFrame item ∧ item.data.length < 2 ^ 32 := by
  cases e with
  | sendRequest flags data =>
    rw [List.mem_singleton.mp hitem]
    exact ⟨⟨_, _, flags, data, .inl rfl, rfl⟩, hpolite.1.trans (by decide)⟩
  | sendResponse correlationId flags data =>
    rw [List.mem_singleton.mp hitem]
    exact ⟨⟨_, _, flags, data, .inr rfl, rfl⟩, hpolite.1.trans (by decide)⟩
  | onCurrentSendItemDone => exact absurd hitem List.not_mem_nil
  | onSocketReadyRead sizes => exact absurd hitem List.not_mem_nil

/-- The bytes that an end writes in an event are followed by those of the items that remain in its queue. -/
def Writes (sender : SessionEnd) (posting : PostingConnection) (out : List Output) : Prop :=
  written out ++ posting.connection.d.sendQueue.flatMap write =
    sender.d.sendQueue.flatMap write ++ (accepted out).flatMap write

/-- A polite event at a sound end is processed, and the end remains sound. -/
theorem exists_step (hsound : (s side).Sound) (hpolite : Polite service s (side, e)) :
    ∃ posting out, step s (side, e) =
        some (s.after side e posting out, out.map (Prod.mk side)) ∧
      PostingConnection.step (s side).posting (e.toEvent (s side).incoming) = some (posting, out) ∧
      (s.after side e posting out side).Sound ∧ Writes (s side) posting out ∧
      accepted out = SingleFlight.puts (PostingConnection.queueEvent
        (UInt32.ofNat (s side).requested.length) (e.toEvent (s side).incoming)) := by
  obtain ⟨q, hsending, hawake⟩ := hsound.sending
  obtain ⟨posting, out, hstep, ⟨q', hsending', hawake'⟩, haccepted, hwritten⟩ :=
    hsending.step_cases hawake (e.toEvent (s side).incoming)
  have hafter : s.after side e posting out side =
      { posting, incoming := e.unread (s side).incoming, accepted := (s side).accepted ++ accepted out } :=
    if_pos rfl
  refine ⟨posting, out, by rw [step, hstep]; rfl, hstep, ?_, hwritten, haccepted⟩
  have hframes : ∀ item ∈ (s side).accepted ++ accepted out,
      IsFrame item ∧ item.data.length < 2 ^ 32 := by
    intro item hmem
    rcases List.mem_append.mp hmem with hold | hnew
    · exact hsound.frames item hold
    · exact isFrame_puts hpolite _ _ (haccepted ▸ hnew)
  have hrequested : idsOf COR_FRAME_TYPE_REQUEST ((s side).accepted ++ accepted out) =
      (s side).requested ++ e.newIds (UInt32.ofNat (s side).requested.length) := by
    rw [idsOf_append, haccepted, requested_puts]
  rw [hafter]
  cases e with
  | sendRequest flags data =>
    have hnext : UInt32.ofNat (s side).requested.length + 1 =
        UInt32.ofNat ((s side).requested.length + 1) := (UInt32.ofNat_add _ 1).symm
    have hlength : (idsOf COR_FRAME_TYPE_REQUEST ((s side).accepted ++ accepted out)).length =
        (s side).requested.length + 1 := by
      rw [hrequested, EndEvent.newIds, List.length_append, List.length_singleton]
    refine ⟨⟨q', ?_, hawake'⟩, hframes, ?_, ?_⟩
    · rw [requested, hlength, ← hnext]
      exact hsending'
    · rw [requested, hlength, firstIds_succ, hrequested, EndEvent.newIds, ← hsound.numbered, hnext]
    · rw [requested, hlength]
      exact hpolite.2
  | _ =>
    replace hrequested := hrequested.trans (List.append_nil _)
    refine ⟨⟨q', ?_, hawake'⟩, hframes, ?_, ?_⟩
    · rw [requested, hrequested]
      exact hsending'
    · rw [requested, hrequested]
      exact hsound.numbered
    · rw [requested, hrequested]
      exact hsound.bounded

/-- What one end has received of what the other end has accepted: some frames, the beginning of one more in its
parser, what has arrived and is not read, and what is still in the queue. -/
structure Receiving (frames : List WireFrame) (tail : List UInt8) (receiver sender : SessionEnd) : Prop where
  stream : sender.accepted.flatMap write = frames.flatMap WireFrame.bytes ++
    (tail ++ (receiver.incoming ++ sender.d.sendQueue.flatMap write))
  progress : InProgress tail receiver.posting.connection.corParser receiver.d
    receiver.posting.connection.buffer
  matched : Matched receiver.requested frames receiver.d

/-- Every response that was accepted is an answer to a request of the other end. -/
def Answers (service : List UInt8 → List UInt8 → Prop) (asker answerer : SessionEnd) : Prop :=
  ∀ item ∈ answerer.accepted, item.frame.type = some COR_FRAME_TYPE_RESPONSE →
    ∃ request ∈ asker.accepted, request.frame.type = some COR_FRAME_TYPE_REQUEST ∧
      request.frame.correlationId = item.frame.correlationId ∧ service request.data item.data

variable {frames : List WireFrame} {tail : List UInt8} {receiver sender : SessionEnd}
  {serve : List UInt8 → List UInt8 → Prop} {posting : PostingConnection} {out : List Output}

/-- The request that an item stands for has been made. -/
theorem mem_requested {item : SendQueueItem} {correlationId : UInt32} (hitem : item ∈ sender.accepted)
    (htype : item.frame.type = some COR_FRAME_TYPE_REQUEST)
    (hid : item.frame.correlationId = some correlationId) : correlationId ∈ sender.requested := by
  refine List.mem_map.mpr ⟨item, List.mem_filter.mpr ⟨hitem, decide_eq_true htype⟩, ?_⟩
  rw [hid, Option.getD_some]

/-- The frames at the beginning of what was accepted are requests and answers to requests. -/
theorem frames_known (hframes : ∀ item ∈ sender.accepted, IsFrame item ∧ item.data.length < 2 ^ 32)
    (hanswers : Answers serve receiver sender) {rest : List UInt8}
    (hstream : sender.accepted.flatMap write = frames.flatMap WireFrame.bytes ++ rest) :
    ∀ frame ∈ frames,
      (frame.type = COR_FRAME_TYPE_REQUEST ∨ frame.type = COR_FRAME_TYPE_RESPONSE) ∧
        (frame.type = COR_FRAME_TYPE_RESPONSE → frame.correlationId ∈ receiver.requested) := by
  intro frame hmem
  obtain ⟨sent, later, haccepted, hsent, -⟩ := exists_sent hframes hstream
  obtain ⟨item, hitem, hencodes⟩ := PairedLists.exists_partner hsent hmem
  refine ⟨hencodes.kind, fun hresponse => ?_⟩
  have hfields := hencodes.item_eq
  obtain ⟨request, hrequest, htype, hid, -⟩ := hanswers item
    (haccepted ▸ List.mem_append_left _ hitem) (by rw [hfields, ← hresponse]; rfl)
  exact mem_requested hrequest htype (hid.trans (by rw [hfields]; rfl))

/-- What the sender writes arrives. -/
theorem Receiving.of_sender (h : Receiving frames tail receiver sender)
    (hwrites : Writes sender posting out) (incoming : List UInt8) :
    Receiving frames tail { receiver with incoming := receiver.incoming ++ written out }
      { posting, incoming, accepted := sender.accepted ++ accepted out } := by
  refine ⟨?_, h.progress, h.matched⟩
  calc (sender.accepted ++ accepted out).flatMap write
      = frames.flatMap WireFrame.bytes ++ (tail ++ (receiver.incoming ++
          (sender.d.sendQueue.flatMap write ++ (accepted out).flatMap write))) := by
        rw [List.flatMap_append, h.stream]
        simp only [List.append_assoc]
    _ = _ := by
        rw [← hwrites]
        simp only [List.append_assoc]

/-- The receiver makes a request. -/
theorem Receiving.of_request (h : Receiving frames tail receiver sender) (hsound : receiver.Sound)
    (hframes : ∀ item ∈ sender.accepted, IsFrame item ∧ item.data.length < 2 ^ 32)
    (hanswers : Answers serve receiver sender) {flags : UInt8} {data : List UInt8}
    (hmore : receiver.requested.length + 1 < 2 ^ 32)
    (hstep : PostingConnection.step receiver.posting (.sendRequest flags data) = some (posting, out))
    (hrequested : idsOf COR_FRAME_TYPE_REQUEST (receiver.accepted ++ accepted out) =
      receiver.requested ++ [UInt32.ofNat receiver.requested.length + 1]) {writing : List UInt8} :
    Receiving frames tail
      { posting, incoming := receiver.incoming, accepted := receiver.accepted ++ accepted out }
      { sender with incoming := writing } := by
  obtain ⟨q, hsending, -⟩ := hsound.sending
  obtain ⟨queue, current, hconnection⟩ := PostingConnection.step_sendRequest hsending.connected hstep
  have hnext : UInt32.ofNat receiver.requested.length + 1 =
      UInt32.ofNat (receiver.requested.length + 1) := (UInt32.ofNat_add _ 1).symm
  have hresponses := fun wire hwire => (frames_known hframes hanswers h.stream wire hwire).2
  refine ⟨h.stream, ?_, ?_⟩
  · rw [SessionEnd.d, hconnection]
    exact h.progress.other rfl rfl
  · rw [requested, hrequested]
    have hfresh : UInt32.ofNat receiver.requested.length + 1 ∉ receiver.requested := by
      rw [hnext]
      exact hsound.fresh hmore
    have hreplies : posting.connection.d.replies =
        receiver.d.replies.insert (UInt32.ofNat receiver.requested.length + 1) := by
      rw [hconnection, ← hsending.id_eq]
      rfl
    have hdelivered : posting.connection.d.delivered = receiver.d.delivered := by
      rw [hconnection]
      rfl
    exact h.matched.request hfresh hresponses hreplies hdelivered

/-- The receiver sends a response, or one of its items is done. -/
theorem Receiving.of_send (h : Receiving frames tail receiver sender) {e : PostingConnection.Event}
    (hother : ∀ flags data, e ≠ .sendRequest flags data)
    (hnothing : ∀ reads, e ≠ .onSocketReadyRead reads)
    (hstep : PostingConnection.step receiver.posting e = some (posting, out))
    (hrequested : idsOf COR_FRAME_TYPE_REQUEST (receiver.accepted ++ accepted out) = receiver.requested)
    {writing : List UInt8} :
    Receiving frames tail
      { posting, incoming := receiver.incoming, accepted := receiver.accepted ++ accepted out }
      { sender with incoming := writing } := by
  obtain ⟨queue, current, hconnection⟩ := PostingConnection.step_send hother hnothing hstep
  refine ⟨h.stream, ?_, ?_⟩
  · rw [SessionEnd.d, hconnection]
    exact h.progress.other rfl rfl
  · rw [requested, hrequested, SessionEnd.d, hconnection]
    exact h.matched.congr rfl rfl

/-- The receiver reads some of what has arrived. -/
theorem Receiving.of_read (h : Receiving frames tail receiver sender) (hsound : receiver.Sound)
    (hframes : ∀ item ∈ sender.accepted, IsFrame item ∧ item.data.length < 2 ^ 32)
    (hanswers : Answers serve receiver sender) {sizes : List ℕ}
    (hstep : PostingConnection.step receiver.posting
      (.onSocketReadyRead (pieces sizes receiver.incoming)) = some (posting, out))
    {writing : List UInt8} : ∃ frames tail, Receiving frames tail
      { receiver with posting, incoming := receiver.incoming.drop sizes.sum }
      { sender with incoming := writing } := by
  obtain ⟨q, hsending, -⟩ := hsound.sending
  obtain rfl := PostingConnection.step_onSocketReadyRead hstep
  have hread := onSocketReadyRead_eq hsending.ready (pieces sizes receiver.incoming)
  rw [pieces_flatten] at hread
  obtain ⟨more, rest, hmore, hprogress, hdelivered⟩ := h.progress.read hread.symm
  have hstream : sender.accepted.flatMap write = (frames ++ more).flatMap WireFrame.bytes ++
      (rest ++ (receiver.incoming.drop sizes.sum ++ sender.d.sendQueue.flatMap write)) := by
    rw [h.stream, List.flatMap_append, List.append_assoc, ← List.append_assoc _ rest, ← hmore,
      List.append_assoc tail, ← List.append_assoc (receiver.incoming.take sizes.sum),
      List.take_append_drop]
  have hknown := frames_known hframes hanswers hstream
  have hbefore : Matched receiver.requested frames { receiver.d with frame := none } :=
    h.matched.congr rfl rfl
  have hmatched : Matched receiver.requested (frames ++ more)
      (more.foldl receiveFrame { receiver.d with frame := none }) :=
    hbefore.receiveFrames fun frame hmem => hknown frame (List.mem_append_right _ hmem)
  rw [← hdelivered] at hmatched
  exact ⟨frames ++ more, rest, hstream, hprogress, hmatched.congr rfl rfl⟩

/-- A request that has been delivered was accepted at the other end. -/
theorem Receiving.exists_request (h : Receiving frames tail receiver sender)
    (hframes : ∀ item ∈ sender.accepted, IsFrame item ∧ item.data.length < 2 ^ 32) {request : QCorFrame}
    (hmem : .newIncomingRequest (some request) ∈ receiver.d.delivered) :
    ∃ item ∈ sender.accepted, item.frame.type = some COR_FRAME_TYPE_REQUEST ∧
      item.frame.correlationId = request.correlationId ∧ item.data = request.data := by
  obtain ⟨wire, hwire, rfl, hnot⟩ := h.matched.exists_request hmem
  obtain ⟨sent, later, haccepted, hsent, -⟩ := exists_sent hframes h.stream
  obtain ⟨item, hitem, hencodes⟩ := PairedLists.exists_partner hsent hwire
  have hrequest := hencodes.kind.resolve_right hnot
  refine ⟨item, haccepted ▸ List.mem_append_left _ hitem, ?_, ?_, ?_⟩
  · rw [hencodes.item_eq, ← hrequest]
    rfl
  · rw [hencodes.item_eq]
    rfl
  · rw [hencodes.item_eq]
    rfl

/-- What holds of both ends in every state. -/
structure Invariant (service : Side → List UInt8 → List UInt8 → Prop) (s : Session) : Prop where
  sound : ∀ x, (s x).Sound
  receiving : ∀ x, ∃ frames tail, Receiving frames tail (s x) (s x.other)
  answers : ∀ x, Answers (service x) (s x.other) (s x)

/-- Nothing has happened. -/
theorem invariant_init (service : Side → List UInt8 → List UInt8 → Prop) :
    Invariant service fun _ => {} where
  sound _ := sound_init
  receiving _ := ⟨[], [], rfl, .init rfl, ⟨.nil,
    fun _ => ⟨fun hmem => absurd hmem ExtTreeSet.not_mem_empty, fun hmem => absurd hmem.1 List.not_mem_nil⟩,
    List.nodup_nil, fun _ _ hmem => absurd hmem List.not_mem_nil,
    fun before _ _ heq => absurd heq.symm (by simp)⟩⟩
  answers _ _ hmem := absurd hmem List.not_mem_nil

/-- The end at which something happens. -/
theorem after_self (s : Session) (side : Side) (e : EndEvent) (posting : PostingConnection)
    (out : List Output) : s.after side e posting out side =
      { posting, incoming := e.unread (s side).incoming, accepted := (s side).accepted ++ accepted out } :=
  if_pos rfl

/-- The other end. -/
theorem after_other (s : Session) (side : Side) (e : EndEvent) (posting : PostingConnection)
    (out : List Output) : s.after side e posting out side.other =
      { s side.other with incoming := (s side.other).incoming ++ written out } :=
  if_neg side.other_ne

/-- A polite event at one end keeps what holds of the frames that this end receives. -/
theorem Invariant.receiving_self (h : Invariant service s) (hpolite : Polite service s (side, e))
    (hstep : PostingConnection.step (s side).posting (e.toEvent (s side).incoming) = some (posting, out))
    (haccepted : accepted out = SingleFlight.puts (PostingConnection.queueEvent
      (UInt32.ofNat (s side).requested.length) (e.toEvent (s side).incoming))) :
    ∃ frames tail, Receiving frames tail (s.after side e posting out side)
      (s.after side e posting out side.other) := by
  obtain ⟨frames, tail, hreceiving⟩ := h.receiving side
  have hsound := h.sound side
  have hframes := (h.sound side.other).frames
  have hanswers : Answers (service side.other) (s side) (s side.other) := by
    have := h.answers side.other
    rwa [Side.other_other] at this
  have hrequested : idsOf COR_FRAME_TYPE_REQUEST ((s side).accepted ++ accepted out) =
      (s side).requested ++ e.newIds (UInt32.ofNat (s side).requested.length) := by
    rw [idsOf_append, haccepted, requested_puts]
  rw [after_self, after_other]
  cases e with
  | sendRequest flags data =>
    exact ⟨frames, tail, hreceiving.of_request hsound hframes hanswers hpolite.2 hstep hrequested⟩
  | sendResponse correlationId flags data =>
    exact ⟨frames, tail, hreceiving.of_send (by simp [EndEvent.toEvent]) (by simp [EndEvent.toEvent]) hstep
      (hrequested.trans (List.append_nil _))⟩
  | onCurrentSendItemDone =>
    exact ⟨frames, tail, hreceiving.of_send (by simp [EndEvent.toEvent]) (by simp [EndEvent.toEvent]) hstep
      (hrequested.trans (List.append_nil _))⟩
  | onSocketReadyRead sizes =>
    rw [haccepted]
    change ∃ frames tail, Receiving frames tail
      { posting, incoming := (s side).incoming.drop sizes.sum, accepted := (s side).accepted ++ [] } _
    rw [List.append_nil]
    exact hreceiving.of_read hsound hframes hanswers hstep

/-- Every response that a polite event sends is an answer. -/
theorem Invariant.answers_self (h : Invariant service s) (hpolite : Polite service s (side, e))
    (haccepted : accepted out = SingleFlight.puts (PostingConnection.queueEvent
      (UInt32.ofNat (s side).requested.length) (e.toEvent (s side).incoming))) :
    Answers (service side) (s.after side e posting out side.other) (s.after side e posting out side) := by
  rw [after_self, after_other]
  intro item hitem hresponse
  rcases List.mem_append.mp hitem with hold | hnew
  · exact h.answers side item hold hresponse
  · rw [haccepted] at hnew
    cases e with
    | sendRequest flags data =>
      rw [List.mem_singleton.mp hnew] at hresponse
      change some COR_FRAME_TYPE_REQUEST = some COR_FRAME_TYPE_RESPONSE at hresponse
      exact absurd hresponse (by decide)
    | sendResponse correlationId flags data =>
      obtain rfl := List.mem_singleton.mp hnew
      obtain ⟨-, request, hdelivered, hid, hservice⟩ := hpolite
      obtain ⟨frames, tail, hreceiving⟩ := h.receiving side
      obtain ⟨asked, hasked, htype, hasked_id, hdata⟩ :=
        hreceiving.exists_request (h.sound side.other).frames hdelivered
      exact ⟨asked, hasked, htype, hasked_id.trans hid, hdata ▸ hservice⟩
    | onCurrentSendItemDone => exact absurd hnew List.not_mem_nil
    | onSocketReadyRead sizes => exact absurd hnew List.not_mem_nil

/-- A polite event keeps the invariant. -/
theorem Invariant.step (h : Invariant service s) {e : Side × EndEvent} (hpolite : Polite service s e)
    {out : List (Side × Output)} (hstep : Session.step s e = some (t, out)) : Invariant service t := by
  obtain ⟨side, e⟩ := e
  obtain ⟨posting, out, hstep', hposting, hsound, hwrites, haccepted⟩ :=
    exists_step (h.sound side) hpolite
  obtain ⟨rfl, -⟩ := Prod.mk.inj (Option.some.inj (hstep.symm.trans hstep'))
  refine ⟨fun x => ?_, fun x => ?_, fun x => ?_⟩
  · rcases side.eq_or_eq_other x with rfl | rfl
    · exact hsound
    · rw [after_other]
      exact ⟨(h.sound _).sending, (h.sound _).frames, (h.sound _).numbered, (h.sound _).bounded⟩
  · rcases side.eq_or_eq_other x with rfl | rfl
    · exact h.receiving_self hpolite hposting haccepted
    · obtain ⟨frames, tail, hreceiving⟩ := h.receiving side.other
      rw [Side.other_other] at hreceiving ⊢
      rw [after_other, after_self]
      exact ⟨frames, tail, hreceiving.of_sender hwrites _⟩
  · rcases side.eq_or_eq_other x with rfl | rfl
    · exact h.answers_self hpolite haccepted
    · rw [Side.other_other, after_other, after_self]
      intro item hitem hresponse
      obtain ⟨request, hrequest, hfits⟩ := h.answers side.other item hitem hresponse
      rw [Side.other_other] at hrequest
      exact ⟨request, List.mem_append_left _ hrequest, hfits⟩

/-- What has been delivered are the first frames that the other end has accepted. -/
theorem Receiving.exists_delivered (h : Receiving frames tail receiver sender)
    (hframes : ∀ item ∈ sender.accepted, IsFrame item ∧ item.data.length < 2 ^ 32) :
    ∃ sent later, sender.accepted = sent ++ later ∧
      List.Forall₂ Delivers receiver.d.delivered (sent.map frameOf) ∧
      tail ++ (receiver.incoming ++ sender.d.sendQueue.flatMap write) = later.flatMap write := by
  obtain ⟨sent, later, haccepted, hsent, hlater⟩ := exists_sent hframes h.stream
  refine ⟨sent, later, haccepted, ?_, hlater⟩
  have hmap : frames.map WireFrame.toQCorFrame = sent.map frameOf := by
    have hequal := (List.forall₂_map_left_iff (R := fun frame item => frame = frameOf item)).mpr
      (hsent.imp fun _ _ hencodes => hencodes.toQCorFrame_eq)
    rw [← List.forall₂_eq_eq_eq]
    exact List.forall₂_map_right_iff.mpr hequal
  rw [← hmap]
  exact List.forall₂_map_right_iff.mpr h.matched.delivered

/-- A frame with a body does not remain in the parser once all of it has arrived. -/
theorem Receiving.nothing_left (h : Receiving frames tail receiver sender)
    (hframes : ∀ item ∈ sender.accepted, IsFrame item ∧ item.data.length < 2 ^ 32)
    {later : List SendQueueItem} (hlater : tail = later.flatMap write)
    (hmem : ∀ item ∈ later, item ∈ sender.accepted) (hlast : ∀ item ∈ later.getLast?, item.data ≠ []) :
    later = [] := by
  cases later with
  | nil => rfl
  | cons item later =>
    obtain ⟨hitem, hsize⟩ := hframes item (hmem item List.mem_cons_self)
    obtain ⟨frame, hencodes⟩ := exists_encodes hitem hsize
    rw [List.flatMap_cons, hencodes.bytes_eq] at hlater
    obtain ⟨hempty, hnothing⟩ :=
      List.append_eq_nil_iff.mp (h.progress.unfinished frame (later.flatMap write) hlater)
    cases later with
    | nil =>
      refine absurd ?_ (hlast item rfl)
      rw [hencodes.item_eq]
      exact hempty
    | cons next later =>
      rw [List.flatMap_cons] at hnothing
      exact absurd (List.append_eq_nil_iff.mp hnothing).1 (write_ne_nil next)

/-- In a state that keeps the invariant, remote calls work. -/
theorem Invariant.callsWork (h : Invariant service s) (side : Side) : CallsWork service s side := by
  obtain ⟨frames, tail, hreceiving⟩ := h.receiving side
  have hframes := (h.sound side.other).frames
  have hmatched := hreceiving.matched
  obtain ⟨sent, later, haccepted, hdelivered, hlater⟩ := hreceiving.exists_delivered hframes
  refine ⟨⟨sent.map frameOf, ?_, hdelivered⟩, ?_, hmatched.pending, hmatched.once, ?_, hmatched.dropped, ?_⟩
  · rw [haccepted, List.map_append]
    exact List.prefix_append _ _
  · rw [(h.sound side).numbered]
    exact firstIds_nodup (h.sound side).bounded
  · intro correlationId frame hfinished
    obtain ⟨wire, hwire, hresponse, rfl, rfl⟩ := hmatched.finished correlationId frame hfinished
    obtain ⟨items, rest, heq, hitems, -⟩ := exists_sent hframes hreceiving.stream
    obtain ⟨item, hitem, hencodes⟩ := PairedLists.exists_partner hitems hwire
    have hanswers := h.answers side.other item (heq ▸ List.mem_append_left _ hitem)
      (by rw [hencodes.item_eq, ← hresponse]; rfl)
    rw [Side.other_other, hencodes.item_eq] at hanswers
    obtain ⟨request, hrequest, htype, hid, hservice⟩ := hanswers
    exact ⟨request, hrequest, wire.toQCorFrame, htype, hid, rfl, rfl, hservice⟩
  · intro hidle hlast
    obtain ⟨q, hsending, hawake⟩ := (h.sound side.other).sending
    rw [Busy, not_or, Nat.not_lt, Nat.le_zero, not_not] at hidle
    have hqueue : (s side.other).d.sendQueue = [] := by
      by_contra hwaiting
      rw [← hsending.queue] at hawake
      have hposted := hawake.posted
      rw [if_neg (hawake.current hwaiting)] at hposted
      change (s side.other).posting.posted = 1 at hposted
      omega
    rw [hqueue, hidle.2, List.flatMap_nil, List.append_nil, List.append_nil] at hlater
    have hnothing := hreceiving.nothing_left hframes hlater
      (fun item hmem => haccepted ▸ List.mem_append_right _ hmem) fun item hitem => by
        refine hlast item ?_
        rw [haccepted, List.getLast?_append, hitem]
        rfl
    rw [haccepted, hnothing, List.append_nil]
    exact hdelivered

/-- The invariant holds in every state of a polite run. -/
theorem eachState_invariant (service : Side → List UInt8 → List UInt8 → Prop)
    {events : List (Side × EndEvent)} (hpolite : Runs.EachStep step (Polite service) (fun _ => {}) events) :
    Runs.EachState step (Invariant service) (fun _ => {}) events := by
  refine Runs.eachState_of_eachStep (fun s e t out h hguard hstep => ?_) (invariant_init service) hpolite
  exact h.step hguard hstep

/-- In every interleaving of calls, events and reads at the two ends, remote calls work in both
directions, provided that only requests that were delivered are answered. -/
theorem calls_work (service : Side → List UInt8 → List UInt8 → Prop) {events : List (Side × EndEvent)}
    (hpolite : Runs.EachStep step (Polite service) (fun _ => {}) events) :
    (∃ t out, Runs.run step (fun _ => {}) events = some (t, out)) ∧
      Runs.EachState step (fun s => ∀ side, CallsWork service s side) (fun _ => {}) events := by
  have hkeep : ∀ s e t out, Invariant service s → Polite service s e → step s e = some (t, out) →
      Invariant service t := fun _ _ _ _ h hpolite hstep => h.step hpolite hstep
  constructor
  · refine Runs.exists_run_of_eachStep hkeep (fun s e h hpolite => ?_) (invariant_init service) hpolite
    obtain ⟨posting, out, hstep, -⟩ := exists_step (h.sound e.1) hpolite
    exact ⟨_, _, hstep⟩
  · exact (eachState_invariant service hpolite).mono fun _ h side => h.callsWork side

/-- Whether a delivery is a request that may be answered in this way. -/
def answerable (serve : List UInt8 → List UInt8 → Prop) [∀ asked answer, Decidable (serve asked answer)]
    (correlationId : UInt32) (data : List UInt8) : Delivery → Bool
  | .newIncomingRequest (some request) =>
    request.correlationId = some correlationId ∧ serve request.data data
  | _ => false

/-- Whether an event is polite can be looked up in the deliveries. -/
instance decidablePolite [∀ side asked answer, Decidable (service side asked answer)] (s : Session) :
    ∀ e, Decidable (Polite service s e)
  | (_, .sendRequest _ _) => inferInstanceAs (Decidable (_ ∧ _))
  | (_, .onCurrentSendItemDone) => inferInstanceAs (Decidable True)
  | (_, .onSocketReadyRead _) => inferInstanceAs (Decidable True)
  | (side, .sendResponse correlationId _ data) =>
    decidable_of_iff (data.length < 2 ^ 31 ∧
        ∃ delivery ∈ (s side).d.delivered, answerable (service side) correlationId data delivery) <| by
      refine and_congr_right fun _ => ⟨?_, ?_⟩
      · rintro ⟨delivery, hmem, hanswerable⟩
        match delivery, hanswerable with
        | .newIncomingRequest (some request), hanswerable =>
          exact ⟨request, hmem, of_decide_eq_true hanswerable⟩
      · rintro ⟨request, hmem, hanswerable⟩
        exact ⟨_, hmem, decide_eq_true hanswerable⟩

/-- Two requests are made at one end and one at the other one. The second one is answered first, and the
answers arrive in pieces. -/
def crossedCalls : List (Side × EndEvent) :=
  [(.client, .sendRequest 0 [1, 2]), (.server, .sendRequest 0 [9]), (.client, .sendRequest 3 [5, 6]),
    (.client, .onCurrentSendItemDone), (.server, .onSocketReadyRead [4, 30]),
    (.server, .sendResponse 2 0 [6, 5]), (.client, .onSocketReadyRead [20]),
    (.client, .sendResponse 1 0 [9]), (.server, .onCurrentSendItemDone),
    (.client, .onCurrentSendItemDone), (.server, .onSocketReadyRead [13]),
    (.client, .onSocketReadyRead [7, 9]), (.server, .sendResponse 1 7 [2, 1]),
    (.server, .onCurrentSendItemDone), (.client, .onCurrentSendItemDone),
    (.server, .onSocketReadyRead [20]), (.client, .onSocketReadyRead [40]),
    (.server, .onCurrentSendItemDone)]

/-- Requests are answered with the same bytes in the opposite order. -/
theorem calls_work_crossedCalls :
    (∃ t out, Runs.run step (fun _ => {}) crossedCalls = some (t, out)) ∧
      Runs.EachState step (fun s => ∀ side, CallsWork (fun _ asked answer => answer = asked.reverse) s side)
        (fun _ => {}) crossedCalls :=
  calls_work (fun _ asked answer => answer = asked.reverse) (by decide +kernel)

/-- Every request that was delivered at an end has been answered there. -/
def AllAnswered (s : Session) (side : Side) : Prop :=
  ∀ request, .newIncomingRequest (some request) ∈ (s side).d.delivered →
    ∃ item ∈ (s side).accepted, item.frame.type = some COR_FRAME_TYPE_RESPONSE ∧
      item.frame.correlationId = request.correlationId

/-- Whether a delivery is not a request, or one of the items answers it. -/
def answeredIn (items : List SendQueueItem) : Delivery → Bool
  | .newIncomingRequest (some request) => items.any fun item =>
      item.frame.type = some COR_FRAME_TYPE_RESPONSE ∧ item.frame.correlationId = request.correlationId
  | _ => true

/-- Whether all requests have been answered can be looked up in the items that were accepted. -/
instance decidableAllAnswered (s : Session) (side : Side) : Decidable (s.AllAnswered side) :=
  decidable_of_iff (∀ delivery ∈ (s side).d.delivered, answeredIn (s side).accepted delivery) <| by
    constructor
    · intro h request hmem
      obtain ⟨item, hitem, hanswers⟩ := List.any_eq_true.mp (h _ hmem)
      exact ⟨item, hitem, of_decide_eq_true hanswers⟩
    · intro h delivery hmem
      match delivery, hmem with
      | .newIncomingRequest (some request), hmem =>
        obtain ⟨item, hitem, hanswers⟩ := h request hmem
        exact List.any_eq_true.mpr ⟨item, hitem, decide_eq_true hanswers⟩
      | .newIncomingRequest none, _ => rfl
      | .finished _ _, _ => rfl
      | .dropped _, _ => rfl

/-- Whether an end is busy is seen at once. -/
instance decidableBusy (s : Session) (side : Side) : Decidable (s.Busy side) :=
  inferInstanceAs (Decidable (_ ∨ _))

/-- Nothing is left to do at either end, and the last frame of each end had a body. -/
structure Settled (s : Session) : Prop where
  idle : ∀ side, ¬ s.Busy side
  lastBody : ∀ side, ∀ item ∈ (s side).accepted.getLast?, item.data ≠ []
  answered : ∀ side, s.AllAnswered side

/-- Each item that the other end has accepted is delivered once nothing is left to do. -/
theorem CallsWork.exists_delivery (h : CallsWork service s side) (hsettled : s.Settled)
    {item : SendQueueItem} (hitem : item ∈ (s side.other).accepted) :
    ∃ delivery ∈ (s side).d.delivered, Delivers delivery (frameOf item) :=
  PairedLists.exists_partner (h.nothingLost (hsettled.idle side) (hsettled.lastBody side.other)).flip
    (List.mem_map_of_mem hitem)

/-- A response that was delivered has finished the reply, or another one had done so before. -/
theorem CallsWork.mem_finished (h : CallsWork service s side) {delivery : Delivery} {frame : QCorFrame}
    (hmem : delivery ∈ (s side).d.delivered) (hdelivers : Delivers delivery frame)
    (htype : frame.type = .ResponseType) {correlationId : UInt32}
    (hid : frame.correlationId = some correlationId) :
    correlationId ∈ (ObservedConnection.finishedReplies (s side).d.delivered).map Prod.fst := by
  obtain ⟨id, hsame, hdelivers⟩ := hdelivers
  obtain rfl := Option.some.inj (hsame.symm.trans hid)
  rw [htype] at hdelivers
  rcases hdelivers with rfl | rfl
  · exact List.mem_map.mpr ⟨(id, some frame), List.mem_filterMap.mpr ⟨_, hmem, rfl⟩, rfl⟩
  · obtain ⟨before, later, heq⟩ := List.append_of_mem hmem
    obtain ⟨other, hother, hbefore⟩ := h.dropped before (some frame) later heq
    obtain rfl := Option.some.inj (hother.symm.trans hid)
    rw [heq, finishedReplies_append, List.map_append]
    exact List.mem_append_left _ hbefore

/-- In a settled session no reply waits. -/
theorem replies_of_settled (h : ∀ side, CallsWork service s side) (hsettled : s.Settled) (side : Side)
    (correlationId : UInt32) : correlationId ∉ (s side).d.replies := by
  intro hpending
  obtain ⟨hrequested, hwaits⟩ := ((h side).pending correlationId).mp hpending
  obtain ⟨request, hmem, hid⟩ := List.mem_map.mp hrequested
  obtain ⟨hrequest, htype⟩ := List.mem_filter.mp hmem
  have hkind : (frameOf request).type = .RequestType := by
    rw [frameOf, of_decide_eq_true htype]
    rfl
  have haccepted : request ∈ (s side.other.other).accepted := by rwa [Side.other_other]
  obtain ⟨delivery, hdelivery, id, hsome, hdelivers⟩ :=
    (h side.other).exists_delivery hsettled haccepted
  rw [hkind] at hdelivers
  subst hdelivers
  obtain ⟨response, hresponse, hresponse_type, hresponse_id⟩ := hsettled.answered side.other _ hdelivery
  obtain ⟨answer, hanswer, hfinishes⟩ := (h side).exists_delivery hsettled hresponse
  have hsame : id = correlationId := by
    rw [← hid]
    exact (congrArg (Option.getD · 0) hsome).symm
  exact hwaits ((h side).mem_finished hanswer hfinishes (by rw [frameOf, if_pos hresponse_type])
    (hresponse_id.trans (hsome.trans (congrArg some hsame))))

/-- Once nothing is left to do and every request that was delivered has been answered, no call waits for
its reply. -/
theorem no_call_waits (service : Side → List UInt8 → List UInt8 → Prop) {events : List (Side × EndEvent)}
    (hpolite : Runs.EachStep step (Polite service) (fun _ => {}) events) {t : Session}
    {out : List (Side × Output)} (hrun : Runs.run step (fun _ => {}) events = some (t, out))
    (hsettled : t.Settled) (side : Side) (correlationId : UInt32) :
    correlationId ∉ (t side).d.replies :=
  replies_of_settled (fun side => ((eachState_invariant service hpolite).last hrun).callsWork side)
    hsettled side correlationId

/-- The ends are settled after these calls. -/
theorem settled_crossedCalls :
    ∀ done ∈ Runs.run step (fun _ => {}) crossedCalls, done.1.Settled := by
  have hends : ∀ done ∈ Runs.run step (fun _ => {}) crossedCalls, ∀ side ∈ [Side.client, Side.server],
      ¬ done.1.Busy side ∧ (∀ item ∈ (done.1 side).accepted.getLast?, item.data ≠ []) ∧
        done.1.AllAnswered side := by
    decide +kernel
  intro done hdone
  have hboth : ∀ side : Side, side ∈ [Side.client, Side.server] := by
    intro side
    cases side <;> decide
  exact ⟨fun side => (hends done hdone side (hboth side)).1,
    fun side => (hends done hdone side (hboth side)).2.1,
    fun side => (hends done hdone side (hboth side)).2.2⟩

/-- The three replies have been finished. -/
theorem no_call_waits_crossedCalls : ∃ t out, Runs.run step (fun _ => {}) crossedCalls = some (t, out) ∧
    ∀ side correlationId, correlationId ∉ (t side).d.replies := by
  have hpolite : Runs.EachStep step (Polite fun _ asked answer => answer = asked.reverse) (fun _ => {})
      crossedCalls := by decide +kernel
  have hdefined : (Runs.run step (fun _ => {}) crossedCalls).isSome := by decide +kernel
  obtain ⟨⟨t, out⟩, hrun⟩ := Option.isSome_iff_exists.mp hdefined
  exact ⟨t, out, hrun, no_call_waits _ hpolite hrun (settled_crossedCalls _ hrun)⟩

end Session

end Ts3Video
