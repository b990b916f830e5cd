import Ts3Video.Library.Segments
import Ts3Video.Library.Table
import Ts3Video.Media.BufferIndexing
import Ts3Video.Media.DatagramParsing

/-!
# The decoding thread

Complete frames are decoded in a thread of their own, by one instance of the codec for each sender. A
reset of a sender deletes its reassembly state at once and its codec when the thread gets to it. The
frames in between belong to the old codec, and the new reassembly state starts with a key frame.
-/

namespace Ts3Video

open Std

/-- An instance of the codec with the frames that it has been given. -/
structure VP8Decoder where
  frames : List VP8Frame := []

/-- Give a frame to the codec. -/
def VP8Decoder.decodeFrameRaw (decoder : VP8Decoder) (frame : VP8Frame) : VP8Decoder where
  frames := decoder.frames ++ [frame]

/-- The queue of the thread and the codecs of the senders. -/
structure VideoDecodingThread where
  queue : List (Option VP8Frame × Int32) := []
  decoders : ExtTreeMap Int32 VP8Decoder := ∅

namespace VideoDecodingThread

/-- Append to the queue. Without a frame, the codec of the sender is to be reset. -/
def enqueue (t : VideoDecodingThread) (frame : Option VP8Frame) (senderId : Int32) :
    VideoDecodingThread :=
  { t with queue := t.queue ++ [(frame, senderId)] }

/-- The loop body of `run`: take an item out of the queue, and create the codec of its sender if there
is none. -/
def run (t : VideoDecodingThread) : VideoDecodingThread :=
  match t.queue with
  | [] => t
  | item :: queue =>
    if item.2 = 0 then { t with queue }
    else
      match item.1 with
      | none => { queue, decoders := t.decoders.erase item.2 }
      | some frame =>
        let decoder := (t.decoders[item.2]?).getD {}
        { queue, decoders := t.decoders.insert item.2 (decoder.decodeFrameRaw frame) }

/-- What is queued for a sender. -/
def queued (t : VideoDecodingThread) (senderId : Int32) : List (Option VP8Frame) :=
  t.queue.filterMap fun item => if item.2 = senderId then some item.1 else none

/-- Every codec was given a key frame first. -/
def StartedOnKey (t : VideoDecodingThread) : Prop :=
  ∀ (senderId : Int32) (decoder : VP8Decoder), t.decoders[senderId]? = some decoder →
    ∃ frame, decoder.frames.head? = some frame ∧ frame.type = VP8Frame.KEY

end VideoDecodingThread

/-- The receiving side of a media socket with its thread. -/
structure VideoReceiver where
  socket : MediaSocket := {}
  videoDecodingThread : VideoDecodingThread := {}

namespace VideoReceiver

/-- What happens to the receiving side: a datagram arrives, the video of a client starts anew, or the
thread takes its next turn. -/
inductive Event where
  | readyRead (pending : MediaSocket.PendingDatagram)
  | resetVideoDecoderOfClient (senderId : Int32)
  | decode

/-- The frames among the effects of the socket go to the thread. -/
def handle (t : VideoDecodingThread) : MediaSocket.Effect → VideoDecodingThread
  | .enqueue frame senderId => t.enqueue (some frame) senderId
  | _ => t

/-- Reset the codec of a client and delete its reassembly state. -/
def resetVideoDecoderOfClient (s : VideoReceiver) (senderId : Int32) : VideoReceiver where
  socket := { s.socket with
    videoFrameDatagramDecoders := s.socket.videoFrameDatagramDecoders.erase senderId }
  videoDecodingThread := s.videoDecodingThread.enqueue none senderId

/-- The receiving side as a machine. -/
def step (s : VideoReceiver) : Event → Option (VideoReceiver × List MediaSocket.Effect)
  | .readyRead pending =>
    (s.socket.onReadyRead pending).map fun done =>
      ({ socket := done.1, videoDecodingThread := done.2.foldl handle s.videoDecodingThread }, done.2)
  | .resetVideoDecoderOfClient senderId => some (s.resetVideoDecoderOfClient senderId, [])
  | .decode => some ({ s with videoDecodingThread := s.videoDecodingThread.run }, [])

/-- The frames that are queued for a sender agree with its codec and its reassembly state. -/
structure Synchronized (s : VideoReceiver) (senderId : Int32) : Prop where
  segments : Segments.BeginWith (fun frame : VP8Frame => frame.type = VP8Frame.KEY)
    (senderId ∈ s.videoDecodingThread.decoders) (s.videoDecodingThread.queued senderId)
  codec : (s.socket.decoderOf senderId).receivedKeyFrameCount ≠ 0 → Segments.OpenAfter
    (senderId ∈ s.videoDecodingThread.decoders) (s.videoDecodingThread.queued senderId)

/-- The codecs were given key frames first, and the ones that follow will be. -/
structure Invariant (s : VideoReceiver) : Prop where
  started : s.videoDecodingThread.StartedOnKey
  synchronized : ∀ senderId : Int32, senderId ≠ 0 → s.Synchronized senderId

variable {s s' : VideoReceiver} {senderId : Int32}

/-- One more item is queued for its sender. -/
theorem queued_enqueue (t : VideoDecodingThread) (frame : Option VP8Frame) (k senderId : Int32) :
    (t.enqueue frame k).queued senderId =
      t.queued senderId ++ if k = senderId then [frame] else [] := by
  rw [VideoDecodingThread.queued, VideoDecodingThread.enqueue, List.filterMap_append]
  congr 1
  split
  next h => simp [h]
  next h => simp [h]

/-- A frame among the effects is queued for its sender, and no codec changes. -/
theorem handle_eq (effect : MediaSocket.Effect) (t : VideoDecodingThread) (senderId : Int32) :
    (handle t effect).decoders = t.decoders ∧ (handle t effect).queued senderId =
      t.queued senderId ++ (MediaSocket.enqueued senderId [effect]).map some := by
  cases effect with
  | enqueue frame k =>
    refine ⟨rfl, ?_⟩
    rw [handle, queued_enqueue]
    congr 1
    simp only [MediaSocket.enqueued, List.filterMap_cons, List.filterMap_nil]
    split
    · rfl
    · rfl
  | enqueueRecovery => exact ⟨rfl, (List.append_nil _).symm⟩
  | writeDatagram datagram => exact ⟨rfl, (List.append_nil _).symm⟩

/-- The frames of a sender are queued in the order of the effects, and no codec changes. -/
theorem foldl_handle (effects : List MediaSocket.Effect) (t : VideoDecodingThread) (senderId : Int32) :
    (effects.foldl handle t).decoders = t.decoders ∧ (effects.foldl handle t).queued senderId =
      t.queued senderId ++ (MediaSocket.enqueued senderId effects).map some := by
  induction effects generalizing t with
  | nil => exact ⟨rfl, (List.append_nil _).symm⟩
  | cons effect effects ih =>
    have hcons : MediaSocket.enqueued senderId (effect :: effects) =
        MediaSocket.enqueued senderId [effect] ++ MediaSocket.enqueued senderId effects :=
      MediaSocket.enqueued_append senderId [effect] effects
    obtain ⟨hdecoders, hqueued⟩ := ih (handle t effect)
    obtain ⟨hsame, hfirst⟩ := handle_eq effect t senderId
    refine ⟨hdecoders.trans hsame, ?_⟩
    rw [List.foldl_cons, hqueued, hfirst, hcons, List.map_append, List.append_assoc]

/-- The first item of the queue is one of its sender. -/
theorem queued_cons (item : Option VP8Frame) (k : Int32) (queue : List (Option VP8Frame × Int32))
    (decoders decoders' : ExtTreeMap Int32 VP8Decoder) (senderId : Int32) :
    VideoDecodingThread.queued ⟨(item, k) :: queue, decoders⟩ senderId =
      (if k = senderId then [item] else []) ++
        VideoDecodingThread.queued ⟨queue, decoders'⟩ senderId := by
  simp only [VideoDecodingThread.queued, List.filterMap_cons]
  split
  next hnone =>
    rw [if_neg fun heq => by simp [heq] at hnone]
    rfl
  next found hsome =>
    split at hsome
    next heq =>
      rw [if_pos heq, Option.some.inj hsome]
      rfl
    next => contradiction

/-- An item of another sender is taken out of the queue. -/
theorem Synchronized.skip {socket : MediaSocket} {item : Option VP8Frame} {k : Int32}
    {queue : List (Option VP8Frame × Int32)} {decoders decoders' : ExtTreeMap Int32 VP8Decoder}
    (h : Synchronized ⟨socket, ⟨(item, k) :: queue, decoders⟩⟩ senderId) (hne : k ≠ senderId)
    (hkeep : senderId ∈ decoders → senderId ∈ decoders') :
    Synchronized ⟨socket, ⟨queue, decoders'⟩⟩ senderId := by
  obtain ⟨hsegments, hcodec⟩ := h
  simp only [queued_cons item k queue decoders decoders', if_neg hne, List.nil_append]
    at hsegments hcodec
  exact ⟨hsegments.mono hkeep, fun hcount => (hcodec hcount).mono hkeep⟩

/-- A turn of the thread keeps the codecs in step with the queue. -/
theorem Invariant.decode (h : s.Invariant) :
    Invariant { s with videoDecodingThread := s.videoDecodingThread.run } := by
  obtain ⟨socket, ⟨queue, decoders⟩⟩ := s
  rcases queue with _ | ⟨⟨item, k⟩, queue⟩
  · exact h
  by_cases hzero : k = 0
  · have hrun : VideoDecodingThread.run ⟨(item, k) :: queue, decoders⟩ = ⟨queue, decoders⟩ :=
      if_pos hzero
    rw [hrun]
    refine ⟨h.started, fun senderId hne => (h.synchronized senderId hne).skip ?_ id⟩
    rintro rfl
    exact hne hzero
  obtain ⟨hsegments, hcodec⟩ := h.synchronized k hzero
  rcases item with _ | frame
  · have hrun : VideoDecodingThread.run ⟨(none, k) :: queue, decoders⟩ =
        ⟨queue, decoders.erase k⟩ := if_neg hzero
    simp only [queued_cons none k queue decoders (decoders.erase k), if_pos, List.singleton_append]
      at hsegments hcodec
    rw [hrun]
    refine ⟨fun senderId decoder hfound => h.started senderId decoder (Table.of_getElem?_erase hfound).2,
      fun senderId hne => ?_⟩
    by_cases heq : k = senderId
    · subst heq
      have hclosed : Segments.BeginWith _ False _ := hsegments
      refine ⟨hclosed.mono False.elim, fun hcount => ?_⟩
      have hopen : Segments.OpenAfter False _ := hcodec hcount
      exact hopen.mono False.elim
    · refine (h.synchronized senderId hne).skip heq fun hmem => ?_
      obtain ⟨decoder, hdecoder⟩ := Table.mem_iff.mp hmem
      exact Table.mem_of_getElem? ((Table.getElem?_erase decoders k senderId).trans
        ((if_neg heq).trans hdecoder))
  · have hrun : VideoDecodingThread.run ⟨(some frame, k) :: queue, decoders⟩ =
        ⟨queue, decoders.insert k (((decoders[k]?).getD {}).decodeFrameRaw frame)⟩ := if_neg hzero
    simp only [queued_cons (some frame) k queue decoders
      (decoders.insert k (((decoders[k]?).getD {}).decodeFrameRaw frame)), if_pos,
      List.singleton_append] at hsegments hcodec
    rw [hrun]
    refine ⟨fun senderId decoder hfound => ?_, fun senderId hne => ?_⟩
    · rcases Table.of_getElem?_insert hfound with ⟨rfl, rfl⟩ | hold
      · cases hdecoder : decoders[k]? with
        | none =>
          have hnew : k ∉ decoders := fun hmem => by
            rw [ExtTreeMap.mem_iff_isSome_getElem?, hdecoder] at hmem
            contradiction
          exact ⟨frame, rfl, hsegments.1.resolve_left hnew⟩
        | some decoder =>
          obtain ⟨first, hfirst, hkey⟩ := h.started k decoder hdecoder
          exact ⟨first, List.mem_head?_append_of_mem_head? hfirst, hkey⟩
      · exact h.started senderId decoder hold
    · by_cases heq : k = senderId
      · subst heq
        have hmem : k ∈ decoders.insert k (((decoders[k]?).getD {}).decodeFrameRaw frame) :=
          ExtTreeMap.mem_insert_self
        refine ⟨hsegments.2.mono fun _ => hmem, fun hcount => ?_⟩
        have hopen : Segments.OpenAfter True _ := hcodec hcount
        exact hopen.mono fun _ => hmem
      · exact (h.synchronized senderId hne).skip heq fun hmem => ExtTreeMap.mem_insert.mpr (.inr hmem)

/-- A reset ends the frames of the old reassembly state and starts with an empty one. -/
theorem Invariant.reset (h : s.Invariant) (k : Int32) : (s.resetVideoDecoderOfClient k).Invariant := by
  refine ⟨h.started, fun senderId hne => ?_⟩
  obtain ⟨hsegments, hcodec⟩ := h.synchronized senderId hne
  have hqueued := queued_enqueue s.videoDecodingThread none k senderId
  by_cases heq : k = senderId
  · subst heq
    rw [if_pos rfl] at hqueued
    constructor
    · change Segments.BeginWith _ _ ((s.videoDecodingThread.enqueue none k).queued k)
      rw [hqueued]
      exact Segments.beginWith_append_none.mpr hsegments
    · intro hcount
      simp [resetVideoDecoderOfClient, MediaSocket.decoderOf] at hcount
  · rw [if_neg heq, List.append_nil] at hqueued
    have hdecoder : (s.resetVideoDecoderOfClient k).socket.decoderOf senderId =
        s.socket.decoderOf senderId := by
      rw [MediaSocket.decoderOf, resetVideoDecoderOfClient, Table.getElem?_erase, if_neg heq]
      rfl
    constructor
    · change Segments.BeginWith _ _ ((s.videoDecodingThread.enqueue none k).queued senderId)
      rwa [hqueued]
    · rw [hdecoder]
      change _ → Segments.OpenAfter _ ((s.videoDecodingThread.enqueue none k).queued senderId)
      rwa [hqueued]

/-- Frames that are queued for a sender whose reassembly state is as old as they are. -/
theorem Synchronized.frame (h : s.Synchronized senderId) {socket : MediaSocket}
    {t : VideoDecodingThread} {decoder : VideoFrameUdpDecoder}
    (hcount : decoder.receivedKeyFrameCount =
      (s.socket.decoderOf senderId).receivedKeyFrameCount)
    (hsocket : socket.decoderOf senderId = decoder.next.2)
    (hdecoders : t.decoders = s.videoDecodingThread.decoders)
    (hqueued : t.queued senderId =
      s.videoDecodingThread.queued senderId ++ decoder.next.1.toList.map some) :
    Synchronized ⟨socket, t⟩ senderId := by
  obtain ⟨hfirst, hreturned⟩ := decoder.next_started
  rw [hcount] at hfirst hreturned
  rcases hnext : decoder.next.1 with _ | frame
  · rw [hnext, Option.toList_none, List.map_nil, List.append_nil] at hqueued
    refine ⟨by rw [hqueued, hdecoders]; exact h.segments, fun hnew => ?_⟩
    rw [hqueued, hdecoders]
    rw [hsocket] at hnew
    exact h.codec ((hreturned hnew).resolve_right (by rw [hnext]; exact Bool.false_ne_true))
  · rw [hnext, Option.toList_some, List.map_singleton] at hqueued
    refine ⟨?_, fun _ => ?_⟩
    · rw [hqueued, hdecoders]
      exact Segments.beginWith_append_some.mpr
        ⟨h.segments, (hfirst frame hnext).imp_left h.codec⟩
    · rw [hqueued, hdecoders]
      exact Segments.openAfter_append_some.mpr trivial

/-- A datagram that arrives keeps the codecs in step. -/
theorem Invariant.readyRead (h : s.Invariant) {pending : MediaSocket.PendingDatagram}
    {socket : MediaSocket} {effects : List MediaSocket.Effect}
    (hstep : s.socket.onReadyRead pending = some (socket, effects)) :
    Invariant ⟨socket, effects.foldl handle s.videoDecodingThread⟩ := by
  refine ⟨?_, fun senderId hne => ?_⟩
  · intro senderId decoder hfound
    rw [(foldl_handle effects s.videoDecodingThread senderId).1] at hfound
    exact h.started senderId decoder hfound
  · obtain ⟨hdecoders, hqueued⟩ := foldl_handle effects s.videoDecodingThread senderId
    have hsame : socket.decoderOf senderId = s.socket.decoderOf senderId →
        MediaSocket.enqueued senderId effects = [] →
        Synchronized ⟨socket, effects.foldl handle s.videoDecodingThread⟩ senderId := by
      intro hsocket hnothing
      rw [hnothing, List.map_nil, List.append_nil] at hqueued
      obtain ⟨hsegments, hcodec⟩ := h.synchronized senderId hne
      exact ⟨by rw [hqueued, hdecoders]; exact hsegments, by rw [hqueued, hdecoders, hsocket]; exact hcodec⟩
    cases hreceived : MediaSocket.receivedVideoFrame pending with
    | none =>
      obtain ⟨others, heq, hnothing⟩ := MediaSocket.onReadyRead_of_not_received hreceived s.socket
      obtain ⟨rfl, rfl⟩ := Prod.mk.inj (Option.some.inj (heq.symm.trans hstep))
      exact hsame rfl (hnothing senderId)
    | some dg =>
      rw [MediaSocket.onReadyRead_of_received hreceived] at hstep
      by_cases heq : dg.sender = senderId
      · subst heq
        obtain ⟨decoder, hadd, -⟩ := Option.map_eq_some_iff.mp hstep
        obtain ⟨s', out, hspec, hsocket, hframes⟩ :=
          MediaSocket.handleVideoFrameDatagram_spec s.socket hadd pending.now
        obtain ⟨rfl, rfl⟩ := Prod.mk.inj (Option.some.inj (hspec.symm.trans hstep))
        rw [hframes] at hqueued
        exact (h.synchronized dg.sender hne).frame
          (VideoFrameUdpDecoder.add_cases hadd).2.2.1 hsocket hdecoders hqueued
      · refine hsame (MediaSocket.decoderOf_handleVideoFrameDatagram hstep heq) ?_
        exact MediaSocket.enqueued_eq_nil fun frame hmem =>
          heq (MediaSocket.senderId_of_handleVideoFrameDatagram hstep hmem).symm

/-- Every step keeps the codecs in step with the queue. -/
theorem Invariant.step (h : s.Invariant) {e : Event} {out : List MediaSocket.Effect}
    (hstep : step s e = some (s', out)) : s'.Invariant := by
  cases e with
  | readyRead pending =>
    obtain ⟨⟨socket, effects⟩, hread, heq⟩ := Option.map_eq_some_iff.mp hstep
    obtain ⟨rfl, -⟩ := Prod.mk.inj heq
    exact h.readyRead hread
  | resetVideoDecoderOfClient k =>
    obtain ⟨rfl, -⟩ := Prod.mk.inj (Option.some.inj hstep)
    exact h.reset k
  | decode =>
    obtain ⟨rfl, -⟩ := Prod.mk.inj (Option.some.inj hstep)
    exact h.decode

/-- At first, there are neither codecs nor frames. -/
theorem invariant_init : Invariant {} where
  started _ _ h := absurd h (Table.getElem?_empty_ne _ _)
  synchronized _ _ := ⟨trivial, fun hcount => by simp [MediaSocket.decoderOf] at hcount⟩

/-- The datagrams of a frame agree on the number of parts, and their indices are below it. -/
def WellFormed (counts : Int32 → UInt64 → UInt16) : Event → Prop
  | .readyRead pending => ∀ dg, MediaSocket.receivedVideoFrame pending = some dg →
    dg.index < dg.count ∧ dg.count = counts dg.sender dg.frameId
  | _ => True

/-- All buffers have the announced lengths. -/
def Allocated (counts : Int32 → UInt64 → UInt16) (s : VideoReceiver) : Prop :=
  ∀ senderId, VideoFrameUdpDecoder.BufferLengths (s.socket.decoderOf senderId) (counts senderId)

/-- A well-formed event is processed and keeps the lengths of the buffers. -/
theorem Allocated.step {counts : Int32 → UInt64 → UInt16} (h : s.Allocated counts) {e : Event}
    (hwell : WellFormed counts e) :
    ∃ s' out, VideoReceiver.step s e = some (s', out) ∧ s'.Allocated counts := by
  cases e with
  | resetVideoDecoderOfClient k =>
    refine ⟨_, _, rfl, fun senderId => ?_⟩
    rw [MediaSocket.decoderOf, resetVideoDecoderOfClient, Table.getElem?_erase]
    split
    · exact fun frameId buffer hget => by simp at hget
    · exact h senderId
  | decode => exact ⟨_, _, rfl, h⟩
  | readyRead pending =>
    cases hreceived : MediaSocket.receivedVideoFrame pending with
    | none =>
      obtain ⟨effects, hread, -⟩ := MediaSocket.onReadyRead_of_not_received hreceived s.socket
      exact ⟨⟨s.socket, effects.foldl handle s.videoDecodingThread⟩, effects,
        by rw [VideoReceiver.step, hread]; rfl, h⟩
    | some dg =>
      obtain ⟨hindex, hcount⟩ := hwell dg hreceived
      have hsame : VideoFrameUdpDecoder.announcedCounts (s.socket.decoderOf dg.sender)
          (counts dg.sender) (.add (some dg)) = counts dg.sender := by
        rw [VideoFrameUdpDecoder.announcedCounts]
        split
        · rfl
        · rw [hcount, Function.update_eq_self]
      have hdefined := (VideoFrameUdpDecoder.step_isSome_iff (h dg.sender) (.add (some dg))).mpr (by
        intro found hfound _
        obtain rfl := Option.some.inj (VideoFrameUdpDecoder.Event.add.inj hfound)
        rwa [hsame, ← hcount])
      obtain ⟨⟨decoder, out⟩, hadd⟩ := Option.isSome_iff_exists.mp hdefined
      have hlengths := VideoFrameUdpDecoder.bufferLengths_step (h dg.sender) hadd
      rw [hsame] at hlengths
      obtain ⟨added, hadded, heq⟩ := Option.map_eq_some_iff.mp hadd
      obtain ⟨rfl, -⟩ := Prod.mk.inj heq
      obtain ⟨socket, effects, hhandle, hsocket, -⟩ :=
        MediaSocket.handleVideoFrameDatagram_spec s.socket hadded pending.now
      have hread := (MediaSocket.onReadyRead_of_received hreceived s.socket).trans hhandle
      refine ⟨_, _, by rw [VideoReceiver.step, hread]; rfl, fun senderId => ?_⟩
      change VideoFrameUdpDecoder.BufferLengths (socket.decoderOf senderId) _
      by_cases hsender : dg.sender = senderId
      · subst hsender
        rw [hsocket]
        exact VideoFrameUdpDecoder.bufferLengths_step (e := .next) hlengths rfl
      · rw [MediaSocket.decoderOf_handleVideoFrameDatagram hhandle hsender]
        exact h senderId

/-- Whatever well-formed datagrams arrive and whatever clients are reset, in any order with the turns of
the thread, every codec that the thread creates is given a key frame first. -/
theorem codecs_start_on_key (counts : Int32 → UInt64 → UInt16) (events : List Event)
    (hwell : ∀ e ∈ events, WellFormed counts e) :
    (∃ s out, Runs.run step {} events = some (s, out)) ∧
      Runs.EachState step (fun s => s.videoDecodingThread.StartedOnKey) {} events := by
  constructor
  · have hstep : ∀ before e t (out : List MediaSocket.Effect), (before ++ [e]) <+: events →
        Allocated counts t → ∃ t' more, step t e = some (t', more) ∧ Allocated counts t' := by
      rintro before e t out ⟨after, hsplit⟩ h
      exact h.step (hwell e (by rw [← hsplit]; simp))
    have hinit : Allocated counts {} := fun senderId frameId buffer hget => by
      simp [MediaSocket.decoderOf] at hget
    obtain ⟨s, out, hrun, -⟩ := Runs.run_history (P := fun _ s _ => Allocated counts s) hinit hstep
    exact ⟨s, out, hrun⟩
  · have hsteps : Runs.EachStep step (fun _ _ => True) {} events :=
      Runs.eachStep_of_forall (fun _ _ _ => trivial) _
    exact (Runs.eachState_of_eachStep (P := Invariant) (fun _ _ _ _ h _ hstep => h.step hstep)
      invariant_init hsteps).mono fun _ h => h.started

/-- A datagram that carries a frame as a whole. -/
def smallDatagram (senderId : Int32) (frame : VP8Frame) : Event :=
  .readyRead
    { data := (VideoFrameDatagram.partOf frame.serialize frame.time senderId 1 0).toBytes
      now := 0
      heap := fun _ => 0 }

/-- A client is reset while its first frames wait for the thread. -/
def resetWhileQueued : List Event :=
  [smallDatagram 5 ⟨1, VP8Frame.KEY, some [7]⟩, .resetVideoDecoderOfClient 5,
    smallDatagram 5 ⟨2, VP8Frame.NORMAL, some [8]⟩, smallDatagram 5 ⟨3, VP8Frame.KEY, some [9]⟩,
    .decode, .decode, .decode]

/-- The first codec is deleted, and the second one starts on the second key frame. -/
theorem codecs_start_on_key_resetWhileQueued :
    (Runs.run step {} resetWhileQueued).map (fun done =>
      (done.1.videoDecodingThread.decoders[(5 : Int32)]?).map VP8Decoder.frames) =
        some (some [⟨3, VP8Frame.KEY, some [9]⟩]) ∧
    Runs.EachState step (fun s => s.videoDecodingThread.StartedOnKey) {} resetWhileQueued := by
  refine ⟨by decide +kernel, (codecs_start_on_key (fun _ _ => 1) resetWhileQueued ?_).2⟩
  have hsmall : ∀ frame ∈ [⟨1, VP8Frame.KEY, some [7]⟩, ⟨2, VP8Frame.NORMAL, some [8]⟩,
      (⟨3, VP8Frame.KEY, some [9]⟩ : VP8Frame)], WellFormed (fun _ _ => 1) (smallDatagram 5 frame) := by
    intro frame hframe dg hreceived
    have hpart : (VideoFrameDatagram.partOf frame.serialize frame.time 5 1 0).data.length =
          (VideoFrameDatagram.partOf frame.serialize frame.time 5 1 0).size.toNat ∧
        (VideoFrameDatagram.partOf frame.serialize frame.time 5 1 0).size ≠ 0 := by
      simp only [List.mem_cons, List.not_mem_nil, or_false] at hframe
      rcases hframe with rfl | rfl | rfl <;> decide +kernel
    rw [MediaSocket.receivedVideoFrame_toBytes hpart.1 hpart.2] at hreceived
    obtain rfl := Option.some.inj hreceived
    exact ⟨(by decide : (0 : UInt16) < 1), rfl⟩
  intro e he
  simp only [resetWhileQueued, List.mem_cons, List.not_mem_nil, or_false] at he
  rcases he with rfl | rfl | rfl | rfl | rfl | rfl | rfl
  · exact hsmall _ (by simp)
  · trivial
  · exact hsmall _ (by simp)
  · exact hsmall _ (by simp)
  · trivial
  · trivial
  · trivial

end VideoReceiver

end Ts3Video
