import Ts3Video.Media.InOrderDelivery

/-!
# The datagrams of one frame in order

Datagrams that are numbered from zero arrive one after the other, under a frame id that is newer than
everything the decoder knows of. The last of them puts the frame into an empty queue, under the counter
of the frame itself, and the call of `next` after it decides what becomes of the frame.
-/

namespace Ts3Video.VideoFrameUdpDecoder

open Std

/-- All datagrams of a frame in the order of their indices. -/
def Numbered (frameId : UInt64) (datagrams : List VideoFrameDatagram) : Prop :=
  ∀ (i : ℕ) (dg : VideoFrameDatagram), datagrams[i]? = some dg →
    dg.frameId = frameId ∧ dg.index.toNat = i ∧ dg.count.toNat = datagrams.length

/-- The frame in the payloads of these datagrams. -/
def carriedFrame (datagrams : List VideoFrameDatagram) : VP8Frame :=
  VP8Frame.deserialize (datagrams.flatMap VideoFrameDatagram.payload)

/-- The frame id is newer than everything the decoder knows of. -/
structure Fresh (frameId : UInt64) (s : VideoFrameUdpDecoder) : Prop where
  queue : s.completeFramesQueue = ∅
  last : s.lastCompletedFrameId < frameId
  older : ∀ id ∈ s.frameBuffers, id < frameId

/-- Some datagrams of a frame have arrived, and others are still missing. -/
structure Arriving (frameId last : UInt64) (arrived missing : List VideoFrameDatagram)
    (s : VideoFrameUdpDecoder) : Prop where
  queue : s.completeFramesQueue = ∅
  last_eq : s.lastCompletedFrameId = last
  last_lt : last < frameId
  newest : ∀ id ∈ s.frameBuffers, id = frameId ∨ id < frameId
  buffer : (s.frameBuffers[frameId]?).getD
    (List.replicate (arrived.length + missing.length) none) =
      arrived.map some ++ List.replicate missing.length none

/-- The frame of the datagrams is the only one in the queue. -/
structure Arrived (frameId last : UInt64) (frame : VP8Frame) (s : VideoFrameUdpDecoder) : Prop where
  first : OrderedMap.first? s.completeFramesQueue = some (frame.time, frame)
  only : s.completeFramesQueue.erase frame.time = ∅
  last_eq : s.lastCompletedFrameId = last
  newest : ∀ id ∈ s.frameBuffers, id = frameId ∨ id < frameId

variable {frameId last : UInt64} {arrived missing : List VideoFrameDatagram} {dg : VideoFrameDatagram}
  {s : VideoFrameUdpDecoder}

/-- The late filter does not reach a newer frame. -/
theorem Arriving.recent (h : Arriving frameId last arrived missing s) :
    s.isAlreadyCompleted frameId = false := by
  have hnot : ¬ frameId ≤ s.lastCompletedFrameId := by
    rw [h.last_eq]
    exact UInt64.not_le.mpr h.last_lt
  simp [isAlreadyCompleted, hnot]

/-- The next datagram in order has its place in the buffer of the frame. -/
theorem Arriving.next_slot (h : Arriving frameId last arrived (dg :: missing) s)
    (hnumbered : Numbered frameId (arrived ++ dg :: missing)) :
    (s.bufferFor dg)[dg.index.toNat]? = some none ∧
      (s.bufferFor dg).set dg.index.toNat (some dg) =
        (arrived ++ [dg]).map some ++ List.replicate missing.length none := by
  obtain ⟨hid, hindex, hcount⟩ := hnumbered arrived.length dg (by simp)
  have hbuffer : s.bufferFor dg =
      arrived.map some ++ List.replicate (dg :: missing).length none := by
    rw [bufferFor, hid, hcount, List.length_append]
    exact h.buffer
  rw [hbuffer, hindex, List.length_cons, List.replicate_succ]
  constructor
  · rw [List.getElem?_append_right (by simp)]
    simp
  · rw [List.set_append_right _ _ (by simp)]
    simp

/-- Storing the next datagram evicts older buffers only. -/
theorem Arriving.store (h : Arriving frameId last arrived (dg :: missing) s)
    (hnumbered : Numbered frameId (arrived ++ dg :: missing)) :
    (∀ id ∈ s.store dg, id = frameId ∨ id < frameId) ∧ (s.store dg)[frameId]? =
      some ((arrived ++ [dg]).map some ++ List.replicate missing.length none) := by
  obtain ⟨hid, -, -⟩ := hnumbered arrived.length dg (by simp)
  obtain ⟨-, hset⟩ := h.next_slot hnumbered
  obtain ⟨hnewest, hstored⟩ := store_newest s dg (hid ▸ h.newest)
  rw [hid, hset] at hstored
  exact ⟨hid ▸ hnewest, hstored⟩

/-- A datagram that leaves others missing is stored, and nothing is handed out. -/
theorem Arriving.add_part {later : VideoFrameDatagram}
    (h : Arriving frameId last arrived (dg :: later :: missing) s)
    (hnumbered : Numbered frameId (arrived ++ dg :: later :: missing)) :
    ∃ s', Runs.run step s [.add (some dg), .next] = some (s', []) ∧
      Arriving frameId last (arrived ++ [dg]) (later :: missing) s' := by
  obtain ⟨hid, -, -⟩ := hnumbered arrived.length dg (by simp)
  obtain ⟨hslot, hset⟩ := h.next_slot hnumbered
  obtain ⟨hnewest, hstored⟩ := h.store hnumbered
  have hincomplete : isComplete ((s.bufferFor dg).set dg.index.toNat (some dg)) = false := by
    rw [hset, List.length_cons, List.replicate_succ]
    simp [isComplete]
  have hadd := add_of_incomplete (hid ▸ h.recent) hslot hincomplete
  exact ⟨_, run_add_next hadd (next_of_empty h.queue), h.queue, h.last_eq, h.last_lt, hnewest, by rw [hstored]; rfl⟩

/-- The last datagram puts the frame into the queue. -/
theorem Arriving.add_last (h : Arriving frameId last arrived [dg] s)
    (hnumbered : Numbered frameId (arrived ++ [dg])) :
    ∃ added, s.add (some dg) = some added ∧
      Arrived frameId last (carriedFrame (arrived ++ [dg])) added := by
  obtain ⟨hid, -, -⟩ := hnumbered arrived.length dg (by simp)
  obtain ⟨hslot, hset⟩ := h.next_slot hnumbered
  rw [List.length_nil, List.replicate_zero, List.append_nil] at hset
  have hcomplete : isComplete ((s.bufferFor dg).set dg.index.toNat (some dg)) = true := by
    rw [hset]
    simp [isComplete]
  have hframe : createFrame ((s.bufferFor dg).set dg.index.toNat (some dg)) =
      carriedFrame (arrived ++ [dg]) := by
    rw [hset, createFrame, carriedFrame, List.flatMap_map]
    rfl
  have hadd := add_of_complete (hid ▸ h.recent) hslot hcomplete hframe
  rw [h.queue, OrderedMap.trim_of_size_le (by simp [ExtTreeMap.size_insert, maximumDistinctFrames])]
    at hadd
  exact ⟨_, hadd, OrderedMap.first?_insert_empty _ _, OrderedMap.erase_insert_empty _ _, h.last_eq,
    (h.store hnumbered).1⟩

/-- The missing datagrams arrive in order, and the frame is looked at after the last of them. -/
theorem Arriving.run_missing (h : Arriving frameId last arrived missing s) (hsome : missing ≠ [])
    (hnumbered : Numbered frameId (arrived ++ missing)) :
    ∃ added, Runs.run step s (arrivals missing) = some (added.next.2, added.next.1.toList) ∧
      Arrived frameId last (carriedFrame (arrived ++ missing)) added := by
  induction missing generalizing arrived s with
  | nil => contradiction
  | cons dg missing ih =>
    cases missing with
    | nil =>
      obtain ⟨added, hadd, harrived⟩ := h.add_last hnumbered
      exact ⟨added, run_add_next hadd rfl, harrived⟩
    | cons later missing =>
      obtain ⟨s', hrun, h'⟩ := h.add_part hnumbered
      rw [List.append_cons] at hnumbered ⊢
      obtain ⟨added, hrest, harrived⟩ := ih h' (List.cons_ne_nil later missing) hnumbered
      exact ⟨added, Runs.run_append step hrun hrest, harrived⟩

/-- The datagrams of a frame with a new id arrive in order. -/
theorem Fresh.run_arrivals (h : Fresh frameId s) {datagrams : List VideoFrameDatagram}
    (hsome : datagrams ≠ []) (hnumbered : Numbered frameId datagrams) :
    ∃ added, Runs.run step s (arrivals datagrams) = some (added.next.2, added.next.1.toList) ∧
      Arrived frameId s.lastCompletedFrameId (carriedFrame datagrams) added := by
  have hunknown : frameId ∉ s.frameBuffers := fun hmem => UInt64.lt_irrefl _ (h.older _ hmem)
  have hstart : Arriving frameId s.lastCompletedFrameId [] datagrams s := by
    refine ⟨h.queue, rfl, h.last, fun id hmem => .inr (h.older id hmem), ?_⟩
    rw [ExtTreeMap.getElem?_eq_none hunknown, List.length_nil, Nat.zero_add]
    rfl
  exact hstart.run_missing hsome hnumbered

/-- The frame is taken out of the queue, and the last completed id moves to it at most. -/
theorem Arrived.next_state {frame : VP8Frame} (h : Arrived frameId last frame s) :
    s.next.2.completeFramesQueue = ∅ ∧ s.next.2.frameBuffers = s.frameBuffers ∧
      (s.next.2.lastCompletedFrameId = last ∨ s.next.2.lastCompletedFrameId = frame.time) := by
  rcases next_cases s with ⟨hnone, -⟩ | ⟨frameId, found, hfirst, hbuffers, hrest, hcases⟩
  · rw [h.first] at hnone
    contradiction
  · obtain ⟨rfl, -⟩ := Prod.mk.inj (Option.some.inj (h.first.symm.trans hfirst))
    rw [hrest, h.only, ← h.last_eq]
    exact ⟨rfl, hbuffers, hcases.imp And.right And.left⟩

/-- A newer frame id is fresh once the frame has been looked at. -/
theorem Arrived.fresh {frame : VP8Frame} (h : Arrived frameId last frame s) {frameId' : UInt64}
    (hlast : last < frameId') (htime : frame.time < frameId') (hid : frameId < frameId') :
    Fresh frameId' s.next.2 := by
  obtain ⟨hqueue, hbuffers, hcompleted⟩ := h.next_state
  refine ⟨hqueue, ?_, fun id hmem => ?_⟩
  · rcases hcompleted with heq | heq
    · rwa [heq]
    · rwa [heq]
  · rcases h.newest id (hbuffers ▸ hmem) with rfl | hlt
    · exact hid
    · exact UInt64.lt_trans hlt hid

/-- A key frame is handed out unless it is taken for one that has been completed already. -/
theorem Arrived.next_key {frame : VP8Frame} (h : Arrived frameId last frame s)
    (hkey : frame.type = VP8Frame.KEY) :
    s.next.1 = if s.isAlreadyCompleted frame.time then none else some frame := by
  have hstart : ¬ (s.receivedKeyFrameCount = 0 ∧ frame.type ≠ VP8Frame.KEY) := fun h => h.2 hkey
  unfold VideoFrameUdpDecoder.next
  simp only [h.first, if_neg hstart, if_pos hkey]
  split
  · rfl
  · rfl

/-- Nothing but the frame is handed out. -/
theorem Arrived.next_or {frame : VP8Frame} (h : Arrived frameId last frame s) :
    s.next.1 = none ∨ s.next.1 = some frame := by
  rcases next_cases s with ⟨-, hnone⟩ | ⟨frameId, found, hfirst, -, -, hcases⟩
  · exact .inl (congrArg Prod.fst hnone)
  · obtain ⟨-, rfl⟩ := Prod.mk.inj (Option.some.inj (h.first.symm.trans hfirst))
    exact hcases.elim (fun hcase => .inl hcase.1) And.right

end Ts3Video.VideoFrameUdpDecoder
