import Ts3Video.Library.OrderedMap
import Ts3Video.Library.Runs
import Ts3Video.Media.Protocol

/-!
# Reassembly of video frames

The decoder keeps a bounded number of partly received frames and a bounded queue of complete
ones. A buffer stays in place after its frame is complete, until it is the smallest of more than
sixteen. The vector of a buffer is allocated with the count of the datagram that opens it and is
indexed without a check, so an access outside of it is an undefined event of this machine.
-/

namespace Ts3Video

open Std

/-- The parts of one frame received so far, by their index. -/
abbrev DGPtrList := List (Option VideoFrameDatagram)

/-- What `add` reports about its datagram. -/
inductive VideoFrameUdpDecoder.ErrorTypes where
  | NoError
  | InvalidParameter
  | AlreadyProcessed
deriving DecidableEq

/-- The reassembly state of one sender. -/
structure VideoFrameUdpDecoder where
  lastError : VideoFrameUdpDecoder.ErrorTypes := .NoError
  frameBuffers : ExtTreeMap UInt64 DGPtrList := ∅
  completeFramesQueue : ExtTreeMap UInt64 VP8Frame := ∅
  lastCompletedFrameId : UInt64 := 0
  waitForFrameType : Int32 := VP8Frame.NORMAL
  receivedKeyFrameCount : UInt64 := 0

namespace VideoFrameUdpDecoder

/-- The bound on both containers. -/
def maximumDistinctFrames : ℕ := 16

/-- The filter for datagrams and frames that come too late to be of use. -/
def isAlreadyCompleted (s : VideoFrameUdpDecoder) (frameId : UInt64) : Bool :=
  frameId ≤ s.lastCompletedFrameId && s.lastCompletedFrameId - frameId < 256

/-- Every part has been received. -/
def isComplete (buffer : DGPtrList) : Bool := buffer.all Option.isSome

/-- Join the payloads of the parts and read the frame from them. -/
def createFrame (buffer : DGPtrList) : VP8Frame :=
  VP8Frame.deserialize (buffer.flatMap fun dg => dg.elim [] VideoFrameDatagram.payload)

/-- Take a datagram into its buffer. `none` is an access outside of the vector of the buffer. -/
def add (s : VideoFrameUdpDecoder) (dpart : Option VideoFrameDatagram) :
    Option VideoFrameUdpDecoder :=
  match dpart with
  | none => some { s with lastError := .InvalidParameter }
  | some dg =>
    if s.isAlreadyCompleted dg.frameId then some { s with lastError := .AlreadyProcessed }
    else
      let frameBuffers :=
        if dg.frameId ∈ s.frameBuffers then s.frameBuffers
        else s.frameBuffers.insert dg.frameId (List.replicate dg.count.toNat none)
      let buffer := frameBuffers.getD dg.frameId []
      match buffer[dg.index.toNat]? with
      | none => none
      | some (some _) => some { s with frameBuffers, lastError := .AlreadyProcessed }
      | some none =>
        let buffer := buffer.set dg.index.toNat (some dg)
        let frameBuffers := frameBuffers.insert dg.frameId buffer
        if !isComplete buffer then
          some { s with
            frameBuffers := OrderedMap.trim maximumDistinctFrames frameBuffers
            lastError := .NoError }
        else
          let frame := createFrame buffer
          some { s with
            frameBuffers := OrderedMap.trim maximumDistinctFrames frameBuffers
            completeFramesQueue := OrderedMap.trim maximumDistinctFrames
              (s.completeFramesQueue.insert frame.time frame)
            lastError := .NoError }

/-- Take the next frame out of the queue, or drop it if it cannot be used. -/
def next (s : VideoFrameUdpDecoder) : Option VP8Frame × VideoFrameUdpDecoder :=
  match OrderedMap.first? s.completeFramesQueue with
  | none => (none, s)
  | some (frameId, frame) =>
    let completeFramesQueue := s.completeFramesQueue.erase frameId
    if s.receivedKeyFrameCount = 0 ∧ frame.type ≠ VP8Frame.KEY then
      (none, { s with completeFramesQueue, waitForFrameType := VP8Frame.KEY })
    else if s.isAlreadyCompleted frameId then
      (none, { s with completeFramesQueue })
    else if frame.type = VP8Frame.KEY then
      (some frame, { s with
        completeFramesQueue
        lastCompletedFrameId := frameId
        waitForFrameType := VP8Frame.NORMAL
        receivedKeyFrameCount := s.receivedKeyFrameCount + 1 })
    else if s.waitForFrameType ≠ VP8Frame.NORMAL then
      if frame.type = s.waitForFrameType then
        (some frame, { s with
          completeFramesQueue
          lastCompletedFrameId := frameId
          waitForFrameType := VP8Frame.NORMAL })
      else
        (none, { s with completeFramesQueue, lastCompletedFrameId := frameId })
    else if frameId ≠ s.lastCompletedFrameId + 1 then
      (some frame, { s with
        waitForFrameType := VP8Frame.KEY
        completeFramesQueue
        lastCompletedFrameId := frameId })
    else
      (some frame, { s with
        completeFramesQueue
        lastCompletedFrameId := frameId
        waitForFrameType := VP8Frame.NORMAL })

/-- The kind of frame the decoder needs to go on. -/
def getWaitsForType (s : VideoFrameUdpDecoder) : Int32 := s.waitForFrameType

/-- One call of the decoder. -/
inductive Event where
  | add (dpart : Option VideoFrameDatagram)
  | next

/-- The decoder as a machine whose outputs are the frames it hands out. -/
def step (s : VideoFrameUdpDecoder) : Event → Option (VideoFrameUdpDecoder × List VP8Frame)
  | .add dpart => (s.add dpart).map fun s' => (s', [])
  | .next => some (s.next.2, s.next.1.toList)

/-- The buffer a datagram belongs to: the one of its frame id, or a new one of its own count. -/
def bufferFor (s : VideoFrameUdpDecoder) (dg : VideoFrameDatagram) : DGPtrList :=
  (s.frameBuffers[dg.frameId]?).getD (List.replicate dg.count.toNat none)

/-- `add` looks its datagram up in the buffer it belongs to. -/
theorem getD_frameBuffers (s : VideoFrameUdpDecoder) (dg : VideoFrameDatagram) :
    (if dg.frameId ∈ s.frameBuffers then s.frameBuffers
      else s.frameBuffers.insert dg.frameId (List.replicate dg.count.toNat none)).getD
        dg.frameId [] = s.bufferFor dg := by
  rw [ExtTreeMap.getD_eq_getD_getElem?, bufferFor]
  split
  next h => rw [ExtTreeMap.getElem?_eq_some_getElem h]; rfl
  next h => simp [ExtTreeMap.getElem?_eq_none h]

/-- Writing the buffer back replaces the one that was opened for the datagram. -/
theorem insert_frameBuffers (s : VideoFrameUdpDecoder) (dg : VideoFrameDatagram)
    (buffer : DGPtrList) :
    (if dg.frameId ∈ s.frameBuffers then s.frameBuffers
      else s.frameBuffers.insert dg.frameId (List.replicate dg.count.toNat none)).insert
        dg.frameId buffer = s.frameBuffers.insert dg.frameId buffer := by
  split
  · rfl
  · apply ExtTreeMap.ext_getElem?
    intro k
    simp only [ExtTreeMap.getElem?_insert]
    split <;> rfl

/-- A late datagram is dropped. -/
theorem add_of_isAlreadyCompleted {s : VideoFrameUdpDecoder} {dg : VideoFrameDatagram}
    (h : s.isAlreadyCompleted dg.frameId) :
    s.add (some dg) = some { s with lastError := .AlreadyProcessed } := by
  simp [add, h]

/-- An index that is not smaller than the length of the buffer is outside of the vector. -/
theorem add_of_length_le {s : VideoFrameUdpDecoder} {dg : VideoFrameDatagram}
    (hlate : s.isAlreadyCompleted dg.frameId = false)
    (h : (s.bufferFor dg).length ≤ dg.index.toNat) : s.add (some dg) = none := by
  simp only [add, hlate, getD_frameBuffers, List.getElem?_eq_none h]
  rfl

/-- Only a buffer that was opened before can hold a part. -/
theorem mem_frameBuffers_of_received {s : VideoFrameUdpDecoder} {dg old : VideoFrameDatagram}
    {i : ℕ} (h : (s.bufferFor dg)[i]? = some (some old)) : dg.frameId ∈ s.frameBuffers := by
  by_contra hnot
  rw [bufferFor, ExtTreeMap.getElem?_eq_none hnot, Option.getD_none, List.getElem?_replicate] at h
  split at h <;> simp at h

/-- A part that is there already is dropped, and all buffers stay as they are. -/
theorem add_of_received {s : VideoFrameUdpDecoder} {dg old : VideoFrameDatagram}
    (hlate : s.isAlreadyCompleted dg.frameId = false)
    (h : (s.bufferFor dg)[dg.index.toNat]? = some (some old)) :
    s.add (some dg) = some { s with lastError := .AlreadyProcessed } := by
  simp only [add, hlate, getD_frameBuffers, h]
  simp [mem_frameBuffers_of_received h]

/-- The buffers after a new part has been stored. -/
def store (s : VideoFrameUdpDecoder) (dg : VideoFrameDatagram) : ExtTreeMap UInt64 DGPtrList :=
  OrderedMap.trim maximumDistinctFrames
    (s.frameBuffers.insert dg.frameId ((s.bufferFor dg).set dg.index.toNat (some dg)))

/-- A new part that does not complete its frame is stored. -/
theorem add_of_incomplete {s : VideoFrameUdpDecoder} {dg : VideoFrameDatagram}
    (hlate : s.isAlreadyCompleted dg.frameId = false)
    (h : (s.bufferFor dg)[dg.index.toNat]? = some none)
    (hcomplete : isComplete ((s.bufferFor dg).set dg.index.toNat (some dg)) = false) :
    s.add (some dg) = some { s with frameBuffers := s.store dg, lastError := .NoError } := by
  simp only [add, hlate, getD_frameBuffers, insert_frameBuffers, h, hcomplete]
  rfl

/-- The last missing part puts its frame into the queue. -/
theorem add_of_complete {s : VideoFrameUdpDecoder} {dg : VideoFrameDatagram} {frame : VP8Frame}
    (hlate : s.isAlreadyCompleted dg.frameId = false)
    (h : (s.bufferFor dg)[dg.index.toNat]? = some none)
    (hcomplete : isComplete ((s.bufferFor dg).set dg.index.toNat (some dg)) = true)
    (hframe : createFrame ((s.bufferFor dg).set dg.index.toNat (some dg)) = frame) :
    s.add (some dg) = some { s with
      frameBuffers := s.store dg
      completeFramesQueue := OrderedMap.trim maximumDistinctFrames
        (s.completeFramesQueue.insert frame.time frame)
      lastError := .NoError } := by
  simp only [add, hlate, getD_frameBuffers, insert_frameBuffers, h, hcomplete, hframe]
  rfl

/-- `add` is defined exactly for late datagrams and for indices inside of their buffer. -/
theorem add_isSome_iff (s : VideoFrameUdpDecoder) (dg : VideoFrameDatagram) :
    (s.add (some dg)).isSome ↔
      (s.isAlreadyCompleted dg.frameId = false → dg.index.toNat < (s.bufferFor dg).length) := by
  cases hlate : s.isAlreadyCompleted dg.frameId with
  | true => simp [add_of_isAlreadyCompleted hlate]
  | false =>
    rw [forall_prop_of_true rfl]
    constructor
    · intro hsome
      by_contra hnot
      rw [add_of_length_le hlate (Nat.le_of_not_lt hnot)] at hsome
      contradiction
    · intro hlt
      have hget := List.getElem?_eq_getElem hlt
      cases hslot : (s.bufferFor dg)[dg.index.toNat] with
      | some old => rw [add_of_received hlate (hget.trans (congrArg some hslot))]; rfl
      | none =>
        have hnone := hget.trans (congrArg some hslot)
        cases hcomplete : isComplete ((s.bufferFor dg).set dg.index.toNat (some dg)) with
        | false => rw [add_of_incomplete hlate hnone hcomplete]; rfl
        | true => rw [add_of_complete hlate hnone hcomplete rfl]; rfl

/-- There is nothing to hand out. -/
theorem next_of_empty {s : VideoFrameUdpDecoder} (h : s.completeFramesQueue = ∅) : s.next = (none, s) := by
  simp only [next, OrderedMap.first?_eq_none.mpr h]

/-- `next` leaves the buffers alone and takes at most the first frame out of the queue. Only with
that frame does the last completed id move. -/
theorem next_cases (s : VideoFrameUdpDecoder) :
    OrderedMap.first? s.completeFramesQueue = none ∧ s.next = (none, s) ∨
      ∃ frameId frame, OrderedMap.first? s.completeFramesQueue = some (frameId, frame) ∧
        s.next.2.frameBuffers = s.frameBuffers ∧
        s.next.2.completeFramesQueue = s.completeFramesQueue.erase frameId ∧
        (s.next.1 = none ∧ s.next.2.lastCompletedFrameId = s.lastCompletedFrameId ∨
          s.next.2.lastCompletedFrameId = frameId ∧ (s.next.1 = none ∨ s.next.1 = some frame)) := by
  unfold next
  split
  next hnone => exact Or.inl ⟨hnone, rfl⟩
  next frameId frame hfirst =>
    refine Or.inr ⟨frameId, frame, hfirst, ?_⟩
    repeat' split
    all_goals simp

/-- The first frame that is handed out is a key frame, and only frames that are handed out are counted. -/
theorem next_started (s : VideoFrameUdpDecoder) :
    (∀ frame, s.next.1 = some frame → s.receivedKeyFrameCount ≠ 0 ∨ frame.type = VP8Frame.KEY) ∧
      (s.next.2.receivedKeyFrameCount ≠ 0 → s.receivedKeyFrameCount ≠ 0 ∨ s.next.1.isSome) := by
  unfold next
  split
  · exact ⟨fun frame hout => by contradiction, .inl⟩
  next frameId frame _ =>
    dsimp only
    split
    · exact ⟨fun found hout => by contradiction, .inl⟩
    next hstart =>
      have hfirst : ∀ found, some frame = some found →
          s.receivedKeyFrameCount ≠ 0 ∨ found.type = VP8Frame.KEY := by
        intro found hout
        rw [← Option.some.inj hout]
        by_contra hnot
        exact hstart (by simpa only [not_or, not_not] using hnot)
      split
      · exact ⟨fun found hout => by contradiction, .inl⟩
      · split
        · exact ⟨hfirst, fun _ => .inr rfl⟩
        · split
          · split
            · exact ⟨hfirst, .inl⟩
            · exact ⟨fun found hout => by contradiction, .inl⟩
          · split
            · exact ⟨hfirst, .inl⟩
            · exact ⟨hfirst, .inl⟩

/-- What `add` does with a datagram whose index is inside of its buffer. -/
inductive Added (s : VideoFrameUdpDecoder) (dg : VideoFrameDatagram) : VideoFrameUdpDecoder → Prop
  | late (hlate : s.isAlreadyCompleted dg.frameId = true) :
    Added s dg { s with lastError := .AlreadyProcessed }
  | received {old : VideoFrameDatagram} (hlate : s.isAlreadyCompleted dg.frameId = false)
    (hslot : (s.bufferFor dg)[dg.index.toNat]? = some (some old)) :
    Added s dg { s with lastError := .AlreadyProcessed }
  | incomplete (hlate : s.isAlreadyCompleted dg.frameId = false)
    (hslot : (s.bufferFor dg)[dg.index.toNat]? = some none)
    (hcomplete : isComplete ((s.bufferFor dg).set dg.index.toNat (some dg)) = false) :
    Added s dg { s with frameBuffers := s.store dg, lastError := .NoError }
  | complete {frame : VP8Frame} (hlate : s.isAlreadyCompleted dg.frameId = false)
    (hslot : (s.bufferFor dg)[dg.index.toNat]? = some none)
    (hcomplete : isComplete ((s.bufferFor dg).set dg.index.toNat (some dg)) = true)
    (hframe : createFrame ((s.bufferFor dg).set dg.index.toNat (some dg)) = frame) :
    Added s dg { s with
      frameBuffers := s.store dg
      completeFramesQueue := OrderedMap.trim maximumDistinctFrames
        (s.completeFramesQueue.insert frame.time frame)
      lastError := .NoError }

/-- Every defined call of `add` does one of these things. -/
theorem added_of_add {s s' : VideoFrameUdpDecoder} {dg : VideoFrameDatagram}
    (h : s.add (some dg) = some s') : Added s dg s' := by
  cases hlate : s.isAlreadyCompleted dg.frameId with
  | true =>
    rw [add_of_isAlreadyCompleted hlate] at h
    exact Option.some.inj h ▸ .late hlate
  | false =>
    have hlt := (add_isSome_iff s dg).mp (by rw [h]; rfl) hlate
    have hget := List.getElem?_eq_getElem hlt
    cases hslot : (s.bufferFor dg)[dg.index.toNat] with
    | some old =>
      rw [hslot] at hget
      rw [add_of_received hlate hget] at h
      exact Option.some.inj h ▸ .received hlate hget
    | none =>
      rw [hslot] at hget
      cases hcomplete : isComplete ((s.bufferFor dg).set dg.index.toNat (some dg)) with
      | false =>
        rw [add_of_incomplete hlate hget hcomplete] at h
        exact Option.some.inj h ▸ .incomplete hlate hget hcomplete
      | true =>
        rw [add_of_complete hlate hget hcomplete rfl] at h
        exact Option.some.inj h ▸ .complete hlate hget hcomplete rfl

/-- `add` moves neither the last completed id nor what the decoder waits for, and puts at most one frame
into the queue, under its own counter. -/
theorem add_cases {s s' : VideoFrameUdpDecoder} {dpart : Option VideoFrameDatagram}
    (h : s.add dpart = some s') :
    s'.lastCompletedFrameId = s.lastCompletedFrameId ∧
      s'.waitForFrameType = s.waitForFrameType ∧
      s'.receivedKeyFrameCount = s.receivedKeyFrameCount ∧
      (s'.completeFramesQueue = s.completeFramesQueue ∨ ∃ frame : VP8Frame,
        s'.completeFramesQueue = OrderedMap.trim maximumDistinctFrames
          (s.completeFramesQueue.insert frame.time frame)) := by
  cases dpart with
  | none =>
    obtain rfl := Option.some.inj h
    exact ⟨rfl, rfl, rfl, .inl rfl⟩
  | some dg =>
    cases added_of_add h with
    | late => exact ⟨rfl, rfl, rfl, .inl rfl⟩
    | received => exact ⟨rfl, rfl, rfl, .inl rfl⟩
    | incomplete => exact ⟨rfl, rfl, rfl, .inl rfl⟩
    | complete => exact ⟨rfl, rfl, rfl, .inr ⟨_, rfl⟩⟩

end VideoFrameUdpDecoder

end Ts3Video
