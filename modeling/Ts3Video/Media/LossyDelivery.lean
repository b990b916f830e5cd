import Ts3Video.Media.InOrderDelivery

/-!
# Frames on a network that loses datagrams

Some datagrams of a frame arrive, in any order and any number of times, before those of the next one. The
decoder looks at the frame when the last of its parts has arrived. Then it hands the frame out or waits for a
key frame, and a key frame is handed out in any case.
-/

namespace Ts3Video.VideoFrameUdpDecoder

open Std

/-- The decoder knows of nothing newer than the frame, and these parts of the frame have arrived. -/
structure Receiving (sent : SentFrames) (frame : VP8Frame) (arrived : List ℕ) (s : VideoFrameUdpDecoder) :
    Prop where
  queue : s.completeFramesQueue = ∅
  newest : ∀ id ∈ s.frameBuffers, id = frame.time ∨ id < frame.time
  buffer : (s.frameBuffers[frame.time]?).getD (List.replicate (SentFrames.parts frame) none) =
    sent.filled frame arrived

/-- All parts of the frame have arrived. -/
def AllArrived (frame : VP8Frame) (arrived : List ℕ) : Prop := ∀ i < SentFrames.parts frame, i ∈ arrived

/-- What the decoder needs for the next frame is what it needed before. -/
structure SameNeeds (s s' : VideoFrameUdpDecoder) : Prop where
  last_eq : s'.lastCompletedFrameId = s.lastCompletedFrameId
  waits_eq : s'.waitForFrameType = s.waitForFrameType
  keyFrames_eq : s'.receivedKeyFrameCount = s.receivedKeyFrameCount

/-- The decoder has looked at a frame that was newer than the last one, and has handed it out or not. -/
structure Taken (frame : VP8Frame) (last : UInt64) (out : List VP8Frame) (s : VideoFrameUdpDecoder) :
    Prop where
  last : s.lastCompletedFrameId = last ∨ s.lastCompletedFrameId = frame.time
  returned : out = [frame] ∨ out = [] ∧ s.waitForFrameType ≠ VP8Frame.NORMAL
  key : frame.type = VP8Frame.KEY → out = [frame] ∧ s.waitForFrameType = VP8Frame.NORMAL

variable {sent : SentFrames} {frame : VP8Frame} {arrived : List ℕ} {s s' t : VideoFrameUdpDecoder} {i : ℕ}
  {last : UInt64} {out : List VP8Frame}

/-- The needs stay the same in two steps. -/
theorem SameNeeds.trans (h : SameNeeds s s') (h' : SameNeeds s' t) : SameNeeds s t :=
  ⟨h'.last_eq.trans h.last_eq, h'.waits_eq.trans h.waits_eq, h'.keyFrames_eq.trans h.keyFrames_eq⟩

/-- What has been taken depends on the needs of the decoder only. -/
theorem Taken.congr (h : Taken frame last out s) (hsame : SameNeeds s s') : Taken frame last out s' := by
  obtain ⟨hlast, hreturned, hkey⟩ := h
  exact ⟨hsame.last_eq.symm ▸ hlast, hsame.waits_eq.symm ▸ hreturned, hsame.waits_eq.symm ▸ hkey⟩

/-- A frame that is newer than the last one is handed out, or the decoder waits for a key frame. -/
theorem taken_next (hfirst : OrderedMap.first? s.completeFramesQueue = some (frame.time, frame))
    (hlast : s.lastCompletedFrameId < frame.time) :
    Taken frame s.lastCompletedFrameId s.next.1.toList s.next.2 := by
  have hlate : s.isAlreadyCompleted frame.time = false := by
    simp [isAlreadyCompleted, UInt64.not_le.mpr hlast]
  have hnormal : VP8Frame.KEY ≠ VP8Frame.NORMAL := VP8Frame.KEY_ne_NORMAL
  simp only [next, hfirst, hlate, Bool.false_eq_true, if_false]
  split
  next hstart => exact ⟨.inl rfl, .inr ⟨rfl, hnormal⟩, fun hkey => absurd hkey hstart.2⟩
  next =>
    split
    next => exact ⟨.inr rfl, .inl rfl, fun _ => ⟨rfl, rfl⟩⟩
    next hdelta =>
      split
      next hwaits =>
        split
        · exact ⟨.inr rfl, .inl rfl, fun hkey => absurd hkey hdelta⟩
        · exact ⟨.inr rfl, .inr ⟨rfl, hwaits⟩, fun hkey => absurd hkey hdelta⟩
      next =>
        split
        · exact ⟨.inr rfl, .inl rfl, fun hkey => absurd hkey hdelta⟩
        · exact ⟨.inr rfl, .inl rfl, fun hkey => absurd hkey hdelta⟩

/-- A part is looked up in the buffer of the frame. -/
theorem Receiving.bufferFor (h : Receiving sent frame arrived s) (hframe : frame ∈ sent.frames)
    (hi : i < SentFrames.parts frame) : s.bufferFor (sent.part frame i) = sent.filled frame arrived := by
  obtain ⟨hid, -, hcount⟩ := SentFrames.part_fields hframe hi
  rw [VideoFrameUdpDecoder.bufferFor, hid, hcount]
  exact h.buffer

/-- Storing a part evicts older buffers only. -/
theorem Receiving.store (h : Receiving sent frame arrived s) (hframe : frame ∈ sent.frames)
    (hi : i < SentFrames.parts frame) :
    (∀ id ∈ s.store (sent.part frame i), id = frame.time ∨ id < frame.time) ∧
      (s.store (sent.part frame i))[frame.time]? = some (sent.filled frame (arrived ++ [i])) := by
  obtain ⟨hid, hindex, -⟩ := SentFrames.part_fields hframe hi
  obtain ⟨hnewest, hstored⟩ := store_newest s (sent.part frame i) (hid ▸ h.newest)
  rw [hid, h.bufferFor hframe hi, hindex, SentFrames.filled_set] at hstored
  exact ⟨hid ▸ hnewest, hstored⟩

/-- Another copy of a part changes nothing. -/
theorem filled_append_of_mem (hmem : i ∈ arrived) :
    sent.filled frame (arrived ++ [i]) = sent.filled frame arrived := by
  refine List.map_congr_left fun j _ => ?_
  have hsame : j ∈ arrived ++ [i] ↔ j ∈ arrived := by
    rw [List.mem_append, List.mem_singleton]
    exact or_iff_left_of_imp fun heq => heq ▸ hmem
  simp only [hsame]

/-- A part that is there already is dropped. -/
theorem Receiving.add_known (h : Receiving sent frame arrived s) (hframe : frame ∈ sent.frames)
    (hi : i < SentFrames.parts frame) (hmem : i ∈ arrived) :
    ∃ s', Runs.run step s [.add (some (sent.part frame i)), .next] = some (s', []) ∧
      Receiving sent frame (arrived ++ [i]) s' ∧ SameNeeds s s' := by
  obtain ⟨hid, hindex, -⟩ := SentFrames.part_fields hframe hi
  have hadd : s.add (some (sent.part frame i)) = some { s with lastError := .AlreadyProcessed } := by
    cases hlate : s.isAlreadyCompleted frame.time with
    | true => exact add_of_isAlreadyCompleted (hid.symm ▸ hlate)
    | false =>
      have hthere : (s.bufferFor (sent.part frame i))[(sent.part frame i).index.toNat]? =
          some (some (sent.part frame i)) := by
        rw [h.bufferFor hframe hi, hindex, SentFrames.filled, List.getElem?_map, List.getElem?_range hi,
          Option.map_some, if_pos hmem]
      exact add_of_received (hid.symm ▸ hlate) hthere
  refine ⟨_, run_add_next hadd (next_of_empty h.queue), ⟨h.queue, h.newest, ?_⟩, rfl, rfl, rfl⟩
  rw [filled_append_of_mem hmem]
  exact h.buffer

/-- A part that is not there is not too late, and its place in the buffer is free. -/
theorem Receiving.slot (h : Receiving sent frame arrived s) (hframe : frame ∈ sent.frames)
    (hlast : s.lastCompletedFrameId < frame.time) (hi : i < SentFrames.parts frame) (hnew : i ∉ arrived) :
    s.isAlreadyCompleted (sent.part frame i).frameId = false ∧
      (s.bufferFor (sent.part frame i))[(sent.part frame i).index.toNat]? = some none ∧
      (s.bufferFor (sent.part frame i)).set (sent.part frame i).index.toNat (some (sent.part frame i)) =
        sent.filled frame (arrived ++ [i]) := by
  obtain ⟨hid, hindex, -⟩ := SentFrames.part_fields hframe hi
  rw [hid, h.bufferFor hframe hi, hindex, SentFrames.filled_set]
  refine ⟨?_, SentFrames.getElem?_filled hi hnew, rfl⟩
  simp [isAlreadyCompleted, UInt64.not_le.mpr hlast]

/-- A part that leaves others missing is stored. -/
theorem Receiving.add_part (h : Receiving sent frame arrived s) (hframe : frame ∈ sent.frames)
    (hlast : s.lastCompletedFrameId < frame.time) (hi : i < SentFrames.parts frame) (hnew : i ∉ arrived)
    (hmissing : ¬ AllArrived frame (arrived ++ [i])) :
    ∃ s', Runs.run step s [.add (some (sent.part frame i)), .next] = some (s', []) ∧
      Receiving sent frame (arrived ++ [i]) s' ∧ SameNeeds s s' := by
  obtain ⟨hlate, hslot, hfilled⟩ := h.slot hframe hlast hi hnew
  have hincomplete : isComplete ((s.bufferFor (sent.part frame i)).set
      (sent.part frame i).index.toNat (some (sent.part frame i))) = false := by
    rw [hfilled, Bool.eq_false_iff]
    exact fun hcomplete => hmissing (SentFrames.isComplete_filled.mp hcomplete)
  have hadd := add_of_incomplete hlate hslot hincomplete
  obtain ⟨hnewest, hstored⟩ := h.store hframe hi
  exact ⟨_, run_add_next hadd (next_of_empty h.queue), ⟨h.queue, hnewest, by rw [hstored]; rfl⟩,
    rfl, rfl, rfl⟩

/-- The last missing part has the decoder look at the frame. -/
theorem Receiving.add_last_part (h : Receiving sent frame arrived s) (hframe : frame ∈ sent.frames)
    (hlast : s.lastCompletedFrameId < frame.time) (hi : i < SentFrames.parts frame) (hnew : i ∉ arrived)
    (hall : AllArrived frame (arrived ++ [i])) :
    ∃ s' out, Runs.run step s [.add (some (sent.part frame i)), .next] = some (s', out) ∧
      Receiving sent frame (arrived ++ [i]) s' ∧ Taken frame s.lastCompletedFrameId out s' := by
  obtain ⟨hlate, hslot, hfilled⟩ := h.slot hframe hlast hi hnew
  have hcomplete : isComplete (sent.filled frame (arrived ++ [i])) = true :=
    SentFrames.isComplete_filled.mpr hall
  have hcarried : createFrame ((s.bufferFor (sent.part frame i)).set
      (sent.part frame i).index.toNat (some (sent.part frame i))) = frame := by
    rw [hfilled]
    exact (SentFrames.partlyReceived_filled sent frame _).createFrame hframe hcomplete
  have hadd := add_of_complete hlate hslot (hfilled.symm ▸ hcomplete) hcarried
  rw [h.queue, OrderedMap.trim_of_size_le (by simp [ExtTreeMap.size_insert, maximumDistinctFrames])]
    at hadd
  generalize hadded : ({ s with
    frameBuffers := s.store (sent.part frame i)
    completeFramesQueue := (∅ : ExtTreeMap UInt64 VP8Frame).insert frame.time frame
    lastError := .NoError } : VideoFrameUdpDecoder) = added at hadd
  have hfirst : OrderedMap.first? added.completeFramesQueue = some (frame.time, frame) := by
    rw [← hadded]
    exact OrderedMap.first?_insert_empty _ _
  have htaken : Taken frame s.lastCompletedFrameId added.next.1.toList added.next.2 := by
    have hadded_last : added.lastCompletedFrameId = s.lastCompletedFrameId := by rw [← hadded]
    rw [← hadded_last]
    exact taken_next hfirst (hadded_last.symm ▸ hlast)
  obtain ⟨hnewest, hstored⟩ := h.store hframe hi
  have hnext : added.next = (added.next.1, added.next.2) := rfl
  refine ⟨added.next.2, added.next.1.toList, run_add_next hadd hnext, ?_, htaken⟩
  rcases next_cases added with ⟨hnone, -⟩ | ⟨frameId, found, hfound, hbuffers, hrest, -⟩
  · rw [hfirst] at hnone
    contradiction
  · obtain ⟨rfl, -⟩ := Prod.mk.inj (Option.some.inj (hfirst.symm.trans hfound))
    refine ⟨?_, ?_, ?_⟩
    · rw [hrest, ← hadded]
      exact OrderedMap.erase_insert_empty _ _
    · rw [hbuffers, ← hadded]
      exact hnewest
    · rw [hbuffers, ← hadded, hstored]
      rfl

/-- Further copies of the parts of a frame that has been looked at change nothing. -/
theorem Receiving.run_known (h : Receiving sent frame arrived s) (hframe : frame ∈ sent.frames)
    (hall : AllArrived frame arrived) {order : List ℕ} (horder : ∀ i ∈ order, i < SentFrames.parts frame) :
    ∃ s', Runs.run step s (arrivals (order.map (sent.part frame))) = some (s', []) ∧
      Receiving sent frame (arrived ++ order) s' ∧ SameNeeds s s' := by
  induction order generalizing arrived s with
  | nil =>
    rw [List.append_nil]
    exact ⟨s, rfl, h, rfl, rfl, rfl⟩
  | cons i order ih =>
    have hi := horder i List.mem_cons_self
    obtain ⟨s', hone, h', hsame⟩ := h.add_known hframe hi (hall i hi)
    obtain ⟨t, hrest, ht, hlater⟩ := ih h' (fun j hj => List.mem_append_left _ (hall j hj))
      fun j hj => horder j (List.mem_cons_of_mem i hj)
    rw [List.append_cons]
    exact ⟨t, Runs.run_append step hone hrest, ht, hsame.trans hlater⟩

/-- Some datagrams of a frame arrive. The decoder has looked at the frame if these are all of them, and needs
what it needed before otherwise. -/
theorem Receiving.run_parts (h : Receiving sent frame arrived s) (hframe : frame ∈ sent.frames)
    (hlast : s.lastCompletedFrameId < frame.time) (hmissing : ¬ AllArrived frame arrived) {order : List ℕ}
    (horder : ∀ i ∈ order, i < SentFrames.parts frame) :
    ∃ s' out, Runs.run step s (arrivals (order.map (sent.part frame))) = some (s', out) ∧
      Receiving sent frame (arrived ++ order) s' ∧
      (AllArrived frame (arrived ++ order) → Taken frame s.lastCompletedFrameId out s') ∧
      (¬ AllArrived frame (arrived ++ order) → out = [] ∧ SameNeeds s s') := by
  induction order generalizing arrived s with
  | nil =>
    rw [List.append_nil]
    exact ⟨s, [], rfl, h, fun hall => absurd hall hmissing, fun _ => ⟨rfl, rfl, rfl, rfl⟩⟩
  | cons i order ih =>
    have hi := horder i List.mem_cons_self
    have hlater := fun j hj => horder j (List.mem_cons_of_mem i hj)
    rw [List.append_cons]
    by_cases hall : AllArrived frame (arrived ++ [i])
    · have hnew : i ∉ arrived := by
        intro hmem
        refine hmissing fun j hj => ?_
        rcases List.mem_append.mp (hall j hj) with hmem' | hmem'
        · exact hmem'
        · exact List.mem_singleton.mp hmem' ▸ hmem
      obtain ⟨s', out, hone, h', htaken⟩ := h.add_last_part hframe hlast hi hnew hall
      obtain ⟨t, hrest, ht, hsame⟩ := h'.run_known hframe hall hlater
      refine ⟨t, out, ?_, ht, fun _ => htaken.congr hsame, fun hnot => absurd ?_ hnot⟩
      · have hrun := Runs.run_append step hone hrest
        rwa [List.append_nil] at hrun
      · exact fun j hj => List.mem_append_left _ (hall j hj)
    · have hstep : ∃ s', Runs.run step s [.add (some (sent.part frame i)), .next] = some (s', []) ∧
          Receiving sent frame (arrived ++ [i]) s' ∧ SameNeeds s s' := by
        by_cases hmem : i ∈ arrived
        · exact h.add_known hframe hi hmem
        · exact h.add_part hframe hlast hi hmem hall
      obtain ⟨s', hone, h', hsame⟩ := hstep
      obtain ⟨t, out, hrest, ht, htaken, hsame'⟩ := ih h' (hsame.last_eq.symm ▸ hlast) hall hlater
      refine ⟨t, out, Runs.run_append step hone hrest, ht, fun h => hsame.last_eq ▸ htaken h, fun h => ?_⟩
      exact ⟨(hsame' h).1, hsame.trans (hsame' h).2⟩

end Ts3Video.VideoFrameUdpDecoder
