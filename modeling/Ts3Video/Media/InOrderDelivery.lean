import Mathlib.Data.List.Perm.Basic
import Ts3Video.Media.SentFrames

/-!
# Frames that arrive in order

On a lossless network that keeps the order of the frames, the frame in flight is the newest one
the decoder knows of. Eviction discards older buffers only, the late filter does not reach it, and
the next call of `next` after its last part hands it out.
-/

namespace Ts3Video

open Std

namespace SentFrames

/-- All datagrams of a frame in the order of their indices. -/
def emitted (sent : SentFrames) (frame : VP8Frame) : List VideoFrameDatagram :=
  (List.range (parts frame)).map (sent.part frame)

/-- A permutation of the datagrams of a frame lists its parts in some order. -/
theorem exists_order_of_perm {sent : SentFrames} {frame : VP8Frame}
    {datagrams : List VideoFrameDatagram} (h : datagrams.Perm (sent.emitted frame)) :
    ∃ order : List ℕ, datagrams = order.map (sent.part frame) ∧ order.Perm (List.range (parts frame)) := by
  have hcomp := congrFun₂ (List.eq_map_comp_perm (sent.part frame)) datagrams
    (List.range (parts frame))
  exact hcomp.mpr h

/-- The buffer of a frame after the parts with the given indices have arrived. -/
def filled (sent : SentFrames) (frame : VP8Frame) (arrived : List ℕ) : DGPtrList :=
  (List.range (parts frame)).map fun i => if i ∈ arrived then some (sent.part frame i) else none

/-- Before the first part the buffer is the one that is allocated for it. -/
theorem filled_nil (sent : SentFrames) (frame : VP8Frame) :
    sent.filled frame [] = List.replicate (parts frame) none := by
  simp [filled, List.map_const']

/-- A filled buffer has received parts of its frame only. -/
theorem partlyReceived_filled (sent : SentFrames) (frame : VP8Frame) (arrived : List ℕ) :
    sent.PartlyReceived frame (sent.filled frame arrived) := by
  refine ⟨by simp [filled], fun i dg hget => ?_⟩
  simp only [filled, List.getElem?_map, Option.map_eq_some_iff] at hget
  obtain ⟨j, hj, hget⟩ := hget
  obtain ⟨_, hj⟩ := List.getElem?_eq_some_iff.mp hj
  rw [List.getElem_range] at hj
  subst hj
  split at hget
  · exact (Option.some.inj hget).symm
  · contradiction

/-- A part that has not arrived is missing in the buffer. -/
theorem getElem?_filled {sent : SentFrames} {frame : VP8Frame} {arrived : List ℕ} {i : ℕ}
    (hi : i < parts frame) (hnew : i ∉ arrived) : (sent.filled frame arrived)[i]? = some none := by
  rw [filled, List.getElem?_map, List.getElem?_range hi, Option.map_some, if_neg hnew]

/-- Storing a part makes it one of those that have arrived. -/
theorem filled_set {sent : SentFrames} {frame : VP8Frame} {arrived : List ℕ} (i : ℕ) :
    (sent.filled frame arrived).set i (some (sent.part frame i)) =
      sent.filled frame (arrived ++ [i]) := by
  apply List.ext_getElem
  · simp [filled]
  · intro j hj _
    rw [List.getElem_set]
    by_cases heq : i = j
    · subst heq
      simp [filled]
    · have hne : j ≠ i := Ne.symm heq
      simp [filled, heq, hne]

/-- The buffer is complete once all parts have arrived. -/
theorem isComplete_filled {sent : SentFrames} {frame : VP8Frame} {arrived : List ℕ} :
    VideoFrameUdpDecoder.isComplete (sent.filled frame arrived) = true ↔
      ∀ i < parts frame, i ∈ arrived := by
  simp only [VideoFrameUdpDecoder.isComplete, filled, List.all_map, List.all_eq_true,
    List.mem_range, Function.comp_apply]
  refine forall₂_congr fun i _ => ?_
  by_cases hi : i ∈ arrived <;> simp [hi]

end SentFrames

namespace VideoFrameUdpDecoder

/-- The decoder after the first `count` of some frames with consecutive ids that start after
`first`, with no part of a later frame. -/
structure InOrder (first count : ℕ) (s : VideoFrameUdpDecoder) : Prop where
  queue : s.completeFramesQueue = ∅
  waits : s.waitForFrameType = VP8Frame.NORMAL
  last : s.lastCompletedFrameId.toNat = if count = 0 then 0 else first + count
  keyFrames : s.receivedKeyFrameCount.toNat ≤ count
  started : 0 < count → 0 < s.receivedKeyFrameCount.toNat

/-- The decoder while the next frame in order is in flight. -/
structure InFlight (sent : SentFrames) (frame : VP8Frame) (first count : ℕ) (arrived : List ℕ)
    (s : VideoFrameUdpDecoder) : Prop extends InOrder first count s where
  newest : ∀ id ∈ s.frameBuffers, id = frame.time ∨ id < frame.time
  buffer : (s.frameBuffers[frame.time]?).getD (List.replicate (SentFrames.parts frame) none) =
    sent.filled frame arrived

variable {sent : SentFrames} {frame : VP8Frame} {first count : ℕ} {arrived : List ℕ}
  {s : VideoFrameUdpDecoder}

/-- The decoder calls for datagrams that arrive in the given order. -/
def arrivals (datagrams : List VideoFrameDatagram) : List Event :=
  datagrams.flatMap fun dg => [.add (some dg), .next]

/-- The calls for later datagrams follow the calls for earlier ones. -/
@[simp] theorem arrivals_append (first later : List VideoFrameDatagram) :
    arrivals (first ++ later) = arrivals first ++ arrivals later := List.flatMap_append

/-- A datagram is added before the next frame is asked for. -/
theorem run_add_next {s added rest : VideoFrameUdpDecoder} {dg : VideoFrameDatagram}
    {out : Option VP8Frame} (hadd : s.add (some dg) = some added)
    (hnext : added.next = (out, rest)) :
    Runs.run step s [.add (some dg), .next] = some (rest, out.toList) := by
  simp [Runs.run, step, hadd, hnext]

/-- Storing a datagram of the newest frame evicts older buffers only. -/
theorem store_newest (s : VideoFrameUdpDecoder) (dg : VideoFrameDatagram)
    (hnewest : ∀ id ∈ s.frameBuffers, id = dg.frameId ∨ id < dg.frameId) :
    (∀ id ∈ s.store dg, id = dg.frameId ∨ id < dg.frameId) ∧
      (s.store dg)[dg.frameId]? = some ((s.bufferFor dg).set dg.index.toNat (some dg)) := by
  have hstored : ∀ id ∈ s.frameBuffers.insert dg.frameId ((s.bufferFor dg).set dg.index.toNat (some dg)),
      id = dg.frameId ∨ compare id dg.frameId = .lt := by
    intro id hmem
    rw [ExtTreeMap.mem_insert, Std.compare_eq_iff_eq] at hmem
    rcases hmem with heq | hmem
    · exact Or.inl heq.symm
    · exact (hnewest id hmem).imp_right Std.compare_eq_lt.mpr
  rw [store]
  constructor
  · intro id hmem
    have hget := OrderedMap.getElem?_trim_eq_some (ExtTreeMap.getElem?_eq_some_getElem hmem)
    have hmem' := hstored id (ExtTreeMap.mem_iff_isSome_getElem?.mpr (by rw [hget]; rfl))
    exact hmem'.imp_right Std.compare_eq_lt.mp
  · rw [OrderedMap.getElem?_trim_greatest (by decide) hstored, ExtTreeMap.getElem?_insert_self]

/-- The frame in flight is newer than the last one that was handed out. -/
theorem InFlight.last_lt (h : InFlight sent frame first count arrived s)
    (htime : frame.time.toNat = first + count + 1) : s.lastCompletedFrameId < frame.time := by
  have hlast := h.last
  rw [UInt64.lt_iff_toNat_lt]
  split at hlast <;> omega

/-- The late filter does not reach the frame in flight. -/
theorem InFlight.isAlreadyCompleted (h : InFlight sent frame first count arrived s)
    (htime : frame.time.toNat = first + count + 1) : s.isAlreadyCompleted frame.time = false := by
  have hnot : ¬ frame.time ≤ s.lastCompletedFrameId := UInt64.not_le.mpr (h.last_lt htime)
  simp [VideoFrameUdpDecoder.isAlreadyCompleted, hnot]

/-- A part of the frame in flight is looked up in the buffer of that frame. -/
theorem InFlight.bufferFor (h : InFlight sent frame first count arrived s)
    (hframe : frame ∈ sent.frames) {i : ℕ} (hi : i < SentFrames.parts frame) :
    s.bufferFor (sent.part frame i) = sent.filled frame arrived := by
  obtain ⟨hid, -, hcount⟩ := SentFrames.part_fields hframe hi
  rw [VideoFrameUdpDecoder.bufferFor, hid, hcount]
  exact h.buffer

/-- Storing a part of the frame in flight evicts older buffers only. -/
theorem InFlight.store (h : InFlight sent frame first count arrived s)
    (hframe : frame ∈ sent.frames) {i : ℕ} (hi : i < SentFrames.parts frame) :
    (∀ id ∈ s.store (sent.part frame i), id = frame.time ∨ id < frame.time) ∧
      (s.store (sent.part frame i))[frame.time]? = some (sent.filled frame (arrived ++ [i])) := by
  obtain ⟨hid, hindex, -⟩ := SentFrames.part_fields hframe hi
  obtain ⟨hnewest, hstored⟩ := store_newest s (sent.part frame i) (hid ▸ h.newest)
  rw [hid, h.bufferFor hframe hi, hindex, SentFrames.filled_set] at hstored
  exact ⟨hid ▸ hnewest, hstored⟩

/-- A part that leaves others missing is stored, and `next` has nothing to hand out. -/
theorem InFlight.add_part (h : InFlight sent frame first count arrived s)
    (hframe : frame ∈ sent.frames) (htime : frame.time.toNat = first + count + 1) {i : ℕ}
    (hi : i < SentFrames.parts frame) (hnew : i ∉ arrived)
    (hmissing : ∃ j < SentFrames.parts frame, j ∉ arrived ++ [i]) :
    ∃ s', Runs.run step s [.add (some (sent.part frame i)), .next] = some (s', []) ∧
      InFlight sent frame first count (arrived ++ [i]) s' := by
  obtain ⟨hid, hindex, -⟩ := SentFrames.part_fields hframe hi
  have hbuffer := h.bufferFor hframe hi
  have hadd : s.add (some (sent.part frame i)) = some { s with
      frameBuffers := s.store (sent.part frame i), lastError := .NoError } := add_of_incomplete
    (hid.symm ▸ h.isAlreadyCompleted htime)
    (by rw [hbuffer, hindex]; exact SentFrames.getElem?_filled hi hnew)
    (by
      rw [hbuffer, hindex, SentFrames.filled_set, Bool.eq_false_iff]
      intro hcomplete
      obtain ⟨j, hj, hnot⟩ := hmissing
      exact hnot (SentFrames.isComplete_filled.mp hcomplete j hj))
  obtain ⟨hnewest, hstored⟩ := h.store hframe hi
  exact ⟨_, run_add_next hadd (next_of_empty h.queue), ⟨h.queue, h.waits, h.last, h.keyFrames, h.started⟩, hnewest,
    by rw [hstored]; rfl⟩

/-- A frame that needs nothing the decoder does not have is handed out. -/
theorem next_of_expected {frameId : UInt64}
    (hfirst : OrderedMap.first? s.completeFramesQueue = some (frameId, frame))
    (hlate : s.isAlreadyCompleted frameId = false) (hwaits : s.waitForFrameType = VP8Frame.NORMAL)
    (hexpected : frame.type = VP8Frame.KEY ∨
      s.receivedKeyFrameCount ≠ 0 ∧ frameId = s.lastCompletedFrameId + 1) :
    s.next = (some frame, { s with
      completeFramesQueue := s.completeFramesQueue.erase frameId
      lastCompletedFrameId := frameId
      waitForFrameType := VP8Frame.NORMAL
      receivedKeyFrameCount :=
        if frame.type = VP8Frame.KEY then s.receivedKeyFrameCount + 1
        else s.receivedKeyFrameCount }) := by
  have hstart : ¬ (s.receivedKeyFrameCount = 0 ∧ frame.type ≠ VP8Frame.KEY) := by
    rintro ⟨hzero, hnot⟩
    rcases hexpected with hkey | ⟨hsome, -⟩
    · exact hnot hkey
    · exact hsome hzero
  simp only [next, hfirst, if_neg hstart, hlate, Bool.false_eq_true, if_false]
  by_cases hkey : frame.type = VP8Frame.KEY
  · simp only [if_pos hkey]
  · obtain ⟨-, hnext⟩ := hexpected.resolve_left hkey
    simp only [if_neg hkey, hwaits, ne_eq, not_true_eq_false, if_false, hnext]

/-- The last missing part completes the frame, and `next` hands it out. -/
theorem InFlight.add_last_part (h : InFlight sent frame first count arrived s)
    (hframe : frame ∈ sent.frames) (htime : frame.time.toNat = first + count + 1)
    (hkey : count = 0 → frame.type = VP8Frame.KEY) {i : ℕ} (hi : i < SentFrames.parts frame)
    (hnew : i ∉ arrived) (hall : ∀ j < SentFrames.parts frame, j ∈ arrived ++ [i]) :
    ∃ s', Runs.run step s [.add (some (sent.part frame i)), .next] = some (s', [frame]) ∧
      InOrder first (count + 1) s' ∧ ∀ id ∈ s'.frameBuffers, id = frame.time ∨ id < frame.time := by
  obtain ⟨hid, hindex, -⟩ := SentFrames.part_fields hframe hi
  have hbuffer := h.bufferFor hframe hi
  have hcomplete : isComplete (sent.filled frame (arrived ++ [i])) = true :=
    SentFrames.isComplete_filled.mpr hall
  have hadd : s.add (some (sent.part frame i)) = some { s with
      frameBuffers := s.store (sent.part frame i)
      completeFramesQueue := OrderedMap.trim maximumDistinctFrames
        (s.completeFramesQueue.insert frame.time frame)
      lastError := .NoError } := add_of_complete
    (hid.symm ▸ h.isAlreadyCompleted htime)
    (by rw [hbuffer, hindex]; exact SentFrames.getElem?_filled hi hnew)
    (by rw [hbuffer, hindex, SentFrames.filled_set]; exact hcomplete)
    (by
      rw [hbuffer, hindex, SentFrames.filled_set]
      exact (SentFrames.partlyReceived_filled sent frame _).createFrame hframe hcomplete)
  rw [h.queue, OrderedMap.trim_of_size_le (by simp [ExtTreeMap.size_insert, maximumDistinctFrames])]
    at hadd
  have hfirst : OrderedMap.first? ((∅ : ExtTreeMap UInt64 VP8Frame).insert frame.time frame) =
      some (frame.time, frame) := OrderedMap.first?_insert_empty _ _
  have hcount := h.keyFrames
  have hlast := h.last
  have hrange := frame.time.toNat_lt
  have hexpected : frame.type = VP8Frame.KEY ∨
      s.receivedKeyFrameCount ≠ 0 ∧ frame.time = s.lastCompletedFrameId + 1 := by
    rcases Nat.eq_zero_or_pos count with hzero | hpos
    · exact Or.inl (hkey hzero)
    · refine Or.inr ⟨fun hnone => ?_, ?_⟩
      · have hstarted := h.started hpos
        rw [hnone] at hstarted
        exact absurd hstarted (by decide)
      · rw [if_neg (by omega)] at hlast
        rw [← UInt64.toNat_inj, UInt64.toNat_add, hlast, htime]
        change _ = (first + count + 1) % 2 ^ 64
        omega
  have hincr : (s.receivedKeyFrameCount + 1).toNat = s.receivedKeyFrameCount.toNat + 1 := by
    rw [UInt64.toNat_add]
    change (_ + 1) % 2 ^ 64 = _
    omega
  have hkeys : (if frame.type = VP8Frame.KEY then s.receivedKeyFrameCount + 1
      else s.receivedKeyFrameCount).toNat ≤ count + 1 ∧
      0 < (if frame.type = VP8Frame.KEY then s.receivedKeyFrameCount + 1
        else s.receivedKeyFrameCount).toNat := by
    split
    · omega
    next hnot =>
      obtain ⟨hsome, -⟩ := hexpected.resolve_left hnot
      have := Nat.pos_of_ne_zero fun hzero => hsome (UInt64.toNat_inj.mp hzero)
      omega
  have hnext := next_of_expected (s := { s with
      frameBuffers := s.store (sent.part frame i)
      completeFramesQueue := (∅ : ExtTreeMap UInt64 VP8Frame).insert frame.time frame
      lastError := .NoError }) hfirst (h.isAlreadyCompleted htime) h.waits hexpected
  exact ⟨_, run_add_next hadd hnext, ⟨OrderedMap.erase_insert_empty _ _, rfl, htime, hkeys.1,
    fun _ => hkeys.2⟩, (h.store hframe hi).1⟩

/-- An index that comes next in a permutation of the parts is one of a part that is still missing. -/
private theorem missing_of_perm {i : ℕ} {rest : List ℕ}
    (hperm : (arrived ++ i :: rest).Perm (List.range (SentFrames.parts frame))) :
    i < SentFrames.parts frame ∧ i ∉ arrived := by
  have hnodup := (List.perm_middle.nodup_iff.mp (hperm.nodup_iff.mpr List.nodup_range))
  refine ⟨List.mem_range.mp (hperm.mem_iff.mp (by simp)), fun hmem => ?_⟩
  exact (List.nodup_cons.mp hnodup).1 (List.mem_append_left _ hmem)

/-- The datagrams of a frame in flight, in any order, hand out the frame with the last of them. -/
theorem InFlight.run_parts (hframe : frame ∈ sent.frames)
    (htime : frame.time.toNat = first + count + 1) (hkey : count = 0 → frame.type = VP8Frame.KEY)
    {rest : List ℕ} (hrest : rest ≠ [])
    (hperm : (arrived ++ rest).Perm (List.range (SentFrames.parts frame)))
    (h : InFlight sent frame first count arrived s) :
    ∃ s', Runs.run step s (arrivals (rest.map (sent.part frame))) = some (s', [frame]) ∧
      InOrder first (count + 1) s' ∧ ∀ id ∈ s'.frameBuffers, id = frame.time ∨ id < frame.time := by
  induction rest generalizing arrived s with
  | nil => contradiction
  | cons i rest ih =>
    obtain ⟨hi, hnew⟩ := missing_of_perm hperm
    cases rest with
    | nil =>
      exact h.add_last_part hframe htime hkey hi hnew fun j hj =>
        hperm.mem_iff.mpr (List.mem_range.mpr hj)
    | cons j rest =>
      rw [List.append_cons] at hperm
      obtain ⟨s', hrun, h'⟩ := h.add_part hframe htime hi hnew ⟨j, missing_of_perm hperm⟩
      obtain ⟨t, hlater, ht⟩ := ih (List.cons_ne_nil j rest) hperm h'
      exact ⟨t, Runs.run_append step hrun hlater, ht⟩

/-- Between two frames nothing of a later frame has arrived. -/
structure Between (first count : ℕ) (s : VideoFrameUdpDecoder) : Prop
    extends InOrder first count s where
  older : ∀ id ∈ s.frameBuffers, id.toNat ≤ first + count

/-- The next frame in order is handed out with its last datagram, whatever order they come in. -/
theorem Between.run_frame (h : Between first count s) (hframe : frame ∈ sent.frames)
    (htime : frame.time.toNat = first + count + 1) (hkey : count = 0 → frame.type = VP8Frame.KEY)
    {datagrams : List VideoFrameDatagram} (hperm : datagrams.Perm (sent.emitted frame)) :
    ∃ s', Runs.run step s (arrivals datagrams) = some (s', [frame]) ∧
      Between first (count + 1) s' := by
  obtain ⟨order, rfl, horder⟩ := SentFrames.exists_order_of_perm hperm
  have hunknown : frame.time ∉ s.frameBuffers := fun hmem => by
    have := h.older _ hmem
    omega
  have hstart : InFlight sent frame first count [] s := by
    refine ⟨h.toInOrder, fun id hmem => Or.inr (UInt64.lt_iff_toNat_lt.mpr ?_), ?_⟩
    · have := h.older id hmem
      omega
    · rw [ExtTreeMap.getElem?_eq_none hunknown, SentFrames.filled_nil]
      rfl
  have hparts := (VideoFrameDatagram.datagramsLength_bounds (sent.fits frame hframe)).1
  have hsome : order ≠ [] := by
    rintro rfl
    have hlength := horder.length_eq
    rw [List.length_range, List.length_nil] at hlength
    exact absurd hlength (Nat.ne_of_lt hparts)
  obtain ⟨s', hrun, hinorder, hnewest⟩ := InFlight.run_parts hframe htime hkey hsome
    (by rwa [List.nil_append]) hstart
  refine ⟨s', hrun, hinorder, fun id hmem => ?_⟩
  rcases hnewest id hmem with rfl | hlt
  · omega
  · have := UInt64.lt_iff_toNat_lt.mp hlt
    omega

/-- Frames with consecutive ids are handed out one after the other, none missing. -/
theorem Between.run_frames (h : Between first count s) {frames : List VP8Frame}
    (hframes : ∀ frame ∈ frames, frame ∈ sent.frames)
    (htimes : frames.map (fun frame => frame.time.toNat) =
      List.range' (first + count + 1) frames.length)
    (hkey : count = 0 → ∀ frame ∈ frames.head?, frame.type = VP8Frame.KEY)
    {received : List (List VideoFrameDatagram)}
    (hperm : List.Forall₂ (fun frame datagrams => datagrams.Perm (sent.emitted frame))
      frames received) :
    ∃ s', Runs.run step s (arrivals received.flatten) = some (s', frames) := by
  induction hperm generalizing count s with
  | nil => exact ⟨s, rfl⟩
  | @cons frame datagrams frames received hone _ ih =>
    rw [List.map_cons, List.length_cons, List.range'_succ, List.cons.injEq] at htimes
    obtain ⟨s', hrun, h'⟩ := h.run_frame (hframes frame List.mem_cons_self) htimes.1
      (fun hzero => hkey hzero frame rfl) hone
    obtain ⟨t, hlater⟩ := ih h' (fun later hlater => hframes later (List.mem_cons_of_mem _ hlater))
      htimes.2 (fun hzero => absurd hzero (Nat.succ_ne_zero count))
    rw [List.flatten_cons, arrivals_append]
    exact ⟨t, Runs.run_append step hrun hlater⟩

end VideoFrameUdpDecoder

end Ts3Video
