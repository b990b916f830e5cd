import Ts3Video.Media.SentFrames

/-!
# Reassembly is sound on any network

Datagrams may be lost, duplicated and reordered, within a window of 256 frame ids. The invariant
ties the three places of a frame together: a buffer holds only parts of the frame it is named
after, the queue holds only sent frames that are newer than the last one handed out, and the last
completed id was itself delivered, so the late filter covers everything up to it.
-/

namespace Ts3Video.VideoFrameUdpDecoder

open Std

/-- A datagram with this frame id has been delivered. -/
def Delivered (events : List Event) (frameId : UInt64) : Prop :=
  ∃ dg, Event.add (some dg) ∈ events ∧ dg.frameId = frameId

/-- Every delivered frame id is greater than the largest one delivered before, less 256. -/
def InWindow (events : List Event) : Prop :=
  ∀ before dg after, events = before ++ .add (some dg) :: after →
    ∀ frameId, Delivered before frameId → frameId.toNat < dg.frameId.toNat + 256

/-- What the decoder holds and has handed out after some of the calls. -/
structure Sound (sent : SentFrames) (before : List Event) (s : VideoFrameUdpDecoder)
    (out : List VP8Frame) : Prop where
  buffers : ∀ frameId buffer, s.frameBuffers[frameId]? = some buffer →
    ∃ frame ∈ sent.frames, frame.time = frameId ∧ sent.PartlyReceived frame buffer
  queue : ∀ frameId frame, s.completeFramesQueue[frameId]? = some frame →
    frame ∈ sent.frames ∧ frame.time = frameId ∧ s.lastCompletedFrameId < frameId ∧
      Delivered before frameId
  last : s.lastCompletedFrameId = 0 ∨ Delivered before s.lastCompletedFrameId
  returned : ∀ frame ∈ out, frame ∈ sent.frames ∧ frame.time ≤ s.lastCompletedFrameId
  increasing : (out.map VP8Frame.time).Pairwise (· < ·)

/-- A delivery stays delivered. -/
theorem Delivered.append {before : List Event} {frameId : UInt64} (h : Delivered before frameId)
    (e : Event) : Delivered (before ++ [e]) frameId := by
  obtain ⟨dg, hdg, hid⟩ := h
  exact ⟨dg, List.mem_append_left _ hdg, hid⟩

/-- In the window, the late filter covers every id up to the last completed one. -/
theorem isAlreadyCompleted_of_le {sent : SentFrames} {before : List Event}
    {s : VideoFrameUdpDecoder} {out : List VP8Frame} (h : Sound sent before s out)
    {frameId : UInt64} (hwindow : ∀ old, Delivered before old → old.toNat < frameId.toNat + 256)
    (hle : frameId ≤ s.lastCompletedFrameId) : s.isAlreadyCompleted frameId = true := by
  have hnear : s.lastCompletedFrameId.toNat < frameId.toNat + 256 := by
    rcases h.last with hzero | hdelivered
    · rw [hzero]
      change 0 < frameId.toNat + 256
      omega
    · exact hwindow _ hdelivered
  simp only [isAlreadyCompleted, Bool.and_eq_true, decide_eq_true_eq]
  refine ⟨hle, ?_⟩
  rw [UInt64.lt_iff_toNat_lt, UInt64.toNat_sub_of_le _ _ hle]
  change _ < 256
  omega

/-- The buffer of a part has received only parts of the same frame. -/
theorem bufferFor_partlyReceived {sent : SentFrames} {before : List Event}
    {s : VideoFrameUdpDecoder} {out : List VP8Frame} (h : Sound sent before s out)
    {frame : VP8Frame} (hframe : frame ∈ sent.frames) {i : ℕ} (hi : i < SentFrames.parts frame) :
    sent.PartlyReceived frame (s.bufferFor (sent.part frame i)) := by
  obtain ⟨hid, -, hcount⟩ := SentFrames.part_fields hframe hi
  rw [bufferFor, hid, hcount]
  cases hget : s.frameBuffers[frame.time]? with
  | none => exact .new sent frame
  | some buffer =>
    obtain ⟨frame', hframe', htime, hpart⟩ := h.buffers _ _ hget
    exact sent.ids_injective frame' hframe' frame hframe htime ▸ hpart

/-- Storing a part of a frame keeps every buffer to its own frame. -/
theorem store_partlyReceived {sent : SentFrames} {before : List Event}
    {s : VideoFrameUdpDecoder} {out : List VP8Frame} (h : Sound sent before s out)
    {frame : VP8Frame} (hframe : frame ∈ sent.frames) {i : ℕ} (hi : i < SentFrames.parts frame)
    {frameId : UInt64} {buffer : DGPtrList}
    (hget : (s.store (sent.part frame i))[frameId]? = some buffer) :
    ∃ frame ∈ sent.frames, frame.time = frameId ∧ sent.PartlyReceived frame buffer := by
  have hentry := OrderedMap.getElem?_trim_eq_some hget
  obtain ⟨hid, hindex, -⟩ := SentFrames.part_fields hframe hi
  rw [ExtTreeMap.getElem?_insert] at hentry
  split at hentry
  next heq =>
    rw [Std.compare_eq_iff_eq, hid] at heq
    rw [Option.some.injEq] at hentry
    exact ⟨frame, hframe, heq, hentry ▸ (bufferFor_partlyReceived h hframe hi).set hindex⟩
  next => exact h.buffers frameId buffer hentry

/-- Adding a datagram of the sender is defined and keeps the invariant. -/
theorem sound_add {sent : SentFrames} {before : List Event} {s : VideoFrameUdpDecoder}
    {out : List VP8Frame} (h : Sound sent before s out) {frame : VP8Frame}
    (hframe : frame ∈ sent.frames) {dg : VideoFrameDatagram} (hemits : sent.Emits frame dg)
    (hwindow : ∀ old, Delivered before old → old.toNat < dg.frameId.toNat + 256) :
    ∃ s', s.add (some dg) = some s' ∧ Sound sent (before ++ [.add (some dg)]) s' out := by
  have hqueue : ∀ frameId frame, s.completeFramesQueue[frameId]? = some frame →
      frame ∈ sent.frames ∧ frame.time = frameId ∧ s.lastCompletedFrameId < frameId ∧
        Delivered (before ++ [.add (some dg)]) frameId := fun frameId frame hget =>
    have hentry := h.queue frameId frame hget
    ⟨hentry.1, hentry.2.1, hentry.2.2.1, hentry.2.2.2.append _⟩
  have hlast := h.last.imp_right fun hdelivered => hdelivered.append (.add (some dg))
  obtain ⟨i, hi, rfl⟩ := (SentFrames.emits_iff hframe dg).mp hemits
  obtain ⟨hid, hindex, -⟩ := SentFrames.part_fields hframe hi
  have hbuffer := bufferFor_partlyReceived h hframe hi
  have hinside : (sent.part frame i).index.toNat < (s.bufferFor (sent.part frame i)).length := by
    rw [hindex, hbuffer.length_eq]
    exact hi
  obtain ⟨s', hadd⟩ :=
    Option.isSome_iff_exists.mp ((add_isSome_iff s (sent.part frame i)).mpr fun _ => hinside)
  refine ⟨s', hadd, ?_⟩
  cases added_of_add hadd with
  | late => exact ⟨h.buffers, hqueue, hlast, h.returned, h.increasing⟩
  | received => exact ⟨h.buffers, hqueue, hlast, h.returned, h.increasing⟩
  | incomplete =>
    exact ⟨fun _ _ => store_partlyReceived h hframe hi, hqueue, hlast, h.returned, h.increasing⟩
  | complete hlate _ hcomplete hcreated =>
    refine ⟨fun _ _ => store_partlyReceived h hframe hi, ?_, hlast, h.returned, h.increasing⟩
    have hnewer : s.lastCompletedFrameId < frame.time := by
      by_contra hnot
      have hlate' := isAlreadyCompleted_of_le h hwindow (hid ▸ UInt64.not_lt.mp hnot)
      rw [hlate] at hlate'
      contradiction
    have hcreate := (hbuffer.set hindex).createFrame hframe hcomplete
    obtain rfl := hcreate.symm.trans hcreated
    intro frameId queued hqueued
    have hentry := OrderedMap.getElem?_trim_eq_some hqueued
    rw [ExtTreeMap.getElem?_insert] at hentry
    split at hentry
    next heq =>
      rw [Std.compare_eq_iff_eq] at heq
      rw [Option.some.injEq] at hentry
      subst hentry
      exact ⟨hframe, heq, heq ▸ hnewer, _, List.mem_append_right _ List.mem_cons_self,
        hid.trans heq⟩
    next => exact hqueue frameId queued hentry

/-- Taking the next frame keeps the invariant, with the frame among the returned ones. -/
theorem sound_next {sent : SentFrames} {before : List Event} {s : VideoFrameUdpDecoder}
    {out : List VP8Frame} (h : Sound sent before s out) :
    Sound sent (before ++ [.next]) s.next.2 (out ++ s.next.1.toList) := by
  have hqueue : ∀ frameId frame, s.completeFramesQueue[frameId]? = some frame →
      frame ∈ sent.frames ∧ frame.time = frameId ∧ s.lastCompletedFrameId < frameId ∧
        Delivered (before ++ [.next]) frameId := fun frameId frame hget =>
    have hentry := h.queue frameId frame hget
    ⟨hentry.1, hentry.2.1, hentry.2.2.1, hentry.2.2.2.append _⟩
  have hlast := h.last.imp_right fun hdelivered => hdelivered.append .next
  rcases next_cases s with ⟨-, hnone⟩ | ⟨frameId, frame, hfirst, hbuffers, hrest, hcases⟩
  · rw [hnone]
    exact ⟨h.buffers, hqueue, hlast, by simpa using h.returned, by simpa using h.increasing⟩
  · obtain ⟨hget, hlater⟩ := OrderedMap.first?_eq_some hfirst
    obtain ⟨hframe, htime, hnewer, hdelivered⟩ := hqueue frameId frame hget
    have hrest' : ∀ k queued, s.next.2.completeFramesQueue[k]? = some queued →
        s.completeFramesQueue[k]? = some queued ∧ frameId < k := by
      intro k queued hk
      rw [hrest, ExtTreeMap.getElem?_erase] at hk
      split at hk
      · contradiction
      next hne =>
        refine ⟨hk, ?_⟩
        rcases hlater k (ExtTreeMap.mem_iff_isSome_getElem?.mpr (by rw [hk]; rfl)) with heq | hlt
        · exact absurd (Std.compare_eq_iff_eq.mpr heq.symm) hne
        · exact Std.compare_eq_lt.mp hlt
    rcases hcases with ⟨hout, hsame⟩ | ⟨hmoved, hout⟩
    · rw [hout, Option.toList_none, List.append_nil]
      refine ⟨hbuffers ▸ h.buffers, fun k queued hk => ?_, hsame ▸ hlast, hsame ▸ h.returned,
        h.increasing⟩
      rw [hsame]
      exact hqueue k queued (hrest' k queued hk).1
    · have hqueue' : ∀ k queued, s.next.2.completeFramesQueue[k]? = some queued →
          queued ∈ sent.frames ∧ queued.time = k ∧ s.next.2.lastCompletedFrameId < k ∧
            Delivered (before ++ [.next]) k := by
        intro k queued hk
        obtain ⟨hold, hlt⟩ := hrest' k queued hk
        have hentry := hqueue k queued hold
        exact ⟨hentry.1, hentry.2.1, hmoved ▸ hlt, hentry.2.2.2⟩
      have hreturned : ∀ old ∈ out,
          old ∈ sent.frames ∧ old.time ≤ s.next.2.lastCompletedFrameId := by
        intro old hold
        have hentry := h.returned old hold
        refine ⟨hentry.1, ?_⟩
        rw [hmoved]
        exact UInt64.le_of_lt (UInt64.lt_of_le_of_lt hentry.2 hnewer)
      refine ⟨hbuffers ▸ h.buffers, hqueue', Or.inr (hmoved ▸ hdelivered), ?_, ?_⟩
      · rcases hout with hout | hout
        · rw [hout, Option.toList_none, List.append_nil]
          exact hreturned
        · rw [hout, Option.toList_some]
          intro old hold
          rcases List.mem_append.mp hold with hold | hold
          · exact hreturned old hold
          · rw [List.mem_singleton.mp hold, hmoved, htime]
            exact ⟨hframe, UInt64.le_refl _⟩
      · rcases hout with hout | hout
        · rw [hout, Option.toList_none, List.append_nil]
          exact h.increasing
        · rw [hout, Option.toList_some, List.map_append, List.map_singleton,
            List.pairwise_append]
          refine ⟨h.increasing, List.pairwise_singleton _ _, ?_⟩
          intro id hid newId hnewId
          obtain ⟨old, hold, rfl⟩ := List.mem_map.mp hid
          rw [List.mem_singleton.mp hnewId, htime]
          exact UInt64.lt_of_le_of_lt (h.returned old hold).2 hnewer

/-- On any network that delivers copies of the sent datagrams inside the window, in any order and
interleaved with any calls of `next`, the decoder never leaves its buffers, hands out sent frames
only, and hands them out in strictly increasing order of their ids. -/
theorem reassembly_sound (sent : SentFrames) (events : List Event)
    (hevents : ∀ dpart, Event.add dpart ∈ events →
      ∃ frame ∈ sent.frames, ∃ dg, dpart = some dg ∧ sent.Emits frame dg)
    (hwindow : InWindow events) :
    ∃ s out, Runs.run step {} events = some (s, out) ∧ (∀ frame ∈ out, frame ∈ sent.frames) ∧
      (out.map VP8Frame.time).Pairwise (· < ·) := by
  have hinit : Sound sent [] {} [] :=
    ⟨fun _ _ hget => by simp at hget, fun _ _ hget => by simp at hget, Or.inl rfl,
      fun _ hmem => by simp at hmem, List.Pairwise.nil⟩
  have hstep : ∀ before e t out, (before ++ [e]) <+: events → Sound sent before t out →
      ∃ t' more, step t e = some (t', more) ∧ Sound sent (before ++ [e]) t' (out ++ more) := by
    rintro before e t out ⟨after, hsplit⟩ h
    cases e with
    | next => exact ⟨t.next.2, t.next.1.toList, rfl, sound_next h⟩
    | add dpart =>
      obtain ⟨frame, hframe, dg, rfl, hemits⟩ := hevents dpart (by rw [← hsplit]; simp)
      obtain ⟨t', hadd, ht'⟩ := sound_add h hframe hemits
        (hwindow before dg after (by rw [← hsplit]; simp))
      exact ⟨t', [], by simp [step, hadd], by simpa using ht'⟩
  obtain ⟨s, out, hrun, h⟩ := Runs.run_history hinit hstep
  exact ⟨s, out, hrun, fun frame hframe => (h.returned frame hframe).1, h.increasing⟩

/-- Two small frames of one sender. -/
def twoFrames : SentFrames where
  frames := [⟨1, VP8Frame.KEY, some [7]⟩, ⟨2, VP8Frame.NORMAL, some [8, 9]⟩]
  senderId := 5
  ids_injective := by decide
  ids_positive := by decide
  fits := by decide

/-- The second frame overtakes the first one, which is delivered twice. -/
theorem reassembly_sound_twoFrames :
    let first := twoFrames.part ⟨1, VP8Frame.KEY, some [7]⟩ 0
    let second := twoFrames.part ⟨2, VP8Frame.NORMAL, some [8, 9]⟩ 0
    ∃ s out, Runs.run step {} [.add (some second), .add (some first), .next, .add (some first),
        .next] = some (s, out) ∧ (∀ frame ∈ out, frame ∈ twoFrames.frames) ∧
      (out.map VP8Frame.time).Pairwise (· < ·) := by
  intro first second
  have hfirst : twoFrames.Emits ⟨1, VP8Frame.KEY, some [7]⟩ first :=
    (SentFrames.emits_iff (by decide) first).mpr ⟨0, by decide, rfl⟩
  have hsecond : twoFrames.Emits ⟨2, VP8Frame.NORMAL, some [8, 9]⟩ second :=
    (SentFrames.emits_iff (by decide) second).mpr ⟨0, by decide, rfl⟩
  refine reassembly_sound twoFrames _ ?_ ?_
  · intro dpart hmem
    simp only [List.mem_cons, Event.add.injEq, reduceCtorEq, false_or, List.not_mem_nil,
      or_false] at hmem
    rcases hmem with rfl | rfl | rfl
    · exact ⟨_, by decide, second, rfl, hsecond⟩
    · exact ⟨_, by decide, first, rfl, hfirst⟩
    · exact ⟨_, by decide, first, rfl, hfirst⟩
  · intro before dg after hsplit frameId ⟨old, hold, hid⟩
    have hmem : Event.add (some old) ∈ before ++ .add (some dg) :: after :=
      List.mem_append_left _ hold
    rw [← hsplit] at hmem
    simp only [List.mem_cons, Event.add.injEq, Option.some.injEq, reduceCtorEq, false_or,
      List.not_mem_nil, or_false] at hmem
    have hsmall : frameId.toNat < 256 := by
      rcases hmem with rfl | rfl | rfl <;> rw [← hid] <;> decide
    omega

end Ts3Video.VideoFrameUdpDecoder
