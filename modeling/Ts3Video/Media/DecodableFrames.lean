import Ts3Video.Library.Table
import Ts3Video.Media.UdpVideoFrameDecoder

/-!
# Which frames the decoder hands out

A frame that is not a key frame needs the frame before it. The decoder notices when that one is missing
and waits for a key frame from then on, but still hands out the frame by which it has noticed.
-/

namespace Ts3Video.VideoFrameUdpDecoder

open Std

/-- Every frame that is not a key frame follows the frame with the id before its own. -/
def Decodable (out : List VP8Frame) : Prop :=
  ∀ before frame after, out = before ++ frame :: after → frame.type ≠ VP8Frame.KEY →
    ∃ previous, before.getLast? = some previous ∧ frame.time.toNat = previous.time.toNat + 1

/-- The first frame in the queue is not a key frame, and `next` hands it out. -/
structure HandsOutDelta (s : VideoFrameUdpDecoder) (frameId : UInt64) (frame : VP8Frame) : Prop where
  first : OrderedMap.first? s.completeFramesQueue = some (frameId, frame)
  started : s.receivedKeyFrameCount ≠ 0
  recent : s.isAlreadyCompleted frameId = false
  delta : frame.type ≠ VP8Frame.KEY
  waits : s.waitForFrameType = VP8Frame.NORMAL

/-- The frame that `next` hands out is not a key frame and does not follow the last one. -/
def OutOfOrder (s : VideoFrameUdpDecoder) : Prop :=
  ∃ frameId frame, s.HandsOutDelta frameId frame ∧
    frameId.toNat ≠ s.lastCompletedFrameId.toNat + 1

/-- What the decoder knows about the frames that it has handed out. -/
structure Tracks (s : VideoFrameUdpDecoder) (out : List VP8Frame) : Prop where
  queue : ∀ (frameId : UInt64) (frame : VP8Frame), s.completeFramesQueue[frameId]? = some frame →
    frame.time = frameId
  waits : s.waitForFrameType = VP8Frame.NORMAL ∨ s.waitForFrameType = VP8Frame.KEY
  last : s.waitForFrameType = VP8Frame.NORMAL → s.receivedKeyFrameCount ≠ 0 →
    ∃ frame, out.getLast? = some frame ∧ frame.time = s.lastCompletedFrameId

variable {s s' : VideoFrameUdpDecoder} {out : List VP8Frame} {frameId : UInt64} {frame : VP8Frame}

/-- One more frame is in order if it is a key frame or follows the last one. -/
theorem decodable_append : Decodable (out ++ [frame]) ↔ Decodable out ∧
    (frame.type ≠ VP8Frame.KEY → ∃ previous, out.getLast? = some previous ∧
      frame.time.toNat = previous.time.toNat + 1) := by
  constructor
  · intro h
    refine ⟨fun before found after hsplit => ?_, h out frame [] rfl⟩
    exact h before found (after ++ [frame]) (by rw [hsplit, List.append_assoc, List.cons_append])
  · rintro ⟨h, hlast⟩ before found after hsplit
    rcases List.eq_nil_or_concat after with rfl | ⟨init, last, rfl⟩
    · obtain ⟨rfl, heq⟩ := List.append_inj' hsplit rfl
      obtain rfl := (List.cons.inj heq).1
      exact hlast
    · rw [List.concat_eq_append, ← List.cons_append, ← List.append_assoc] at hsplit
      exact h before found init (List.append_inj' hsplit rfl).1

/-- No frames are in order. -/
theorem decodable_nil : Decodable [] := fun before frame after hsplit => by simp at hsplit

/-- The frames handed out first are in order if all are. -/
theorem Decodable.first {more : List VP8Frame} (h : Decodable (out ++ more)) : Decodable out := by
  intro before found after hsplit
  exact h before found (after ++ more) (by rw [hsplit, List.append_assoc, List.cons_append])

/-- The decoder waits for nothing but key frames. -/
theorem Tracks.waits_ne (h : s.Tracks out) (hdelta : frame.type ≠ VP8Frame.KEY)
    (hwaits : s.waitForFrameType ≠ VP8Frame.NORMAL) : frame.type ≠ s.waitForFrameType := by
  rw [h.waits.resolve_left hwaits]
  exact hdelta

/-- A frame that is not a key frame is handed out only if none is waited for. -/
theorem Tracks.handsOutDelta_iff (h : s.Tracks out)
    (hfirst : OrderedMap.first? s.completeFramesQueue = some (frameId, frame))
    (hdelta : frame.type ≠ VP8Frame.KEY) :
    s.next.1 = some frame ↔ s.HandsOutDelta frameId frame := by
  unfold next
  simp only [hfirst]
  split
  next hstart =>
    exact ⟨fun hout => by contradiction, fun hout => absurd hstart.1 hout.started⟩
  next hstart =>
    split
    next hlate =>
      refine ⟨fun hout => by contradiction, fun hout => ?_⟩
      rw [hout.recent] at hlate
      contradiction
    next hrecent =>
      split
      next hwaits =>
        rw [if_neg (h.waits_ne hdelta hwaits)]
        exact ⟨fun hout => by contradiction, fun hout => absurd hout.waits hwaits⟩
      next hwaits =>
        have hdeltas : s.HandsOutDelta frameId frame :=
          ⟨hfirst, fun hzero => hstart ⟨hzero, hdelta⟩, Bool.not_eq_true _ ▸ hrecent, hdelta,
            not_not.mp hwaits⟩
        split
        · exact ⟨fun _ => hdeltas, fun _ => rfl⟩
        · exact ⟨fun _ => hdeltas, fun _ => rfl⟩

/-- A frame that is handed out without a gap follows the one handed out before it. -/
theorem Tracks.follows_iff (h : s.Tracks out) (hout : s.HandsOutDelta frameId frame) :
    (∃ previous, out.getLast? = some previous ∧ frame.time.toNat = previous.time.toNat + 1) ↔
      ¬ s.OutOfOrder := by
  obtain ⟨last, hlast, htime⟩ := h.last hout.waits hout.started
  have hid := h.queue frameId frame (OrderedMap.first?_eq_some hout.first).1
  have hfollows : (∃ previous, out.getLast? = some previous ∧
      frame.time.toNat = previous.time.toNat + 1) ↔
        frameId.toNat = s.lastCompletedFrameId.toNat + 1 := by
    rw [hlast, hid]
    constructor
    · rintro ⟨previous, heq, hnext⟩
      obtain rfl := Option.some.inj heq
      rwa [htime] at hnext
    · intro hnext
      exact ⟨last, rfl, by rw [htime, hnext]⟩
  rw [hfollows]
  constructor
  · rintro hnext ⟨otherId, other, hother, hgap⟩
    obtain ⟨rfl, rfl⟩ := Prod.mk.inj (Option.some.inj (hout.first.symm.trans hother.first))
    exact hgap hnext
  · intro hnot
    by_contra hgap
    exact hnot ⟨frameId, frame, hout, hgap⟩

/-- What the decoder knows about the frames handed out stays true with each further one. -/
theorem Tracks.next (h : s.Tracks out) : s.next.2.Tracks (out ++ s.next.1.toList) := by
  have hqueue : ∀ frameId, ∀ (k : UInt64) (found : VP8Frame),
      (s.completeFramesQueue.erase frameId)[k]? = some found → found.time = k :=
    fun frameId k found hk => h.queue k found (Table.of_getElem?_erase hk).2
  unfold VideoFrameUdpDecoder.next
  split
  · rwa [Option.toList_none, List.append_nil]
  next frameId frame hfirst =>
    have hid := h.queue frameId frame (OrderedMap.first?_eq_some hfirst).1
    have hreturned : ∃ last, (out ++ [frame]).getLast? = some last ∧ last.time = frameId :=
      ⟨frame, List.getLast?_concat, hid⟩
    dsimp only
    split
    · rw [Option.toList_none, List.append_nil]
      exact ⟨hqueue frameId, .inr rfl, fun hwaits => absurd hwaits VP8Frame.KEY_ne_NORMAL⟩
    · split
      · rw [Option.toList_none, List.append_nil]
        exact ⟨hqueue frameId, h.waits, h.last⟩
      · split
        · exact ⟨hqueue frameId, .inl rfl, fun _ _ => hreturned⟩
        next hdelta =>
          split
          next hwaits =>
            rw [if_neg (h.waits_ne hdelta hwaits), Option.toList_none, List.append_nil]
            exact ⟨hqueue frameId, h.waits, fun hnone => absurd hnone hwaits⟩
          next =>
            split
            · exact ⟨hqueue frameId, .inr rfl, fun hnone => absurd hnone VP8Frame.KEY_ne_NORMAL⟩
            · exact ⟨hqueue frameId, .inl rfl, fun _ _ => hreturned⟩

/-- Adding a datagram hands out nothing. -/
theorem Tracks.add (h : s.Tracks out) {dpart : Option VideoFrameDatagram}
    (hadd : s.add dpart = some s') : s'.Tracks out := by
  obtain ⟨hlast, hwaits, hcount, hqueue⟩ := add_cases hadd
  refine ⟨fun k found hk => ?_, hwaits ▸ h.waits, ?_⟩
  · rcases hqueue with hsame | ⟨frame, hinsert⟩
    · exact h.queue k found (hsame ▸ hk)
    · rw [hinsert] at hk
      rcases Table.of_getElem?_insert (OrderedMap.getElem?_trim_eq_some hk) with ⟨rfl, rfl⟩ | hold
      · rfl
      · exact h.queue k found hold
  · rw [hwaits, hcount, hlast]
    exact h.last

/-- A new decoder has handed out nothing. -/
theorem tracks_init : Tracks {} [] where
  queue _ _ h := absurd h (Table.getElem?_empty_ne _ _)
  waits := .inl rfl
  last _ h := absurd rfl h

/-- Each call extends what the decoder knows. -/
theorem Tracks.step (h : s.Tracks out) {e : Event} {more : List VP8Frame}
    (hstep : step s e = some (s', more)) : s'.Tracks (out ++ more) := by
  cases e with
  | add dpart =>
    obtain ⟨added, hadd, heq⟩ := Option.map_eq_some_iff.mp hstep
    obtain ⟨rfl, rfl⟩ := Prod.mk.inj heq
    rw [List.append_nil]
    exact h.add hadd
  | next =>
    obtain ⟨rfl, rfl⟩ := Prod.mk.inj (Option.some.inj hstep)
    exact h.next

/-- A call keeps the frames in order unless it hands one out after a gap. -/
theorem Tracks.decodable_step (h : s.Tracks out) (hout : Decodable out) {e : Event}
    {more : List VP8Frame} (hstep : VideoFrameUdpDecoder.step s e = some (s', more)) :
    Decodable (out ++ more) ↔ (e = .next → ¬ s.OutOfOrder) := by
  cases e with
  | add dpart =>
    obtain ⟨added, hadd, heq⟩ := Option.map_eq_some_iff.mp hstep
    obtain ⟨rfl, rfl⟩ := Prod.mk.inj heq
    rw [List.append_nil]
    exact ⟨fun _ hnext => by contradiction, fun _ => hout⟩
  | next =>
    obtain ⟨rfl, rfl⟩ := Prod.mk.inj (Option.some.inj hstep)
    rw [forall_prop_of_true rfl]
    rcases hreturned : s.next.1 with _ | frame
    · rw [Option.toList_none, List.append_nil]
      refine ⟨fun _ => ?_, fun _ => hout⟩
      rintro ⟨frameId, frame, hdelta, -⟩
      rw [(h.handsOutDelta_iff hdelta.first hdelta.delta).mpr hdelta] at hreturned
      contradiction
    · rw [Option.toList_some, decodable_append, and_iff_right hout]
      obtain ⟨frameId, hfirst⟩ :
          ∃ frameId, OrderedMap.first? s.completeFramesQueue = some (frameId, frame) := by
        rcases next_cases s with ⟨-, hnone⟩ | ⟨frameId, found, hfirst, -, -, ⟨hnone, -⟩ | ⟨-, hout⟩⟩
        · rw [hnone] at hreturned
          contradiction
        · rw [hnone] at hreturned
          contradiction
        · rcases hout with hnone | hsome
          · rw [hnone] at hreturned
            contradiction
          · obtain rfl := Option.some.inj (hsome.symm.trans hreturned)
            exact ⟨frameId, hfirst⟩
      by_cases hkey : frame.type = VP8Frame.KEY
      · refine ⟨fun _ => ?_, fun _ hdelta => absurd hkey hdelta⟩
        rintro ⟨otherId, other, hother, -⟩
        obtain ⟨-, rfl⟩ := Prod.mk.inj (Option.some.inj (hfirst.symm.trans hother.first))
        exact hother.delta hkey
      · rw [forall_prop_of_true hkey]
        exact h.follows_iff ((h.handsOutDelta_iff hfirst hkey).mp hreturned)

/-- Frames that fit into one datagram each arrive one after the other. -/
def smallFrames (frames : List VP8Frame) : List Event :=
  frames.flatMap fun frame =>
    [.add (some (VideoFrameDatagram.partOf frame.serialize frame.time 5 1 0)), .next]

/-- The decoder hands out a frame although the one before it was lost. -/
theorem decodable_lostFrame : ∃ s out, Runs.run step {}
    (smallFrames [⟨1, VP8Frame.KEY, some [7]⟩, ⟨3, VP8Frame.NORMAL, some [8]⟩]) = some (s, out) ∧
      ¬ Decodable out := by
  have hfacts : (Runs.run step {}
      (smallFrames [⟨1, VP8Frame.KEY, some [7]⟩, ⟨3, VP8Frame.NORMAL, some [8]⟩])).map Prod.snd =
        some [⟨1, VP8Frame.KEY, some [7]⟩, ⟨3, VP8Frame.NORMAL, some [8]⟩] := by decide +kernel
  obtain ⟨⟨s, out⟩, hrun, hout⟩ := Option.map_eq_some_iff.mp hfacts
  refine ⟨s, out, hrun, fun hdecodable => ?_⟩
  obtain ⟨previous, hlast, hnext⟩ := hdecodable [⟨1, VP8Frame.KEY, some [7]⟩]
    ⟨3, VP8Frame.NORMAL, some [8]⟩ [] hout VP8Frame.KEY_ne_NORMAL.symm
  obtain rfl := Option.some.inj hlast
  exact absurd hnext (by decide)

/-- Every frame that is handed out can be decoded exactly if no call of `next` finds at the head of the
queue a frame that does not follow the last one, while no key frame is waited for. -/
theorem decodable_iff {events : List Event} (hrun : Runs.run step {} events = some (s, out)) :
    Decodable out ↔ Runs.EachStep step (fun s e => e = .next → ¬ s.OutOfOrder) {} events :=
  Runs.outputs_iff_eachStep (P := fun _ => Tracks) (fun _ _ _ _ _ _ h hstep => h.step hstep)
    (fun _ _ _ _ _ _ h hout hstep => h.decodable_step hout hstep) (fun _ _ h => h.first) tracks_init
    decodable_nil hrun

/-- A key frame and the frame after it are handed out in order. -/
theorem decodable_iff_smallFrames : Runs.EachStep step (fun s e => e = .next → ¬ s.OutOfOrder) {}
    (smallFrames [⟨1, VP8Frame.KEY, some [7]⟩, ⟨2, VP8Frame.NORMAL, some [8]⟩]) := by
  have hfacts : (Runs.run step {}
      (smallFrames [⟨1, VP8Frame.KEY, some [7]⟩, ⟨2, VP8Frame.NORMAL, some [8]⟩])).map Prod.snd =
        some [⟨1, VP8Frame.KEY, some [7]⟩, ⟨2, VP8Frame.NORMAL, some [8]⟩] := by decide +kernel
  obtain ⟨⟨s, out⟩, hrun, hout⟩ := Option.map_eq_some_iff.mp hfacts
  have hdecodable : Decodable ([] ++ [⟨1, VP8Frame.KEY, some [7]⟩] ++
      [⟨2, VP8Frame.NORMAL, some [8]⟩]) := by
    rw [decodable_append, decodable_append]
    refine ⟨⟨decodable_nil, fun hdelta => absurd rfl hdelta⟩, fun _ => ?_⟩
    exact ⟨⟨1, VP8Frame.KEY, some [7]⟩, rfl, rfl⟩
  change out = _ at hout
  exact (decodable_iff hrun).mp (hout ▸ hdecodable)

end Ts3Video.VideoFrameUdpDecoder
