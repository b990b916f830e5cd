import Ts3Video.Media.VideoEncoding

/-!
# The queue of the encoding thread

Images wait in a short queue that drops its oldest one when it is full. The thread takes them out one by one,
skips those that come too early for the frame rate, and encodes the others.
-/

namespace Ts3Video

/-- The configured thread, the images that wait with the clients they are sent for, the frame rate, and the
time at which the timer of the frame rate was started. -/
structure EncodingLoop where
  thread : VideoEncodingThread
  queue : List (Option CapturedImage × Int32) := []
  fps : Int32
  fpsTimer : ℕ

namespace EncodingLoop

/-- What happens to the thread: an image is enqueued, or a key frame is asked for, or its loop takes another
turn at a time in milliseconds. -/
inductive Event where
  | enqueue (image : Option CapturedImage) (senderId : Int32)
  | enqueueRecovery
  | turn (now : ℕ)

/-- A frame, the image that it was encoded from, and the time of that. -/
structure Encoded where
  time : ℕ
  image : CapturedImage
  senderId : Int32
  frame : VP8Frame

/-- The number of images that may wait. -/
def maximumQueueSize : ℕ := 5

/-- A day in milliseconds. -/
def day : ℤ := 86400000

/-- `QTime::elapsed`: the time since a timer was started. It knows the time of day only. -/
def elapsed (timer now : ℕ) : ℤ := ((now : ℤ) - timer) % day

/-- The time between two frames, as the loop computes it. -/
def fpsTimeMs (fps : Int32) : ℤ := (1000 : ℤ).tdiv fps.toInt

/-- The start of the loop. `none` is a division by zero. -/
def start (thread : VideoEncodingThread) (fps : Int32) (now : ℕ) : Option EncodingLoop :=
  if fps = 0 then none else some { thread, fps, fpsTimer := now }

/-- Put an image at the end of the queue and drop the oldest ones. -/
def enqueue (s : EncodingLoop) (image : Option CapturedImage) (senderId : Int32) : EncodingLoop :=
  let queue := s.queue ++ [(image, senderId)]
  { s with queue := queue.drop (queue.length - maximumQueueSize) }

/-- A turn of the loop. -/
def turn (s : EncodingLoop) (now : ℕ) : Option (EncodingLoop × List Encoded) :=
  if s.thread.stopFlag then some (s, [])
  else
    match s.queue with
    | [] => some (s, [])
    | (none, _) :: queue => some ({ s with queue }, [])
    | (some image, senderId) :: queue =>
      if s.fps > 0 ∧ elapsed s.fpsTimer now < fpsTimeMs s.fps then some ({ s with queue }, [])
      else
        (s.thread.run image).map fun processed =>
          ({ s with queue, fpsTimer := now, thread := processed.1 },
            processed.2.toList.map fun frame => { time := now, image, senderId, frame })

/-- The thread as a machine whose outputs are the frames that it encodes. -/
def step (s : EncodingLoop) : Event → Option (EncodingLoop × List Encoded)
  | .enqueue image senderId => some (s.enqueue image senderId, [])
  | .enqueueRecovery => some ({ s with thread := s.thread.enqueueRecovery VP8Frame.KEY }, [])
  | .turn now => s.turn now

/-- The images that are enqueued, in order. -/
def enqueued (events : List Event) : List (Option CapturedImage × Int32) :=
  events.filterMap fun
    | .enqueue image senderId => some (image, senderId)
    | _ => none

/-- The times at which the loop takes a turn. -/
def turns (events : List Event) : List ℕ :=
  events.filterMap fun
    | .turn now => some now
    | _ => none

/-- What the first event enqueues comes first. -/
theorem enqueued_cons (e : Event) (events : List Event) :
    enqueued (e :: events) = enqueued [e] ++ enqueued events :=
  List.filterMap_append (l := [e])

/-- The turn of the first event comes first. -/
theorem turns_cons (e : Event) (events : List Event) : turns (e :: events) = turns [e] ++ turns events :=
  List.filterMap_append (l := [e])

/-- An image as it was enqueued. -/
def Encoded.item (encoded : Encoded) : Option CapturedImage × Int32 := (some encoded.image, encoded.senderId)

variable {s t : EncodingLoop} {e : Event} {events : List Event} {out : List Encoded} {now : ℕ}

/-- A timer that knows the time of day only never shows more than the time that has gone by. -/
theorem le_of_elapsed (hclock : s.fpsTimer ≤ now) (hdue : fpsTimeMs s.fps ≤ elapsed s.fpsTimer now) :
    (s.fpsTimer : ℤ) + fpsTimeMs s.fps ≤ now := by
  unfold elapsed day at hdue
  omega

/-- What a turn does: it leaves the queue alone, or takes its first image out. A frame is encoded from this
image, a frame time after the last one. -/
theorem turn_cases (h : s.turn now = some (t, out)) :
    t.fps = s.fps ∧
      (t.queue = s.queue ∧ out = [] ∧ t.fpsTimer = s.fpsTimer ∧ t.thread = s.thread ∨
        ∃ item, s.queue = item :: t.queue ∧
          (out = [] ∧ t.fpsTimer = s.fpsTimer ∧ t.thread = s.thread ∨
            ∃ image, item.1 = some image ∧ s.thread.stopFlag = false ∧
              ¬ (s.fps > 0 ∧ elapsed s.fpsTimer now < fpsTimeMs s.fps) ∧ t.fpsTimer = now ∧
              ∃ encoded, s.thread.run image = some (t.thread, encoded) ∧
                out = encoded.toList.map fun frame => ⟨now, image, item.2, frame⟩)) := by
  unfold turn at h
  split at h
  · obtain ⟨rfl, rfl⟩ := Prod.mk.inj (Option.some.inj h)
    exact ⟨rfl, .inl ⟨rfl, rfl, rfl, rfl⟩⟩
  next hrunning =>
    split at h
    next hnone =>
      obtain ⟨rfl, rfl⟩ := Prod.mk.inj (Option.some.inj h)
      exact ⟨rfl, .inl ⟨rfl, rfl, rfl, rfl⟩⟩
    next senderId queue hqueue =>
      obtain ⟨rfl, rfl⟩ := Prod.mk.inj (Option.some.inj h)
      exact ⟨rfl, .inr ⟨_, hqueue, .inl ⟨rfl, rfl, rfl⟩⟩⟩
    next image senderId queue hqueue =>
      split at h
      next =>
        obtain ⟨rfl, rfl⟩ := Prod.mk.inj (Option.some.inj h)
        exact ⟨rfl, .inr ⟨_, hqueue, .inl ⟨rfl, rfl, rfl⟩⟩⟩
      next hdue =>
        obtain ⟨⟨thread, encoded⟩, hrun, heq⟩ := Option.map_eq_some_iff.mp h
        obtain ⟨rfl, rfl⟩ := Prod.mk.inj heq
        exact ⟨rfl, .inr ⟨_, hqueue, .inr ⟨image, rfl, by simpa using hrunning, hdue, rfl, encoded, hrun,
          rfl⟩⟩⟩

/-- Images leave the queue at its front. What is encoded in a step has left it. -/
theorem exists_gone_step (h : step s e = some (t, out)) :
    ∃ gone, s.queue ++ enqueued [e] = gone ++ t.queue ∧ (out.map Encoded.item).Sublist gone := by
  cases e with
  | enqueue image senderId =>
    obtain ⟨rfl, rfl⟩ := Prod.mk.inj (Option.some.inj h)
    exact ⟨_, (List.take_append_drop _ _).symm, List.nil_sublist _⟩
  | enqueueRecovery =>
    obtain ⟨rfl, rfl⟩ := Prod.mk.inj (Option.some.inj h)
    exact ⟨[], List.append_nil _, .slnil⟩
  | turn now =>
    rw [show enqueued [.turn now] = [] from rfl, List.append_nil]
    obtain ⟨-, ⟨hqueue, rfl, -⟩ | ⟨item, hqueue, ⟨rfl, -⟩ | ⟨image, himage, -, -, -, encoded, -, rfl⟩⟩⟩ :=
      turn_cases h
    · exact ⟨[], hqueue.symm, .slnil⟩
    · exact ⟨[item], hqueue, List.nil_sublist _⟩
    · refine ⟨[item], hqueue, ?_⟩
      have hitem : (some image, item.2) = item := by rw [← himage]
      cases encoded with
      | none => exact List.nil_sublist _
      | some frame => exact (congrArg (fun item => [item]) hitem).subst (List.Sublist.refl [(some image, item.2)])

/-- Images leave the queue in the order in which they were enqueued, and each at most once. What is encoded has
left it. -/
theorem exists_gone (h : Runs.run step s events = some (t, out)) :
    ∃ gone, s.queue ++ enqueued events = gone ++ t.queue ∧ (out.map Encoded.item).Sublist gone := by
  induction events generalizing s out with
  | nil =>
    obtain ⟨rfl, rfl⟩ := Prod.mk.inj (Option.some.inj h)
    exact ⟨[], List.append_nil _, .slnil⟩
  | cons e events ih =>
    obtain ⟨s', first, rest, hstep, hrest, rfl⟩ := (Runs.run_cons_eq_some _).mp h
    obtain ⟨gone, hgone, hfirst⟩ := exists_gone_step hstep
    obtain ⟨later, hlater, hrest⟩ := ih hrest
    refine ⟨gone ++ later, ?_, ?_⟩
    · rw [enqueued_cons, ← List.append_assoc, hgone, List.append_assoc, hlater, List.append_assoc]
    · rw [List.map_append]
      exact hfirst.append hrest

/-- The queue stays short. -/
theorem length_queue_step (h : step s e = some (t, out)) (hshort : s.queue.length ≤ maximumQueueSize) :
    t.queue.length ≤ maximumQueueSize := by
  cases e with
  | enqueue image senderId =>
    obtain ⟨rfl, -⟩ := Prod.mk.inj (Option.some.inj h)
    simp only [enqueue, List.length_drop]
    omega
  | enqueueRecovery =>
    obtain ⟨rfl, -⟩ := Prod.mk.inj (Option.some.inj h)
    exact hshort
  | turn now =>
    obtain ⟨-, ⟨hqueue, -⟩ | ⟨item, hqueue, -⟩⟩ := turn_cases h
    · rwa [hqueue]
    · rw [hqueue, List.length_cons] at hshort
      exact Nat.le_of_succ_le hshort

/-- Turns keep the frame rate. -/
theorem fps_step (h : step s e = some (t, out)) : t.fps = s.fps := by
  cases e with
  | turn now => exact (turn_cases h).1
  | _ =>
    obtain ⟨rfl, -⟩ := Prod.mk.inj (Option.some.inj h)
    rfl

/-- With a frame rate, what a step encodes comes a frame time after the last frame. -/
theorem spaced_step (hfps : s.fps > 0) (hclock : ∀ now ∈ turns [e], s.fpsTimer ≤ now)
    (h : step s e = some (t, out)) :
    (out = [] ∧ (t.fpsTimer = s.fpsTimer ∨ t.fpsTimer ∈ turns [e])) ∨
      ∃ encoded, out = [encoded] ∧ encoded.time = t.fpsTimer ∧ t.fpsTimer ∈ turns [e] ∧
        (s.fpsTimer : ℤ) + fpsTimeMs s.fps ≤ encoded.time := by
  cases e with
  | turn now =>
    have hnow : now ∈ turns [.turn now] := List.mem_singleton_self now
    obtain ⟨-, ⟨-, rfl, htimer, -⟩ | ⟨item, -, ⟨rfl, htimer, -⟩ |
      ⟨image, -, -, hdue, htimer, encoded, -, rfl⟩⟩⟩ := turn_cases h
    · exact .inl ⟨rfl, .inl htimer⟩
    · exact .inl ⟨rfl, .inl htimer⟩
    · rw [htimer]
      cases encoded with
      | none => exact .inl ⟨rfl, .inr hnow⟩
      | some frame =>
        have hover : fpsTimeMs s.fps ≤ elapsed s.fpsTimer now :=
          Int.not_lt.mp fun hearly => hdue ⟨hfps, hearly⟩
        exact .inr ⟨_, rfl, rfl, hnow, le_of_elapsed (hclock now hnow) hover⟩
  | _ =>
    obtain ⟨rfl, rfl⟩ := Prod.mk.inj (Option.some.inj h)
    exact .inl ⟨rfl, .inl rfl⟩

/-- With a frame rate, frames are encoded a frame time apart. -/
theorem spaced_run (hfps : s.fps > 0) (hsorted : (turns events).Pairwise (· ≤ ·))
    (hclock : ∀ now ∈ turns events, s.fpsTimer ≤ now) (h : Runs.run step s events = some (t, out)) :
    (∀ encoded ∈ out, (s.fpsTimer : ℤ) + fpsTimeMs s.fps ≤ encoded.time) ∧
      out.Pairwise fun a b => (a.time : ℤ) + fpsTimeMs s.fps ≤ b.time := by
  induction events generalizing s out with
  | nil =>
    obtain ⟨-, rfl⟩ := Prod.mk.inj (Option.some.inj h)
    exact ⟨fun encoded hmem => absurd hmem List.not_mem_nil, .nil⟩
  | cons e events ih =>
    obtain ⟨s', first, rest, hstep, hrest, rfl⟩ := (Runs.run_cons_eq_some _).mp h
    rw [turns_cons] at hsorted hclock
    obtain ⟨-, hlater, hbefore⟩ := List.pairwise_append.mp hsorted
    have hnow := fun now hmem => hclock now (List.mem_append_left _ hmem)
    have hcases := spaced_step hfps hnow hstep
    have hsame := fps_step hstep
    have hforward : s.fpsTimer ≤ s'.fpsTimer ∧ ∀ now ∈ turns events, s'.fpsTimer ≤ now := by
      have htimer : s'.fpsTimer = s.fpsTimer ∨ s'.fpsTimer ∈ turns [e] :=
        hcases.elim (fun hnone => hnone.2) fun ⟨_, _, _, hmem, _⟩ => .inr hmem
      rcases htimer with heq | hmem
      · rw [heq]
        exact ⟨Nat.le_refl _, fun now hmem => hclock now (List.mem_append_right _ hmem)⟩
      · exact ⟨hnow _ hmem, fun now hlate => hbefore _ hmem now hlate⟩
    obtain ⟨hspaced, hpairwise⟩ := ih (hsame.symm ▸ hfps) hlater hforward.2 hrest
    rw [hsame] at hspaced hpairwise
    rcases hcases with ⟨rfl, -⟩ | ⟨encoded, rfl, htime, -, hdue⟩
    · refine ⟨fun later hmem => ?_, hpairwise⟩
      have := hspaced later hmem
      omega
    · refine ⟨fun later hmem => ?_, List.pairwise_cons.mpr ⟨fun later hmem => ?_, hpairwise⟩⟩
      · rcases List.mem_cons.mp hmem with rfl | hmem
        · exact hdue
        · have := hspaced later hmem
          omega
      · rw [htime]
        exact hspaced later hmem

/-- A key frame that was asked for is not forgotten until a frame is encoded. -/
theorem recoveryFlag_step (h : step s e = some (t, [])) (hasked : s.thread.recoveryFlag = VP8Frame.KEY) :
    t.thread.recoveryFlag = VP8Frame.KEY := by
  cases e with
  | enqueue image senderId =>
    obtain ⟨rfl, -⟩ := Prod.mk.inj (Option.some.inj h)
    exact hasked
  | enqueueRecovery =>
    obtain ⟨rfl, -⟩ := Prod.mk.inj (Option.some.inj h)
    rfl
  | turn now =>
    obtain ⟨-, ⟨-, -, -, hthread⟩ | ⟨item, -, ⟨-, -, hthread⟩ | ⟨image, -, -, -, -, encoded, hrun, hnone⟩⟩⟩ :=
      turn_cases h
    · rwa [hthread]
    · rwa [hthread]
    · cases encoded with
      | none => rwa [VideoEncodingThread.recoveryFlag_of_run_none hrun]
      | some frame => contradiction

/-- A key frame that was asked for is not forgotten in a run that encodes no frame. -/
theorem recoveryFlag_run (h : Runs.run step s events = some (t, []))
    (hasked : s.thread.recoveryFlag = VP8Frame.KEY) : t.thread.recoveryFlag = VP8Frame.KEY := by
  induction events generalizing s with
  | nil =>
    obtain ⟨rfl, -⟩ := Prod.mk.inj (Option.some.inj h)
    exact hasked
  | cons e events ih =>
    obtain ⟨s', first, rest, hstep, hrest, hnone⟩ := (Runs.run_cons_eq_some _).mp h
    obtain ⟨rfl, rfl⟩ := List.append_eq_nil_iff.mp hnone.symm
    exact ih hrest (recoveryFlag_step hstep hasked)

/-- A loop that has started waits for images. -/
theorem start_eq_some {thread : VideoEncodingThread} {fps : Int32} (h : start thread fps now = some s) :
    fps ≠ 0 ∧ s = { thread, fps, fpsTimer := now } := by
  unfold start at h
  split at h
  · contradiction
  next hfps => exact ⟨hfps, (Option.some.inj h).symm⟩

/-- The thread encodes images in the order in which they were enqueued and each at most once, never more often
than the frame rate says, and never one that had five newer ones behind it when it was taken. -/
theorem encodes_recent_in_order {thread : VideoEncodingThread} {fps : Int32} (hfps : fps > 0)
    (hstart : start thread fps now = some s) (hsorted : (turns events).Pairwise (· ≤ ·))
    (hclock : ∀ later ∈ turns events, now ≤ later) (hrun : Runs.run step s events = some (t, out)) :
    (out.map Encoded.item).Sublist (enqueued events) ∧
      out.Pairwise (fun a b => (a.time : ℤ) + (1000 : ℤ).tdiv fps.toInt ≤ b.time) ∧
      ∀ before after later, events = before ++ .turn later :: after → ∀ s' done t' encoded,
        Runs.run step s before = some (s', done) → s'.turn later = some (t', [encoded]) →
          ∃ older newer, enqueued before = older ++ encoded.item :: newer ∧ newer.length < 5 := by
  obtain ⟨-, rfl⟩ := start_eq_some hstart
  refine ⟨?_, (spaced_run hfps hsorted hclock hrun).2, ?_⟩
  · obtain ⟨gone, hgone, hsublist⟩ := exists_gone hrun
    rw [List.nil_append] at hgone
    rw [hgone]
    exact hsublist.trans (List.sublist_append_left gone t.queue)
  · intro before after later _ s' done t' encoded hbefore hturn
    have hshort : s'.queue.length ≤ maximumQueueSize := by
      refine Runs.run_invariant (fun _ _ _ _ h hstep => length_queue_step hstep h) ?_ hbefore
      exact Nat.zero_le _
    obtain ⟨gone, hgone, -⟩ := exists_gone hbefore
    obtain ⟨-, ⟨-, hnone, -⟩ | ⟨item, hqueue, ⟨hnone, -⟩ |
      ⟨image, himage, -, -, -, found, -, hfound⟩⟩⟩ := turn_cases hturn
    · contradiction
    · contradiction
    · have hitem : encoded.item = item := by
        cases found with
        | none => contradiction
        | some frame =>
          obtain ⟨rfl, -⟩ := List.cons.inj hfound
          exact Prod.ext himage.symm rfl
      rw [hqueue, List.length_cons] at hshort
      exact ⟨gone, t'.queue, by rw [hitem, ← hqueue]; exact hgone, hshort⟩

/-- A thread for small images at ten frames a second, in the first second of a day. -/
def tenFramesASecond : EncodingLoop where
  thread := ({} : VideoEncodingThread).init 320 240
  fps := 10
  fpsTimer := 0

/-- A small image for a client. -/
def smallImage (senderId : Int32) : Event :=
  .enqueue (some { width := 320, height := 240, packets := some [.frame [7] 1] }) senderId

/-- Of six images the first one is dropped, and the third one comes too early. -/
def sixImages : List Event :=
  (List.range 6).map (fun i => smallImage (Int32.ofNat i)) ++ [.turn 100, .turn 150, .turn 210]

/-- The others are encoded in order. -/
theorem encodes_recent_in_order_sixImages : ∃ t out,
    Runs.run step tenFramesASecond sixImages = some (t, out) ∧ out.map Encoded.time = [100, 210] ∧
      (out.map Encoded.item).Sublist (enqueued sixImages) := by
  have hfacts : (Runs.run step tenFramesASecond sixImages).map (fun done => done.2.map Encoded.time) =
      some [100, 210] := by decide +kernel
  obtain ⟨⟨t, out⟩, hrun, htimes⟩ := Option.map_eq_some_iff.mp hfacts
  have hfps : (10 : Int32) > 0 := by decide
  exact ⟨t, out, hrun, htimes,
    (encodes_recent_in_order hfps rfl (by decide) (fun _ _ => Nat.zero_le _) hrun).1⟩

/-- However many images are dropped or skipped after a key frame was asked for, the next frame that is encoded
is one, if the codec makes one frame of its image. -/
theorem asked_key_frame_comes_next {u : EncodingLoop} {encoded : Encoded}
    (hrun : Runs.run step s (.enqueueRecovery :: events) = some (t, []))
    (hturn : t.turn now = some (u, [encoded]))
    (hone : ∀ packets, encoded.image.packets = some packets → (CodecPacket.buffers packets).length = 1) :
    encoded.frame.type = VP8Frame.KEY := by
  obtain ⟨s', first, rest, hstep, hrest, hnone⟩ := (Runs.run_cons_eq_some _).mp hrun
  obtain ⟨rfl, rfl⟩ := List.append_eq_nil_iff.mp hnone.symm
  obtain ⟨rfl, -⟩ := Prod.mk.inj (Option.some.inj hstep)
  have hasked : t.thread.recoveryFlag = VP8Frame.KEY := recoveryFlag_run hrest rfl
  obtain ⟨-, ⟨-, hnone, -⟩ | ⟨item, -, ⟨hnone, -⟩ | ⟨image, -, -, -, -, found, hencode, hfound⟩⟩⟩ :=
    turn_cases hturn
  · contradiction
  · contradiction
  · cases found with
    | none => contradiction
    | some frame =>
      obtain ⟨rfl, -⟩ := List.cons.inj hfound
      exact VideoEncodingThread.type_of_run hencode (hasked ▸ VP8Frame.KEY_ne_NORMAL) hone

/-- A key frame is asked for after the first image, and the second one comes too early. -/
theorem asked_key_frame_comes_next_sixImages : ∃ s t u encoded,
    Runs.run step s [.enqueueRecovery, .turn 150] = some (t, []) ∧ t.turn 210 = some (u, [encoded]) ∧
      encoded.frame.type = VP8Frame.KEY := by
  have hfacts : (Runs.run step tenFramesASecond (sixImages.take 7)).bind (fun first =>
      (Runs.run step first.1 [.enqueueRecovery, .turn 150]).bind fun second =>
        (second.1.turn 210).map fun third => (second.2.length, third.2.map fun encoded =>
          encoded.image.packets.map fun packets => (CodecPacket.buffers packets).length)) =
      some (0, [some 1]) := by decide +kernel
  obtain ⟨⟨s, _⟩, -, hfacts⟩ := Option.bind_eq_some_iff.mp hfacts
  obtain ⟨⟨t, between⟩, hrun, hfacts⟩ := Option.bind_eq_some_iff.mp hfacts
  obtain ⟨⟨u, out⟩, hturn, hfacts⟩ := Option.map_eq_some_iff.mp hfacts
  obtain ⟨hnone, hout⟩ := Prod.mk.inj hfacts
  obtain rfl := List.length_eq_zero_iff.mp hnone
  obtain ⟨encoded, rfl, hpackets⟩ := List.map_eq_singleton_iff.mp hout
  refine ⟨s, t, u, encoded, hrun, hturn, asked_key_frame_comes_next hrun hturn fun packets hsome => ?_⟩
  rw [hsome] at hpackets
  exact Option.some.inj hpackets

end EncodingLoop

end Ts3Video
