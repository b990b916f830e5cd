import Ts3Video.Library.Throttle
import Ts3Video.Media.SenderIsolation

/-!
# How often a client asks for key frames

A decoder that cannot go on waits for a frame that can be decoded on its own. The socket asks for one when a
datagram arrives for such a decoder, unless it has asked within the last second, for whichever sender.
-/

namespace Ts3Video.MediaSocket

open VideoFrameUdpDecoder

/-- The decoder of the datagram waits for a certain kind of frame once the datagram has been handled. -/
def waits (s : MediaSocket) (pending : PendingDatagram) : Bool :=
  match receivedVideoFrame pending with
  | none => false
  | some dg => (decode (s.decoderOf dg.sender) pending).any fun done =>
      done.1.getWaitsForType ≠ VP8Frame.NORMAL

/-- The datagrams of a run that leave their decoder waiting. -/
def waiting (s : MediaSocket) (pendings : List PendingDatagram) : List PendingDatagram :=
  ((Runs.visited onReadyRead s pendings).filter fun visit => visit.1.waits visit.2).map Prod.snd

/-- The requests for a key frame that a datagram can bring about. -/
def requestFor (pending : PendingDatagram) : List Effect :=
  match receivedVideoFrame pending with
  | none => []
  | some dg => sendVideoFrameRecoveryDatagram dg.frameId dg.sender

/-- The requests for key frames among the effects. -/
def requested (effects : List Effect) : List Effect :=
  effects.filter fun
    | .writeDatagram _ => true
    | _ => false

/-- The clock of a datagram in milliseconds. -/
def PendingDatagram.time (pending : PendingDatagram) : ℕ := pending.now.toNat

/-- The gap between two requests. -/
def requestGap : ℕ := 1001

variable {s s' t : MediaSocket} {pending : PendingDatagram} {pendings : List PendingDatagram}
  {effects out : List Effect}

/-- Requests do not overlap. -/
theorem requested_append (first second : List Effect) :
    requested (first ++ second) = requested first ++ requested second := List.filter_append ..

/-- A recovery request is one. -/
theorem requested_sendVideoFrameRecoveryDatagram (frameId : UInt64) (senderId : Int32) :
    requested (sendVideoFrameRecoveryDatagram frameId senderId) =
      sendVideoFrameRecoveryDatagram frameId senderId := by
  unfold sendVideoFrameRecoveryDatagram
  split <;> rfl

/-- A frame that is enqueued is no request. -/
theorem requested_enqueue (frame : Option VP8Frame) (senderId : Int32) :
    requested (frame.toList.map fun frame => Effect.enqueue frame senderId) = [] := by
  cases frame <;> rfl

/-- A part of a frame brings about a request if its decoder waits and the last request is old enough. -/
theorem requested_handleVideoFrameDatagram {dg : VideoFrameDatagram}
    (hreceived : receivedVideoFrame pending = some dg)
    (hclock : s.lastFrameRequestTimestamp.toNat ≤ pending.time)
    (hstep : s.handleVideoFrameDatagram dg pending.now = some (s', effects)) :
    (requested effects, s'.lastFrameRequestTimestamp.toNat) =
      if s.waits pending = true ∧ s.lastFrameRequestTimestamp.toNat + requestGap ≤ pending.time then
        (requestFor pending, pending.time)
      else ([], s.lastFrameRequestTimestamp.toNat) := by
  have hdue : pending.now - s.lastFrameRequestTimestamp > 1000 ↔
      s.lastFrameRequestTimestamp.toNat + requestGap ≤ pending.time := by
    rw [gt_iff_lt, UInt64.lt_iff_toNat_lt, UInt64.toNat_sub_of_le _ _ (UInt64.le_iff_toNat_le.mpr hclock)]
    change 1000 < pending.time - _ ↔ _ + 1001 ≤ _
    omega
  obtain ⟨added, hadd, hdone⟩ := Option.map_eq_some_iff.mp hstep
  have hwaits : s.waits pending = true ↔ added.next.2.getWaitsForType ≠ VP8Frame.NORMAL := by
    simp only [waits, hreceived, decode, hadd, Option.map_some, Option.any_some, decide_eq_true_eq]
  dsimp only at hdone
  split at hdone
  next hask =>
    obtain ⟨rfl, rfl⟩ := Prod.mk.inj hdone
    rw [if_pos ⟨hwaits.mpr hask.1, hdue.mp hask.2⟩, requested_append, requested_enqueue,
      requested_sendVideoFrameRecoveryDatagram, requestFor, hreceived]
    rfl
  next hask =>
    obtain ⟨rfl, rfl⟩ := Prod.mk.inj hdone
    rw [if_neg fun h => hask ⟨hwaits.mp h.1, hdue.mpr h.2⟩, requested_enqueue]

/-- A datagram brings about a request if its decoder waits and the last request is old enough. -/
theorem requested_onReadyRead (hclock : s.lastFrameRequestTimestamp.toNat ≤ pending.time)
    (hstep : s.onReadyRead pending = some (s', effects)) :
    (requested effects, s'.lastFrameRequestTimestamp.toNat) =
      if s.waits pending = true ∧ s.lastFrameRequestTimestamp.toNat + requestGap ≤ pending.time then
        (requestFor pending, pending.time)
      else ([], s.lastFrameRequestTimestamp.toNat) := by
  cases hreceived : receivedVideoFrame pending with
  | none =>
    obtain ⟨out, hout, hnothing⟩ := onReadyRead_not_received hreceived s
    obtain ⟨rfl, rfl⟩ := Prod.mk.inj (Option.some.inj (hout.symm.trans hstep))
    rw [if_neg (by simp [waits, hreceived])]
    rcases hnothing with rfl | rfl <;> rfl
  | some dg =>
    rw [onReadyRead_of_received hreceived] at hstep
    exact requested_handleVideoFrameDatagram hreceived hclock hstep

/-- The datagrams of a run that leave their decoder waiting, one step at a time. -/
theorem waiting_cons (hstep : s.onReadyRead pending = some (s', effects)) :
    waiting s (pending :: pendings) =
      if s.waits pending = true then pending :: waiting s' pendings else waiting s' pendings := by
  rw [waiting, Runs.visited, hstep, List.filter_cons]
  split
  · rfl
  · rfl

/-- The waiting datagrams are some of those of the run. -/
theorem waiting_sublist (s : MediaSocket) (pendings : List PendingDatagram) :
    (waiting s pendings).Sublist pendings :=
  (List.filter_sublist.map Prod.snd).trans (Runs.visited_sublist s pendings)

/-- The requests of a run are those of the waiting datagrams that a throttle lets pass. -/
theorem requested_run (hsorted : pendings.Pairwise fun p q => p.time ≤ q.time)
    (hstart : ∀ pending ∈ pendings, s.lastFrameRequestTimestamp.toNat ≤ pending.time)
    (hrun : Runs.run onReadyRead s pendings = some (t, out)) :
    requested out = (Throttle.throttle PendingDatagram.time requestGap s.lastFrameRequestTimestamp.toNat
      (waiting s pendings)).flatMap requestFor := by
  induction pendings generalizing s out with
  | nil =>
    obtain ⟨rfl, rfl⟩ := Prod.mk.inj (Option.some.inj hrun)
    rfl
  | cons pending pendings ih =>
    obtain ⟨s', effects, rest, hstep, hrest, rfl⟩ := (Runs.run_cons_eq_some onReadyRead).mp hrun
    obtain ⟨hfirst, hlater⟩ := List.pairwise_cons.mp hsorted
    have hone := requested_onReadyRead (hstart pending List.mem_cons_self) hstep
    rw [requested_append, waiting_cons hstep]
    by_cases hwaits : s.waits pending = true
    · rw [if_pos hwaits]
      by_cases hdue : s.lastFrameRequestTimestamp.toNat + requestGap ≤ pending.time
      · rw [if_pos ⟨hwaits, hdue⟩] at hone
        obtain ⟨hrequested, hlast⟩ := Prod.mk.inj hone
        rw [Throttle.throttle_cons_of_le hdue, List.flatMap_cons, hrequested,
          ih hlater (fun q hmem => hlast ▸ hfirst q hmem) hrest, hlast]
      · rw [if_neg fun h => hdue h.2] at hone
        obtain ⟨hrequested, hlast⟩ := Prod.mk.inj hone
        rw [Throttle.throttle_cons_of_lt (Nat.not_le.mp hdue), hrequested, List.nil_append,
          ih hlater (fun q hmem => hlast ▸ hstart q (List.mem_cons_of_mem _ hmem)) hrest, hlast]
    · rw [if_neg hwaits]
      rw [if_neg fun h => hwaits h.1] at hone
      obtain ⟨hrequested, hlast⟩ := Prod.mk.inj hone
      rw [hrequested, List.nil_append,
        ih hlater (fun q hmem => hlast ▸ hstart q (List.mem_cons_of_mem _ hmem)) hrest, hlast]

/-- What is requested in a run is a recovery request. -/
theorem of_mem_requested (hsorted : pendings.Pairwise fun p q => p.time ≤ q.time)
    (hstart : ∀ pending ∈ pendings, s.lastFrameRequestTimestamp.toNat ≤ pending.time)
    (hrun : Runs.run onReadyRead s pendings = some (t, out)) {effect : Effect}
    (hmem : effect ∈ requested out) :
    ∃ frameId senderId, effect ∈ sendVideoFrameRecoveryDatagram frameId senderId := by
  rw [requested_run hsorted hstart hrun] at hmem
  obtain ⟨pending, -, hmem⟩ := List.mem_flatMap.mp hmem
  unfold requestFor at hmem
  split at hmem
  · contradiction
  next dg _ => exact ⟨dg.frameId, dg.sender, hmem⟩

/-- If the decoder of a sender waits at the end of a run over its parts, then it waited at some time. -/
theorem waiting_ne_nil {senderId : Int32} (hsome : pendings ≠ [])
    (hparts : ∀ pending ∈ pendings, ∃ dg, receivedVideoFrame pending = some dg ∧ dg.sender = senderId)
    (hrun : Runs.run onReadyRead s pendings = some (t, out))
    (hwaits : (t.decoderOf senderId).getWaitsForType ≠ VP8Frame.NORMAL) : waiting s pendings ≠ [] := by
  induction pendings generalizing s out with
  | nil => contradiction
  | cons pending pendings ih =>
    obtain ⟨s', effects, rest, hstep, hrest, rfl⟩ := (Runs.run_cons_eq_some onReadyRead).mp hrun
    rw [waiting_cons hstep]
    cases hnone : pendings with
    | nil =>
      rw [hnone] at hrest
      obtain ⟨rfl, -⟩ := Prod.mk.inj (Option.some.inj hrest)
      obtain ⟨dg, hreceived, rfl⟩ := hparts pending List.mem_cons_self
      have hdecode := decode_of_onReadyRead hreceived hstep
      rw [if_pos (by simpa [waits, hreceived, hdecode] using hwaits)]
      exact List.cons_ne_nil _ _
    | cons next later =>
      have hlater := ih (hnone ▸ List.cons_ne_nil next later)
        (fun q hmem => hparts q (List.mem_cons_of_mem _ hmem)) hrest
      rw [← hnone]
      split
      · exact List.cons_ne_nil _ _
      · exact hlater

/-- If the decoder of a sender waits at the end of a run over its parts, and no request has been written for a
second, then one is written in the run. -/
theorem requested_ne_nil {senderId : Int32} (hsome : pendings ≠ [])
    (hparts : ∀ pending ∈ pendings, ∃ dg, receivedVideoFrame pending = some dg ∧ dg.sender = senderId ∧
      dg.frameId ≠ 0) (hsender : senderId ≠ 0)
    (hsorted : pendings.Pairwise fun p q => p.time ≤ q.time)
    (hdue : ∀ pending ∈ pendings, s.lastFrameRequestTimestamp.toNat + requestGap ≤ pending.time)
    (hrun : Runs.run onReadyRead s pendings = some (t, out))
    (hwaits : (t.decoderOf senderId).getWaitsForType ≠ VP8Frame.NORMAL) : requested out ≠ [] := by
  have hstart : ∀ pending ∈ pendings, s.lastFrameRequestTimestamp.toNat ≤ pending.time :=
    fun pending hmem => Nat.le_trans (Nat.le_add_right _ _) (hdue pending hmem)
  have hwaiting := waiting_ne_nil hsome
    (fun pending hmem => (hparts pending hmem).imp fun _ h => ⟨h.1, h.2.1⟩) hrun hwaits
  have hsub := (waiting_sublist s pendings).subset
  have hpasses := Throttle.throttle_ne_nil hwaiting fun pending hmem => hdue pending (hsub hmem)
  obtain ⟨pending, hpasses⟩ := List.exists_mem_of_ne_nil _ hpasses
  obtain ⟨dg, hreceived, rfl, hid⟩ :=
    hparts pending (hsub ((Throttle.throttle_sublist _ _ _ _).subset hpasses))
  rw [requested_run hsorted hstart hrun]
  have hwritten : requestFor pending ≠ [] := by
    simp only [requestFor, hreceived, sendVideoFrameRecoveryDatagram, if_neg (not_or.mpr ⟨hid, hsender⟩)]
    exact List.cons_ne_nil _ _
  obtain ⟨effect, hmem⟩ := List.exists_mem_of_ne_nil _ hwritten
  exact List.ne_nil_of_mem (List.mem_flatMap.mpr ⟨pending, hpasses, hmem⟩)

/-- The requests that a socket writes are those for some of the datagrams that leave their decoder waiting.
These are more than a second apart, and every other one comes within a second after one of them. -/
theorem requests_throttled (hsorted : pendings.Pairwise fun p q => p.time ≤ q.time)
    (hstart : ∀ pending ∈ pendings, s.lastFrameRequestTimestamp.toNat ≤ pending.time)
    (hrun : Runs.run onReadyRead s pendings = some (t, out)) :
    ∃ asking : List PendingDatagram, asking.Sublist (waiting s pendings) ∧
      requested out = asking.flatMap requestFor ∧
      asking.Pairwise (fun p q => p.time + 1000 < q.time) ∧
      (∀ pending ∈ asking, s.lastFrameRequestTimestamp.toNat + 1000 < pending.time) ∧
      ∀ pending ∈ waiting s pendings, pending ∈ asking ∨
        ∃ last ∈ s.lastFrameRequestTimestamp.toNat :: asking.map PendingDatagram.time,
          last ≤ pending.time ∧ pending.time ≤ last + 1000 := by
  have hsublist := waiting_sublist s pendings
  have hspaced := Throttle.pairwise_throttle PendingDatagram.time requestGap
    s.lastFrameRequestTimestamp.toNat (waiting s pendings)
  refine ⟨_, Throttle.throttle_sublist _ _ _ _, requested_run hsorted hstart hrun, hspaced, ?_, ?_⟩
  · exact fun pending hmem => Throttle.le_time_of_mem hmem
  · intro pending hmem
    have hbefore : pending ∈ Throttle.throttle PendingDatagram.time requestGap _ (waiting s pendings) ∨ _ :=
      Throttle.exists_passed_before (fun q hq => hstart q (hsublist.subset hq))
        (hsorted.sublist hsublist) hmem
    refine hbefore.imp_right ?_
    rintro ⟨last, hlast, hle, hlt⟩
    exact ⟨last, hlast, hle, Nat.le_of_lt_succ hlt⟩

/-- Three small frames that cannot be decoded, within a bit more than a second. -/
def deltaFrames : List PendingDatagram :=
  [(1, 5000), (2, 5600), (3, 6200)].flatMap fun frame =>
    (sendVideoFrame (VP8Frame.serialize ⟨frame.1, VP8Frame.NORMAL, some [7]⟩) frame.1 5).map fun data =>
      { data, now := frame.2, heap := fun _ => 0 }

/-- A key frame is asked for twice. -/
theorem requests_throttled_deltaFrames : ∃ t out, Runs.run onReadyRead {} deltaFrames = some (t, out) ∧
    ∃ asking : List PendingDatagram, asking.Sublist (waiting {} deltaFrames) ∧
      requested out = asking.flatMap requestFor ∧ (requested out).length = 2 := by
  have hfacts : (Runs.run onReadyRead {} deltaFrames).map (fun done => (requested done.2).length) =
      some 2 := by decide +kernel
  obtain ⟨⟨t, out⟩, hrun, htwo⟩ := Option.map_eq_some_iff.mp hfacts
  obtain ⟨asking, hwaiting, hrequested, -⟩ :=
    requests_throttled (by decide +kernel) (by decide +kernel) hrun
  exact ⟨t, out, hrun, asking, hwaiting, hrequested, htwo⟩

end Ts3Video.MediaSocket
