import Ts3Video.Media.UdpVideoFrameDecoder

/-!
# When the buffers of the decoder hold incomplete frames only

The decoder is documented to move a frame out of its buffers as soon as all parts are there, and to
discard the oldest of more than sixteen buffers. Only the second of these is done, so a frame that
arrives in full occupies one of the sixteen places until it becomes the oldest one.
-/

namespace Ts3Video.VideoFrameUdpDecoder

open Std

/-- The documented contract. Both containers are bounded, and a buffered frame has missing parts. -/
structure BufferContract (s : VideoFrameUdpDecoder) : Prop where
  buffers : s.frameBuffers.size ≤ maximumDistinctFrames
  incomplete : ∀ (frameId : UInt64) (buffer : DGPtrList),
    s.frameBuffers[frameId]? = some buffer → isComplete buffer = false
  queue : s.completeFramesQueue.size ≤ maximumDistinctFrames

/-- The datagram brings a part that was missing. -/
def BringsPart (s : VideoFrameUdpDecoder) (dg : VideoFrameDatagram) : Prop :=
  s.isAlreadyCompleted dg.frameId = false ∧ (s.bufferFor dg)[dg.index.toNat]? = some none

instance (s : VideoFrameUdpDecoder) (dg : VideoFrameDatagram) : Decidable (BringsPart s dg) :=
  inferInstanceAs (Decidable (_ ∧ _))

/-- The buffers that a call of `add` checks for their number, or the buffers as they are. -/
def uncheckedBuffers (s : VideoFrameUdpDecoder) : Event → ExtTreeMap UInt64 DGPtrList
  | .add (some dg) =>
    if BringsPart s dg then
      s.frameBuffers.insert dg.frameId ((s.bufferFor dg).set dg.index.toNat (some dg))
    else s.frameBuffers
  | _ => s.frameBuffers

/-- The frames with missing parts other than the given one. -/
def incompleteOthers (buffers : ExtTreeMap UInt64 DGPtrList) (frameId : UInt64) : List UInt64 :=
  (buffers.erase frameId).keys.filter fun other => !isComplete (buffers.getD other [])

/-- A frame with missing parts is discarded only for sixteen others. -/
def DiscardsWhenFull (s : VideoFrameUdpDecoder) (e : Event) : Prop :=
  ∀ next ∈ step s e, ∀ frameId ∈ (s.uncheckedBuffers e).keys,
    isComplete ((s.uncheckedBuffers e).getD frameId []) = false → frameId ∉ next.1.frameBuffers →
      maximumDistinctFrames ≤ (incompleteOthers (s.uncheckedBuffers e) frameId).length

instance (s : VideoFrameUdpDecoder) (e : Event) : Decidable (DiscardsWhenFull s e) :=
  decidable_of_iff (∀ next ∈ step s e, (s.uncheckedBuffers e).keys.all fun frameId =>
      isComplete ((s.uncheckedBuffers e).getD frameId []) = false → frameId ∉ next.1.frameBuffers →
        maximumDistinctFrames ≤ (incompleteOthers (s.uncheckedBuffers e) frameId).length)
    (by simp only [List.all_eq_true, decide_eq_true_eq, DiscardsWhenFull])

/-- The datagram brings the last missing part of its frame. -/
def BringsLastPart (s : VideoFrameUdpDecoder) (dg : VideoFrameDatagram) : Prop :=
  BringsPart s dg ∧ isComplete ((s.bufferFor dg).set dg.index.toNat (some dg)) = true

/-- Sixteen later frames are buffered, and none of this one. -/
def OlderThanFull (s : VideoFrameUdpDecoder) (dg : VideoFrameDatagram) : Prop :=
  dg.frameId ∉ s.frameBuffers ∧ s.frameBuffers.size = maximumDistinctFrames ∧
    ∀ frameId ∈ s.frameBuffers, dg.frameId < frameId

/-- The call does not complete a frame, unless its buffer is discarded at once. -/
def KeepsContract (s : VideoFrameUdpDecoder) (e : Event) : Prop :=
  ∀ dg, e = .add (some dg) → BringsLastPart s dg → OlderThanFull s dg

/-- A missing part is stored, and the number of buffers is checked. -/
theorem uncheckedBuffers_of_bringsPart {s : VideoFrameUdpDecoder} {dg : VideoFrameDatagram}
    (h : BringsPart s dg) : s.uncheckedBuffers (.add (some dg)) =
      s.frameBuffers.insert dg.frameId ((s.bufferFor dg).set dg.index.toNat (some dg)) := if_pos h

/-- A call leaves the buffers as they were or stores a missing part and checks their number. -/
theorem frameBuffers_step {s s' : VideoFrameUdpDecoder} {e : Event} {out : List VP8Frame}
    (h : step s e = some (s', out)) :
    s'.frameBuffers = s.frameBuffers ∧ s.uncheckedBuffers e = s.frameBuffers ∨
      ∃ dg, e = .add (some dg) ∧ BringsPart s dg ∧
        s'.frameBuffers = OrderedMap.trim maximumDistinctFrames (s.uncheckedBuffers e) := by
  cases e with
  | next =>
    obtain ⟨rfl, -⟩ := Prod.mk.inj (Option.some.inj h)
    rcases next_cases s with ⟨-, hnext⟩ | ⟨_, _, -, hbuffers, -⟩
    · exact .inl ⟨by rw [hnext], rfl⟩
    · exact .inl ⟨hbuffers, rfl⟩
  | add dpart =>
    obtain ⟨s₁, hadd, heq⟩ := Option.map_eq_some_iff.mp h
    obtain ⟨rfl, -⟩ := Prod.mk.inj heq
    cases dpart with
    | none =>
      obtain rfl := Option.some.inj hadd
      exact .inl ⟨rfl, rfl⟩
    | some dg =>
      cases added_of_add hadd with
      | late hlate => exact .inl ⟨rfl, if_neg fun hbrings => by simp [hbrings.1] at hlate⟩
      | received _ hslot => exact .inl ⟨rfl, if_neg fun hbrings => by simp [hbrings.2] at hslot⟩
      | incomplete hlate hslot =>
        exact .inr ⟨dg, rfl, ⟨hlate, hslot⟩, by rw [uncheckedBuffers_of_bringsPart ⟨hlate, hslot⟩]; rfl⟩
      | complete hlate hslot =>
        exact .inr ⟨dg, rfl, ⟨hlate, hslot⟩, by rw [uncheckedBuffers_of_bringsPart ⟨hlate, hslot⟩]; rfl⟩

/-- Frames are taken from the queue, or one is put into it and their number is checked. -/
theorem completeFramesQueue_step {s s' : VideoFrameUdpDecoder} {e : Event} {out : List VP8Frame}
    (h : step s e = some (s', out)) (hqueue : s.completeFramesQueue.size ≤ maximumDistinctFrames) :
    s'.completeFramesQueue.size ≤ maximumDistinctFrames := by
  cases e with
  | next =>
    obtain ⟨rfl, -⟩ := Prod.mk.inj (Option.some.inj h)
    rcases next_cases s with ⟨-, hnext⟩ | ⟨_, _, -, -, herase, -⟩
    · rwa [hnext]
    · rw [herase]
      exact ExtTreeMap.size_erase_le.trans hqueue
  | add dpart =>
    obtain ⟨s₁, hadd, heq⟩ := Option.map_eq_some_iff.mp h
    obtain ⟨rfl, -⟩ := Prod.mk.inj heq
    obtain ⟨-, -, -, hsame | ⟨frame, hput⟩⟩ := add_cases hadd
    · rwa [hsame]
    · rw [hput]
      exact OrderedMap.size_trim_le _ _

/-- The buffers with a new part among them, if they meet the contract and the part is not the last one of
its frame. -/
theorem BufferContract.unchecked {s : VideoFrameUdpDecoder} (h : BufferContract s)
    {dg : VideoFrameDatagram} (hbrings : BringsPart s dg) (hlast : ¬ BringsLastPart s dg)
    {frameId : UInt64} {buffer : DGPtrList}
    (hget : (s.uncheckedBuffers (.add (some dg)))[frameId]? = some buffer) :
    isComplete buffer = false := by
  rw [uncheckedBuffers_of_bringsPart hbrings, ExtTreeMap.getElem?_insert] at hget
  split at hget
  · rw [← Option.some.inj hget]
    exact Bool.eq_false_iff.mpr fun hcomplete => hlast ⟨hbrings, hcomplete⟩
  · exact h.incomplete frameId buffer hget

/-- The only part of a frame that is older than sixteen others leaves the buffers as they were. -/
theorem trim_of_olderThanFull {s : VideoFrameUdpDecoder} {dg : VideoFrameDatagram}
    (hbrings : BringsPart s dg) (h : OlderThanFull s dg) :
    OrderedMap.trim maximumDistinctFrames (s.uncheckedBuffers (.add (some dg))) = s.frameBuffers := by
  obtain ⟨hnew, hfull, holder⟩ := h
  rw [uncheckedBuffers_of_bringsPart hbrings]
  exact OrderedMap.trim_insert_least _ hnew hfull fun frameId hmem =>
    Std.compare_eq_lt.mpr (holder frameId hmem)

/-- A call that completes no frame keeps the contract. -/
theorem BufferContract.step {s s' : VideoFrameUdpDecoder} (h : BufferContract s) {e : Event}
    (hkeeps : KeepsContract s e) {out : List VP8Frame}
    (hstep : VideoFrameUdpDecoder.step s e = some (s', out)) : BufferContract s' := by
  have hqueue := completeFramesQueue_step hstep h.queue
  rcases frameBuffers_step hstep with ⟨hsame, -⟩ | ⟨dg, rfl, hbrings, htrim⟩
  · exact ⟨by rw [hsame]; exact h.buffers, by rw [hsame]; exact h.incomplete, hqueue⟩
  · by_cases hlast : BringsLastPart s dg
    · rw [trim_of_olderThanFull hbrings (hkeeps dg rfl hlast)] at htrim
      exact ⟨by rw [htrim]; exact h.buffers, by rw [htrim]; exact h.incomplete, hqueue⟩
    · refine ⟨by rw [htrim]; exact OrderedMap.size_trim_le _ _, fun frameId buffer hget => ?_, hqueue⟩
      rw [htrim] at hget
      exact h.unchecked hbrings hlast (OrderedMap.getElem?_trim_eq_some hget)

/-- A call that completes a frame and does not discard it at once breaks the contract. -/
theorem BufferContract.breaks {s : VideoFrameUdpDecoder} (h : BufferContract s) {e : Event}
    (hfills : ¬ KeepsContract s e) :
    ∃ s' out, VideoFrameUdpDecoder.step s e = some (s', out) ∧ ¬ BufferContract s' := by
  unfold KeepsContract at hfills
  push Not at hfills
  obtain ⟨dg, rfl, ⟨⟨hlate, hslot⟩, hcomplete⟩, hstays⟩ := hfills
  have hadd := add_of_complete hlate hslot hcomplete rfl
  refine ⟨_, _, congrArg (Option.map fun s' => (s', [])) hadd, fun hcontract => ?_⟩
  have hget : (s.store dg)[dg.frameId]? = some ((s.bufferFor dg).set dg.index.toNat (some dg)) :=
    OrderedMap.getElem?_trim_insert _ h.buffers fun ⟨hnew, hfull, holder⟩ =>
      hstays ⟨hnew, hfull, fun frameId hmem => Std.compare_eq_lt.mp (holder frameId hmem)⟩
  exact Bool.false_ne_true ((hcontract.incomplete _ _ hget).symm.trans hcomplete)

/-- A call that completes no frame discards an incomplete one only for sixteen others. -/
theorem BufferContract.discards {s : VideoFrameUdpDecoder} (h : BufferContract s) {e : Event}
    (hkeeps : KeepsContract s e) : DiscardsWhenFull s e := by
  rintro ⟨s', out⟩ hnext frameId hmem hincomplete hgone
  rw [ExtTreeMap.mem_keys] at hmem
  rcases frameBuffers_step hnext with ⟨hsame, hunchecked⟩ | ⟨dg, rfl, hbrings, htrim⟩
  · rw [hunchecked] at hmem
    exact absurd (hsame ▸ hmem) hgone
  · have hinsert := uncheckedBuffers_of_bringsPart hbrings
    have hsize : (s.uncheckedBuffers (.add (some dg))).size ≤ maximumDistinctFrames + 1 := by
      rw [hinsert]
      exact ExtTreeMap.size_insert_le.trans (Nat.add_le_add_right h.buffers 1)
    by_cases hlast : BringsLastPart s dg
    · -- the only frame that is discarded is the one that has just been completed
      rw [htrim, trim_of_olderThanFull hbrings (hkeeps dg rfl hlast)] at hgone
      rw [hinsert, ExtTreeMap.mem_insert, Std.compare_eq_iff_eq] at hmem
      obtain rfl := hmem.resolve_right hgone
      rw [hinsert, ExtTreeMap.getD_insert_self] at hincomplete
      exact absurd hlast.2 (by rw [hincomplete]; exact Bool.false_ne_true)
    · rw [htrim] at hgone
      obtain ⟨herase, hfull⟩ := OrderedMap.trim_eq_erase hsize hmem hgone
      rw [incompleteOthers, List.filter_eq_self.mpr, ExtTreeMap.length_keys,
        OrderedMap.size_erase_of_mem hmem, hfull]
      · exact Nat.le_refl _
      · intro other hother
        have hin := ExtTreeMap.mem_of_mem_erase (ExtTreeMap.mem_keys.mp hother)
        have hget := ExtTreeMap.getElem?_eq_some_getElem hin
        rw [ExtTreeMap.getD_eq_getD_getElem?, hget, Option.getD_some,
          h.unchecked hbrings hlast hget]
        rfl

/-- Along every sequence of calls, the documented contract is kept and incomplete frames are discarded only
for sixteen others exactly if no call completes a frame whose buffer stays. -/
theorem bufferContract_iff (events : List Event) :
    (Runs.EachState step BufferContract {} events ∧ Runs.EachStep step DiscardsWhenFull {} events) ↔
      Runs.EachStep step KeepsContract {} events := by
  have hinit : BufferContract {} := by
    refine ⟨Nat.zero_le _, fun frameId buffer hget => ?_, Nat.zero_le _⟩
    exact absurd hget (by simp)
  rw [Runs.eachState_iff_eachStep (fun _ h => h) (fun _ _ _ _ h hkeeps hstep => h.step hkeeps hstep)
    (fun _ _ h hfills => h.breaks hfills) hinit]
  refine ⟨And.left, fun hkeeps => ⟨hkeeps, ?_⟩⟩
  exact .of_eachState (fun _ _ h hkeep => h.discards hkeep)
    (Runs.eachState_of_eachStep (fun _ _ _ _ h hkeep hstep => h.step hkeep hstep) hinit hkeeps) hkeeps

/-- A datagram with the part of a frame that has the given index. -/
def partOfFrame (frameId : UInt64) (index count : UInt16) : Event :=
  .add (some { flags := 0, sender := 1, frameId, index, count, size := 1, data := [0] })

/-- The first of two parts of a frame, and then sixteen frames that consist of a single part. -/
def crowd : List Event :=
  partOfFrame 1 0 2 :: (List.range 16).map fun i => partOfFrame (UInt64.ofNat i + 2) 0 1

/-- Sixteen frames that have arrived in full stay in the buffers and crowd out the only frame with a missing
part. -/
theorem bufferContract_crowd :
    ¬ Runs.EachState step BufferContract {} crowd ∧ ¬ Runs.EachStep step DiscardsWhenFull {} crowd := by
  have hfacts : (Runs.run step {} crowd).map (fun done => done.1.frameBuffers[(2 : UInt64)]?.map isComplete) =
      some (some true) := by decide +kernel
  refine ⟨fun hstates => ?_, by decide +kernel⟩
  obtain ⟨⟨s, out⟩, hrun, hlast⟩ := Option.map_eq_some_iff.mp hfacts
  obtain ⟨buffer, hget, hcomplete⟩ := Option.map_eq_some_iff.mp hlast
  exact Bool.false_ne_true (((hstates.last hrun).incomplete 2 buffer hget).symm.trans hcomplete)

end Ts3Video.VideoFrameUdpDecoder
