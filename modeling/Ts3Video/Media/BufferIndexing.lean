import Ts3Video.Media.UdpVideoFrameDecoder
import Mathlib.Logic.Function.Basic

/-!
# When the reassembly buffers are indexed inside of their vectors

The vector of a frame buffer has the length its opening datagram announced, while the index comes
from any later datagram with the same frame id. The receiver checks neither field, so a run is
defined exactly if every datagram that is not late has an index below the count of the datagram
that opened the buffer it belongs to.
-/

namespace Ts3Video.VideoFrameUdpDecoder

open Std

/-- The count field of the datagram that opened the buffer of each frame id, kept along a run. -/
def announcedCounts (s : VideoFrameUdpDecoder) (counts : UInt64 → UInt16) : Event → UInt64 → UInt16
  | .add (some dg) =>
    if s.isAlreadyCompleted dg.frameId ∨ dg.frameId ∈ s.frameBuffers then counts
    else Function.update counts dg.frameId dg.count
  | _ => counts

/-- Every datagram that is not late has an index below the count its buffer was opened with. -/
def IndicesAnnounced (s : VideoFrameUdpDecoder) (counts : UInt64 → UInt16) : List Event → Prop
  | [] => True
  | e :: events =>
    (∀ dg, e = .add (some dg) → s.isAlreadyCompleted dg.frameId = false →
      dg.index < announcedCounts s counts e dg.frameId) ∧
    ∀ s' out, step s e = some (s', out) → IndicesAnnounced s' (announcedCounts s counts e) events

/-- Every buffer has the length that was announced when it was opened. -/
def BufferLengths (s : VideoFrameUdpDecoder) (counts : UInt64 → UInt16) : Prop :=
  ∀ frameId buffer, s.frameBuffers[frameId]? = some buffer →
    buffer.length = (counts frameId).toNat

/-- The buffer of a datagram that is not late has the length announced for its frame id. -/
theorem bufferFor_length {s : VideoFrameUdpDecoder} {counts : UInt64 → UInt16}
    {dg : VideoFrameDatagram} (h : BufferLengths s counts)
    (hlate : s.isAlreadyCompleted dg.frameId = false) :
    (s.bufferFor dg).length = (announcedCounts s counts (.add (some dg)) dg.frameId).toNat := by
  cases hget : s.frameBuffers[dg.frameId]? with
  | some buffer =>
    have hmem : dg.frameId ∈ s.frameBuffers :=
      ExtTreeMap.mem_iff_isSome_getElem?.mpr (by rw [hget]; rfl)
    rw [bufferFor, hget, Option.getD_some, h dg.frameId buffer hget, announcedCounts,
      if_pos (Or.inr hmem)]
  | none =>
    have hmem : dg.frameId ∉ s.frameBuffers := by
      rw [ExtTreeMap.mem_iff_isSome_getElem?, hget]
      exact Bool.false_ne_true
    rw [bufferFor, hget, Option.getD_none, List.length_replicate, announcedCounts,
      if_neg (by simp [hlate, hmem]), Function.update_self]

/-- Storing a part keeps the announced lengths. -/
theorem bufferLengths_store {s : VideoFrameUdpDecoder} {counts : UInt64 → UInt16}
    {dg : VideoFrameDatagram} (h : BufferLengths s counts)
    (hlate : s.isAlreadyCompleted dg.frameId = false) {frameId : UInt64} {buffer : DGPtrList}
    (hget : (s.store dg)[frameId]? = some buffer) :
    buffer.length = (announcedCounts s counts (.add (some dg)) frameId).toNat := by
  have hentry := OrderedMap.getElem?_trim_eq_some hget
  rw [ExtTreeMap.getElem?_insert] at hentry
  split at hentry
  next heq =>
    rw [Std.compare_eq_iff_eq] at heq
    rw [Option.some.injEq] at hentry
    rw [← hentry, List.length_set, bufferFor_length h hlate, heq]
  next hne =>
    rw [h frameId buffer hentry, announcedCounts]
    split
    · rfl
    · rw [Function.update_of_ne fun heq => hne (Std.compare_eq_iff_eq.mpr heq.symm)]

/-- Every defined step keeps the announced lengths. -/
theorem bufferLengths_step {s s' : VideoFrameUdpDecoder} {counts : UInt64 → UInt16} {e : Event}
    {out : List VP8Frame} (h : BufferLengths s counts) (hstep : step s e = some (s', out)) :
    BufferLengths s' (announcedCounts s counts e) := by
  cases e with
  | next =>
    simp only [step, Option.some.injEq, Prod.mk.injEq] at hstep
    rw [← hstep.1]
    unfold next
    split
    · exact h
    · repeat' split
      all_goals exact h
  | add dpart =>
    obtain ⟨s₁, hadd, heq⟩ := Option.map_eq_some_iff.mp hstep
    simp only [Prod.mk.injEq] at heq
    rw [← heq.1]
    cases dpart with
    | none =>
      simp only [add, Option.some.injEq] at hadd
      rw [← hadd]
      exact h
    | some dg =>
      cases added_of_add hadd with
      | late hlate =>
        rw [announcedCounts, if_pos (Or.inl hlate)]
        exact h
      | received _ hslot =>
        rw [announcedCounts, if_pos (Or.inr (mem_frameBuffers_of_received hslot))]
        exact h
      | incomplete hlate => exact fun _ _ => bufferLengths_store h hlate
      | complete hlate => exact fun _ _ => bufferLengths_store h hlate

/-- A step is defined exactly if its datagram, unless it is late, has an announced index. -/
theorem step_isSome_iff {s : VideoFrameUdpDecoder} {counts : UInt64 → UInt16}
    (h : BufferLengths s counts) (e : Event) :
    (step s e).isSome ↔ ∀ dg, e = .add (some dg) → s.isAlreadyCompleted dg.frameId = false →
      dg.index < announcedCounts s counts e dg.frameId := by
  cases e with
  | next => simp [step]
  | add dpart =>
    cases dpart with
    | none => simp [step, add]
    | some dg =>
      simp only [step, Option.isSome_map, add_isSome_iff, Event.add.injEq, Option.some.injEq]
      constructor
      · rintro hsome dg' rfl hlate
        rw [UInt16.lt_iff_toNat_lt, ← bufferFor_length h hlate]
        exact hsome hlate
      · intro hindex hlate
        rw [bufferFor_length h hlate, ← UInt16.lt_iff_toNat_lt]
        exact hindex dg rfl hlate

/-- A run stays inside of all vectors exactly if its datagrams have announced indices. -/
theorem run_isSome_iff {s : VideoFrameUdpDecoder} {counts : UInt64 → UInt16}
    (h : BufferLengths s counts) (events : List Event) :
    (Runs.run step s events).isSome ↔ IndicesAnnounced s counts events := by
  induction events generalizing s counts with
  | nil => simp [IndicesAnnounced]
  | cons e events ih =>
    rw [IndicesAnnounced, ← step_isSome_iff h e]
    cases hstep : step s e with
    | none => simp [Runs.run, hstep]
    | some first =>
      obtain ⟨s', out⟩ := first
      simp only [Runs.run, hstep, Option.bind_some, Option.isSome_map, Option.isSome_some,
        true_and, Option.some.injEq, Prod.mk.injEq]
      rw [ih (bufferLengths_step h hstep)]
      constructor
      · rintro hrest _ _ ⟨rfl, -⟩
        exact hrest
      · exact fun hrest => hrest s' out ⟨rfl, rfl⟩

/-- A decoder is indexed inside of its vectors along a whole sequence of calls exactly if every
datagram of it, unless it is late, has an index below the count its buffer was opened with. -/
theorem buffers_indexed_inside_iff (events : List Event) :
    (Runs.run step {} events).isSome ↔ IndicesAnnounced {} (fun _ => 0) events :=
  run_isSome_iff (fun frameId buffer hget => by simp at hget) events

/-- A single datagram can name an index that its own count excludes. -/
theorem buffers_indexed_outside : ¬ ∀ events : List Event, (Runs.run step {} events).isSome := by
  intro h
  have hrun := h [.add (some
    { flags := 0, sender := 1, frameId := 1, index := 1, count := 1, size := 1, data := [0] })]
  revert hrun
  decide

end Ts3Video.VideoFrameUdpDecoder
