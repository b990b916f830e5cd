import Ts3Video.Library.Components
import Ts3Video.Library.PairedLists
import Ts3Video.Media.DatagramParsing
import Ts3Video.Media.MediaPipeline

/-!
# Senders do not disturb each other

A receiving socket keeps a decoder for each sender. What it takes out of the datagrams of one sender depends on
the datagrams that name this sender, and on nothing else that arrives in between.
-/

namespace Ts3Video.MediaSocket

open Std VideoFrameUdpDecoder

/-- The sender that a datagram names, if it is handed to a decoder. -/
def senderOf (pending : PendingDatagram) : Option Int32 :=
  (receivedVideoFrame pending).map VideoFrameDatagram.sender

/-- What a datagram does to the decoder of its sender: its part is added and the next frame is taken. -/
def decode (decoder : VideoFrameUdpDecoder) (pending : PendingDatagram) :
    Option (VideoFrameUdpDecoder × List VP8Frame) :=
  match receivedVideoFrame pending with
  | none => some (decoder, [])
  | some dg => (decoder.add (some dg)).map fun added => (added.next.2, added.next.1.toList)

/-- The parts of one sender that some datagrams bring. -/
def partsOf (senderId : Int32) (pendings : List PendingDatagram) : List VideoFrameDatagram :=
  (pendings.filterMap receivedVideoFrame).filter fun dg => dg.sender = senderId

variable {s s' : MediaSocket} {pending : PendingDatagram} {pendings : List PendingDatagram}
  {effects : List Effect} {senderId : Int32}

/-- A datagram that is not handed to a decoder leaves the socket alone. -/
theorem onReadyRead_other (h : receivedVideoFrame pending = none)
    (hstep : s.onReadyRead pending = some (s', effects)) :
    s' = s ∧ enqueued senderId effects = [] := by
  obtain ⟨out, hout, hnothing⟩ := onReadyRead_of_not_received h s
  obtain ⟨rfl, rfl⟩ := Prod.mk.inj (Option.some.inj (hstep.symm.trans hout))
  exact ⟨rfl, hnothing senderId⟩

/-- A part that a socket handles is decoded by the decoder of its sender. -/
theorem decode_of_onReadyRead {dg : VideoFrameDatagram} (h : receivedVideoFrame pending = some dg)
    (hstep : s.onReadyRead pending = some (s', effects)) :
    decode (s.decoderOf dg.sender) pending =
      some (s'.decoderOf dg.sender, enqueued dg.sender effects) := by
  rw [onReadyRead_of_received h] at hstep
  have hadd : ((s.decoderOf dg.sender).add (some dg)).isSome := by
    rw [handleVideoFrameDatagram] at hstep
    obtain ⟨added, hadd, -⟩ := Option.map_eq_some_iff.mp hstep
    rw [hadd]
    rfl
  obtain ⟨added, hadd⟩ := Option.isSome_iff_exists.mp hadd
  obtain ⟨t, out, hhandled, hdecoder, henqueued⟩ := handleVideoFrameDatagram_spec s hadd pending.now
  obtain ⟨rfl, rfl⟩ := Prod.mk.inj (Option.some.inj (hstep.symm.trans hhandled))
  simp only [decode, h, hadd, Option.map_some, hdecoder, henqueued]

/-- A part of one sender leaves the other senders alone. -/
theorem onReadyRead_other_sender {dg : VideoFrameDatagram} (h : receivedVideoFrame pending = some dg)
    (hne : dg.sender ≠ senderId) (hstep : s.onReadyRead pending = some (s', effects)) :
    s'.decoderOf senderId = s.decoderOf senderId ∧ enqueued senderId effects = [] := by
  rw [onReadyRead_of_received h] at hstep
  exact ⟨decoderOf_handleVideoFrameDatagram hstep hne, enqueued_eq_nil fun frame hmem =>
    hne (senderId_of_handleVideoFrameDatagram hstep hmem).symm⟩

/-- The decoders of a socket are independent of each other. -/
theorem independent : Components.Independent onReadyRead senderOf (fun senderId s => s.decoderOf senderId)
    enqueued decode where
  outputs_nil _ := rfl
  outputs_append := enqueued_append
  step_own := by
    intro s pending s' out senderId hkey hstep
    obtain ⟨dg, hreceived, rfl⟩ := Option.map_eq_some_iff.mp hkey
    exact decode_of_onReadyRead hreceived hstep
  step_other := by
    intro s pending s' out senderId hkey hstep
    cases hreceived : receivedVideoFrame pending with
    | none =>
      obtain ⟨hsame, hnothing⟩ := onReadyRead_other hreceived hstep
      exact ⟨congrArg (fun s => s.decoderOf senderId) hsame, hnothing⟩
    | some dg =>
      refine onReadyRead_other_sender hreceived (fun heq => hkey ?_) hstep
      rw [senderOf, hreceived, Option.map_some, heq]
  defined := by
    intro s pending hown
    cases hreceived : receivedVideoFrame pending with
    | none =>
      obtain ⟨out, hout, -⟩ := onReadyRead_of_not_received hreceived s
      rw [hout]
      rfl
    | some dg =>
      have hone := hown dg.sender (by rw [senderOf, hreceived, Option.map_some])
      rw [decode, hreceived, Option.isSome_map] at hone
      rw [onReadyRead_of_received hreceived, handleVideoFrameDatagram, Option.isSome_map]
      exact hone

/-- To a decoder the datagrams of its sender are the parts that they bring. -/
theorem run_decode (senderId : Int32) (pendings : List PendingDatagram) (decoder : VideoFrameUdpDecoder) :
    Runs.run decode decoder (Components.eventsOf senderOf senderId pendings) =
      Runs.run step decoder (arrivals (partsOf senderId pendings)) := by
  induction pendings generalizing decoder with
  | nil => rfl
  | cons pending pendings ih =>
    cases hreceived : receivedVideoFrame pending with
    | none =>
      have hkey : senderOf pending ≠ some senderId := by simp [senderOf, hreceived]
      rw [Components.eventsOf, List.filter_cons_of_neg (by simpa using hkey), partsOf,
        List.filterMap_cons_none hreceived]
      exact ih decoder
    | some dg =>
      by_cases hsender : dg.sender = senderId
      · have hkey : senderOf pending = some senderId := by simp [senderOf, hreceived, hsender]
        rw [Components.eventsOf, List.filter_cons_of_pos (by simpa using hkey), partsOf,
          List.filterMap_cons_some hreceived, List.filter_cons_of_pos (by simpa using hsender)]
        change Runs.run decode decoder (pending :: Components.eventsOf senderOf senderId pendings) =
          Runs.run step decoder (.add (some dg) :: .next :: arrivals (partsOf senderId pendings))
        simp only [Runs.run, decode, hreceived, step]
        cases decoder.add (some dg) with
        | none => rfl
        | some added => simp [ih, Function.comp_def]
      · have hkey : senderOf pending ≠ some senderId := by simp [senderOf, hreceived, hsender]
        rw [Components.eventsOf, List.filter_cons_of_neg (by simpa using hkey), partsOf,
          List.filterMap_cons_some hreceived, List.filter_cons_of_neg (by simpa using hsender)]
        exact ih decoder

/-- What a socket enqueues for a sender is what the decoder of this sender hands out on its own. -/
theorem decoder_of_run (hrun : Runs.run onReadyRead s pendings = some (s', effects)) (senderId : Int32) :
    Runs.run step (s.decoderOf senderId) (arrivals (partsOf senderId pendings)) =
      some (s'.decoderOf senderId, enqueued senderId effects) := by
  rw [← run_decode]
  exact independent.run_own senderId hrun

/-- If each decoder gets through the parts of its sender, the socket gets through all datagrams. -/
theorem exists_run_of_decoders
    (h : ∀ senderId, (Runs.run step (s.decoderOf senderId) (arrivals (partsOf senderId pendings))).isSome) :
    ∃ s' effects, Runs.run onReadyRead s pendings = some (s', effects) := by
  refine independent.exists_run fun senderId => ?_
  rw [run_decode]
  exact h senderId

/-- A socket gets through some datagrams if and only if each decoder gets through the parts of its sender,
and what it enqueues for a sender is then what the decoder of this sender hands out on its own. -/
theorem run_iff_decoders (s : MediaSocket) (pendings : List PendingDatagram) :
    ((∃ s' effects, Runs.run onReadyRead s pendings = some (s', effects)) ↔
      ∀ senderId, (Runs.run step (s.decoderOf senderId) (arrivals (partsOf senderId pendings))).isSome) ∧
    ∀ s' effects, Runs.run onReadyRead s pendings = some (s', effects) → ∀ senderId,
      Runs.run step (s.decoderOf senderId) (arrivals (partsOf senderId pendings)) =
        some (s'.decoderOf senderId, enqueued senderId effects) := by
  refine ⟨⟨?_, exists_run_of_decoders⟩, fun s' effects hrun => decoder_of_run hrun⟩
  rintro ⟨s', effects, hrun⟩ senderId
  rw [decoder_of_run hrun senderId]
  rfl

/-- Frames with consecutive ids that begin with a key frame and can be cut into datagrams. -/
structure Consecutive (frames : List VP8Frame) : Prop where
  times : ∃ t, frames.map (fun frame => frame.time.toNat) = List.range' (t + 1) frames.length
  key : ∀ frame ∈ frames.head?, frame.type = VP8Frame.KEY
  fits : ∀ frame ∈ frames, VideoFrameDatagram.Fits frame.serialize

/-- Some datagrams are those that a sender writes for some frames, those of each frame in any order. -/
def ArriveFor (senderId : Int32) (frames : List VP8Frame) (datagrams : List (List UInt8)) : Prop :=
  ∃ received, datagrams = received.flatten ∧ List.Forall₂ (fun frame datagrams =>
    datagrams.Perm (sendVideoFrame frame.serialize frame.time senderId)) frames received

variable {frames : List VP8Frame}

/-- A datagram that carries a part is handed to the decoder of its sender as this part. -/
theorem Carries.received {dg : VideoFrameDatagram} (h : Carries senderId pending dg) :
    receivedVideoFrame pending = some dg := by
  obtain ⟨hdata, -, hlength, hsize⟩ := h
  obtain ⟨data, now, heap⟩ := pending
  change data = _ at hdata
  rw [hdata, receivedVideoFrame_toBytes hlength hsize]

/-- Datagrams that carry parts bring these parts. -/
theorem filterMap_of_carries {datagrams : List VideoFrameDatagram}
    (h : List.Forall₂ (Carries senderId) pendings datagrams) :
    pendings.filterMap receivedVideoFrame = datagrams := by
  induction h with
  | nil => rfl
  | cons hone _ ih => rw [List.filterMap_cons_some hone.received, ih]

/-- The parts of consecutive frames that arrive for a sender are decoded to these frames. -/
theorem ArriveFor.run_parts (h : ArriveFor senderId frames (pendings.map PendingDatagram.data))
    (hframes : Consecutive frames) :
    (∀ pending ∈ pendings, ∃ dg, receivedVideoFrame pending = some dg ∧ dg.sender = senderId) ∧
      ∃ decoder, Runs.run step {} (arrivals (pendings.filterMap receivedVideoFrame)) =
        some (decoder, frames) := by
  obtain ⟨received, hdata, hperm⟩ := h
  obtain ⟨t, htimes⟩ := hframes.times
  obtain ⟨parts, rfl, rfl⟩ := PairedLists.exists_flatten_of_map hdata
  have hall : ∀ frame ∈ frames, frame ∈ (sentInOrder senderId t frames htimes hframes.fits).frames :=
    fun _ h => h
  obtain ⟨carried, hcarries, horders⟩ :=
    exists_all_carried hall (List.forall₂_map_right_iff.mp hperm)
  have hflat := List.rel_flatten hcarries
  have hstart : Between t 0 {} :=
    ⟨⟨rfl, rfl, rfl, Nat.le_refl 0, fun h => absurd h (Nat.lt_irrefl 0)⟩,
      fun id hmem => by simp at hmem⟩
  obtain ⟨decoder, hrun⟩ := hstart.run_frames hall htimes (fun _ => hframes.key) horders
  refine ⟨fun pending hmem => ?_, decoder, ?_⟩
  · obtain ⟨dg, -, hcarries⟩ := PairedLists.exists_partner hflat hmem
    exact ⟨dg, hcarries.received, hcarries.sender_eq⟩
  · rw [filterMap_of_carries hflat]
    exact hrun

end Ts3Video.MediaSocket
