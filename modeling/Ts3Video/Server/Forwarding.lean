import Ts3Video.Server.RelayTable

/-!
# What the media socket forwards

A video datagram is forwarded as it came. The sender id that the receivers read in it is the one that
the client wrote, not the one of the entry that the datagram is relayed for.
-/

namespace Ts3Video

open Std MediaSocketHandler

/-- The buffer of the server does not cut off the sender id. -/
theorem VideoFrameDatagram.readSender_take (data : List UInt8) :
    readSender (data.take bufferSize) = readSender data := by
  have hbyte : ∀ (size : ℕ) (bytes : List UInt8), (readUInt8 (bytes.take (size + 1))).2 =
      (readUInt8 bytes).2.take size := by
    intro size bytes
    rw [readUInt8, readNumber_take (by omega)]
    rfl
  have hnumber : ∀ bytes : List UInt8, (readInt32 (bytes.take 4093)).1 = (readInt32 bytes).1 := by
    intro bytes
    rw [readInt32, readUInt32, readNumber_take (by decide)]
    rfl
  rw [readSender, bufferSize, hbyte, hbyte, hbyte, hnumber, readSender]

namespace MediaSocketHandler

/-- Whoever gets a video datagram reads the id of the client that is registered for its source. -/
def SentAsRegistered (fromUtf8 : List UInt8 → String) (recips : MediaRecipients)
    (datagram : List UInt8) (address : QHostAddress) (port : UInt16) : Prop :=
  parse (datagram.take bufferSize) = .relay → ∀ data receiverAddress receiverPort,
    .writeDatagram data receiverAddress receiverPort ∈
      (onReadyRead fromUtf8 recips datagram address port).2 →
    ∃ entry, recips.sender? address port = some entry ∧
      (VideoFrameDatagram.readSender data).toInt = entry.clientId

/-- The video datagram names another client than the one registered for its source, which has
receivers. -/
def NamesAnother (recips : MediaRecipients) (datagram : List UInt8) (address : QHostAddress)
    (port : UInt16) : Prop :=
  parse (datagram.take bufferSize) = .relay ∧ ∃ entry, recips.sender? address port = some entry ∧
    entry.receivers ≠ [] ∧ (VideoFrameDatagram.readSender datagram).toInt ≠ entry.clientId

variable {recips : MediaRecipients} {datagram : List UInt8} {address : QHostAddress} {port : UInt16}

/-- A video datagram is written as it came, to the receivers of the entry of its source. -/
theorem mem_onReadyRead_relay (fromUtf8 : List UInt8 → String)
    (hparse : parse (datagram.take bufferSize) = .relay) {output : Output} :
    output ∈ (onReadyRead fromUtf8 recips datagram address port).2 ↔
      ∃ entry, recips.sender? address port = some entry ∧ ∃ receiver ∈ entry.receivers,
        output = .writeDatagram (datagram.take bufferSize) receiver.address receiver.port := by
  simp only [onReadyRead, hparse, List.mem_map]
  cases recips.sender? address port with
  | none => simp
  | some entry => simp only [Option.getD_some, Option.some.injEq, exists_eq_left', eq_comm]

/-- A video datagram is forwarded under the id that is registered for its source exactly if it was sent
under that id. -/
theorem sentAsRegistered_iff (fromUtf8 : List UInt8 → String) (recips : MediaRecipients)
    (datagram : List UInt8) (address : QHostAddress) (port : UInt16) :
    SentAsRegistered fromUtf8 recips datagram address port ↔
      ¬ NamesAnother recips datagram address port := by
  constructor
  · rintro h ⟨hparse, entry, hentry, hreceivers, hother⟩
    obtain ⟨receiver, hmem⟩ := List.exists_mem_of_ne_nil _ hreceivers
    obtain ⟨found, hfound, hsender⟩ := h hparse _ _ _
      ((mem_onReadyRead_relay fromUtf8 hparse).mpr ⟨entry, hentry, receiver, hmem, rfl⟩)
    obtain rfl := Option.some.inj (hfound.symm.trans hentry)
    rw [VideoFrameDatagram.readSender_take] at hsender
    exact hother hsender
  · intro h hparse data receiverAddress receiverPort hmem
    obtain ⟨entry, hentry, receiver, hreceiver, houtput⟩ :=
      (mem_onReadyRead_relay fromUtf8 hparse).mp hmem
    obtain ⟨rfl, -, -⟩ := Output.writeDatagram.inj houtput
    refine ⟨entry, hentry, ?_⟩
    rw [VideoFrameDatagram.readSender_take]
    by_contra hother
    exact h ⟨hparse, entry, hentry, List.ne_nil_of_mem hreceiver, hother⟩

/-- A datagram that names the second client. -/
def borrowedName : List UInt8 :=
  VideoFrameDatagram.toBytes
    { flags := 0, sender := 2, frameId := 1, index := 0, count := 1, size := 0, data := [] }

/-- The first client of a conference sends under the name of the second one, which gets to read it. -/
theorem sentAsRegistered_conference : ∃ s,
    Runs.Reachable (VirtualServer.step QString.fromLatin1) (VirtualServer.init {} ∅) s ∧
      ¬ SentAsRegistered QString.fromLatin1 s.recipients borrowedName "192.0.2.1" 5001 := by
  have hfacts : (Runs.run (VirtualServer.step QString.fromLatin1) (VirtualServer.init {} ∅)
      VirtualServer.conference).map (fun done =>
        ((done.1.recipients.sender? "192.0.2.1" 5001).map (·.clientId),
          (onReadyRead QString.fromLatin1 done.1.recipients borrowedName "192.0.2.1" 5001).2)) =
      some (some 1, [.writeDatagram borrowedName "192.0.2.2" 5002]) := by decide +kernel
  obtain ⟨⟨s, out⟩, hrun, hfacts⟩ := Option.map_eq_some_iff.mp hfacts
  obtain ⟨hid, houtputs⟩ := Prod.mk.inj hfacts
  obtain ⟨registered, hregistered, hone⟩ := Option.map_eq_some_iff.mp hid
  refine ⟨s, ⟨VirtualServer.conference, out, hrun⟩, fun h => ?_⟩
  obtain ⟨entry, hentry, hsender⟩ := h (by decide) borrowedName "192.0.2.2" 5002
    (houtputs ▸ List.mem_singleton_self _)
  obtain rfl := Option.some.inj (hentry.symm.trans hregistered)
  rw [borrowedName, VideoFrameDatagram.readSender_toBytes, hone] at hsender
  exact absurd hsender (by decide)

end MediaSocketHandler

end Ts3Video
