import Ts3Video.Server.Handlers

/-!
# What lookups do to the table of recipients

Looking up an entry that is not there leaves an empty one behind. The empty entry relays nothing, so
datagrams are answered as before.
-/

namespace Ts3Video

open Std MediaSocketHandler

namespace MediaRecipients

/-- No lookup tells the tables apart. A missing entry is looked up as an empty one. -/
structure SameRelay (r r' : MediaRecipients) : Prop where
  sender : ∀ address port, (r.sender? address port).getD {} = (r'.sender? address port).getD {}
  receiver : ∀ clientId : ℤ,
    (r.clientid2receiver[clientId]?).getD {} = (r'.clientid2receiver[clientId]?).getD {}

/-- A table is not told apart from itself. -/
theorem SameRelay.refl (r : MediaRecipients) : SameRelay r r := ⟨fun _ _ => rfl, fun _ => rfl⟩

variable {r r' : MediaRecipients}

/-- The tables change places. -/
theorem SameRelay.symm (h : SameRelay r r') : SameRelay r' r :=
  ⟨fun address port => (h.sender address port).symm, fun clientId => (h.receiver clientId).symm⟩

/-- The lookup of a sender stays as it was after the lookup of a sender. -/
theorem SameRelay.lookupSender (h : SameRelay r r') (address : QHostAddress) (port : UInt16) :
    SameRelay (r.insertSender address port ((r.sender? address port).getD {})) r' where
  sender := by
    intro address' port'
    rw [sender?_insertSender]
    split
    next hat =>
      rw [← hat.1, ← hat.2]
      exact h.sender address port
    next => exact h.sender address' port'
  receiver := h.receiver

/-- The lookup of a receiver stays as it was after the lookup of a receiver. -/
theorem SameRelay.lookupReceiver (h : SameRelay r r') (clientId : ℤ) :
    SameRelay (r.insertReceiver clientId ((r.clientid2receiver[clientId]?).getD {})) r' where
  sender := h.sender
  receiver := by
    intro clientId'
    rw [getElem?_insertReceiver]
    split
    next hat =>
      rw [← hat]
      exact h.receiver clientId
    next => exact h.receiver clientId'

/-- Tables that no lookup tells apart answer every datagram alike, and remain so. -/
theorem SameRelay.onReadyRead (h : SameRelay r r') (fromUtf8 : List UInt8 → String)
    (datagram : List UInt8) (address : QHostAddress) (port : UInt16) :
    (MediaSocketHandler.onReadyRead fromUtf8 r datagram address port).2 =
        (MediaSocketHandler.onReadyRead fromUtf8 r' datagram address port).2 ∧
      SameRelay (MediaSocketHandler.onReadyRead fromUtf8 r datagram address port).1
        (MediaSocketHandler.onReadyRead fromUtf8 r' datagram address port).1 := by
  unfold MediaSocketHandler.onReadyRead
  dsimp only
  cases parse (datagram.take bufferSize) with
  | invalid => exact ⟨rfl, h⟩
  | authenticate token => exact ⟨rfl, h⟩
  | relay =>
    dsimp only
    constructor
    · rw [h.sender]
    · have hfirst := h.lookupSender address port
      exact (hfirst.symm.lookupSender address port).symm
  | recover sender =>
    dsimp only
    constructor
    · rw [h.receiver]
    · have hfirst := h.lookupReceiver sender
      exact (hfirst.symm.lookupReceiver sender).symm

end MediaRecipients

namespace VirtualServer

/-- The datagram looks up an entry that is not there. -/
inductive MissesEntry (s : VirtualServer) : Event → Prop
  | sender {datagram : List UInt8} {address : QHostAddress} {port : UInt16}
    (hparse : parse (datagram.take bufferSize) = .relay)
    (hnone : s.recipients.sender? address port = none) :
    MissesEntry s (.readyRead datagram address port)
  | receiver {datagram : List UInt8} {address : QHostAddress} {port : UInt16} {sender : ℤ}
    (hparse : parse (datagram.take bufferSize) = .recover sender)
    (hnone : s.recipients.clientid2receiver[sender]? = none) :
    MissesEntry s (.readyRead datagram address port)

/-- A datagram that misses an entry changes the table, and nothing that the table is computed from. -/
theorem MissesEntry.step_eq {s : VirtualServer} {e : Event} (h : MissesEntry s e)
    (fromUtf8 : List UInt8 → String) : ∃ recipients out,
      step fromUtf8 s e = some (s.withRecipients recipients, out) ∧ recipients ≠ s.recipients := by
  cases h with
  | @sender datagram address port hparse hnone =>
    refine ⟨s.recipients.insertSender address port {},
      (s.onReadyRead fromUtf8 datagram address port).2, ?_, ?_⟩
    · have hstate := onReadyRead_relay (s := s) fromUtf8 address port hparse
      rw [hnone] at hstate
      exact congrArg some (Prod.ext hstate rfl)
    · intro heq
      have hfound := s.recipients.sender?_insertSender address address port port {}
      rw [heq, hnone, if_pos ⟨rfl, rfl⟩] at hfound
      contradiction
  | @receiver datagram address port sender hparse hnone =>
    refine ⟨s.recipients.insertReceiver sender {},
      (s.onReadyRead fromUtf8 datagram address port).2, ?_, ?_⟩
    · have hstate := onReadyRead_recover (s := s) fromUtf8 address port hparse
      rw [hnone] at hstate
      exact congrArg some (Prod.ext hstate rfl)
    · intro heq
      have hfound := s.recipients.getElem?_insertReceiver sender sender {}
      rw [heq, hnone, if_pos rfl] at hfound
      contradiction

end VirtualServer

end Ts3Video
