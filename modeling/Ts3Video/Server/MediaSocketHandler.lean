import Ts3Video.Library.Table
import Ts3Video.Media.MediaSocket
import Ts3Video.Server.Entities

/-!
# The media socket of the server

The handler relays each video datagram to the receivers that the table of recipients lists for its
sender, and each recovery request to the client that it names. The table is set from outside, but
looking an entry up creates it if it is not there.
-/

namespace Ts3Video

open Std

/-- The datagram type of authentications. -/
def AuthDatagram.TYPE : UInt8 := 0x01

/-- The datagram in which a client sends its token to the server. -/
def AuthDatagram.toBytes (token : List UInt8) : List UInt8 :=
  writeUInt8 Datagram.MAGIC ++ (writeUInt8 AuthDatagram.TYPE ++
    (writeUInt16 (UInt16.ofNat token.length) ++ token))

/-- Where the datagrams for a client go. -/
structure MediaReceiverEntity where
  clientId : ℤ := 0
  address : QHostAddress := QHostAddress.null
  port : UInt16 := 0
deriving DecidableEq

/-- Where the datagrams of a client come from, and who receives them. -/
structure MediaSenderEntity where
  clientId : ℤ := 0
  address : QHostAddress := QHostAddress.null
  port : UInt16 := 0
  receivers : List MediaReceiverEntity := []
deriving DecidableEq

/-- The senders by their address and port, and the receivers by their client id. -/
structure MediaRecipients where
  addr2sender : ExtTreeMap QHostAddress (ExtTreeMap UInt16 MediaSenderEntity) := ∅
  clientid2receiver : ExtTreeMap ℤ MediaReceiverEntity := ∅

namespace MediaRecipients

/-- The sender entry of an address and port, if there is one. -/
def sender? (recips : MediaRecipients) (address : QHostAddress) (port : UInt16) :
    Option MediaSenderEntity :=
  (recips.addr2sender[address]?).bind fun port2sender => port2sender[port]?

/-- Store the sender entry of an address and port. -/
def insertSender (recips : MediaRecipients) (address : QHostAddress) (port : UInt16)
    (sender : MediaSenderEntity) : MediaRecipients :=
  { recips with
    addr2sender := recips.addr2sender.insert address
      (((recips.addr2sender[address]?).getD ∅).insert port sender) }

/-- Store the receiver entry of a client. -/
def insertReceiver (recips : MediaRecipients) (clientId : ℤ) (receiver : MediaReceiverEntity) :
    MediaRecipients :=
  { recips with clientid2receiver := recips.clientid2receiver.insert clientId receiver }

end MediaRecipients

/-- What the handler makes of a datagram. -/
inductive MediaSocketHandler.Output where
  | tokenAuthentication (token : String) (address : QHostAddress) (port : UInt16)
  | writeDatagram (data : List UInt8) (address : QHostAddress) (port : UInt16)
deriving DecidableEq

namespace MediaSocketHandler

/-- The size of the buffer that datagrams are read into. -/
def bufferSize : ℕ := 4096

/-- What a datagram asks for. -/
inductive Request where
  | invalid
  | authenticate (data : List UInt8)
  | relay
  | recover (sender : ℤ)
deriving DecidableEq

/-- Read the fields of a datagram, as far as the handler needs them. -/
def parse (data : List UInt8) : Request :=
  let magic := readUInt8 data
  if magic.1 ≠ Datagram.MAGIC then .invalid
  else
    let type := readUInt8 magic.2
    if type.1 = AuthDatagram.TYPE then
      let size := readUInt16 type.2
      let read := (readRawData size.1.toNat size.2).1
      if read.length ≠ size.1.toNat then .invalid else .authenticate read
    else if type.1 = VideoFrameDatagram.TYPE then .relay
    else if type.1 = VideoFrameRequestRecoveryDatagram.TYPE then .recover (readInt32 type.2).1.toInt
    else .invalid

/-- The loop body of `onReadyRead` for one datagram. Longer datagrams are cut to the buffer. The
decoding of texts is a parameter. -/
def onReadyRead (fromUtf8 : List UInt8 → String) (recips : MediaRecipients)
    (datagram : List UInt8) (senderAddress : QHostAddress) (senderPort : UInt16) :
    MediaRecipients × List Output :=
  let data := datagram.take bufferSize
  match parse data with
  | .invalid => (recips, [])
  | .authenticate token =>
    (recips, [.tokenAuthentication (fromUtf8 token) senderAddress senderPort])
  | .relay =>
    let senderEntity := (recips.sender? senderAddress senderPort).getD {}
    (recips.insertSender senderAddress senderPort senderEntity,
      senderEntity.receivers.map fun receiverEntity =>
        .writeDatagram data receiverEntity.address receiverEntity.port)
  | .recover sender =>
    let receiver := (recips.clientid2receiver[sender]?).getD {}
    (recips.insertReceiver sender receiver,
      if receiver.address.isNull ∨ receiver.port = 0 then []
      else [.writeDatagram data receiver.address receiver.port])

end MediaSocketHandler

namespace MediaRecipients

/-- A stored sender is found, and the other senders stay as they were. -/
theorem sender?_insertSender (recips : MediaRecipients) (address address' : QHostAddress)
    (port port' : UInt16) (sender : MediaSenderEntity) :
    (recips.insertSender address port sender).sender? address' port' =
      if address = address' ∧ port = port' then some sender else recips.sender? address' port' := by
  rw [sender?, insertSender, Table.getElem?_insert]
  by_cases haddress : address = address'
  · subst haddress
    rw [if_pos rfl, Option.bind_some, Table.getElem?_insert]
    by_cases hport : port = port'
    · rw [if_pos hport, if_pos ⟨rfl, hport⟩]
    · rw [if_neg hport, if_neg (fun h => hport h.2), sender?]
      cases recips.addr2sender[address]? with
      | none => exact ExtTreeMap.getElem?_empty
      | some port2sender => rfl
  · rw [if_neg haddress, if_neg (fun h => haddress h.1), sender?]

/-- A stored receiver is found, and the other receivers stay as they were. -/
theorem getElem?_insertReceiver (recips : MediaRecipients) (clientId clientId' : ℤ)
    (receiver : MediaReceiverEntity) :
    (recips.insertReceiver clientId receiver).clientid2receiver[clientId']? =
      if clientId = clientId' then some receiver else recips.clientid2receiver[clientId']? :=
  Table.getElem?_insert recips.clientid2receiver clientId clientId' receiver

/-- Storing the sender entry that is there changes nothing. -/
theorem insertSender_of_sender? {recips : MediaRecipients} {address : QHostAddress} {port : UInt16}
    {sender : MediaSenderEntity} (h : recips.sender? address port = some sender) :
    recips.insertSender address port sender = recips := by
  obtain ⟨port2sender, hports, hsender⟩ := Option.bind_eq_some_iff.mp h
  rw [insertSender, hports, Option.getD_some, Table.insert_eq_self hsender,
    Table.insert_eq_self hports]

/-- Storing the receiver entry that is there changes nothing. -/
theorem insertReceiver_of_getElem? {recips : MediaRecipients} {clientId : ℤ}
    {receiver : MediaReceiverEntity} (h : recips.clientid2receiver[clientId]? = some receiver) :
    recips.insertReceiver clientId receiver = recips := by
  rw [insertReceiver, Table.insert_eq_self h]

/-- Entries of senders with different addresses or ports are stored in any order. -/
theorem insertSender_comm (recips : MediaRecipients) {address address' : QHostAddress}
    {port port' : UInt16} (hne : ¬ (address = address' ∧ port = port'))
    (sender sender' : MediaSenderEntity) :
    (recips.insertSender address port sender).insertSender address' port' sender' =
      (recips.insertSender address' port' sender').insertSender address port sender := by
  simp only [insertSender, Table.getElem?_insert]
  by_cases haddress : address = address'
  · subst haddress
    have hport : port ≠ port' := fun h => hne ⟨rfl, h⟩
    rw [if_pos rfl, if_pos rfl, Option.getD_some, Option.getD_some, Table.insert_insert,
      Table.insert_insert, Table.insert_comm _ hport]
  · rw [if_neg haddress, if_neg fun h => haddress h.symm, Table.insert_comm _ haddress]

/-- Entries of receivers with different ids are stored in any order. -/
theorem insertReceiver_comm (recips : MediaRecipients) {clientId clientId' : ℤ}
    (hne : clientId ≠ clientId') (receiver receiver' : MediaReceiverEntity) :
    (recips.insertReceiver clientId receiver).insertReceiver clientId' receiver' =
      (recips.insertReceiver clientId' receiver').insertReceiver clientId receiver := by
  simp only [insertReceiver, Table.insert_comm _ hne]

/-- The entries of a sender and of a receiver are stored in any order. -/
theorem insertReceiver_insertSender (recips : MediaRecipients) (clientId : ℤ)
    (receiver : MediaReceiverEntity) (address : QHostAddress) (port : UInt16)
    (sender : MediaSenderEntity) :
    (recips.insertReceiver clientId receiver).insertSender address port sender =
      (recips.insertSender address port sender).insertReceiver clientId receiver := rfl

end MediaRecipients

end Ts3Video
