import Ts3Video.Media.SenderIsolation
import Ts3Video.Server.Freshness
import Ts3Video.Server.RelayTable
import Ts3Video.Server.WrittenDatagrams

/-!
# Video from client to client

The senders of a conference cut their frames into datagrams, the server relays each datagram to the receivers
of its source, and each receiver puts the frames together again. While the same clients stream to a receiver,
it gets their frames as they were sent, whatever else the server has to do in between.
-/

namespace Ts3Video.VirtualServer

open Std

/-- The clients that stream to a client are these senders, each from its own address and port, as a sibling or
directly, but not both. The table in use is as good as one that is computed now. -/
structure StreamsTo (senders : List Int32) (source : Int32 → QHostAddress × UInt16) (receiver : ℤ)
    (peer : QHostAddress × UInt16) (s : VirtualServer) : Prop where
  relaysFresh : s.RelaysFresh
  distinct : s.DistinctMedia
  bound : ∃ client, s.clients[receiver]? = some client ∧ client.hasMedia = true ∧
    (client.mediaAddress, client.mediaPort) = peer
  streams : ∀ id ∈ senders, id.toInt ≠ receiver ∧
    Xor (receiver ∈ s.getSiblingClientIds id.toInt true)
      (SetMap.Rel s.sender2receiver id.toInt receiver) ∧
    ∃ client, s.clients[id.toInt]? = some client ∧ IsSender client ∧
      (client.mediaAddress, client.mediaPort) = source id
  others : ∀ k client, s.clients[k]? = some client → IsSender client → k ≠ receiver →
    (receiver ∈ s.getSiblingClientIds k true ∨ SetMap.Rel s.sender2receiver k receiver) →
    ∃ id ∈ senders, id.toInt = k

/-- The video datagrams that arrive from an address and port. -/
def videoFrom (source : QHostAddress × UInt16) (events : List Event) : List (List UInt8) :=
  events.filterMap fun
    | .readyRead datagram address port =>
      if (address, port) = source ∧
          MediaSocketHandler.parse (datagram.take MediaSocketHandler.bufferSize) = .relay then
        some (datagram.take MediaSocketHandler.bufferSize)
      else none
    | _ => none

variable {senders : List Int32} {source : Int32 → QHostAddress × UInt16} {receiver : ℤ}
  {peer : QHostAddress × UInt16} {s s' : VirtualServer} {fromUtf8 : List UInt8 → String}
  {datagram : List UInt8} {address : QHostAddress} {port : UInt16}

/-- Datagrams with the sender whose video they are, if they are video of one. -/
abbrev TaggedData := List (Option Int32 × List UInt8)

/-- What the server writes to a receiver: the video of each sender in order, and recovery requests. -/
structure Relayed (senders : List Int32) (source : Int32 → QHostAddress × UInt16) (events : List Event)
    (data : List (List UInt8)) (tagged : TaggedData) : Prop where
  data_eq : data = tagged.map Prod.snd
  other : ∀ entry ∈ tagged, entry.1 = none → ∃ c, MediaSocketHandler.parse entry.2 = .recover c
  video : ∀ id, (tagged.filter fun entry => entry.1 = some id).map Prod.snd =
    if id ∈ senders then videoFrom (source id) events else []

/-- What is relayed in two runs. -/
theorem Relayed.append {first second : List Event} {data more : List (List UInt8)}
    {tagged later : TaggedData} (h : Relayed senders source first data tagged)
    (h' : Relayed senders source second more later) :
    Relayed senders source (first ++ second) (data ++ more) (tagged ++ later) where
  data_eq := by rw [h.data_eq, h'.data_eq, List.map_append]
  other entry hmem := (List.mem_append.mp hmem).elim (h.other entry) (h'.other entry)
  video id := by
    rw [List.filter_append, List.map_append, h.video, h'.video]
    split
    · exact List.filterMap_append.symm
    · rfl

/-- Media traffic and recovery requests change nothing for who streams to whom. -/
theorem StreamsTo.readyRead (h : StreamsTo senders source receiver peer s)
    (hparse : ∀ token, MediaSocketHandler.parse (datagram.take MediaSocketHandler.bufferSize) ≠
      .authenticate token) :
    StreamsTo senders source receiver peer (s.onReadyRead fromUtf8 datagram address port).1 := by
  have hother : ∀ {recipients : MediaRecipients}, recipients.SameRelay s.mediaRecipients →
      StreamsTo senders source receiver peer (s.withRecipients recipients) := fun hsame =>
    ⟨hsame, h.distinct, h.bound, h.streams, h.others⟩
  cases hrequest : MediaSocketHandler.parse (datagram.take MediaSocketHandler.bufferSize) with
  | relay =>
    rw [onReadyRead_relay fromUtf8 address port hrequest]
    exact hother (h.relaysFresh.lookupSender address port)
  | recover c =>
    rw [onReadyRead_recover fromUtf8 address port hrequest]
    exact hother (h.relaysFresh.lookupReceiver c)
  | authenticate token => exact absurd hrequest (hparse token)
  | invalid =>
    simp only [onReadyRead, MediaSocketHandler.onReadyRead, hrequest]
    exact h

/-- Two frames of the first client of a conference. -/
def twoFrames : List VP8Frame :=
  [⟨1, VP8Frame.KEY, some (List.replicate 500 7)⟩, ⟨2, VP8Frame.NORMAL, some [8, 9]⟩]

end Ts3Video.VirtualServer
