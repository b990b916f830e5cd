import Ts3Video.Server.TraversalOrder

/-!
# When the relay table is exact

The computed table relays the media of a client to its visible siblings and its direct receivers. A
client that is both is listed twice, and gets every datagram twice.
-/

namespace Ts3Video.VirtualServer

open Std

/-- No two clients with media share an address and port. -/
def DistinctMedia (s : VirtualServer) : Prop :=
  ∀ (k k' : ℤ) (client client' : ServerClientEntity), s.clients[k]? = some client →
    s.clients[k']? = some client' → client.hasMedia = true → client'.hasMedia = true →
    client.mediaAddress = client'.mediaAddress → client.mediaPort = client'.mediaPort → k = k'

/-- The table has the entries of the clients that send, lists every receiver of an entry once and
nobody else, and writes each datagram of a sender at most once to each receiver. -/
structure RelayExact (s : VirtualServer) : Prop where
  sender : ∀ address port, (s.mediaRecipients.sender? address port).isSome ↔
    ∃ (k : ℤ) (client : ServerClientEntity), s.clients[k]? = some client ∧
      client.hasMedia = true ∧ client.mediaAddress = address ∧ client.mediaPort = port ∧
      (client.videoEnabled = true ∨ client.audioInputEnabled = true)
  receivers : ∀ (k : ℤ) (client : ServerClientEntity) (entry : MediaSenderEntity),
    s.clients[k]? = some client → client.hasMedia = true →
    s.mediaRecipients.sender? client.mediaAddress client.mediaPort = some entry →
    entry.receivers.Nodup ∧ ∀ receiver, receiver ∈ entry.receivers ↔
      ∃ (r : ℤ) (other : ServerClientEntity), s.clients[r]? = some other ∧ r ≠ k ∧
        other.hasMedia = true ∧ (r ∈ s.getSiblingClientIds k true ∨ SetMap.Rel s.sender2receiver k r) ∧
        other.toReceiver = receiver
  once : ∀ fromUtf8 datagram address port,
    MediaSocketHandler.parse (datagram.take MediaSocketHandler.bufferSize) = .relay →
    (MediaSocketHandler.onReadyRead fromUtf8 s.mediaRecipients datagram address port).2.Nodup

/-- No client that sends shares a channel with a direct receiver of it that has media and that it
may see. -/
def NoOverlap (s : VirtualServer) : Prop :=
  ∀ (k r ch : ℤ) (client other : ServerClientEntity), s.clients[k]? = some client →
    IsSender client → s.clients[r]? = some other → r ≠ k → other.hasMedia = true →
    client.isAllowedToSee other = true → SetMap.Rel s.client2channels k ch →
    SetMap.Rel s.participants ch r → ¬ SetMap.Rel s.sender2receiver k r

/-- A client that sends does so by video or audio. -/
theorem isSending_iff {client : ServerClientEntity} :
    client.isSending = true ↔ client.videoEnabled = true ∨ client.audioInputEnabled = true := by
  rw [ServerClientEntity.isSending]
  cases client.videoEnabled with
  | true => simp
  | false => simp

/-- Whether addresses are distinct can be checked by going through the clients. -/
instance (s : VirtualServer) : Decidable s.DistinctMedia :=
  decidable_of_iff _ (Table.forall_pairs_iff (m := s.clients) (P := fun entry entry' =>
    entry.2.hasMedia = true → entry'.2.hasMedia = true →
      entry.2.mediaAddress = entry'.2.mediaAddress → entry.2.mediaPort = entry'.2.mediaPort →
      entry.1 = entry'.1)).symm

variable {s : VirtualServer}

/-- If no clients with media share an address, then no clients that send do. -/
theorem DistinctMedia.senders (h : s.DistinctMedia) : s.DistinctSenders :=
  fun k k' client client' hclient hclient' hsender hsender' =>
    h k k' client client' hclient hclient' hsender.1 hsender'.1

/-- With distinct addresses, an entry of the table is that of the client with this address. -/
theorem sender?_mediaRecipients (hdistinct : s.DistinctSenders) {k : ℤ}
    {client : ServerClientEntity} (hclient : s.clients[k]? = some client) (hsender : IsSender client) :
    s.mediaRecipients.sender? client.mediaAddress client.mediaPort = some (s.toSender client) := by
  obtain ⟨entry, hentry⟩ := Option.isSome_iff_exists.mp
    (isSome_sender?_mediaRecipients.mpr ⟨k, client, hclient, hsender, rfl, rfl⟩)
  obtain ⟨k', client', hclient', hsender', haddress, hport, rfl⟩ := of_sender?_mediaRecipients hentry
  obtain rfl := hdistinct k' k client' client hclient' hclient hsender' hsender haddress hport
  rw [hentry, Option.some.inj (hclient'.symm.trans hclient)]

/-- The receivers of a client are the other clients with media that it relays to. -/
theorem mem_receivers_iff (hkeyed : s.Keyed) {k : ℤ} {client : ServerClientEntity}
    (hclient : s.clients[k]? = some client) {receiver : MediaReceiverEntity} :
    receiver ∈ (s.toSender client).receivers ↔
      ∃ (r : ℤ) (other : ServerClientEntity), s.clients[r]? = some other ∧ r ≠ k ∧
        other.hasMedia = true ∧ (r ∈ s.getSiblingClientIds k true ∨ SetMap.Rel s.sender2receiver k r) ∧
        other.toReceiver = receiver := by
  rw [mem_receivers, hkeyed.client hclient]
  constructor
  · rintro ⟨r, hrelays, hreceiver⟩
    obtain ⟨other, hother, hmedia, hne, rfl⟩ := receiverFor_eq_some.mp hreceiver
    rw [hkeyed.client hother, hkeyed.client hclient] at hne
    exact ⟨r, other, hother, hne, hmedia, hrelays, rfl⟩
  · rintro ⟨r, other, hother, hne, hmedia, hrelays, rfl⟩
    refine ⟨r, hrelays, receiverFor_eq_some.mpr ⟨other, hother, hmedia, ?_, rfl⟩⟩
    rw [hkeyed.client hother, hkeyed.client hclient]
    exact hne

/-- Without overlap, the receivers of a client that sends are listed once. -/
theorem NoOverlap.nodup_receivers (hkeyed : s.Keyed) (h : s.NoOverlap) {k : ℤ}
    {client : ServerClientEntity} (hclient : s.clients[k]? = some client) (hsender : IsSender client) :
    (s.toSender client).receivers.Nodup := by
  rw [nodup_receivers_iff hkeyed]
  intro r hr
  obtain ⟨receiver, hreceiver⟩ := Option.isSome_iff_exists.mp hr
  obtain ⟨other, hother, hmedia, hne, -⟩ := receiverFor_eq_some.mp hreceiver
  rw [hkeyed.client hother, hkeyed.client hclient] at hne
  rw [hkeyed.client hclient, mem_getSiblingClientIds_iff hclient hother]
  rintro ⟨⟨⟨ch, hjoined, hmember⟩, hvisible⟩, hrelation⟩
  exact h k r ch client other hclient hsender hother hne hmedia hvisible hjoined hmember hrelation

/-- Two receivers of a client have different addresses. -/
theorem receivers_address_injective (hkeyed : s.Keyed) (hdistinct : s.DistinctMedia) {k : ℤ}
    {client : ServerClientEntity} (hclient : s.clients[k]? = some client)
    {receiver receiver' : MediaReceiverEntity}
    (h : receiver ∈ (s.toSender client).receivers) (h' : receiver' ∈ (s.toSender client).receivers)
    (haddress : receiver.address = receiver'.address) (hport : receiver.port = receiver'.port) :
    receiver = receiver' := by
  obtain ⟨r, other, hother, -, hmedia, -, rfl⟩ := (mem_receivers_iff hkeyed hclient).mp h
  obtain ⟨r', other', hother', -, hmedia', -, rfl⟩ := (mem_receivers_iff hkeyed hclient).mp h'
  obtain rfl := hdistinct r r' other other' hother hother' hmedia hmedia' haddress hport
  rw [Option.some.inj (hother.symm.trans hother')]

/-- Without overlap, a datagram is written at most once to each address. -/
theorem NoOverlap.nodup_writes (hkeyed : s.Keyed) (hdistinct : s.DistinctMedia) (h : s.NoOverlap)
    (fromUtf8 : List UInt8 → String) {datagram : List UInt8} (address : QHostAddress) (port : UInt16)
    (hparse : MediaSocketHandler.parse (datagram.take MediaSocketHandler.bufferSize) = .relay) :
    (MediaSocketHandler.onReadyRead fromUtf8 s.mediaRecipients datagram address port).2.Nodup := by
  simp only [MediaSocketHandler.onReadyRead, hparse]
  cases hentry : s.mediaRecipients.sender? address port with
  | none => exact List.nodup_nil
  | some entry =>
    obtain ⟨k, client, hclient, hsender, -, -, rfl⟩ :=
      of_sender?_mediaRecipients hentry
    rw [Option.getD_some]
    apply (h.nodup_receivers hkeyed hclient hsender).map_on
    intro receiver hreceiver receiver' hreceiver' heq
    simp only [MediaSocketHandler.Output.writeDatagram.injEq, true_and] at heq
    exact receivers_address_injective hkeyed hdistinct hclient hreceiver hreceiver' heq.1 heq.2

/-- Two clients with media in one channel, and the first one sends video. -/
def conference : List Event :=
  Event.logIn 1 "alice" "10:00" ++ Event.logIn 2 "bob" "10:01" ++
    [.sendAuthToken "1-10:00" "192.0.2.1" 5001, .sendAuthToken "2-10:01" "192.0.2.2" 5002,
      .request 1 .JoinChannelAction [("identifier", .string "lobby")],
      .request 2 .JoinChannelAction [("identifier", .string "lobby")],
      .request 1 .EnableVideoAction [("width", .ofInt 640), ("height", .ofInt 480)]]

/-- The first one becomes an administrator and streams to the second one directly, too. -/
def conferenceWithRelation : List Event :=
  conference ++ [.request 1 .AdminAuthAction [("password", .string "secret")],
    .request 1 .AddDirectStreamingRelationAction
      [("senderid", .ofInt 1), ("receiverid", .ofInt 2)]]

/-- Then the second one is listed twice. -/
theorem relayExact_conferenceWithRelation : ∃ s,
    Runs.Reachable (step QString.fromLatin1) (init { adminPassword := "secret" } ∅) s ∧
      s.DistinctMedia ∧ ¬ s.RelayExact := by
  have hfacts : (Runs.run (step QString.fromLatin1) (init { adminPassword := "secret" } ∅)
      conferenceWithRelation).map (fun done => (decide done.1.DistinctMedia,
        (done.1.clients[(1 : ℤ)]?).map fun client => (client.hasMedia,
          (done.1.mediaRecipients.sender? client.mediaAddress client.mediaPort).map fun entry =>
            decide entry.receivers.Nodup))) = some (true, some (true, some false)) := by
    decide +kernel
  obtain ⟨⟨s, out⟩, hrun, hfacts⟩ := Option.map_eq_some_iff.mp hfacts
  simp only [Prod.mk.injEq, Option.map_eq_some_iff, decide_eq_true_eq, decide_eq_false_iff_not]
    at hfacts
  obtain ⟨hdistinct, client, hclient, hmedia, entry, hentry, htwice⟩ := hfacts
  refine ⟨s, ⟨conferenceWithRelation, out, hrun⟩, hdistinct, fun h => ?_⟩
  exact htwice (h.receivers 1 client entry hclient hmedia hentry).1

/-- In every reachable state with distinct media addresses, the computed table is exact if and only
if no client that sends shares a channel with a direct receiver of it that has media and that it may
see. -/
theorem relayExact_iff {fromUtf8 : List UInt8 → String} {opts : VirtualServerOptions}
    {bans : ExtTreeSet String} (hreach : Runs.Reachable (step fromUtf8) (init opts bans) s)
    (hdistinct : s.DistinctMedia) : s.RelayExact ↔ s.NoOverlap := by
  have hkeyed := keyed_of_reachable hreach
  constructor
  · intro h k r ch client other hclient hsender hother hne hmedia hvisible hjoined hmember hrelation
    have hentry := sender?_mediaRecipients hdistinct.senders hclient hsender
    have hnodup := (h.receivers k client _ hclient hsender.1 hentry).1
    have hreceiver : (s.receiverFor client r).isSome := by
      rw [Option.isSome_iff_exists]
      refine ⟨other.toReceiver, receiverFor_eq_some.mpr ⟨other, hother, hmedia, ?_, rfl⟩⟩
      rw [hkeyed.client hother, hkeyed.client hclient]
      exact hne
    apply (nodup_receivers_iff hkeyed).mp hnodup r hreceiver
    rw [hkeyed.client hclient, mem_getSiblingClientIds_iff hclient hother]
    exact ⟨⟨⟨ch, hjoined, hmember⟩, hvisible⟩, hrelation⟩
  · intro h
    constructor
    · intro address port
      rw [Option.isSome_iff_exists]
      constructor
      · rintro ⟨entry, hentry⟩
        obtain ⟨k, client, hclient, hsender, haddress, hport, -⟩ :=
          of_sender?_mediaRecipients hentry
        exact ⟨k, client, hclient, hsender.1, haddress, hport, isSending_iff.mp hsender.2⟩
      · rintro ⟨k, client, hclient, hmedia, rfl, rfl, hsending⟩
        exact ⟨_, sender?_mediaRecipients hdistinct.senders hclient ⟨hmedia, isSending_iff.mpr hsending⟩⟩
    · intro k client entry hclient hmedia hentry
      obtain ⟨k', client', hclient', hsender, haddress, hport, rfl⟩ :=
        of_sender?_mediaRecipients hentry
      obtain rfl := hdistinct k' k client' client hclient' hclient hsender.1 hmedia haddress hport
      obtain rfl := Option.some.inj (hclient'.symm.trans hclient)
      exact ⟨h.nodup_receivers hkeyed hclient hsender, fun receiver =>
        mem_receivers_iff hkeyed hclient⟩
    · intro fromUtf8 datagram address port hparse
      exact h.nodup_writes hkeyed hdistinct fromUtf8 address port hparse

/-- Without the direct relation, the table is exact. -/
theorem relayExact_iff_conference : ∃ s,
    Runs.Reachable (step QString.fromLatin1) (init {} ∅) s ∧ s.RelayExact := by
  have hfacts : (Runs.run (step QString.fromLatin1) (init {} ∅) conference).map (fun done =>
      (decide done.1.DistinctMedia, decide (done.1.sender2receiver = ∅))) = some (true, true) := by
    decide +kernel
  obtain ⟨⟨s, out⟩, hrun, hfacts⟩ := Option.map_eq_some_iff.mp hfacts
  simp only [Prod.mk.injEq, decide_eq_true_eq] at hfacts
  obtain ⟨hdistinct, hrelations⟩ := hfacts
  have hreach : Runs.Reachable (step QString.fromLatin1) (init {} ∅) s := ⟨conference, out, hrun⟩
  refine ⟨s, hreach, (relayExact_iff hreach hdistinct).mpr ?_⟩
  intro k r ch client other _ _ _ _ _ _ _ _
  rw [hrelations]
  exact SetMap.not_rel_empty k r

end Ts3Video.VirtualServer
