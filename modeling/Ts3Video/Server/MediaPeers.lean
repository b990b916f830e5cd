import Ts3Video.Server.Forwarding
import Ts3Video.Server.HeldTable
import Ts3Video.Server.MediaBindings

/-!
# Who makes the media socket send

Video datagrams are looked up by their source, so they are forwarded only for clients that are there and
have sent their token from it. Recovery requests are looked up by the client that they name, and are
forwarded wherever they come from.
-/

namespace Ts3Video.VirtualServer

open Std

/-- The media address of a client that is there and logged in. -/
def HasMediaAt (s : VirtualServer) (c : ℤ) (address : QHostAddress) (port : UInt16) : Prop :=
  ∃ client, s.clients[c]? = some client ∧ client.authenticated = true ∧ client.hasMedia = true ∧
    client.mediaAddress = address ∧ client.mediaPort = port

/-- The media address of a client that is there and has sent its token from it. -/
def IsMediaPeer (fromUtf8 : List UInt8 → String) (before : List (VirtualServer × Event))
    (s : VirtualServer) (address : QHostAddress) (port : UInt16) : Prop :=
  ∃ c, s.HasMediaAt c address port ∧ BoundAt fromUtf8 before c address port

/-- The server forwards the datagram to somebody. -/
def Forwards (fromUtf8 : List UInt8 → String) (s : VirtualServer) (datagram : List UInt8)
    (address : QHostAddress) (port : UInt16) : Prop :=
  ∃ data receiverAddress receiverPort, Effect.writeDatagram data receiverAddress receiverPort ∈
    (s.onReadyRead fromUtf8 datagram address port).2

/-- The datagram asks a client that sends to recover, and comes from an address that no client has. -/
def RecoversFromOutside (s : VirtualServer) (datagram : List UInt8) (address : QHostAddress)
    (port : UInt16) : Prop :=
  ∃ (sender : ℤ) (client : ServerClientEntity),
    MediaSocketHandler.parse (datagram.take MediaSocketHandler.bufferSize) = .recover sender ∧
      s.clients[sender]? = some client ∧ IsSender client ∧ ∀ c, ¬ s.HasMediaAt c address port

variable {fromUtf8 : List UInt8 → String} {s : VirtualServer} {out : List Effect}

/-- The server writes the datagrams that the media socket puts out. -/
theorem writeDatagram_mem_onReadyRead {datagram data : List UInt8}
    {address receiverAddress : QHostAddress} {port receiverPort : UInt16} :
    .writeDatagram data receiverAddress receiverPort ∈
        (s.onReadyRead fromUtf8 datagram address port).2 ↔
      .writeDatagram data receiverAddress receiverPort ∈
        (MediaSocketHandler.onReadyRead fromUtf8 s.recipients datagram address port).2 := by
  have hauthentication : ∀ (t : VirtualServer) (token : String) (address : QHostAddress)
      (port : UInt16), Effect.writeDatagram data receiverAddress receiverPort ∉
        (t.onMediaSocketTokenAuthentication token address port).2 := by
    intro t token address port
    rcases onMediaSocketTokenAuthentication_effects t token address port with hnone | ⟨c, hone⟩
    · simp [hnone]
    · simp [hone, sendMediaAuthSuccessNotify]
  have hfold : ∀ (outputs : List MediaSocketHandler.Output) (done : ActionResult),
      Effect.writeDatagram data receiverAddress receiverPort ∈
          (outputs.foldl onMediaSocketOutput done).2 ↔
        Effect.writeDatagram data receiverAddress receiverPort ∈ done.2 ∨
          MediaSocketHandler.Output.writeDatagram data receiverAddress receiverPort ∈ outputs := by
    intro outputs
    induction outputs with
    | nil => simp
    | cons output outputs ih =>
      intro done
      rw [List.foldl_cons, ih, List.mem_cons, ← or_assoc]
      apply or_congr_left
      cases output with
      | tokenAuthentication token address port =>
        simp [onMediaSocketOutput, hauthentication]
      | writeDatagram data' address port =>
        simp [onMediaSocketOutput]
  rw [onReadyRead, hfold]
  simp

/-- A video datagram is forwarded only if a client sends from its source. -/
theorem HeldTable.sender_of_forwards (h : s.HeldTable) {datagram : List UInt8}
    {address : QHostAddress} {port : UInt16}
    (hparse : MediaSocketHandler.parse (datagram.take MediaSocketHandler.bufferSize) = .relay)
    (hforwards : s.Forwards fromUtf8 datagram address port) :
    ∃ (k : ℤ) (client : ServerClientEntity), s.clients[k]? = some client ∧ IsSender client ∧
      client.mediaAddress = address ∧ client.mediaPort = port := by
  obtain ⟨data, receiverAddress, receiverPort, hmem⟩ := hforwards
  obtain ⟨entry, hentry, receiver, hreceiver, -⟩ :=
    (MediaSocketHandler.mem_onReadyRead_relay fromUtf8 hparse).mp (writeDatagram_mem_onReadyRead.mp hmem)
  apply isSome_sender?_mediaRecipients.mp (h.sender address port _)
  rw [hentry]
  exact List.ne_nil_of_mem hreceiver

/-- A recovery request is forwarded exactly if it names a client that sends. -/
theorem HeldTable.forwards_recover_iff (h : s.HeldTable) (hkeyed : s.Keyed) {datagram : List UInt8}
    {sender : ℤ} (address : QHostAddress) (port : UInt16)
    (hparse : MediaSocketHandler.parse (datagram.take MediaSocketHandler.bufferSize) =
      .recover sender) :
    s.Forwards fromUtf8 datagram address port ↔
      ∃ client, s.clients[sender]? = some client ∧ IsSender client := by
  simp only [Forwards, writeDatagram_mem_onReadyRead, MediaSocketHandler.onReadyRead, hparse,
    h.receiver]
  constructor
  · rintro ⟨data, receiverAddress, receiverPort, hmem⟩
    cases hreceiver : s.mediaRecipients.clientid2receiver[sender]? with
    | none =>
      rw [hreceiver, Option.getD_none, if_pos (.inl (by decide))] at hmem
      contradiction
    | some receiver =>
      obtain ⟨client, hclient, hsender, -⟩ := (getElem?_mediaRecipients hkeyed).mp hreceiver
      exact ⟨client, hclient, hsender⟩
  · rintro ⟨client, hclient, hsender⟩
    have hmedia : ¬(client.toReceiver.address.isNull = true ∨ client.toReceiver.port = 0) := by
      have hmedia := hsender.1
      rw [ServerClientEntity.hasMedia, decide_eq_true_eq] at hmedia
      rintro (hnull | hzero)
      · exact hmedia (.inl hnull)
      · exact hmedia (.inr (UInt16.le_of_eq hzero))
    rw [(getElem?_mediaRecipients hkeyed).mpr ⟨client, hclient, hsender, rfl⟩, Option.getD_some,
      if_neg hmedia]
    exact ⟨_, _, _, List.mem_singleton_self _⟩

/-- A request to the first client for a frame that can be decoded on its own. -/
def recoveryRequest : List UInt8 :=
  writeUInt8 Datagram.MAGIC ++ writeUInt8 VideoFrameRequestRecoveryDatagram.TYPE ++ writeInt32 1 ++
    writeUInt64 1 ++ writeUInt16 0

/-- Somebody who is not connected has a request delivered to the first client of a conference. -/
theorem forwarded_recoveryRequest : ∃ s out,
    Runs.run (step QString.fromLatin1) (init {} ∅) conference = some (s, out) ∧
      s.Forwards QString.fromLatin1 recoveryRequest "203.0.113.9" 4000 ∧
      ¬ IsMediaPeer QString.fromLatin1
        (Runs.visited (step QString.fromLatin1) (init {} ∅) conference) s "203.0.113.9" 4000 := by
  have hfacts : (Runs.run (step QString.fromLatin1) (init {} ∅) conference).map (fun done =>
      (decide (.writeDatagram recoveryRequest "192.0.2.1" 5001 ∈
          (MediaSocketHandler.onReadyRead QString.fromLatin1 done.1.recipients recoveryRequest
            "203.0.113.9" 4000).2),
        done.1.clients.toList.map fun entry => entry.2.mediaAddress)) =
      some (true, ["192.0.2.1", "192.0.2.2"]) := by decide +kernel
  obtain ⟨⟨s, out⟩, hrun, hfacts⟩ := Option.map_eq_some_iff.mp hfacts
  obtain ⟨hwritten, haddresses⟩ := Prod.mk.inj hfacts
  refine ⟨s, out, hrun, ⟨recoveryRequest, "192.0.2.1", 5001,
    writeDatagram_mem_onReadyRead.mpr (of_decide_eq_true hwritten)⟩, ?_⟩
  rintro ⟨c, ⟨client, hclient, -, -, haddress, -⟩, -⟩
  have hmem : client.mediaAddress ∈ s.clients.toList.map fun entry => entry.2.mediaAddress :=
    List.mem_map.mpr ⟨(c, client), ExtTreeMap.mem_toList_iff_getElem?_eq_some.mpr hclient, rfl⟩
  rw [haddresses, haddress] at hmem
  exact absurd hmem (by decide)

/-- In every run, what the server forwards comes from the media address of a client that is there and
has sent its token from it, unless the datagram asks a client that sends to recover and comes from an
address that no client has. -/
theorem forwardedForPeers_iff {opts : VirtualServerOptions} {bans : ExtTreeSet String}
    {events : List Event} (hrun : Runs.run (step fromUtf8) (init opts bans) events = some (s, out))
    (datagram : List UInt8) (address : QHostAddress) (port : UInt16) :
    (s.Forwards fromUtf8 datagram address port →
      IsMediaPeer fromUtf8 (Runs.visited (step fromUtf8) (init opts bans) events) s address port) ↔
    ¬ s.RecoversFromOutside datagram address port := by
  obtain ⟨hkeyed, hauth, hheld⟩ := heldTable_reachable ⟨events, out, hrun⟩
  have hbound := mediaBound_run hrun
  have hpeer : ∀ {c : ℤ}, s.HasMediaAt c address port →
      IsMediaPeer fromUtf8 (Runs.visited (step fromUtf8) (init opts bans) events) s address port := by
    rintro c ⟨client, hclient, hlogin, hmedia, rfl, rfl⟩
    refine ⟨c, ⟨client, hclient, hlogin, hmedia, rfl, rfl⟩, hbound c client hclient ?_⟩
    intro hnull
    simp [ServerClientEntity.hasMedia, hnull, QHostAddress.isNull] at hmedia
  constructor
  · rintro h ⟨sender, client, hparse, hclient, hsender, houtside⟩
    obtain ⟨c, hc, -⟩ :=
      h ((hheld.forwards_recover_iff hkeyed address port hparse).mpr ⟨client, hclient, hsender⟩)
    exact houtside c hc
  · intro h hforwards
    cases hparse : MediaSocketHandler.parse (datagram.take MediaSocketHandler.bufferSize) with
    | invalid =>
      obtain ⟨_, _, _, hmem⟩ := hforwards
      simp [writeDatagram_mem_onReadyRead, MediaSocketHandler.onReadyRead, hparse] at hmem
    | authenticate data =>
      obtain ⟨_, _, _, hmem⟩ := hforwards
      simp [writeDatagram_mem_onReadyRead, MediaSocketHandler.onReadyRead, hparse] at hmem
    | relay =>
      obtain ⟨k, client, hclient, hsender, haddress, hport⟩ :=
        hheld.sender_of_forwards hparse hforwards
      have hlogin : client.authenticated = true := by
        apply (hauth.client hclient).1
        rcases isSending_iff.mp hsender.2 with hvideo | haudio
        · exact .inl hvideo
        · exact .inr (.inl haudio)
      exact hpeer ⟨client, hclient, hlogin, hsender.1, haddress, hport⟩
    | recover sender =>
      obtain ⟨client, hclient, hsender⟩ :=
        (hheld.forwards_recover_iff hkeyed address port hparse).mp hforwards
      by_contra hnot
      exact h ⟨sender, client, hparse, hclient, hsender, fun c hc => hnot (hpeer hc)⟩

/-- What the second client of the conference asks for is forwarded, and it has sent its token. -/
theorem forwardedForPeers_iff_conference : ∃ s out,
    Runs.run (step QString.fromLatin1) (init {} ∅) conference = some (s, out) ∧
      s.Forwards QString.fromLatin1 recoveryRequest "192.0.2.2" 5002 ∧
      IsMediaPeer QString.fromLatin1
        (Runs.visited (step QString.fromLatin1) (init {} ∅) conference) s "192.0.2.2" 5002 := by
  have hfacts : (Runs.run (step QString.fromLatin1) (init {} ∅) conference).map (fun done =>
      (decide (.writeDatagram recoveryRequest "192.0.2.1" 5001 ∈
          (MediaSocketHandler.onReadyRead QString.fromLatin1 done.1.recipients recoveryRequest
            "192.0.2.2" 5002).2),
        (done.1.clients[(2 : ℤ)]?).map fun client => (client.authenticated, client.hasMedia,
          client.mediaAddress, client.mediaPort))) =
      some (true, some (true, true, "192.0.2.2", 5002)) := by decide +kernel
  obtain ⟨⟨s, out⟩, hrun, hfacts⟩ := Option.map_eq_some_iff.mp hfacts
  obtain ⟨hwritten, hfields⟩ := Prod.mk.inj hfacts
  obtain ⟨client, hclient, hfields⟩ := Option.map_eq_some_iff.mp hfields
  simp only [Prod.mk.injEq] at hfields
  have hforwards : s.Forwards QString.fromLatin1 recoveryRequest "192.0.2.2" 5002 :=
    ⟨recoveryRequest, "192.0.2.1", 5001,
      writeDatagram_mem_onReadyRead.mpr (of_decide_eq_true hwritten)⟩
  refine ⟨s, out, hrun, hforwards, (forwardedForPeers_iff hrun _ _ _).mpr ?_ hforwards⟩
  rintro ⟨_, _, -, -, -, houtside⟩
  exact houtside 2 ⟨client, hclient, hfields⟩

end Ts3Video.VirtualServer
