import Ts3Video.Server.Recipients

/-!
# What the table of recipients depends on

The table takes the media fields of the clients with media, the memberships, the direct relations
and the visibility between members of the same channel. States that agree on these have the same
table.
-/

namespace Ts3Video.VirtualServer

open Std

/-- What the table takes from the record of a client. -/
def mediaRecord (client : ServerClientEntity) : Option (ℤ × QHostAddress × UInt16 × Bool) :=
  if client.hasMedia then some (client.id, client.mediaAddress, client.mediaPort, client.isSending)
  else none

/-- The states agree on what the table of recipients depends on. -/
structure SameMediaView (s s' : VirtualServer) : Prop where
  participants : s'.participants = s.participants
  client2channels : s'.client2channels = s.client2channels
  sender2receiver : s'.sender2receiver = s.sender2receiver
  record : ∀ k : ℤ, (s'.clients[k]?).bind mediaRecord = (s.clients[k]?).bind mediaRecord
  visible : ∀ {k r ch : ℤ} {sender other : ServerClientEntity}, s.clients[k]? = some sender →
    IsSender sender → s.clients[r]? = some other → other.hasMedia = true → r ≠ k →
    SetMap.Rel s.client2channels k ch → SetMap.Rel s.participants ch r →
    s'.isVisible k r = s.isVisible k r

/-- The entries that a client contributes to the table. -/
def senderEntry (s : VirtualServer) (client : ServerClientEntity) :
    Option (MediaSenderEntity × MediaReceiverEntity) :=
  if IsSender client then some (s.toSender client, client.toReceiver) else none

/-- Add the entries of a client. -/
def addEntry (recips : MediaRecipients) (entry : MediaSenderEntity × MediaReceiverEntity) :
    MediaRecipients :=
  (recips.insertSender entry.1.address entry.1.port entry.1).insertReceiver entry.2.clientId entry.2

/-- The loop body adds the entries that a client contributes. -/
theorem addRecipient_eq (s : VirtualServer) (recips : MediaRecipients)
    (client : ServerClientEntity) :
    s.addRecipient recips client = ((s.senderEntry client).map (addEntry recips)).getD recips := by
  unfold addRecipient senderEntry
  split
  next hmedia =>
    rw [if_neg (fun h => hmedia h.1)]
    rfl
  next hmedia =>
    split
    next hsending =>
      rw [if_neg (fun h => hsending h.2)]
      rfl
    next hsending =>
      rw [if_pos ⟨by simpa using hmedia, by simpa using hsending⟩]
      rfl

/-- Only clients with media have a record. -/
theorem mediaRecord_eq_none {client : ServerClientEntity} (h : mediaRecord client = none) :
    client.hasMedia = false := by
  unfold mediaRecord at h
  split at h
  · contradiction
  next hmedia => exact Bool.eq_false_iff.mpr hmedia

/-- Records with the same media fields are equal in them. -/
theorem mediaRecord_eq {client client' : ServerClientEntity} (hmedia : client.hasMedia = true)
    (h : mediaRecord client' = mediaRecord client) :
    client'.hasMedia = true ∧ client'.id = client.id ∧ client'.mediaAddress = client.mediaAddress ∧
      client'.mediaPort = client.mediaPort ∧ client'.isSending = client.isSending := by
  rw [mediaRecord, mediaRecord, if_pos hmedia] at h
  split at h
  next hmedia' =>
    simp only [Option.some.injEq, Prod.mk.injEq] at h
    exact ⟨hmedia', h⟩
  next => contradiction

variable {s s' : VirtualServer}

/-- A receiver entry depends only on the record of the receiver and the id of the sender. -/
theorem receiverFor_congr {r : ℤ}
    (hrecord : (s'.clients[r]?).bind mediaRecord = (s.clients[r]?).bind mediaRecord)
    {client client' : ServerClientEntity} (hid : client'.id = client.id) :
    s'.receiverFor client' r = s.receiverFor client r := by
  unfold receiverFor
  cases hother : s.clients[r]? with
  | none =>
    cases hother' : s'.clients[r]? with
    | none => rfl
    | some other' =>
      rw [hother, hother'] at hrecord
      simp [mediaRecord_eq_none hrecord]
  | some other =>
    cases hother' : s'.clients[r]? with
    | none =>
      rw [hother, hother'] at hrecord
      simp [mediaRecord_eq_none hrecord.symm]
    | some other' =>
      rw [hother, hother', Option.bind_some, Option.bind_some] at hrecord
      cases hmedia : other.hasMedia with
      | false =>
        rw [mediaRecord, mediaRecord, hmedia] at hrecord
        simp only [Bool.false_eq_true, if_false, ite_eq_right_iff, reduceCtorEq, imp_false] at hrecord
        simp [hmedia, hrecord]
      | true =>
        obtain ⟨hmedia', hid', haddress, hport, -⟩ := mediaRecord_eq hmedia hrecord
        simp only [hmedia, hmedia', hid, hid', ServerClientEntity.toReceiver, haddress, hport]

/-- The sender entry of a client depends only on what the table depends on. -/
theorem SameMediaView.toSender (h : SameMediaView s s') (hkeyed : s.Keyed) {k : ℤ}
    {client client' : ServerClientEntity} (hclient : s.clients[k]? = some client)
    (hsender : IsSender client) (hrecord : mediaRecord client' = mediaRecord client) :
    s'.toSender client' = s.toSender client := by
  obtain ⟨-, hid, haddress, hport, -⟩ := mediaRecord_eq hsender.1 hrecord
  have hk := hkeyed.client hclient
  have hsiblings : (s'.getSiblingClientIds client'.id true).filterMap (s'.receiverFor client') =
      (s.getSiblingClientIds client.id true).filterMap (s.receiverFor client) := by
    apply SetMap.filterMap_toList_congr
    intro r receiver
    rw [receiverFor_congr (h.record r) hid, ← ExtTreeSet.mem_toList, ← ExtTreeSet.mem_toList]
    apply and_congr_left
    intro hreceiver
    obtain ⟨other, hother, hmedia, hne, -⟩ := receiverFor_eq_some.mp hreceiver
    have hrk : r ≠ k := by
      rintro rfl
      exact hne (congrArg (·.id) (Option.some.inj (hother.symm.trans hclient)))
    change r ∈ s'.getSiblingClientIds client'.id true ↔ r ∈ s.getSiblingClientIds client.id true
    rw [mem_getSiblingClientIds, mem_getSiblingClientIds, hid, hk, h.client2channels,
      h.participants]
    apply and_congr_right
    rintro ⟨ch, hjoined, hmember⟩
    rw [h.visible hclient hsender hother hmedia hrk hjoined hmember]
  have hdirect : (SetMap.value s'.sender2receiver client'.id).toList.filterMap
      (s'.receiverFor client') =
        (SetMap.value s.sender2receiver client.id).toList.filterMap (s.receiverFor client) := by
    rw [h.sender2receiver, hid]
    congr 1
    funext r
    exact receiverFor_congr (h.record r) hid
  rw [VirtualServer.toSender, VirtualServer.toSender, hsiblings, hdirect, hid, haddress, hport]

/-- States that agree on what the table depends on have the same table. -/
theorem SameMediaView.mediaRecipients (h : SameMediaView s s') (hkeyed : s.Keyed) :
    s'.mediaRecipients = s.mediaRecipients := by
  simp only [VirtualServer.mediaRecipients, addRecipient_eq]
  apply Table.foldl_toList_congr
  intro k
  have hrecord := h.record k
  cases hclient : s.clients[k]? with
  | none =>
    cases hclient' : s'.clients[k]? with
    | none => rfl
    | some client' =>
      rw [hclient, hclient'] at hrecord
      simp [senderEntry, IsSender, mediaRecord_eq_none hrecord]
  | some client =>
    cases hclient' : s'.clients[k]? with
    | none =>
      rw [hclient, hclient'] at hrecord
      simp [senderEntry, IsSender, mediaRecord_eq_none hrecord.symm]
    | some client' =>
      rw [hclient, hclient', Option.bind_some, Option.bind_some] at hrecord
      rw [Option.bind_some, Option.bind_some, senderEntry, senderEntry]
      by_cases hsender : IsSender client
      · obtain ⟨hmedia', hid, haddress, hport, hsending⟩ := mediaRecord_eq hsender.1 hrecord
        rw [if_pos hsender, if_pos ⟨hmedia', hsending.trans hsender.2⟩,
          h.toSender hkeyed hclient hsender hrecord, ServerClientEntity.toReceiver,
          ServerClientEntity.toReceiver, hid, haddress, hport]
      · rw [if_neg hsender, if_neg]
        intro hsender'
        obtain ⟨hmedia, -, -, -, hsending⟩ := mediaRecord_eq hsender'.1 hrecord.symm
        exact hsender ⟨hmedia, hsending.trans hsender'.2⟩

/-- An update of one record that keeps its media fields. -/
theorem bind_mediaRecord_setClient {c : ℤ} {client client' : ServerClientEntity}
    (hclient : s.clients[c]? = some client) (hrecord : mediaRecord client' = mediaRecord client)
    (k : ℤ) : ((s.setClient c client').clients[k]?).bind mediaRecord =
      (s.clients[k]?).bind mediaRecord := by
  change ((s.clients.insert c client')[k]?).bind mediaRecord = _
  rw [Table.getElem?_insert]
  split
  next hk =>
    rw [← hk, hclient]
    exact hrecord
  next => rfl

/-- An update of one record that keeps its media fields and is seen as before by the senders in its
channels. -/
theorem sameMediaView_setClient {c : ℤ} {client client' : ServerClientEntity}
    (hclient : s.clients[c]? = some client) (hrecord : mediaRecord client' = mediaRecord client)
    (hallowed : client'.visibilityLevelAllowed = client.visibilityLevelAllowed)
    (hvisible : client.hasMedia = true → ∀ (k ch : ℤ) (sender : ServerClientEntity),
      s.clients[k]? = some sender → IsSender sender → c ≠ k → SetMap.Rel s.client2channels k ch →
      SetMap.Rel s.participants ch c →
      sender.isAllowedToSee client' = sender.isAllowedToSee client) :
    SameMediaView s (s.setClient c client') where
  participants := rfl
  client2channels := rfl
  sender2receiver := rfl
  record := bind_mediaRecord_setClient hclient hrecord
  visible := by
    intro k r ch sender other hsender hsends hother hmedia hne hjoined hmember
    have hlookup : ∀ k : ℤ, (s.setClient c client').clients[k]? =
        if c = k then some client' else s.clients[k]? := fun k =>
      Table.getElem?_insert s.clients c k client'
    rw [isVisible, isVisible, hlookup, hlookup, hsender, hother]
    by_cases hr : c = r
    · subst hr
      obtain rfl := Option.some.inj (hother.symm.trans hclient)
      rw [if_neg hne, if_pos rfl]
      exact hvisible hmedia k ch sender hsender hsends hne hjoined hmember
    · rw [if_neg hr]
      by_cases hk : c = k
      · subst hk
        obtain rfl := Option.some.inj (hsender.symm.trans hclient)
        rw [if_pos rfl]
        simp only [ServerClientEntity.isAllowedToSee, hallowed]
      · rw [if_neg hk]

/-- A client that is new has no media yet. -/
theorem sameMediaView_create (peerAddress : QHostAddress)
    (hnew : s.clients[s.nextClientId + 1]? = none) :
    SameMediaView s (ClientConnectionHandler.create s peerAddress) where
  participants := rfl
  client2channels := rfl
  sender2receiver := rfl
  record := by
    intro k
    change ((s.clients.insert (s.nextClientId + 1) _)[k]?).bind mediaRecord = _
    rw [Table.getElem?_insert]
    split
    next hk =>
      rw [← hk, hnew]
      rfl
    next => rfl
  visible := by
    intro k r ch sender other hsender _ hother _ _ _ _
    have hlookup : ∀ k : ℤ, (ClientConnectionHandler.create s peerAddress).clients[k]? =
        if s.nextClientId + 1 = k then some { id := s.nextClientId + 1 } else s.clients[k]? :=
      fun k => Table.getElem?_insert s.clients (s.nextClientId + 1) k _
    have hold : ∀ {k : ℤ} {client : ServerClientEntity}, s.clients[k]? = some client →
        s.nextClientId + 1 ≠ k := by
      rintro k client hclient rfl
      rw [hnew] at hclient
      contradiction
    rw [isVisible, isVisible, hlookup, hlookup, if_neg (hold hsender), if_neg (hold hother)]

end Ts3Video.VirtualServer
