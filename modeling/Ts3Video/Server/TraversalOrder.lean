import Ts3Video.Server.Lookups
import Ts3Video.Server.MediaView
import Ts3Video.Server.RelayEntries

/-!
# Whether the order of the clients makes a difference

The clients are in a hash table. A new client can change the order in which it is traversed, and the
table of recipients is not computed again then. The order makes no difference if and only if no two
clients that send share an address and port: of two that do, the last one visited has the entry.
-/

namespace Ts3Video.VirtualServer

open Std

/-- The list has the record of every client once. -/
def IsTraversal (s : VirtualServer) (order : List ServerClientEntity) : Prop :=
  order.Perm (s.clients.toList.map Prod.snd)

/-- No two clients that send share an address and port. -/
def DistinctSenders (s : VirtualServer) : Prop :=
  ∀ (k k' : ℤ) (client client' : ServerClientEntity), s.clients[k]? = some client →
    s.clients[k']? = some client' → IsSender client → IsSender client' →
    client.mediaAddress = client'.mediaAddress → client.mediaPort = client'.mediaPort → k = k'

/-- Whether the addresses of senders are distinct can be checked by going through the clients. -/
instance (s : VirtualServer) : Decidable s.DistinctSenders :=
  decidable_of_iff _ (Table.forall_pairs_iff (m := s.clients) (P := fun entry entry' =>
    IsSender entry.2 → IsSender entry'.2 → entry.2.mediaAddress = entry'.2.mediaAddress →
      entry.2.mediaPort = entry'.2.mediaPort → entry.1 = entry'.1)).symm

variable {s : VirtualServer}

/-- A traversal visits the clients that are there. -/
theorem IsTraversal.mem_iff {order : List ServerClientEntity} (h : s.IsTraversal order)
    {client : ServerClientEntity} : client ∈ order ↔ ∃ k : ℤ, s.clients[k]? = some client := by
  simp only [List.Perm.mem_iff h, List.mem_map, Prod.exists, exists_eq_right,
    ExtTreeMap.mem_toList_iff_getElem?_eq_some]

/-- The order of the keys is one of the orders. -/
theorem mediaRecipients_eq :
    s.mediaRecipients = s.mediaRecipientsInOrder (s.clients.toList.map Prod.snd) := by
  rw [mediaRecipients, mediaRecipientsInOrder, List.foldl_map]

/-- The entries of clients with different ids and addresses are added in any order. -/
theorem addEntry_comm (recips : MediaRecipients) {entry entry' : MediaSenderEntity × MediaReceiverEntity}
    (haddress : ¬ (entry.1.address = entry'.1.address ∧ entry.1.port = entry'.1.port))
    (hid : entry.2.clientId ≠ entry'.2.clientId) :
    addEntry (addEntry recips entry) entry' = addEntry (addEntry recips entry') entry := by
  simp only [addEntry]
  rw [MediaRecipients.insertReceiver_insertSender, MediaRecipients.insertReceiver_insertSender,
    MediaRecipients.insertSender_comm _ haddress, MediaRecipients.insertReceiver_comm _ hid]

/-- With distinct addresses, the loop body takes two clients in any order. -/
theorem DistinctSenders.addRecipient_comm (h : s.DistinctSenders) (hkeyed : s.Keyed) {k k' : ℤ}
    {client client' : ServerClientEntity} (hclient : s.clients[k]? = some client)
    (hclient' : s.clients[k']? = some client') (recips : MediaRecipients) :
    s.addRecipient (s.addRecipient recips client) client' =
      s.addRecipient (s.addRecipient recips client') client := by
  by_cases hk : k = k'
  · subst hk
    rw [Option.some.inj (hclient.symm.trans hclient')]
  simp only [addRecipient_eq, senderEntry]
  by_cases hsender : IsSender client
  · by_cases hsender' : IsSender client'
    · simp only [if_pos hsender, if_pos hsender', Option.map_some, Option.getD_some]
      apply addEntry_comm
      · exact fun hat => hk (h k k' client client' hclient hclient' hsender hsender' hat.1 hat.2)
      · change client.id ≠ client'.id
        rw [hkeyed.client hclient, hkeyed.client hclient']
        exact hk
    · simp only [if_neg hsender', Option.map_none, Option.getD_none]
  · simp only [if_neg hsender, Option.map_none, Option.getD_none]

/-- With distinct addresses, the clients may be visited in any order. -/
theorem DistinctSenders.mediaRecipientsInOrder_eq (h : s.DistinctSenders) (hkeyed : s.Keyed)
    {order : List ServerClientEntity} (horder : s.IsTraversal order) :
    s.mediaRecipientsInOrder order = s.mediaRecipients := by
  rw [mediaRecipients_eq]
  apply List.Perm.foldl_eq' horder
  intro client hclient client' hclient' recips
  obtain ⟨k, hk⟩ := horder.mem_iff.mp hclient
  obtain ⟨k', hk'⟩ := horder.mem_iff.mp hclient'
  exact h.addRecipient_comm hkeyed hk hk' recips

/-- Two clients can be the last ones that are visited. -/
theorem exists_isTraversal {k k' : ℤ} (hne : k ≠ k') {client client' : ServerClientEntity}
    (hkeyed : s.Keyed) (hclient : s.clients[k]? = some client)
    (hclient' : s.clients[k']? = some client') :
    ∃ order, s.IsTraversal (order ++ [client, client']) ∧ s.IsTraversal (order ++ [client', client]) := by
  classical
  have hdiffer : client' ≠ client := by
    rintro rfl
    exact hne ((hkeyed.client hclient).symm.trans (hkeyed.client hclient'))
  have hall : s.IsTraversal (s.clients.toList.map Prod.snd) := List.Perm.refl _
  have hmem := hall.mem_iff.mpr ⟨k, hclient⟩
  have hmem' := (List.mem_erase_of_ne hdiffer).mpr (hall.mem_iff.mpr ⟨k', hclient'⟩)
  have hperm := (List.perm_cons_erase hmem).trans ((List.perm_cons_erase hmem').cons client)
  refine ⟨_, (List.perm_append_comm.trans hperm.symm : List.Perm (_ ++ [client, client']) _), ?_⟩
  exact List.perm_append_comm.trans ((List.Perm.swap client client' _).trans hperm.symm)

/-- The client that sends and is visited last has the entry of its address. -/
theorem sender?_mediaRecipientsInOrder (order : List ServerClientEntity) {client : ServerClientEntity}
    (hsender : IsSender client) :
    (s.mediaRecipientsInOrder (order ++ [client])).sender? client.mediaAddress client.mediaPort =
      some (s.toSender client) := by
  rw [mediaRecipientsInOrder, List.foldl_append, List.foldl_cons, List.foldl_nil,
    sender?_addRecipient, if_pos ⟨hsender, rfl, rfl⟩]

/-- If a table relays as the computed one whatever the order is, then addresses are distinct. -/
theorem distinctSenders_of_sameRelay (hkeyed : s.Keyed) {recips : MediaRecipients}
    (h : ∀ order, s.IsTraversal order → recips.SameRelay (s.mediaRecipientsInOrder order)) :
    s.DistinctSenders := by
  intro k k' client client' hclient hclient' hsender hsender' haddress hport
  by_contra hne
  obtain ⟨order, hfirst, hsecond⟩ := exists_isTraversal hne hkeyed hclient hclient'
  have hlast := (h _ hfirst).sender client'.mediaAddress client'.mediaPort
  have hlast' := (h _ hsecond).sender client.mediaAddress client.mediaPort
  rw [List.append_cons, sender?_mediaRecipientsInOrder _ hsender'] at hlast
  rw [List.append_cons, sender?_mediaRecipientsInOrder _ hsender, haddress, hport, hlast] at hlast'
  have hid : client'.id = client.id := congrArg MediaSenderEntity.clientId hlast'
  rw [hkeyed.client hclient, hkeyed.client hclient'] at hid
  exact hne hid.symm

end Ts3Video.VirtualServer
