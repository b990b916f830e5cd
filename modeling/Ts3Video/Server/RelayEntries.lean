import Ts3Video.Server.Recipients

/-!
# Where the entries of the relay table come from

Whether or not addresses are shared, every entry of the computed table is that of a client that sends.
A client that sends has an entry for its address, and one as the target of recovery requests.
-/

namespace Ts3Video.VirtualServer

open Std

variable {s : VirtualServer}

/-- One client adds at most one receiver entry. -/
theorem getElem?_addRecipient (recips : MediaRecipients) (client : ServerClientEntity) (c : ℤ) :
    (s.addRecipient recips client).clientid2receiver[c]? =
      if IsSender client ∧ client.id = c then some client.toReceiver
      else recips.clientid2receiver[c]? := by
  unfold addRecipient
  split
  next hmedia => rw [if_neg (fun h => hmedia h.1.1)]
  next hmedia =>
    split
    next hsending => rw [if_neg (fun h => hsending h.1.2)]
    next hsending =>
      have hsender : IsSender client := ⟨by simpa using hmedia, by simpa using hsending⟩
      rw [MediaRecipients.getElem?_insertReceiver]
      simp only [hsender, true_and]
      rfl

/-- Every sender entry of the computed table is that of a client that sends from its address. -/
theorem of_sender?_mediaRecipients {address : QHostAddress} {port : UInt16}
    {entry : MediaSenderEntity} (h : s.mediaRecipients.sender? address port = some entry) :
    ∃ (k : ℤ) (client : ServerClientEntity), s.clients[k]? = some client ∧ IsSender client ∧
      client.mediaAddress = address ∧ client.mediaPort = port ∧ s.toSender client = entry := by
  have hstep : ∀ (recips : MediaRecipients) (found : ℤ × ServerClientEntity),
      (s.addRecipient recips found.2).sender? address port = some entry →
        recips.sender? address port = some entry ∨ IsSender found.2 ∧
          found.2.mediaAddress = address ∧ found.2.mediaPort = port ∧ s.toSender found.2 = entry := by
    intro recips found hentry
    rw [sender?_addRecipient] at hentry
    split at hentry
    next hat => exact .inr ⟨hat.1, hat.2.1, hat.2.2, Option.some.inj hentry⟩
    next => exact .inl hentry
  rcases Runs.of_foldl (P := (MediaRecipients.sender? · address port = some entry)) hstep _ h with
    hempty | ⟨⟨k, client⟩, hfound, hclient⟩
  · simp [MediaRecipients.sender?] at hempty
  · exact ⟨k, client, ExtTreeMap.mem_toList_iff_getElem?_eq_some.mp hfound, hclient⟩

/-- The computed table has entries for the addresses that clients send from. -/
theorem isSome_sender?_mediaRecipients {address : QHostAddress} {port : UInt16} :
    (s.mediaRecipients.sender? address port).isSome ↔
      ∃ (k : ℤ) (client : ServerClientEntity), s.clients[k]? = some client ∧ IsSender client ∧
        client.mediaAddress = address ∧ client.mediaPort = port := by
  constructor
  · intro h
    obtain ⟨entry, hentry⟩ := Option.isSome_iff_exists.mp h
    obtain ⟨k, client, hclient, hsender, haddress, hport, -⟩ := of_sender?_mediaRecipients hentry
    exact ⟨k, client, hclient, hsender, haddress, hport⟩
  · rintro ⟨k, client, hclient, hsender⟩
    apply Runs.foldl_of_mem (P := fun recips : MediaRecipients => (recips.sender? address port).isSome)
      (Q := fun found : ℤ × ServerClientEntity => IsSender found.2 ∧
        found.2.mediaAddress = address ∧ found.2.mediaPort = port) _ _
      (ExtTreeMap.mem_toList_iff_getElem?_eq_some.mpr hclient) hsender
    · intro recips found hbefore
      rw [sender?_addRecipient]
      split
      · rfl
      · exact hbefore
    · intro recips found hat
      rw [sender?_addRecipient, if_pos hat]
      rfl

/-- The receiver entries of the computed table are those of the clients that send. -/
theorem getElem?_mediaRecipients (hkeyed : s.Keyed) {c : ℤ} {receiver : MediaReceiverEntity} :
    s.mediaRecipients.clientid2receiver[c]? = some receiver ↔
      ∃ client, s.clients[c]? = some client ∧ IsSender client ∧ client.toReceiver = receiver := by
  have hstep : ∀ (receiver : MediaReceiverEntity) (recips : MediaRecipients)
      (found : ℤ × ServerClientEntity),
      (s.addRecipient recips found.2).clientid2receiver[c]? = some receiver →
        recips.clientid2receiver[c]? = some receiver ∨
          IsSender found.2 ∧ found.2.id = c ∧ found.2.toReceiver = receiver := by
    intro receiver recips found hreceiver
    rw [getElem?_addRecipient] at hreceiver
    split at hreceiver
    next hat => exact .inr ⟨hat.1, hat.2, Option.some.inj hreceiver⟩
    next => exact .inl hreceiver
  have hof : ∀ {receiver}, s.mediaRecipients.clientid2receiver[c]? = some receiver →
      ∃ client, s.clients[c]? = some client ∧ IsSender client ∧ client.toReceiver = receiver := by
    intro receiver h
    rcases Runs.of_foldl (P := fun recips : MediaRecipients =>
      recips.clientid2receiver[c]? = some receiver) (hstep receiver) _ h with
      hempty | ⟨⟨k, client⟩, hfound, hsender, hid, hreceiver⟩
    · exact absurd hempty (Table.getElem?_empty_ne _ _)
    · have hclient := ExtTreeMap.mem_toList_iff_getElem?_eq_some.mp hfound
      obtain rfl := (hkeyed.client hclient).symm.trans hid
      exact ⟨client, hclient, hsender, hreceiver⟩
  refine ⟨hof, ?_⟩
  rintro ⟨client, hclient, hsender, rfl⟩
  have hmem : c ∈ s.mediaRecipients.clientid2receiver := by
    apply Runs.foldl_of_mem (P := fun recips : MediaRecipients => c ∈ recips.clientid2receiver)
      (Q := fun found : ℤ × ServerClientEntity => IsSender found.2 ∧ found.2.id = c) _ _
      (ExtTreeMap.mem_toList_iff_getElem?_eq_some.mpr hclient) ⟨hsender, hkeyed.client hclient⟩
    · intro recips found hbefore
      rw [Table.mem_iff] at hbefore ⊢
      rw [getElem?_addRecipient]
      split
      · exact ⟨_, rfl⟩
      · exact hbefore
    · intro recips found hat
      rw [Table.mem_iff, getElem?_addRecipient, if_pos hat]
      exact ⟨_, rfl⟩
  obtain ⟨receiver, hreceiver⟩ := Table.mem_iff.mp hmem
  obtain ⟨client', hclient', -, rfl⟩ := hof hreceiver
  rw [hreceiver, Option.some.inj (hclient.symm.trans hclient')]

end Ts3Video.VirtualServer
