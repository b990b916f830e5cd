import Ts3Video.Server.Freshness
import Ts3Video.Server.RelayEntries

/-!
# The senders of the table in use

A change of visibility leaves the table of recipients stale, and lookups leave entries behind. The table in
use still has no senders with receivers but those that a table computed now would have.
-/

namespace Ts3Video.VirtualServer

open Std

/-- Whatever the table in use forwards, the table that would be computed knows the source of, and it
names the same targets of recovery requests. -/
structure HeldTable (s : VirtualServer) : Prop where
  sender : ∀ address port, ((s.recipients.sender? address port).getD {}).receivers ≠ [] →
    (s.mediaRecipients.sender? address port).isSome
  receiver : ∀ c : ℤ, (s.recipients.clientid2receiver[c]?).getD {} =
    (s.mediaRecipients.clientid2receiver[c]?).getD {}

variable {fromUtf8 : List UInt8 → String} {s s' : VirtualServer} {e : Event} {out : List Effect}

/-- A client that sends does so with every record that has the same media fields. -/
theorem isSender_of_mediaRecord {k : ℤ} {client : ServerClientEntity}
    (hrecord : (s'.clients[k]?).bind mediaRecord = (s.clients[k]?).bind mediaRecord)
    (hclient : s.clients[k]? = some client) (hsender : IsSender client) :
    ∃ client', s'.clients[k]? = some client' ∧ IsSender client' ∧
      client'.toReceiver = client.toReceiver := by
  rw [hclient, Option.bind_some, mediaRecord, if_pos hsender.1] at hrecord
  obtain ⟨client', hclient', hfields⟩ := Option.bind_eq_some_iff.mp hrecord
  obtain ⟨hmedia, hid, haddress, hport, hsending⟩ :=
    mediaRecord_eq hsender.1 (hfields.trans (if_pos hsender.1).symm)
  refine ⟨client', hclient', ⟨hmedia, hsending.trans hsender.2⟩, ?_⟩
  rw [ServerClientEntity.toReceiver, ServerClientEntity.toReceiver, hid, haddress, hport]

/-- Who sends, and who is asked to recover, depends on the media fields only. -/
theorem HeldTable.of_mediaRecord (h : s.HeldTable) (hkeyed : s.Keyed) (hkeyed' : s'.Keyed)
    (hrecipients : s'.recipients = s.recipients)
    (hrecord : ∀ k : ℤ, (s'.clients[k]?).bind mediaRecord = (s.clients[k]?).bind mediaRecord) :
    s'.HeldTable where
  sender := by
    intro address port hreceivers
    rw [hrecipients] at hreceivers
    obtain ⟨k, client, hclient, hsender, haddress, hport⟩ :=
      isSome_sender?_mediaRecipients.mp (h.sender address port hreceivers)
    obtain ⟨client', hclient', hsender', hsame⟩ :=
      isSender_of_mediaRecord (hrecord k) hclient hsender
    refine isSome_sender?_mediaRecipients.mpr ⟨k, client', hclient', hsender', ?_, ?_⟩
    · exact (congrArg MediaReceiverEntity.address hsame).trans haddress
    · exact (congrArg MediaReceiverEntity.port hsame).trans hport
  receiver := by
    intro c
    rw [hrecipients, h.receiver]
    congr 1
    apply Option.ext
    intro receiver
    rw [getElem?_mediaRecipients hkeyed, getElem?_mediaRecipients hkeyed']
    constructor
    · rintro ⟨client, hclient, hsender, rfl⟩
      exact isSender_of_mediaRecord (hrecord c) hclient hsender
    · rintro ⟨client, hclient, hsender, rfl⟩
      exact isSender_of_mediaRecord (hrecord c).symm hclient hsender

/-- A table that no lookup tells apart from the one in use will do. -/
theorem HeldTable.of_sameRelay (h : s.HeldTable) (hsame : s'.recipients.SameRelay s.recipients)
    (hcomputed : s'.mediaRecipients = s.mediaRecipients) : s'.HeldTable where
  sender := by
    intro address port hreceivers
    rw [hsame.sender] at hreceivers
    rw [hcomputed]
    exact h.sender address port hreceivers
  receiver := by
    intro c
    rw [hsame.receiver, hcomputed]
    exact h.receiver c

/-- A table that has just been computed is one. -/
theorem Fresh.heldTable (h : s.Fresh) : s.HeldTable where
  sender := by
    intro address port hreceivers
    rw [h] at hreceivers
    cases hentry : s.mediaRecipients.sender? address port with
    | some entry => rfl
    | none =>
      rw [hentry] at hreceivers
      exact absurd rfl hreceivers
  receiver c := by rw [h]

/-- No event makes the table forward for anybody else. -/
theorem HeldTable.next (h : s.HeldTable) (hkeyed : s.Keyed) (hauth : s.Authorization)
    (hstep : step fromUtf8 s e = some (s', out)) : s'.HeldTable := by
  have htrans := transition_of_step hkeyed hstep
  by_cases hchanges : ChangesVisibility s e
  · obtain ⟨c, _, _, client, _, params, hadmits, -⟩ := hchanges
    obtain ⟨correlationId, peerAddress, hrun⟩ := hadmits.step_eq fromUtf8
    obtain ⟨rfl, -⟩ := Prod.mk.inj (Option.some.inj (hrun.symm.trans hstep))
    exact h.of_mediaRecord hkeyed (htrans.keyed hkeyed) rfl
      (bind_mediaRecord_setClient hadmits.live rfl)
  · cases htrans.recipientsChange hkeyed hauth.nextClientId_free hchanges with
    | compute hfresh => exact hfresh.heldTable
    | same hrecipients hcomputed => exact h.of_sameRelay (hrecipients ▸ .refl _) hcomputed
    | lookupSender _ _ hrecipients hcomputed =>
      refine h.of_sameRelay ?_ hcomputed
      rw [hrecipients]
      exact (MediaRecipients.SameRelay.refl _).lookupSender _ _
    | lookupReceiver _ _ hrecipients hcomputed =>
      refine h.of_sameRelay ?_ hcomputed
      rw [hrecipients]
      exact (MediaRecipients.SameRelay.refl _).lookupReceiver _

/-- The table in use forwards for the senders of the computed one in every reachable state. -/
theorem heldTable_reachable {opts : VirtualServerOptions} {bans : ExtTreeSet String}
    (hreach : Runs.Reachable (step fromUtf8) (init opts bans) s) :
    s.Keyed ∧ s.Authorization ∧ s.HeldTable := by
  apply hreach.invariant (P := fun s => s.Keyed ∧ s.Authorization ∧ s.HeldTable)
    ⟨keyed_init opts bans, authorization_init opts bans, (fresh_init opts bans).heldTable⟩
  rintro s e s' out ⟨hkeyed, hauth, h⟩ hstep
  have htrans := transition_of_step hkeyed hstep
  exact ⟨htrans.keyed hkeyed, hauth.transition hkeyed htrans, h.next hkeyed hauth hstep⟩

end Ts3Video.VirtualServer
