import Ts3Video.Server.Freshness
import Ts3Video.Server.RelayTable

/-!
# A change of visibility leaves the table stale

As long as no clients that send share an address, a change of the visibility level that a sender notices
does change the table that would be computed, whatever the order of the clients is. The table in use is
exact until then, and not any longer.
-/

namespace Ts3Video.VirtualServer

open Std

variable {s s' : VirtualServer} {e : Event}

/-- The media socket holds the table that would be computed now, whatever the order of the clients is. -/
def FreshInEachOrder (s : VirtualServer) : Prop :=
  ∀ order, s.IsTraversal order → s.recipients = s.mediaRecipientsInOrder order

/-- The media socket holds a table that no lookup tells apart from the one that would be computed now,
whatever the order of the clients is. -/
def RelaysFreshInEachOrder (s : VirtualServer) : Prop :=
  ∀ order, s.IsTraversal order → s.recipients.SameRelay (s.mediaRecipientsInOrder order)

/-- A table relays as a fresh one in each order if it does in the order of the keys and the order makes
no difference. -/
theorem relaysFreshInEachOrder_iff (hkeyed : s.Keyed) :
    s.RelaysFreshInEachOrder ↔ s.DistinctSenders ∧ s.RelaysFresh := by
  constructor
  · intro h
    refine ⟨distinctSenders_of_sameRelay hkeyed h, ?_⟩
    rw [RelaysFresh, mediaRecipients_eq]
    exact h _ (List.Perm.refl _)
  · rintro ⟨hdistinct, hfresh⟩ order horder
    rw [hdistinct.mediaRecipientsInOrder_eq hkeyed horder]
    exact hfresh

/-- A table is fresh in each order if it is in the order of the keys and the order makes no difference. -/
theorem freshInEachOrder_iff (hkeyed : s.Keyed) :
    s.FreshInEachOrder ↔ s.DistinctSenders ∧ s.Fresh := by
  constructor
  · intro h
    have hrelays : s.RelaysFreshInEachOrder := fun order horder => by
      rw [h order horder]
      exact .refl _
    refine ⟨((relaysFreshInEachOrder_iff hkeyed).mp hrelays).1, ?_⟩
    rw [Fresh, mediaRecipients_eq]
    exact h _ (List.Perm.refl _)
  · rintro ⟨hdistinct, hfresh⟩ order horder
    rw [hdistinct.mediaRecipientsInOrder_eq hkeyed horder]
    exact hfresh

/-- Only a request for another visibility level changes the visibility. -/
theorem ChangesVisibility.eq_request (h : ChangesVisibility s e) :
    ∃ c correlationId document client params, e = .newIncomingRequest c correlationId document ∧
      ClientConnectionHandler.dispatch client document = .run .UpdateVisibilityLevelAction params := by
  obtain ⟨c, -, -, client, -, params, hadmits, -⟩ := h
  obtain ⟨correlationId, document, hevent, hdispatch⟩ := hadmits.dispatch
  exact ⟨c, correlationId, document, client, params, hevent, hdispatch⟩

/-- Requests of other actions do not change the visibility. -/
theorem not_changesVisibility_request {action : ActionBase} (c : ℤ) (params : QJsonObject)
    (h : action ≠ .UpdateVisibilityLevelAction) :
    ¬ ChangesVisibility s (.request c action params) := by
  intro hchanges
  obtain ⟨_, _, _, client, _, hevent, hdispatch⟩ := hchanges.eq_request
  obtain ⟨rfl, rfl, rfl⟩ := Event.newIncomingRequest.inj hevent
  exact h (ClientConnectionHandler.dispatch_createJsonRequest hdispatch).1.symm

/-- A login does not change the visibility. -/
theorem not_changesVisibility_logIn {c : ℤ} {username now : String}
    (h : e ∈ Event.logIn c username now) : ¬ ChangesVisibility s e := by
  simp only [Event.logIn, List.mem_cons, List.not_mem_nil, or_false] at h
  intro hchanges
  rcases h with rfl | rfl | rfl
  · obtain ⟨_, _, _, _, _, hevent, -⟩ := hchanges.eq_request
    contradiction
  · exact not_changesVisibility_request c _ (by decide) hchanges
  · obtain ⟨_, _, _, _, _, hevent, -⟩ := hchanges.eq_request
    contradiction

/-- A token does not change the visibility. -/
theorem not_changesVisibility_sendAuthToken (token : String) (address : QHostAddress)
    (port : UInt16) : ¬ ChangesVisibility s (.sendAuthToken token address port) := by
  intro hchanges
  obtain ⟨_, _, _, _, _, hevent, -⟩ := hchanges.eq_request
  contradiction

/-- A sender that sees a sibling no longer, or sees it now, has other receivers. -/
theorem receivers_setClient_ne (hkeyed : s.Keyed) {c k ch : ℤ}
    {client client' sender : ServerClientEntity} (hclient : s.clients[c]? = some client)
    (hmedia : client.hasMedia = true) (hsender : s.clients[k]? = some sender) (hne : c ≠ k)
    (hjoined : SetMap.Rel s.client2channels k ch) (hmember : SetMap.Rel s.participants ch c)
    (hchanges : sender.isAllowedToSee client' ≠ sender.isAllowedToSee client)
    (hrecord : mediaRecord client' = mediaRecord client) :
    ((s.setClient c client').toSender sender).receivers ≠ (s.toSender sender).receivers := by
  have hfor : (s.setClient c client').receiverFor sender = s.receiverFor sender := by
    funext r
    exact receiverFor_congr (bind_mediaRecord_setClient hclient hrecord r) rfl
  have hclient' : (s.setClient c client').clients[c]? = some client' := by
    change (s.clients.insert c client')[c]? = _
    rw [Table.getElem?_insert, if_pos rfl]
  have hsender' : (s.setClient c client').clients[k]? = some sender := by
    change (s.clients.insert c client')[k]? = _
    rw [Table.getElem?_insert, if_neg hne, hsender]
  have hreceiver : s.receiverFor sender c = some client.toReceiver := by
    refine receiverFor_eq_some.mpr ⟨client, hclient, hmedia, ?_, rfl⟩
    rw [hkeyed.client hclient, hkeyed.client hsender]
    exact hne
  intro heq
  rw [toSender, toSender, hfor] at heq
  have hsiblings := iff_of_eq (congrArg (client.toReceiver ∈ ·) (List.append_cancel_right heq))
  rw [mem_filterMap_receiverFor hkeyed hreceiver, mem_filterMap_receiverFor hkeyed hreceiver,
    hkeyed.client hsender, mem_getSiblingClientIds_iff hsender hclient,
    mem_getSiblingClientIds_iff hsender' hclient'] at hsiblings
  have hin : ∃ ch, SetMap.Rel s.client2channels k ch ∧ SetMap.Rel s.participants ch c :=
    ⟨ch, hjoined, hmember⟩
  apply hchanges
  rw [Bool.eq_iff_iff]
  exact ⟨fun hsees => (hsiblings.mp ⟨hin, hsees⟩).2, fun hsees => (hsiblings.mpr ⟨hin, hsees⟩).2⟩

/-- After a change of visibility that a sender notices, the table is stale, or addresses are shared. -/
theorem ChangesVisibility.stale (fromUtf8 : List UInt8 → String) (hkeyed : s.Keyed)
    (hdistinct : s.DistinctSenders) (hfresh : s.RelaysFresh) (h : ChangesVisibility s e) :
    ∃ s' out, step fromUtf8 s e = some (s', out) ∧ ¬ (s'.DistinctSenders ∧ s'.RelaysFresh) := by
  obtain ⟨c, k, ch, client, sender, params, hadmits, hmedia, hsender, hsends, hne, hjoined, hmember,
    hchanges⟩ := h
  obtain ⟨correlationId, peerAddress, hstep⟩ := hadmits.step_eq fromUtf8
  refine ⟨_, _, hstep, ?_⟩
  rintro ⟨hdistinct', hfresh'⟩
  have hsender' : (s.setClient c { client with
      visibilityLevel := (params.value "visibilitylevel").toInt }).clients[k]? = some sender := by
    change (s.clients.insert c _)[k]? = _
    rw [Table.getElem?_insert, if_neg hne, hsender]
  have hbefore := hfresh.sender sender.mediaAddress sender.mediaPort
  have hafter := hfresh'.sender sender.mediaAddress sender.mediaPort
  rw [sender?_mediaRecipients hdistinct hsender hsends] at hbefore
  rw [sender?_mediaRecipients hdistinct' hsender' hsends] at hafter
  have hreceivers := receivers_setClient_ne hkeyed hadmits.live hmedia hsender hne hjoined hmember
    hchanges rfl
  exact hreceivers (congrArg MediaSenderEntity.receivers (hafter.symm.trans hbefore))

/-- After a lookup that misses an entry, the tables differ. -/
theorem MissesEntry.not_fresh (fromUtf8 : List UInt8 → String) (hfresh : s.Fresh)
    (h : MissesEntry s e) : ∃ s' out, step fromUtf8 s e = some (s', out) ∧ ¬ s'.Fresh := by
  obtain ⟨recipients, out, hstep, hne⟩ := h.step_eq fromUtf8
  exact ⟨_, out, hstep, fun hfresh' => hne (hfresh'.trans hfresh.symm)⟩

/-- The first client streams to the second one, which then hides from everybody but administrators. -/
def conferenceWithHidden : List Event :=
  conference ++ [.request 2 .AdminAuthAction [("password", .string "secret")],
    .request 2 .UpdateVisibilityLevelAction [("visibilitylevel", .ofInt 100)]]

/-- Then the second one still gets the stream, whatever the order of the clients is. -/
theorem recipients_conferenceWithHidden : ∃ s,
    Runs.Reachable (step QString.fromLatin1) (init { adminPassword := "secret" } ∅) s ∧
      s.DistinctSenders ∧ ∀ order, s.IsTraversal order →
        s.recipients ≠ s.mediaRecipientsInOrder order ∧
          ¬ s.recipients.SameRelay (s.mediaRecipientsInOrder order) := by
  have hfacts : (Runs.run (step QString.fromLatin1) (init { adminPassword := "secret" } ∅)
      conferenceWithHidden).map (fun done => (decide done.1.DistinctSenders,
        (done.1.recipients.sender? "192.0.2.1" 5001).map fun sender => sender.receivers.length,
          (done.1.mediaRecipients.sender? "192.0.2.1" 5001).map fun sender =>
            sender.receivers.length)) = some (true, some 1, some 0) := by
    decide +kernel
  obtain ⟨⟨s, out⟩, hrun, hfacts⟩ := Option.map_eq_some_iff.mp hfacts
  simp only [Prod.mk.injEq, Option.map_eq_some_iff, decide_eq_true_eq] at hfacts
  obtain ⟨hdistinct, ⟨held, hheld, hone⟩, computed, hcomputed, hzero⟩ := hfacts
  have hreach : Runs.Reachable (step QString.fromLatin1) (init { adminPassword := "secret" } ∅) s :=
    ⟨conferenceWithHidden, out, hrun⟩
  have hkeyed := keyed_of_reachable hreach
  refine ⟨s, hreach, hdistinct, fun order horder => ?_⟩
  rw [hdistinct.mediaRecipientsInOrder_eq hkeyed horder]
  have hstale : ¬ s.RelaysFresh := by
    intro hfresh
    have heq := hfresh.sender "192.0.2.1" 5001
    rw [hheld, hcomputed, Option.getD_some, Option.getD_some] at heq
    rw [heq, hzero] at hone
    exact absurd hone (by decide)
  exact ⟨fun hfresh => hstale (Fresh.relaysFresh hfresh), hstale⟩

/-- The table in use relays as the one that would be computed, whatever the order of the clients is, in
every state of a run if and only if no clients that send share an address in any of these states and no
step is a change of visibility that a sender notices. It equals that table in every state if and only if
no lookup misses an entry either. -/
theorem recipients_fresh_iff (fromUtf8 : List UInt8 → String) (opts : VirtualServerOptions)
    (bans : ExtTreeSet String) (events : List Event) :
    (Runs.EachState (step fromUtf8) RelaysFreshInEachOrder (init opts bans) events ↔
      Runs.EachState (step fromUtf8) DistinctSenders (init opts bans) events ∧
        Runs.EachStep (step fromUtf8) (fun s e => ¬ ChangesVisibility s e) (init opts bans) events) ∧
    (Runs.EachState (step fromUtf8) FreshInEachOrder (init opts bans) events ↔
      Runs.EachState (step fromUtf8) DistinctSenders (init opts bans) events ∧
        Runs.EachStep (step fromUtf8) (fun s e => ¬ ChangesVisibility s e ∧ ¬ MissesEntry s e)
          (init opts bans) events) := by
  have hkeep : ∀ s e s' out, s.Keyed → step fromUtf8 s e = some (s', out) → s'.Keyed :=
    fun s e s' out hkeyed hstep => hkeyed.step hstep
  rw [Runs.eachState_congr hkeep (fun s => relaysFreshInEachOrder_iff) (keyed_init opts bans) events,
    Runs.eachState_congr hkeep (fun s => freshInEachOrder_iff) (keyed_init opts bans) events]
  constructor
  · apply Runs.eachState_and_iff hkeep _ (keyed_init opts bans)
    · exact eachState_of_recipientsChange fromUtf8 opts bans (fresh_init opts bans).relaysFresh
        (fun s e hG => hG) fun s e s' h _ hchange => h.recipientsChange hchange
    · rintro s e hkeyed ⟨hdistinct, hfresh⟩ hchanges
      exact (not_not.mp hchanges).stale fromUtf8 hkeyed hdistinct hfresh
  · apply Runs.eachState_and_iff hkeep _ (keyed_init opts bans)
    · exact eachState_of_recipientsChange fromUtf8 opts bans (fresh_init opts bans)
        (fun s e hG => hG.1) fun s e s' h hG hchange => h.recipientsChange hG.2 hchange
    · rintro s e hkeyed ⟨hdistinct, hfresh⟩ hG
      by_cases hchanges : ChangesVisibility s e
      · obtain ⟨s', out, hstep, hstale⟩ :=
          hchanges.stale fromUtf8 hkeyed hdistinct hfresh.relaysFresh
        exact ⟨s', out, hstep, fun h => hstale ⟨h.1, h.2.relaysFresh⟩⟩
      · have hmisses : MissesEntry s e := by
          by_contra hmisses
          exact hG ⟨hchanges, hmisses⟩
        obtain ⟨s', out, hstep, hstale⟩ := hmisses.not_fresh fromUtf8 hfresh
        exact ⟨s', out, hstep, fun h => hstale h.2⟩

/-- While nobody asks for another visibility level and nobody shares an address, the table is fresh. -/
theorem recipients_fresh_iff_conference : Runs.EachState (step QString.fromLatin1)
    RelaysFreshInEachOrder (init {} ∅) conference := by
  apply (recipients_fresh_iff QString.fromLatin1 {} ∅ conference).1.mpr
  refine ⟨by decide +kernel, Runs.eachStep_of_forall ?_ _⟩
  intro e he s
  simp only [conference, List.mem_append, List.mem_cons, List.not_mem_nil, or_false] at he
  rcases he with (h | h) | rfl | rfl | rfl | rfl | rfl
  · exact not_changesVisibility_logIn h
  · exact not_changesVisibility_logIn h
  · exact not_changesVisibility_sendAuthToken _ _ _
  · exact not_changesVisibility_sendAuthToken _ _ _
  · exact not_changesVisibility_request _ _ (by decide)
  · exact not_changesVisibility_request _ _ (by decide)
  · exact not_changesVisibility_request _ _ (by decide)

end Ts3Video.VirtualServer
