import Ts3Video.Server.Authorization
import Ts3Video.Server.Lookups
import Ts3Video.Server.MediaView

/-!
# When the relay table is stale

The requests that change what the table of recipients is computed from compute it again. The change
of a visibility level is the exception: senders that see the client no longer, or see it now, go on
with the table that they had.
-/

namespace Ts3Video.VirtualServer

open Std

/-- The media socket holds the table that would be computed now, in the order of the keys. -/
def Fresh (s : VirtualServer) : Prop := s.recipients = s.mediaRecipients

/-- The media socket holds a table that no lookup tells apart from the one that would be computed
now. -/
def RelaysFresh (s : VirtualServer) : Prop := s.recipients.SameRelay s.mediaRecipients

/-- The request changes whether a client that sends sees the client with media among its siblings. -/
def ChangesVisibility (s : VirtualServer) (e : Event) : Prop :=
  ∃ (c k ch : ℤ) (client sender : ServerClientEntity) (params : QJsonObject),
    Admits s e c client .UpdateVisibilityLevelAction params ∧ client.hasMedia = true ∧
      s.clients[k]? = some sender ∧ IsSender sender ∧ c ≠ k ∧
      SetMap.Rel s.client2channels k ch ∧ SetMap.Rel s.participants ch c ∧
      sender.isAllowedToSee { client with visibilityLevel := (params.value "visibilitylevel").toInt } ≠
        sender.isAllowedToSee client

/-- The ways in which an event changes the table that is held and the one that would be computed. -/
inductive RecipientsChange (s : VirtualServer) (e : Event) (s' : VirtualServer) : Prop
  | compute (hfresh : s'.Fresh)
  | same (hrecipients : s'.recipients = s.recipients)
    (hcomputed : s'.mediaRecipients = s.mediaRecipients)
  | lookupSender {datagram : List UInt8} {address : QHostAddress} {port : UInt16}
    (hevent : e = .readyRead datagram address port)
    (hparse : MediaSocketHandler.parse (datagram.take MediaSocketHandler.bufferSize) = .relay)
    (hrecipients : s'.recipients =
      s.recipients.insertSender address port ((s.recipients.sender? address port).getD {}))
    (hcomputed : s'.mediaRecipients = s.mediaRecipients)
  | lookupReceiver {datagram : List UInt8} {address : QHostAddress} {port : UInt16} {sender : ℤ}
    (hevent : e = .readyRead datagram address port)
    (hparse : MediaSocketHandler.parse (datagram.take MediaSocketHandler.bufferSize) =
      .recover sender)
    (hrecipients : s'.recipients = s.recipients.insertReceiver sender
      ((s.recipients.clientid2receiver[sender]?).getD {}))
    (hcomputed : s'.mediaRecipients = s.mediaRecipients)

variable {s s' : VirtualServer} {e : Event}

/-- A fresh table relays as one. -/
theorem Fresh.relaysFresh (h : s.Fresh) : s.RelaysFresh := by
  rw [RelaysFresh, h]
  exact .refl _

/-- The table of the empty server is fresh. -/
theorem fresh_init (opts : VirtualServerOptions) (bans : ExtTreeSet String) :
    (init opts bans).Fresh := rfl

/-- States with the same tables compute the same recipients. -/
theorem SameTables.mediaRecipients (h : SameTables s s') (hkeyed : s.Keyed) :
    s'.mediaRecipients = s.mediaRecipients := by
  have hview : SameMediaView s s' :=
    ⟨h.participants, h.client2channels, h.sender2receiver, fun k => by rw [h.clients],
      fun _ _ _ _ _ _ _ => by rw [isVisible, isVisible, h.clients]⟩
  exact hview.mediaRecipients hkeyed

/-- Every event but a change of visibility computes the table if it has to. -/
theorem Transition.recipientsChange (h : Transition s e s') (hkeyed : s.Keyed)
    (hnew : s.clients[s.nextClientId + 1]? = none) (hguard : ¬ ChangesVisibility s e) :
    RecipientsChange s e s' := by
  cases h with
  | quiet hsame => exact .same hsame.recipients (hsame.mediaRecipients hkeyed)
  | connect peerAddress =>
    exact .same rfl ((sameMediaView_create peerAddress hnew).mediaRecipients hkeyed)
  | @login _ c client name token authentications hclient =>
    have hview : SameMediaView s (s.setClient c { client with name, authenticated := true }) :=
      sameMediaView_setClient hclient rfl rfl fun _ _ _ _ _ _ _ _ _ => rfl
    exact .same rfl (hview.mediaRecipients hkeyed)
  | @becomeAdmin _ c client params hadmits =>
    have hview : SameMediaView s (s.setClient c { client with admin := true }) :=
      sameMediaView_setClient hadmits.live rfl rfl fun _ _ _ _ _ _ _ _ _ => rfl
    exact .same rfl (hview.mediaRecipients hkeyed)
  | @changeVisibility _ c client params hadmits =>
    have hview : SameMediaView s (s.setClient c
        { client with visibilityLevel := (params.value "visibilitylevel").toInt }) := by
      refine sameMediaView_setClient hadmits.live rfl rfl ?_
      intro hmedia k ch sender hsender hsends hne hjoined hmember
      by_contra hchanges
      exact hguard ⟨c, k, ch, client, sender, params, hadmits, hmedia, hsender, hsends, hne, hjoined,
        hmember, hchanges⟩
    exact .same rfl (hview.mediaRecipients hkeyed)
  | dropToken => exact .same rfl rfl
  | lookupSender hparse => exact .lookupSender rfl hparse rfl rfl
  | lookupReceiver hparse => exact .lookupReceiver rfl hparse rfl rfl
  | destroy hdestroy =>
    obtain ⟨t, -, -, -, -, -, -, -, -, -, -, hfresh⟩ := leaves_destroy hdestroy
    exact .compute hfresh
  | _ => exact .compute rfl

/-- A fresh table stays so, unless an entry is missed. -/
theorem Fresh.recipientsChange (h : s.Fresh) (hguard : ¬ MissesEntry s e)
    (hchange : RecipientsChange s e s') : s'.Fresh := by
  cases hchange with
  | compute hfresh => exact hfresh
  | same hrecipients hcomputed => exact hrecipients.trans (h.trans hcomputed.symm)
  | @lookupSender datagram address port hevent hparse hrecipients hcomputed =>
    obtain ⟨sender, hsender⟩ : ∃ sender, s.recipients.sender? address port = some sender := by
      rw [← Option.ne_none_iff_exists']
      exact fun hnone => hguard (hevent ▸ .sender hparse hnone)
    rw [hsender, Option.getD_some, MediaRecipients.insertSender_of_sender? hsender] at hrecipients
    exact hrecipients.trans (h.trans hcomputed.symm)
  | @lookupReceiver datagram address port sender hevent hparse hrecipients hcomputed =>
    obtain ⟨receiver, hreceiver⟩ :
        ∃ receiver, s.recipients.clientid2receiver[sender]? = some receiver := by
      rw [← Option.ne_none_iff_exists']
      exact fun hnone => hguard (hevent ▸ .receiver hparse hnone)
    rw [hreceiver, Option.getD_some, MediaRecipients.insertReceiver_of_getElem? hreceiver]
      at hrecipients
    exact hrecipients.trans (h.trans hcomputed.symm)

/-- A table that relays as a fresh one goes on to do so. -/
theorem RelaysFresh.recipientsChange (h : s.RelaysFresh) (hchange : RecipientsChange s e s') :
    s'.RelaysFresh := by
  unfold RelaysFresh at h ⊢
  cases hchange with
  | compute hfresh => exact hfresh.relaysFresh
  | same hrecipients hcomputed =>
    rw [hrecipients, hcomputed]
    exact h
  | lookupSender _ _ hrecipients hcomputed =>
    rw [hrecipients, hcomputed]
    exact h.lookupSender _ _
  | lookupReceiver _ _ hrecipients hcomputed =>
    rw [hrecipients, hcomputed]
    exact h.lookupReceiver _

/-- What the table of a fresh server and every change of the table keep, runs of guarded steps
keep. -/
theorem eachState_of_recipientsChange {P : VirtualServer → Prop} {G : VirtualServer → Event → Prop}
    (fromUtf8 : List UInt8 → String) (opts : VirtualServerOptions) (bans : ExtTreeSet String)
    (hinit : P (init opts bans)) (hvisible : ∀ s e, G s e → ¬ ChangesVisibility s e)
    (hkeep : ∀ s e s', P s → G s e → RecipientsChange s e s' → P s') {events : List Event}
    (hsteps : Runs.EachStep (step fromUtf8) G (init opts bans) events) :
    Runs.EachState (step fromUtf8) P (init opts bans) events := by
  have hstates : Runs.EachState (step fromUtf8)
      (fun s => s.Keyed ∧ s.Authorization ∧ P s) (init opts bans) events := by
    apply Runs.eachState_of_eachStep _ ⟨keyed_init opts bans, authorization_init opts bans, hinit⟩
      hsteps
    rintro s e s' out ⟨hkeyed, hauth, hP⟩ hG hstep
    have htrans := transition_of_step hkeyed hstep
    have hchange := htrans.recipientsChange hkeyed hauth.nextClientId_free (hvisible s e hG)
    exact ⟨htrans.keyed hkeyed, hauth.transition hkeyed htrans, hkeep s e s' hP hG hchange⟩
  exact hstates.mono fun s h => h.2.2

end Ts3Video.VirtualServer
