import Ts3Video.Server.Handlers

/-!
# Changes of single tables

Most invariants read only a few tables. The transitions are sorted here by what they do to the
tables of clients and to those of channels and members, and carried over to all runs.
-/

namespace Ts3Video.VirtualServer

open Std

/-- While a client leaves channels, memberships and channels go away and nothing else changes. -/
structure Leaves (s s' : VirtualServer) : Prop where
  nextClientId : s'.nextClientId = s.nextClientId
  clients : s'.clients = s.clients
  nextChannelId : s'.nextChannelId = s.nextChannelId
  channel : ∀ {k : ℤ} {channel : ServerChannelEntity},
    s'.id2channel[k]? = some channel → s.id2channel[k]? = some channel
  participant : ∀ {ch c : ℤ}, SetMap.Rel s'.participants ch c → SetMap.Rel s.participants ch c
  tokens : s'.tokens = s.tokens

/-- Leaving one channel after others. -/
theorem Leaves.trans {s t u : VirtualServer} (h₁ : Leaves s t) (h₂ : Leaves t u) : Leaves s u where
  nextClientId := h₂.nextClientId.trans h₁.nextClientId
  clients := h₂.clients.trans h₁.clients
  nextChannelId := h₂.nextChannelId.trans h₁.nextChannelId
  channel h := h₁.channel (h₂.channel h)
  participant h := h₁.participant (h₂.participant h)
  tokens := h₂.tokens.trans h₁.tokens

/-- Leaving one channel. -/
theorem leaves_removeClientFromChannel {s s' : VirtualServer} {c ch : ℤ}
    (h : s.removeClientFromChannel c ch = some s') : Leaves s s' := by
  unfold removeClientFromChannel at h
  dsimp only at h
  split at h
  · split at h
    · contradiction
    next channel hchannel =>
      obtain rfl := Option.some.inj h
      refine ⟨rfl, rfl, rfl, fun hfound => (Table.of_getElem?_erase hfound).2, ?_, rfl⟩
      intro k member hmember
      exact (SetMap.rel_eraseAt.mp (SetMap.rel_dropEmpty.mp hmember)).1
  · obtain rfl := Option.some.inj h
    exact ⟨rfl, rfl, rfl, id, fun hmember => (SetMap.rel_eraseAt.mp hmember).1, rfl⟩

/-- What leaving one channel keeps, leaving all channels keeps. -/
theorem removeClientFromChannels_invariant {P : VirtualServer → Prop} {c : ℤ}
    (hone : ∀ s ch s', P s → s.removeClientFromChannel c ch = some s' → P s') {s s' : VirtualServer}
    (hs : P s) (h : s.removeClientFromChannels c = some s') : P s' :=
  Runs.foldlM_invariant hone _ hs h

/-- What does not depend on channels and members stays the same. -/
theorem removeClientFromChannels_eq {α : Type*} (f : VirtualServer → α)
    (hf : ∀ s participants client2channels id2channel ident2channel,
      f { s with participants, client2channels, id2channel, ident2channel } = f s)
    {s s' : VirtualServer} {c : ℤ} (h : s.removeClientFromChannels c = some s') : f s' = f s := by
  apply removeClientFromChannels_invariant (P := fun t => f t = f s) _ rfl h
  intro t ch t' hsame hremove
  unfold removeClientFromChannel at hremove
  dsimp only at hremove
  split at hremove
  · split at hremove
    · contradiction
    · rw [← Option.some.inj hremove, ← hsame]
      exact hf _ _ _ _ _
  · rw [← Option.some.inj hremove, ← hsame]
    exact hf _ _ _ _ _

/-- Leaving all channels. -/
theorem leaves_removeClientFromChannels {s s' : VirtualServer} {c : ℤ}
    (h : s.removeClientFromChannels c = some s') : Leaves s s' := by
  apply removeClientFromChannels_invariant (P := Leaves s) _ ⟨rfl, rfl, rfl, id, id, rfl⟩ h
  intro t ch t' hleaves hremove
  exact hleaves.trans (leaves_removeClientFromChannel hremove)

/-- The destructor leaves all channels and then forgets the client. -/
theorem leaves_destroy {s s' : VirtualServer} {c : ℤ}
    (h : ClientConnectionHandler.destroy s c = some s') :
    ∃ t, s.removeClientFromChannels c = some t ∧ Leaves s t ∧
      s'.nextClientId = t.nextClientId ∧ s'.clients = t.clients.erase c ∧
      s'.nextChannelId = t.nextChannelId ∧ s'.id2channel = t.id2channel ∧
      s'.ident2channel = t.ident2channel ∧ s'.participants = t.participants ∧
      s'.client2channels = t.client2channels ∧ s'.tokens = t.tokens ∧
      s'.recipients = s'.mediaRecipients := by
  obtain ⟨t, hleave, rfl⟩ := Option.map_eq_some_iff.mp h
  exact ⟨t, hleave, leaves_removeClientFromChannels hleave, rfl, rfl, rfl, rfl, rfl, rfl, rfl, rfl, rfl⟩

/-- The states agree in the tables of channels and members. -/
structure SameChannels (s s' : VirtualServer) : Prop where
  nextChannelId : s'.nextChannelId = s.nextChannelId
  id2channel : s'.id2channel = s.id2channel
  ident2channel : s'.ident2channel = s.ident2channel
  participants : s'.participants = s.participants
  client2channels : s'.client2channels = s.client2channels

/-- The event is a join request that creates a channel with this alias. -/
def CreatesByIdent (s : VirtualServer) (e : Event) (ident : String) : Prop :=
  ∃ c client action params, Admits s e c client action params ∧ IsJoin action ∧
    joinIdent params = ident ∧ ident ≠ "" ∧ s.id2channel[s.joinId params]? = none

/-- The ways in which an event changes the tables of channels and members. -/
inductive ChannelsChange (s : VirtualServer) (e : Event) (s' : VirtualServer) : Prop
  | same (hsame : SameChannels s s')
  | create {c : ℤ} {client : ServerClientEntity} {channel : ServerChannelEntity}
    (hclient : s.clients[c]? = some client) (hauth : client.authenticated = true)
    (hid : channel.id = s.nextChannelId + 1)
    (hident : channel.ident = "" ∨ CreatesByIdent s e channel.ident)
    (hsame : SameChannels ((s.withChannel channel).withMember c channel.id) s')
  | join {c : ℤ} {client : ServerClientEntity} {ch : ℤ} {channel : ServerChannelEntity}
    (hclient : s.clients[c]? = some client) (hauth : client.authenticated = true)
    (hchannel : s.id2channel[ch]? = some channel) (hsame : SameChannels (s.withMember c ch) s')
  | leave {c : ℤ} {t : VirtualServer} (hleave : s.removeClientFromChannels c = some t)
    (hsame : SameChannels t s')

/-- The part of a transition that concerns channels and members. -/
theorem Transition.channelsChange {s s' : VirtualServer} {e : Event} (h : Transition s e s') :
    ChannelsChange s e s' := by
  cases h with
  | quiet hsame =>
    exact .same ⟨hsame.nextChannelId, hsame.id2channel, hsame.ident2channel, hsame.participants,
      hsame.client2channels⟩
  | createChannel hadmits hid hident =>
    exact .create hadmits.live (hadmits.authenticated (by decide)) hid (.inl hident)
      ⟨rfl, rfl, rfl, rfl, rfl⟩
  | createByIdent hadmits haction hid hident hnonempty hnone =>
    have hcreates : CreatesByIdent s e _ :=
      ⟨_, _, _, _, hadmits, haction, hident.symm, hident ▸ hnonempty, hnone⟩
    exact .create hadmits.live (hadmits.authenticated haction.ne_authentication) hid (.inr hcreates)
      ⟨rfl, rfl, rfl, rfl, rfl⟩
  | join hadmits haction hchannel =>
    exact .join hadmits.live (hadmits.authenticated haction.ne_authentication) hchannel
      ⟨rfl, rfl, rfl, rfl, rfl⟩
  | destroy hdestroy =>
    obtain ⟨t, hleave, -, -, -, hnext, hid, hident, hparts, hchans, -, -⟩ := leaves_destroy hdestroy
    exact .leave hleave ⟨hnext, hid, hident, hparts, hchans⟩
  | _ => exact .same ⟨rfl, rfl, rfl, rfl, rfl⟩

/-- The ways in which an event changes the table of clients. -/
inductive ClientsChange (s s' : VirtualServer) : Prop
  | same (hnext : s'.nextClientId = s.nextClientId) (hclients : s'.clients = s.clients)
  | connect (hnext : s'.nextClientId = s.nextClientId + 1)
    (hclients : s'.clients = s.clients.insert (s.nextClientId + 1) { id := s.nextClientId + 1 })
  | update {c : ℤ} {client client' : ServerClientEntity} (hclient : s.clients[c]? = some client)
    (hclients : s'.clients = s.clients.insert c client') (hid : client'.id = client.id)
    (hauth : client.authenticated = true → client'.authenticated = true)
    (hnext : s'.nextClientId = s.nextClientId)
  | remove (c : ℤ) (hnext : s'.nextClientId = s.nextClientId)
    (hclients : s'.clients = s.clients.erase c)

/-- The part of a transition that concerns clients. -/
theorem Transition.clientsChange {s s' : VirtualServer} {e : Event} (h : Transition s e s') :
    ClientsChange s s' := by
  cases h with
  | quiet hsame => exact .same hsame.nextClientId hsame.clients
  | connect => exact .connect rfl rfl
  | login _ _ _ hclient => exact .update hclient rfl rfl (fun _ => rfl) rfl
  | sendMedia hadmits => exact .update hadmits.live rfl rfl id rfl
  | becomeAdmin hadmits => exact .update hadmits.live rfl rfl id rfl
  | changeVisibility hadmits => exact .update hadmits.live rfl rfl id rfl
  | bindToken _ _ _ hclient => exact .update hclient rfl rfl id rfl
  | destroy hdestroy =>
    obtain ⟨t, -, hleaves, hnext, hclients, -⟩ := leaves_destroy hdestroy
    exact .remove _ (hnext.trans hleaves.nextClientId) (hleaves.clients ▸ hclients)
  | _ => exact .same rfl rfl

/-- Where the record of a client after an event comes from. -/
inductive RecordChange (s : VirtualServer) (e : Event) (s' : VirtualServer) (k : ℤ) :
    ServerClientEntity → Prop
  | keep {client : ServerClientEntity} (hclient : s.clients[k]? = some client) :
    RecordChange s e s' k client
  | new (hid : k = s.nextClientId + 1) : RecordChange s e s' k { id := s.nextClientId + 1 }
  | login {client : ServerClientEntity} (name : String) (hclient : s.clients[k]? = some client) :
    RecordChange s e s' k { client with name, authenticated := true }
  | sendMedia {client : ServerClientEntity} {action : ActionBase} {params : QJsonObject}
    (hadmits : Admits s e k client action params) (haction : action ≠ .AuthenticationAction)
    (videoEnabled : Bool) (videoWidth videoHeight : ℤ) (audioInputEnabled : Bool) :
    RecordChange s e s' k { client with videoEnabled, videoWidth, videoHeight, audioInputEnabled }
  | becomeAdmin {client : ServerClientEntity} {params : QJsonObject}
    (hadmits : Admits s e k client .AdminAuthAction params) :
    RecordChange s e s' k { client with admin := true }
  | changeVisibility {client : ServerClientEntity} {params : QJsonObject}
    (hadmits : Admits s e k client .UpdateVisibilityLevelAction params) :
    RecordChange s e s' k { client with visibilityLevel := (params.value "visibilitylevel").toInt }
  | bindToken {client : ServerClientEntity} {token : String} (mediaAddress : QHostAddress)
    (mediaPort : UInt16) (htoken : s.tokens[token]? = some k) (hclient : s.clients[k]? = some client)
    (htokens : s'.tokens = s.tokens.erase token) :
    RecordChange s e s' k { client with mediaAddress, mediaPort }

/-- The part of a transition that concerns the record of one client. -/
theorem Transition.recordChange {s s' : VirtualServer} {e : Event} (h : Transition s e s') {k : ℤ}
    {found : ServerClientEntity} (hfound : s'.clients[k]? = some found) :
    RecordChange s e s' k found := by
  cases h with
  | quiet hsame => exact .keep (hsame.clients ▸ hfound)
  | connect =>
    rcases Table.of_getElem?_insert hfound with ⟨rfl, rfl⟩ | hold
    · exact .new rfl
    · exact .keep hold
  | login name token authentications hclient =>
    rcases Table.of_getElem?_insert hfound with ⟨rfl, rfl⟩ | hold
    · exact .login name hclient
    · exact .keep hold
  | sendMedia hadmits haction =>
    rcases Table.of_getElem?_insert hfound with ⟨rfl, rfl⟩ | hold
    · exact .sendMedia hadmits haction _ _ _ _
    · exact .keep hold
  | becomeAdmin hadmits =>
    rcases Table.of_getElem?_insert hfound with ⟨rfl, rfl⟩ | hold
    · exact .becomeAdmin hadmits
    · exact .keep hold
  | changeVisibility hadmits =>
    rcases Table.of_getElem?_insert hfound with ⟨rfl, rfl⟩ | hold
    · exact .changeVisibility hadmits
    · exact .keep hold
  | bindToken mediaAddress mediaPort htoken hclient =>
    rcases Table.of_getElem?_insert hfound with ⟨rfl, rfl⟩ | hold
    · exact .bindToken mediaAddress mediaPort htoken hclient rfl
    · exact .keep hold
  | destroy hdestroy =>
    obtain ⟨t, -, hleaves, -, hclients, -⟩ := leaves_destroy hdestroy
    rw [hclients, hleaves.clients] at hfound
    exact .keep (Table.of_getElem?_erase hfound).2
  | _ => exact .keep hfound

/-- Records stay stored under their ids. -/
theorem Transition.keyed {s s' : VirtualServer} {e : Event} (h : Transition s e s')
    (hkeyed : s.Keyed) : s'.Keyed := by
  constructor
  · intro k found hfound
    cases h.clientsChange with
    | same _ hclients => exact hkeyed.client (hclients ▸ hfound)
    | connect _ hclients =>
      rcases Table.of_getElem?_insert (hclients ▸ hfound) with ⟨rfl, rfl⟩ | hold
      · rfl
      · exact hkeyed.client hold
    | update hclient hclients hid =>
      rcases Table.of_getElem?_insert (hclients ▸ hfound) with ⟨rfl, rfl⟩ | hold
      · exact hid.trans (hkeyed.client hclient)
      · exact hkeyed.client hold
    | remove c _ hclients =>
      rw [hclients] at hfound
      exact hkeyed.client (Table.of_getElem?_erase hfound).2
  · intro k found hfound
    cases h.channelsChange with
    | same hsame => exact hkeyed.channel (hsame.id2channel ▸ hfound)
    | @create _ _ channel _ _ _ _ hsame =>
      rw [hsame.id2channel] at hfound
      rcases Table.of_getElem?_insert hfound with ⟨rfl, rfl⟩ | hold
      · rfl
      · exact hkeyed.channel hold
    | join _ _ _ hsame => exact hkeyed.channel (hsame.id2channel ▸ hfound)
    | leave hleave hsame =>
      exact hkeyed.channel ((leaves_removeClientFromChannels hleave).channel (hsame.id2channel ▸ hfound))

/-- In the empty server, every record is stored under its id. -/
theorem keyed_init (opts : VirtualServerOptions) (bans : ExtTreeSet String) :
    (init opts bans).Keyed where
  client h := absurd h (Table.getElem?_empty_ne _ _)
  channel h := absurd h (Table.getElem?_empty_ne _ _)

/-- After a step, every record is still stored under its id. -/
theorem Keyed.step {fromUtf8 : List UInt8 → String} {s s' : VirtualServer} {e : Event}
    {out : List Effect} (hkeyed : s.Keyed) (hstep : VirtualServer.step fromUtf8 s e = some (s', out)) :
    s'.Keyed :=
  (transition_of_step hkeyed hstep).keyed hkeyed

/-- In every reachable state, every record is stored under its id. -/
theorem keyed_of_reachable {fromUtf8 : List UInt8 → String} {opts : VirtualServerOptions}
    {bans : ExtTreeSet String} {s : VirtualServer}
    (h : Runs.Reachable (step fromUtf8) (init opts bans) s) : s.Keyed :=
  h.invariant (keyed_init opts bans) fun _ _ _ _ hkeyed hstep => hkeyed.step hstep

/-- A property of the empty server that every transition preserves holds in every state that some
run of the server reaches. -/
theorem reachable_invariant {fromUtf8 : List UInt8 → String} {P : VirtualServer → Prop}
    {opts : VirtualServerOptions} {bans : ExtTreeSet String} (hinit : P (init opts bans))
    (htransition : ∀ s e s', s.Keyed → P s → Transition s e s' → P s') {s : VirtualServer}
    (h : Runs.Reachable (step fromUtf8) (init opts bans) s) : s.Keyed ∧ P s := by
  apply h.invariant (P := fun s => s.Keyed ∧ P s) ⟨keyed_init opts bans, hinit⟩
  intro s e s' out hinv hstep
  have htrans := transition_of_step hinv.1 hstep
  exact ⟨htrans.keyed hinv.1, htransition s e s' hinv.1 hinv.2 htrans⟩

end Ts3Video.VirtualServer
