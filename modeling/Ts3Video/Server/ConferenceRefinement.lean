import Ts3Video.Server.Conference
import Ts3Video.Server.ConnectionLimit

/-!
# The server runs a conference

The tables of the server, read as a conference, change by acts of the conference only, and the event that
brings an act about is one of the person that acts: its connection, its own requests, the answer to its own
authentication, or the end of its connection.
-/

namespace Ts3Video.VirtualServer

open Std ActionBase Conference

/-- The client is an administrator. -/
def IsAdmin (s : VirtualServer) (c : ℤ) : Prop := (s.clients[c]?).map (·.admin) = some true

instance (s : VirtualServer) (c : ℤ) : Decidable (s.IsAdmin c) := inferInstanceAs (Decidable (_ = _))

/-- The tables of the server as a conference. -/
def toConference (s : VirtualServer) : Conference ℤ ℤ where
  seen := {c | s.HandedOut c}
  present := {c | c ∈ s.clients}
  loggedIn := {c | s.IsAuthenticated c}
  admins := {c | s.IsAdmin c}
  opened := {ch | 0 < ch ∧ ch ≤ s.nextChannelId}
  members := {m | SetMap.Rel s.participants m.2 m.1}

/-- The event brings the act about. -/
inductive Explains (s : VirtualServer) : Event → Act ℤ ℤ → Prop
  | arrive (peerAddress : QHostAddress) :
    Explains s (.newConnection peerAddress) (.arrive (s.nextClientId + 1))
  | logIn {index : ℕ} {ts3Allowed : Bool} {pending : PendingAuthentication} (now : String)
    (hpending : s.authentications[index]? = some pending) (hallowed : ¬ s.opts.ts3Enabled ∨ ts3Allowed) :
    Explains s (.authenticationFinished index ts3Allowed now) (.logIn pending.clientId)
  | promote {e : Event} {c : ℤ} {client : ServerClientEntity} {params : QJsonObject}
    (hadmits : Admits s e c client .AdminAuthAction params) : Explains s e (.promote c)
  | createChannel {e : Event} {c : ℤ} {client : ServerClientEntity} {params : QJsonObject}
    (hadmits : Admits s e c client .CreateChannelAction params) :
    Explains s e (.openChannel c (s.nextChannelId + 1))
  | createByIdent {e : Event} {c : ℤ} {client : ServerClientEntity} {action : ActionBase}
    {params : QJsonObject} (hadmits : Admits s e c client action params) (haction : IsJoin action) :
    Explains s e (.openChannel c (s.nextChannelId + 1))
  | join {e : Event} {c : ℤ} {client : ServerClientEntity} {action : ActionBase} {params : QJsonObject}
    (hadmits : Admits s e c client action params) (haction : IsJoin action) (ch : ℤ) :
    Explains s e (.join c ch)
  | leave (c : ℤ) : Explains s (.destroyed c) (.leave c)

/-- The invariants of the server that the conference rests on. -/
structure Consistent (s : VirtualServer) : Prop where
  keyed : s.Keyed
  authorization : s.Authorization
  sessions : s.Sessions
  membership : s.Membership
  channels : 0 ≤ s.nextChannelId

variable {fromUtf8 : List UInt8 → String} {s s' t : VirtualServer} {e : Event} {events : List Event}
  {out : List Effect} {c : ℤ}

/-- The empty server is consistent. -/
theorem consistent_init (opts : VirtualServerOptions) (bans : ExtTreeSet String) :
    (init opts bans).Consistent :=
  ⟨keyed_init opts bans, authorization_init opts bans, sessions_init opts bans, membership_init opts bans,
    Int.le_refl 0⟩

/-- Channels get increasing ids. -/
theorem ChannelsChange.nextChannelId_le (h : ChannelsChange s e s') : s.nextChannelId ≤ s'.nextChannelId := by
  cases h with
  | same hsame => exact hsame.nextChannelId ▸ Int.le_refl _
  | create _ _ hid _ hsame =>
    have hnext := hsame.nextChannelId.trans hid
    omega
  | join _ _ _ hsame => exact hsame.nextChannelId ▸ Int.le_refl _
  | leave hleave hsame =>
    rw [hsame.nextChannelId, (leaves_removeClientFromChannels hleave).nextChannelId]

/-- Every event keeps the server consistent. -/
theorem Consistent.step (h : s.Consistent) (hstep : step fromUtf8 s e = some (s', out)) :
    s'.Consistent := by
  have htrans := transition_of_step h.keyed hstep
  exact ⟨htrans.keyed h.keyed, h.authorization.transition h.keyed htrans,
    h.sessions.change h.keyed (sessionChange_of_step hstep), h.membership.transition htrans,
    h.channels.trans htrans.channelsChange.nextChannelId_le⟩

/-- The server is consistent in every state that it reaches. -/
theorem consistent_reachable {opts : VirtualServerOptions} {bans : ExtTreeSet String}
    (hreach : Runs.Reachable (VirtualServer.step fromUtf8) (init opts bans) s) : s.Consistent :=
  hreach.invariant (consistent_init opts bans) fun _ _ _ _ h hstep => h.step hstep

/-- The channels of the conference are those of the server. -/
theorem Membership.mem_channels_iff (h : s.Membership) {ch : ℤ} :
    ch ∈ s.toConference.channels ↔ ch ∈ s.id2channel :=
  h.live.symm

/-- Nobody has been on the empty server. -/
theorem conference_init (opts : VirtualServerOptions) (bans : ExtTreeSet String) :
    (init opts bans).toConference = Conference.empty := by
  refine Conference.ext ?_ ?_ ?_ ?_ ?_ ?_
  · exact Set.eq_empty_of_forall_notMem fun k hk => by
      have := Int.lt_of_lt_of_le hk.1 hk.2
      contradiction
  · exact Set.eq_empty_of_forall_notMem fun k hk => absurd hk ExtTreeMap.not_mem_empty
  · exact Set.eq_empty_of_forall_notMem fun k hk => by
      obtain ⟨_, hfound, -⟩ := Option.map_eq_some_iff.mp hk
      exact absurd hfound (Table.getElem?_empty_ne _ _)
  · exact Set.eq_empty_of_forall_notMem fun k hk => by
      obtain ⟨_, hfound, -⟩ := Option.map_eq_some_iff.mp hk
      exact absurd hfound (Table.getElem?_empty_ne _ _)
  · exact Set.eq_empty_of_forall_notMem fun k hk => by
      have := Int.lt_of_lt_of_le hk.1 hk.2
      contradiction
  · exact Set.eq_empty_of_forall_notMem fun m hm => absurd hm (SetMap.not_rel_empty _ _)

/-- The conference depends on the ids handed out, the clients and the participants. -/
theorem conference_congr (hnext : s'.nextClientId = s.nextClientId) (hclients : s'.clients = s.clients)
    (hchannel : s'.nextChannelId = s.nextChannelId) (hparticipants : s'.participants = s.participants) :
    s'.toConference = s.toConference := by
  unfold toConference HandedOut IsAuthenticated IsAdmin
  rw [hnext, hclients, hchannel, hparticipants]

/-- A flag in the record of a client is read after the record of one client has changed. -/
theorem map_insert (flag : ServerClientEntity → Bool) (client' : ServerClientEntity) (k : ℤ) :
    ((s.clients.insert c client')[k]?).map flag = some true ↔
      if k = c then flag client' = true else (s.clients[k]?).map flag = some true := by
  rw [Table.getElem?_insert]
  by_cases hk : k = c
  · rw [if_pos hk.symm, if_pos hk, Option.map_some, Option.some.injEq]
  · rw [if_neg (Ne.symm hk), if_neg hk]

variable {client client' : ServerClientEntity}

/-- The rights of one client change. -/
theorem conference_setClient (hclient : s.clients[c]? = some client) :
    (s.setClient c client').toConference = { s.toConference with
      loggedIn := {k | if k = c then client'.authenticated = true else s.IsAuthenticated k}
      admins := {k | if k = c then client'.admin = true else s.IsAdmin k} } := by
  refine Conference.ext rfl (Set.ext fun k => ?_) (Set.ext fun k => ?_) (Set.ext fun k => ?_) rfl rfl
  · change k ∈ s.clients.insert c client' ↔ k ∈ s.clients
    rw [ExtTreeMap.mem_insert, Std.compare_eq_iff_eq]
    exact or_iff_right_of_imp fun hk => hk ▸ Table.mem_of_getElem? hclient
  · exact map_insert (·.authenticated) client' k
  · exact map_insert (·.admin) client' k

/-- Who is in a set does not change by a flag that stays the same. -/
theorem setOf_flag_eq {flag : ServerClientEntity → Bool} (hclient : s.clients[c]? = some client)
    (hflag : flag client' = flag client) :
    {k : ℤ | if k = c then flag client' = true else (s.clients[k]?).map flag = some true} =
      {k | (s.clients[k]?).map flag = some true} := by
  ext k
  change (if k = c then _ else _) ↔ _
  split
  next hk => rw [Set.mem_ofPred_eq, hk, hclient, Option.map_some, Option.some.injEq, hflag]
  next => rfl

/-- The client of a flag that is set now is in the set. -/
theorem setOf_flag_insert {flag : ServerClientEntity → Bool} (hflag : flag client' = true) :
    {k : ℤ | if k = c then flag client' = true else (s.clients[k]?).map flag = some true} =
      insert c {k | (s.clients[k]?).map flag = some true} := by
  ext k
  change (if k = c then _ else _) ↔ k = c ∨ _
  split
  next hk => exact ⟨fun _ => .inl hk, fun _ => hflag⟩
  next hk => exact ⟨.inr, fun h => h.resolve_left hk⟩

/-- The record of a client changes and its rights do not. -/
theorem conference_setClient_same (hclient : s.clients[c]? = some client)
    (hauthenticated : client'.authenticated = client.authenticated) (hadmin : client'.admin = client.admin) :
    (s.setClient c client').toConference = s.toConference := by
  rw [conference_setClient hclient]
  exact Conference.ext rfl rfl (setOf_flag_eq hclient hauthenticated) (setOf_flag_eq hclient hadmin) rfl rfl

/-- A client logs in. -/
theorem conference_logIn (hclient : s.clients[c]? = some client) (hauthenticated : client'.authenticated = true)
    (hadmin : client'.admin = client.admin) :
    Conference.Step s.toConference (.logIn c) (s.setClient c client').toConference := by
  have hafter : (s.setClient c client').toConference =
      { s.toConference with loggedIn := insert c s.toConference.loggedIn } := by
    rw [conference_setClient hclient]
    exact Conference.ext rfl rfl (setOf_flag_insert hauthenticated) (setOf_flag_eq hclient hadmin) rfl rfl
  rw [hafter]
  exact .logIn (Table.mem_of_getElem? hclient)

/-- A client that is logged in becomes an administrator. -/
theorem conference_promote (hclient : s.clients[c]? = some client) (hloggedIn : client.authenticated = true)
    (hauthenticated : client'.authenticated = client.authenticated) (hadmin : client'.admin = true) :
    Conference.Step s.toConference (.promote c) (s.setClient c client').toConference := by
  have hafter : (s.setClient c client').toConference =
      { s.toConference with admins := insert c s.toConference.admins } := by
    rw [conference_setClient hclient]
    exact Conference.ext rfl rfl (setOf_flag_eq hclient hauthenticated) (setOf_flag_insert hadmin) rfl rfl
  rw [hafter]
  refine .promote ?_
  change (s.clients[c]?).map _ = some true
  rw [hclient, Option.map_some, hloggedIn]

/-- A connection arrives at the conference. -/
theorem conference_create (h : s.Consistent) (peerAddress : QHostAddress) :
    Conference.Step s.toConference (.arrive (s.nextClientId + 1))
      (ClientConnectionHandler.create s peerAddress).toConference := by
  have hnext := h.sessions.next
  have hnew : s.nextClientId + 1 ∉ s.toConference.seen := fun hold => by
    have := hold.2
    omega
  have hfree : ∀ flag : ServerClientEntity → Bool, flag { id := s.nextClientId + 1 } = false → ∀ k : ℤ,
      ((s.clients.insert (s.nextClientId + 1) { id := s.nextClientId + 1 })[k]?).map flag = some true ↔
        (s.clients[k]?).map flag = some true := by
    intro flag hflag k
    rw [map_insert]
    split
    next hk => simp [hk, hflag, h.authorization.nextClientId_free]
    next => rfl
  have hafter : (ClientConnectionHandler.create s peerAddress).toConference =
      { s.toConference with
        seen := insert (s.nextClientId + 1) s.toConference.seen
        present := insert (s.nextClientId + 1) s.toConference.present } := by
    refine Conference.ext (Set.ext fun k => ?_) (Set.ext fun k => ?_) (Set.ext (hfree (·.authenticated) rfl))
      (Set.ext (hfree (·.admin) rfl)) rfl rfl
    · change 0 < k ∧ k ≤ s.nextClientId + 1 ↔ k = s.nextClientId + 1 ∨ 0 < k ∧ k ≤ s.nextClientId
      omega
    · change k ∈ s.clients.insert (s.nextClientId + 1) _ ↔ k = s.nextClientId + 1 ∨ k ∈ s.clients
      rw [ExtTreeMap.mem_insert, Std.compare_eq_iff_eq, eq_comm]
  rw [hafter]
  exact .arrive hnew

/-- A client that is logged in opens a channel. -/
theorem conference_openChannel (h : s.Consistent) {channel : ServerChannelEntity}
    (hloggedIn : s.IsAuthenticated c) (hid : channel.id = s.nextChannelId + 1) :
    Conference.Step s.toConference (.openChannel c (s.nextChannelId + 1))
      ((s.withChannel channel).withMember c channel.id).toConference := by
  have hchannels := h.channels
  have hnew : s.nextChannelId + 1 ∉ s.toConference.opened := fun hold => by
    have := hold.2
    omega
  have hafter : ((s.withChannel channel).withMember c channel.id).toConference =
      { s.toConference with
        opened := insert (s.nextChannelId + 1) s.toConference.opened
        members := insert (c, s.nextChannelId + 1) s.toConference.members } := by
    refine Conference.ext rfl rfl rfl rfl (Set.ext fun ch => ?_) (Set.ext fun m => ?_)
    · change 0 < ch ∧ ch ≤ channel.id ↔ ch = s.nextChannelId + 1 ∨ 0 < ch ∧ ch ≤ s.nextChannelId
      omega
    · change SetMap.Rel (SetMap.insertAt s.participants channel.id c) m.2 m.1 ↔
        m = (c, s.nextChannelId + 1) ∨ SetMap.Rel s.participants m.2 m.1
      rw [SetMap.rel_insertAt, Prod.ext_iff, and_comm, hid]
  rw [hafter]
  exact .openChannel hloggedIn hnew

/-- A client that is logged in joins a channel. -/
theorem conference_join (h : s.Consistent) {ch : ℤ} (hloggedIn : s.IsAuthenticated c) (hch : ch ∈ s.id2channel) :
    Conference.Step s.toConference (.join c ch) (s.withMember c ch).toConference := by
  have hafter : (s.withMember c ch).toConference =
      { s.toConference with members := insert (c, ch) s.toConference.members } := by
    refine Conference.ext rfl rfl rfl rfl rfl (Set.ext fun m => ?_)
    change SetMap.Rel (SetMap.insertAt s.participants ch c) m.2 m.1 ↔
      m = (c, ch) ∨ SetMap.Rel s.participants m.2 m.1
    rw [SetMap.rel_insertAt, Prod.ext_iff, and_comm]
  rw [hafter]
  exact .join hloggedIn (h.membership.mem_channels_iff.mpr hch)

/-- A connection that is destroyed leaves the conference. -/
theorem conference_destroy (h : s.Consistent) (hpresent : c ∈ s.clients)
    (hdestroy : ClientConnectionHandler.destroy s c = some s') :
    Conference.Step s.toConference (.leave c) s'.toConference := by
  obtain ⟨t, hleave, hleaves, hnext, hclients, hchannel, -, -, hparticipants, -⟩ := leaves_destroy hdestroy
  obtain ⟨t', hrun, ht⟩ := h.membership.removeClientFromChannels c
  obtain rfl := Option.some.inj (hrun.symm.trans hleave)
  have hflag : ∀ (flag : ServerClientEntity → Bool) (k : ℤ), (s'.clients[k]?).map flag = some true ↔
      (s.clients[k]?).map flag = some true ∧ k ≠ c := by
    intro flag k
    rw [hclients, hleaves.clients, Table.getElem?_erase]
    split
    next hk => simp [hk]
    next hk => simp [Ne.symm hk]
  have hafter : s'.toConference = { s.toConference with
      present := s.toConference.present \ {c}
      loggedIn := s.toConference.loggedIn \ {c}
      admins := s.toConference.admins \ {c}
      members := {m | m ∈ s.toConference.members ∧ m.1 ≠ c} } := by
    refine Conference.ext (Set.ext fun k => ?_) (Set.ext fun k => ?_) (Set.ext (hflag (·.authenticated)))
      (Set.ext (hflag (·.admin))) (Set.ext fun ch => ?_) (Set.ext fun m => ?_)
    · change s'.HandedOut k ↔ s.HandedOut k
      rw [HandedOut, HandedOut, hnext, hleaves.nextClientId]
    · change k ∈ s'.clients ↔ k ∈ s.clients ∧ k ≠ c
      rw [hclients, hleaves.clients, ExtTreeMap.mem_erase, Ne, Std.compare_eq_iff_eq, and_comm, eq_comm]
    · change 0 < ch ∧ ch ≤ s'.nextChannelId ↔ 0 < ch ∧ ch ≤ s.nextChannelId
      rw [hchannel, hleaves.nextChannelId]
    · change SetMap.Rel s'.participants m.2 m.1 ↔ SetMap.Rel s.participants m.2 m.1 ∧ m.1 ≠ c
      rw [hparticipants, ht.symm, h.membership.rel_removeClientFromChannels hleave, h.membership.symm]
  rw [hafter]
  exact .leave hpresent

/-- Only the completion of an authentication issues a token. -/
theorem issuesNothing_of_step (hnot : ∀ index ts3Allowed now, e ≠ .authenticationFinished index ts3Allowed now)
    (hstep : step fromUtf8 s e = some (s', out)) : IssuesNothing out := by
  cases e with
  | newConnection peerAddress =>
    obtain ⟨-, rfl⟩ := Prod.mk.inj (Option.some.inj hstep)
    exact issuesNothing_nil rfl
  | newIncomingRequest c correlationId document =>
    rcases withConnection_cases hstep with ⟨-, rfl⟩ | ⟨client, conn, hclient, hconn, -⟩
    · exact issuesNothing_nil rfl
    · obtain ⟨params, hanswer⟩ := answer_of_request hclient (Table.mem_of_getElem? hconn) hstep
      cases hanswer with
      | ok data hdata _ hresponses =>
        exact issuesNothing_of_responses hresponses (issuedToken?_of_contains hdata)
      | refused status message _ _ hresponses => exact issuesNothing_of_responses hresponses rfl
      | pending username _ _ _ hresponses => exact issuesNothing_nil hresponses
  | authenticationFinished index ts3Allowed now => exact absurd rfl (hnot index ts3Allowed now)
  | readyRead datagram address port =>
    obtain ⟨-, rfl⟩ := Prod.mk.inj (Option.some.inj hstep)
    exact issuesNothing_nil (responses_onReadyRead fromUtf8 s datagram address port)
  | networkUsageUpdated networkUsage =>
    obtain ⟨-, rfl⟩ := Prod.mk.inj (Option.some.inj hstep)
    exact issuesNothing_nil rfl
  | unconnected c =>
    rcases withConnection_cases hstep with ⟨-, rfl⟩ | ⟨client, conn, -, -, hhandle⟩
    · exact issuesNothing_nil rfl
    · obtain ⟨-, rfl⟩ := Prod.mk.inj (Option.some.inj hhandle)
      refine issuesNothing_nil ?_
      simp only [responses, List.filterMap_map]
      exact List.filterMap_eq_nil_iff.mpr fun _ _ => rfl
  | destroyed c =>
    rcases withConnection_cases hstep with ⟨-, rfl⟩ | ⟨client, conn, -, -, hhandle⟩
    · exact issuesNothing_nil rfl
    · split at hhandle
      · obtain ⟨_, -, h⟩ := Option.map_eq_some_iff.mp hhandle
        obtain ⟨-, rfl⟩ := Prod.mk.inj h
        exact issuesNothing_nil rfl
      · obtain ⟨-, rfl⟩ := Prod.mk.inj (Option.some.inj hhandle)
        exact issuesNothing_nil rfl
  | authenticationTimeout c =>
    rcases withConnection_cases hstep with ⟨-, rfl⟩ | ⟨client, conn, -, -, hhandle⟩
    · exact issuesNothing_nil rfl
    · obtain ⟨-, rfl⟩ := Prod.mk.inj (Option.some.inj hhandle)
      refine issuesNothing_nil ?_
      unfold ClientConnectionHandler.onAuthenticationTimeout
      split
      · rfl
      · rfl
  | connectionTimeout c =>
    rcases withConnection_cases hstep with ⟨-, rfl⟩ | ⟨client, conn, -, -, hhandle⟩
    · exact issuesNothing_nil rfl
    · obtain ⟨-, rfl⟩ := Prod.mk.inj (Option.some.inj hhandle)
      exact issuesNothing_nil rfl

/-- A client that is logged in after an event was logged in before, or a token has been issued to it. -/
theorem SessionChange.isAuthenticated (h : SessionChange s s' out) (hissues : IssuesNothing out)
    (hafter : s'.IsAuthenticated c) : s.IsAuthenticated c := by
  cases h with
  | quiet hsessions => exact (hsessions.login c).symm.trans hafter
  | connect peerAddress hstate =>
    subst hstate
    have hcases := (map_insert (·.authenticated) _ c).mp hafter
    split at hcases
    · contradiction
    · exact hcases
  | authenticate pending _ _ hstate =>
    subst hstate
    exact hafter
  | drop index hstate =>
    subst hstate
    exact hafter
  | login hpending hclient hstate htoken hresponses =>
    have hnone := hissues _ (hresponses ▸ List.mem_singleton_self _)
    rw [htoken] at hnone
    contradiction
  | consume htoken htokens hsessions => exact (hsessions.login c).symm.trans hafter
  | destroy k _ _ hclients =>
    rw [IsAuthenticated, hclients, Table.getElem?_erase] at hafter
    split at hafter
    · contradiction
    · exact hafter

/-- A client is logged in by the answer to its own authentication. -/
theorem explains_logIn (hstep : step fromUtf8 s e = some (s', out)) (hbefore : ¬ s.IsAuthenticated c)
    (hafter : s'.IsAuthenticated c) : Explains s e (.logIn c) := by
  by_cases hfinished : ∃ index ts3Allowed now, e = .authenticationFinished index ts3Allowed now
  · obtain ⟨index, ts3Allowed, now, rfl⟩ := hfinished
    simp only [step, onAuthenticationFinished] at hstep
    split at hstep
    · obtain ⟨rfl, -⟩ := Prod.mk.inj (Option.some.inj hstep)
      contradiction
    next pending hpending =>
      by_cases hallowed : ¬ s.opts.ts3Enabled ∨ ts3Allowed
      · cases completion_of_onFinished hstep with
        | refused _ hstate =>
          subst hstate
          contradiction
        | gone _ hstate =>
          subst hstate
          contradiction
        | login _ _ hclient hstate =>
          subst hstate
          have hcases := (map_insert (·.authenticated) _ c).mp hafter
          split at hcases
          next hown => exact hown ▸ .logIn now hpending hallowed
          next => exact absurd hcases hbefore
      · simp only [hallowed, AuthenticationAction.onFinished] at hstep
        obtain ⟨rfl, -⟩ := Prod.mk.inj (Option.some.inj hstep)
        contradiction
  · have hnot : ∀ index ts3Allowed now, e ≠ .authenticationFinished index ts3Allowed now :=
      fun index ts3Allowed now heq => hfinished ⟨index, ts3Allowed, now, heq⟩
    exact absurd ((sessionChange_of_step hstep).isAuthenticated (issuesNothing_of_step hnot hstep) hafter)
      hbefore

/-- A request that is admitted is one of a client that is logged in. -/
theorem Admits.isAuthenticated {client : ServerClientEntity} {action : ActionBase} {params : QJsonObject}
    (h : Admits s e c client action params) (haction : action ≠ .AuthenticationAction) :
    s.IsAuthenticated c := by
  rw [IsAuthenticated, h.live, Option.map_some, h.authenticated haction]

/-- Every event is an act of the conference or leaves it alone. -/
theorem conference_step (h : s.Consistent) (hstep : step fromUtf8 s e = some (s', out)) :
    s'.toConference = s.toConference ∨
      ∃ act, Explains s e act ∧ Conference.Step s.toConference act s'.toConference := by
  cases transition_of_step h.keyed hstep with
  | quiet hsame =>
    exact .inl (conference_congr hsame.nextClientId hsame.clients hsame.nextChannelId hsame.participants)
  | connect peerAddress => exact .inr ⟨_, .arrive peerAddress, conference_create h peerAddress⟩
  | @login _ c client name token authentications hclient =>
    by_cases hbefore : s.IsAuthenticated c
    · rw [IsAuthenticated, hclient, Option.map_some, Option.some.injEq] at hbefore
      exact .inl (conference_setClient_same hclient hbefore.symm rfl)
    · have hact : Conference.Step s.toConference (.logIn c)
          (s.setClient c { client with name, authenticated := true }).toConference :=
        conference_logIn hclient rfl rfl
      have hafter : (s.setClient c { client with name, authenticated := true }).IsAuthenticated c :=
        (map_insert (·.authenticated) _ c).mpr (by rw [if_pos rfl])
      exact .inr ⟨_, explains_logIn hstep hbefore hafter, hact⟩
  | sendMedia hadmits => exact .inl (conference_setClient_same hadmits.live rfl rfl)
  | becomeAdmin hadmits =>
    exact .inr ⟨_, .promote hadmits,
      conference_promote hadmits.live (hadmits.authenticated (by decide)) rfl rfl⟩
  | changeVisibility hadmits => exact .inl (conference_setClient_same hadmits.live rfl rfl)
  | createChannel hadmits hid =>
    exact .inr ⟨_, .createChannel hadmits, conference_openChannel h (hadmits.isAuthenticated (by decide)) hid⟩
  | createByIdent hadmits haction hid =>
    exact .inr ⟨_, .createByIdent hadmits haction,
      conference_openChannel h (hadmits.isAuthenticated haction.ne_authentication) hid⟩
  | @join _ c _ _ _ ch _ hadmits haction hchannel =>
    exact .inr ⟨_, .join hadmits haction ch, conference_join h
      (hadmits.isAuthenticated haction.ne_authentication) (Table.mem_of_getElem? hchannel)⟩
  | bindToken _ _ _ hclient => exact .inl (conference_setClient_same hclient rfl rfl)
  | @destroy c _ hdestroy =>
    by_cases hpresent : c ∈ s.clients
    · exact .inr ⟨_, .leave c, conference_destroy h hpresent hdestroy⟩
    · rcases withConnection_cases hstep with ⟨rfl, -⟩ | ⟨client, _, hclient, -⟩
      · exact .inl rfl
      · exact absurd (Table.mem_of_getElem? hclient) hpresent
  | _ => exact .inl rfl

/-- A run of the server leads the conference on by acts that its events explain, in their order. -/
theorem Consistent.exists_acts (h : s.Consistent)
    (hrun : Runs.run (VirtualServer.step fromUtf8) s events = some (t, out)) :
    ∃ explained acts, explained.Sublist (Runs.visited (VirtualServer.step fromUtf8) s events) ∧
      List.Forall₂ (fun entry act => Explains entry.1 entry.2 act) explained acts ∧
      Simulation.Leads Conference.Step s.toConference acts t.toConference :=
  Simulation.exists_leads toConference (fun _ _ _ _ h hstep => h.step hstep)
    (fun _ _ _ _ h hstep => conference_step h hstep) h hrun

/-- Every run of the server is a run of the conference: the acts are explained by events of the run, in their
order, they are allowed, and they say who is there, who is logged in, who is an administrator and who is a
member of which channel. The channels of the server are those with a member. -/
theorem runs_conference {opts : VirtualServerOptions} {bans : ExtTreeSet String}
    (hrun : Runs.run (step fromUtf8) (init opts bans) events = some (t, out)) :
    ∃ explained acts, explained.Sublist (Runs.visited (step fromUtf8) (init opts bans) events) ∧
      List.Forall₂ (fun entry act => Explains entry.1 entry.2 act) explained acts ∧
      Simulation.Leads Conference.Step Conference.empty acts t.toConference ∧
      Conference.Tells acts t.toConference ∧ t.toConference.Valid ∧
      ∀ ch, ch ∈ t.id2channel ↔ ch ∈ t.toConference.channels := by
  obtain ⟨explained, acts, hsublist, hexplained, hleads⟩ := (consistent_init opts bans).exists_acts hrun
  rw [conference_init] at hleads
  obtain ⟨htells, hvalid⟩ := Conference.of_leads_empty hleads
  have hconsistent : t.Consistent := consistent_reachable ⟨events, out, hrun⟩
  exact ⟨explained, acts, hsublist, hexplained, hleads, htells, hvalid,
    fun ch => hconsistent.membership.mem_channels_iff.symm⟩

/-- Of two members of a channel, the one that opened it has left. -/
theorem runs_conference_oneMemberLeft : ∃ t out acts,
    Runs.run (step fun _ => "") (init {} ∅) oneMemberLeft = some (t, out) ∧
      Simulation.Leads Conference.Step Conference.empty acts t.toConference ∧ .leave 1 ∈ acts ∧
      (2, 1) ∈ t.toConference.members := by
  have hfacts : (Runs.run (step fun _ => "") (init {} ∅) oneMemberLeft).map (fun done =>
      (decide (0 < (1 : ℤ) ∧ 1 ≤ done.1.nextClientId), decide ((1 : ℤ) ∈ done.1.clients),
        decide (SetMap.Rel done.1.participants 1 2))) = some (true, false, true) := by decide +kernel
  obtain ⟨⟨t, out⟩, hrun, hfacts⟩ := Option.map_eq_some_iff.mp hfacts
  obtain ⟨hseen, hfacts⟩ := Prod.mk.inj hfacts
  obtain ⟨hgone, hmember⟩ := Prod.mk.inj hfacts
  obtain ⟨explained, acts, -, -, hleads, htells, -, -⟩ := runs_conference hrun
  have hseen : 0 < (1 : ℤ) ∧ 1 ≤ t.nextClientId := of_decide_eq_true hseen
  have hmember : SetMap.Rel t.participants 1 2 := of_decide_eq_true hmember
  refine ⟨t, out, acts, hrun, hleads, ?_, hmember⟩
  by_contra hstays
  exact of_decide_eq_false hgone ((htells.present 1).mpr ⟨(htells.seen 1).mp hseen, hstays⟩)

/-- The event is one of the client: a request that it sends, or the answer to its authentication. -/
def OwnEvent (c : ℤ) (s : VirtualServer) : Event → Prop
  | .newIncomingRequest k _ _ => k = c
  | .authenticationFinished index _ _ => (s.authentications[index]?).map (·.clientId) = some c
  | _ => False

/-- Acts other than an arrival and a departure are brought about by events of the client that acts. -/
theorem Explains.cases {act : Conference.Act ℤ ℤ} (h : Explains s e act) :
    act = .arrive act.person ∨ act = .leave act.person ∧ e = .destroyed act.person ∨
      OwnEvent act.person s e := by
  have hadmitted : ∀ {c : ℤ} {client : ServerClientEntity} {action : ActionBase} {params : QJsonObject},
      Admits s e c client action params → OwnEvent c s e := by
    intro c client action params hadmits
    obtain ⟨_, _, rfl, -⟩ := hadmits.dispatch
    exact rfl
  cases h with
  | arrive => exact .inl rfl
  | logIn now hpending =>
    refine .inr (.inr ?_)
    change (s.authentications[_]?).map _ = some _
    rw [hpending]
    rfl
  | promote hadmits => exact .inr (.inr (hadmitted hadmits))
  | createChannel hadmits => exact .inr (.inr (hadmitted hadmits))
  | createByIdent hadmits => exact .inr (.inr (hadmitted hadmits))
  | join hadmits => exact .inr (.inr (hadmitted hadmits))
  | leave => exact .inr (.inl ⟨rfl, rfl⟩)

end Ts3Video.VirtualServer
