import Ts3Video.Server.Tables

/-!
# Channel membership

The tables of participants and of joined channels store one relation in its two directions. A
channel lives exactly as long as it has a participant, so the destructor of a connection always
finds the channels that it leaves.
-/

namespace Ts3Video.VirtualServer

open Std

/-- The two tables of memberships agree with each other and with the table of channels. -/
structure Membership (s : VirtualServer) : Prop where
  symm : ∀ {ch c : ℤ}, SetMap.Rel s.participants ch c ↔ SetMap.Rel s.client2channels c ch
  live : ∀ {ch : ℤ}, ch ∈ s.id2channel ↔ ∃ c, SetMap.Rel s.participants ch c
  participants : SetMap.NoEmptyRow s.participants
  client2channels : SetMap.NoEmptyRow s.client2channels
  bound : ∀ {ch : ℤ}, ch ∈ s.id2channel → ch ≤ s.nextChannelId

/-- The empty server has no memberships. -/
theorem membership_init (opts : VirtualServerOptions) (bans : ExtTreeSet String) :
    (init opts bans).Membership where
  symm := ⟨fun h => absurd h (SetMap.not_rel_empty _ _), fun h => absurd h (SetMap.not_rel_empty _ _)⟩
  live := ⟨fun h => absurd h ExtTreeMap.not_mem_empty,
    fun ⟨c, h⟩ => absurd h (SetMap.not_rel_empty _ c)⟩
  participants := SetMap.noEmptyRow_empty
  client2channels := SetMap.noEmptyRow_empty
  bound h := absurd h ExtTreeMap.not_mem_empty

/-- Only the tables of channels and members matter. -/
theorem Membership.of_sameChannels {s s' : VirtualServer} (h : s.Membership)
    (hsame : SameChannels s s') : s'.Membership where
  symm := by
    rw [hsame.participants, hsame.client2channels]
    exact h.symm
  live := by
    rw [hsame.participants, hsame.id2channel]
    exact h.live
  participants := hsame.participants ▸ h.participants
  client2channels := hsame.client2channels ▸ h.client2channels
  bound := by
    rw [hsame.id2channel, hsame.nextChannelId]
    exact h.bound

/-- Joining a channel that is there. -/
theorem Membership.withMember {s : VirtualServer} (h : s.Membership) {ch : ℤ}
    (hch : ch ∈ s.id2channel) (c : ℤ) : (s.withMember c ch).Membership where
  symm := by
    intro ch' c'
    change SetMap.Rel (SetMap.insertAt s.participants ch c) ch' c' ↔
      SetMap.Rel (SetMap.insertAt s.client2channels c ch) c' ch'
    rw [SetMap.rel_insertAt, SetMap.rel_insertAt, h.symm, and_comm]
  live := by
    intro ch'
    change ch' ∈ s.id2channel ↔ ∃ c', SetMap.Rel (SetMap.insertAt s.participants ch c) ch' c'
    simp only [SetMap.rel_insertAt, exists_or, ← h.live]
    constructor
    · exact .inr
    · rintro (⟨c', rfl, -⟩ | hch')
      · exact hch
      · exact hch'
  participants := h.participants.insertAt ch c
  client2channels := h.client2channels.insertAt c ch
  bound := h.bound

/-- Creating a channel under the next id and joining it. -/
theorem Membership.withChannel {s : VirtualServer} (h : s.Membership) {channel : ServerChannelEntity}
    (hid : channel.id = s.nextChannelId + 1) (c : ℤ) :
    ((s.withChannel channel).withMember c channel.id).Membership where
  symm := by
    intro ch' c'
    change SetMap.Rel (SetMap.insertAt s.participants channel.id c) ch' c' ↔
      SetMap.Rel (SetMap.insertAt s.client2channels c channel.id) c' ch'
    rw [SetMap.rel_insertAt, SetMap.rel_insertAt, h.symm, and_comm]
  live := by
    intro ch'
    change ch' ∈ s.id2channel.insert channel.id channel ↔
      ∃ c', SetMap.Rel (SetMap.insertAt s.participants channel.id c) ch' c'
    simp only [SetMap.rel_insertAt, exists_or, ← h.live, ExtTreeMap.mem_insert,
      Std.compare_eq_iff_eq, eq_comm (a := channel.id), exists_and_left, exists_eq, and_true]
  participants := h.participants.insertAt channel.id c
  client2channels := h.client2channels.insertAt c channel.id
  bound := by
    intro ch' hch'
    change ch' ∈ s.id2channel.insert channel.id channel at hch'
    change ch' ≤ channel.id
    rw [ExtTreeMap.mem_insert, Std.compare_eq_iff_eq] at hch'
    rcases hch' with rfl | hch'
    · exact Int.le_refl _
    · have := h.bound hch'
      omega

/-- A member leaves a channel: the channel is found, and exactly this membership ends. -/
theorem Membership.removeClientFromChannel {s : VirtualServer} (h : s.Membership) {c ch : ℤ}
    (hmember : SetMap.Rel s.client2channels c ch) :
    ∃ s', s.removeClientFromChannel c ch = some s' ∧ s'.Membership ∧
      ∀ ch' c', SetMap.Rel s'.client2channels c' ch' ↔
        SetMap.Rel s.client2channels c' ch' ∧ ¬(c' = c ∧ ch' = ch) := by
  have hch : ch ∈ s.id2channel := h.live.mpr ⟨c, h.symm.mpr hmember⟩
  have hsymm : ∀ {ch' c' : ℤ}, SetMap.Rel (SetMap.eraseAt s.participants ch c) ch' c' ↔
      SetMap.Rel (SetMap.dropEmpty (SetMap.eraseAt s.client2channels c ch) c) c' ch' := by
    intro ch' c'
    rw [SetMap.rel_dropEmpty, SetMap.rel_eraseAt, SetMap.rel_eraseAt, h.symm, and_comm (a := ch' = ch)]
  have hclient2channels := h.client2channels.dropEmpty_eraseAt c ch
  unfold VirtualServer.removeClientFromChannel
  dsimp only
  split
  next hempty =>
    rw [SetMap.isEmpty_value_iff] at hempty
    rw [ExtTreeMap.getElem?_eq_some_getElem hch]
    refine ⟨_, rfl, ⟨?_, ?_, ?_, hclient2channels, ?_⟩, ?_⟩
    · intro ch' c'
      rw [SetMap.rel_dropEmpty]
      exact hsymm
    · intro ch'
      simp only [SetMap.rel_dropEmpty, ExtTreeMap.mem_erase, Ne, Std.compare_eq_iff_eq, h.live,
        SetMap.rel_eraseAt]
      constructor
      · rintro ⟨hne, c', hc'⟩
        exact ⟨c', hc', fun heq => hne heq.1.symm⟩
      · rintro ⟨c', hc', hne⟩
        refine ⟨?_, c', hc'⟩
        rintro rfl
        exact hempty c' (SetMap.rel_eraseAt.mpr ⟨hc', hne⟩)
    · exact h.participants.dropEmpty_eraseAt ch c
    · intro ch' hch'
      exact h.bound (ExtTreeMap.mem_of_mem_erase hch')
    · intro ch' c'
      rw [SetMap.rel_dropEmpty, SetMap.rel_eraseAt]
  next hnonempty =>
    rw [SetMap.isEmpty_value_iff] at hnonempty
    have hdrop : SetMap.dropEmpty (SetMap.eraseAt s.participants ch c) ch =
        SetMap.eraseAt s.participants ch c := by
      rw [SetMap.dropEmpty, if_neg (by rwa [SetMap.isEmpty_value_iff])]
    refine ⟨_, rfl, ⟨hsymm, ?_, ?_, hclient2channels, h.bound⟩, ?_⟩
    · intro ch'
      rw [h.live]
      constructor
      · rintro ⟨c', hc'⟩
        by_cases heq : c' = c ∧ ch' = ch
        · obtain ⟨rfl, rfl⟩ := heq
          simpa using hnonempty
        · exact ⟨c', SetMap.rel_eraseAt.mpr ⟨hc', fun hne => heq hne.symm⟩⟩
      · rintro ⟨c', hc'⟩
        exact ⟨c', (SetMap.rel_eraseAt.mp hc').1⟩
    · exact hdrop ▸ h.participants.dropEmpty_eraseAt ch c
    · intro ch' c'
      rw [SetMap.rel_dropEmpty, SetMap.rel_eraseAt]

/-- A client leaves a list of its channels one after the other, and exactly these memberships end. -/
theorem Membership.foldlM_removeClientFromChannel_rel {c : ℤ} (channelIds : List ℤ)
    {s : VirtualServer} (h : s.Membership) (hnodup : channelIds.Nodup)
    (hmember : ∀ ch ∈ channelIds, SetMap.Rel s.client2channels c ch) :
    ∃ s', channelIds.foldlM (fun s ch => s.removeClientFromChannel c ch) s = some s' ∧
      s'.Membership ∧ ∀ ch' c', SetMap.Rel s'.client2channels c' ch' ↔
        SetMap.Rel s.client2channels c' ch' ∧ ¬(c' = c ∧ ch' ∈ channelIds) := by
  induction channelIds generalizing s with
  | nil => exact ⟨s, rfl, h, fun ch' c' => by simp⟩
  | cons ch channelIds ih =>
    rw [List.nodup_cons] at hnodup
    obtain ⟨t, hone, ht, hrel⟩ := h.removeClientFromChannel (hmember ch List.mem_cons_self)
    have hrest : ∀ ch' ∈ channelIds, SetMap.Rel t.client2channels c ch' := by
      intro ch' hch'
      rw [hrel]
      refine ⟨hmember ch' (List.mem_cons_of_mem _ hch'), ?_⟩
      rintro ⟨-, rfl⟩
      exact hnodup.1 hch'
    obtain ⟨s', hrun, hs', hrel'⟩ := ih ht hnodup.2 hrest
    refine ⟨s', by rw [List.foldlM_cons, hone]; exact hrun, hs', fun ch' c' => ?_⟩
    rw [hrel', hrel, List.mem_cons, and_assoc, and_or_left, not_or]

/-- A client leaves a list of its channels one after the other. -/
theorem Membership.foldlM_removeClientFromChannel {c : ℤ} (channelIds : List ℤ) {s : VirtualServer}
    (h : s.Membership) (hnodup : channelIds.Nodup)
    (hmember : ∀ ch ∈ channelIds, SetMap.Rel s.client2channels c ch) :
    ∃ s', channelIds.foldlM (fun s ch => s.removeClientFromChannel c ch) s = some s' ∧
      s'.Membership := by
  obtain ⟨s', hrun, hs', -⟩ := h.foldlM_removeClientFromChannel_rel channelIds hnodup hmember
  exact ⟨s', hrun, hs'⟩

/-- A client can leave all its channels. -/
theorem Membership.removeClientFromChannels {s : VirtualServer} (h : s.Membership) (c : ℤ) :
    ∃ s', s.removeClientFromChannels c = some s' ∧ s'.Membership := by
  apply h.foldlM_removeClientFromChannel
  · exact SetMap.nodup_toList _
  · intro ch hch
    exact ExtTreeSet.mem_toList.mp hch

/-- A client that has left all its channels is not a member any longer, and the others still are. -/
theorem Membership.rel_removeClientFromChannels {s s' : VirtualServer} (h : s.Membership) {c : ℤ}
    (hleave : s.removeClientFromChannels c = some s') (c' ch' : ℤ) :
    SetMap.Rel s'.client2channels c' ch' ↔ SetMap.Rel s.client2channels c' ch' ∧ c' ≠ c := by
  obtain ⟨t, hrun, -, hrel⟩ := h.foldlM_removeClientFromChannel_rel
    (SetMap.value s.client2channels c).toList (SetMap.nodup_toList _)
    fun ch hch => ExtTreeSet.mem_toList.mp hch
  obtain rfl := Option.some.inj (hrun.symm.trans hleave)
  rw [hrel, ExtTreeSet.mem_toList]
  constructor
  · rintro ⟨hmember, hnot⟩
    refine ⟨hmember, ?_⟩
    rintro rfl
    exact hnot ⟨rfl, hmember⟩
  · rintro ⟨hmember, hne⟩
    exact ⟨hmember, fun hc => hne hc.1⟩

/-- Every event preserves the agreement of the tables. -/
theorem Membership.transition {s s' : VirtualServer} {e : Event} (h : s.Membership)
    (htrans : Transition s e s') : s'.Membership := by
  cases htrans.channelsChange with
  | same hsame => exact h.of_sameChannels hsame
  | create _ _ hid _ hsame => exact (h.withChannel hid _).of_sameChannels hsame
  | join _ _ hchannel hsame =>
    have hch := Table.mem_of_getElem? hchannel
    exact (h.withMember hch _).of_sameChannels hsame
  | leave hleave hsame =>
    obtain ⟨t, hrun, ht⟩ := h.removeClientFromChannels _
    obtain rfl := Option.some.inj (hleave.symm.trans hrun)
    exact ht.of_sameChannels hsame

/-- The members of all channels are clients. -/
def MembersLive (s : VirtualServer) : Prop :=
  ∀ ch c : ℤ, SetMap.Rel s.participants ch c → c ∈ s.clients

/-- A client that becomes a member is there. -/
theorem MembersLive.insertAt {s s' : VirtualServer} (h : s.MembersLive) {c ch : ℤ}
    {client : ServerClientEntity} (hclient : s.clients[c]? = some client)
    (hclients : s'.clients = s.clients)
    (hparticipants : s'.participants = SetMap.insertAt s.participants ch c) : s'.MembersLive := by
  intro ch' c' hmember
  rw [hparticipants] at hmember
  rw [hclients]
  rcases SetMap.rel_insertAt.mp hmember with ⟨-, rfl⟩ | hold
  · exact Table.mem_of_getElem? hclient
  · exact h ch' c' hold

/-- Members remain clients. -/
theorem MembersLive.transition {s s' : VirtualServer} {e : Event} (h : s.MembersLive)
    (hmembership : s.Membership) (htrans : Transition s e s') : s'.MembersLive := by
  have hinsert : ∀ {t : VirtualServer} (k : ℤ) (client : ServerClientEntity),
      t.participants = s.participants → t.clients = s.clients.insert k client → t.MembersLive := by
    intro t k client hparticipants hclients ch c hmember
    rw [hclients, ExtTreeMap.mem_insert]
    exact .inr (h ch c (hparticipants ▸ hmember))
  cases htrans with
  | quiet hsame =>
    intro ch c hmember
    rw [hsame.clients]
    exact h ch c (hsame.participants ▸ hmember)
  | connect => exact hinsert _ _ rfl rfl
  | login => exact hinsert _ _ rfl rfl
  | sendMedia => exact hinsert _ _ rfl rfl
  | becomeAdmin => exact hinsert _ _ rfl rfl
  | changeVisibility => exact hinsert _ _ rfl rfl
  | bindToken => exact hinsert _ _ rfl rfl
  | createChannel hadmits => exact h.insertAt hadmits.live rfl rfl
  | createByIdent hadmits => exact h.insertAt hadmits.live rfl rfl
  | join hadmits => exact h.insertAt hadmits.live rfl rfl
  | destroy hdestroy =>
    obtain ⟨t, hleave, hleaves, -, hclients, -, -, -, hparticipants, -⟩ := leaves_destroy hdestroy
    obtain ⟨t', hrun, ht⟩ := hmembership.removeClientFromChannels _
    obtain rfl := Option.some.inj (hrun.symm.trans hleave)
    intro ch c hmember
    rw [hparticipants, ht.symm] at hmember
    obtain ⟨hbefore, hne⟩ := (hmembership.rel_removeClientFromChannels hleave c ch).mp hmember
    rw [hclients, hleaves.clients, ExtTreeMap.mem_erase, Ne, Std.compare_eq_iff_eq]
    exact ⟨hne.symm, h ch c (hmembership.symm.mpr hbefore)⟩
  | _ => exact h

/-- In every state that the server can reach, the tables of memberships agree, and members are clients. -/
theorem membership_reachable {fromUtf8 : List UInt8 → String} {opts : VirtualServerOptions}
    {bans : ExtTreeSet String} {s : VirtualServer}
    (hreach : Runs.Reachable (step fromUtf8) (init opts bans) s) : s.Membership ∧ s.MembersLive := by
  have hinit : (init opts bans).Membership ∧ (init opts bans).MembersLive :=
    ⟨membership_init opts bans, fun ch c h => absurd h (SetMap.not_rel_empty ch c)⟩
  refine (reachable_invariant (P := fun s => s.Membership ∧ s.MembersLive) hinit ?_ hreach).2
  rintro s e s' - ⟨hmembership, hlive⟩ htrans
  exact ⟨hmembership.transition htrans, hlive.transition hmembership htrans⟩

/-- In every state that the server can reach, clients and channels know the same memberships, the
channels are those with a participant, no set of members or channels is empty, and the destructor
of a connection finds every channel that it leaves. -/
theorem membership_consistent (fromUtf8 : List UInt8 → String) (opts : VirtualServerOptions)
    (bans : ExtTreeSet String) (s : VirtualServer)
    (hreach : Runs.Reachable (step fromUtf8) (init opts bans) s) :
    (∀ c ch : ℤ, SetMap.Rel s.participants ch c ↔ SetMap.Rel s.client2channels c ch) ∧
    (∀ ch : ℤ, ch ∈ s.id2channel ↔ ∃ row, s.participants[ch]? = some row ∧ row ≠ ∅) ∧
    (∀ (ch : ℤ) (channel : ServerChannelEntity), s.id2channel[ch]? = some channel →
      channel.id = ch) ∧
    (∀ (ch : ℤ) (row : ExtTreeSet ℤ), s.participants[ch]? = some row → row ≠ ∅) ∧
    (∀ (c : ℤ) (row : ExtTreeSet ℤ), s.client2channels[c]? = some row → row ≠ ∅) ∧
    ∀ c : ℤ, (ClientConnectionHandler.destroy s c).isSome := by
  obtain ⟨hkeyed, h⟩ := reachable_invariant (membership_init opts bans)
    (fun s e s' _ h htrans => h.transition htrans) hreach
  refine ⟨fun c ch => h.symm, fun ch => ?_, fun ch channel => hkeyed.channel, h.participants,
    h.client2channels, fun c => ?_⟩
  · rw [h.live, ← h.participants.mem_iff, ExtTreeMap.mem_iff_isSome_getElem?,
      Option.isSome_iff_exists]
    constructor
    · rintro ⟨row, hrow⟩
      exact ⟨row, hrow, h.participants ch row hrow⟩
    · rintro ⟨row, hrow, -⟩
      exact ⟨row, hrow⟩
  · obtain ⟨t, hleave, -⟩ := h.removeClientFromChannels c
    rw [ClientConnectionHandler.destroy, hleave]
    rfl

/-- Two clients join a channel, and the one that created it disconnects. -/
def oneMemberLeft : List Event :=
  Event.logIn 1 "alice" "10:00" ++ Event.logIn 2 "bob" "10:01" ++
    [.request 1 .CreateChannelAction [], .request 2 .JoinChannelAction [("channelid", .ofInt 1)],
      .unconnected 1, .destroyed 1]

/-- The other one is still a member of the channel, and its destructor finds the channel. -/
theorem membership_consistent_oneMemberLeft : ∃ s,
    Runs.Reachable (step fun _ => "") (init {} ∅) s ∧ SetMap.Rel s.participants 1 2 ∧
      SetMap.Rel s.client2channels 2 1 ∧ (ClientConnectionHandler.destroy s 2).isSome := by
  have hfacts : (Runs.run (step fun _ => "") (init {} ∅) oneMemberLeft).map (fun done =>
      decide (SetMap.Rel done.1.participants 1 2)) = some true := by decide +kernel
  obtain ⟨⟨s, out⟩, hrun, hmember⟩ := Option.map_eq_some_iff.mp hfacts
  have hreach : Runs.Reachable (step fun _ => "") (init {} ∅) s := ⟨oneMemberLeft, out, hrun⟩
  have hconsistent := membership_consistent _ {} ∅ s hreach
  exact ⟨s, hreach, of_decide_eq_true hmember,
    (hconsistent.1 2 1).mp (of_decide_eq_true hmember), hconsistent.2.2.2.2.2 2⟩

end Ts3Video.VirtualServer
