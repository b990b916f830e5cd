import Ts3Video.Server.Membership

/-!
# Channel identifiers

An alias belongs to exactly one channel, unless a join request names a channel that is not there by
its id and the alias of another channel at the same time. Such a request creates a second channel
with the alias.
-/

namespace Ts3Video.VirtualServer

open Std

/-- The table of aliases holds the aliases of all channels and no others. -/
structure Identifiers (s : VirtualServer) : Prop where
  channel : ∀ {ident : String} {ch : ℤ}, s.ident2channel[ident]? = some ch →
    ident ≠ "" ∧ ∃ channel, s.id2channel[ch]? = some channel ∧ channel.ident = ident
  ident : ∀ {ch : ℤ} {channel : ServerChannelEntity}, s.id2channel[ch]? = some channel →
    channel.ident ≠ "" → s.ident2channel[channel.ident]? = some ch

/-- The channel lives and has the alias. -/
def HasIdent (s : VirtualServer) (ch : ℤ) (ident : String) : Prop :=
  ∃ channel, s.id2channel[ch]? = some channel ∧ channel.ident = ident

/-- An alias is known exactly if one channel has it, and then it leads to that channel. Whoever asks
for the alias of a channel gets that channel. -/
structure OneToOne (s : VirtualServer) : Prop where
  contains : ∀ ident, ident ≠ "" → (ident ∈ s.ident2channel ↔ ∃! ch, s.HasIdent ch ident)
  value : ∀ ident ch, ident ≠ "" → s.ident2channel[ident]? = some ch → s.HasIdent ch ident
  same : ∀ (ch : ℤ) (channel : ServerChannelEntity), s.id2channel[ch]? = some channel →
    channel.ident ≠ "" → ∀ requested ≤ 0, ∀ password,
      JoinChannelAction.retrieveChannel s
        (JoinChannelAction.findChannelId s requested channel.ident) channel.ident password =
          (s, some channel)

/-- The event is a join request with the id of a channel that is not there and an alias that is. -/
def ReusesIdent (s : VirtualServer) (e : Event) : Prop :=
  ∃ c client action params, Admits s e c client action params ∧ IsJoin action ∧
    0 < (params.value "channelid").toInt ∧ (params.value "channelid").toInt ∉ s.id2channel ∧
      joinIdent params ∈ s.ident2channel

/-- A complete table of aliases is one-to-one. -/
theorem Identifiers.oneToOne {s : VirtualServer} (h : s.Identifiers) : s.OneToOne where
  contains := by
    intro ident hident
    rw [ExtTreeMap.mem_iff_isSome_getElem?, Option.isSome_iff_exists]
    constructor
    · rintro ⟨ch, hch⟩
      refine ⟨ch, (h.channel hch).2, ?_⟩
      rintro ch' ⟨channel, hchannel, rfl⟩
      exact Option.some.inj ((h.ident hchannel hident).symm.trans hch)
    · rintro ⟨ch, ⟨channel, hchannel, rfl⟩, -⟩
      exact ⟨ch, h.ident hchannel hident⟩
  value ident ch _ hch := (h.channel hch).2
  same := by
    intro ch channel hchannel hident requested hrequested password
    rw [JoinChannelAction.findChannelId, if_pos hrequested, h.ident hchannel hident,
      Option.getD_some, JoinChannelAction.retrieveChannel, hchannel]

/-- The empty server has no aliases. -/
theorem identifiers_init (opts : VirtualServerOptions) (bans : ExtTreeSet String) :
    (init opts bans).Identifiers where
  channel h := absurd h (Table.getElem?_empty_ne _ _)
  ident h := absurd h (Table.getElem?_empty_ne _ _)

/-- Only the tables of channels and aliases matter. -/
theorem Identifiers.congr {s s' : VirtualServer} (h : s.Identifiers)
    (hid2channel : s'.id2channel = s.id2channel) (hident2channel : s'.ident2channel = s.ident2channel) :
    s'.Identifiers where
  channel := by
    rw [hident2channel, hid2channel]
    exact h.channel
  ident := by
    rw [hident2channel, hid2channel]
    exact h.ident

/-- A new channel has no alias or one that is not in use. -/
theorem Identifiers.withChannel {s : VirtualServer} (h : s.Identifiers)
    {channel : ServerChannelEntity} (hfresh : channel.id ∉ s.id2channel)
    (hident : channel.ident ∉ s.ident2channel) : (s.withChannel channel).Identifiers := by
  have hid2channel : ∀ k, (s.withChannel channel).id2channel[k]? =
      if channel.id = k then some channel else s.id2channel[k]? := fun k =>
    Table.getElem?_insert s.id2channel channel.id k channel
  have hident2channel : ∀ ident, (s.withChannel channel).ident2channel[ident]? =
      if channel.ident = ident ∧ channel.ident ≠ "" then some channel.id
      else s.ident2channel[ident]? := by
    intro ident
    change (if _ then _ else _ : ExtTreeMap String ℤ)[ident]? = _
    by_cases hempty : channel.ident = ""
    · rw [if_neg (by simp [hempty]), if_neg (by simp [hempty])]
    · rw [if_pos (by simpa using hempty), Table.getElem?_insert]
      simp [hempty]
  constructor
  · intro ident ch hch
    rw [hident2channel] at hch
    split at hch
    next hnew =>
      obtain rfl := Option.some.inj hch
      refine ⟨hnew.1 ▸ hnew.2, channel, ?_, hnew.1⟩
      rw [hid2channel, if_pos rfl]
    next =>
      obtain ⟨hnonempty, old, hold, rfl⟩ := h.channel hch
      refine ⟨hnonempty, old, ?_, rfl⟩
      rw [hid2channel, if_neg, hold]
      rintro rfl
      exact hfresh (Table.mem_of_getElem? hold)
  · intro ch found hfound hnonempty
    rw [hid2channel] at hfound
    rw [hident2channel]
    split at hfound
    next hk =>
      obtain rfl := Option.some.inj hfound
      rw [if_pos ⟨rfl, hnonempty⟩, hk]
    next =>
      have hold := h.ident hfound hnonempty
      rw [if_neg, hold]
      rintro ⟨heq, -⟩
      rw [← heq] at hold
      exact hident (Table.mem_of_getElem? hold)

/-- A deleted channel takes its alias along, and no other channel had it. -/
theorem Identifiers.removeClientFromChannel {s s' : VirtualServer} (h : s.Identifiers) {c ch : ℤ}
    (hremove : s.removeClientFromChannel c ch = some s') : s'.Identifiers := by
  unfold VirtualServer.removeClientFromChannel at hremove
  dsimp only at hremove
  split at hremove
  · split at hremove
    · contradiction
    next deleted hdeleted =>
      obtain rfl := Option.some.inj hremove
      constructor
      · intro ident k hk
        obtain ⟨hne, hold⟩ := Table.of_getElem?_erase hk
        obtain ⟨hnonempty, channel, hchannel, rfl⟩ := h.channel hold
        refine ⟨hnonempty, channel, ?_, rfl⟩
        dsimp only
        rw [Table.getElem?_erase, if_neg, hchannel]
        rintro rfl
        exact hne (congrArg _ (Option.some.inj (hdeleted.symm.trans hchannel)))
      · intro k channel hchannel hnonempty
        obtain ⟨hne, hbefore⟩ := Table.of_getElem?_erase hchannel
        have hold := h.ident hbefore hnonempty
        dsimp only
        rw [Table.getElem?_erase, if_neg, hold]
        intro heq
        have hother := h.ident hdeleted (heq ▸ hnonempty)
        rw [heq] at hother
        exact hne (Option.some.inj (hother.symm.trans hold))
  · obtain rfl := Option.some.inj hremove
    exact ⟨h.channel, h.ident⟩

/-- Leaving channels keeps the table of aliases complete. -/
theorem Identifiers.removeClientFromChannels {s s' : VirtualServer} (h : s.Identifiers) {c : ℤ}
    (hleave : s.removeClientFromChannels c = some s') : s'.Identifiers :=
  removeClientFromChannels_invariant
    (fun _ _ _ h hremove => Identifiers.removeClientFromChannel h hremove) h hleave

/-- A join request that creates a channel asks for an alias that is not in use, unless it reuses
one. -/
theorem Identifiers.not_mem_of_createsByIdent {s : VirtualServer} (h : s.Identifiers) {e : Event}
    {ident : String} (hcreates : CreatesByIdent s e ident) (hguard : ¬ ReusesIdent s e) :
    ident ∉ s.ident2channel := by
  obtain ⟨c, client, action, params, hadmits, haction, rfl, hnonempty, hnone⟩ := hcreates
  intro hmem
  by_cases hpositive : (params.value "channelid").toInt ≤ 0
  · obtain ⟨ch, hch⟩ := Table.mem_iff.mp hmem
    rw [joinId, JoinChannelAction.findChannelId, if_pos hpositive, hch, Option.getD_some] at hnone
    obtain ⟨-, channel, hchannel, -⟩ := h.channel hch
    rw [hnone] at hchannel
    contradiction
  · rw [joinId, JoinChannelAction.findChannelId, if_neg hpositive] at hnone
    apply hguard
    refine ⟨c, client, action, params, hadmits, haction, by omega, ?_, hmem⟩
    rw [ExtTreeMap.mem_iff_isSome_getElem?, hnone]
    simp

/-- The invariant of runs in which no request reuses an alias. -/
structure IdentifiersInvariant (s : VirtualServer) : Prop where
  keyed : s.Keyed
  membership : s.Membership
  identifiers : s.Identifiers

/-- Every event that does not reuse an alias keeps the table of aliases complete. -/
theorem IdentifiersInvariant.preserved {fromUtf8 : List UInt8 → String} {s s' : VirtualServer} {e : Event}
    {out : List Effect} (h : s.IdentifiersInvariant) (hguard : ¬ ReusesIdent s e)
    (hstep : step fromUtf8 s e = some (s', out)) : s'.IdentifiersInvariant := by
  have htrans := transition_of_step h.keyed hstep
  refine ⟨htrans.keyed h.keyed, h.membership.transition htrans, ?_⟩
  cases htrans.channelsChange with
  | same hsame => exact h.identifiers.congr hsame.id2channel hsame.ident2channel
  | @create _ _ channel _ _ hid hident hsame =>
    have hfresh : channel.id ∉ s.id2channel := fun hmem => by
      have := h.membership.bound hmem
      omega
    have hunused : channel.ident ∉ s.ident2channel := by
      rcases hident with hempty | hcreates
      · intro hmem
        obtain ⟨ch, hch⟩ := Table.mem_iff.mp hmem
        exact (h.identifiers.channel hch).1 hempty
      · exact h.identifiers.not_mem_of_createsByIdent hcreates hguard
    exact (h.identifiers.withChannel hfresh hunused).congr hsame.id2channel hsame.ident2channel
  | join _ _ _ hsame => exact h.identifiers.congr hsame.id2channel hsame.ident2channel
  | leave hleave hsame =>
    exact (h.identifiers.removeClientFromChannels hleave).congr hsame.id2channel
      hsame.ident2channel

/-- A request that reuses an alias ends with two channels of that alias. -/
theorem IdentifiersInvariant.step_reusesIdent (fromUtf8 : List UInt8 → String) {s : VirtualServer}
    {e : Event} (h : s.IdentifiersInvariant) (hreuses : ReusesIdent s e) :
    ∃ s' out, step fromUtf8 s e = some (s', out) ∧ ¬ s'.OneToOne := by
  obtain ⟨c, client, action, params, hadmits, haction, hpositive, hnotMem, hmem⟩ := hreuses
  obtain ⟨ch, hch⟩ := Table.mem_iff.mp hmem
  obtain ⟨hnonempty, channel, hchannel, hident⟩ := h.identifiers.channel hch
  have hnone : s.id2channel[s.joinId params]? = none := by
    rw [joinId, JoinChannelAction.findChannelId, if_neg (by omega)]
    exact ExtTreeMap.getElem?_eq_none hnotMem
  obtain ⟨correlationId, peerAddress, hstep⟩ := hadmits.step_eq fromUtf8
  have hrun : step fromUtf8 s e =
      some (JoinChannelAction.run s ⟨c, correlationId, params⟩ client) := by
    rw [hstep]
    rcases haction with rfl | rfl
    · rfl
    · rfl
  refine ⟨(JoinChannelAction.run s ⟨c, correlationId, params⟩ client).1,
    (JoinChannelAction.run s ⟨c, correlationId, params⟩ client).2, hrun, ?_⟩
  rw [run_join_create correlationId (h.keyed.client hadmits.live) hnonempty hnone]
  generalize hnew : s.newChannel (joinIdent params) (params.value "password").toString = new
  have hnewId : new.id = s.nextChannelId + 1 := by rw [← hnew, newChannel]
  have hnewIdent : new.ident = joinIdent params := by rw [← hnew, newChannel]
  intro hone
  obtain ⟨found, -, hunique⟩ := (hone.contains (joinIdent params) hnonempty).mp (by
    change joinIdent params ∈ (if _ then _ else _ : ExtTreeMap String ℤ)
    rw [hnewIdent, if_pos (by simpa using hnonempty)]
    exact ExtTreeMap.mem_insert_self)
  have hfirst := hunique new.id ⟨new, getElem?_withChannel s new, hnewIdent⟩
  have hbound := h.membership.bound (Table.mem_of_getElem? hchannel)
  have hsecond := hunique ch (by
    refine ⟨channel, ?_, hident⟩
    change (s.id2channel.insert new.id new)[ch]? = some channel
    rw [Table.getElem?_insert, if_neg (by omega), hchannel])
  omega

/-- The first client creates a channel by its alias. The second one asks for the same alias, and for
the id of a channel that never existed. -/
def reusedIdent : List Event :=
  Event.logIn 1 "alice" "10:00" ++ Event.logIn 2 "bob" "10:01" ++
    [.request 1 .JoinChannelAction [("identifier", .string "lobby")],
      .request 2 .JoinChannelAction [("channelid", .ofInt 7), ("identifier", .string "lobby")]]

/-- Then there are two channels with the alias. -/
theorem identifiers_reusedIdent :
    ¬ Runs.EachState (step fun _ => "") OneToOne (init {} ∅) reusedIdent := by
  intro hstates
  have hfacts : (Runs.run (step fun _ => "") (init {} ∅) reusedIdent).map (fun done =>
      (done.1.ident2channel["lobby"]?, (done.1.id2channel[(1 : ℤ)]?).map (·.ident),
        (done.1.id2channel[(2 : ℤ)]?).map (·.ident))) =
      some (some 2, some "lobby", some "lobby") := by decide +kernel
  obtain ⟨⟨s, out⟩, hrun, hfacts⟩ := Option.map_eq_some_iff.mp hfacts
  simp only [Prod.mk.injEq, Option.map_eq_some_iff] at hfacts
  obtain ⟨hknown, hfirst, hsecond⟩ := hfacts
  obtain ⟨ch, -, hunique⟩ := ((hstates.last hrun).contains "lobby" (by decide)).mp
    (Table.mem_of_getElem? hknown)
  have heq := (hunique 1 hfirst).trans (hunique 2 hsecond).symm
  exact absurd heq (by decide)

/-- Aliases are one-to-one in every state of a run exactly if no request of the run reuses an
alias. -/
theorem identifiers_oneToOne_iff (fromUtf8 : List UInt8 → String) (opts : VirtualServerOptions)
    (bans : ExtTreeSet String) (events : List Event) :
    Runs.EachState (step fromUtf8) OneToOne (init opts bans) events ↔
      Runs.EachStep (step fromUtf8) (fun s e => ¬ ReusesIdent s e) (init opts bans) events := by
  apply Runs.eachState_iff_eachStep (P := IdentifiersInvariant)
  · exact fun s h => h.identifiers.oneToOne
  · exact fun s e s' out h hguard hstep => h.preserved hguard hstep
  · intro s e h hguard
    exact h.step_reusesIdent fromUtf8 (not_not.mp hguard)
  · exact ⟨keyed_init opts bans, membership_init opts bans, identifiers_init opts bans⟩

end Ts3Video.VirtualServer
