import Ts3Video.Server.Tables

/-!
# Protected channels

Clients are told whether a channel has a password. A channel that is created by a join request says so itself,
one that a client describes in its request says what the client says, unless there is a password.
-/

namespace Ts3Video.VirtualServer

open Std

/-- The flag that clients see is set just for the channels with a password. -/
def TruthfulFlags (s : VirtualServer) : Prop :=
  ∀ (ch : ℤ) (channel : ServerChannelEntity), s.id2channel[ch]? = some channel →
    (channel.isPasswordProtected = true ↔ channel.password ≠ "")

/-- The event is a request to create a channel that is described as protected, without a password. -/
def FeignsProtection (s : VirtualServer) (e : Event) : Prop :=
  ∃ c client params, Admits s e c client .CreateChannelAction params ∧
    (ChannelEntity.fromQJsonObject (params.value "channel").toObject).isPasswordProtected = true ∧
      (params.value "password").toString = ""

variable {s s' : VirtualServer} {e : Event} {params : QJsonObject}

/-- Only the table of channels matters, and channels may go away. -/
theorem TruthfulFlags.mono (h : s.TruthfulFlags)
    (hchannel : ∀ {k : ℤ} {channel : ServerChannelEntity}, s'.id2channel[k]? = some channel →
      s.id2channel[k]? = some channel) : s'.TruthfulFlags :=
  fun ch channel hfound => h ch channel (hchannel hfound)

/-- A new channel has to be described truthfully. -/
theorem TruthfulFlags.withChannel (h : s.TruthfulFlags) {channel : ServerChannelEntity}
    (hchannel : channel.isPasswordProtected = true ↔ channel.password ≠ "") :
    (s.withChannel channel).TruthfulFlags := by
  intro ch found hfound
  change (s.id2channel.insert channel.id channel)[ch]? = some found at hfound
  rw [Table.getElem?_insert] at hfound
  split at hfound
  · exact Option.some.inj hfound ▸ hchannel
  · exact h ch found hfound

/-- A channel that is created by a join request is described truthfully. -/
theorem newChannel_truthful (s : VirtualServer) (ident password : String) :
    (s.newChannel ident password).isPasswordProtected = true ↔
      (s.newChannel ident password).password ≠ "" := by
  simp [newChannel]

/-- A channel that a client describes is described truthfully, unless it feigns to be protected. -/
theorem requestedChannel_truthful_iff (s : VirtualServer) (params : QJsonObject) :
    ((s.requestedChannel params).isPasswordProtected = true ↔
        (s.requestedChannel params).password ≠ "") ↔
      ¬ ((ChannelEntity.fromQJsonObject (params.value "channel").toObject).isPasswordProtected = true ∧
        (params.value "password").toString = "") := by
  by_cases hempty : (params.value "password").toString = ""
  · simp [requestedChannel, hempty]
  · simp [requestedChannel, hempty]

/-- The invariant of runs in which no request feigns protection. -/
structure ProtectionInvariant (s : VirtualServer) : Prop where
  keyed : s.Keyed
  flags : s.TruthfulFlags

/-- A request to create a channel, executed to its end. -/
theorem step_createChannel (fromUtf8 : List UInt8 → String) (hkeyed : s.Keyed) {c : ℤ}
    {client : ServerClientEntity} (hadmits : Admits s e c client .CreateChannelAction params) :
    ∃ out, step fromUtf8 s e = some (((s.withChannel (s.requestedChannel params)).withMember c
      (s.requestedChannel params).id).updateMediaRecipients, out) := by
  obtain ⟨correlationId, peerAddress, hstep⟩ := hadmits.step_eq fromUtf8
  rw [hstep, ← run_createChannel s correlationId params (hkeyed.client hadmits.live)]
  exact ⟨_, rfl⟩

/-- Every event that does not feign protection keeps the descriptions of the channels truthful. -/
theorem ProtectionInvariant.preserved {fromUtf8 : List UInt8 → String} {out : List Effect}
    (h : s.ProtectionInvariant) (hguard : ¬ FeignsProtection s e)
    (hstep : step fromUtf8 s e = some (s', out)) : s'.ProtectionInvariant := by
  have htrans := transition_of_step h.keyed hstep
  refine ⟨htrans.keyed h.keyed, ?_⟩
  cases htrans with
  | quiet hsame => exact h.flags.mono (hsame.id2channel ▸ id)
  | @createChannel _ c client params channel hadmits hid hident =>
    obtain ⟨_, hrun⟩ := step_createChannel fromUtf8 h.keyed hadmits
    rw [(Prod.mk.inj (Option.some.inj (hstep.symm.trans hrun))).1]
    refine (h.flags.withChannel ?_).mono id
    rw [requestedChannel_truthful_iff]
    exact fun hfeigns => hguard ⟨c, client, params, hadmits, hfeigns⟩
  | @createByIdent _ c client action params channel hadmits haction hid hident hnonempty hnone =>
    obtain ⟨correlationId, peerAddress, hrun⟩ := hadmits.step_eq fromUtf8
    have hjoin := hrun.symm.trans hstep
    have hstate := run_join_create correlationId (h.keyed.client hadmits.live) hnonempty hnone
    have hafter : (JoinChannelAction.run s ⟨c, correlationId, params⟩ client).1 =
        ((s.withChannel channel).withMember c channel.id).updateMediaRecipients := by
      rcases haction with rfl | rfl
      · exact congrArg Prod.fst (Option.some.inj hjoin)
      · exact congrArg Prod.fst (Option.some.inj hjoin)
    rw [← hafter, hstate]
    exact (h.flags.withChannel (s.newChannel_truthful _ _)).mono id
  | destroy hdestroy =>
    obtain ⟨t, -, hleaves, -, -, -, hid2channel, -⟩ := leaves_destroy hdestroy
    exact h.flags.mono fun hfound => hleaves.channel (hid2channel ▸ hfound)
  | _ => exact h.flags.mono id

/-- A request that feigns protection ends with a channel that is described wrongly. -/
theorem ProtectionInvariant.step_feignsProtection (fromUtf8 : List UInt8 → String)
    (h : s.ProtectionInvariant) (hfeigns : FeignsProtection s e) :
    ∃ s' out, step fromUtf8 s e = some (s', out) ∧ ¬ s'.TruthfulFlags := by
  obtain ⟨c, client, params, hadmits, hfalse⟩ := hfeigns
  obtain ⟨out, hstep⟩ := step_createChannel fromUtf8 h.keyed hadmits
  refine ⟨_, out, hstep, fun htruthful => ?_⟩
  have hchannel := htruthful _ _ (getElem?_withChannel s (s.requestedChannel params))
  exact (s.requestedChannel_truthful_iff params).mp hchannel hfalse

/-- A client creates a channel that it describes as protected, and gives no password. -/
def feignedProtection : List Event :=
  Event.logIn 1 "alice" "10:00" ++
    [.request 1 .CreateChannelAction [("channel", .object [("ispasswordprotected", .bool true)])]]

/-- Then there is a channel without a password that is announced as protected. -/
theorem truthfulFlags_feignedProtection :
    ¬ Runs.EachState (step fun _ => "") TruthfulFlags (init {} ∅) feignedProtection := by
  intro hstates
  have hfacts : (Runs.run (step fun _ => "") (init {} ∅) feignedProtection).map (fun done =>
      (done.1.id2channel[(1 : ℤ)]?).map fun channel =>
        (channel.isPasswordProtected, channel.password)) = some (some (true, "")) := by decide +kernel
  obtain ⟨⟨s, out⟩, hrun, hfacts⟩ := Option.map_eq_some_iff.mp hfacts
  obtain ⟨channel, hchannel, hflags⟩ := Option.map_eq_some_iff.mp hfacts
  rw [Prod.mk.injEq] at hflags
  exact (hstates.last hrun 1 channel hchannel).mp hflags.1 hflags.2

/-- The descriptions of all channels are truthful in every state of a run exactly if no request of the run
feigns protection. -/
theorem truthfulFlags_iff (fromUtf8 : List UInt8 → String) (opts : VirtualServerOptions)
    (bans : ExtTreeSet String) (events : List Event) :
    Runs.EachState (step fromUtf8) TruthfulFlags (init opts bans) events ↔
      Runs.EachStep (step fromUtf8) (fun s e => ¬ FeignsProtection s e) (init opts bans) events := by
  apply Runs.eachState_iff_eachStep (P := ProtectionInvariant)
  · exact fun s h => h.flags
  · exact fun s e s' out h hguard hstep => h.preserved hguard hstep
  · exact fun s e h hguard => h.step_feignsProtection fromUtf8 (not_not.mp hguard)
  · exact ⟨keyed_init opts bans, fun ch channel h => absurd h (Table.getElem?_empty_ne _ _)⟩

end Ts3Video.VirtualServer
