import Ts3Video.Server.Requests

/-!
# Channel passwords

A request makes its client a member of a channel that was there before only if it names the channel,
and then it has to bring the password. New channels have new ids, so a request that creates a channel
does not lead into another one.
-/

namespace Ts3Video.VirtualServer

open Std ActionBase

variable {s s' : VirtualServer} {e : Event} {c ch : ℤ} {client : ServerClientEntity}
  {action : ActionBase} {params : QJsonObject} {out : List Effect}

/-- The parameters of an admitted request are those of its document. -/
theorem fromJsonRequest_of_dispatch {document : Option QJsonValue}
    (h : ClientConnectionHandler.dispatch client document = .run action params) :
    ∃ name, JsonProtocolHelper.fromJsonRequest document = some (name, params) := by
  unfold ClientConnectionHandler.dispatch at h
  split at h
  · contradiction
  next name found hdocument =>
    refine ⟨name, ?_⟩
    split at h
    · contradiction
    · split at h
      · contradiction
      · split at h
        · contradiction
        · rw [hdocument, (ClientConnectionHandler.Dispatch.run.inj h).2]

/-- A member that a channel has only after a client was added to a channel. -/
theorem eq_of_rel_withMember {k k' : ℤ} (hbefore : ¬ SetMap.Rel s.participants ch c)
    (hafter : SetMap.Rel (s.withMember k k').participants ch c) : ch = k' :=
  ((SetMap.rel_insertAt.mp hafter).resolve_right hbefore).1

/-- A new channel is not one that is there. -/
theorem Membership.ne_next (h : s.Membership) {channel : ServerChannelEntity}
    (hchannel : s.id2channel[ch]? = some channel) : ch ≠ s.nextChannelId + 1 := by
  have hbound := h.bound (Table.mem_of_getElem? hchannel)
  omega

/-- A join request leads a client without administrator rights into a channel that is there only with
its password. -/
theorem join_password (hkeyed : s.Keyed) (hmembership : s.Membership) {correlationId : UInt32}
    {channel : ServerChannelEntity} (hid : client.id = c) (hadmin : client.admin = false)
    (hchannel : s.id2channel[ch]? = some channel) (hbefore : ¬ SetMap.Rel s.participants ch c)
    (hafter : SetMap.Rel
      (JoinChannelAction.run s ⟨c, correlationId, params⟩ client).1.participants ch c) :
    (JoinChannelAction.run s ⟨c, correlationId, params⟩ client).1.id2channel = s.id2channel ∧
      (channel.password = "" ∨ channel.password = (params.value "password").toString) := by
  rcases run_join_cases params hkeyed correlationId hid with
    hstate | ⟨found, hfound, hallowed, hstate⟩ | ⟨-, -, hstate⟩
  · rw [hstate] at hafter
    exact absurd hafter hbefore
  · rw [hstate] at hafter ⊢
    obtain rfl := eq_of_rel_withMember hbefore hafter
    obtain rfl := Option.some.inj (hchannel.symm.trans hfound)
    rw [hadmin] at hallowed
    exact ⟨rfl, hallowed.resolve_left Bool.false_ne_true⟩
  · rw [hstate] at hafter
    exact absurd (eq_of_rel_withMember hbefore hafter) (hmembership.ne_next hchannel)

/-- In every state that the server can reach, a client that is no administrator becomes a member of a
channel that was there before only by a request with the password of the channel, unless it has
none. -/
theorem password_required {fromUtf8 : List UInt8 → String} {opts : VirtualServerOptions}
    {bans : ExtTreeSet String} {correlationId : UInt32} {document : Option QJsonValue}
    {channel : ServerChannelEntity}
    (hreach : Runs.Reachable (step fromUtf8) (init opts bans) s)
    (hclient : s.clients[c]? = some client) (hadmin : client.admin = false)
    (hstep : step fromUtf8 s (.newIncomingRequest c correlationId document) = some (s', out))
    (hchannel : s.id2channel[ch]? = some channel) (hbefore : ¬ SetMap.Rel s.participants ch c)
    (hafter : SetMap.Rel s'.participants ch c) :
    s'.id2channel[ch]? = some channel ∧ (channel.password = "" ∨
      ∃ name params, JsonProtocolHelper.fromJsonRequest document = some (name, params) ∧
        channel.password = (params.value "password").toString) := by
  obtain ⟨hkeyed, hmembership⟩ := reachable_invariant (membership_init opts bans)
    (fun s e s' _ h htrans => h.transition htrans) hreach
  cases transition_of_step hkeyed hstep with
  | quiet hsame => exact absurd (hsame.participants ▸ hafter) hbefore
  | createChannel _ hid =>
    exact absurd ((eq_of_rel_withMember hbefore hafter).trans hid) (hmembership.ne_next hchannel)
  | createByIdent _ _ hid =>
    exact absurd ((eq_of_rel_withMember hbefore hafter).trans hid) (hmembership.ne_next hchannel)
  | @join _ k sender action params joined _ hadmits haction _ =>
    obtain ⟨id, peerAddress, hrun⟩ := hadmits.step_eq fromUtf8
    obtain ⟨_, _, hevent, hdispatch⟩ := hadmits.dispatch
    obtain ⟨rfl, rfl, rfl⟩ := Event.newIncomingRequest.inj hevent
    obtain rfl := Option.some.inj (hclient.symm.trans hadmits.live)
    have hjoin := hrun.symm.trans hstep
    have hstate : (JoinChannelAction.run s ⟨c, id, params⟩ client).1 =
        (s.withMember c joined).updateMediaRecipients := by
      rcases haction with rfl | rfl
      · exact congrArg Prod.fst (Option.some.inj hjoin)
      · exact congrArg Prod.fst (Option.some.inj hjoin)
    rw [← hstate] at hafter ⊢
    obtain ⟨hsame, hpassword⟩ :=
      join_password hkeyed hmembership (hkeyed.client hclient) hadmin hchannel hbefore hafter
    obtain ⟨name, hdocument⟩ := fromJsonRequest_of_dispatch hdispatch
    exact ⟨hsame ▸ hchannel, hpassword.imp_right fun h => ⟨name, params, hdocument, h⟩⟩
  | _ => exact absurd hafter hbefore

/-- The second client knows the password and joins the channel. -/
theorem password_required_protectedChannel : ∃ s s' out channel params,
    Runs.Reachable (step fun _ => "") (init {} ∅) s ∧
      step (fun _ => "") s (.request 2 .JoinChannelAction params) = some (s', out) ∧
      SetMap.Rel s'.participants 1 2 ∧ channel.password = "secret" ∧
      s'.id2channel[(1 : ℤ)]? = some channel ∧
      channel.password = (params.value "password").toString := by
  have hfacts : (Runs.run (step fun _ => "") (init {} ∅) protectedChannel).map (fun done =>
      ((done.1.clients[(2 : ℤ)]?).map (·.admin), (done.1.id2channel[(1 : ℤ)]?).map (·.password),
        decide (SetMap.Rel done.1.participants 1 2),
        (step (fun _ => "") done.1 (.request 2 .JoinChannelAction [("channelid", .ofInt 1),
          ("password", .string "secret")])).map fun next =>
            decide (SetMap.Rel next.1.participants 1 2))) =
      some (some false, some "secret", false, some true) := by decide +kernel
  obtain ⟨⟨s, before⟩, hrun, hfacts⟩ := Option.map_eq_some_iff.mp hfacts
  simp only [Prod.mk.injEq, Option.map_eq_some_iff, decide_eq_true_eq, decide_eq_false_iff_not]
    at hfacts
  obtain ⟨⟨client, hclient, hadmin⟩, ⟨channel, hchannel, hsecret⟩, hbefore, ⟨s', out⟩, hstep,
    hafter⟩ := hfacts
  have hreach : Runs.Reachable (step fun _ => "") (init {} ∅) s :=
    ⟨protectedChannel, before, hrun⟩
  obtain ⟨hsame, hpassword⟩ :=
    password_required hreach hclient hadmin hstep hchannel hbefore hafter
  refine ⟨s, s', out, channel, _, hreach, hstep, hafter, hsecret, hsame, ?_⟩
  obtain ⟨name, params, hdocument, hequal⟩ := hpassword.resolve_left (by rw [hsecret]; decide)
  rw [ClientConnectionHandler.fromJsonRequest_createJsonRequest] at hdocument
  obtain ⟨-, rfl⟩ := Prod.mk.inj (Option.some.inj hdocument)
  exact hequal

end Ts3Video.VirtualServer
