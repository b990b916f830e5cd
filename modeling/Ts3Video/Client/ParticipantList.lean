import Ts3Video.Client.Traffic

/-!
# The list of members as a replica

The list of a client is made from the answer to its join request and from notifications. It agrees with
the members of the channel as long as no member joins a channel again, and nobody joins whose connection
is lost already.
-/

namespace Ts3Video

open Std NetworkClient VirtualServer ActionBase

/-- What only one element of a list is mapped to. -/
theorem filterMap_eq_of_nodup {α β : Type*} [DecidableEq α] {f : α → Option β} {a : α} {l : List α}
    (hnodup : l.Nodup) (hother : ∀ x ∈ l, x ≠ a → f x = none) :
    l.filterMap f = if a ∈ l then (f a).toList else [] := by
  induction l with
  | nil => rfl
  | cons x l ih =>
    obtain ⟨hx, hnodup⟩ := List.nodup_cons.mp hnodup
    have hrest := ih hnodup fun y hy => hother y (List.mem_cons_of_mem _ hy)
    by_cases hxa : x = a
    · subst hxa
      rw [if_neg hx] at hrest
      rw [if_pos List.mem_cons_self, List.filterMap_cons, hrest]
      cases f x with
      | none => rfl
      | some b => rfl
    · rw [List.filterMap_cons, hother x List.mem_cons_self hxa, hrest]
      simp [Ne.symm hxa]

section Messages

variable {s s' : VirtualServer} {req : ActionData} {client : ServerClientEntity} {text : String}
  {parameters : QJsonObject} {a c : ℤ} {out : List Effect}

/-- A response goes to the client that sent the request. -/
theorem messagesTo_cons_response (slot : ReplySlot) (data : QJsonObject) :
    messagesTo a slot (sendDefaultOkResponse req data :: out) =
      (if req.clientId = a then [.response slot (JsonProtocolHelper.createJsonResponse data)] else []) ++
        messagesTo a slot out := by
  by_cases hreq : req.clientId = a
  · have hsome : (sendDefaultOkResponse req data).message? a slot =
        some (.response slot (JsonProtocolHelper.createJsonResponse data)) := if_pos hreq
    rw [if_pos hreq, messagesTo, List.filterMap_cons_some hsome]
    rfl
  · have hnone : (sendDefaultOkResponse req data).message? a slot = none := if_neg hreq
    rw [if_neg hreq, messagesTo, List.filterMap_cons_none hnone]
    rfl

/-- A broadcast is one message to a sibling that may see the client. -/
theorem messagesTo_broadcast (slot : ReplySlot)
    (hsees : a ∈ s.getSiblingClientIds client.id false → ∃ observer, s.clients[a]? = some observer ∧
      observer.isAllowedToSee client = true ∧ a ∈ s.connections) :
    messagesTo a slot (broadcastNotificationToSiblingClients s req client text parameters) =
      if a ∈ s.getSiblingClientIds client.id false ∧ a ≠ req.clientId then
        [.request (JsonProtocolHelper.createJsonRequest text parameters)]
      else [] := by
  rw [messagesTo, broadcastNotificationToSiblingClients, List.filterMap_filterMap,
    filterMap_eq_of_nodup (a := a) (nodup_getSiblingClientIds client.id false)]
  · by_cases hsibling : a ∈ s.getSiblingClientIds client.id false
    · obtain ⟨observer, hobserver, hallowed, hconn⟩ := hsees hsibling
      by_cases hself : a = req.clientId
      · subst hself
        simp [hobserver, hallowed]
      · simp [hsibling, hobserver, hallowed, hconn, hself, Effect.message?]
    · rw [if_neg hsibling, if_neg (fun h => hsibling h.1)]
  · intro x _ hx
    rw [Option.bind_eq_none_iff]
    intro effect heffect
    split at heffect
    · contradiction
    · split at heffect
      · contradiction
      · split at heffect
        · contradiction
        · obtain rfl := Option.some.inj heffect
          exact if_neg hx

/-- A lost connection is one message to a sibling that its client sees. -/
theorem messagesTo_unconnected (slot : ReplySlot)
    (h : ClientConnectionHandler.onUnconnected s c client = (s', out)) :
    messagesTo a slot out =
      if a ∈ s.getSiblingClientIds c true ∧ a ∈ s.connections ∧ a ≠ c then
        [.request (JsonProtocolHelper.createJsonRequest "notify.clientdisconnected"
          [("client", .object client.toQJsonObject)])]
      else [] := by
  obtain ⟨-, rfl⟩ := Prod.mk.inj h
  rw [messagesTo, List.filterMap_map, filterMap_eq_of_nodup (a := a)
    ((nodup_getSiblingClientIds c true).filter _)]
  · simp [Effect.message?]
  · intro x _ hx
    exact if_neg hx

/-- A joined client is added to the list. -/
theorem updateIds_joined (ids : List ℤ) (channel : QJsonValue) {client : ClientEntity}
    (hlow : -2 ^ 31 ≤ client.id) (hhigh : client.id < 2 ^ 31) :
    (Message.request (JsonProtocolHelper.createJsonRequest "notify.clientjoinedchannel"
      [("channel", channel), ("client", .object client.toQJsonObject)])).updateIds ids =
        ids ++ [client.id] := by
  change ids ++ [(ClientEntity.fromQJsonObject client.toQJsonObject).id] = _
  rw [ClientEntity.fromQJsonObject_id client hlow hhigh]

/-- A disconnected client is removed from the list. -/
theorem updateIds_disconnected (ids : List ℤ) {client : ClientEntity} (hlow : -2 ^ 31 ≤ client.id)
    (hhigh : client.id < 2 ^ 31) :
    (Message.request (JsonProtocolHelper.createJsonRequest "notify.clientdisconnected"
      [("client", .object client.toQJsonObject)])).updateIds ids = ids.erase client.id := by
  change ids.erase (ClientEntity.fromQJsonObject client.toQJsonObject).id = _
  rw [ClientEntity.fromQJsonObject_id client hlow hhigh]

/-- The participants of the channel are added to the list. -/
theorem updateIds_participants (ids : List ℤ) (channel : QJsonValue) (participants : List QJsonValue) :
    (Message.response .onJoinChannelFinished (JsonProtocolHelper.createJsonResponse
      [("channel", channel), ("participants", .array participants)])).updateIds ids =
        ids ++ participants.map fun v => (ClientEntity.fromQJsonObject v.toObject).id := by
  change (if (QJsonValue.ofInt 0).toInt ≠ 0 then ids else _) = _
  rw [QJsonValue.toInt_ofInt (by decide) (by decide), if_neg (not_not.mpr rfl)]
  rfl

/-- If all members may be seen, the ids of all members are listed. -/
theorem ids_listedMembers (hkeyed : s.Keyed) {ch : ℤ}
    (hsees : ∀ c, SetMap.Rel s.participants ch c → ∃ member, s.clients[c]? = some member ∧
      client.isAllowedToSee member = true ∧ -2 ^ 31 ≤ c ∧ c < 2 ^ 31) :
    ((s.listedMembers client ch).map fun v => (ClientEntity.fromQJsonObject v.toObject).id) =
      (SetMap.value s.participants ch).toList := by
  rw [listedMembers, List.map_filterMap]
  refine (List.filterMap_congr ?_).trans List.filterMap_some
  intro c hc
  obtain ⟨member, hmember, hallowed, hlow, hhigh⟩ := hsees c (ExtTreeSet.mem_toList.mp hc)
  have hid := hkeyed.client hmember
  rw [hmember]
  dsimp only
  rw [if_neg (not_not.mpr hallowed), Option.map_some]
  change some (ClientEntity.fromQJsonObject member.toQJsonObject).id = some c
  rw [ClientEntity.fromQJsonObject_id _ (hid ▸ hlow) (hid ▸ hhigh), hid]

end Messages

namespace VirtualServer

instance (s : VirtualServer) (c : ℤ) : Decidable (s.Lost c) := inferInstanceAs (Decidable (_ = _))

/-- All clients have the default visibility level. -/
def DefaultVisibility (s : VirtualServer) : Prop :=
  ∀ entry ∈ s.clients.toList, entry.2.visibilityLevel = ServerClientEntity.VL_Default

/-- The connections of all members of the channel but the client are there. -/
def NoneLost (s : VirtualServer) (ch a : ℤ) : Prop :=
  ∀ c ∈ (SetMap.value s.participants ch).toList, c ≠ a → ¬ s.Lost c

/-- The client is there, or its id has not been handed out yet. -/
def NotGone (s : VirtualServer) (a : ℤ) : Prop := a ∈ s.clients ∨ s.nextClientId < a

/-- The ids are those of the members of the channel whose connection is not lost, once each, as soon as
the client is a member itself. -/
structure Replica (ch a : ℤ) (s : VirtualServer) (ids : List ℤ) : Prop where
  only : ∀ k, SetMap.Rel s.participants k a → k = ch
  member : SetMap.Rel s.participants ch a → ids.Nodup ∧
    ∀ c, c ∈ ids ↔ SetMap.Rel s.participants ch c ∧ (s.Lost c → c = a)
  absent : ¬ SetMap.Rel s.participants ch a → s.NotGone a → ids = []

section Step

variable {s s' : VirtualServer} {ch a c k : ℤ} {ids : List ℤ} {out : List Effect}

/-- A client that is gone does not come back. -/
theorem SessionChange.notGone (h : SessionChange s s' out) (hnot : s'.NotGone a) : s.NotGone a := by
  rcases hnot with hmem | hnext
  · rcases h.mem_clients hmem with hold | rfl
    · exact .inl hold
    · exact .inr (Int.lt_succ _)
  · exact .inr (h.nextClientId_le.trans_lt hnext)

/-- The siblings of a client with one channel are the members of that channel. -/
theorem sharesChannel_iff_of_only (honly : ∀ k, SetMap.Rel s.participants k a → k = ch)
    (hmembership : s.Membership) : s.SharesChannel c a ↔
      SetMap.Rel s.participants ch c ∧ SetMap.Rel s.participants ch a := by
  constructor
  · rintro ⟨k, hc, ha⟩
    obtain rfl := honly k ha
    exact ⟨hmembership.symm.mpr hc, ha⟩
  · exact fun ⟨hc, ha⟩ => ⟨ch, hmembership.symm.mp hc, ha⟩

/-- The members stay the same. -/
theorem Replica.sameMembers (h : Replica ch a s ids) (hsame : SameMembers s s')
    (hnotGone : s'.NotGone a → s.NotGone a) : Replica ch a s' ids where
  only k hk := h.only k (hsame.participants ▸ hk)
  member hmember := by
    obtain ⟨hnodup, hids⟩ := h.member (hsame.participants ▸ hmember)
    refine ⟨hnodup, fun c => ?_⟩
    rw [hids, hsame.participants, hsame.lost]
  absent hmember hnot := h.absent (hsame.participants ▸ hmember) (hnotGone hnot)

/-- Who enters a channel is the only new member. -/
theorem Entered.rel_iff (h : Entered s c k s') (k' c' : ℤ) : SetMap.Rel s'.participants k' c' ↔
    (k' = k ∧ c' = c) ∨ SetMap.Rel s.participants k' c' := by
  rw [h.participants, SetMap.rel_insertAt]

/-- The other clients are members where they have been members. -/
theorem Entered.rel_iff_of_ne (h : Entered s c k s') {c' : ℤ} (hne : c ≠ c') (k' : ℤ) :
    SetMap.Rel s'.participants k' c' ↔ SetMap.Rel s.participants k' c' := by
  rw [h.rel_iff]
  exact or_iff_right fun hnew => hne hnew.2.symm

/-- Another client enters another channel, or the channel before the client does. -/
theorem Replica.entered_quietly (h : Replica ch a s ids) (hentered : Entered s c k s') (hne : c ≠ a)
    (hnotGone : s'.NotGone a → s.NotGone a) (hother : k = ch → ¬ SetMap.Rel s.participants ch a) :
    Replica ch a s' ids := by
  have hself := hentered.rel_iff_of_ne hne
  refine ⟨fun k' hk' => h.only k' ((hself k').mp hk'), fun hmember => ?_, fun hmember hnot => ?_⟩
  · have hmember := (hself ch).mp hmember
    obtain ⟨hnodup, hids⟩ := h.member hmember
    refine ⟨hnodup, fun c' => ?_⟩
    rw [hids, hentered.rel_iff, hentered.lost]
    exact and_congr_left fun _ => (or_iff_right fun hnew => hother hnew.1.symm hmember).symm
  · exact h.absent (fun hold => hmember ((hself ch).mpr hold)) (hnotGone hnot)

/-- Another client enters the channel and is added to the list. -/
theorem Replica.entered_other (h : Replica ch a s ids) (hentered : Entered s c ch s')
    (hnew : ¬ SetMap.Rel s.participants ch c) (hlost : ¬ s.Lost c)
    (hmember : SetMap.Rel s.participants ch a) : Replica ch a s' (ids ++ [c]) := by
  obtain ⟨hnodup, hids⟩ := h.member hmember
  have hrel := hentered.rel_iff
  refine ⟨fun k' hk' => ?_, fun _ => ⟨?_, fun c' => ?_⟩, fun hnot => ?_⟩
  · exact ((hrel k' a).mp hk').elim And.left (h.only k')
  · rw [List.nodup_append]
    refine ⟨hnodup, List.nodup_singleton c, fun x hx y hy hxy => ?_⟩
    rw [List.mem_singleton.mp hy] at hxy
    exact hnew (hxy ▸ ((hids x).mp hx).1)
  · rw [List.mem_append, List.mem_singleton, hids, hrel, hentered.lost]
    constructor
    · rintro (⟨hc', himp⟩ | rfl)
      · exact ⟨.inr hc', himp⟩
      · exact ⟨.inl ⟨rfl, rfl⟩, fun hl => absurd hl hlost⟩
    · rintro ⟨⟨-, rfl⟩ | hc', himp⟩
      · exact .inr rfl
      · exact .inl ⟨hc', himp⟩
  · exact absurd ((hrel ch a).mpr (.inr hmember)) hnot

/-- The client enters its channel and gets the list of its members. -/
theorem Replica.entered_self (h : Replica ch a s ids) (hentered : Entered s a ch s')
    (hnew : ¬ SetMap.Rel s.participants ch a) (hnotGone : s.NotGone a) (hlost : s.NoneLost ch a) :
    Replica ch a s' (ids ++ (SetMap.value s'.participants ch).toList) := by
  rw [h.absent hnew hnotGone, List.nil_append]
  have hrel := hentered.rel_iff
  refine ⟨fun k' hk' => ?_, fun _ => ⟨SetMap.nodup_toList _, fun c' => ?_⟩, fun hnot => ?_⟩
  · exact ((hrel k' a).mp hk').elim And.left (h.only k')
  · rw [ExtTreeSet.mem_toList, hentered.lost]
    refine ⟨fun hc' => ⟨hc', fun hl => ?_⟩, And.left⟩
    rcases (hrel ch c').mp hc' with ⟨-, rfl⟩ | hold
    · rfl
    · by_contra hne
      exact hlost c' (ExtTreeSet.mem_toList.mpr hold) hne hl
  · exact absurd ((hrel ch a).mpr (.inl ⟨rfl, rfl⟩)) hnot

/-- One more connection is lost, and the members stay the same. -/
structure Unconnected (s : VirtualServer) (c : ℤ) (s' : VirtualServer) : Prop where
  participants : s'.participants = s.participants
  lost : ∀ k, s'.Lost k ↔ s.Lost k ∨ k = c

/-- What happens when a connection is lost. -/
theorem unconnected_of_onUnconnected {client : ServerClientEntity} (hconn : c ∈ s.connections)
    (h : ClientConnectionHandler.onUnconnected s c client = (s', out)) : Unconnected s c s' := by
  obtain ⟨rfl, -⟩ := Prod.mk.inj h
  refine ⟨rfl, fun k => ?_⟩
  obtain ⟨conn, hfound⟩ := Table.mem_iff.mp hconn
  change ((s.connections.modify c _)[k]?).map _ = _ ↔ _
  rw [ExtTreeMap.getElem?_modify, Lost]
  split
  next hk =>
    obtain rfl := Std.compare_eq_iff_eq.mp hk
    rw [hfound]
    simp
  next hk => exact (or_iff_left fun heq => hk (Std.compare_eq_iff_eq.mpr heq.symm)).symm

/-- Another member is lost and removed from the list. -/
theorem Replica.unconnected_member (h : Replica ch a s ids) (hlost : Unconnected s c s') (hne : c ≠ a)
    (hmember : SetMap.Rel s.participants ch a) : Replica ch a s' (ids.erase c) := by
  obtain ⟨hnodup, hids⟩ := h.member hmember
  refine ⟨fun k hk => h.only k (hlost.participants ▸ hk), fun _ => ⟨hnodup.erase c, fun c' => ?_⟩,
    fun hnot => absurd (hlost.participants ▸ hmember) hnot⟩
  rw [hnodup.mem_erase_iff, hids, hlost.participants, hlost.lost]
  constructor
  · rintro ⟨hc, hrel, himp⟩
    exact ⟨hrel, fun hl => himp (hl.resolve_right hc)⟩
  · rintro ⟨hrel, himp⟩
    exact ⟨fun hc => hne (hc ▸ himp (.inr hc)), hrel, fun hl => himp (.inl hl)⟩

/-- A lost connection that is not the one of another member leaves the list as it is. -/
theorem Replica.unconnected_other (h : Replica ch a s ids) (hlost : Unconnected s c s')
    (hother : SetMap.Rel s.participants ch a → SetMap.Rel s.participants ch c → c = a)
    (hnotGone : s'.NotGone a → s.NotGone a) : Replica ch a s' ids := by
  refine ⟨fun k hk => h.only k (hlost.participants ▸ hk), fun hmember => ?_, fun hmember hnot => ?_⟩
  · have hmember := hlost.participants ▸ hmember
    obtain ⟨hnodup, hids⟩ := h.member hmember
    refine ⟨hnodup, fun c' => ?_⟩
    rw [hids, hlost.participants, hlost.lost]
    refine and_congr_right fun hrel => ⟨fun himp hl => ?_, fun himp hl => himp (.inl hl)⟩
    rcases hl with hl | rfl
    · exact himp hl
    · exact hother hmember hrel
  · exact h.absent (hlost.participants ▸ hmember) (hnotGone hnot)

/-- The members after the connection of a lost client has been destroyed. -/
structure Destroyed (s : VirtualServer) (c : ℤ) (s' : VirtualServer) : Prop where
  participants : ∀ k c', SetMap.Rel s'.participants k c' ↔ SetMap.Rel s.participants k c' ∧ c' ≠ c
  lost : ∀ k, s'.Lost k ↔ s.Lost k ∧ k ≠ c
  gone : ¬ s'.NotGone c

/-- What the destructor of a connection does. -/
theorem destroyed_of_destroy (hmembership : s.Membership) (hsessions : s.Sessions) (hlost : s.Lost c)
    (h : ClientConnectionHandler.destroy s c = some s') : Destroyed s c s' := by
  obtain ⟨t, hleave, rfl⟩ := Option.map_eq_some_iff.mp h
  obtain ⟨t', hrun, ht⟩ := hmembership.removeClientFromChannels c
  obtain rfl := Option.some.inj (hrun.symm.trans hleave)
  have hconnections := removeClientFromChannels_eq VirtualServer.connections (fun _ _ _ _ _ => rfl) hleave
  have hleaves := leaves_removeClientFromChannels hleave
  refine ⟨fun k c' => ?_, fun k => ?_, ?_⟩
  · change SetMap.Rel t'.participants k c' ↔ _
    rw [ht.symm, hmembership.rel_removeClientFromChannels hleave, hmembership.symm]
  · change ((t'.connections.erase c)[k]?).map _ = _ ↔ _
    rw [Table.getElem?_erase, hconnections, Lost]
    split
    next hk => simp [hk]
    next hk => simp [Ne.symm hk]
  · have hconn : c ∈ s.connections := by
      obtain ⟨conn, hfound, -⟩ := Option.map_eq_some_iff.mp hlost
      exact Table.mem_of_getElem? hfound
    have hbound := (hsessions.client c ((hsessions.connected c).mp hconn)).2
    rintro (hmem | hnext)
    · change c ∈ t'.clients.erase c at hmem
      rw [ExtTreeMap.mem_erase] at hmem
      exact hmem.1 ReflOrd.compare_self
    · change t'.nextClientId < c at hnext
      rw [hleaves.nextClientId] at hnext
      omega

/-- A lost client that goes is not in the list. -/
theorem Replica.destroyed (h : Replica ch a s ids) (hdestroyed : Destroyed s c s') (hlost : s.Lost c)
    (hnotGone : s'.NotGone a → s.NotGone a) : Replica ch a s' ids := by
  refine ⟨fun k hk => h.only k ((hdestroyed.participants k a).mp hk).1, fun hmember => ?_,
    fun hmember hnot => ?_⟩
  · obtain ⟨hmember, hne⟩ := (hdestroyed.participants ch a).mp hmember
    obtain ⟨hnodup, hids⟩ := h.member hmember
    refine ⟨hnodup, fun c' => ?_⟩
    rw [hids, hdestroyed.participants, hdestroyed.lost]
    constructor
    · rintro ⟨hrel, himp⟩
      refine ⟨⟨hrel, ?_⟩, fun hl => himp hl.1⟩
      rintro rfl
      exact hne (himp hlost).symm
    · rintro ⟨⟨hrel, hc'⟩, himp⟩
      exact ⟨hrel, fun hl => himp ⟨hl, hc'⟩⟩
  · refine h.absent (fun hold => ?_) (hnotGone hnot)
    have hca : a ≠ c := by
      rintro rfl
      exact hdestroyed.gone hnot
    exact hmember ((hdestroyed.participants ch a).mpr ⟨hold, hca⟩)

/-- What holds in every state that the server can reach. -/
structure Sound (s : VirtualServer) : Prop where
  keyed : s.Keyed
  sessions : s.Sessions
  membership : s.Membership
  live : s.MembersLive
  allowed : s.AllowedDefault

/-- It does hold in these states. -/
theorem sound_reachable {fromUtf8 : List UInt8 → String} {opts : VirtualServerOptions}
    {bans : ExtTreeSet String} (hreach : Runs.Reachable (step fromUtf8) (init opts bans) s) :
    s.Sound where
  keyed := (sessions_reachable hreach).1
  sessions := (sessions_reachable hreach).2.2
  membership := (membership_reachable hreach).1
  live := (membership_reachable hreach).2
  allowed := (reachable_invariant (allowedDefault_init opts bans)
    (fun _ _ _ _ h htrans => h.transition htrans) hreach).2

/-- By default, every client sees every other one. -/
theorem Sound.sees (h : s.Sound) (hvisible : s.DefaultVisibility) {client observer : ServerClientEntity}
    (hclient : s.clients[c]? = some client) (hobserver : s.clients[a]? = some observer) :
    observer.isAllowedToSee client = true := by
  rw [h.allowed.isAllowedToSee_iff hobserver,
    hvisible (c, client) (ExtTreeMap.mem_toList_iff_getElem?_eq_some.mpr hclient)]

/-- The ids of clients can be written to a document and read back. -/
theorem Sound.range (h : s.Sound) (hbound : s.nextClientId < 2 ^ 31) {client : ServerClientEntity}
    (hclient : s.clients[c]? = some client) : -2 ^ 31 ≤ client.id ∧ client.id < 2 ^ 31 := by
  obtain ⟨hpositive, hle⟩ := h.sessions.client c (Table.mem_of_getElem? hclient)
  rw [h.keyed.client hclient]
  omega

/-- What an event means for the list of a client: the list follows the members, and if a member is lost
afterwards, it was lost before or the client is told. -/
structure Follows (ch a : ℤ) (s s' : VirtualServer) (ids : List ℤ) (messages : List Message) : Prop where
  replica : Replica ch a s' (InFlight.settled Message.updateIds ids messages)
  lost : SetMap.Rel s'.participants ch a → ¬ s'.NoneLost ch a →
    (SetMap.Rel s.participants ch a ∧ ¬ s.NoneLost ch a) ∨ messages ≠ []

/-- Lost members that were lost members before. -/
theorem not_noneLost_of_imp (h : ¬ s'.NoneLost ch a)
    (himp : ∀ c, c ≠ a → SetMap.Rel s'.participants ch c → s'.Lost c →
      SetMap.Rel s.participants ch c ∧ s.Lost c) : ¬ s.NoneLost ch a := by
  intro hnone
  refine h fun c hc hne hlost => ?_
  obtain ⟨hrel, hl⟩ := himp c hne (ExtTreeSet.mem_toList.mp hc) hlost
  exact hnone c (ExtTreeSet.mem_toList.mpr hrel) hne hl

variable {messages : List Message}

/-- The members stay the same, and the client is told nothing about them. -/
theorem Replica.follows_sameMembers (h : Replica ch a s ids) (hsame : SameMembers s s')
    (hnotGone : s'.NotGone a → s.NotGone a)
    (hquiet : ∀ message ∈ messages, ∀ ids, message.updateIds ids = ids) :
    Follows ch a s s' ids messages where
  replica := by
    rw [InFlight.settled_of_ignored hquiet]
    exact h.sameMembers hsame hnotGone
  lost hmember hlost := by
    rw [hsame.participants] at hmember
    refine .inl ⟨hmember, not_noneLost_of_imp hlost fun c _ hrel hl => ?_⟩
    exact ⟨hsame.participants ▸ hrel, (hsame.lost c).mp hl⟩

/-- Another client enters a channel without being noticed by the client. -/
theorem Replica.follows_entered_quietly (h : Replica ch a s ids) (hentered : Entered s c k s')
    (hne : c ≠ a) (hnotGone : s'.NotGone a → s.NotGone a)
    (hother : k = ch → ¬ SetMap.Rel s.participants ch a)
    (hquiet : ∀ message ∈ messages, ∀ ids, message.updateIds ids = ids) :
    Follows ch a s s' ids messages where
  replica := by
    rw [InFlight.settled_of_ignored hquiet]
    exact h.entered_quietly hentered hne hnotGone hother
  lost hmember hlost := by
    rw [hentered.rel_iff_of_ne hne] at hmember
    refine .inl ⟨hmember, not_noneLost_of_imp hlost fun c' _ hrel hl => ?_⟩
    rw [hentered.rel_iff] at hrel
    exact ⟨hrel.resolve_left fun hnew => hother hnew.1.symm hmember, (hentered.lost c').mp hl⟩

/-- A client that is no member yet enters a channel, and its siblings are told. -/
theorem Replica.follows_joined_other (h : Replica ch a s ids) (hentered : Entered s c k s') (hne : c ≠ a)
    (hnotGone : s'.NotGone a → s.NotGone a)
    (hnew : SetMap.Rel s.participants ch a → ¬ SetMap.Rel s.participants ch c)
    (hlost : SetMap.Rel s.participants ch a → k = ch → ¬ s.Lost c)
    (htold : k = ch → SetMap.Rel s.participants ch a → ∃ message, messages = [message] ∧
      message.updateIds ids = ids ++ [c])
    (hquiet : k ≠ ch ∨ ¬ SetMap.Rel s.participants ch a → messages = []) :
    Follows ch a s s' ids messages := by
  by_cases hk : k = ch ∧ SetMap.Rel s.participants ch a
  · obtain ⟨rfl, hmember⟩ := hk
    obtain ⟨message, rfl, hids⟩ := htold rfl hmember
    refine ⟨?_, fun _ _ => .inr (List.cons_ne_nil _ _)⟩
    rw [InFlight.settled_cons, hids]
    exact h.entered_other hentered (hnew hmember) (hlost hmember rfl) hmember
  · have hnone := hquiet (Decidable.not_and_iff_not_or_not.mp hk)
    rw [hnone]
    apply h.follows_entered_quietly hentered hne hnotGone (fun heq hmember => hk ⟨heq, hmember⟩)
    exact fun message hmessage => absurd hmessage List.not_mem_nil

/-- The client enters its channel and is sent the list of members. -/
theorem Replica.follows_joined_self (h : Replica ch a s ids) (hentered : Entered s a ch s')
    (hnew : ¬ SetMap.Rel s.participants ch a) (hnotGone : s.NotGone a) (hlost : s.NoneLost ch a)
    (hids : InFlight.settled Message.updateIds ids messages =
      ids ++ (SetMap.value s'.participants ch).toList) : Follows ch a s s' ids messages where
  replica := hids ▸ h.entered_self hentered hnew hnotGone hlost
  lost _ hl := by
    refine absurd hlost (not_noneLost_of_imp hl fun c hne hrel hl => ?_)
    rw [hentered.rel_iff] at hrel
    exact ⟨hrel.resolve_left fun heq => hne heq.2, (hentered.lost c).mp hl⟩

/-- The connection of a client is lost, and its siblings are told. -/
theorem Replica.follows_unconnected (h : Replica ch a s ids) (hlost : Unconnected s c s')
    (hnotGone : s'.NotGone a → s.NotGone a)
    (htold : c ≠ a → SetMap.Rel s.participants ch c → SetMap.Rel s.participants ch a →
      ∃ message, messages = [message] ∧ message.updateIds ids = ids.erase c)
    (hquiet : ¬(c ≠ a ∧ SetMap.Rel s.participants ch c ∧ SetMap.Rel s.participants ch a) →
      messages = []) : Follows ch a s s' ids messages := by
  by_cases hk : c ≠ a ∧ SetMap.Rel s.participants ch c ∧ SetMap.Rel s.participants ch a
  · obtain ⟨hne, hc, hmember⟩ := hk
    obtain ⟨message, rfl, hids⟩ := htold hne hc hmember
    refine ⟨?_, fun _ _ => .inr (List.cons_ne_nil _ _)⟩
    rw [InFlight.settled_cons, hids]
    exact h.unconnected_member hlost hne hmember
  · rw [hquiet hk]
    refine ⟨h.unconnected_other hlost (fun hmember hc => ?_) hnotGone, fun hmember hl => .inl ?_⟩
    · by_contra hne
      exact hk ⟨hne, hc, hmember⟩
    · rw [hlost.participants] at hmember
      refine ⟨hmember, not_noneLost_of_imp hl fun c' hne hrel hl => ?_⟩
      rw [hlost.participants] at hrel
      refine ⟨hrel, ((hlost.lost c').mp hl).resolve_right ?_⟩
      rintro rfl
      exact hk ⟨hne, hrel, hmember⟩

/-- A lost client goes, and nobody is told. -/
theorem Replica.follows_destroyed (h : Replica ch a s ids) (hdestroyed : Destroyed s c s')
    (hlost : s.Lost c) (hnotGone : s'.NotGone a → s.NotGone a) : Follows ch a s s' ids [] where
  replica := h.destroyed hdestroyed hlost hnotGone
  lost hmember hl := by
    refine .inl ⟨((hdestroyed.participants ch a).mp hmember).1,
      not_noneLost_of_imp hl fun c' _ hrel hl => ?_⟩
    exact ⟨((hdestroyed.participants ch c').mp hrel).1, ((hdestroyed.lost c').mp hl).1⟩

end Step

end VirtualServer

end Ts3Video
