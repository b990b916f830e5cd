import Ts3Video.Client.ParticipantList

/-!
# The list of members and the channel

When no message to a client is in flight, its list is the channel that it has joined. This takes
orderly runs: the client adds whoever it is told of, and hears of a lost connection before the server
gives the member up.
-/

namespace Ts3Video

open Std NetworkClient ActionBase

namespace VirtualServer

instance (s : VirtualServer) : Decidable s.DefaultVisibility :=
  inferInstanceAs (Decidable (∀ entry ∈ s.clients.toList, _))

instance (s : VirtualServer) (ch a : ℤ) : Decidable (s.NoneLost ch a) :=
  inferInstanceAs (Decidable (∀ c ∈ (SetMap.value s.participants ch).toList, c ≠ a → ¬ s.Lost c))

/-- All clients have the default visibility level, and the client joins no other channel and creates
none. -/
def JoinsOnly (ch a : ℤ) (s : VirtualServer) (e : Event) : Prop :=
  s.DefaultVisibility ∧ (∀ join ∈ s.grantedJoin? e, join.1 = a → join.2 = ch) ∧
    ∀ request ∈ s.admitted? e, request.1.id = a → request.2.1 ≠ .CreateChannelAction

instance (ch a : ℤ) (s : VirtualServer) (e : Event) : Decidable (JoinsOnly ch a s e) :=
  inferInstanceAs (Decidable (_ ∧ (∀ join ∈ s.grantedJoin? e, _) ∧ ∀ request ∈ s.admitted? e, _))

/-- Once the client is a member, no member joins a channel again, and nobody joins its channel over a
lost connection. When the client joins itself, no other member is lost. -/
def OrderlyJoin (ch a : ℤ) (s : VirtualServer) (join : ℤ × ℤ) : Prop :=
  (SetMap.Rel s.participants ch a →
    ¬ SetMap.Rel s.participants ch join.1 ∧ (join.2 = ch → ¬ s.Lost join.1)) ∧
      (join.1 = a → s.NoneLost ch a)

instance (ch a : ℤ) (s : VirtualServer) (join : ℤ × ℤ) : Decidable (OrderlyJoin ch a s join) :=
  inferInstanceAs (Decidable ((_ → _) ∧ (_ → _)))

variable {fromUtf8 : List UInt8 → String} {s s' : VirtualServer} {e : Event} {ch a c : ℤ}
  {ids : List ℤ} {out : List Effect}

/-- A member is a client that is there and connected. -/
theorem Sound.member (h : s.Sound) {k : ℤ} (hmember : SetMap.Rel s.participants k c) :
    ∃ client, s.clients[c]? = some client ∧ c ∈ s.connections := by
  have hmem := h.live k c hmember
  obtain ⟨client, hclient⟩ := Table.mem_iff.mp hmem
  exact ⟨client, hclient, (h.sessions.connected c).mpr hmem⟩

/-- Nobody is a member of a channel that is not there yet. -/
theorem Sound.not_rel_next (h : s.Sound) (c : ℤ) :
    ¬ SetMap.Rel s.participants (s.nextChannelId + 1) c := by
  intro hmember
  have hbound := h.membership.bound (h.membership.live.mpr ⟨c, hmember⟩)
  omega

/-- A client that joins a channel which the client is a member of is added to its list. -/
theorem follows_joined (hsound : s.Sound) (hsound' : s'.Sound) (hvisible : s.DefaultVisibility)
    (hbound : s.nextClientId < 2 ^ 31) {k : ℤ} {client : ServerClientEntity} {correlationId : UInt32}
    {params channel : QJsonObject} (honly : c = a → k = ch) (horderly : OrderlyJoin ch a s (c, k))
    (hclient : s.clients[c]? = some client) (hclients : s'.clients = s.clients)
    (hentered : Entered s c k s') (hnotGone : s'.NotGone a → s.NotGone a) (h : Replica ch a s ids)
    (hout : out = sendDefaultOkResponse ⟨c, correlationId, params⟩ [("channel", .object channel),
        ("participants", .array (s'.listedMembers client k))] ::
      broadcastNotificationToSiblingClients s' ⟨c, correlationId, params⟩ client
        "notify.clientjoinedchannel"
        [("channel", .object channel), ("client", .object client.toQJsonObject)]) :
    Follows ch a s s' ids (messagesTo a .onJoinChannelFinished out) := by
  have hid := hsound.keyed.client hclient
  obtain ⟨hlow, hhigh⟩ := hsound.range hbound hclient
  have hvisible' : s'.DefaultVisibility := by
    rw [DefaultVisibility, hclients]
    exact hvisible
  have hsees : a ∈ s'.getSiblingClientIds client.id false → ∃ observer,
      s'.clients[a]? = some observer ∧ observer.isAllowedToSee client = true ∧ a ∈ s'.connections := by
    intro hsibling
    obtain ⟨k', -, hmember⟩ := mem_siblings_iff_sharesChannel.mp hsibling
    obtain ⟨observer, hobserver, hconn⟩ := hsound'.member hmember
    exact ⟨observer, hobserver, hsound'.sees hvisible' (hclients ▸ hclient) hobserver, hconn⟩
  rw [hout, messagesTo_cons_response, messagesTo_broadcast _ hsees]
  by_cases hca : c = a
  · subst hca
    obtain rfl := honly rfl
    have hnew : ¬ SetMap.Rel s.participants k c := fun hmember => (horderly.1 hmember).1 hmember
    rw [if_pos rfl, if_neg fun hboth => hboth.2 rfl, List.append_nil]
    refine h.follows_joined_self hentered hnew (.inl (Table.mem_of_getElem? hclient)) (horderly.2 rfl) ?_
    rw [InFlight.settled_cons, InFlight.settled_nil, updateIds_participants,
      ids_listedMembers hsound'.keyed]
    intro c' hmember
    obtain ⟨member, hfound, -⟩ := hsound'.member hmember
    have hfound' : s.clients[c']? = some member := hclients ▸ hfound
    have hrange := hsound.range hbound hfound'
    rw [hsound.keyed.client hfound'] at hrange
    exact ⟨member, hfound, hsound.sees hvisible hfound' hclient, hrange⟩
  · have hself := hentered.rel_iff_of_ne hca
    have hsibling : a ∈ s'.getSiblingClientIds client.id false ↔
        SetMap.Rel s'.participants ch c ∧ SetMap.Rel s.participants ch a := by
      rw [hid, mem_siblings_iff_sharesChannel, ← hself]
      exact sharesChannel_iff_of_only (fun k' hk' => h.only k' ((hself k').mp hk')) hsound'.membership
    rw [if_neg hca, List.nil_append]
    refine h.follows_joined_other hentered hca hnotGone (fun hmember => (horderly.1 hmember).1)
      (fun hmember => (horderly.1 hmember).2) ?_ ?_
    · rintro rfl hmember
      have hnew : SetMap.Rel s'.participants k c := (hentered.rel_iff k c).mpr (.inl ⟨rfl, rfl⟩)
      rw [if_pos ⟨hsibling.mpr ⟨hnew, hmember⟩, Ne.symm hca⟩]
      refine ⟨_, rfl, ?_⟩
      rw [updateIds_joined ids _ hlow hhigh, hid]
    · intro hother
      refine if_neg fun ⟨hmem, _⟩ => ?_
      obtain ⟨hc, hmember⟩ := hsibling.mp hmem
      rw [hentered.rel_iff] at hc
      rcases hc with ⟨hk, -⟩ | hc
      · exact hother.elim (fun hne => hne hk.symm) (fun hnot => hnot hmember)
      · exact (horderly.1 hmember).1 hc

/-- The connection of a client is lost. -/
theorem follows_lost (hsound : s.Sound) (hvisible : s.DefaultVisibility)
    (hbound : s.nextClientId < 2 ^ 31) {client : ServerClientEntity}
    (hclient : s.clients[c]? = some client) (hnotGone : s'.NotGone a → s.NotGone a)
    (hhandle : ClientConnectionHandler.onUnconnected s c client = (s', out))
    (h : Replica ch a s ids) (slot : ReplySlot) : Follows ch a s s' ids (messagesTo a slot out) := by
  have hid := hsound.keyed.client hclient
  obtain ⟨hlow, hhigh⟩ := hsound.range hbound hclient
  have hconn : c ∈ s.connections := (hsound.sessions.connected c).mpr (Table.mem_of_getElem? hclient)
  have hsibling : a ∈ s.getSiblingClientIds c true ∧ a ∈ s.connections ∧ a ≠ c ↔
      c ≠ a ∧ SetMap.Rel s.participants ch c ∧ SetMap.Rel s.participants ch a := by
    rw [← sharesChannel_iff_of_only h.only hsound.membership]
    constructor
    · rintro ⟨hmem, -, hne⟩
      exact ⟨hne.symm, (mem_getSiblingClientIds.mp hmem).1⟩
    · rintro ⟨hne, hshares⟩
      obtain ⟨k, -, hmember⟩ := id hshares
      obtain ⟨observer, hobserver, hconn⟩ := hsound.member hmember
      exact ⟨(mem_getSiblingClientIds_iff hclient hobserver).mpr
        ⟨hshares, hsound.sees hvisible hobserver hclient⟩, hconn, hne.symm⟩
  rw [messagesTo_unconnected slot hhandle]
  refine h.follows_unconnected (unconnected_of_onUnconnected hconn hhandle) hnotGone ?_ ?_
  · intro hne hc hmember
    rw [if_pos (hsibling.mpr ⟨hne, hc, hmember⟩)]
    refine ⟨_, rfl, ?_⟩
    rw [updateIds_disconnected ids hlow hhigh, hid]
  · exact fun hother => if_neg (mt hsibling.mp hother)

/-- The list of a client follows the members of its channel. -/
theorem follows_of_step (hsound : s.Sound) (hsound' : s'.Sound) (hjoins : JoinsOnly ch a s e)
    (hbound : s.nextClientId < 2 ^ 31) (horderly : ∀ join ∈ s.grantedJoin? e, OrderlyJoin ch a s join)
    (hstep : step fromUtf8 s e = some (s', out)) (h : Replica ch a s ids) :
    Follows ch a s s' ids (messagesTo a e.replySlot out) := by
  obtain ⟨hvisible, honly, hcreates⟩ := hjoins
  have hnotGone : s'.NotGone a → s.NotGone a := (sessionChange_of_step hstep).notGone
  cases traffic_of_step hsound.keyed hsound.sessions hstep with
  | quiet hmembers hquiet =>
    exact h.follows_sameMembers hmembers hnotGone fun message hmessage =>
      (hquiet.messagesTo hmessage).ids
  | accepted _ hmembers hout =>
    refine h.follows_sameMembers hmembers hnotGone fun message hmessage ids => ?_
    rw [hout] at hmessage
    obtain ⟨effect, heffect, hsome⟩ := List.mem_filterMap.mp hmessage
    obtain rfl := List.mem_singleton.mp heffect
    rw [sendMediaAuthSuccessNotify, Effect.message?] at hsome
    split at hsome
    · obtain rfl := Option.some.inj hsome
      rfl
    · contradiction
  | @created c client params hadmits hentered hquiet =>
    have hne : c ≠ a := by
      rintro rfl
      exact hcreates _ hadmits.admitted? (hsound.keyed.client hadmits.live) rfl
    refine h.follows_entered_quietly hentered hne hnotGone ?_ fun message hmessage =>
      (hquiet.messagesTo hmessage).ids
    rintro rfl
    exact hsound.not_rel_next a
  | joined hgranted hclient hclients hslot hentered hout =>
    rw [hslot]
    exact follows_joined hsound hsound' hvisible hbound (honly _ hgranted) (horderly _ hgranted) hclient
      hclients hentered hnotGone h hout
  | unconnected _ hclient hhandle =>
    exact follows_lost hsound hvisible hbound hclient hnotGone hhandle h _
  | destroyed _ hlost hdestroy hout =>
    rw [hout]
    exact h.follows_destroyed (destroyed_of_destroy hsound.membership hsound.sessions hlost hdestroy)
      hlost hnotGone

end VirtualServer

namespace ClientSystem

/-- The server is only asked for what keeps the client in one channel and everybody visible. -/
def JoinsOnly (ch a : ℤ) (s : ClientSystem) : Event → Prop
  | .server event => VirtualServer.JoinsOnly ch a s.server event
  | _ => True

/-- Joins are orderly, ids of clients fit into a message, and when the client receives the last message in
flight, no other member of its channel is lost. -/
def Orderly (ch a : ℤ) (s : ClientSystem) : Event → Prop
  | .server event => s.server.nextClientId < 2 ^ 31 ∧
      ∀ join ∈ s.server.grantedJoin? event, VirtualServer.OrderlyJoin ch a s.server join
  | .receive => SetMap.Rel s.server.participants ch a → s.messages.length = 1 → s.server.NoneLost ch a
  | _ => True

instance (ch a : ℤ) (s : ClientSystem) : ∀ e, Decidable (JoinsOnly ch a s e)
  | .server event => inferInstanceAs (Decidable (VirtualServer.JoinsOnly ch a s.server event))
  | .receive => inferInstanceAs (Decidable True)
  | .enableVideoStream _ _ _ => inferInstanceAs (Decidable True)
  | .disableVideoStream => inferInstanceAs (Decidable True)

instance (ch a : ℤ) (s : ClientSystem) : ∀ e, Decidable (Orderly ch a s e)
  | .server event => inferInstanceAs (Decidable (_ ∧
      ∀ join ∈ s.server.grantedJoin? event, VirtualServer.OrderlyJoin ch a s.server join))
  | .receive => inferInstanceAs (Decidable (_ → _ → _))
  | .enableVideoStream _ _ _ => inferInstanceAs (Decidable True)
  | .disableVideoStream => inferInstanceAs (Decidable True)

/-- The list will be right once all messages in flight have been received, and the loss of a member is
among them. -/
structure ListInvariant (fromUtf8 : List UInt8 → String) (opts : VirtualServerOptions)
    (bans : ExtTreeSet String) (ch a : ℤ) (s : ClientSystem) : Prop where
  reachable : Runs.Reachable (VirtualServer.step fromUtf8) (VirtualServer.init opts bans) s.server
  replica : s.server.Replica ch a
    (InFlight.settled Message.updateIds s.client.clientModel.ids s.messages)
  lost : SetMap.Rel s.server.participants ch a → ¬ s.server.NoneLost ch a → s.messages ≠ []

variable {fromUtf8 : List UInt8 → String} {opts : VirtualServerOptions} {bans : ExtTreeSet String}
  {ch a : ℤ} {s s' : ClientSystem}

/-- A step of the server keeps the invariant. -/
theorem ListInvariant.server (h : ListInvariant fromUtf8 opts bans ch a s) {server : VirtualServer}
    {event : VirtualServer.Event} {out : List Effect} {accepted : List String}
    (hjoins : JoinsOnly ch a s (.server event)) (horderly : Orderly ch a s (.server event))
    (hstep : VirtualServer.step fromUtf8 s.server event = some (server, out)) :
    ListInvariant fromUtf8 opts bans ch a { s with
      server
      messages := s.messages ++ messagesTo a event.replySlot out
      accepted } := by
  have hreach := h.reachable.next hstep
  obtain ⟨hreplica, hlost⟩ := VirtualServer.follows_of_step (VirtualServer.sound_reachable h.reachable)
    (VirtualServer.sound_reachable hreach) hjoins horderly.1 horderly.2 hstep h.replica
  refine ⟨hreach, ?_, fun hmember hl hempty => ?_⟩
  · rw [← InFlight.settled_append] at hreplica
    exact hreplica
  · obtain ⟨hnone, hmore⟩ := List.append_eq_nil_iff.mp hempty
    rcases hlost hmember hl with ⟨hmember, hl⟩ | hmessages
    · exact h.lost hmember hl hnone
    · exact hmessages hmore

/-- A message that is received keeps the invariant. -/
theorem ListInvariant.receive (h : ListInvariant fromUtf8 opts bans ch a s)
    (horderly : Orderly ch a s .receive) {message : Message} {messages : List Message}
    {client : NetworkClient} (hmessages : s.messages = message :: messages)
    (hreceive : s.client.receive message = some client) :
    ListInvariant fromUtf8 opts bans ch a { s with client, messages } := by
  have hreplica := h.replica
  rw [hmessages, InFlight.settled_cons, ← ids_receive hreceive] at hreplica
  refine ⟨h.reachable, hreplica, fun hmember hl hempty => hl (horderly hmember ?_)⟩
  rw [hmessages, List.length_cons, List.length_eq_zero_iff.mpr hempty]

end ClientSystem

end Ts3Video
