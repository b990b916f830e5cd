import Ts3Video.Server.Lookups
import Ts3Video.Server.RelayEntries
import Ts3Video.Server.Sessions

/-!
# What is left of a client that has gone

The destructor removes a client from all tables but that of the tokens. A token that has not been used
by then keeps the id of its client, and a lookup of an entry that is not there leaves an entry with an
id that no client has.
-/

namespace Ts3Video

open Std

/-- The table of recipients names the client, as a sender, as a receiver or as the target of recovery
requests. -/
inductive MediaRecipients.Names (recips : MediaRecipients) (c : ℤ) : Prop
  | sender {address : QHostAddress} {port : UInt16} {entry : MediaSenderEntity}
    (hentry : recips.sender? address port = some entry) (hid : entry.clientId = c)
  | receiver {address : QHostAddress} {port : UInt16} {entry : MediaSenderEntity}
    {receiver : MediaReceiverEntity} (hentry : recips.sender? address port = some entry)
    (hmem : receiver ∈ entry.receivers) (hid : receiver.clientId = c)
  | key (hkey : c ∈ recips.clientid2receiver)
  | target {k : ℤ} {receiver : MediaReceiverEntity}
    (hentry : recips.clientid2receiver[k]? = some receiver) (hid : receiver.clientId = c)

namespace VirtualServer

/-- The client id occurs in one of the tables that refer to clients. -/
inductive Occurs (s : VirtualServer) (c : ℤ) : Prop
  | connection (hconn : c ∈ s.connections)
  | participant {ch : ℤ} (hmember : SetMap.Rel s.participants ch c)
  | joined (hjoined : c ∈ s.client2channels)
  | sender (hsender : c ∈ s.sender2receiver)
  | receiver {k : ℤ} (hreceiver : SetMap.Rel s.sender2receiver k c)
  | token {token : String} (htoken : s.tokens[token]? = some c)
  | recipients (hnames : s.recipients.Names c)

/-- Every client id that occurs in a table is that of a client. -/
def NoDangling (s : VirtualServer) : Prop := ∀ c : ℤ, s.Occurs c → c ∈ s.clients

/-- The event destroys the connection of a client that has not used its token. -/
def LeavesToken (s : VirtualServer) (e : Event) : Prop :=
  ∃ (c : ℤ) (conn : ClientConnectionHandler) (token : String), e = .destroyed c ∧ c ∈ s.clients ∧
    s.connections[c]? = some conn ∧ conn.deleteLater = true ∧ s.tokens[token]? = some c

variable {s s' : VirtualServer} {e : Event} {c : ℤ} {out : List Effect}

/-- The computed table names clients only. -/
theorem mem_clients_of_names (hkeyed : s.Keyed) (h : s.mediaRecipients.Names c) : c ∈ s.clients := by
  have hclients : ∀ {k : ℤ} {client : ServerClientEntity}, s.clients[k]? = some client →
      client.id ∈ s.clients := by
    intro k client hclient
    rw [hkeyed.client hclient]
    exact Table.mem_of_getElem? hclient
  cases h with
  | sender hentry hid =>
    obtain ⟨k, client, hclient, -, -, -, rfl⟩ := of_sender?_mediaRecipients hentry
    exact hid ▸ hclients hclient
  | receiver hentry hmem hid =>
    obtain ⟨k, client, -, -, -, -, rfl⟩ := of_sender?_mediaRecipients hentry
    obtain ⟨r, -, hreceiver⟩ := mem_receivers.mp hmem
    obtain ⟨other, hother, -, -, rfl⟩ := receiverFor_eq_some.mp hreceiver
    exact hid ▸ hclients hother
  | key hkey =>
    obtain ⟨receiver, hreceiver⟩ := Table.mem_iff.mp hkey
    obtain ⟨client, hclient, -, -⟩ := (getElem?_mediaRecipients hkeyed).mp hreceiver
    exact Table.mem_of_getElem? hclient
  | target hentry hid =>
    obtain ⟨client, hclient, -, rfl⟩ := (getElem?_mediaRecipients hkeyed).mp hentry
    exact hid ▸ hclients hclient

/-- The empty server has no clients, and no table refers to one. -/
theorem noDangling_init (opts : VirtualServerOptions) (bans : ExtTreeSet String) :
    (init opts bans).NoDangling := by
  intro c h
  cases h with
  | connection hconn => exact absurd hconn ExtTreeMap.not_mem_empty
  | participant hmember => exact absurd hmember (SetMap.not_rel_empty _ _)
  | joined hjoined => exact absurd hjoined ExtTreeMap.not_mem_empty
  | sender hsender => exact absurd hsender ExtTreeMap.not_mem_empty
  | receiver hreceiver => exact absurd hreceiver (SetMap.not_rel_empty _ _)
  | token htoken => exact absurd htoken (Table.getElem?_empty_ne _ _)
  | recipients hnames => exact mem_clients_of_names (keyed_init opts bans) hnames

/-- No client goes, and what a table refers to is old or a client. -/
structure RefersToClients (s s' : VirtualServer) : Prop where
  clients : ∀ c : ℤ, c ∈ s.clients → c ∈ s'.clients
  participants : ∀ ch c : ℤ, SetMap.Rel s'.participants ch c →
    SetMap.Rel s.participants ch c ∨ c ∈ s.clients := by exact fun _ _ h => .inl h
  client2channels : ∀ c : ℤ, c ∈ s'.client2channels → c ∈ s.client2channels ∨ c ∈ s.clients := by
    exact fun _ h => .inl h
  sender : ∀ c : ℤ, c ∈ s'.sender2receiver → c ∈ s.sender2receiver ∨ c ∈ s.clients := by
    exact fun _ h => .inl h
  receiver : ∀ k c : ℤ, SetMap.Rel s'.sender2receiver k c →
    SetMap.Rel s.sender2receiver k c ∨ c ∈ s.clients := by exact fun _ _ h => .inl h
  tokens : ∀ (token : String) (c : ℤ), s'.tokens[token]? = some c →
    s.tokens[token]? = some c ∨ c ∈ s.clients := by exact fun _ _ h => .inl h
  recipients : s'.recipients = s.recipients ∨ s'.recipients = s'.mediaRecipients := by
    exact .inl rfl

/-- While no client goes, no id is left dangling. -/
theorem NoDangling.of_refersToClients (h : s.NoDangling) (hkeyed : s'.Keyed)
    (hsessions : s'.Sessions) (hrefers : RefersToClients s s') : s'.NoDangling := by
  intro c hoccurs
  have hold : c ∈ s.clients → c ∈ s'.clients := hrefers.clients c
  cases hoccurs with
  | connection hconn => exact (hsessions.connected c).mp hconn
  | participant hnew =>
    exact hold ((hrefers.participants _ c hnew).elim (fun hc => h c (.participant hc)) id)
  | joined hnew => exact hold ((hrefers.client2channels c hnew).elim (fun hc => h c (.joined hc)) id)
  | sender hnew => exact hold ((hrefers.sender c hnew).elim (fun hc => h c (.sender hc)) id)
  | receiver hnew => exact hold ((hrefers.receiver _ c hnew).elim (fun hc => h c (.receiver hc)) id)
  | token hnew => exact hold ((hrefers.tokens _ c hnew).elim (fun hc => h c (.token hc)) id)
  | recipients hnames =>
    rcases hrefers.recipients with hsame | hcomputed
    · exact hold (h c (.recipients (hsame ▸ hnames)))
    · exact mem_clients_of_names hkeyed (hcomputed ▸ hnames)

/-- A member that joins a channel. -/
theorem refersToClients_withMember {t : VirtualServer} {k ch : ℤ} {client : ServerClientEntity}
    (hclient : s.clients[k]? = some client) (hclients : t.clients = s.clients)
    (hparticipants : t.participants = s.participants)
    (hclient2channels : t.client2channels = s.client2channels)
    (hsender2receiver : t.sender2receiver = s.sender2receiver) (htokens : t.tokens = s.tokens) :
    RefersToClients s (t.withMember k ch).updateMediaRecipients where
  clients c hc := hclients ▸ hc
  participants ch' c h := by
    change SetMap.Rel (SetMap.insertAt t.participants ch k) ch' c at h
    rw [hparticipants, SetMap.rel_insertAt] at h
    exact h.elim (fun hnew => .inr (hnew.2 ▸ Table.mem_of_getElem? hclient)) .inl
  client2channels c h := by
    change c ∈ t.client2channels.insert k _ at h
    rw [hclient2channels, ExtTreeMap.mem_insert, Std.compare_eq_iff_eq] at h
    exact h.elim (fun hnew => .inr (hnew ▸ Table.mem_of_getElem? hclient)) .inl
  sender c h := .inl (hsender2receiver ▸ h)
  receiver k c h := .inl (hsender2receiver ▸ h)
  tokens token c h := .inl (htokens ▸ h)
  recipients := .inr rfl

/-- Every event refers to clients only, unless an entry is missed or a client goes. -/
theorem Transition.refersToClients (h : Transition s e s') (hkeyed : s.Keyed)
    (hmisses : ¬ MissesEntry s e) (hdestroy : ∀ c, e ≠ .destroyed c) : RefersToClients s s' := by
  have hinsert : ∀ (k : ℤ) (client : ServerClientEntity) (c : ℤ), c ∈ s.clients →
      c ∈ s.clients.insert k client := fun k client c hc => ExtTreeMap.mem_insert.mpr (.inr hc)
  cases h with
  | quiet hsame =>
    exact {
      clients := fun c hc => hsame.clients ▸ hc
      participants := fun ch c h => .inl (hsame.participants ▸ h)
      client2channels := fun c h => .inl (hsame.client2channels ▸ h)
      sender := fun c h => .inl (hsame.sender2receiver ▸ h)
      receiver := fun k c h => .inl (hsame.sender2receiver ▸ h)
      tokens := fun token c h => .inl (hsame.tokens ▸ h)
      recipients := .inl hsame.recipients }
  | connect => exact { clients := hinsert _ _ }
  | login name token authentications hclient =>
    refine { clients := hinsert _ _, tokens := fun other c hother => ?_ }
    rcases Table.of_getElem?_insert hother with ⟨-, rfl⟩ | hold
    · rw [hkeyed.client hclient]
      exact .inr (Table.mem_of_getElem? hclient)
    · exact .inl hold
  | sendMedia => exact { clients := hinsert _ _, recipients := .inr rfl }
  | becomeAdmin => exact { clients := hinsert _ _ }
  | changeVisibility => exact { clients := hinsert _ _ }
  | createChannel hadmits => exact refersToClients_withMember hadmits.live rfl rfl rfl rfl rfl
  | createByIdent hadmits => exact refersToClients_withMember hadmits.live rfl rfl rfl rfl rfl
  | join hadmits => exact refersToClients_withMember hadmits.live rfl rfl rfl rfl rfl
  | @addRelation _ _ _ _ sender receiver _ hsender hreceiver =>
    refine {
      clients := fun c hc => hc
      sender := fun c h => ?_
      receiver := fun k c h => ?_
      recipients := .inr rfl }
    · change c ∈ s.sender2receiver.insert sender _ at h
      rw [ExtTreeMap.mem_insert, Std.compare_eq_iff_eq] at h
      exact h.elim (fun hnew => .inr (hnew ▸ hsender)) .inl
    · exact (SetMap.rel_insertAt.mp h).elim (fun hnew => .inr (hnew.2 ▸ hreceiver)) .inl
  | @removeRelation _ _ _ _ sender receiver _ hsender =>
    refine {
      clients := fun c hc => hc
      sender := fun c h => .inl ?_
      receiver := fun k c h => .inl (SetMap.rel_eraseAt.mp (SetMap.rel_dropEmpty.mp h)).1
      recipients := .inr rfl }
    have hmem := SetMap.mem_of_mem_dropEmpty h
    change c ∈ s.sender2receiver.insert sender _ at hmem
    rw [ExtTreeMap.mem_insert, Std.compare_eq_iff_eq] at hmem
    exact hmem.elim (fun hnew => hnew ▸ hsender) id
  | updateRecipients => exact { clients := fun c hc => hc, recipients := .inr rfl }
  | bindToken _ _ htoken hclient =>
    exact {
      clients := hinsert _ _
      tokens := fun other c h => .inl (Table.of_getElem?_erase h).2
      recipients := .inr rfl }
  | dropToken =>
    exact {
      clients := fun c hc => hc
      tokens := fun other c h => .inl (Table.of_getElem?_erase h).2 }
  | @lookupSender datagram address port hparse =>
    obtain ⟨entry, hentry⟩ : ∃ entry, s.recipients.sender? address port = some entry := by
      rw [← Option.ne_none_iff_exists']
      exact fun hnone => hmisses (.sender hparse hnone)
    refine { clients := fun c hc => hc, recipients := .inl ?_ }
    rw [hentry]
    exact MediaRecipients.insertSender_of_sender? hentry
  | @lookupReceiver datagram address port sender hparse =>
    obtain ⟨entry, hentry⟩ : ∃ entry, s.recipients.clientid2receiver[sender]? = some entry := by
      rw [← Option.ne_none_iff_exists']
      exact fun hnone => hmisses (.receiver hparse hnone)
    refine { clients := fun c hc => hc, recipients := .inl ?_ }
    rw [hentry]
    exact MediaRecipients.insertReceiver_of_getElem? hentry
  | destroy => exact absurd rfl (hdestroy _)

/-- Leaving channels does not touch the direct relations. -/
theorem sender2receiver_removeClientFromChannels (h : s.removeClientFromChannels c = some s') :
    s'.sender2receiver = s.sender2receiver :=
  removeClientFromChannels_eq VirtualServer.sender2receiver (fun _ _ _ _ _ => rfl) h

/-- The destructor leaves no trace of a client that has used its tokens. -/
theorem NoDangling.destroy (h : s.NoDangling) (hmembership : s.Membership) (hkeyed : s'.Keyed)
    (hsessions : s'.Sessions) (hused : ∀ token : String, s.tokens[token]? ≠ some c)
    (hdestroy : ClientConnectionHandler.destroy s c = some s') : s'.NoDangling := by
  obtain ⟨t, hleave, rfl⟩ := Option.map_eq_some_iff.mp hdestroy
  have hleaves := leaves_removeClientFromChannels hleave
  have hrelations := sender2receiver_removeClientFromChannels hleave
  obtain ⟨t', hrun, ht⟩ := hmembership.removeClientFromChannels c
  obtain rfl := Option.some.inj (hrun.symm.trans hleave)
  intro k hoccurs
  have hold : k ≠ c → k ∈ s.clients → k ∈ t'.clients.erase c := by
    intro hne hmem
    rw [ExtTreeMap.mem_erase, Ne, Std.compare_eq_iff_eq, hleaves.clients]
    exact ⟨hne.symm, hmem⟩
  have hmember : ∀ ch, SetMap.Rel t'.client2channels k ch → k ∈ t'.clients.erase c := by
    intro ch hjoined
    obtain ⟨hbefore, hne⟩ := (hmembership.rel_removeClientFromChannels hleave k ch).mp hjoined
    exact hold hne (h k (.participant (hmembership.symm.mpr hbefore)))
  cases hoccurs with
  | connection hconn => exact (hsessions.connected k).mp hconn
  | participant hparticipant => exact hmember _ (ht.symm.mp hparticipant)
  | joined hjoined =>
    obtain ⟨ch, hch⟩ := ht.client2channels.mem_iff.mp hjoined
    exact hmember ch hch
  | sender hsender =>
    change k ∈ (t'.sender2receiver.erase c).map _ at hsender
    rw [ExtTreeMap.mem_map, ExtTreeMap.mem_erase, Ne, Std.compare_eq_iff_eq, hrelations] at hsender
    exact hold (Ne.symm hsender.1) (h k (.sender hsender.2))
  | receiver hreceiver =>
    obtain ⟨hrelation, hne⟩ := SetMap.rel_eraseFromAll.mp hreceiver
    rw [hrelations] at hrelation
    exact hold hne (h k (.receiver (SetMap.rel_of_rel_erase hrelation)))
  | token htoken =>
    have hbefore := hleaves.tokens ▸ htoken
    refine hold ?_ (h k (.token hbefore))
    rintro rfl
    exact hused _ hbefore
  | recipients hnames => exact mem_clients_of_names hkeyed hnames

/-- The invariant of runs that leave no id dangling. -/
structure TracelessInvariant (s : VirtualServer) : Prop where
  keyed : s.Keyed
  membership : s.Membership
  sessions : s.Sessions
  noDangling : s.NoDangling

/-- An event that leaves no token and misses no entry leaves no id dangling. -/
theorem TracelessInvariant.preserved {fromUtf8 : List UInt8 → String} (h : s.TracelessInvariant)
    (htoken : ¬ LeavesToken s e) (hmisses : ¬ MissesEntry s e)
    (hstep : step fromUtf8 s e = some (s', out)) : s'.TracelessInvariant := by
  have htrans := transition_of_step h.keyed hstep
  have hkeyed := htrans.keyed h.keyed
  have hsessions := h.sessions.change h.keyed (sessionChange_of_step hstep)
  refine ⟨hkeyed, h.membership.transition htrans, hsessions, ?_⟩
  by_cases hdestroy : ∃ c, e = .destroyed c
  · obtain ⟨c, rfl⟩ := hdestroy
    simp only [step] at hstep
    rcases withConnection_cases hstep with ⟨rfl, -⟩ | ⟨client, conn, hclient, hconn, hhandle⟩
    · exact h.noDangling
    · split at hhandle
      next hdelete =>
        obtain ⟨t, hdestroy, ht⟩ := Option.map_eq_some_iff.mp hhandle
        obtain ⟨rfl, -⟩ := Prod.mk.inj ht
        have hmem := Table.mem_of_getElem? hclient
        apply h.noDangling.destroy h.membership hkeyed hsessions _ hdestroy
        exact fun token hfound => htoken ⟨c, conn, token, rfl, hmem, hconn, hdelete, hfound⟩
      next =>
        obtain ⟨rfl, -⟩ := Prod.mk.inj (Option.some.inj hhandle)
        exact h.noDangling
  · apply h.noDangling.of_refersToClients hkeyed hsessions
    exact htrans.refersToClients h.keyed hmisses fun c he => hdestroy ⟨c, he⟩

/-- A client that is destroyed with its token not used leaves its id behind. -/
theorem TracelessInvariant.dangling_of_leavesToken (fromUtf8 : List UInt8 → String)
    (h : s.TracelessInvariant) (hleaves : LeavesToken s e) :
    ∃ s' out, step fromUtf8 s e = some (s', out) ∧ ¬ s'.NoDangling := by
  obtain ⟨c, conn, token, rfl, hmem, hconn, hdelete, htoken⟩ := hleaves
  obtain ⟨client, hclient⟩ := Table.mem_iff.mp hmem
  obtain ⟨t, hleave, -⟩ := h.membership.removeClientFromChannels c
  have hdestroy : ∃ s', ClientConnectionHandler.destroy s c = some s' := by
    rw [ClientConnectionHandler.destroy, hleave]
    exact ⟨_, rfl⟩
  obtain ⟨s', hdestroy⟩ := hdestroy
  obtain ⟨t, -, hleaves, -, hclients, -, -, -, -, -, htokens, -⟩ := leaves_destroy hdestroy
  refine ⟨s', [], ?_, fun hnone => ?_⟩
  · rw [step, withConnection, hclient, hconn]
    dsimp only
    rw [if_pos hdelete, hdestroy]
    rfl
  · have hgone := hnone c (.token (htokens ▸ hleaves.tokens ▸ htoken))
    rw [hclients, ExtTreeMap.mem_erase] at hgone
    exact hgone.1 ReflOrd.compare_self

/-- A lookup that misses an entry leaves one with an id that no client has. -/
theorem TracelessInvariant.dangling_of_missesEntry (fromUtf8 : List UInt8 → String)
    (h : s.TracelessInvariant) (hmisses : MissesEntry s e) :
    ∃ s' out, step fromUtf8 s e = some (s', out) ∧ ¬ s'.NoDangling := by
  have hzero : (0 : ℤ) ∉ s.clients := fun hmem => absurd (h.sessions.client 0 hmem).1 (by decide)
  cases hmisses with
  | @sender datagram address port hparse hnone =>
    refine ⟨(s.onReadyRead fromUtf8 datagram address port).1,
      (s.onReadyRead fromUtf8 datagram address port).2, rfl, fun hnodangling => hzero ?_⟩
    have hstate := onReadyRead_relay (s := s) fromUtf8 address port hparse
    rw [hnone] at hstate
    rw [hstate] at hnodangling
    have hentry := (s.recipients.sender?_insertSender address address port port {}).trans
      (if_pos ⟨rfl, rfl⟩)
    exact hnodangling 0 (.recipients (.sender hentry rfl))
  | @receiver datagram address port sender hparse hnone =>
    refine ⟨(s.onReadyRead fromUtf8 datagram address port).1,
      (s.onReadyRead fromUtf8 datagram address port).2, rfl, fun hnodangling => hzero ?_⟩
    have hstate := onReadyRead_recover (s := s) fromUtf8 address port hparse
    rw [hnone] at hstate
    rw [hstate] at hnodangling
    have hentry := (s.recipients.getElem?_insertReceiver sender sender {}).trans (if_pos rfl)
    exact hnodangling 0 (.recipients (.target hentry rfl))

/-- A client disconnects after it has logged in, without having used its token. -/
def tokenNotUsed : List Event :=
  Event.logIn 1 "alice" "10:00" ++ [.unconnected 1, .destroyed 1]

/-- The token still names the client. -/
theorem dangling_tokenNotUsed :
    ¬ Runs.EachState (step fun _ => "") NoDangling (init {} ∅) tokenNotUsed := by
  intro hstates
  have hfacts : (Runs.run (step fun _ => "") (init {} ∅) tokenNotUsed).map (fun done =>
      (done.1.tokens["1-10:00"]?, decide ((1 : ℤ) ∈ done.1.clients))) = some (some 1, false) := by
    decide +kernel
  obtain ⟨⟨s, out⟩, hrun, hfacts⟩ := Option.map_eq_some_iff.mp hfacts
  obtain ⟨htoken, hgone⟩ := Prod.mk.inj hfacts
  exact of_decide_eq_false hgone (hstates.last hrun 1 (.token htoken))

/-- In every state of a run, every client id that occurs in a table is that of a client exactly if no
event of the run destroys a client that has not used its token, and no datagram looks up an entry of
the table of recipients that is not there. -/
theorem noDangling_iff (fromUtf8 : List UInt8 → String) (opts : VirtualServerOptions)
    (bans : ExtTreeSet String) (events : List Event) :
    Runs.EachState (step fromUtf8) NoDangling (init opts bans) events ↔
      Runs.EachStep (step fromUtf8) (fun s e => ¬ LeavesToken s e ∧ ¬ MissesEntry s e)
        (init opts bans) events := by
  apply Runs.eachState_iff_eachStep (P := TracelessInvariant)
  · exact fun s h => h.noDangling
  · exact fun s e s' out h hguard hstep => h.preserved hguard.1 hguard.2 hstep
  · intro s e h hguard
    by_cases hleaves : LeavesToken s e
    · exact h.dangling_of_leavesToken fromUtf8 hleaves
    · exact h.dangling_of_missesEntry fromUtf8 (not_not.mp fun hmisses => hguard ⟨hleaves, hmisses⟩)
  · exact ⟨keyed_init opts bans, membership_init opts bans, sessions_init opts bans,
      noDangling_init opts bans⟩

end VirtualServer

end Ts3Video
