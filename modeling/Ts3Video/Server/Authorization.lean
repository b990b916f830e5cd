import Ts3Video.Server.Membership

/-!
# Nothing is granted before the login

Memberships, media, tokens and administration are reserved for clients that are logged in. Client
ids are not used twice, so what a client has left behind is of no use to a later one.
-/

namespace Ts3Video.VirtualServer

open Std ActionBase

/-- The client is logged in if it is still there. -/
def LoggedIn (s : VirtualServer) (c : ℤ) : Prop :=
  ∀ client, s.clients[c]? = some client → client.authenticated = true

/-- The client has something in its record that is reserved for clients that are logged in. -/
def HoldsGrant (client : ServerClientEntity) : Prop :=
  client.videoEnabled = true ∨ client.audioInputEnabled = true ∨
    client.mediaAddress ≠ QHostAddress.null ∨ client.admin = true

/-- Whoever holds, or is named by, something reserved is logged in, and no id is still to come. -/
structure Authorization (s : VirtualServer) : Prop where
  participant : ∀ {ch c : ℤ}, SetMap.Rel s.participants ch c → s.LoggedIn c ∧ c ≤ s.nextClientId
  token : ∀ {token : String} {c : ℤ}, s.tokens[token]? = some c → s.LoggedIn c ∧ c ≤ s.nextClientId
  client : ∀ {c : ℤ} {client : ServerClientEntity}, s.clients[c]? = some client →
    (HoldsGrant client → client.authenticated = true) ∧ c ≤ s.nextClientId

/-- The empty server has granted nothing. -/
theorem authorization_init (opts : VirtualServerOptions) (bans : ExtTreeSet String) :
    (init opts bans).Authorization where
  participant h := absurd h (SetMap.not_rel_empty _ _)
  token h := absurd h (Table.getElem?_empty_ne _ _)
  client h := absurd h (Table.getElem?_empty_ne _ _)

/-- Ids are handed out in increasing order. -/
theorem ClientsChange.nextClientId_le {s s' : VirtualServer} (h : ClientsChange s s') :
    s.nextClientId ≤ s'.nextClientId := by
  cases h with
  | same hnext => exact hnext ▸ Int.le_refl _
  | connect hnext => omega
  | update _ _ _ _ hnext => exact hnext ▸ Int.le_refl _
  | remove _ hnext => exact hnext ▸ Int.le_refl _

/-- Nobody is logged out. -/
theorem ClientsChange.loggedIn {s s' : VirtualServer} (h : ClientsChange s s') {c : ℤ}
    (hloggedIn : s.LoggedIn c) (hbound : c ≤ s.nextClientId) : s'.LoggedIn c := by
  intro found hfound
  cases h with
  | same _ hclients => exact hloggedIn found (hclients ▸ hfound)
  | connect _ hclients =>
    rw [hclients, Table.getElem?_insert, if_neg (by omega)] at hfound
    exact hloggedIn found hfound
  | update hclient hclients _ hauth =>
    rcases Table.of_getElem?_insert (hclients ▸ hfound) with ⟨rfl, rfl⟩ | hold
    · exact hauth (hloggedIn _ hclient)
    · exact hloggedIn found hold
  | remove k _ hclients =>
    rw [hclients] at hfound
    exact hloggedIn found (Table.of_getElem?_erase hfound).2

/-- Participants are the old ones and a client that is logged in. -/
theorem ChannelsChange.participant {s s' : VirtualServer} {e : Event} (h : ChannelsChange s e s')
    {ch c : ℤ} (hmember : SetMap.Rel s'.participants ch c) :
    SetMap.Rel s.participants ch c ∨
      ∃ client, s.clients[c]? = some client ∧ client.authenticated = true := by
  cases h with
  | same hsame => exact .inl (hsame.participants ▸ hmember)
  | @create _ client channel hclient hauth _ _ hsame =>
    rw [hsame.participants] at hmember
    rcases SetMap.rel_insertAt.mp hmember with ⟨-, rfl⟩ | hold
    · exact .inr ⟨client, hclient, hauth⟩
    · exact .inl hold
  | @join _ client _ _ hclient hauth _ hsame =>
    rw [hsame.participants] at hmember
    rcases SetMap.rel_insertAt.mp hmember with ⟨-, rfl⟩ | hold
    · exact .inr ⟨client, hclient, hauth⟩
    · exact .inl hold
  | leave hleave hsame =>
    exact .inl ((leaves_removeClientFromChannels hleave).participant (hsame.participants ▸ hmember))

/-- Tokens are the old ones and that of a client that has just logged in. -/
theorem Transition.token {s s' : VirtualServer} {e : Event} (h : Transition s e s') (hkeyed : s.Keyed)
    {token : String} {c : ℤ} (htoken : s'.tokens[token]? = some c) :
    s.tokens[token]? = some c ∨ s'.LoggedIn c ∧ ∃ client, s.clients[c]? = some client := by
  cases h with
  | quiet hsame => exact .inl (hsame.tokens ▸ htoken)
  | @login _ k client name fresh authentications hclient =>
    rcases Table.of_getElem?_insert htoken with ⟨-, rfl⟩ | hold
    · rw [hkeyed.client hclient]
      refine .inr ⟨fun found hfound => ?_, client, hclient⟩
      change (s.clients.insert k _)[k]? = some found at hfound
      rw [Table.getElem?_insert, if_pos rfl] at hfound
      exact Option.some.inj hfound ▸ rfl
    · exact .inl hold
  | bindToken =>
    change (s.tokens.erase _)[token]? = some c at htoken
    exact .inl (Table.of_getElem?_erase htoken).2
  | dropToken =>
    change (s.tokens.erase _)[token]? = some c at htoken
    exact .inl (Table.of_getElem?_erase htoken).2
  | destroy hdestroy =>
    obtain ⟨t, -, hleaves, -, -, -, -, -, -, -, htokens, -⟩ := leaves_destroy hdestroy
    rw [htokens, hleaves.tokens] at htoken
    exact .inl htoken
  | _ => exact .inl htoken

/-- Grants are given to clients that are logged in. -/
theorem Transition.holdsGrant {s s' : VirtualServer} {e : Event} (h : Transition s e s')
    (hauth : s.Authorization) {c : ℤ} {found : ServerClientEntity}
    (hfound : s'.clients[c]? = some found) : HoldsGrant found → found.authenticated = true := by
  cases h.recordChange hfound with
  | keep hclient => exact (hauth.client hclient).1
  | new =>
    rintro (hvideo | haudio | haddress | hadmin)
    · contradiction
    · contradiction
    · exact absurd rfl haddress
    · contradiction
  | login => exact fun _ => rfl
  | sendMedia hadmits haction => exact fun _ => hadmits.authenticated haction
  | becomeAdmin hadmits => exact fun _ => hadmits.authenticated (by decide)
  | changeVisibility hadmits => exact fun _ => hadmits.authenticated (by decide)
  | bindToken _ _ htoken hclient =>
    have hloggedIn := (hauth.token htoken).1 _ hclient
    exact fun _ => hloggedIn

/-- Clients keep ids that have been handed out. -/
theorem ClientsChange.bound {s s' : VirtualServer} (h : ClientsChange s s')
    (hbound : ∀ {c : ℤ} {client : ServerClientEntity}, s.clients[c]? = some client →
      c ≤ s.nextClientId) {c : ℤ} {found : ServerClientEntity}
    (hfound : s'.clients[c]? = some found) : c ≤ s'.nextClientId := by
  cases h with
  | same hnext hclients =>
    rw [hnext]
    exact hbound (hclients ▸ hfound)
  | connect hnext hclients =>
    rcases Table.of_getElem?_insert (hclients ▸ hfound) with ⟨hid, -⟩ | hold
    · omega
    · have := hbound hold
      omega
  | update hclient hclients _ _ hnext =>
    rw [hnext]
    rcases Table.of_getElem?_insert (hclients ▸ hfound) with ⟨rfl, -⟩ | hold
    · exact hbound hclient
    · exact hbound hold
  | remove k hnext hclients =>
    rw [hclients] at hfound
    rw [hnext]
    exact hbound (Table.of_getElem?_erase hfound).2

/-- No event grants anything to a client that is not logged in. -/
theorem Authorization.transition {s s' : VirtualServer} {e : Event} (h : s.Authorization)
    (hkeyed : s.Keyed) (htrans : Transition s e s') : s'.Authorization := by
  have hle := htrans.clientsChange.nextClientId_le
  have hkeep : ∀ {c : ℤ}, s.LoggedIn c ∧ c ≤ s.nextClientId →
      s'.LoggedIn c ∧ c ≤ s'.nextClientId := fun ⟨hloggedIn, hbound⟩ =>
    ⟨htrans.clientsChange.loggedIn hloggedIn hbound, hbound.trans hle⟩
  constructor
  · intro ch c hmember
    apply hkeep
    rcases htrans.channelsChange.participant hmember with hold | ⟨client, hclient, hauth⟩
    · exact h.participant hold
    · refine ⟨fun found hfound => ?_, (h.client hclient).2⟩
      obtain rfl := Option.some.inj (hclient.symm.trans hfound)
      exact hauth
  · intro token c htoken
    rcases htrans.token hkeyed htoken with hold | ⟨hloggedIn, client, hclient⟩
    · exact hkeep (h.token hold)
    · exact ⟨hloggedIn, (h.client hclient).2.trans hle⟩
  · intro c found hfound
    exact ⟨htrans.holdsGrant h hfound,
      htrans.clientsChange.bound (fun hclient => (h.client hclient).2) hfound⟩

/-- No client has the id that comes next. -/
theorem Authorization.nextClientId_free {s : VirtualServer} (h : s.Authorization) :
    s.clients[s.nextClientId + 1]? = none := by
  cases hclient : s.clients[s.nextClientId + 1]? with
  | none => rfl
  | some client =>
    have hbound := (h.client hclient).2
    omega

/-- The actions that only administrators may run. -/
def adminActions : List ActionBase :=
  [.KickClientAction, .UpdateVisibilityLevelAction, .AddDirectStreamingRelationAction,
    .RemoveDirectStreamingRelationAction]

/-- In every state that the server can reach, a client that is a member of a channel, sends video or
audio, has a media address, is named by a token or is an administrator is logged in. The actions for
administrators are run only for clients that are logged in and administrators. -/
theorem granted_after_login (fromUtf8 : List UInt8 → String) (opts : VirtualServerOptions)
    (bans : ExtTreeSet String) (s : VirtualServer)
    (hreach : Runs.Reachable (step fromUtf8) (init opts bans) s) :
    (∀ (c : ℤ) (client : ServerClientEntity), s.clients[c]? = some client →
      ((∃ ch, SetMap.Rel s.participants ch c) ∨ client.videoEnabled = true ∨
        client.audioInputEnabled = true ∨ client.mediaAddress ≠ QHostAddress.null ∨
        (∃ token : String, s.tokens[token]? = some c) ∨ client.admin = true) →
      client.authenticated = true) ∧
    ∀ e c client action params, Admits s e c client action params → action ∈ adminActions →
      client.authenticated = true ∧ client.admin = true := by
  obtain ⟨-, h⟩ := reachable_invariant (authorization_init opts bans)
    (fun s e s' hkeyed h htrans => h.transition hkeyed htrans) hreach
  constructor
  · rintro c client hclient (⟨ch, hmember⟩ | hvideo | haudio | haddress | ⟨token, htoken⟩ | hadmin)
    · exact (h.participant hmember).1 client hclient
    · exact (h.client hclient).1 (.inl hvideo)
    · exact (h.client hclient).1 (.inr (.inl haudio))
    · exact (h.client hclient).1 (.inr (.inr (.inl haddress)))
    · exact (h.token htoken).1 client hclient
    · exact (h.client hclient).1 (.inr (.inr (.inr hadmin)))
  · intro e c client action params hadmits haction
    obtain ⟨correlationId, document, -, hdispatch⟩ := hadmits.dispatch
    have hflags : testFlag action.flags RequiresAuthentication = true ∧
        testFlag action.flags RequiresAdminPrivileges = true := by
      simp only [adminActions, List.mem_cons, List.not_mem_nil, or_false] at haction
      rcases haction with rfl | rfl | rfl | rfl
      · decide
      · decide
      · decide
      · decide
    have hallowed := flags_of_dispatch hdispatch
    exact ⟨hallowed.1 hflags.1, hallowed.2 hflags.2⟩

/-- Two clients log in, and one of them becomes an administrator and kicks the other one. -/
def adminKicks : List Event :=
  Event.logIn 1 "alice" "10:00" ++ Event.logIn 2 "bob" "10:01" ++
    [.request 1 .AdminAuthAction [("password", .string "secret")],
      .request 1 .KickClientAction [("clientid", .ofInt 2)]]

/-- The administrator is logged in. -/
theorem granted_after_login_adminKicks : ∃ s client,
    Runs.Reachable (step fun _ => "") (init { adminPassword := "secret" } ∅) s ∧
      s.clients[(1 : ℤ)]? = some client ∧ client.admin = true ∧ client.authenticated = true := by
  have hfacts : (Runs.run (step fun _ => "") (init { adminPassword := "secret" } ∅)
      adminKicks).map (fun done => (done.1.clients[(1 : ℤ)]?).map (·.admin)) = some (some true) := by
    decide +kernel
  obtain ⟨⟨s, out⟩, hrun, hadmin⟩ := Option.map_eq_some_iff.mp hfacts
  obtain ⟨client, hclient, hadmin⟩ := Option.map_eq_some_iff.mp hadmin
  have hreach : Runs.Reachable (step fun _ => "") (init { adminPassword := "secret" } ∅) s :=
    ⟨adminKicks, out, hrun⟩
  have hgranted := granted_after_login _ { adminPassword := "secret" } ∅ s hreach
  exact ⟨s, client, hreach, hclient, hadmin, hgranted.1 1 client hclient (by simp [hadmin])⟩

end Ts3Video.VirtualServer
