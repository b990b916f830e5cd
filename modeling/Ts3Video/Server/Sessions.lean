import Ts3Video.Server.Answers
import Ts3Video.Server.Authorization

/-!
# Sessions

A session begins with a connection, is logged in when an authentication is completed, and ends when
the connection is destroyed. A completed authentication issues a token, which the media socket uses
up.
-/

namespace Ts3Video

open Std

/-- The token of a client that logs in at this time. -/
def authToken (clientId : ℤ) (now : String) : String :=
  QString.arg (QString.arg "%1-%2" (toString clientId)) now

/-- The token that a response brings, if any. -/
def issuedToken? (response : QJsonObject) : Option String :=
  match (response.value "data").toObject.value "authtoken" with
  | .string token => some token
  | _ => none

/-- None of the responses brings a token. -/
def IssuesNothing (out : List Effect) : Prop :=
  ∀ response ∈ responses out, issuedToken? response.2.2 = none

namespace VirtualServer

open ActionBase

/-- The outcome of an outstanding authentication. -/
inductive Completion (s : VirtualServer) (index : ℕ) (pending : PendingAuthentication) (now : String)
    (s' : VirtualServer) (out : List Effect) : Prop
  | refused (message : String)
    (hstate : s' = { s with authentications := s.authentications.eraseIdx index })
    (hresponses : responses out = [(pending.clientId, pending.correlationId,
      JsonProtocolHelper.createJsonResponseError IFVS_STATUS_UNAUTHORIZED message)])
  | gone (hgone : pending.clientId ∉ s.connections)
    (hstate : s' = { s with authentications := s.authentications.eraseIdx index })
    (hresponses : responses out = [])
  | login {client : ServerClientEntity} (data : QJsonObject)
    (hconn : pending.clientId ∈ s.connections) (hclient : s.clients[pending.clientId]? = some client)
    (hstate : s' = { s.setClient pending.clientId
      { client with name := pending.username, authenticated := true } with
        tokens := s.tokens.insert (authToken client.id now) client.id
        authentications := s.authentications.eraseIdx index })
    (hdata : data.value "authtoken" = .string (authToken client.id now))
    (hresponses : responses out = [(pending.clientId, pending.correlationId,
      JsonProtocolHelper.createJsonResponse data)])

/-- What an event does to the sessions, and whether it issues a token. -/
inductive SessionChange (s s' : VirtualServer) (out : List Effect) : Prop
  | quiet (hsessions : SameSessions s s') (hissues : IssuesNothing out)
  | connect (peerAddress : QHostAddress) (hstate : s' = ClientConnectionHandler.create s peerAddress)
    (hissues : IssuesNothing out)
  | authenticate (pending : PendingAuthentication) (hconn : pending.clientId ∈ s.connections)
    (hlimit : (s.connections.size : ℤ) ≤ s.opts.connectionLimit)
    (hstate : s' = { s with authentications := s.authentications ++ [pending] })
    (hissues : IssuesNothing out)
  | drop (index : ℕ) (hstate : s' = { s with authentications := s.authentications.eraseIdx index })
    (hissues : IssuesNothing out)
  | login {index : ℕ} {pending : PendingAuthentication} {client : ServerClientEntity} {now : String}
    {response : QJsonObject} (hpending : s.authentications[index]? = some pending)
    (hclient : s.clients[pending.clientId]? = some client)
    (hstate : s' = { s.setClient pending.clientId
      { client with name := pending.username, authenticated := true } with
        tokens := s.tokens.insert (authToken client.id now) client.id
        authentications := s.authentications.eraseIdx index })
    (htoken : issuedToken? response = some (authToken client.id now))
    (hresponses : responses out = [(pending.clientId, pending.correlationId, response)])
  | consume {token : String} {c : ℤ} (htoken : s.tokens[token]? = some c)
    (htokens : s'.tokens = s.tokens.erase token)
    (hsessions : SameSessions s { s' with tokens := s.tokens }) (hissues : IssuesNothing out)
  | destroy (c : ℤ) (hopts : s'.opts = s.opts) (hnext : s'.nextClientId = s.nextClientId)
    (hclients : s'.clients = s.clients.erase c)
    (hconnected : ∀ k : ℤ, k ∈ s'.connections ↔ k ≠ c ∧ k ∈ s.connections)
    (hauthentications : s'.authentications = s.authentications) (htokens : s'.tokens = s.tokens)
    (hissues : IssuesNothing out)

/-- A response without a token. -/
theorem issuesNothing_of_responses {out : List Effect} {c : ℤ} {correlationId : UInt32}
    {response : QJsonObject} (hresponses : responses out = [(c, correlationId, response)])
    (h : issuedToken? response = none) : IssuesNothing out := by
  intro found hfound
  rw [hresponses, List.mem_singleton] at hfound
  rw [hfound]
  exact h

/-- No responses. -/
theorem issuesNothing_nil {out : List Effect} (hresponses : responses out = []) :
    IssuesNothing out := by
  intro found hfound
  rw [hresponses] at hfound
  contradiction

/-- A successful response brings the token that its data has. -/
theorem issuedToken?_of_contains {data : QJsonObject} (h : data.contains "authtoken" = false) :
    issuedToken? (JsonProtocolHelper.createJsonResponse data) = none := by
  have hnone : data.lookup "authtoken" = none :=
    Option.isNone_iff_eq_none.mp (Option.isSome_eq_false_iff.mp h)
  change (match QJsonObject.value data "authtoken" with
    | .string token => some token
    | _ => none) = none
  rw [QJsonObject.value, hnone]
  rfl

/-- The answer of the TeamSpeak server completes the authentication. -/
theorem completion_of_onFinished {s s' : VirtualServer} {index : ℕ} {pending : PendingAuthentication}
    {data : Bool} {now : String} {out : List Effect}
    (h : AuthenticationAction.onFinished
      { s with authentications := s.authentications.eraseIdx index } pending data now =
        some (s', out)) : Completion s index pending now s' out := by
  unfold AuthenticationAction.onFinished at h
  dsimp only at h
  split at h
  · obtain ⟨rfl, rfl⟩ := Prod.mk.inj (Option.some.inj h)
    exact .refused _ rfl rfl
  · split at h
    next hgone =>
      obtain ⟨rfl, rfl⟩ := Prod.mk.inj (Option.some.inj h)
      exact .gone hgone rfl rfl
    next hconn =>
      obtain ⟨client, hclient, h⟩ := Option.map_eq_some_iff.mp h
      obtain ⟨rfl, rfl⟩ := Prod.mk.inj h
      exact .login [("client", _), ("authtoken", _), ("virtualserverconfig", _)]
        (Decidable.not_not.mp hconn) hclient rfl rfl rfl

/-- What the media socket does is no response. -/
theorem responses_onMediaSocketOutput {done : ActionResult} (h : responses done.2 = [])
    (output : MediaSocketHandler.Output) : responses (onMediaSocketOutput done output).2 = [] := by
  cases output with
  | tokenAuthentication token address port =>
    rw [responses] at h
    simp only [onMediaSocketOutput, responses, List.filterMap_append, h, List.nil_append]
    rcases onMediaSocketTokenAuthentication_effects done.1 token address port with hnone | ⟨c, hone⟩
    · rw [hnone]
      rfl
    · rw [hone]
      rfl
  | writeDatagram data address port =>
    rw [responses] at h
    simp only [onMediaSocketOutput, responses, List.filterMap_append, h, List.nil_append]
    rfl

/-- Datagrams are not answered by responses. -/
theorem responses_onReadyRead (fromUtf8 : List UInt8 → String) (s : VirtualServer)
    (datagram : List UInt8) (address : QHostAddress) (port : UInt16) :
    responses (s.onReadyRead fromUtf8 datagram address port).2 = [] := by
  unfold onReadyRead
  generalize MediaSocketHandler.onReadyRead fromUtf8 s.recipients datagram address port = result
  have hfold : ∀ (outputs : List MediaSocketHandler.Output) (done : ActionResult),
      responses done.2 = [] → responses (outputs.foldl onMediaSocketOutput done).2 = [] := by
    intro outputs
    induction outputs with
    | nil => exact fun _ h => h
    | cons output outputs ih =>
      exact fun done h => ih _ (responses_onMediaSocketOutput h output)
  exact hfold _ _ rfl

/-- A datagram uses up a token or leaves the sessions alone. -/
theorem sessionChange_readyRead (fromUtf8 : List UInt8 → String) (s : VirtualServer)
    (datagram : List UInt8) (address : QHostAddress) (port : UInt16) :
    SessionChange s (s.onReadyRead fromUtf8 datagram address port).1
      (s.onReadyRead fromUtf8 datagram address port).2 := by
  have hissues := issuesNothing_nil (responses_onReadyRead fromUtf8 s datagram address port)
  have hquiet : (∃ recipients, (s.onReadyRead fromUtf8 datagram address port).1 =
      s.withRecipients recipients) → SessionChange s (s.onReadyRead fromUtf8 datagram address port).1
        (s.onReadyRead fromUtf8 datagram address port).2 := by
    rintro ⟨recipients, hstate⟩
    exact .quiet (hstate ▸ ⟨rfl, rfl, fun _ => Iff.rfl, fun _ => rfl, rfl, rfl⟩) hissues
  cases hparse : MediaSocketHandler.parse (datagram.take MediaSocketHandler.bufferSize) with
  | invalid =>
    apply hquiet
    simp only [onReadyRead, MediaSocketHandler.onReadyRead, hparse]
    exact ⟨_, rfl⟩
  | relay => exact hquiet ⟨_, onReadyRead_relay fromUtf8 address port hparse⟩
  | recover sender => exact hquiet ⟨_, onReadyRead_recover fromUtf8 address port hparse⟩
  | authenticate data =>
    revert hissues
    simp only [onReadyRead, MediaSocketHandler.onReadyRead, hparse, List.foldl_cons, List.foldl_nil,
      onMediaSocketOutput, onMediaSocketTokenAuthentication]
    split
    · exact fun hissues => .quiet (.refl s) hissues
    next c htoken =>
      split
      · exact fun hissues => .consume htoken rfl (.refl s) hissues
      next client hclient =>
        intro hissues
        have hsessions : SameSessions s (s.setClient c
            { client with mediaAddress := address, mediaPort := port }) :=
          sameSessions_setClient hclient rfl
        refine .consume htoken rfl ?_ hissues
        exact ⟨hsessions.opts, hsessions.nextClientId, hsessions.connected, hsessions.login,
          hsessions.authentications, rfl⟩

/-- Leaving channels leaves the sessions alone. -/
theorem sameSessions_removeClientFromChannels {s s' : VirtualServer} {c : ℤ}
    (h : s.removeClientFromChannels c = some s') : SameSessions s s' where
  opts := removeClientFromChannels_eq VirtualServer.opts (fun _ _ _ _ _ => rfl) h
  nextClientId := removeClientFromChannels_eq VirtualServer.nextClientId (fun _ _ _ _ _ => rfl) h
  connected k := by
    rw [removeClientFromChannels_eq VirtualServer.connections (fun _ _ _ _ _ => rfl) h]
  login k := by rw [removeClientFromChannels_eq VirtualServer.clients (fun _ _ _ _ _ => rfl) h]
  authentications :=
    removeClientFromChannels_eq VirtualServer.authentications (fun _ _ _ _ _ => rfl) h
  tokens := removeClientFromChannels_eq VirtualServer.tokens (fun _ _ _ _ _ => rfl) h

/-- The destructor ends a session. -/
theorem sessionChange_destroy {s s' : VirtualServer} {c : ℤ}
    (h : ClientConnectionHandler.destroy s c = some s') : SessionChange s s' [] := by
  obtain ⟨t, hleave, rfl⟩ := Option.map_eq_some_iff.mp h
  have hsessions := sameSessions_removeClientFromChannels hleave
  refine .destroy c hsessions.opts hsessions.nextClientId ?_ ?_ hsessions.authentications
    hsessions.tokens (issuesNothing_nil rfl)
  · exact congrArg (fun clients : ExtTreeMap ℤ ServerClientEntity => clients.erase c)
      (leaves_removeClientFromChannels hleave).clients
  · intro k
    change k ∈ t.connections.erase c ↔ _
    rw [ExtTreeMap.mem_erase, Ne, Std.compare_eq_iff_eq, eq_comm (a := c), hsessions.connected]

/-- A request that is answered at once leaves the sessions alone. -/
theorem sessionChange_request {fromUtf8 : List UInt8 → String} {s s' : VirtualServer} {c : ℤ}
    {client : ServerClientEntity} {correlationId : UInt32} {document : Option QJsonValue}
    {out : List Effect} (hclient : s.clients[c]? = some client) (hconn : c ∈ s.connections)
    (hstep : step fromUtf8 s (.newIncomingRequest c correlationId document) = some (s', out)) :
    SessionChange s s' out := by
  obtain ⟨params, hanswer⟩ := answer_of_request hclient hconn hstep
  cases hanswer with
  | ok data hdata hsessions hresponses =>
    exact .quiet hsessions (issuesNothing_of_responses hresponses (issuedToken?_of_contains hdata))
  | refused status message _ hstate hresponses =>
    exact .quiet (hstate ▸ .refl s) (issuesNothing_of_responses hresponses rfl)
  | pending username _ hlimit hstate hresponses =>
    exact .authenticate _ hconn hlimit hstate (issuesNothing_nil hresponses)

/-- Every event changes the sessions in one of these ways. -/
theorem sessionChange_of_step {fromUtf8 : List UInt8 → String} {s s' : VirtualServer} {e : Event}
    {out : List Effect} (hstep : step fromUtf8 s e = some (s', out)) : SessionChange s s' out := by
  have hquiet : SessionChange s s [] := .quiet (.refl s) (issuesNothing_nil rfl)
  cases e with
  | newConnection peerAddress =>
    obtain ⟨rfl, rfl⟩ := Prod.mk.inj (Option.some.inj hstep)
    exact .connect peerAddress rfl (issuesNothing_nil rfl)
  | newIncomingRequest c correlationId document =>
    rcases withConnection_cases hstep with ⟨rfl, rfl⟩ | ⟨client, conn, hclient, hconn, -⟩
    · exact hquiet
    · exact sessionChange_request hclient (Table.mem_of_getElem? hconn) hstep
  | authenticationFinished index ts3Allowed now =>
    simp only [step, onAuthenticationFinished] at hstep
    split at hstep
    · obtain ⟨rfl, rfl⟩ := Prod.mk.inj (Option.some.inj hstep)
      exact hquiet
    next pending hpending =>
      cases completion_of_onFinished hstep with
      | refused message hstate hresponses =>
        exact .drop index hstate (issuesNothing_of_responses hresponses rfl)
      | gone _ hstate hresponses => exact .drop index hstate (issuesNothing_nil hresponses)
      | login data _ hclient hstate hdata hresponses =>
        refine .login hpending hclient hstate ?_ hresponses
        change (match QJsonObject.value data "authtoken" with
          | .string token => some token
          | _ => none) = _
        rw [hdata]
  | readyRead datagram address port =>
    obtain ⟨rfl, rfl⟩ := Prod.mk.inj (Option.some.inj hstep)
    exact sessionChange_readyRead fromUtf8 s datagram address port
  | networkUsageUpdated networkUsage =>
    obtain ⟨rfl, rfl⟩ := Prod.mk.inj (Option.some.inj hstep)
    exact .quiet ⟨rfl, rfl, fun _ => Iff.rfl, fun _ => rfl, rfl, rfl⟩ (issuesNothing_nil rfl)
  | unconnected c =>
    rcases withConnection_cases hstep with ⟨rfl, rfl⟩ | ⟨client, conn, -, -, hhandle⟩
    · exact hquiet
    · obtain ⟨rfl, rfl⟩ := Prod.mk.inj (Option.some.inj hhandle)
      refine .quiet ⟨rfl, rfl, fun k => ?_, fun _ => rfl, rfl, rfl⟩ (issuesNothing_nil ?_)
      · exact ExtTreeMap.mem_modify
      · simp only [responses, List.filterMap_map]
        exact List.filterMap_eq_nil_iff.mpr fun _ _ => rfl
  | destroyed c =>
    rcases withConnection_cases hstep with ⟨rfl, rfl⟩ | ⟨client, conn, -, -, hhandle⟩
    · exact hquiet
    · split at hhandle
      · obtain ⟨t, hdestroy, h⟩ := Option.map_eq_some_iff.mp hhandle
        obtain ⟨rfl, rfl⟩ := Prod.mk.inj h
        exact sessionChange_destroy hdestroy
      · obtain ⟨rfl, rfl⟩ := Prod.mk.inj (Option.some.inj hhandle)
        exact hquiet
  | authenticationTimeout c =>
    rcases withConnection_cases hstep with ⟨rfl, rfl⟩ | ⟨client, conn, -, -, hhandle⟩
    · exact hquiet
    · obtain ⟨rfl, rfl⟩ := Prod.mk.inj (Option.some.inj hhandle)
      refine .quiet (.refl s) (issuesNothing_nil ?_)
      unfold ClientConnectionHandler.onAuthenticationTimeout
      split
      · rfl
      · rfl
  | connectionTimeout c =>
    rcases withConnection_cases hstep with ⟨rfl, rfl⟩ | ⟨client, conn, -, -, hhandle⟩
    · exact hquiet
    · obtain ⟨rfl, rfl⟩ := Prod.mk.inj (Option.some.inj hhandle)
      exact .quiet (.refl s) (issuesNothing_nil rfl)

/-- The id has been handed out to a client. -/
def HandedOut (s : VirtualServer) (c : ℤ) : Prop := 0 < c ∧ c ≤ s.nextClientId

/-- Clients are those with a connection. Clients, outstanding authentications and tokens have ids that
have been handed out, and the text of a token begins with the id of its client. -/
structure Sessions (s : VirtualServer) : Prop where
  connected : ∀ c : ℤ, c ∈ s.connections ↔ c ∈ s.clients
  client : ∀ c : ℤ, c ∈ s.clients → s.HandedOut c
  next : 0 ≤ s.nextClientId
  pending : ∀ pending ∈ s.authentications, s.HandedOut pending.clientId
  token : ∀ (token : String) (c : ℤ), s.tokens[token]? = some c →
    s.HandedOut c ∧ ∃ now, token = authToken c now

/-- The empty server has no sessions. -/
theorem sessions_init (opts : VirtualServerOptions) (bans : ExtTreeSet String) :
    (init opts bans).Sessions where
  connected _ := ⟨fun h => absurd h ExtTreeMap.not_mem_empty, fun h => absurd h ExtTreeMap.not_mem_empty⟩
  client _ h := absurd h ExtTreeMap.not_mem_empty
  next := Int.le_refl 0
  pending _ h := absurd h List.not_mem_nil
  token _ _ h := absurd h (Table.getElem?_empty_ne _ _)

/-- The clients stay the same. -/
theorem SameSessions.mem_clients {s s' : VirtualServer} (h : SameSessions s s') (c : ℤ) :
    c ∈ s'.clients ↔ c ∈ s.clients := by
  rw [ExtTreeMap.mem_iff_isSome_getElem?, ExtTreeMap.mem_iff_isSome_getElem?,
    ← Option.isSome_map (f := (·.authenticated)), h.login, Option.isSome_map]

/-- Ids are handed out in increasing order. -/
theorem SessionChange.nextClientId_le {s s' : VirtualServer} {out : List Effect}
    (h : SessionChange s s' out) : s.nextClientId ≤ s'.nextClientId := by
  cases h with
  | quiet hsessions => exact hsessions.nextClientId ▸ Int.le_refl _
  | connect peerAddress hstate =>
    rw [hstate]
    exact Int.le_add_one (Int.le_refl _)
  | authenticate _ _ _ hstate => exact hstate ▸ Int.le_refl _
  | drop _ hstate => exact hstate ▸ Int.le_refl _
  | login _ _ hstate => exact hstate ▸ Int.le_refl _
  | consume _ _ hsessions => exact hsessions.nextClientId ▸ Int.le_refl _
  | destroy _ _ hnext => exact hnext ▸ Int.le_refl _

/-- The configuration stays the same. -/
theorem SessionChange.opts {s s' : VirtualServer} {out : List Effect} (h : SessionChange s s' out) :
    s'.opts = s.opts := by
  cases h with
  | quiet hsessions => exact hsessions.opts
  | connect _ hstate => rw [hstate, ClientConnectionHandler.create]
  | authenticate _ _ _ hstate => rw [hstate]
  | drop _ hstate => rw [hstate]
  | login _ _ hstate =>
    rw [hstate]
    rfl
  | consume _ _ hsessions => exact hsessions.opts
  | destroy _ hopts => exact hopts

/-- A client that is new. -/
theorem Sessions.connect {s : VirtualServer} (h : s.Sessions) (peerAddress : QHostAddress) :
    (ClientConnectionHandler.create s peerAddress).Sessions where
  connected := by
    intro c
    change c ∈ s.connections.insert (s.nextClientId + 1) _ ↔ c ∈ s.clients.insert (s.nextClientId + 1) _
    rw [ExtTreeMap.mem_insert, ExtTreeMap.mem_insert, h.connected]
  client := by
    intro c hc
    change c ∈ s.clients.insert (s.nextClientId + 1) _ at hc
    change 0 < c ∧ c ≤ s.nextClientId + 1
    rw [ExtTreeMap.mem_insert, Std.compare_eq_iff_eq] at hc
    rcases hc with rfl | hc
    · have := h.next
      omega
    · have := h.client c hc
      exact ⟨this.1, by have := this.2; omega⟩
  next := by
    have := h.next
    change 0 ≤ s.nextClientId + 1
    omega
  pending pending hpending :=
    ⟨(h.pending pending hpending).1, Int.le_add_one (h.pending pending hpending).2⟩
  token token c htoken :=
    ⟨⟨(h.token token c htoken).1.1, Int.le_add_one (h.token token c htoken).1.2⟩,
      (h.token token c htoken).2⟩

/-- The sessions that are left alone. -/
theorem Sessions.of_sameSessions {s s' : VirtualServer} (h : s.Sessions)
    (hsessions : SameSessions s s') : s'.Sessions where
  connected c := by rw [hsessions.connected, hsessions.mem_clients, h.connected]
  client c hc := by
    rw [HandedOut, hsessions.nextClientId]
    exact h.client c ((hsessions.mem_clients c).mp hc)
  next := hsessions.nextClientId ▸ h.next
  pending pending hpending := by
    rw [HandedOut, hsessions.nextClientId]
    exact h.pending pending (hsessions.authentications ▸ hpending)
  token token c htoken := by
    rw [HandedOut, hsessions.nextClientId]
    exact h.token token c (hsessions.tokens ▸ htoken)

/-- Every event preserves the agreement of connections, clients, authentications and tokens. -/
theorem Sessions.change {s s' : VirtualServer} {out : List Effect} (h : s.Sessions) (hkeyed : s.Keyed)
    (hchange : SessionChange s s' out) : s'.Sessions := by
  cases hchange with
  | quiet hsessions => exact h.of_sameSessions hsessions
  | connect peerAddress hstate => exact hstate ▸ h.connect peerAddress
  | authenticate pending hconn _ hstate =>
    subst hstate
    refine ⟨h.connected, h.client, h.next, ?_, h.token⟩
    intro found hfound
    rcases List.mem_append.mp hfound with hold | hnew
    · exact h.pending found hold
    · rw [List.mem_singleton.mp hnew]
      exact h.client _ ((h.connected _).mp hconn)
  | drop index hstate =>
    subst hstate
    exact ⟨h.connected, h.client, h.next, fun found hfound =>
      h.pending found (List.mem_of_mem_eraseIdx hfound), h.token⟩
  | @login index pending client now _ hpending hclient hstate =>
    subst hstate
    have hid := hkeyed.client hclient
    have hmem : pending.clientId ∈ s.clients := Table.mem_of_getElem? hclient
    have hclients : ∀ (c : ℤ) (client' : ServerClientEntity),
        c ∈ s.clients.insert pending.clientId client' ↔ c ∈ s.clients := by
      intro c client'
      rw [ExtTreeMap.mem_insert, Std.compare_eq_iff_eq]
      exact ⟨fun hc => hc.elim (· ▸ hmem) id, .inr⟩
    refine ⟨fun c => (h.connected c).trans (hclients c _).symm,
      fun c hc => h.client c ((hclients c _).mp hc), h.next, fun found hfound =>
        h.pending found (List.mem_of_mem_eraseIdx hfound), ?_⟩
    intro token c htoken
    dsimp only at htoken
    rcases Table.of_getElem?_insert htoken with ⟨rfl, rfl⟩ | hold
    · refine ⟨?_, now, rfl⟩
      rw [hid]
      exact h.client _ hmem
    · exact h.token token c hold
  | consume htoken htokens hsessions =>
    have hrest := h.of_sameSessions hsessions
    refine ⟨hrest.connected, hrest.client, hrest.next, hrest.pending, ?_⟩
    intro token c hfound
    rw [htokens] at hfound
    exact hrest.token token c (Table.of_getElem?_erase hfound).2
  | destroy c hopts hnext hclients hconnected hauthentications htokens =>
    have hmem : ∀ k : ℤ, k ∈ s'.clients ↔ k ≠ c ∧ k ∈ s.clients := by
      intro k
      rw [hclients, ExtTreeMap.mem_erase, Ne, Std.compare_eq_iff_eq, eq_comm (a := c)]
    refine ⟨fun k => ?_, fun k hk => ?_, hnext ▸ h.next, fun found hfound => ?_,
      fun token k hfound => ?_⟩
    · rw [hconnected, hmem, h.connected]
    · rw [HandedOut, hnext]
      exact h.client k ((hmem k).mp hk).2
    · rw [HandedOut, hnext]
      exact h.pending found (hauthentications ▸ hfound)
    · rw [HandedOut, hnext]
      exact h.token token k (htokens ▸ hfound)

/-- What holds of sessions and their changes holds in every state that the server reaches. -/
theorem sessions_reachable {fromUtf8 : List UInt8 → String} {opts : VirtualServerOptions}
    {bans : ExtTreeSet String} {s : VirtualServer}
    (hreach : Runs.Reachable (step fromUtf8) (init opts bans) s) :
    s.Keyed ∧ s.Authorization ∧ s.Sessions := by
  apply hreach.invariant (P := fun s => s.Keyed ∧ s.Authorization ∧ s.Sessions)
    ⟨keyed_init opts bans, authorization_init opts bans, sessions_init opts bans⟩
  rintro s e s' out ⟨hkeyed, hauth, hsessions⟩ hstep
  have htrans := transition_of_step hkeyed hstep
  exact ⟨htrans.keyed hkeyed, hauth.transition hkeyed htrans,
    hsessions.change hkeyed (sessionChange_of_step hstep)⟩

end VirtualServer

end Ts3Video
