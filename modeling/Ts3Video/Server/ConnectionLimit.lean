import Mathlib.Data.Finset.Card
import Ts3Video.Server.Sessions

/-!
# The connection limit

The limit is checked when an authentication begins, against the number of all connections. The clients
that are logged in or waiting for the TeamSpeak server are those that were connected when the check
was passed last, so there are never more of them than the limit allows.
-/

namespace Ts3Video.VirtualServer

open Std

/-- The client is logged in. -/
def IsAuthenticated (s : VirtualServer) (c : ℤ) : Prop :=
  (s.clients[c]?).map (·.authenticated) = some true

instance (s : VirtualServer) (c : ℤ) : Decidable (s.IsAuthenticated c) :=
  inferInstanceAs (Decidable (_ = _))

/-- The connected clients that are logged in. -/
def authenticatedClients (s : VirtualServer) : List ℤ :=
  s.connections.keys.filter fun c => s.IsAuthenticated c

/-- The client is logged in, or it waits for the TeamSpeak server. -/
def HasPassedCheck (s : VirtualServer) (c : ℤ) : Prop :=
  s.IsAuthenticated c ∨ ∃ pending ∈ s.authentications, pending.clientId = c

/-- The connected clients that have passed the check are among a set that the limit allows. -/
def WithinLimit (s : VirtualServer) : Prop :=
  ∃ admitted : Finset ℤ, (admitted.card : ℤ) ≤ s.opts.connectionLimit ∧
    ∀ c : ℤ, c ∈ s.connections → s.HasPassedCheck c → c ∈ admitted

/-- A set within the limit counts the clients that are logged in. -/
theorem WithinLimit.length_le {s : VirtualServer} (h : s.WithinLimit) :
    (s.authenticatedClients.length : ℤ) ≤ s.opts.connectionLimit := by
  obtain ⟨admitted, hcard, hmem⟩ := h
  have hnodup : s.authenticatedClients.Nodup := ExtTreeMap.nodup_keys.filter _
  have hsubset : s.authenticatedClients.toFinset ⊆ admitted := by
    intro c hc
    obtain ⟨hconn, hauth⟩ := List.mem_filter.mp (List.mem_toFinset.mp hc)
    exact hmem c (ExtTreeMap.mem_keys.mp hconn) (.inl (of_decide_eq_true hauth))
  have hle := Finset.card_le_card hsubset
  rw [List.toFinset_card_of_nodup hnodup] at hle
  omega

/-- Fewer clients have passed the check, of those that are still connected. -/
theorem WithinLimit.mono {s s' : VirtualServer} (h : s.WithinLimit) (hopts : s'.opts = s.opts)
    (hpassed : ∀ c : ℤ, c ∈ s'.connections → s'.HasPassedCheck c →
      c ∈ s.connections ∧ s.HasPassedCheck c) : s'.WithinLimit := by
  obtain ⟨admitted, hcard, hmem⟩ := h
  refine ⟨admitted, hopts ▸ hcard, fun c hconn hcheck => ?_⟩
  obtain ⟨hconn', hcheck'⟩ := hpassed c hconn hcheck
  exact hmem c hconn' hcheck'

/-- A client that has passed the check was connected at a time when there were not too many
connections. -/
theorem WithinLimit.of_size_le {s s' : VirtualServer} (hopts : s'.opts = s.opts)
    (hconnections : s'.connections = s.connections)
    (hlimit : (s.connections.size : ℤ) ≤ s.opts.connectionLimit) : s'.WithinLimit := by
  refine ⟨s.connections.keys.toFinset, ?_, fun c hconn _ => ?_⟩
  · rw [List.toFinset_card_of_nodup ExtTreeMap.nodup_keys, ExtTreeMap.length_keys, hopts]
    exact hlimit
  · rw [List.mem_toFinset, ExtTreeMap.mem_keys]
    exact hconnections ▸ hconn

/-- Who is logged in or waiting depends on the sessions only. -/
theorem SameSessions.hasPassedCheck {s s' : VirtualServer} (h : SameSessions s s') {c : ℤ} :
    s'.HasPassedCheck c ↔ s.HasPassedCheck c := by
  rw [HasPassedCheck, HasPassedCheck, IsAuthenticated, IsAuthenticated, h.login, h.authentications]

/-- A client that is new has not passed the check. -/
theorem Sessions.not_hasPassedCheck_create {s : VirtualServer} (h : s.Sessions)
    (peerAddress : QHostAddress) :
    ¬ (ClientConnectionHandler.create s peerAddress).HasPassedCheck (s.nextClientId + 1) := by
  rintro (hauth | ⟨pending, hpending, hid⟩)
  · change ((s.clients.insert (s.nextClientId + 1) _)[s.nextClientId + 1]?).map _ = _ at hauth
    rw [Table.getElem?_insert, if_pos rfl] at hauth
    exact Bool.false_ne_true (Option.some.inj hauth)
  · have hbound := (h.pending pending hpending).2
    omega

/-- Every event keeps the clients that have passed the check within the limit. -/
theorem WithinLimit.change {s s' : VirtualServer} {out : List Effect} (h : s.WithinLimit)
    (hsessions : s.Sessions) (hchange : SessionChange s s' out) : s'.WithinLimit := by
  have hopts := hchange.opts
  cases hchange with
  | quiet hsame =>
    exact h.mono hopts fun c hconn hcheck =>
      ⟨(hsame.connected c).mp hconn, hsame.hasPassedCheck.mp hcheck⟩
  | connect peerAddress hstate =>
    subst hstate
    apply h.mono hopts
    intro c hconn hcheck
    by_cases hnew : s.nextClientId + 1 = c
    · exact absurd (hnew ▸ hcheck) (hsessions.not_hasPassedCheck_create peerAddress)
    · change c ∈ s.connections.insert (s.nextClientId + 1) _ at hconn
      rw [ExtTreeMap.mem_insert, Std.compare_eq_iff_eq, or_iff_right hnew] at hconn
      refine ⟨hconn, hcheck.imp_left fun hauth => ?_⟩
      change ((s.clients.insert (s.nextClientId + 1) _)[c]?).map _ = _ at hauth
      rwa [Table.getElem?_insert, if_neg hnew] at hauth
  | authenticate pending _ hlimit hstate =>
    subst hstate
    exact .of_size_le (s := s) rfl rfl hlimit
  | drop index hstate =>
    subst hstate
    apply h.mono hopts
    rintro c hconn (hauth | ⟨pending, hpending, hid⟩)
    · exact ⟨hconn, .inl hauth⟩
    · exact ⟨hconn, .inr ⟨pending, List.mem_of_mem_eraseIdx hpending, hid⟩⟩
  | @login index pending client now _ hpending hclient hstate =>
    subst hstate
    apply h.mono hopts
    rintro c hconn (hauth | ⟨other, hother, hid⟩)
    · refine ⟨hconn, ?_⟩
      by_cases hc : pending.clientId = c
      · exact .inr ⟨pending, List.mem_of_getElem? hpending, hc⟩
      · change ((s.clients.insert pending.clientId _)[c]?).map _ = _ at hauth
        rw [Table.getElem?_insert, if_neg hc] at hauth
        exact .inl hauth
    · exact ⟨hconn, .inr ⟨other, List.mem_of_mem_eraseIdx hother, hid⟩⟩
  | consume _ _ hsame =>
    exact h.mono hopts fun c hconn hcheck =>
      ⟨(hsame.connected c).mp hconn, hsame.hasPassedCheck.mp hcheck⟩
  | destroy k _ _ hclients hconnected hauthentications =>
    apply h.mono hopts
    intro c hconn hcheck
    obtain ⟨hne, hconn'⟩ := (hconnected c).mp hconn
    refine ⟨hconn', ?_⟩
    rwa [HasPassedCheck, IsAuthenticated, hclients, hauthentications, Table.getElem?_erase,
      if_neg hne.symm] at hcheck

/-- In every state that the server can reach, whatever the order of connections, authentications,
their completions and disconnections, no more connected clients are logged in than the limit
allows. -/
theorem authenticated_le_connectionLimit {fromUtf8 : List UInt8 → String}
    {opts : VirtualServerOptions} {bans : ExtTreeSet String} {s : VirtualServer}
    (hlimit : 0 ≤ opts.connectionLimit)
    (hreach : Runs.Reachable (step fromUtf8) (init opts bans) s) :
    (s.authenticatedClients.length : ℤ) ≤ opts.connectionLimit := by
  have hinit : (init opts bans).WithinLimit :=
    ⟨∅, hlimit, fun c hconn => absurd hconn ExtTreeMap.not_mem_empty⟩
  obtain ⟨-, -, hopts, h⟩ := hreach.invariant
    (P := fun s => s.Keyed ∧ s.Sessions ∧ s.opts = opts ∧ s.WithinLimit)
    ⟨keyed_init opts bans, sessions_init opts bans, rfl, hinit⟩ (by
      rintro s e s' out ⟨hkeyed, hsessions, hopts, h⟩ hstep
      have hchange := sessionChange_of_step hstep
      exact ⟨hkeyed.step hstep, hsessions.change hkeyed hchange,
        hchange.opts.trans hopts, h.change hsessions hchange⟩)
  exact hopts ▸ h.length_le

/-- Two clients begin to log in while two connections are allowed. A third one connects before the
TeamSpeak server has answered for the others, and is refused. -/
def lateAnswers : List Event :=
  [.newConnection "192.0.2.1", .newConnection "192.0.2.2",
    .request 1 .AuthenticationAction
      [("version", .string IFVS_SOFTWARE_VERSION), ("username", .string "alice")],
    .request 2 .AuthenticationAction
      [("version", .string IFVS_SOFTWARE_VERSION), ("username", .string "bob")],
    .newConnection "192.0.2.3",
    .request 3 .AuthenticationAction
      [("version", .string IFVS_SOFTWARE_VERSION), ("username", .string "carol")],
    .authenticationFinished 1 true "10:00", .authenticationFinished 0 true "10:00"]

/-- Then two of the three clients are logged in. -/
theorem authenticated_le_connectionLimit_lateAnswers : ∃ s,
    Runs.Reachable (step fun _ => "") (init { connectionLimit := 2 } ∅) s ∧
      s.authenticatedClients = [1, 2] ∧ s.connections.size = 3 ∧
      (s.authenticatedClients.length : ℤ) ≤ 2 := by
  have hfacts : (Runs.run (step fun _ => "") (init { connectionLimit := 2 } ∅) lateAnswers).map
      (fun done => (done.1.authenticatedClients, done.1.connections.size)) = some ([1, 2], 3) := by
    decide +kernel
  obtain ⟨⟨s, out⟩, hrun, hfacts⟩ := Option.map_eq_some_iff.mp hfacts
  have hreach : Runs.Reachable (step fun _ => "") (init { connectionLimit := 2 } ∅) s :=
    ⟨lateAnswers, out, hrun⟩
  have hlimit : 0 ≤ ({ connectionLimit := 2 } : VirtualServerOptions).connectionLimit := by decide
  exact ⟨s, hreach, (Prod.mk.inj hfacts).1, (Prod.mk.inj hfacts).2,
    authenticated_le_connectionLimit hlimit hreach⟩

end Ts3Video.VirtualServer
