import Mathlib.Data.Finset.Card
import Ts3Video.Server.Sessions

/-!
# What media tokens are good for

A token leads to the client that it was issued to, and to nobody else after that client has gone: its
text begins with the id of the client, and ids are not used twice. Every login issues one token, and
every use of a token takes it away.
-/

namespace Ts3Video

open Std

namespace VirtualServer

/-- The token was issued to the client by a response to an authentication. -/
def Issued (out : List Effect) (c : ℤ) (token : String) : Prop :=
  ∃ correlationId response, (c, correlationId, response) ∈ responses out ∧
    issuedToken? response = some token

/-- The number of responses that logged the client in. -/
def completions (out : List Effect) (c : ℤ) : ℕ :=
  (responses out).countP fun response => response.1 = c ∧ (issuedToken? response.2.2).isSome

/-- The client whose media address the event sets. -/
def boundClient? (fromUtf8 : List UInt8 → String) (s : VirtualServer) : Event → Option ℤ
  | .readyRead datagram _ _ =>
    match MediaSocketHandler.parse (datagram.take MediaSocketHandler.bufferSize) with
    | .authenticate data => (s.tokens[fromUtf8 data]?).filter fun c => c ∈ s.clients
    | _ => none
  | _ => none

/-- The number of events that set the media address of the client. -/
def bindings (fromUtf8 : List UInt8 → String) (events : List (VirtualServer × Event)) (c : ℤ) : ℕ :=
  events.countP fun visited => boundClient? fromUtf8 visited.1 visited.2 = some c

/-- What the run so far says about the tokens that are left. -/
structure TokenHistory (fromUtf8 : List UInt8 → String) (before : List (VirtualServer × Event))
    (s : VirtualServer) (out : List Effect) : Prop where
  issued : ∀ (token : String) (c : ℤ), s.tokens[token]? = some c → Issued out c token
  owner : ∀ (token : String) (c : ℤ), Issued out c token →
    s.HandedOut c ∧ ∃ now, token = authToken c now
  once : ∀ c : ℤ, ∃ unused : Finset String,
    bindings fromUtf8 before c + unused.card ≤ completions out c ∧
      ∀ token : String, s.tokens[token]? = some c → token ∈ unused

variable {fromUtf8 : List UInt8 → String} {s s' : VirtualServer} {e : Event} {out more : List Effect}
  {before : List (VirtualServer × Event)} {c : ℤ}

/-- Responses that come later do not take a token back. -/
theorem issued_append {token : String} : Issued (out ++ more) c token ↔
    Issued out c token ∨ Issued more c token := by
  simp only [Issued, responses, List.filterMap_append, List.mem_append, or_and_right, exists_or]

/-- A token has been issued only if some response has issued it. -/
theorem not_issued_of_issuesNothing (h : IssuesNothing out) {token : String} : ¬ Issued out c token := by
  rintro ⟨correlationId, response, hmem, htoken⟩
  rw [h _ hmem] at htoken
  contradiction

/-- A datagram that binds a token uses it up. -/
theorem step_of_boundClient? (hbound : boundClient? fromUtf8 s e = some c)
    (hstep : step fromUtf8 s e = some (s', out)) :
    ∃ (token : String) (client : ServerClientEntity) (datagram : List UInt8)
      (address : QHostAddress) (port : UInt16), e = .readyRead datagram address port ∧
      s.tokens[token]? = some c ∧ s.clients[c]? = some client ∧
      s'.tokens = s.tokens.erase token ∧
      s'.clients = s.clients.insert c { client with mediaAddress := address, mediaPort := port } := by
  cases e with
  | readyRead datagram address port =>
    simp only [boundClient?] at hbound
    split at hbound
    next data hparse =>
      obtain ⟨htoken, hmem⟩ := Option.filter_eq_some_iff.mp hbound
      obtain ⟨client, hclient⟩ := Table.mem_iff.mp (of_decide_eq_true hmem)
      obtain ⟨rfl, rfl⟩ := Prod.mk.inj (Option.some.inj hstep)
      refine ⟨fromUtf8 data, client, datagram, address, port, rfl, htoken, hclient, ?_, ?_⟩
      · simp only [MediaSocketHandler.onReadyRead, hparse, List.foldl_cons,
          List.foldl_nil, onMediaSocketOutput, onMediaSocketTokenAuthentication, htoken, hclient]
        rfl
      · simp only [MediaSocketHandler.onReadyRead, hparse, List.foldl_cons,
          List.foldl_nil, onMediaSocketOutput, onMediaSocketTokenAuthentication, htoken, hclient]
        rfl
    next => contradiction
  | _ => contradiction

/-- A datagram that binds no token changes no client. -/
theorem clients_of_boundClient? {datagram : List UInt8} {address : QHostAddress} {port : UInt16}
    (hbound : boundClient? fromUtf8 s (.readyRead datagram address port) = none) :
    (s.onReadyRead fromUtf8 datagram address port).1.clients = s.clients := by
  cases hparse : MediaSocketHandler.parse (datagram.take MediaSocketHandler.bufferSize) with
  | invalid => simp only [onReadyRead, MediaSocketHandler.onReadyRead, hparse, List.foldl_nil]
  | relay =>
    rw [onReadyRead_relay fromUtf8 address port hparse]
    rfl
  | recover sender =>
    rw [onReadyRead_recover fromUtf8 address port hparse]
    rfl
  | authenticate data =>
    simp only [boundClient?, hparse] at hbound
    simp only [onReadyRead, MediaSocketHandler.onReadyRead, hparse, List.foldl_cons, List.foldl_nil,
      onMediaSocketOutput, onMediaSocketTokenAuthentication]
    split
    · rfl
    next c htoken =>
      rw [htoken, Option.filter_some] at hbound
      split at hbound
      · contradiction
      next hgone =>
        have hnone : s.clients[c]? = none := ExtTreeMap.getElem?_eq_none (by simpa using hgone)
        rw [hnone]

/-- What an event does to the tokens: none is new, or the one of a client that logs in. -/
theorem SessionChange.tokens (hkeyed : s.Keyed) (h : SessionChange s s' more) :
    (IssuesNothing more ∧ ∀ (token : String) (c : ℤ), s'.tokens[token]? = some c →
      s.tokens[token]? = some c) ∨
    ∃ c now correlationId response, c ∈ s.clients ∧
      responses more = [(c, correlationId, response)] ∧
      issuedToken? response = some (authToken c now) ∧
      s'.tokens = s.tokens.insert (authToken c now) c := by
  cases h with
  | quiet hsessions hissues => exact .inl ⟨hissues, fun _ _ h => hsessions.tokens ▸ h⟩
  | connect _ hstate hissues => exact .inl ⟨hissues, fun _ _ h => by rwa [hstate] at h⟩
  | authenticate _ _ _ hstate hissues => exact .inl ⟨hissues, fun _ _ h => by rwa [hstate] at h⟩
  | drop _ hstate hissues => exact .inl ⟨hissues, fun _ _ h => by rwa [hstate] at h⟩
  | login _ hclient hstate htoken hresponses =>
    rw [hkeyed.client hclient] at htoken hstate
    have hmem := Table.mem_of_getElem? hclient
    exact .inr ⟨_, _, _, _, hmem, hresponses, htoken, by rw [hstate]⟩
  | consume _ htokens _ hissues =>
    exact .inl ⟨hissues, fun _ _ h => (Table.of_getElem?_erase (htokens ▸ h)).2⟩
  | destroy _ _ _ _ _ _ htokens hissues => exact .inl ⟨hissues, fun _ _ h => htokens ▸ h⟩

/-- Every event extends what the run says about the tokens. -/
theorem TokenHistory.next (h : TokenHistory fromUtf8 before s out) (hkeyed : s.Keyed)
    (hsessions : s.Sessions) (hstep : step fromUtf8 s e = some (s', more)) :
    TokenHistory fromUtf8 (before ++ [(s, e)]) s' (out ++ more) := by
  have hchange := sessionChange_of_step hstep
  have hhandedOut : ∀ c, s.HandedOut c → s'.HandedOut c := fun c hc =>
    ⟨hc.1, hc.2.trans hchange.nextClientId_le⟩
  have hcompletions : ∀ c, completions (out ++ more) c = completions out c + completions more c := by
    intro c
    simp only [completions, responses, List.filterMap_append, List.countP_append]
  have hbindings : ∀ c, bindings fromUtf8 (before ++ [(s, e)]) c = bindings fromUtf8 before c +
      if boundClient? fromUtf8 s e = some c then 1 else 0 := by
    intro c
    simp [bindings, List.countP_append, List.countP_singleton]
  refine ⟨fun token c htoken => ?_, fun token c hissued => ?_, fun c => ?_⟩
  · rcases hchange.tokens hkeyed with ⟨-, hold⟩ | ⟨k, now, id, response, -, hmore, hissue, htokens⟩
    · exact issued_append.mpr (.inl (h.issued token c (hold token c htoken)))
    · rcases Table.of_getElem?_insert (htokens ▸ htoken) with ⟨rfl, rfl⟩ | hold
      · refine issued_append.mpr (.inr ⟨id, response, ?_, hissue⟩)
        rw [hmore]
        exact List.mem_singleton_self _
      · exact issued_append.mpr (.inl (h.issued token c hold))
  · rcases issued_append.mp hissued with hold | hnew
    · obtain ⟨hid, hnow⟩ := h.owner token c hold
      exact ⟨hhandedOut c hid, hnow⟩
    · rcases hchange.tokens hkeyed with ⟨hissues, -⟩ | ⟨k, now, id, response, hk, hmore, hissue, -⟩
      · exact absurd hnew (not_issued_of_issuesNothing hissues)
      · obtain ⟨id', response', hresponse, htoken⟩ := hnew
        rw [hmore, List.mem_singleton] at hresponse
        obtain ⟨rfl, -, rfl⟩ : c = k ∧ id' = id ∧ response' = response := by simpa using hresponse
        exact ⟨hhandedOut c (hsessions.client c hk), now,
          Option.some.inj (htoken.symm.trans hissue)⟩
  · obtain ⟨unused, hcount, hunused⟩ := h.once c
    rw [hbindings, hcompletions]
    split
    next hbound =>
      obtain ⟨token, _, _, _, _, -, htoken, -, htokens, -⟩ := step_of_boundClient? hbound hstep
      refine ⟨unused.erase token, ?_, fun other hother => ?_⟩
      · have hcard := Finset.card_erase_add_one (hunused token htoken)
        omega
      · rw [htokens] at hother
        obtain ⟨hne, hold⟩ := Table.of_getElem?_erase hother
        exact Finset.mem_erase.mpr ⟨hne.symm, hunused other hold⟩
    next =>
      rcases hchange.tokens hkeyed with ⟨-, hold⟩ | ⟨k, now, id, response, -, hmore, hissue, htokens⟩
      · exact ⟨unused, by omega, fun other hother => hunused other (hold other c hother)⟩
      · by_cases hk : k = c
        · subst hk
          have hone : completions more k = 1 := by simp [completions, hmore, hissue]
          refine ⟨insert (authToken k now) unused, ?_, fun other hother => ?_⟩
          · have hcard := Finset.card_insert_le (authToken k now) unused
            omega
          · rcases Table.of_getElem?_insert (htokens ▸ hother) with ⟨rfl, -⟩ | hold
            · exact Finset.mem_insert_self _ _
            · exact Finset.mem_insert_of_mem (hunused other hold)
        · refine ⟨unused, by omega, fun other hother => ?_⟩
          rcases Table.of_getElem?_insert (htokens ▸ hother) with ⟨-, hc⟩ | hold
          · exact absurd hc hk
          · exact hunused other hold

/-- New clients get the next id. -/
theorem SessionChange.mem_clients (h : SessionChange s s' out) (hc : c ∈ s'.clients) :
    c ∈ s.clients ∨ c = s.nextClientId + 1 := by
  cases h with
  | quiet hsessions => exact .inl ((hsessions.mem_clients c).mp hc)
  | connect _ hstate =>
    rw [hstate] at hc
    change c ∈ s.clients.insert (s.nextClientId + 1) _ at hc
    rw [ExtTreeMap.mem_insert, Std.compare_eq_iff_eq] at hc
    exact hc.elim (fun hnew => .inr hnew.symm) .inl
  | authenticate _ _ _ hstate => exact .inl (by rwa [hstate] at hc)
  | drop _ hstate => exact .inl (by rwa [hstate] at hc)
  | @login _ pending _ _ _ _ hclient hstate =>
    rw [hstate] at hc
    change c ∈ s.clients.insert pending.clientId _ at hc
    rw [ExtTreeMap.mem_insert, Std.compare_eq_iff_eq] at hc
    rcases hc with rfl | hold
    · exact .inl (Table.mem_of_getElem? hclient)
    · exact .inl hold
  | consume _ _ hsessions => exact .inl ((hsessions.mem_clients c).mp hc)
  | destroy _ _ _ hclients =>
    rw [hclients] at hc
    exact .inl (ExtTreeMap.mem_of_mem_erase hc)

end VirtualServer

end Ts3Video
