import Ts3Video.Server.Tokens

/-!
# Media addresses come from tokens

Nothing but a datagram uses up a token, and nothing but the use of a token sets a media address. So every
media address is one that its client has sent a token from.
-/

namespace Ts3Video.VirtualServer

open Std

/-- A datagram from this address has brought a token of the client. -/
def BoundAt (fromUtf8 : List UInt8 → String) (before : List (VirtualServer × Event)) (c : ℤ)
    (address : QHostAddress) (port : UInt16) : Prop :=
  ∃ t datagram, (t, .readyRead datagram address port) ∈ before ∧
    boundClient? fromUtf8 t (.readyRead datagram address port) = some c

/-- Every media address is one that its client has sent a token from. -/
def MediaBound (fromUtf8 : List UInt8 → String) (before : List (VirtualServer × Event))
    (s : VirtualServer) : Prop :=
  ∀ (c : ℤ) (client : ServerClientEntity), s.clients[c]? = some client →
    client.mediaAddress ≠ QHostAddress.null →
    BoundAt fromUtf8 before c client.mediaAddress client.mediaPort

variable {fromUtf8 : List UInt8 → String} {s s' : VirtualServer} {e : Event} {out : List Effect}
  {before : List (VirtualServer × Event)} {c : ℤ}

/-- Only datagrams use up tokens. -/
theorem mem_tokens_of_step (hstep : step fromUtf8 s e = some (s', out))
    (hevent : ∀ datagram address port, e ≠ .readyRead datagram address port) {token : String}
    (htoken : token ∈ s.tokens) : token ∈ s'.tokens := by
  cases e with
  | newConnection peerAddress =>
    obtain ⟨rfl, -⟩ := Prod.mk.inj (Option.some.inj hstep)
    exact htoken
  | newIncomingRequest c correlationId document =>
    rcases withConnection_cases hstep with ⟨rfl, -⟩ | ⟨client, conn, hclient, hconn, -⟩
    · exact htoken
    · obtain ⟨params, hanswer⟩ := answer_of_request hclient (Table.mem_of_getElem? hconn) hstep
      cases hanswer with
      | ok _ _ hsessions => exact hsessions.tokens ▸ htoken
      | refused _ _ _ hstate => exact hstate ▸ htoken
      | pending _ _ _ hstate => exact hstate ▸ htoken
  | authenticationFinished index ts3Allowed now =>
    simp only [step, onAuthenticationFinished] at hstep
    split at hstep
    · obtain ⟨rfl, -⟩ := Prod.mk.inj (Option.some.inj hstep)
      exact htoken
    · cases completion_of_onFinished hstep with
      | refused _ hstate => exact hstate ▸ htoken
      | gone _ hstate => exact hstate ▸ htoken
      | login _ _ _ hstate =>
        rw [hstate]
        exact ExtTreeMap.mem_insert.mpr (.inr htoken)
  | readyRead datagram address port => exact absurd rfl (hevent datagram address port)
  | networkUsageUpdated networkUsage =>
    obtain ⟨rfl, -⟩ := Prod.mk.inj (Option.some.inj hstep)
    exact htoken
  | unconnected c =>
    rcases withConnection_cases hstep with ⟨rfl, -⟩ | ⟨client, conn, -, -, hhandle⟩
    · exact htoken
    · obtain ⟨rfl, -⟩ := Prod.mk.inj (Option.some.inj hhandle)
      exact htoken
  | destroyed c =>
    rcases withConnection_cases hstep with ⟨rfl, -⟩ | ⟨client, conn, -, -, hhandle⟩
    · exact htoken
    · split at hhandle
      · obtain ⟨t, hdestroy, h⟩ := Option.map_eq_some_iff.mp hhandle
        obtain ⟨rfl, -⟩ := Prod.mk.inj h
        obtain ⟨u, -, hleaves, -, -, -, -, -, -, -, htokens, -⟩ := leaves_destroy hdestroy
        rw [htokens, hleaves.tokens]
        exact htoken
      · obtain ⟨rfl, -⟩ := Prod.mk.inj (Option.some.inj hhandle)
        exact htoken
  | authenticationTimeout c =>
    rcases withConnection_cases hstep with ⟨rfl, -⟩ | ⟨client, conn, -, -, hhandle⟩
    · exact htoken
    · obtain ⟨rfl, -⟩ := Prod.mk.inj (Option.some.inj hhandle)
      exact htoken
  | connectionTimeout c =>
    rcases withConnection_cases hstep with ⟨rfl, -⟩ | ⟨client, conn, -, -, hhandle⟩
    · exact htoken
    · obtain ⟨rfl, -⟩ := Prod.mk.inj (Option.some.inj hhandle)
      exact htoken

/-- A transition that uses up no token leaves the media addresses alone. -/
theorem Transition.mediaAddress (h : Transition s e s')
    (htokens : ∀ token : String, token ∈ s.tokens → token ∈ s'.tokens) {found : ServerClientEntity}
    (hfound : s'.clients[c]? = some found) (haddress : found.mediaAddress ≠ QHostAddress.null) :
    ∃ earlier, s.clients[c]? = some earlier ∧ earlier.mediaAddress = found.mediaAddress ∧
      earlier.mediaPort = found.mediaPort := by
  cases h.recordChange hfound with
  | keep hclient => exact ⟨_, hclient, rfl, rfl⟩
  | new => exact absurd rfl haddress
  | login _ hclient => exact ⟨_, hclient, rfl, rfl⟩
  | sendMedia hadmits => exact ⟨_, hadmits.live, rfl, rfl⟩
  | becomeAdmin hadmits => exact ⟨_, hadmits.live, rfl, rfl⟩
  | changeVisibility hadmits => exact ⟨_, hadmits.live, rfl, rfl⟩
  | bindToken _ _ htoken _ herased =>
    have hmem := htokens _ (Table.mem_of_getElem? htoken)
    rw [herased, ExtTreeMap.mem_erase] at hmem
    exact absurd ReflOrd.compare_self hmem.1

/-- An earlier datagram remains one. -/
theorem BoundAt.append {address : QHostAddress} {port : UInt16}
    (h : BoundAt fromUtf8 before c address port) (later : List (VirtualServer × Event)) :
    BoundAt fromUtf8 (before ++ later) c address port := by
  obtain ⟨t, datagram, hmem, hbound⟩ := h
  exact ⟨t, datagram, List.mem_append_left _ hmem, hbound⟩

/-- A datagram that binds a token is the one that the new media address comes from. -/
theorem MediaBound.next (h : MediaBound fromUtf8 before s) (hkeyed : s.Keyed)
    (hstep : step fromUtf8 s e = some (s', out)) : MediaBound fromUtf8 (before ++ [(s, e)]) s' := by
  intro k found hfound haddress
  have hold : ∀ {old : ServerClientEntity}, s.clients[k]? = some old →
      old.mediaAddress = found.mediaAddress → old.mediaPort = found.mediaPort →
      BoundAt fromUtf8 (before ++ [(s, e)]) k found.mediaAddress found.mediaPort := by
    intro old hold hsame hport
    rw [← hsame, ← hport]
    exact (h k old hold (hsame ▸ haddress)).append _
  cases hbound : boundClient? fromUtf8 s e with
  | some c =>
    obtain ⟨token, client, datagram, address, port, rfl, -, hclient, -, hclients⟩ :=
      step_of_boundClient? hbound hstep
    rcases Table.of_getElem?_insert (hclients ▸ hfound) with ⟨rfl, rfl⟩ | hbefore
    · exact ⟨s, datagram, List.mem_append_right _ (List.mem_singleton_self _), hbound⟩
    · exact hold hbefore rfl rfl
  | none =>
    by_cases hevent : ∃ datagram address port, e = .readyRead datagram address port
    · obtain ⟨datagram, address, port, rfl⟩ := hevent
      have hclients := clients_of_boundClient? hbound
      rw [congrArg Prod.fst (Option.some.inj hstep)] at hclients
      exact hold (hclients ▸ hfound) rfl rfl
    · simp only [not_exists] at hevent
      obtain ⟨old, hclient, hsame, hport⟩ := (transition_of_step hkeyed hstep).mediaAddress
        (fun token => mem_tokens_of_step hstep hevent) hfound haddress
      exact hold hclient hsame hport

/-- At the end of a run, every media address is one that its client has sent a token from. -/
theorem mediaBound_run {opts : VirtualServerOptions} {bans : ExtTreeSet String}
    {events : List Event} (hrun : Runs.run (step fromUtf8) (init opts bans) events = some (s, out)) :
    MediaBound fromUtf8 (Runs.visited (step fromUtf8) (init opts bans) events) s := by
  refine (Runs.visited_invariant (P := fun before s _ => s.Keyed ∧ MediaBound fromUtf8 before s) ?_
    ⟨keyed_init opts bans, fun c client hclient => absurd hclient (Table.getElem?_empty_ne _ _)⟩
    hrun).2
  rintro before s e s' out more ⟨hkeyed, h⟩ hstep
  exact ⟨hkeyed.step hstep, h.next hkeyed hstep⟩

end Ts3Video.VirtualServer
