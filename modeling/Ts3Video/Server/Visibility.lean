import Ts3Video.Server.Authorization

/-!
# Who may see whom

The level that a client is allowed to see is never changed, so administrators see as little as anyone
else. The policy for the visibility levels holds until a client asks to be seen by administrators only.
-/

namespace Ts3Video.VirtualServer

open Std

/-- What the visibility levels stand for. -/
structure VisibilityPolicy (s : VirtualServer) : Prop where
  default : ∀ (a b : ℤ) (client observer : ServerClientEntity), s.clients[a]? = some client →
    s.clients[b]? = some observer → client.visibilityLevel = ServerClientEntity.VL_Default →
    observer.isAllowedToSee client = true
  admin : ∀ (a b : ℤ) (client observer : ServerClientEntity), s.clients[a]? = some client →
    s.clients[b]? = some observer → client.visibilityLevel = ServerClientEntity.VL_Admin →
    (observer.isAllowedToSee client = true ↔ observer.admin = true)
  notVisible : ∀ (a b : ℤ) (client observer : ServerClientEntity), s.clients[a]? = some client →
    s.clients[b]? = some observer → client.visibilityLevel = ServerClientEntity.VL_NotVisible →
    observer.isAllowedToSee client = false

/-- The request asks that only administrators see the client. -/
def HidesFromUsers (s : VirtualServer) (e : Event) : Prop :=
  ∃ c client params, Admits s e c client .UpdateVisibilityLevelAction params ∧
    (params.value "visibilitylevel").toInt = ServerClientEntity.VL_Admin

/-- Nobody is allowed to see more than the default. -/
def AllowedDefault (s : VirtualServer) : Prop :=
  ∀ (c : ℤ) (client : ServerClientEntity), s.clients[c]? = some client →
    client.visibilityLevelAllowed = ServerClientEntity.VL_Default

/-- No client is visible to administrators only. -/
def NoneHidden (s : VirtualServer) : Prop :=
  ∀ (c : ℤ) (client : ServerClientEntity), s.clients[c]? = some client →
    client.visibilityLevel ≠ ServerClientEntity.VL_Admin

variable {s s' : VirtualServer} {e : Event}

/-- The visibility of a client after an event: that of a client that was there before, unless that
client asked for another level, or that of a new client. -/
inductive VisibilityChange (s : VirtualServer) (e : Event) (k : ℤ) (found : ServerClientEntity) : Prop
  | keep {client : ServerClientEntity} (hclient : s.clients[k]? = some client)
    (hallowed : found.visibilityLevelAllowed = client.visibilityLevelAllowed)
    (hlevel : found.visibilityLevel = client.visibilityLevel)
  | update {client : ServerClientEntity} {params : QJsonObject}
    (hadmits : Admits s e k client .UpdateVisibilityLevelAction params)
    (hallowed : found.visibilityLevelAllowed = client.visibilityLevelAllowed)
    (hlevel : found.visibilityLevel = (params.value "visibilitylevel").toInt)
  | new (hallowed : found.visibilityLevelAllowed = ServerClientEntity.VL_Default)
    (hlevel : found.visibilityLevel = ServerClientEntity.VL_Default)

/-- What an event does to the visibility of a client. -/
theorem Transition.visibilityChange (h : Transition s e s') {k : ℤ} {found : ServerClientEntity}
    (hfound : s'.clients[k]? = some found) : VisibilityChange s e k found := by
  cases h.recordChange hfound with
  | keep hclient => exact .keep hclient rfl rfl
  | new => exact .new rfl rfl
  | login _ hclient => exact .keep hclient rfl rfl
  | sendMedia hadmits => exact .keep hadmits.live rfl rfl
  | becomeAdmin hadmits => exact .keep hadmits.live rfl rfl
  | changeVisibility hadmits => exact .update hadmits rfl rfl
  | bindToken _ _ _ hclient => exact .keep hclient rfl rfl

/-- Nobody is ever allowed to see more. -/
theorem AllowedDefault.transition (h : s.AllowedDefault) (htrans : Transition s e s') :
    s'.AllowedDefault := by
  intro c found hfound
  cases htrans.visibilityChange hfound with
  | keep hclient hallowed => exact hallowed.trans (h c _ hclient)
  | update hadmits hallowed => exact hallowed.trans (h c _ hadmits.live)
  | new hallowed => exact hallowed

/-- The empty server has no clients that would be allowed to see more. -/
theorem allowedDefault_init (opts : VirtualServerOptions) (bans : ExtTreeSet String) :
    (init opts bans).AllowedDefault := fun _ _ h => absurd h (Table.getElem?_empty_ne _ _)

/-- Whether a client is seen depends on its own level only. -/
theorem AllowedDefault.isAllowedToSee_iff (h : s.AllowedDefault) {b : ℤ}
    {observer : ServerClientEntity} (hobserver : s.clients[b]? = some observer)
    (client : ServerClientEntity) : observer.isAllowedToSee client = true ↔
      client.visibilityLevel ≤ ServerClientEntity.VL_Default := by
  rw [ServerClientEntity.isAllowedToSee, h b observer hobserver, decide_eq_true_iff]

/-- The invariant of runs in which nobody hides from users. -/
structure VisibilityInvariant (s : VirtualServer) : Prop where
  keyed : s.Keyed
  allowed : s.AllowedDefault
  noneHidden : s.NoneHidden

/-- While no client is visible to administrators only, the policy holds. -/
theorem VisibilityInvariant.policy (h : s.VisibilityInvariant) : s.VisibilityPolicy where
  default a b client observer _ hobserver hlevel := by
    rw [h.allowed.isAllowedToSee_iff hobserver, hlevel]
  admin a _ client _ hclient _ hlevel := absurd hlevel (h.noneHidden a client hclient)
  notVisible a b client observer _ hobserver hlevel := by
    rw [← Bool.not_eq_true, h.allowed.isAllowedToSee_iff hobserver, hlevel]
    decide

/-- An event that does not hide a client from users keeps the policy. -/
theorem VisibilityInvariant.preserved {fromUtf8 : List UInt8 → String} {out : List Effect}
    (h : s.VisibilityInvariant) (hguard : ¬ HidesFromUsers s e)
    (hstep : step fromUtf8 s e = some (s', out)) : s'.VisibilityInvariant := by
  have htrans := transition_of_step h.keyed hstep
  refine ⟨htrans.keyed h.keyed, h.allowed.transition htrans, fun c found hfound => ?_⟩
  cases htrans.visibilityChange hfound with
  | keep hclient _ hlevel => exact hlevel ▸ h.noneHidden c _ hclient
  | update hadmits _ hlevel =>
    rw [hlevel]
    exact fun hadmin => hguard ⟨c, _, _, hadmits, hadmin⟩
  | new _ hlevel =>
    rw [hlevel]
    decide

/-- An administrator that hides from users does not see itself any longer. -/
theorem VisibilityInvariant.hidden (fromUtf8 : List UInt8 → String) (h : s.VisibilityInvariant)
    (hhides : HidesFromUsers s e) :
    ∃ s' out, step fromUtf8 s e = some (s', out) ∧ ¬ s'.VisibilityPolicy := by
  obtain ⟨c, client, params, hadmits, hlevel⟩ := hhides
  obtain ⟨correlationId, document, -, hdispatch⟩ := hadmits.dispatch
  have hadmin : client.admin = true := (flags_of_dispatch hdispatch).2 (by decide)
  obtain ⟨id, peerAddress, hstep⟩ := hadmits.step_eq fromUtf8
  refine ⟨_, _, hstep, fun hpolicy => ?_⟩
  have hfound : (s.clients.insert c { client with
      visibilityLevel := (params.value "visibilitylevel").toInt })[c]? =
        some { client with visibilityLevel := (params.value "visibilitylevel").toInt } :=
    ExtTreeMap.getElem?_insert_self
  have hsees := (hpolicy.admin c c _ _ hfound hfound hlevel).mpr hadmin
  have hallowed := h.allowed c client hadmits.live
  simp only [ServerClientEntity.isAllowedToSee, hlevel, hallowed] at hsees
  exact absurd hsees (by decide)

/-- Two clients become administrators, and the first one hides from everybody else. -/
def adminHides : List Event :=
  Event.logIn 1 "alice" "10:00" ++ Event.logIn 2 "bob" "10:01" ++
    [.request 1 .AdminAuthAction [("password", .string "secret")],
      .request 2 .AdminAuthAction [("password", .string "secret")],
      .request 1 .UpdateVisibilityLevelAction [("visibilitylevel", .ofInt 100)]]

/-- Then the second one does not see the first one. -/
theorem visibilityPolicy_adminHides : ∃ s,
    Runs.Reachable (step fun _ => "") (init { adminPassword := "secret" } ∅) s ∧
      (∃ client observer, s.clients[(1 : ℤ)]? = some client ∧ s.clients[(2 : ℤ)]? = some observer ∧
        client.visibilityLevel = ServerClientEntity.VL_Admin ∧ observer.admin = true ∧
        observer.isAllowedToSee client = false) ∧ ¬ s.VisibilityPolicy := by
  have hfacts : (Runs.run (step fun _ => "") (init { adminPassword := "secret" } ∅)
      adminHides).map (fun done => (done.1.clients[(1 : ℤ)]?).bind fun client =>
        (done.1.clients[(2 : ℤ)]?).map fun observer =>
          (client.visibilityLevel, observer.admin, observer.isAllowedToSee client)) =
      some (some (100, true, false)) := by decide +kernel
  obtain ⟨⟨s, out⟩, hrun, hfacts⟩ := Option.map_eq_some_iff.mp hfacts
  simp only [Option.bind_eq_some_iff, Option.map_eq_some_iff, Prod.mk.injEq] at hfacts
  obtain ⟨client, hclient, observer, hobserver, hlevel, hadmin, hblind⟩ := hfacts
  refine ⟨s, ⟨adminHides, out, hrun⟩,
    ⟨client, observer, hclient, hobserver, hlevel, hadmin, hblind⟩, fun hpolicy => ?_⟩
  have hsees := (hpolicy.admin 1 2 client observer hclient hobserver hlevel).mpr hadmin
  rw [hblind] at hsees
  exact Bool.false_ne_true hsees

/-- The policy holds in every state of a run exactly if no request of the run asks that only
administrators see its client. -/
theorem visibilityPolicy_iff (fromUtf8 : List UInt8 → String) (opts : VirtualServerOptions)
    (bans : ExtTreeSet String) (events : List Event) :
    Runs.EachState (step fromUtf8) VisibilityPolicy (init opts bans) events ↔
      Runs.EachStep (step fromUtf8) (fun s e => ¬ HidesFromUsers s e) (init opts bans) events := by
  apply Runs.eachState_iff_eachStep (P := VisibilityInvariant)
  · exact fun s h => h.policy
  · exact fun s e s' out h hguard hstep => h.preserved hguard hstep
  · exact fun s e h hguard => h.hidden fromUtf8 (not_not.mp hguard)
  · exact ⟨keyed_init opts bans, allowedDefault_init opts bans,
      fun _ _ h => absurd h (Table.getElem?_empty_ne _ _)⟩

end Ts3Video.VirtualServer
