import Ts3Video.Library.Runs

/-!
# Machines of independent components

A machine may consist of components, such that each event concerns at most one of them. If a step does to the
component that the event concerns what this component does on its own, and nothing to the others, then a run
looks to each component like a run of its own over the events that concern it.
-/

namespace Components

variable {σ ε ω κ τ ω' : Type*} [DecidableEq κ]

/-- The events that concern a component. -/
def eventsOf (key : ε → Option κ) (k : κ) (events : List ε) : List ε :=
  events.filter fun e => key e = some k

/-- Each step of a machine is a step of the component that the event concerns, if it concerns any. -/
structure Independent (step : σ → ε → Option (σ × List ω)) (key : ε → Option κ) (component : κ → σ → τ)
    (outputs : κ → List ω → List ω') (own : τ → ε → Option (τ × List ω')) : Prop where
  outputs_nil : ∀ k, outputs k [] = []
  outputs_append : ∀ k first second, outputs k (first ++ second) = outputs k first ++ outputs k second
  step_own : ∀ {s e s' out k}, key e = some k → step s e = some (s', out) →
    own (component k s) e = some (component k s', outputs k out)
  step_other : ∀ {s e s' out k}, key e ≠ some k → step s e = some (s', out) →
    component k s' = component k s ∧ outputs k out = []
  defined : ∀ {s e}, (∀ k, key e = some k → (own (component k s) e).isSome) → (step s e).isSome

variable {step : σ → ε → Option (σ × List ω)} {key : ε → Option κ} {component : κ → σ → τ}
  {outputs : κ → List ω → List ω'} {own : τ → ε → Option (τ × List ω')}

/-- A run of the machine is a run of each component. -/
theorem Independent.run_own (h : Independent step key component outputs own) (k : κ) {s t : σ}
    {events : List ε} {out : List ω} (hrun : Runs.run step s events = some (t, out)) :
    Runs.run own (component k s) (eventsOf key k events) = some (component k t, outputs k out) := by
  induction events generalizing s out with
  | nil =>
    obtain ⟨rfl, rfl⟩ := Prod.mk.inj (Option.some.inj hrun)
    rw [h.outputs_nil]
    rfl
  | cons e events ih =>
    obtain ⟨s', first, rest, hstep, hrest, rfl⟩ := (Runs.run_cons_eq_some step).mp hrun
    by_cases hkey : key e = some k
    · rw [eventsOf, List.filter_cons_of_pos (by simpa using hkey), h.outputs_append]
      exact (Runs.run_cons_eq_some own).mpr ⟨_, _, _, h.step_own hkey hstep, ih hrest, rfl⟩
    · obtain ⟨hsame, hnone⟩ := h.step_other hkey hstep
      rw [eventsOf, List.filter_cons_of_neg (by simpa using hkey), h.outputs_append, hnone,
        List.nil_append, ← hsame]
      exact ih hrest

/-- If each component runs on its own events, then the machine runs. -/
theorem Independent.exists_run (h : Independent step key component outputs own) {s : σ} {events : List ε}
    (hown : ∀ k, (Runs.run own (component k s) (eventsOf key k events)).isSome) :
    ∃ t out, Runs.run step s events = some (t, out) := by
  induction events generalizing s with
  | nil => exact ⟨s, [], rfl⟩
  | cons e events ih =>
    have hfirst : (step s e).isSome := by
      refine h.defined fun k hkey => ?_
      obtain ⟨⟨t, out⟩, hrun⟩ := Option.isSome_iff_exists.mp (hown k)
      rw [eventsOf, List.filter_cons_of_pos (by simpa using hkey)] at hrun
      obtain ⟨t', first, -, hstep, -⟩ := (Runs.run_cons_eq_some own).mp hrun
      rw [hstep]
      rfl
    obtain ⟨⟨s', first⟩, hstep⟩ := Option.isSome_iff_exists.mp hfirst
    have hrest : ∀ k, (Runs.run own (component k s') (eventsOf key k events)).isSome := by
      intro k
      have hk := hown k
      by_cases hkey : key e = some k
      · rw [eventsOf, List.filter_cons_of_pos (by simpa using hkey), Option.isSome_iff_exists] at hk
        obtain ⟨⟨t, out⟩, hrun⟩ := hk
        obtain ⟨t', first', rest, hone, hlater, -⟩ := (Runs.run_cons_eq_some own).mp hrun
        obtain ⟨rfl, -⟩ := Prod.mk.inj (Option.some.inj (hone.symm.trans (h.step_own hkey hstep)))
        rw [eventsOf, hlater]
        rfl
      · rw [eventsOf, List.filter_cons_of_neg (by simpa using hkey)] at hk
        rwa [(h.step_other hkey hstep).1]
    obtain ⟨t, rest, hrun⟩ := ih hrest
    exact ⟨t, first ++ rest, (Runs.run_cons_eq_some step).mpr ⟨s', first, rest, hstep, hrun, rfl⟩⟩

end Components
