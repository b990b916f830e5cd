import Mathlib.Tactic.Common

/-!
# Runs of a deterministic machine

A machine answers an event with its next state and the outputs of that step. The answer `none`
marks an event for which the program has no defined behaviour, such as an access outside of a
buffer; a run that meets one has no result. Invariants are proved for one step and carried to
every run by the rules below.
-/

namespace Runs

variable {σ ε ω : Type*}

/-- Execute a sequence of events, collecting the outputs in order. -/
def run (step : σ → ε → Option (σ × List ω)) : σ → List ε → Option (σ × List ω)
  | s, [] => some (s, [])
  | s, e :: events => (step s e).bind fun first =>
      (run step first.1 events).map fun rest => (rest.1, first.2 ++ rest.2)

variable (step : σ → ε → Option (σ × List ω))

/-- The empty run stays where it is. -/
@[simp] theorem run_nil (s : σ) : run step s [] = some (s, []) := rfl

/-- A defined run splits into its first step and a run of the remaining events. -/
theorem run_cons_eq_some {s t : σ} {e : ε} {events : List ε} {out : List ω} :
    run step s (e :: events) = some (t, out) ↔
      ∃ s' first rest, step s e = some (s', first) ∧ run step s' events = some (t, rest) ∧
        out = first ++ rest := by
  constructor
  · intro h
    obtain ⟨⟨s', first⟩, hstep, h⟩ := Option.bind_eq_some_iff.mp h
    obtain ⟨⟨t', rest⟩, hrun, h⟩ := Option.map_eq_some_iff.mp h
    simp only [Prod.mk.injEq] at h
    exact ⟨s', first, rest, hstep, h.1 ▸ hrun, h.2.symm⟩
  · rintro ⟨s', first, rest, hstep, hrun, rfl⟩
    simp [run, hstep, hrun]

/-- Runs compose: the events of a longer run are executed from where the shorter one ended. -/
theorem run_append {s t u : σ} {events later : List ε} {out rest : List ω}
    (hfirst : run step s events = some (t, out)) (hlater : run step t later = some (u, rest)) :
    run step s (events ++ later) = some (u, out ++ rest) := by
  induction events generalizing s out with
  | nil =>
    simp only [run_nil, Option.some.injEq, Prod.mk.injEq] at hfirst
    obtain ⟨rfl, rfl⟩ := hfirst
    exact hlater
  | cons e events ih =>
    obtain ⟨s', first, middle, hstep, hrun, rfl⟩ := (run_cons_eq_some step).mp hfirst
    exact (run_cons_eq_some step).mpr
      ⟨s', first, middle ++ rest, hstep, ih hrun, List.append_assoc _ _ _⟩

/-- The states a machine can be in after some run from its initial state. -/
def Reachable (init s : σ) : Prop := ∃ events out, run step init events = some (s, out)

variable {step}

/-- The initial state is reached by the empty run. -/
theorem Reachable.refl (init : σ) : Reachable step init init := ⟨[], [], rfl⟩

/-- One more step from a reachable state ends in a reachable state. -/
theorem Reachable.next {init s s' : σ} {e : ε} {out : List ω}
    (h : Reachable step init s) (hstep : step s e = some (s', out)) : Reachable step init s' := by
  obtain ⟨events, before, hrun⟩ := h
  have hone : run step s [e] = some (s', out) := by simp [run, hstep]
  exact ⟨events ++ [e], before ++ out, run_append step hrun hone⟩

/-- What is reachable from a reachable state is reachable. -/
theorem Reachable.trans {init s t : σ} (h : Reachable step init s) (hlater : Reachable step s t) :
    Reachable step init t := by
  obtain ⟨events, out, hrun⟩ := h
  obtain ⟨later, rest, hrest⟩ := hlater
  exact ⟨events ++ later, out ++ rest, run_append step hrun hrest⟩

/-- A property preserved by each step is carried along a whole run. -/
theorem run_invariant {P : σ → Prop} (hstep : ∀ s e s' out, P s → step s e = some (s', out) → P s')
    {s t : σ} {events : List ε} {out : List ω} (hs : P s)
    (hrun : run step s events = some (t, out)) : P t := by
  induction events generalizing s out with
  | nil =>
    simp only [run_nil, Option.some.injEq, Prod.mk.injEq] at hrun
    exact hrun.1 ▸ hs
  | cons e events ih =>
    obtain ⟨s', first, rest, hone, hrest, -⟩ := (run_cons_eq_some step).mp hrun
    exact ih (hstep s e s' first hs hone) hrest

/-- An invariant of the initial state and of every step holds in every reachable state. -/
theorem Reachable.invariant {P : σ → Prop} {init s : σ} (hinit : P init)
    (hstep : ∀ s e s' out, P s → step s e = some (s', out) → P s')
    (h : Reachable step init s) : P s := by
  obtain ⟨events, out, hrun⟩ := h
  exact run_invariant hstep hinit hrun

/-- A machine whose every step is a step of another one, seen through a map of the states, has its runs. -/
theorem run_map {τ : Type*} {step' : τ → ε → Option (τ × List ω)} (abs : σ → τ)
    (hstep : ∀ s e, step' (abs s) e = (step s e).map fun next => (abs next.1, next.2)) (s : σ)
    (events : List ε) :
    run step' (abs s) events = (run step s events).map fun last => (abs last.1, last.2) := by
  induction events generalizing s with
  | nil => rfl
  | cons e events ih =>
    rw [run, run, hstep]
    cases step s e with
    | none => rfl
    | some next =>
      rw [Option.map_some, Option.bind_some, Option.bind_some, ih, Option.map_map, Option.map_map]
      rfl

/-- If a renaming of states and events renames every step and keeps its outputs, then it renames every run. -/
theorem run_rename {rename : σ → σ} {renameEvent : ε → ε}
    (hstep : ∀ s e, step (rename s) (renameEvent e) = (step s e).map fun next => (rename next.1, next.2))
    (s : σ) (events : List ε) :
    run step (rename s) (events.map renameEvent) =
      (run step s events).map fun last => (rename last.1, last.2) := by
  induction events generalizing s with
  | nil => rfl
  | cons e events ih =>
    rw [List.map_cons, run, run, hstep]
    cases step s e with
    | none => rfl
    | some next =>
      rw [Option.map_some, Option.bind_some, Option.bind_some, ih, Option.map_map, Option.map_map]
      rfl

/-- A property that each update of a fallible fold keeps holds at its end. -/
theorem foldlM_invariant {α : Type*} {f : σ → α → Option σ} {P : σ → Prop}
    (hstep : ∀ s a s', P s → f s a = some s' → P s') (as : List α) {s s' : σ} (hs : P s)
    (h : as.foldlM f s = some s') : P s' := by
  induction as generalizing s with
  | nil => exact Option.some.inj h ▸ hs
  | cons a as ih =>
    obtain ⟨t, hone, hrest⟩ := Option.bind_eq_some_iff.mp h
    exact ih (hstep s a t hs hone) hrest

/-- What holds at the end of a fold held at its start or is due to one of its elements. -/
theorem of_foldl {α : Type*} {f : σ → α → σ} {P : σ → Prop} {Q : α → Prop}
    (hstep : ∀ s a, P (f s a) → P s ∨ Q a) (as : List α) {s : σ} (h : P (as.foldl f s)) :
    P s ∨ ∃ a ∈ as, Q a := by
  induction as generalizing s with
  | nil => exact .inl h
  | cons a as ih =>
    rcases ih h with hfirst | ⟨later, hlater, hQ⟩
    · exact (hstep s a hfirst).imp_right fun hQ => ⟨a, List.mem_cons_self, hQ⟩
    · exact .inr ⟨later, List.mem_cons_of_mem _ hlater, hQ⟩

/-- What each update of a fold keeps and one of its elements brings about holds at its end. -/
theorem foldl_of_mem {α : Type*} {f : σ → α → σ} {P : σ → Prop} {Q : α → Prop}
    (hkeep : ∀ s a, P s → P (f s a)) (hbring : ∀ s a, Q a → P (f s a)) {as : List α} {a : α}
    (hmem : a ∈ as) (hQ : Q a) (s : σ) : P (as.foldl f s) := by
  have hrest : ∀ (as : List α) (s : σ), P s → P (as.foldl f s) := by
    intro as
    induction as with
    | nil => exact fun _ hs => hs
    | cons a as ih => exact fun s hs => ih _ (hkeep s a hs)
  induction as generalizing s with
  | nil => contradiction
  | cons first as ih =>
    rcases List.mem_cons.mp hmem with rfl | hlater
    · exact hrest as _ (hbring s a hQ)
    · exact ih hlater _

/-- What no element of a fold changes is as before it. -/
theorem foldl_frame {α τ : Type*} {f : σ → α → σ} (field : σ → τ) {as : List α}
    (hstay : ∀ s, ∀ a ∈ as, field (f s a) = field s) (s : σ) : field (as.foldl f s) = field s := by
  induction as generalizing s with
  | nil => rfl
  | cons a as ih =>
    rw [List.foldl_cons, ih fun t b hb => hstay t b (List.mem_cons_of_mem _ hb)]
    exact hstay s a List.mem_cons_self

/-- What only one element of a fold without duplicates changes is changed by it once. -/
theorem foldl_once {α τ : Type*} {f : σ → α → σ} (field : σ → τ) (g : τ → τ) {a : α} {as : List α}
    (hone : ∀ s, field (f s a) = g (field s)) (hother : ∀ s, ∀ b ∈ as, b ≠ a → field (f s b) = field s)
    (hnodup : as.Nodup) (hmem : a ∈ as) (s : σ) : field (as.foldl f s) = g (field s) := by
  induction as generalizing s with
  | nil => exact absurd hmem List.not_mem_nil
  | cons first as ih =>
    obtain ⟨hfresh, hnodup⟩ := List.nodup_cons.mp hnodup
    have hrest := fun t b hb => hother t b (List.mem_cons_of_mem first hb)
    rw [List.foldl_cons]
    rcases List.mem_cons.mp hmem with rfl | hlater
    · rw [foldl_frame field fun t b hb => hrest t b hb fun h => hfresh (h ▸ hb), hone]
    · rw [ih hrest hnodup hlater, hother s first List.mem_cons_self fun h => hfresh (h ▸ hlater)]

/-- If an update stores its element, keeps what is stored and changes nothing where its element is stored,
then a fold changes nothing exactly if all its elements were stored. -/
theorem foldl_eq_self_iff {α : Type*} {f : σ → α → σ} {Stored : σ → α → Prop}
    (hstore : ∀ s a, Stored (f s a) a) (hkeep : ∀ s a b, Stored s b → Stored (f s a) b)
    (hstay : ∀ s a, Stored s a → f s a = s) (as : List α) (s : σ) :
    as.foldl f s = s ↔ ∀ a ∈ as, Stored s a := by
  constructor
  · intro hsame a ha
    rw [← hsame]
    exact foldl_of_mem (Q := (· = a)) (fun t b => hkeep t b a) (fun t b hb => hb ▸ hstore t b) ha rfl s
  · induction as with
    | nil => exact fun _ => rfl
    | cons a as ih =>
      intro hstored
      rw [List.foldl_cons, hstay s a (hstored a List.mem_cons_self)]
      exact ih fun b hb => hstored b (List.mem_cons_of_mem _ hb)

/-- A property of the events seen, the state and the outputs so far that every step extends:
the run is then defined and ends with the property. -/
theorem run_history {P : List ε → σ → List ω → Prop} {s : σ} {events : List ε} (hinit : P [] s [])
    (hstep : ∀ before e t out, (before ++ [e]) <+: events → P before t out →
      ∃ t' more, step t e = some (t', more) ∧ P (before ++ [e]) t' (out ++ more)) :
    ∃ t out, run step s events = some (t, out) ∧ P events t out := by
  suffices h : ∀ later before t out, before ++ later = events → P before t out →
      ∃ u more, run step t later = some (u, more) ∧ P events u (out ++ more) by
    obtain ⟨t, out, hrun, hP⟩ := h events [] s [] rfl hinit
    exact ⟨t, out, hrun, by simpa using hP⟩
  intro later
  induction later with
  | nil =>
    intro before t out hbefore hP
    rw [List.append_nil] at hbefore
    subst hbefore
    exact ⟨t, [], rfl, by simpa using hP⟩
  | cons e later ih =>
    intro before t out hbefore hP
    have hsplit : (before ++ [e]) ++ later = events := by
      rw [← hbefore, List.append_assoc, List.singleton_append]
    obtain ⟨t', first, hone, hP'⟩ := hstep before e t out ⟨later, hsplit⟩ hP
    obtain ⟨u, rest, hrun, hPu⟩ := ih (before ++ [e]) t' (out ++ first) hsplit hP'
    exact ⟨u, first ++ rest, (run_cons_eq_some step).mpr ⟨t', first, rest, hone, hrun, rfl⟩,
      by simpa only [List.append_assoc] using hPu⟩

variable (step)

/-- The events of a run, each with the state in which it is processed. -/
def visited : σ → List ε → List (σ × ε)
  | _, [] => []
  | s, e :: events => (s, e) :: ((step s e).map fun first => visited first.1 events).getD []

variable {step}

/-- Only events of the run are processed, in their order. -/
theorem visited_sublist (s : σ) (events : List ε) :
    ((visited step s events).map Prod.snd).Sublist events := by
  induction events generalizing s with
  | nil => exact .slnil
  | cons e events ih =>
    rw [visited, List.map_cons]
    refine List.Sublist.cons_cons e ?_
    cases step s e with
    | none => exact List.nil_sublist events
    | some first => exact ih first.1

/-- What every step extends from the events processed, the state and the outputs so far holds at the
end of a run. -/
theorem visited_invariant {P : List (σ × ε) → σ → List ω → Prop}
    (hstep : ∀ before s e s' out more, P before s out → step s e = some (s', more) →
      P (before ++ [(s, e)]) s' (out ++ more))
    {s t : σ} {events : List ε} {out : List ω} (hinit : P [] s [])
    (hrun : run step s events = some (t, out)) : P (visited step s events) t out := by
  suffices h : ∀ events before s earlier out, P before s earlier →
      run step s events = some (t, out) → P (before ++ visited step s events) t (earlier ++ out) from
    h events [] s [] out hinit hrun
  intro events
  induction events with
  | nil =>
    intro before s earlier out hP hrun
    simp only [run_nil, Option.some.injEq, Prod.mk.injEq] at hrun
    obtain ⟨rfl, rfl⟩ := hrun
    simpa [visited] using hP
  | cons e events ih =>
    intro before s earlier out hP hrun
    obtain ⟨s', first, rest, hone, hrest, rfl⟩ := (run_cons_eq_some step).mp hrun
    have hlater := ih _ s' _ rest (hstep before s e s' earlier first hP hone) hrest
    rw [List.append_assoc, List.append_assoc, List.singleton_append] at hlater
    rwa [visited, hone]

variable (step)

/-- Every event of the run meets the guard in the state in which it is processed. -/
def EachStep (G : σ → ε → Prop) : σ → List ε → Prop
  | _, [] => True
  | s, e :: events => G s e ∧ ∀ s' out, step s e = some (s', out) → EachStep G s' events

/-- Every state of the run has the property, the first and the last included. -/
def EachState (P : σ → Prop) : σ → List ε → Prop
  | s, [] => P s
  | s, e :: events => P s ∧ ∀ s' out, step s e = some (s', out) → EachState P s' events

variable {step}

/-- A property of each state holds in the state where the run starts. -/
theorem EachState.head {P : σ → Prop} {s : σ} {events : List ε} (h : EachState step P s events) :
    P s := by
  cases events with
  | nil => exact h
  | cons => exact h.1

/-- A property of each state holds in the state where the run ends. -/
theorem EachState.last {P : σ → Prop} {s t : σ} {events : List ε} {out : List ω}
    (h : EachState step P s events) (hrun : run step s events = some (t, out)) : P t := by
  induction events generalizing s out with
  | nil =>
    simp only [run_nil, Option.some.injEq, Prod.mk.injEq] at hrun
    exact hrun.1 ▸ h
  | cons e events ih =>
    obtain ⟨s', first, rest, hone, hrest, -⟩ := (run_cons_eq_some step).mp hrun
    exact ih (h.2 s' first hone) hrest

/-- Two properties hold in each state if and only if each of them does. -/
theorem eachState_and {P Q : σ → Prop} {s : σ} {events : List ε} :
    EachState step (fun s => P s ∧ Q s) s events ↔ EachState step P s events ∧ EachState step Q s events := by
  induction events generalizing s with
  | nil => exact Iff.rfl
  | cons e events ih =>
    constructor
    · intro h
      exact ⟨⟨h.1.1, fun s' out hone => (ih.mp (h.2 s' out hone)).1⟩,
        ⟨h.1.2, fun s' out hone => (ih.mp (h.2 s' out hone)).2⟩⟩
    · rintro ⟨hP, hQ⟩
      exact ⟨⟨hP.1, hQ.1⟩, fun s' out hone => ih.mpr ⟨hP.2 s' out hone, hQ.2 s' out hone⟩⟩

/-- Properties that an invariant makes equivalent hold in each state of the same runs. -/
theorem eachState_congr {P Q R : σ → Prop}
    (hkeep : ∀ s e s' out, P s → step s e = some (s', out) → P s')
    (hiff : ∀ s, P s → (Q s ↔ R s)) {s : σ} (hP : P s) (events : List ε) :
    EachState step Q s events ↔ EachState step R s events := by
  induction events generalizing s with
  | nil => exact hiff s hP
  | cons e events ih =>
    exact and_congr (hiff s hP) (forall_congr' fun s' => forall_congr' fun out =>
      forall_congr' fun hone => ih (hkeep s e s' out hP hone))

/-- The next state of a run is looked at if there is one. -/
theorem eachState_cons_iff {P : σ → Prop} {s : σ} {e : ε} {events : List ε} :
    EachState step P s (e :: events) ↔ P s ∧ ∀ next ∈ step s e, EachState step P next.1 events := by
  constructor
  · exact fun h => ⟨h.1, fun next hnext => h.2 next.1 next.2 hnext⟩
  · exact fun h => ⟨h.1, fun s' out hnext => h.2 (s', out) hnext⟩

/-- A property that can be checked in each state can be checked along a run. -/
instance decidableEachState {P : σ → Prop} [DecidablePred P] :
    ∀ (s : σ) (events : List ε), Decidable (EachState step P s events)
  | s, [] => inferInstanceAs (Decidable (P s))
  | _, _ :: events =>
    haveI : ∀ next : σ × List ω, Decidable (EachState step P next.1 events) :=
      fun next => decidableEachState next.1 events
    decidable_of_iff _ eachState_cons_iff.symm

/-- A weaker property holds in each state as well. -/
theorem EachState.mono {P Q : σ → Prop} (hPQ : ∀ s, P s → Q s) {s : σ} {events : List ε}
    (h : EachState step P s events) : EachState step Q s events := by
  induction events generalizing s with
  | nil => exact hPQ s h
  | cons e events ih => exact ⟨hPQ s h.1, fun s' out hone => ih (h.2 s' out hone)⟩

/-- An invariant that may depend on the events that are left and that every guarded step preserves holds
in every state of a guarded run. -/
theorem eachState_of_remaining {P : List ε → σ → Prop} {Q : σ → Prop} {G : σ → ε → Prop}
    (hPQ : ∀ later s, P later s → Q s)
    (hkeep : ∀ e later s s' out, P (e :: later) s → G s e → step s e = some (s', out) → P later s')
    {s : σ} {events : List ε} (hP : P events s) (hsteps : EachStep step G s events) :
    EachState step Q s events := by
  induction events generalizing s with
  | nil => exact hPQ [] s hP
  | cons e events ih =>
    exact ⟨hPQ _ s hP, fun s' out hone =>
      ih (hkeep e events s s' out hP hsteps.1 hone) (hsteps.2 s' out hone)⟩

/-- An invariant that every guarded step preserves holds in every state of a guarded run. -/
theorem eachState_of_eachStep {P : σ → Prop} {G : σ → ε → Prop}
    (hkeep : ∀ s e s' out, P s → G s e → step s e = some (s', out) → P s')
    {s : σ} (hP : P s) {events : List ε} (hsteps : EachStep step G s events) :
    EachState step P s events :=
  eachState_of_remaining (P := fun _ => P) (fun _ _ h => h)
    (fun e _ s s' out h hG hstep => hkeep s e s' out h hG hstep) hP hsteps

/-- If every guarded step is defined and preserves an invariant, then a guarded run is defined. -/
theorem exists_run_of_eachStep {P : σ → Prop} {G : σ → ε → Prop}
    (hkeep : ∀ s e s' out, P s → G s e → step s e = some (s', out) → P s')
    (hdefined : ∀ s e, P s → G s e → ∃ s' out, step s e = some (s', out)) {s : σ} (hP : P s)
    {events : List ε} (hsteps : EachStep step G s events) :
    ∃ t out, run step s events = some (t, out) := by
  induction events generalizing s with
  | nil => exact ⟨s, [], rfl⟩
  | cons e events ih =>
    obtain ⟨s', first, hone⟩ := hdefined s e hP hsteps.1
    obtain ⟨t, rest, hrest⟩ := ih (hkeep s e s' first hP hsteps.1 hone) (hsteps.2 s' first hone)
    exact ⟨t, first ++ rest, (run_cons_eq_some step).mpr ⟨s', first, rest, hone, hrest, rfl⟩⟩

/-- A guard that does not depend on the state is checked event by event. -/
theorem eachStep_of_forall {G : σ → ε → Prop} {events : List ε} (h : ∀ e ∈ events, ∀ s, G s e)
    (s : σ) : EachStep step G s events := by
  induction events generalizing s with
  | nil => trivial
  | cons e events ih =>
    exact ⟨h e List.mem_cons_self s, fun s' _ _ =>
      ih (fun e he => h e (List.mem_cons_of_mem _ he)) s'⟩

/-- What a property of each state and a guard of each step imply together holds in each step. -/
theorem EachStep.of_eachState {P : σ → Prop} {G H : σ → ε → Prop} (himp : ∀ s e, P s → G s e → H s e)
    {s : σ} {events : List ε} (hstates : EachState step P s events) (hG : EachStep step G s events) :
    EachStep step H s events := by
  induction events generalizing s with
  | nil => trivial
  | cons e events ih =>
    exact ⟨himp s e hstates.1 hG.1, fun s' out hone => ih (hstates.2 s' out hone) (hG.2 s' out hone)⟩

/-- Guards that an invariant makes equivalent are met by the same runs. -/
theorem eachStep_congr {P : σ → Prop} {G H : σ → ε → Prop}
    (hkeep : ∀ s e s' out, P s → step s e = some (s', out) → P s')
    (hiff : ∀ s e, P s → (G s e ↔ H s e)) {s : σ} (hP : P s) (events : List ε) :
    EachStep step G s events ↔ EachStep step H s events := by
  induction events generalizing s with
  | nil => exact Iff.rfl
  | cons e events ih =>
    exact and_congr (hiff s e hP) (forall_congr' fun s' => forall_congr' fun out =>
      forall_congr' fun hone => ih (hkeep s e s' out hP hone))

/-- The next state of a run is checked if there is one. -/
theorem eachStep_cons_iff {G : σ → ε → Prop} {s : σ} {e : ε} {events : List ε} :
    EachStep step G s (e :: events) ↔ G s e ∧ ∀ next ∈ step s e, EachStep step G next.1 events := by
  constructor
  · exact fun h => ⟨h.1, fun next hnext => h.2 next.1 next.2 hnext⟩
  · exact fun h => ⟨h.1, fun s' out hnext => h.2 (s', out) hnext⟩

/-- A guard that can be checked in each state can be checked along a run. -/
instance decidableEachStep {G : σ → ε → Prop} [∀ s e, Decidable (G s e)] :
    ∀ (s : σ) (events : List ε), Decidable (EachStep step G s events)
  | _, [] => inferInstanceAs (Decidable True)
  | _, _ :: events =>
    haveI : ∀ next : σ × List ω, Decidable (EachStep step G next.1 events) :=
      fun next => decidableEachStep next.1 events
    decidable_of_iff _ eachStep_cons_iff.symm

/-- If guarded steps preserve an invariant and every other step ends a property, then every step of
a run in whose states the property holds is guarded. -/
theorem eachStep_of_eachState {P Q : σ → Prop} {G : σ → ε → Prop}
    (hkeep : ∀ s e s' out, P s → G s e → step s e = some (s', out) → P s')
    (hbreak : ∀ s e, P s → Q s → ¬ G s e → ∃ s' out, step s e = some (s', out) ∧ ¬ Q s')
    {s : σ} (hP : P s) {events : List ε} (hstates : EachState step Q s events) :
    EachStep step G s events := by
  induction events generalizing s with
  | nil => trivial
  | cons e events ih =>
    have hG : G s e := by
      by_contra hnot
      obtain ⟨s', out, hone, hbroken⟩ := hbreak s e hP hstates.1 hnot
      exact hbroken (hstates.2 s' out hone).head
    exact ⟨hG, fun s' out hone => ih (hkeep s e s' out hP hG hone) (hstates.2 s' out hone)⟩

/-- If guarded steps keep a property and every other step ends it or a second one, then both hold in every
state of a run exactly when the second one does and every step of the run is guarded. -/
theorem eachState_and_iff {P Q R : σ → Prop} {G : σ → ε → Prop}
    (hkeep : ∀ s e s' out, P s → step s e = some (s', out) → P s')
    (hbreak : ∀ s e, P s → R s ∧ Q s → ¬ G s e →
      ∃ s' out, step s e = some (s', out) ∧ ¬ (R s' ∧ Q s'))
    {s : σ} (hP : P s) {events : List ε}
    (hguarded : EachStep step G s events → EachState step Q s events) :
    EachState step (fun s => R s ∧ Q s) s events ↔
      EachState step R s events ∧ EachStep step G s events := by
  constructor
  · intro hstates
    exact ⟨hstates.mono fun s h => h.1,
      eachStep_of_eachState (fun s e s' out h _ => hkeep s e s' out h) hbreak hP hstates⟩
  · rintro ⟨hR, hsteps⟩
    exact eachState_and.mpr ⟨hR, hguarded hsteps⟩

/-- If guarded steps preserve an invariant and every other step breaks a property that it implies,
then the property holds in every state of a run exactly when every step of the run is guarded. -/
theorem eachState_iff_eachStep {P Q : σ → Prop} {G : σ → ε → Prop} (hPQ : ∀ s, P s → Q s)
    (hkeep : ∀ s e s' out, P s → G s e → step s e = some (s', out) → P s')
    (hbreak : ∀ s e, P s → ¬ G s e → ∃ s' out, step s e = some (s', out) ∧ ¬ Q s')
    {s : σ} (hP : P s) (events : List ε) :
    EachState step Q s events ↔ EachStep step G s events := by
  constructor
  · exact eachStep_of_eachState hkeep (fun s e hP _ => hbreak s e hP) hP
  · intro hsteps
    exact (eachState_of_eachStep hkeep hP hsteps).mono hPQ

/-- If a step keeps the outputs of a run in order exactly if it is guarded, and outputs once out of order
remain so, then the outputs of a run are in order exactly if all its steps are guarded. The invariant may
depend on the events that are left. -/
theorem outputs_iff_eachStep {P : List ε → σ → List ω → Prop} {Q : List ω → Prop} {G : σ → ε → Prop}
    (hkeep : ∀ e later s s' out more, P (e :: later) s out → step s e = some (s', more) →
      P later s' (out ++ more))
    (hguard : ∀ e later s s' out more, P (e :: later) s out → Q out → step s e = some (s', more) →
      (Q (out ++ more) ↔ G s e))
    (hfirst : ∀ out more, Q (out ++ more) → Q out)
    {s t : σ} {events : List ε} {out more : List ω} (hP : P events s out) (hQ : Q out)
    (hrun : run step s events = some (t, more)) :
    Q (out ++ more) ↔ EachStep step G s events := by
  induction events generalizing s out more with
  | nil =>
    obtain ⟨-, rfl⟩ := Prod.mk.inj (Option.some.inj hrun)
    rw [List.append_nil]
    exact ⟨fun _ => trivial, fun _ => hQ⟩
  | cons e events ih =>
    obtain ⟨s', first, rest, hone, hrest, rfl⟩ := (run_cons_eq_some step).mp hrun
    have hP' := hkeep e events s s' out first hP hone
    have hG := hguard e events s s' out first hP hQ hone
    rw [← List.append_assoc]
    constructor
    · intro hall
      have hQ' := hfirst _ _ hall
      refine ⟨hG.mp hQ', fun s'' more hstep => ?_⟩
      obtain ⟨rfl, rfl⟩ := Prod.mk.inj (Option.some.inj (hone.symm.trans hstep))
      exact (ih hP' hQ' hrest).mp hall
    · intro hsteps
      exact (ih hP' (hG.mpr hsteps.1) hrest).mpr (hsteps.2 s' first hone)

end Runs
