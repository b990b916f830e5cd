import Mathlib.Data.List.Forall2
import Ts3Video.Library.Runs

/-!
# Forward simulation

A transition system with labelled acts says what a machine is for. If every step of the machine is an act of
that system or leaves its state alone, then every run of the machine is a sequence of such acts, each of them
explained by an event of the run.

Where what the machine is for is a machine as well, an event stands for one event of the other machine or for
none, and a run stands for the run of the events that its events stand for.
-/

namespace Simulation

variable {σ ε ω τ α : Type*}

/-- The acts lead from one state to another one. -/
inductive Leads (Step : τ → α → τ → Prop) (t : τ) : List α → τ → Prop
  | refl : Leads Step t [] t
  | tail {u v : τ} {acts : List α} {act : α} (hacts : Leads Step t acts u) (hact : Step u act v) :
    Leads Step t (acts ++ [act]) v

variable {Step : τ → α → τ → Prop}

variable {step : σ → ε → Option (σ × List ω)}

/-- If every step of a machine is explained as an act or leaves the abstract state alone, then so is every
run: its acts are explained by events of the run, in their order. -/
theorem exists_leads {P : σ → Prop} {Explains : σ → ε → α → Prop} (abs : σ → τ)
    (hkeep : ∀ s e s' out, P s → step s e = some (s', out) → P s')
    (hsimulates : ∀ s e s' out, P s → step s e = some (s', out) →
      abs s' = abs s ∨ ∃ act, Explains s e act ∧ Step (abs s) act (abs s'))
    {s t : σ} {events : List ε} {out : List ω} (hs : P s) (hrun : Runs.run step s events = some (t, out)) :
    ∃ explained acts, explained.Sublist (Runs.visited step s events) ∧
      List.Forall₂ (fun entry act => Explains entry.1 entry.2 act) explained acts ∧
      Leads Step (abs s) acts (abs t) := by
  refine (Runs.visited_invariant (P := fun before u _ => P u ∧ ∃ explained acts,
    explained.Sublist before ∧
      List.Forall₂ (fun entry act => Explains entry.1 entry.2 act) explained acts ∧
      Leads Step (abs s) acts (abs u)) ?_ ⟨hs, [], [], .slnil, .nil, .refl⟩ hrun).2
  rintro before u e u' _ more ⟨hu, explained, acts, hsublist, hexplained, hleads⟩ hone
  refine ⟨hkeep u e u' more hu hone, ?_⟩
  rcases hsimulates u e u' more hu hone with hsame | ⟨act, hact, hstep⟩
  · exact ⟨explained, acts, hsublist.trans (List.sublist_append_left _ _), hexplained, hsame ▸ hleads⟩
  · refine ⟨explained ++ [(u, e)], acts ++ [act], hsublist.append (List.Sublist.refl _), ?_,
      hleads.tail hstep⟩
    exact List.rel_append hexplained (.cons hact .nil)

section Mirror

variable {ε' : Type*} {step' : τ → ε' → Option (τ × List ω)} {P : σ → Prop} {G : σ → ε → Prop}
  {abs : σ → τ} {mirror : σ → ε → Option ε'} {s : σ} {e : ε} {events : List ε}

/-- What becomes of an event, seen through a map of the states: nothing, or what becomes of the event of the
other machine that it stands for. -/
inductive Mirrored (step' : τ → ε' → Option (τ × List ω)) (P : σ → Prop) (abs : σ → τ) (t : τ) :
    Option ε' → Option (σ × List ω) → Prop
  | unseen {s' : σ} (hkeep : P s') (hsame : abs s' = t) : Mirrored step' P abs t none (some (s', []))
  | seen {e' : ε'} {s' : σ} {out : List ω} (hkeep : P s') (hstep : step' t e' = some (abs s', out)) :
    Mirrored step' P abs t (some e') (some (s', out))
  | stuck {e' : ε'} (hstep : step' t e' = none) : Mirrored step' P abs t (some e') none

/-- Every guarded step is a step of the other machine or is not seen there. -/
def Mirrors (step : σ → ε → Option (σ × List ω)) (step' : τ → ε' → Option (τ × List ω)) (P : σ → Prop)
    (G : σ → ε → Prop) (abs : σ → τ) (mirror : σ → ε → Option ε') : Prop :=
  ∀ s e, P s → G s e → Mirrored step' P abs (abs s) (mirror s e) (step s e)

/-- The events of the other machine that the events of a run stand for. -/
def mirrored (step : σ → ε → Option (σ × List ω)) (mirror : σ → ε → Option ε') (s : σ) (events : List ε) :
    List ε' :=
  (Runs.visited step s events).filterMap fun entry => mirror entry.1 entry.2

/-- The first event of a run stands for an event or for none. -/
theorem mirrored_cons (step : σ → ε → Option (σ × List ω)) (mirror : σ → ε → Option ε') (s : σ) (e : ε)
    (events : List ε) : mirrored step mirror s (e :: events) =
      (mirror s e).toList ++
        ((step s e).map fun first => mirrored step mirror first.1 events).getD [] := by
  have hrest : ((step s e).map fun first => mirrored step mirror first.1 events).getD [] =
      ((((step s e).map fun first => Runs.visited step first.1 events).getD []).filterMap
        fun entry => mirror entry.1 entry.2) := by
    cases step s e with
    | none => rfl
    | some first => rfl
  rw [hrest, mirrored, Runs.visited, List.filterMap_cons]
  cases mirror s e with
  | none => rfl
  | some e' => rfl

/-- A guarded run, seen through a map of the states, is a run of the other machine, and it is defined if and
only if that one is. -/
theorem Mirrors.run (h : Mirrors step step' P G abs mirror) (hs : P s)
    (hguard : Runs.EachStep step G s events) :
    Runs.run step' (abs s) (mirrored step mirror s events) =
      (Runs.run step s events).map fun done => (abs done.1, done.2) := by
  induction events generalizing s with
  | nil => rfl
  | cons e events ih =>
    have hone := h s e hs hguard.1
    rw [mirrored_cons, Runs.run]
    generalize mirror s e = other at hone ⊢
    cases hstep : step s e with
    | none =>
      rw [hstep] at hone
      cases hone with
      | stuck hother => rw [Option.toList_some, List.singleton_append, Runs.run, hother]; rfl
    | some first =>
      rw [hstep] at hone
      cases hone with
      | unseen hkeep hsame =>
        have hlater := ih hkeep (hguard.2 _ _ hstep)
        rw [hsame] at hlater
        simpa using hlater
      | seen hkeep hother =>
        have hlater := ih hkeep (hguard.2 _ _ hstep)
        rw [Option.toList_some, List.singleton_append, Runs.run, hother, Option.map_some, Option.getD_some,
          Option.bind_some, hlater, Option.bind_some, Option.map_map, Option.map_map]
        rfl

end Mirror

end Simulation
