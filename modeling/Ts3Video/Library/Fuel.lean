import Mathlib.Tactic.Common

/-!
# Loops with a bound

A loop that may run forever is computed with a bound on its iterations, and has no result if the bound is too
small. Such a computation follows one without a bound if its results are right for every bound, and if it has
a result wherever the other one has, once the bound is large enough.
-/

namespace Fuel

variable {α β α' β' : Type*}

/-- A bounded computation follows an unbounded one, whose results are seen through `view`. The bound remains
enough for what is left to do. -/
structure Follows (view : α → α') (left : α → ℕ) (enough : Prop) (fuel : ℕ) (x : Option α)
    (y : Option α') : Prop where
  sound : ∀ a, x = some a → y = some (view a) ∧ (enough → left a ≤ fuel)
  complete : enough → y ≠ none → x ≠ none

variable {view : α → α'} {left : α → ℕ} {view' : β → β'} {left' : β → ℕ} {enough : Prop} {fuel : ℕ}
  {x : Option α} {y : Option α'}

/-- A result follows what it looks like. -/
theorem Follows.some {a : α} (h : enough → left a ≤ fuel) :
    Follows view left enough fuel (some a) (some (view a)) where
  sound := by
    intro a' heq
    rw [Option.some_inj] at heq
    exact heq ▸ ⟨rfl, h⟩
  complete := fun _ _ => Option.some_ne_none a

/-- What follows can be continued by what follows. -/
theorem Follows.bind {f : α → Option β} {g : α' → Option β'} (h : Follows view left enough fuel x y)
    (hnext : ∀ a, (enough → left a ≤ fuel) → Follows view' left' enough fuel (f a) (g (view a))) :
    Follows view' left' enough fuel (x.bind f) (y.bind g) where
  sound := by
    intro b heq
    obtain ⟨a, hx, hf⟩ := Option.bind_eq_some_iff.mp heq
    obtain ⟨hy, hleft⟩ := h.sound a hx
    rw [hy, Option.bind_some]
    exact (hnext a hleft).sound b hf
  complete := by
    intro he hy
    cases hx : x with
    | none => exact absurd hx (h.complete he fun hnone => hy (by rw [hnone, Option.bind_none]))
    | some a =>
      obtain ⟨hview, hleft⟩ := h.sound a hx
      rw [hview, Option.bind_some] at hy
      exact (hnext a hleft).complete he hy

/-- A part of a result follows the same part of what the result looks like. -/
theorem Follows.map {f : α → β} {g : α' → β'} (h : Follows view left enough fuel x y)
    (hview : ∀ a, g (view a) = view' (f a)) (hleft : ∀ a, left' (f a) ≤ left a) :
    Follows view' left' enough fuel (x.map f) (y.map g) := by
  rw [Option.map_eq_bind, Option.map_eq_bind]
  refine h.bind fun a ha => ?_
  rw [Function.comp_apply, Function.comp_apply, hview]
  exact .some fun he => Nat.le_trans (hleft a) (ha he)

/-- A sequence of steps follows a sequence of steps. -/
theorem Follows.foldlM {γ : Type*} {f : α → γ → Option α} {g : α' → γ → Option α'}
    (hstep : ∀ a c, (enough → left a ≤ fuel) → Follows view left enough fuel (f a c) (g (view a) c))
    (cs : List γ) {a : α} (h : enough → left a ≤ fuel) :
    Follows view left enough fuel (cs.foldlM f a) (cs.foldlM g (view a)) := by
  induction cs generalizing a with
  | nil => exact .some h
  | cons c cs ih => exact (hstep a c h).bind fun _ hnext => ih hnext

/-- What follows with some bound follows with a larger one. -/
theorem Follows.succ (h : Follows view left enough fuel x y) : Follows view left enough (fuel + 1) x y where
  sound := fun a hx => ⟨(h.sound a hx).1, fun he => Nat.le_succ_of_le ((h.sound a hx).2 he)⟩
  complete := h.complete

/-- With some bound there is a result just if the computation without a bound has one. -/
theorem exists_isSome_iff {f : ℕ → Option α} {bound : ℕ}
    (h : ∀ fuel, Follows view left (bound ≤ fuel) fuel (f fuel) y) :
    (∃ fuel, (f fuel).isSome) ↔ y.isSome := by
  constructor
  · rintro ⟨fuel, hfuel⟩
    obtain ⟨a, ha⟩ := Option.isSome_iff_exists.mp hfuel
    exact Option.isSome_iff_exists.mpr ⟨view a, ((h fuel).sound a ha).1⟩
  · intro hy
    exact ⟨bound, Option.isSome_iff_ne_none.mpr
      ((h bound).complete (Nat.le_refl _) (Option.isSome_iff_ne_none.mp hy))⟩

section WhileLoop

variable {σ ρ : Type*}

/-- Repeat a step until it stops, with a bound on the repetitions. The step has no result where the program has
no defined behaviour. -/
def whileLoop (step : σ → Option (σ ⊕ ρ)) : ℕ → σ → Option ρ
  | 0, _ => none
  | fuel + 1, s => (step s).bind fun
    | .inl s' => whileLoop step fuel s'
    | .inr r => some r

variable {step : σ → Option (σ ⊕ ρ)} {s s' : σ}

/-- A step that goes on is followed by the rest of the loop. -/
theorem whileLoop_of_inl (h : step s = some (.inl s')) (fuel : ℕ) :
    whileLoop step (fuel + 1) s = whileLoop step fuel s' := by
  rw [whileLoop, h, Option.bind_some]

/-- A step that stops ends the loop. -/
theorem whileLoop_of_inr {r : ρ} (h : step s = some (.inr r)) (fuel : ℕ) :
    whileLoop step (fuel + 1) s = some r := by
  rw [whileLoop, h, Option.bind_some]

/-- A larger bound gives the same result. -/
theorem whileLoop_mono {fuel more : ℕ} {r : ρ} (h : whileLoop step fuel s = some r) (hle : fuel ≤ more) :
    whileLoop step more s = some r := by
  induction fuel generalizing s more with
  | zero => exact absurd h.symm (Option.some_ne_none r)
  | succ fuel ih =>
    obtain ⟨more, rfl⟩ : ∃ n, more = n + 1 := ⟨more - 1, by omega⟩
    obtain ⟨next, hstep, hrest⟩ := Option.bind_eq_some_iff.mp h
    rw [whileLoop, hstep, Option.bind_some]
    cases next with
    | inl s' => exact ih hrest (Nat.le_of_succ_le_succ hle)
    | inr r' => exact hrest

/-- A loop ends if its steps are defined, keep an invariant and decrease a variant. What holds of the state
where it stops and is carried back by the steps holds of its start and its end. -/
theorem whileLoop_of_variant {P : σ → Prop} {Q : σ → ρ → Prop} (variant : σ → ℕ)
    (hstep : ∀ s, P s → (∃ r, step s = some (.inr r) ∧ Q s r) ∨
      ∃ s', step s = some (.inl s') ∧ P s' ∧ variant s' < variant s ∧ ∀ r, Q s' r → Q s r)
    {fuel : ℕ} (hs : P s) (hfuel : variant s < fuel) : ∃ r, whileLoop step fuel s = some r ∧ Q s r := by
  induction fuel generalizing s with
  | zero => exact absurd hfuel (Nat.not_lt_zero _)
  | succ fuel ih =>
    rcases hstep s hs with ⟨r, hr, hQ⟩ | ⟨s', hs', hP, hlt, hback⟩
    · exact ⟨r, whileLoop_of_inr hr fuel, hQ⟩
    · obtain ⟨r, hr, hQ⟩ := ih hP (by omega)
      exact ⟨r, (whileLoop_of_inl hs' fuel).trans hr, hback r hQ⟩

end WhileLoop

end Fuel
