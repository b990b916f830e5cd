import Mathlib.Tactic.Common

/-!
# Loops that consume a stream and can be resumed

A loop takes elements from the front of what it has received until nothing is left or it needs
more. If its steps do not depend on where the received part ends, then stopping and resuming
with more input is the same as having had all of it from the beginning, however the stream was
cut into pieces.
-/

namespace Resumable

variable {σ α : Type*}

/-- Iterate while there is input; `none` asks for more than there is. -/
def loop (step : σ → List α → Option (σ × List α)) : ℕ → σ → List α → σ × List α
  | 0, s, input => (s, input)
  | fuel + 1, s, input =>
    if input.isEmpty then (s, input)
    else
      match step s input with
      | none => (s, input)
      | some (s', rest) => loop step fuel s' rest

/-- What makes a loop resumable: its steps keep an invariant and decrease a rank, and a step with
more input behind it either does the same or, if it used up its input, continues where the step
on the shorter input ended. -/
structure Lawful (step : σ → List α → Option (σ × List α)) (Valid : σ → Prop)
    (rank : σ → List α → ℕ) : Prop where
  valid : ∀ {s input s' rest}, Valid s → input ≠ [] → step s input = some (s', rest) → Valid s'
  rank_lt : ∀ {s input s' rest}, Valid s → input ≠ [] → step s input = some (s', rest) →
    rank s' rest < rank s input
  extend : ∀ {s input s' rest} more, Valid s → input ≠ [] → step s input = some (s', rest) →
    step s (input ++ more) = some (s', rest ++ more) ∨
      rest = [] ∧
        (more ≠ [] → ∃ next, step s (input ++ more) = some next ∧ step s' more = some next)
  suffix : ∀ {s input s' rest}, Valid s → step s input = some (s', rest) → rest <:+ input

variable {step : σ → List α → Option (σ × List α)} {Valid : σ → Prop} {rank : σ → List α → ℕ}

/-- Without input the loop stays where it is. -/
@[simp] theorem loop_nil (fuel : ℕ) (s : σ) : loop step fuel s [] = (s, []) := by
  cases fuel <;> rfl

/-- A step that needs more input ends the loop. -/
theorem loop_of_none {s : σ} {input : List α} (h : step s input = none) (fuel : ℕ) :
    loop step fuel s input = (s, input) := by
  cases fuel with
  | zero => rfl
  | succ fuel => simp [loop, h]

/-- A step that succeeds is followed by the rest of the loop. -/
theorem loop_of_some {s s' : σ} {input rest : List α} (hinput : input ≠ [])
    (h : step s input = some (s', rest)) (fuel : ℕ) :
    loop step (fuel + 1) s input = loop step fuel s' rest := by
  simp [loop, hinput, h]

/-- More fuel than the rank changes nothing. -/
theorem loop_eq_of_rank_le (law : Lawful step Valid rank) {s : σ} {input : List α} {fuel more : ℕ}
    (hs : Valid s) (hfuel : rank s input ≤ fuel) (hmore : rank s input ≤ more) :
    loop step fuel s input = loop step more s input := by
  induction fuel generalizing s input more with
  | zero =>
    by_cases hinput : input = []
    · rw [hinput, loop_nil, loop_nil]
    · cases hstep : step s input with
      | none => rw [loop_of_none hstep, loop_of_none hstep]
      | some next =>
        have := law.rank_lt hs hinput hstep
        omega
  | succ fuel ih =>
    by_cases hinput : input = []
    · rw [hinput, loop_nil, loop_nil]
    · cases hstep : step s input with
      | none => rw [loop_of_none hstep, loop_of_none hstep]
      | some next =>
        obtain ⟨s', rest⟩ := next
        have hlt := law.rank_lt hs hinput hstep
        obtain ⟨more, rfl⟩ : ∃ n, more = n + 1 := ⟨more - 1, by omega⟩
        rw [loop_of_some hinput hstep, loop_of_some hinput hstep]
        exact ih (law.valid hs hinput hstep) (by omega) (by omega)

/-- Run the loop to its end. -/
def consume (step : σ → List α → Option (σ × List α)) (rank : σ → List α → ℕ) (s : σ)
    (input : List α) : σ × List α :=
  loop step (rank s input) s input

/-- Any fuel from the rank on runs the loop to its end. -/
theorem loop_eq_consume (law : Lawful step Valid rank) {s : σ} {input : List α} {fuel : ℕ}
    (hs : Valid s) (hfuel : rank s input ≤ fuel) :
    loop step fuel s input = consume step rank s input :=
  loop_eq_of_rank_le law hs hfuel (Nat.le_refl _)

/-- Without input there is nothing to consume. -/
@[simp] theorem consume_nil (s : σ) : consume step rank s [] = (s, []) := loop_nil _ s

/-- A step that needs more input consumes nothing. -/
theorem consume_of_none {s : σ} {input : List α} (h : step s input = none) :
    consume step rank s input = (s, input) := loop_of_none h _

/-- A step that succeeds is followed by consuming the rest. -/
theorem consume_of_some (law : Lawful step Valid rank) {s s' : σ} {input rest : List α}
    (hs : Valid s) (hinput : input ≠ []) (h : step s input = some (s', rest)) :
    consume step rank s input = consume step rank s' rest := by
  have hlt := law.rank_lt hs hinput h
  obtain ⟨fuel, hfuel⟩ : ∃ n, rank s input = n + 1 := ⟨rank s input - 1, by omega⟩
  rw [consume, hfuel, loop_of_some hinput h]
  exact loop_eq_consume law (law.valid hs hinput h) (by omega)

/-- A relation between the start and the end of the loop: it holds where the loop ends at once, and
every step that succeeds extends it. -/
theorem consume_induction (law : Lawful step Valid rank) {P : σ → List α → σ × List α → Prop}
    (hdone : ∀ {s input}, Valid s → input = [] ∨ step s input = none → P s input (s, input))
    (hnext : ∀ {s input s' rest x}, Valid s → input ≠ [] → step s input = some (s', rest) →
      P s' rest x → P s input x) {s : σ} (hs : Valid s) (input : List α) :
    P s input (consume step rank s input) := by
  induction hrank : rank s input using Nat.strongRecOn generalizing s input with
  | ind n ih =>
    by_cases hinput : input = []
    · rw [hinput, consume_nil]
      exact hdone hs (Or.inl rfl)
    · cases hstep : step s input with
      | none =>
        rw [consume_of_none hstep]
        exact hdone hs (Or.inr hstep)
      | some next =>
        obtain ⟨s', rest⟩ := next
        rw [consume_of_some law hs hinput hstep]
        have hlt := law.rank_lt hs hinput hstep
        exact hnext hs hinput hstep (ih _ (hrank ▸ hlt) (law.valid hs hinput hstep) rest rfl)

/-- What every step preserves holds where the loop ends. -/
theorem consume_invariant (law : Lawful step Valid rank) {P : σ → Prop}
    (hP : ∀ {s input s' rest}, Valid s → step s input = some (s', rest) → P s → P s') {s : σ}
    (hs : Valid s) (hPs : P s) (input : List α) : P (consume step rank s input).1 :=
  consume_induction law (P := fun s _ x => P s → P x.1) (fun _ _ h => h)
    (fun hs _ hstep ih h => ih (hP hs hstep h)) hs input hPs

/-- The state is well-formed where the loop ends. -/
theorem consume_valid (law : Lawful step Valid rank) {s : σ} (hs : Valid s) (input : List α) :
    Valid (consume step rank s input).1 :=
  consume_induction law (P := fun _ _ x => Valid x.1) (fun hs _ => hs) (fun _ _ _ ih => ih) hs input

/-- The loop ends without input or where a step needs more of it. -/
theorem consume_stuck (law : Lawful step Valid rank) {s : σ} (hs : Valid s) (input : List α) :
    (consume step rank s input).2 = [] ∨
      step (consume step rank s input).1 (consume step rank s input).2 = none :=
  consume_induction law (P := fun _ _ x => x.2 = [] ∨ step x.1 x.2 = none) (fun _ h => h)
    (fun _ _ _ ih => ih) hs input

/-- What the loop leaves is the end of its input. -/
theorem consume_suffix (law : Lawful step Valid rank) {s : σ} (hs : Valid s) (input : List α) :
    (consume step rank s input).2 <:+ input :=
  consume_induction law (P := fun _ input x => x.2 <:+ input)
    (fun _ _ => List.suffix_refl _) (fun hs _ hstep ih => ih.trans (law.suffix hs hstep)) hs input

/-- Stopping and resuming with more input is the same as having all of it at once. -/
theorem consume_append (law : Lawful step Valid rank) {s : σ} (hs : Valid s)
    (input more : List α) :
    consume step rank s (input ++ more) =
      consume step rank (consume step rank s input).1 ((consume step rank s input).2 ++ more) := by
  refine consume_induction law (P := fun s input x =>
    consume step rank s (input ++ more) = consume step rank x.1 (x.2 ++ more)) ?_ ?_ hs input
  · intro s input _ _
    rfl
  · intro s input s' rest x hs hinput hstep ih
    have hall : input ++ more ≠ [] := List.append_ne_nil_of_left_ne_nil hinput more
    rw [← ih]
    rcases law.extend more hs hinput hstep with hsame | ⟨rfl, hresume⟩
    · exact consume_of_some law hs hall hsame
    · by_cases hmore : more = []
      · rw [hmore, List.append_nil, List.append_nil]
        exact consume_of_some law hs hinput hstep
      · obtain ⟨⟨t, left⟩, hfull, hpart⟩ := hresume hmore
        have hs' := law.valid hs hinput hstep
        rw [List.nil_append, consume_of_some law hs hall hfull,
          consume_of_some law hs' hmore hpart]

/-- A map of the states that the steps commute with commutes with the loop. -/
theorem consume_map {τ : Type*} {step' : τ → List α → Option (τ × List α)} {rank' : τ → List α → ℕ}
    {f : σ → τ} (hstep : ∀ s input, step' (f s) input = (step s input).map (Prod.map f id))
    (hrank : ∀ s input, rank' (f s) input = rank s input) (s : σ) (input : List α) :
    consume step' rank' (f s) input = Prod.map f id (consume step rank s input) := by
  rw [consume, consume, hrank]
  generalize rank s input = fuel
  induction fuel generalizing s input with
  | zero => rfl
  | succ fuel ih =>
    by_cases hinput : input = []
    · rw [hinput, loop_nil, loop_nil]
      rfl
    · cases hnext : step s input with
      | none =>
        rw [loop_of_none hnext, loop_of_none (by rw [hstep, hnext]; rfl)]
        rfl
      | some next =>
        have hmapped : step' (f s) input = some (f next.1, next.2) := by
          rw [hstep, hnext]
          rfl
        rw [loop_of_some hinput hnext, loop_of_some hinput hmapped, ih]

/-- A state together with input on which the loop gets no further. -/
def Settled (step : σ → List α → Option (σ × List α)) (rank : σ → List α → ℕ)
    (x : σ × List α) : Prop :=
  consume step rank x.1 x.2 = x

/-- The loop ends where it gets no further. -/
theorem settled_consume (law : Lawful step Valid rank) {s : σ} (hs : Valid s) (input : List α) :
    Settled step rank (consume step rank s input) := by
  have h := consume_append law hs input []
  rw [List.append_nil, List.append_nil] at h
  exact h.symm

/-- Append a piece of the stream to what is left of the earlier ones and go on. -/
def receive (step : σ → List α → Option (σ × List α)) (rank : σ → List α → ℕ) (x : σ × List α)
    (piece : List α) : σ × List α :=
  consume step rank x.1 (x.2 ++ piece)

/-- Receiving the pieces of a stream one by one is receiving the stream at once. -/
theorem foldl_receive (law : Lawful step Valid rank) {x : σ × List α} (hx : Valid x.1)
    (hsettled : Settled step rank x) (pieces : List (List α)) :
    pieces.foldl (receive step rank) x = receive step rank x pieces.flatten := by
  induction pieces generalizing x with
  | nil =>
    rw [List.foldl_nil, List.flatten_nil, receive, List.append_nil]
    exact hsettled.symm
  | cons piece pieces ih =>
    have hpiece : Valid (receive step rank x piece).1 := consume_valid law hx _
    rw [List.foldl_cons, ih hpiece (settled_consume law hx _), List.flatten_cons, receive, receive,
      receive, ← List.append_assoc]
    exact (consume_append law hx (x.2 ++ piece) pieces.flatten).symm

end Resumable
