import Ts3Video.Library.Runs

/-!
# Queues with one item on its way

Items are taken out of a queue one at a time. Taking one posts an event, and only when this event is
dispatched the next item may be taken. The queue is looked at when an item is put into it and when an
event is dispatched, so an item that waits must never be left without a posted event.
-/

namespace SingleFlight

variable {α : Type*}

/-- The items that wait, the one on its way, and the number of posted events. -/
structure Queue (α : Type*) where
  waiting : List α := []
  current : Option α := none
  posted : ℕ := 0

/-- An item is put into the queue, or a posted event is dispatched. -/
inductive Event (α : Type*) where
  | put (item : α)
  | done

/-- Take the next item out of the queue unless one is on its way. -/
def Queue.takeNext (q : Queue α) : Queue α × List α :=
  match q.current, q.waiting with
  | none, item :: waiting => ({ waiting, current := some item, posted := q.posted + 1 }, [item])
  | _, _ => (q, [])

/-- The queue as a machine whose outputs are the items that are taken. Without a posted event none is
dispatched. -/
def step (q : Queue α) : Event α → Option (Queue α × List α)
  | .put item => some { q with waiting := q.waiting ++ [item] }.takeNext
  | .done =>
    if q.posted = 0 then some (q, [])
    else some { q with current := none, posted := q.posted - 1 }.takeNext

/-- The items that are put into the queue, in order. -/
def puts (events : List (Event α)) : List α :=
  events.filterMap fun
    | .put item => some item
    | .done => none

/-- Nothing waits without an item on its way, and an event is posted for that one alone. -/
structure Queue.Awake (q : Queue α) : Prop where
  current : q.waiting ≠ [] → q.current ≠ none
  posted : q.posted = if q.current = none then 0 else 1

variable {q q' : Queue α} {events : List (Event α)} {out : List α}

/-- The items of two sequences of events follow each other. -/
@[simp] theorem puts_append (first second : List (Event α)) :
    puts (first ++ second) = puts first ++ puts second := List.filterMap_append

/-- The item that is taken was the first one to wait. -/
theorem Queue.takeNext_append (q : Queue α) : q.takeNext.2 ++ q.takeNext.1.waiting = q.waiting := by
  unfold takeNext
  split
  next item waiting hcurrent hwaiting => rw [hwaiting, List.singleton_append]
  next => rfl

/-- If nothing is on its way, the next item is. -/
theorem Queue.awake_takeNext (hcurrent : q.current = none) (hposted : q.posted = 0) :
    q.takeNext.1.Awake := by
  obtain ⟨waiting, current, posted⟩ := q
  obtain rfl : current = none := hcurrent
  obtain rfl : posted = 0 := hposted
  cases waiting with
  | nil => exact ⟨fun h => absurd rfl h, rfl⟩
  | cons item waiting => exact ⟨fun _ => Option.some_ne_none item, rfl⟩

/-- Nothing is taken while an item is on its way. -/
theorem Queue.takeNext_of_current (h : q.current ≠ none) : q.takeNext = (q, []) := by
  unfold takeNext
  split
  next hnone _ => exact absurd hnone h
  next => rfl

/-- A posted event is dispatched. -/
theorem step_done (h : q.posted ≠ 0) :
    step q .done = some { q with current := none, posted := q.posted - 1 }.takeNext := if_neg h

/-- No step leaves an item behind without a posted event. -/
theorem Queue.Awake.step (h : q.Awake) {e : Event α} (hstep : step q e = some (q', out)) :
    q'.Awake := by
  have hposted := h.posted
  cases e with
  | put item =>
    have heq : q' = { q with waiting := q.waiting ++ [item] }.takeNext.1 :=
      (congrArg Prod.fst (Option.some.inj hstep)).symm
    rw [heq]
    by_cases hcurrent : q.current = none
    · exact awake_takeNext hcurrent (hposted.trans (if_pos hcurrent))
    · rw [takeNext_of_current (q := { q with waiting := q.waiting ++ [item] }) hcurrent]
      exact ⟨fun _ => hcurrent, hposted⟩
  | done =>
    by_cases hnone : q.posted = 0
    · obtain ⟨rfl, -⟩ := Prod.mk.inj (Option.some.inj ((if_pos hnone).symm.trans hstep))
      exact h
    · have heq : q' = { q with current := none, posted := q.posted - 1 }.takeNext.1 :=
        (congrArg Prod.fst (Option.some.inj ((step_done hnone).symm.trans hstep))).symm
      rw [heq]
      refine awake_takeNext rfl ?_
      change q.posted - 1 = 0
      split at hposted <;> omega

/-- A step takes what waits and what is put, in this order. -/
theorem step_append {e : Event α} (hstep : step q e = some (q', out)) :
    out ++ q'.waiting = q.waiting ++ puts [e] := by
  cases e with
  | put item =>
    have hall := Queue.takeNext_append { q with waiting := q.waiting ++ [item] }
    rwa [Option.some.inj hstep] at hall
  | done =>
    change _ = q.waiting ++ []
    rw [List.append_nil]
    by_cases hnone : q.posted = 0
    · obtain ⟨rfl, rfl⟩ := Prod.mk.inj (Option.some.inj ((if_pos hnone).symm.trans hstep))
      rfl
    · have hall := Queue.takeNext_append { q with current := none, posted := q.posted - 1 }
      rwa [Option.some.inj ((step_done hnone).symm.trans hstep)] at hall

/-- The items are taken in the order in which they are put, up to those that still wait. -/
theorem run_append (hrun : Runs.run step q events = some (q', out)) :
    out ++ q'.waiting = q.waiting ++ puts events := by
  induction events generalizing q out with
  | nil =>
    obtain ⟨rfl, rfl⟩ := Prod.mk.inj (Option.some.inj hrun)
    exact (List.append_nil _).symm
  | cons e events ih =>
    obtain ⟨t, first, rest, hstep, hrest, rfl⟩ := (Runs.run_cons_eq_some step).mp hrun
    have hcons : puts (e :: events) = puts [e] ++ puts events := puts_append [e] events
    rw [List.append_assoc, ih hrest, ← List.append_assoc, step_append hstep, List.append_assoc, hcons]

/-- What has been taken are the first items, in order. An event is posted while an item waits, and once
none is posted all of them have been taken. -/
structure InOrder (items taken : List α) (q : Queue α) : Prop where
  taken_first : taken <+: items
  posted_of_waiting : q.waiting ≠ [] → 0 < q.posted
  taken_of_not_posted : q.posted = 0 → taken = items

/-- Whatever happens to a new queue, its items are taken in order, and none is left behind. -/
theorem inOrder_run (hrun : Runs.run step {} events = some (q, out)) : InOrder (puts events) out q := by
  have hitems : out ++ q.waiting = puts events := run_append hrun
  have hawake : q.Awake := Runs.run_invariant (P := Queue.Awake) (fun _ _ _ _ h hstep => h.step hstep)
    ⟨fun h => absurd rfl h, rfl⟩ hrun
  have hposted : q.waiting ≠ [] → 0 < q.posted := fun hwaiting => by
    rw [hawake.posted, if_neg (hawake.current hwaiting)]
    exact Nat.one_pos
  refine ⟨⟨q.waiting, hitems⟩, hposted, fun hnone => ?_⟩
  by_cases hwaiting : q.waiting = []
  · rwa [hwaiting, List.append_nil] at hitems
  · exact absurd hnone (Nat.pos_iff_ne_zero.mp (hposted hwaiting))

end SingleFlight
