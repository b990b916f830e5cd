import Mathlib.Data.Set.Insert
import Ts3Video.Library.Simulation

/-!
# Conferences

What the server is for, without its tables: persons arrive, log in, become administrators, open and join
channels, and leave. A channel is there as long as it has a member. Nobody arrives twice, and no channel is
opened twice, so that the acts that have happened say who is where.
-/

namespace Ts3Video

/-- Who has ever been there, who is there, who is logged in and who is an administrator, the channels that
have ever been opened, and who is a member of which. -/
@[ext] structure Conference (κ γ : Type*) where
  seen : Set κ
  present : Set κ
  loggedIn : Set κ
  admins : Set κ
  opened : Set γ
  members : Set (κ × γ)

namespace Conference

variable {κ γ : Type*}

/-- What a person does. -/
inductive Act (κ γ : Type*) where
  | arrive (c : κ)
  | logIn (c : κ)
  | promote (c : κ)
  | openChannel (c : κ) (ch : γ)
  | join (c : κ) (ch : γ)
  | leave (c : κ)

/-- The person that acts. -/
def Act.person : Act κ γ → κ
  | .arrive c | .logIn c | .promote c | .openChannel c _ | .join c _ | .leave c => c

/-- Nobody has been there yet. -/
def empty : Conference κ γ := ⟨∅, ∅, ∅, ∅, ∅, ∅⟩

/-- The channels that are there. -/
def channels (C : Conference κ γ) : Set γ := {ch | ∃ c, (c, ch) ∈ C.members}

/-- The acts that are allowed, and what they change. -/
inductive Step (C : Conference κ γ) : Act κ γ → Conference κ γ → Prop
  | arrive {c : κ} (hnew : c ∉ C.seen) :
    Step C (.arrive c) { C with seen := insert c C.seen, present := insert c C.present }
  | logIn {c : κ} (hpresent : c ∈ C.present) :
    Step C (.logIn c) { C with loggedIn := insert c C.loggedIn }
  | promote {c : κ} (hloggedIn : c ∈ C.loggedIn) :
    Step C (.promote c) { C with admins := insert c C.admins }
  | openChannel {c : κ} {ch : γ} (hloggedIn : c ∈ C.loggedIn) (hnew : ch ∉ C.opened) :
    Step C (.openChannel c ch)
      { C with opened := insert ch C.opened, members := insert (c, ch) C.members }
  | join {c : κ} {ch : γ} (hloggedIn : c ∈ C.loggedIn) (hchannel : ch ∈ C.channels) :
    Step C (.join c ch) { C with members := insert (c, ch) C.members }
  | leave {c : κ} (hpresent : c ∈ C.present) :
    Step C (.leave c) { C with
      present := C.present \ {c}
      loggedIn := C.loggedIn \ {c}
      admins := C.admins \ {c}
      members := {m | m ∈ C.members ∧ m.1 ≠ c} }

/-- Only those who are there have rights, and only channels that have been opened have members. -/
structure Valid (C : Conference κ γ) : Prop where
  present : ∀ c ∈ C.present, c ∈ C.seen
  loggedIn : ∀ c ∈ C.loggedIn, c ∈ C.present
  admins : ∀ c ∈ C.admins, c ∈ C.loggedIn
  members : ∀ c ch, (c, ch) ∈ C.members → c ∈ C.loggedIn ∧ ch ∈ C.opened

/-- The person has all rights in the second conference that it has in the first one. -/
structure Keeps (c : κ) (C C' : Conference κ γ) : Prop where
  present : c ∈ C.present → c ∈ C'.present
  loggedIn : c ∈ C.loggedIn → c ∈ C'.loggedIn
  admins : c ∈ C.admins → c ∈ C'.admins
  members : ∀ ch, (c, ch) ∈ C.members → (c, ch) ∈ C'.members

/-- The state of the conference is what the acts say: a person has what it has acquired, until it leaves. -/
structure Tells (acts : List (Act κ γ)) (C : Conference κ γ) : Prop where
  seen : ∀ c, c ∈ C.seen ↔ .arrive c ∈ acts
  present : ∀ c, c ∈ C.present ↔ .arrive c ∈ acts ∧ .leave c ∉ acts
  loggedIn : ∀ c, c ∈ C.loggedIn ↔ .logIn c ∈ acts ∧ .leave c ∉ acts
  admins : ∀ c, c ∈ C.admins ↔ .promote c ∈ acts ∧ .leave c ∉ acts
  opened : ∀ ch, ch ∈ C.opened ↔ ∃ c, .openChannel c ch ∈ acts
  members : ∀ c ch, (c, ch) ∈ C.members ↔ (.openChannel c ch ∈ acts ∨ .join c ch ∈ acts) ∧ .leave c ∉ acts
  gone : ∀ c, .leave c ∈ acts → .arrive c ∈ acts

variable {C C' : Conference κ γ} {act : Act κ γ} {acts : List (Act κ γ)}

/-- Every act keeps rights with those who are there. -/
theorem Valid.step (h : C.Valid) (hstep : Step C act C') : C'.Valid := by
  cases hstep with
  | arrive hnew =>
    exact ⟨fun k hk => hk.imp_right (h.present k), fun k hk => .inr (h.loggedIn k hk), h.admins, h.members⟩
  | logIn hpresent =>
    refine ⟨h.present, fun k hk => ?_, fun k hk => .inr (h.admins k hk),
      fun k ch hk => (h.members k ch hk).imp_left .inr⟩
    rcases hk with rfl | hk
    · exact hpresent
    · exact h.loggedIn k hk
  | promote hloggedIn =>
    refine ⟨h.present, h.loggedIn, fun k hk => ?_, h.members⟩
    rcases hk with rfl | hk
    · exact hloggedIn
    · exact h.admins k hk
  | openChannel hloggedIn hnew =>
    refine ⟨h.present, h.loggedIn, h.admins, fun k ch hk => ?_⟩
    rcases hk with heq | hk
    · obtain ⟨rfl, rfl⟩ := Prod.mk.inj heq
      exact ⟨hloggedIn, .inl rfl⟩
    · exact (h.members k ch hk).imp_right .inr
  | join hloggedIn hchannel =>
    refine ⟨h.present, h.loggedIn, h.admins, fun k ch hk => ?_⟩
    rcases hk with heq | hk
    · obtain ⟨rfl, rfl⟩ := Prod.mk.inj heq
      obtain ⟨member, hmember⟩ := hchannel
      exact ⟨hloggedIn, (h.members member _ hmember).2⟩
    · exact h.members k ch hk
  | leave hpresent =>
    exact ⟨fun k hk => h.present k hk.1, fun k hk => ⟨h.loggedIn k hk.1, hk.2⟩,
      fun k hk => ⟨h.admins k hk.1, hk.2⟩, fun k ch hk => (h.members k ch hk.1).imp_left fun hin => ⟨hin, hk.2⟩⟩

/-- In the empty conference nobody has rights. -/
theorem valid_empty : (empty : Conference κ γ).Valid :=
  ⟨fun _ h => h, fun _ h => h, fun _ h => h, fun _ _ h => absurd h (Set.notMem_empty _)⟩

/-- A person keeps its rights in two steps. -/
theorem Keeps.trans {c : κ} {D : Conference κ γ} (h : Keeps c C C') (h' : Keeps c C' D) : Keeps c C D :=
  ⟨h'.present ∘ h.present, h'.loggedIn ∘ h.loggedIn, h'.admins ∘ h.admins,
    fun ch hmember => h'.members ch (h.members ch hmember)⟩

/-- The acts up to now say who is where, whatever the next one is. -/
theorem Tells.step (h : Tells acts C) (hstep : Step C act C') : Tells (acts ++ [act]) C' := by
  have hmem : ∀ a : Act κ γ, a ∈ acts ++ [act] ↔ a ∈ acts ∨ a = act := fun a => by
    rw [List.mem_append, List.mem_singleton]
  obtain ⟨hseen, hpresent, hloggedIn, hadmins, hopened, hmembers, hgone⟩ := h
  -- Whoever acts has not left, and whoever has left does not arrive again.
  have hstayed : ∀ k ∈ C.present, .leave k ∉ acts := fun k hk => ((hpresent k).mp hk).2
  have hactive : ∀ k ∈ C.loggedIn, .leave k ∉ acts := fun k hk => ((hloggedIn k).mp hk).2
  have hfresh : ∀ k ∉ C.seen, .leave k ∉ acts := fun k hk hleft => hk ((hseen k).mpr (hgone k hleft))
  constructor
  case seen =>
    intro k
    rw [hmem]
    cases hstep with
    | _ => grind
  case present =>
    intro k
    rw [hmem, hmem]
    cases hstep with
    | _ => grind
  case loggedIn =>
    intro k
    rw [hmem, hmem]
    cases hstep with
    | _ => grind
  case admins =>
    intro k
    rw [hmem, hmem]
    cases hstep with
    | _ => grind
  case opened =>
    intro ch
    simp only [hmem]
    cases hstep with
    | _ => grind
  case members =>
    intro k ch
    rw [hmem, hmem, hmem]
    cases hstep with
    | _ => grind
  case gone =>
    intro k
    rw [hmem, hmem]
    cases hstep with
    | _ => grind

/-- Before the first act, nobody is anywhere. -/
theorem tells_nil : Tells [] (empty : Conference κ γ) := by
  constructor
  case opened => exact fun ch => ⟨fun h => absurd h (Set.notMem_empty ch), fun ⟨_, h⟩ => absurd h List.not_mem_nil⟩
  case gone => exact fun _ h => absurd h List.not_mem_nil
  case members =>
    exact fun c ch => ⟨fun h => absurd h (Set.notMem_empty _),
      fun h => h.1.elim (fun h => absurd h List.not_mem_nil) fun h => absurd h List.not_mem_nil⟩
  case seen => exact fun c => ⟨fun h => absurd h (Set.notMem_empty c), fun h => absurd h List.not_mem_nil⟩
  all_goals exact fun c => ⟨fun h => absurd h (Set.notMem_empty c), fun h => absurd h.1 List.not_mem_nil⟩

/-- The acts that lead to a state from the empty conference say who is where, and rights are with those who
are there. -/
theorem of_leads_empty (h : Simulation.Leads Step empty acts C) : Tells acts C ∧ C.Valid := by
  induction h with
  | refl => exact ⟨tells_nil, valid_empty⟩
  | tail _ hact ih => exact ⟨ih.1.step hact, ih.2.step hact⟩

end Conference

end Ts3Video
