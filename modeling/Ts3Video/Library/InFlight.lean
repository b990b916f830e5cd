import Mathlib.Tactic.Common

/-!
# Messages in flight

Messages are received in the order in which they were sent. What the receiver will be when nothing is in
flight any longer is known as soon as a message is sent, and so is the receiver that a message will meet.
-/

namespace InFlight

variable {ρ μ : Type*} (receive : ρ → μ → ρ)

/-- The receiver after all messages in flight. -/
def settled (r : ρ) (messages : List μ) : ρ := messages.foldl receive r

/-- Every message in flight meets the receiver in the given way. -/
def EachReceipt (P : ρ → μ → Prop) : ρ → List μ → Prop
  | _, [] => True
  | r, message :: messages => P r message ∧ EachReceipt P (receive r message) messages

variable {receive}

/-- Nothing is in flight. -/
@[simp] theorem settled_nil (r : ρ) : settled receive r [] = r := rfl

/-- Receiving the first message does not change what the receiver will be. -/
@[simp] theorem settled_cons (r : ρ) (message : μ) (messages : List μ) :
    settled receive r (message :: messages) = settled receive (receive r message) messages := rfl

/-- Messages that are sent later are received later. -/
theorem settled_append (r : ρ) (messages later : List μ) :
    settled receive r (messages ++ later) = settled receive (settled receive r messages) later :=
  List.foldl_append

/-- Messages that no receiver reacts to. -/
theorem settled_of_ignored {messages : List μ} (h : ∀ message ∈ messages, ∀ r, receive r message = r)
    (r : ρ) : settled receive r messages = r := by
  induction messages with
  | nil => rfl
  | cons message messages ih =>
    rw [settled_cons, h message List.mem_cons_self]
    exact ih fun later hlater => h later (List.mem_cons_of_mem _ hlater)

/-- What is known of the receiver follows the messages as well. -/
theorem map_settled {σ : Type*} {receive' : σ → μ → σ} (f : ρ → σ)
    (h : ∀ r message, f (receive r message) = receive' (f r) message) (r : ρ) (messages : List μ) :
    f (settled receive r messages) = settled receive' (f r) messages := by
  induction messages generalizing r with
  | nil => rfl
  | cons message messages ih => rw [settled_cons, settled_cons, ih, h]

variable {P Q : ρ → μ → Prop}

/-- Messages that are sent later meet the receiver after those that are in flight. -/
theorem eachReceipt_append {r : ρ} {messages later : List μ} :
    EachReceipt receive P r (messages ++ later) ↔
      EachReceipt receive P r messages ∧ EachReceipt receive P (settled receive r messages) later := by
  induction messages generalizing r with
  | nil => exact (iff_of_eq (true_and _)).symm
  | cons message messages ih => exact (and_congr_right fun _ => ih).trans and_assoc.symm

/-- A weaker condition is met as well. -/
theorem EachReceipt.mono (hPQ : ∀ r message, P r message → Q r message) {r : ρ} {messages : List μ}
    (h : EachReceipt receive P r messages) : EachReceipt receive Q r messages := by
  induction messages generalizing r with
  | nil => trivial
  | cons message messages ih => exact ⟨hPQ r message h.1, ih h.2⟩

/-- A condition that every receiver meets. -/
theorem eachReceipt_of_forall {messages : List μ} (h : ∀ message ∈ messages, ∀ r, P r message) (r : ρ) :
    EachReceipt receive P r messages := by
  induction messages generalizing r with
  | nil => trivial
  | cons message messages ih =>
    exact ⟨h message List.mem_cons_self r,
      ih (fun later hlater => h later (List.mem_cons_of_mem _ hlater)) _⟩

end InFlight
