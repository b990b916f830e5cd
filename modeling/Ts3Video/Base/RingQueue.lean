import Ts3Video.Library.CircularArray
import Ts3Video.Library.Runs

/-!
# The bounded queue

A ring buffer allocates one element more than its size and moves its start and end positions around that
array. The queue built on it is compared with a list that holds at most as many elements as the size says
and drops the oldest ones.
-/

namespace Ts3Video.Base

open CircularArray

/-- The array of `size + 1` elements and the positions `_start` and `_end` in it, which are counted modulo
its length. -/
structure RingBuffer (T : Type*) (size : ℕ) where
  buffer : Fin (size + 1) → T
  start : Fin (size + 1)
  «end» : Fin (size + 1)

namespace RingBuffer

variable {T : Type*} {size : ℕ}

/-- A new buffer, in whatever memory the allocation returns. -/
def new (memory : Fin (size + 1) → T) : RingBuffer T size where
  buffer := memory
  start := ⟨0, Nat.succ_pos size⟩
  «end» := ⟨0, Nat.succ_pos size⟩

/-- The position behind another one, modulo the length of the array. -/
def next (position : Fin (size + 1)) : Fin (size + 1) :=
  ⟨(position.val + 1) % (size + 1), Nat.mod_lt _ (Nat.succ_pos size)⟩

/-- Store an element at the end; the start gives way when the end runs into it. -/
def write (b : RingBuffer T size) (data : T) : RingBuffer T size :=
  let buffer := Function.update b.buffer b.end data
  let last := next b.end
  if last = b.start then ⟨buffer, next b.start, last⟩ else ⟨buffer, b.start, last⟩

/-- The element at the start, which moves on. -/
def read (b : RingBuffer T size) : T × RingBuffer T size :=
  (b.buffer b.start, { b with start := next b.start })

/-- Whether no element is stored. -/
def isEmpty (b : RingBuffer T size) : Bool :=
  b.end == b.start

/-- The stored elements, the oldest one first. -/
def held (b : RingBuffer T size) : List T :=
  contents b.buffer b.start b.end

end RingBuffer

/-- The queue owns a ring buffer; its mutex makes each call one step. -/
structure RingQueue (T : Type*) (size : ℕ) where
  buffer : RingBuffer T size

/-- The calls of a queue. -/
inductive Call (T : Type*) where
  | get
  | put (data : T)

namespace RingQueue

variable {T : Type*} {size : ℕ}

/-- A new queue. -/
def new (memory : Fin (size + 1) → T) : RingQueue T size :=
  ⟨RingBuffer.new memory⟩

/-- The oldest element, or the default one of its type if there is none. -/
def get [Inhabited T] (q : RingQueue T size) : T × RingQueue T size :=
  if q.buffer.isEmpty then (default, q) else (q.buffer.read.1, ⟨q.buffer.read.2⟩)

/-- Store an element. -/
def put (q : RingQueue T size) (data : T) : RingQueue T size :=
  ⟨q.buffer.write data⟩

/-- Execute one call; the results of `get` are the outputs. -/
def step [Inhabited T] (q : RingQueue T size) : Call T → Option (RingQueue T size × List T)
  | .get => some (q.get.2, [q.get.1])
  | .put data => some (q.put data, [])

/-- The elements a queue stands for. -/
def held (q : RingQueue T size) : List T :=
  q.buffer.held

end RingQueue

namespace Fifo

variable {T : Type*}

/-- Append an element; one more than `size` elements are too many, and the oldest one is removed. -/
def put (size : ℕ) (held : List T) (data : T) : List T :=
  if (held ++ [data]).length > size then (held ++ [data]).tail else held ++ [data]

/-- Remove the oldest element, if there is one. -/
def get [Inhabited T] : List T → T × List T
  | [] => (default, [])
  | oldest :: later => (oldest, later)

/-- Execute one call on the list. -/
def step [Inhabited T] (size : ℕ) (held : List T) : Call T → Option (List T × List T)
  | .get => some ((get held).2, [(get held).1])
  | .put data => some (put size held data, [])

end Fifo

variable {T : Type*} {size : ℕ}

/-- The next position is one further on the circle. -/
theorem RingBuffer.next_eq (position : Fin (size + 1)) : next position = position + 1 := by
  ext
  rw [next, Fin.val_add, Fin.val_one', Nat.add_mod_mod]

/-- A new buffer holds nothing, whatever is in its memory. -/
@[simp] theorem RingBuffer.held_new (memory : Fin (size + 1) → T) : (RingBuffer.new memory).held = [] :=
  contents_self memory _

/-- Nothing is held just if both positions are the same. -/
theorem RingBuffer.held_of_isEmpty {b : RingBuffer T size} (h : b.isEmpty = true) : b.held = [] := by
  rw [held, eq_of_beq h, contents_self]

/-- Reading takes the oldest element. -/
theorem RingBuffer.held_eq_cons {b : RingBuffer T size} (h : b.isEmpty = false) :
    b.held = b.read.1 :: b.read.2.held := by
  rw [read, held, held, next_eq]
  exact contents_eq_cons (fun hsame => absurd hsame.symm (ne_of_beq_false h)) b.buffer

/-- Writing appends the element and drops the oldest one if the buffer was full. -/
theorem RingBuffer.held_write (b : RingBuffer T size) (data : T) :
    (b.write data).held = Fifo.put size b.held data := by
  have hroom : (b.held ++ [data]).length > size ↔ b.end + 1 = b.start := by
    rw [List.length_append, List.length_singleton, gt_iff_lt, Nat.lt_succ_iff, ← not_lt, held,
      contents_length_lt_iff, not_not]
  rw [write, Fifo.put]
  simp only [hroom, next_eq]
  split
  · next hfull =>
    rw [held, held, ← hfull]
    exact contents_overwrite b.buffer b.end data
  · next hopen => exact contents_store b.buffer hopen data

/-- A call does to the queue what it does to the list the queue stands for. -/
theorem RingQueue.held_step [Inhabited T] (q : RingQueue T size) (call : Call T) :
    Fifo.step size q.held call = (q.step call).map fun next => (next.1.held, next.2) := by
  cases call with
  | put data => exact congrArg (fun held => some (held, [])) (q.buffer.held_write data).symm
  | get =>
    rw [RingQueue.step, Fifo.step, RingQueue.get]
    split
    · next hempty =>
      rw [RingQueue.held, RingBuffer.held_of_isEmpty hempty]
      exact congrArg (fun held => some (held, [default])) (RingBuffer.held_of_isEmpty hempty).symm
    · next hsome =>
      rw [RingQueue.held, RingBuffer.held_eq_cons (Bool.eq_false_iff.mpr hsome)]
      rfl

/-- Calls on a queue always have results. -/
theorem RingQueue.run_defined [Inhabited T] (q : RingQueue T size) (calls : List (Call T)) :
    ∃ last results, Runs.run RingQueue.step q calls = some (last, results) := by
  induction calls generalizing q with
  | nil => exact ⟨q, [], rfl⟩
  | cons call calls ih =>
    obtain ⟨next, first, hone⟩ : ∃ next first, q.step call = some (next, first) := by
      cases call with
      | get => exact ⟨_, _, rfl⟩
      | put data => exact ⟨_, _, rfl⟩
    obtain ⟨last, results, hrun⟩ := ih next
    exact ⟨last, first ++ results,
      (Runs.run_cons_eq_some _).mpr ⟨next, first, results, hone, hrun, rfl⟩⟩

/-- Every sequence of calls on a queue of any size has the results of the list that drops its oldest
elements, and leaves the queue with the elements of that list. -/
theorem ringQueue_refines_fifo [Inhabited T] (memory : Fin (size + 1) → T) (calls : List (Call T)) :
    ∃ q results, Runs.run RingQueue.step (RingQueue.new memory) calls = some (q, results) ∧
      Runs.run (Fifo.step size) [] calls = some (q.held, results) := by
  obtain ⟨q, results, hrun⟩ := (RingQueue.new memory).run_defined calls
  refine ⟨q, results, hrun, ?_⟩
  have hlist := Runs.run_map RingQueue.held RingQueue.held_step (RingQueue.new memory) calls
  rwa [hrun, RingQueue.held, RingQueue.new, RingBuffer.held_new] at hlist

/-- A queue of size two keeps the last two of three elements. -/
example : (Runs.run RingQueue.step (RingQueue.new fun _ : Fin 3 => 7)
    [.put 1, .put 2, .put 3, .get, .get, .get]).map (·.2) = some [2, 3, 0] := rfl

end Ts3Video.Base
