import Mathlib.Data.List.Basic

/-!
# Lines of a stream

A line ends with its terminator. What follows the last terminator of a stream is no complete line.
-/

namespace LineReader

variable {α : Type*} [DecidableEq α] (terminator : α)

/-- The lines of a stream, each with its terminator. -/
def completeLines : List α → List (List α)
  | [] => []
  | c :: rest =>
    if c = terminator then [c] :: completeLines rest
    else match completeLines rest with
      | [] => []
      | line :: lines => (c :: line) :: lines

/-- The stream up to and including the first terminator, and what is left of it. -/
def readLine : List α → List α × List α
  | [] => ([], [])
  | c :: rest =>
    if c = terminator then ([c], rest) else (c :: (readLine rest).1, (readLine rest).2)

variable {terminator} {text : List α}

/-- A stream without a terminator has no complete line. -/
theorem completeLines_of_not_mem (h : terminator ∉ text) : completeLines terminator text = [] := by
  induction text with
  | nil => rfl
  | cons c rest ih =>
    rw [List.mem_cons, not_or] at h
    rw [completeLines, if_neg (Ne.symm h.1), ih h.2]

/-- The first complete line is the one that is read, and the others are those of what is left. -/
theorem completeLines_of_mem (h : terminator ∈ text) :
    completeLines terminator text =
      (readLine terminator text).1 :: completeLines terminator (readLine terminator text).2 := by
  induction text with
  | nil => exact absurd h List.not_mem_nil
  | cons c rest ih =>
    rw [completeLines, readLine]
    split
    · rfl
    · next hne =>
      have hrest : terminator ∈ rest := (List.mem_cons.mp h).resolve_left fun hsame => hne hsame.symm
      rw [ih hrest]

/-- What arrives later does not change the line that can be read. -/
theorem readLine_append (h : terminator ∈ text) (later : List α) :
    readLine terminator (text ++ later) =
      ((readLine terminator text).1, (readLine terminator text).2 ++ later) := by
  induction text with
  | nil => exact absurd h List.not_mem_nil
  | cons c rest ih =>
    rw [List.cons_append, readLine, readLine]
    split
    · rfl
    · next hne =>
      have hrest : terminator ∈ rest := (List.mem_cons.mp h).resolve_left fun hsame => hne hsame.symm
      rw [ih hrest]

end LineReader
