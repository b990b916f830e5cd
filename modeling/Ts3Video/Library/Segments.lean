import Mathlib.Tactic.Common

/-!
# Streams that are cut into segments

A stream of values with separators between them, as a consumer sees it that keeps something from one
value to the next and drops it at a separator. A segment is open while the consumer keeps something.
-/

namespace Segments

variable {α : Type*} {P : α → Prop} {isOpen : Prop} {items : List (Option α)} {value : α}

/-- A segment is open after these items. -/
def OpenAfter (isOpen : Prop) : List (Option α) → Prop
  | [] => isOpen
  | none :: items => OpenAfter False items
  | some _ :: items => OpenAfter True items

/-- Every segment that begins in these items begins with a value of a given kind. -/
def BeginWith (P : α → Prop) (isOpen : Prop) : List (Option α) → Prop
  | [] => True
  | none :: items => BeginWith P False items
  | some value :: items => (isOpen ∨ P value) ∧ BeginWith P True items

/-- A segment that is open at the start may be open at the end. -/
theorem OpenAfter.mono {isOpen' : Prop} (h : OpenAfter isOpen items) (hopen : isOpen → isOpen') :
    OpenAfter isOpen' items := by
  cases items with
  | nil => exact hopen h
  | cons item items =>
    cases item with
    | none => exact h
    | some => exact h

/-- A segment that is open at the start may begin with any value. -/
theorem BeginWith.mono {isOpen' : Prop} (h : BeginWith P isOpen items) (hopen : isOpen → isOpen') :
    BeginWith P isOpen' items := by
  cases items with
  | nil => trivial
  | cons item items =>
    cases item with
    | none => exact h
    | some => exact ⟨h.1.imp_left hopen, h.2⟩

/-- After a value a segment is open. -/
theorem openAfter_append_some : OpenAfter isOpen (items ++ [some value]) ↔ True := by
  induction items generalizing isOpen with
  | nil => rfl
  | cons item items ih =>
    cases item with
    | none => exact ih
    | some => exact ih

/-- A separator may come at any time. -/
theorem beginWith_append_none : BeginWith P isOpen (items ++ [none]) ↔ BeginWith P isOpen items := by
  induction items generalizing isOpen with
  | nil => rfl
  | cons item items ih =>
    cases item with
    | none => exact ih
    | some => exact and_congr_right fun _ => ih

/-- A value may follow in an open segment, or else begins one. -/
theorem beginWith_append_some : BeginWith P isOpen (items ++ [some value]) ↔
    BeginWith P isOpen items ∧ (OpenAfter isOpen items ∨ P value) := by
  induction items generalizing isOpen with
  | nil => exact (and_iff_left trivial).trans (and_iff_right trivial).symm
  | cons item items ih =>
    cases item with
    | none => exact ih
    | some first => exact (and_congr_right fun _ => ih).trans and_assoc.symm

end Segments
