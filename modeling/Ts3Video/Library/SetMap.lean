import Mathlib.Data.List.Basic
import Mathlib.Tactic.Common

/-!
# Maps of sets

A map of sets stores a binary relation by its rows. Reading a row that is not there gives the empty
set, and so does storing no row at all, which is why a map may be required to have no empty rows.
Such a map has exactly the keys that are related to something.
-/

namespace SetMap

open Std

variable {κ α : Type*} [Ord κ] [TransOrd κ] [Ord α] [TransOrd α]

/-- The row of a key, empty if there is none. -/
def value (m : ExtTreeMap κ (ExtTreeSet α)) (k : κ) : ExtTreeSet α := (m[k]?).getD ∅

/-- Add an element to a row, which is created if it is not there. -/
def insertAt (m : ExtTreeMap κ (ExtTreeSet α)) (k : κ) (a : α) : ExtTreeMap κ (ExtTreeSet α) :=
  m.insert k ((value m k).insert a)

/-- Remove an element from a row, which is created if it is not there. -/
def eraseAt (m : ExtTreeMap κ (ExtTreeSet α)) (k : κ) (a : α) : ExtTreeMap κ (ExtTreeSet α) :=
  m.insert k ((value m k).erase a)

/-- Remove a row if it is empty. -/
def dropEmpty (m : ExtTreeMap κ (ExtTreeSet α)) (k : κ) : ExtTreeMap κ (ExtTreeSet α) :=
  if (value m k).isEmpty then m.erase k else m

/-- Remove an element from all rows. -/
def eraseFromAll (m : ExtTreeMap κ (ExtTreeSet α)) (a : α) : ExtTreeMap κ (ExtTreeSet α) :=
  m.map fun _ row => row.erase a

/-- The relation that a map of sets stores. -/
def Rel (m : ExtTreeMap κ (ExtTreeSet α)) (k : κ) (a : α) : Prop := a ∈ value m k

instance (m : ExtTreeMap κ (ExtTreeSet α)) (k : κ) (a : α) : Decidable (Rel m k a) :=
  inferInstanceAs (Decidable (a ∈ value m k))

/-- No row of the map is empty. -/
def NoEmptyRow (m : ExtTreeMap κ (ExtTreeSet α)) : Prop :=
  ∀ (k : κ) (row : ExtTreeSet α), m[k]? = some row → row ≠ ∅

omit [TransOrd α] in
/-- A stored row is read back. -/
@[simp] theorem value_insert_self (m : ExtTreeMap κ (ExtTreeSet α)) (k : κ) (row : ExtTreeSet α) :
    value (m.insert k row) k = row := by
  rw [value, ExtTreeMap.getElem?_insert_self, Option.getD_some]

omit [TransOrd α] in
/-- Storing a row leaves the other rows as they were. -/
theorem value_insert_of_ne [LawfulEqOrd κ] (m : ExtTreeMap κ (ExtTreeSet α)) {k k' : κ} (h : k ≠ k')
    (row : ExtTreeSet α) : value (m.insert k row) k' = value m k' := by
  rw [value, ExtTreeMap.getElem?_insert, if_neg (mt Std.compare_eq_iff_eq.mp h), value]

/-- The empty map relates nothing. -/
@[simp] theorem not_rel_empty (k : κ) (a : α) :
    ¬ Rel (∅ : ExtTreeMap κ (ExtTreeSet α)) k a := by
  rw [Rel, value, ExtTreeMap.getElem?_empty]
  exact ExtTreeSet.not_mem_empty

omit [TransOrd α] in
/-- The empty map has no empty row. -/
theorem noEmptyRow_empty : NoEmptyRow (∅ : ExtTreeMap κ (ExtTreeSet α)) := by
  intro k row h
  rw [ExtTreeMap.getElem?_empty] at h
  contradiction

/-- A row that was added to is not empty. -/
theorem NoEmptyRow.insertAt {m : ExtTreeMap κ (ExtTreeSet α)} (h : NoEmptyRow m) (k : κ) (a : α) :
    NoEmptyRow (insertAt m k a) := by
  intro k' row hrow
  rw [SetMap.insertAt, ExtTreeMap.getElem?_insert] at hrow
  split at hrow
  · rw [Option.some.injEq] at hrow
    rintro rfl
    have hmem : a ∈ (value m k).insert a := ExtTreeSet.mem_insert_self
    rw [hrow] at hmem
    exact ExtTreeSet.not_mem_empty hmem
  · exact h k' row hrow

/-- The row of a key is empty exactly if the key is related to nothing. -/
theorem isEmpty_value_iff [LawfulEqOrd α] {m : ExtTreeMap κ (ExtTreeSet α)} {k : κ} :
    (value m k).isEmpty = true ↔ ∀ a, ¬ Rel m k a := by
  rw [ExtTreeSet.isEmpty_iff]
  constructor
  · intro h a ha
    rw [Rel, h] at ha
    exact ExtTreeSet.not_mem_empty ha
  · intro h
    apply ExtTreeSet.ext_mem
    intro a
    exact ⟨fun ha => absurd ha (h a), fun ha => absurd ha ExtTreeSet.not_mem_empty⟩

omit [Ord κ] [TransOrd κ] in
/-- A set is listed without repetition. -/
theorem nodup_toList [LawfulEqOrd α] (set : ExtTreeSet α) : set.toList.Nodup := by
  apply ExtTreeSet.distinct_toList.imp
  intro a b h hab
  exact h (Std.compare_eq_iff_eq.mpr hab)

omit [Ord κ] [TransOrd κ] in
/-- What a list of a set is mapped to depends only on the elements with a value. -/
theorem filterMap_toList_congr [LawfulEqOrd α] {β : Type*} {set set' : ExtTreeSet α}
    {f f' : α → Option β} (h : ∀ a b, a ∈ set ∧ f a = some b ↔ a ∈ set' ∧ f' a = some b) :
    set.toList.filterMap f = set'.toList.filterMap f' := by
  have hfilter : set.filter (fun a => (f a).isSome) = set'.filter (fun a => (f' a).isSome) := by
    apply ExtTreeSet.ext_mem
    intro a
    simp only [ExtTreeSet.mem_filter, ExtTreeSet.get_eq, exists_prop, Option.isSome_iff_exists,
      ← exists_and_left, h]
  have hkept : ∀ (set : ExtTreeSet α) (f : α → Option β), set.toList.filterMap f =
      (set.filter fun a => (f a).isSome).toList.filterMap f := by
    intro set f
    rw [ExtTreeSet.toList_filter, List.filterMap_filter]
    apply List.filterMap_congr
    intro a _
    cases f a with
    | none => rfl
    | some b => rfl
  rw [hkept set f, hkept set' f', hfilter]
  apply List.filterMap_congr
  intro a ha
  rw [ExtTreeSet.mem_toList] at ha
  have hset := ExtTreeSet.mem_of_mem_filter ha
  have hset' := ExtTreeSet.mem_of_mem_filter (hfilter ▸ ha)
  apply Option.ext
  intro b
  constructor
  · exact fun hb => ((h a b).mp ⟨hset', hb⟩).2
  · exact fun hb => ((h a b).mpr ⟨hset, hb⟩).2

/-- Without empty rows, the keys are the ones related to something. -/
theorem NoEmptyRow.mem_iff [LawfulEqOrd α] {m : ExtTreeMap κ (ExtTreeSet α)} (h : NoEmptyRow m)
    {k : κ} : k ∈ m ↔ ∃ a, Rel m k a := by
  constructor
  · intro hk
    have hrow := ExtTreeMap.getElem?_eq_some_getElem hk
    by_contra hnone
    apply h k _ hrow
    have hempty : (value m k).isEmpty = true := isEmpty_value_iff.mpr (not_exists.mp hnone)
    rwa [value, hrow, Option.getD_some, ExtTreeSet.isEmpty_iff] at hempty
  · rintro ⟨a, ha⟩
    by_contra hk
    rw [Rel, value, ExtTreeMap.getElem?_eq_none hk] at ha
    exact ExtTreeSet.not_mem_empty ha

section Lawful

variable [LawfulEqOrd κ]

/-- Removing an empty row does not change what is read. -/
@[simp] theorem value_dropEmpty (m : ExtTreeMap κ (ExtTreeSet α)) (k k' : κ) :
    value (dropEmpty m k) k' = value m k' := by
  unfold dropEmpty
  split
  next hempty =>
    by_cases hk : k = k'
    · subst hk
      rw [value, ExtTreeMap.getElem?_erase_self, ExtTreeSet.isEmpty_iff.mp hempty]
      rfl
    · rw [value, ExtTreeMap.getElem?_erase, if_neg (mt Std.compare_eq_iff_eq.mp hk), value]
  next => rfl

/-- Removing an empty row does not change the relation. -/
@[simp] theorem rel_dropEmpty {m : ExtTreeMap κ (ExtTreeSet α)} {k k' : κ} {a : α} :
    Rel (dropEmpty m k) k' a ↔ Rel m k' a := by
  rw [Rel, value_dropEmpty, Rel]

omit [TransOrd α] [LawfulEqOrd κ] in
/-- Removing an empty row adds no key. -/
theorem mem_of_mem_dropEmpty {m : ExtTreeMap κ (ExtTreeSet α)} {k k' : κ} (h : k' ∈ dropEmpty m k) :
    k' ∈ m := by
  unfold dropEmpty at h
  split at h
  · exact ExtTreeMap.mem_of_mem_erase h
  · exact h

/-- After an element was removed, only its row can be empty, and then it is dropped. -/
theorem NoEmptyRow.dropEmpty_eraseAt {m : ExtTreeMap κ (ExtTreeSet α)} (h : NoEmptyRow m) (k : κ)
    (a : α) : NoEmptyRow (dropEmpty (eraseAt m k a) k) := by
  intro k' row hrow
  by_cases hk : k = k'
  · subst hk
    unfold dropEmpty at hrow
    split at hrow
    next => simp at hrow
    next hne =>
      intro hempty
      apply hne
      rw [value, hrow, hempty]
      rfl
  · have hcmp : compare k k' ≠ .eq := mt Std.compare_eq_iff_eq.mp hk
    have hother : (dropEmpty (eraseAt m k a) k)[k']? = m[k']? := by
      unfold dropEmpty eraseAt
      split
      · rw [ExtTreeMap.getElem?_erase, ExtTreeMap.getElem?_insert, if_neg hcmp, if_neg hcmp]
      · rw [ExtTreeMap.getElem?_insert, if_neg hcmp]
    exact h k' row (hother ▸ hrow)

variable [LawfulEqOrd α]

/-- Adding an element relates it to the key of its row and changes nothing else. -/
theorem rel_insertAt {m : ExtTreeMap κ (ExtTreeSet α)} {k k' : κ} {a a' : α} :
    Rel (insertAt m k a) k' a' ↔ (k' = k ∧ a' = a) ∨ Rel m k' a' := by
  by_cases hk : k = k'
  · subst hk
    rw [Rel, insertAt, value_insert_self, ExtTreeSet.mem_insert, Std.compare_eq_iff_eq, Rel]
    simp [eq_comm]
  · rw [Rel, insertAt, value_insert_of_ne m hk, Rel]
    simp [Ne.symm hk]

/-- Removing an element unrelates it from the key of its row and changes nothing else. -/
theorem rel_eraseAt {m : ExtTreeMap κ (ExtTreeSet α)} {k k' : κ} {a a' : α} :
    Rel (eraseAt m k a) k' a' ↔ Rel m k' a' ∧ ¬(k' = k ∧ a' = a) := by
  by_cases hk : k = k'
  · subst hk
    rw [Rel, eraseAt, value_insert_self, ExtTreeSet.mem_erase, Ne, Std.compare_eq_iff_eq, Rel]
    simp [and_comm, eq_comm]
  · rw [Rel, eraseAt, value_insert_of_ne m hk, Rel]
    simp [Ne.symm hk]

omit [LawfulEqOrd κ] [LawfulEqOrd α] in
/-- Removing a row relates nothing. -/
theorem rel_of_rel_erase {m : ExtTreeMap κ (ExtTreeSet α)} {k k' : κ} {a : α}
    (h : Rel (m.erase k) k' a) : Rel m k' a := by
  rw [Rel, value, ExtTreeMap.getElem?_erase] at h
  split at h
  · exact absurd h ExtTreeSet.not_mem_empty
  · exact h

/-- Removing an element from all rows unrelates it from every key and changes nothing else. -/
theorem rel_eraseFromAll {m : ExtTreeMap κ (ExtTreeSet α)} {k : κ} {a a' : α} :
    Rel (eraseFromAll m a) k a' ↔ Rel m k a' ∧ a' ≠ a := by
  rw [Rel, Rel, value, value, eraseFromAll, ExtTreeMap.getElem?_map]
  cases m[k]? with
  | none => simp
  | some row =>
    rw [Option.map_some, Option.getD_some, Option.getD_some, ExtTreeSet.mem_erase, Ne,
      Std.compare_eq_iff_eq, and_comm, eq_comm (a := a)]

end Lawful

end SetMap
