import Mathlib.Tactic.Common

/-!
# Tables

Lookups in a map after one entry has been stored or removed, with keys compared by equality.
-/

namespace Table

open Std

variable {κ ν : Type*} [Ord κ] [TransOrd κ] [LawfulEqOrd κ] [DecidableEq κ]

omit [LawfulEqOrd κ] [DecidableEq κ] in
/-- A key is in the map exactly if an entry is found under it. -/
theorem mem_iff {m : ExtTreeMap κ ν} {k : κ} : k ∈ m ↔ ∃ v, m[k]? = some v := by
  rw [ExtTreeMap.mem_iff_isSome_getElem?, Option.isSome_iff_exists]

omit [LawfulEqOrd κ] [DecidableEq κ] in
/-- The key of an entry that is found is in the map. -/
theorem mem_of_getElem? {m : ExtTreeMap κ ν} {k : κ} {v : ν} (h : m[k]? = some v) : k ∈ m :=
  mem_iff.mpr ⟨v, h⟩

/-- A stored entry is found, and the other entries stay as they were. -/
theorem getElem?_insert (m : ExtTreeMap κ ν) (k k' : κ) (v : ν) :
    (m.insert k v)[k']? = if k = k' then some v else m[k']? := by
  rw [ExtTreeMap.getElem?_insert]
  by_cases hk : k = k'
  · rw [if_pos hk, if_pos (Std.compare_eq_iff_eq.mpr hk)]
  · rw [if_neg hk, if_neg (mt Std.compare_eq_iff_eq.mp hk)]

omit [DecidableEq κ] in
/-- An entry that is found after one has been stored is that one or was there before. -/
theorem of_getElem?_insert {m : ExtTreeMap κ ν} {k k' : κ} {v w : ν}
    (h : (m.insert k v)[k']? = some w) : (k = k' ∧ v = w) ∨ m[k']? = some w := by
  classical
  rw [getElem?_insert] at h
  split at h
  next hk => exact .inl ⟨hk, Option.some.inj h⟩
  next => exact .inr h

omit [DecidableEq κ] [LawfulEqOrd κ] in
/-- Nothing is found in the empty map. -/
theorem getElem?_empty_ne (k : κ) (v : ν) : (∅ : ExtTreeMap κ ν)[k]? ≠ some v := by
  rw [ExtTreeMap.getElem?_empty]
  exact (Option.some_ne_none v).symm

/-- A removed entry is not found, and the other entries stay as they were. -/
theorem getElem?_erase (m : ExtTreeMap κ ν) (k k' : κ) :
    (m.erase k)[k']? = if k = k' then none else m[k']? := by
  rw [ExtTreeMap.getElem?_erase]
  by_cases hk : k = k'
  · rw [if_pos hk, if_pos (Std.compare_eq_iff_eq.mpr hk)]
  · rw [if_neg hk, if_neg (mt Std.compare_eq_iff_eq.mp hk)]

omit [DecidableEq κ] in
/-- An entry that is found after another one has been removed was there before. -/
theorem of_getElem?_erase {m : ExtTreeMap κ ν} {k k' : κ} {v : ν} (h : (m.erase k)[k']? = some v) :
    k ≠ k' ∧ m[k']? = some v := by
  classical
  rw [getElem?_erase] at h
  split at h
  · contradiction
  next hne => exact ⟨hne, h⟩

omit [DecidableEq κ] in
/-- An entry that is found after one has been modified is that one or was there before. -/
theorem of_getElem?_modify {m : ExtTreeMap κ ν} {k k' : κ} {f : ν → ν} {w : ν}
    (h : (m.modify k f)[k']? = some w) : (∃ v, k = k' ∧ m[k]? = some v ∧ f v = w) ∨ m[k']? = some w := by
  rw [ExtTreeMap.getElem?_modify] at h
  split at h
  next hk =>
    obtain rfl := Std.compare_eq_iff_eq.mp hk
    obtain ⟨v, hget, hw⟩ := Option.map_eq_some_iff.mp h
    exact .inl ⟨v, rfl, hget, hw⟩
  next => exact .inr h

omit [DecidableEq κ] in
/-- Of two entries stored under one key, the second one remains. -/
@[simp] theorem insert_insert (m : ExtTreeMap κ ν) (k : κ) (v w : ν) :
    (m.insert k v).insert k w = m.insert k w := by
  classical
  apply ExtTreeMap.ext_getElem?
  intro k'
  rw [getElem?_insert, getElem?_insert, getElem?_insert]
  split
  next => rfl
  next => rfl

omit [DecidableEq κ] in
/-- Entries under different keys are stored in any order. -/
theorem insert_comm (m : ExtTreeMap κ ν) {k k' : κ} (hne : k ≠ k') (v w : ν) :
    (m.insert k v).insert k' w = (m.insert k' w).insert k v := by
  classical
  apply ExtTreeMap.ext_getElem?
  intro l
  rw [getElem?_insert, getElem?_insert, getElem?_insert, getElem?_insert]
  by_cases hl : k' = l
  · rw [if_pos hl, if_pos hl, if_neg fun h => hne (h.trans hl.symm)]
  · rw [if_neg hl, if_neg hl]

omit [DecidableEq κ] in
/-- Storing the entry that is there changes nothing. -/
theorem insert_eq_self {m : ExtTreeMap κ ν} {k : κ} {v : ν} (h : m[k]? = some v) :
    m.insert k v = m := by
  classical
  apply ExtTreeMap.ext_getElem?
  intro k'
  rw [getElem?_insert]
  split
  next hk => rw [← hk, h]
  next => rfl

omit [DecidableEq κ] in
/-- What holds for all pairs of entries that are found holds for all pairs of entries in the list of the
map. -/
theorem forall_pairs_iff {m : ExtTreeMap κ ν} {P : κ × ν → κ × ν → Prop} :
    (∀ k k' v v', m[k]? = some v → m[k']? = some v' → P (k, v) (k', v')) ↔
      ∀ entry ∈ m.toList, ∀ entry' ∈ m.toList, P entry entry' := by
  simp only [Prod.forall, ExtTreeMap.mem_toList_iff_getElem?_eq_some]
  constructor
  · exact fun h k v hv k' v' hv' => h k k' v v' hv hv'
  · exact fun h k k' v v' hv hv' => h k v hv k' v' hv'

omit [DecidableEq κ] in
/-- A fold over the values of a map depends only on the values that contribute to it. -/
theorem foldl_toList_congr {γ δ : Type*} {m m' : ExtTreeMap κ ν} {g g' : ν → Option γ} (f : δ → γ → δ)
    (h : ∀ k : κ, (m[k]?).bind g = (m'[k]?).bind g') (start : δ) :
    m.toList.foldl (fun acc entry => ((g entry.2).map (f acc)).getD acc) start =
      m'.toList.foldl (fun acc entry => ((g' entry.2).map (f acc)).getD acc) start := by
  have hfold : ∀ (m : ExtTreeMap κ ν) (g : ν → Option γ),
      m.toList.foldl (fun acc entry => ((g entry.2).map (f acc)).getD acc) start =
        (m.filterMap fun _ v => g v).toList.foldl (fun acc entry => f acc entry.2) start := by
    intro m g
    rw [ExtTreeMap.toList_filterMap, List.foldl_filterMap]
    congr 1
    funext acc entry
    cases g entry.2 with
    | none => rfl
    | some x => rfl
  have hmaps : (m.filterMap fun _ v => g v) = m'.filterMap fun _ v => g' v := by
    apply ExtTreeMap.ext_getElem?
    intro k
    rw [ExtTreeMap.getElem?_filterMap', ExtTreeMap.getElem?_filterMap', h]
  rw [hfold, hfold, hmaps]

end Table
