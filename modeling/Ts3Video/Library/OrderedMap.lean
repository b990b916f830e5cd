import Mathlib.Data.List.Basic
import Mathlib.Logic.Function.Iterate

/-!
# Bounded ordered maps

An ordered map whose smallest entries are discarded until at most a given number is left. The
entries that survive are unchanged, and the entry with the greatest key always survives.
-/

namespace OrderedMap

open Std

variable {κ ν : Type*} [Ord κ] [TransOrd κ]

/-- The entry with the smallest key, if there is one. -/
def first? (m : ExtTreeMap κ ν) : Option (κ × ν) := m.toList.head?

/-- Discard the entry with the smallest key. -/
def eraseFirst (m : ExtTreeMap κ ν) : ExtTreeMap κ ν :=
  match first? m with
  | none => m
  | some (k, _) => m.erase k

/-- Discard the smallest entries as long as there are more than `bound`. -/
def trim (bound : ℕ) (m : ExtTreeMap κ ν) : ExtTreeMap κ ν :=
  eraseFirst^[m.size - bound] m

/-- Only the empty map has no first entry. -/
theorem first?_eq_none {m : ExtTreeMap κ ν} : first? m = none ↔ m = ∅ := by
  rw [first?, List.head?_eq_none_iff, ExtTreeMap.toList_eq_nil_iff]

/-- Discarding the first entry leaves the remaining entries as they were. -/
theorem getElem?_eraseFirst_eq_some {m : ExtTreeMap κ ν} {k : κ} {v : ν}
    (h : (eraseFirst m)[k]? = some v) : m[k]? = some v := by
  unfold eraseFirst at h
  split at h
  · exact h
  · rw [ExtTreeMap.getElem?_erase] at h
    split at h
    · contradiction
    · exact h

/-- A non-empty map has a first entry. -/
theorem exists_first? {m : ExtTreeMap κ ν} {k : κ} (hk : k ∈ m) : ∃ entry, first? m = some entry := by
  cases h : first? m with
  | none =>
    rw [first?_eq_none.mp h] at hk
    exact absurd hk ExtTreeMap.not_mem_empty
  | some entry => exact ⟨entry, rfl⟩

/-- A trimmed map holds only entries of the original map. -/
theorem getElem?_trim_eq_some {bound : ℕ} {m : ExtTreeMap κ ν} {k : κ} {v : ν}
    (h : (trim bound m)[k]? = some v) : m[k]? = some v := by
  unfold trim at h
  generalize m.size - bound = count at h
  induction count generalizing m with
  | zero => exact h
  | succ count ih => exact getElem?_eraseFirst_eq_some (ih h)

/-- A map within the bound is not trimmed. -/
theorem trim_of_size_le {bound : ℕ} {m : ExtTreeMap κ ν} (h : m.size ≤ bound) :
    trim bound m = m := by
  rw [trim, Nat.sub_eq_zero_of_le h, Function.iterate_zero_apply]

variable [LawfulEqOrd κ]

/-- The first entry is in the map, and every other key comes after its key. -/
theorem first?_eq_some {m : ExtTreeMap κ ν} {k : κ} {v : ν} (h : first? m = some (k, v)) :
    m[k]? = some v ∧ ∀ k' ∈ m, k' = k ∨ compare k k' = .lt := by
  obtain ⟨rest, hlist⟩ := List.head?_eq_some_iff.mp h
  have hsorted := ExtTreeMap.ordered_keys_toList (t := m)
  rw [hlist, List.pairwise_cons] at hsorted
  refine ⟨ExtTreeMap.mem_toList_iff_getElem?_eq_some.mp (by simp [hlist]), fun k' hk' => ?_⟩
  have hentry : (k', m[k']) ∈ m.toList :=
    ExtTreeMap.mem_toList_iff_getElem?_eq_some.mpr (ExtTreeMap.getElem?_eq_some_getElem hk')
  rw [hlist, List.mem_cons] at hentry
  rcases hentry with heq | hrest
  · exact Or.inl (congrArg Prod.fst heq)
  · exact Or.inr (hsorted.1 _ hrest)

/-- Nothing is left when the only entry of a map is removed. -/
theorem erase_insert_empty (k : κ) (v : ν) : ((∅ : ExtTreeMap κ ν).insert k v).erase k = ∅ := by
  apply ExtTreeMap.ext_getElem?
  intro k'
  simp only [ExtTreeMap.getElem?_erase, ExtTreeMap.getElem?_insert]
  split <;> rfl

/-- The only entry of a map is its first one. -/
theorem first?_insert_empty (k : κ) (v : ν) :
    first? ((∅ : ExtTreeMap κ ν).insert k v) = some (k, v) := by
  have hmem : k ∈ (∅ : ExtTreeMap κ ν).insert k v := ExtTreeMap.mem_insert_self
  obtain ⟨⟨k', v'⟩, h⟩ := exists_first? hmem
  have hget := (first?_eq_some h).1
  rw [ExtTreeMap.getElem?_insert] at hget
  split at hget
  next heq =>
    rw [h, Std.compare_eq_iff_eq.mp heq, Option.some.inj hget]
  next => simp at hget

/-- Discarding the first of several entries removes exactly one of them. -/
theorem size_eraseFirst (m : ExtTreeMap κ ν) : (eraseFirst m).size = m.size - 1 := by
  unfold eraseFirst
  split
  next h => rw [first?_eq_none.mp h]; rfl
  next k v h =>
    have hk : k ∈ m := ExtTreeMap.mem_iff_isSome_getElem?.mpr (by simp [(first?_eq_some h).1])
    simp [ExtTreeMap.size_erase, hk]

/-- The greatest of several entries is not the first one, so it survives. -/
theorem getElem?_eraseFirst_greatest {m : ExtTreeMap κ ν} {k : κ}
    (hgreatest : ∀ k' ∈ m, k' = k ∨ compare k' k = .lt) (hsize : 1 < m.size) :
    (eraseFirst m)[k]? = m[k]? := by
  unfold eraseFirst
  split
  · rfl
  next k₀ v h =>
    rw [ExtTreeMap.getElem?_erase, if_neg]
    intro heq
    rw [Std.compare_eq_iff_eq] at heq
    subst heq
    have hall : ∀ k' ∈ m.keys, k' = k₀ := by
      intro k' hk'
      rw [ExtTreeMap.mem_keys] at hk'
      rcases hgreatest k' hk' with heq | hlt
      · exact heq
      · rcases (first?_eq_some h).2 k' hk' with heq | hgt
        · exact heq
        · rw [OrientedOrd.eq_swap, hlt] at hgt
          contradiction
    have hkeys := List.eq_replicate_of_mem hall
    have hnodup := ExtTreeMap.nodup_keys (t := m)
    rw [hkeys, List.nodup_replicate, ExtTreeMap.length_keys] at hnodup
    omega

/-- The entry with the greatest key is never discarded while the bound is positive. -/
theorem getElem?_trim_greatest {bound : ℕ} {m : ExtTreeMap κ ν} {k : κ} (hbound : 0 < bound)
    (hgreatest : ∀ k' ∈ m, k' = k ∨ compare k' k = .lt) : (trim bound m)[k]? = m[k]? := by
  suffices h : ∀ (count : ℕ) (m : ExtTreeMap κ ν), count < m.size ∨ count = 0 →
      (∀ k' ∈ m, k' = k ∨ compare k' k = .lt) → (eraseFirst^[count] m)[k]? = m[k]? by
    exact h _ m (by omega) hgreatest
  intro count
  induction count with
  | zero => intro m _ _; rfl
  | succ count ih =>
    intro m hcount hgreatest
    have hsize := size_eraseFirst m
    rw [Function.iterate_succ_apply, ih (eraseFirst m) (by omega),
      getElem?_eraseFirst_greatest hgreatest (by omega)]
    intro k' hk'
    have hsome := ExtTreeMap.getElem?_eq_some_getElem hk'
    exact hgreatest k' (ExtTreeMap.mem_iff_isSome_getElem?.mpr
      (by simp [getElem?_eraseFirst_eq_some hsome]))

/-- A map has at most as many entries as it is trimmed to. -/
theorem size_trim_le (bound : ℕ) (m : ExtTreeMap κ ν) : (trim bound m).size ≤ bound := by
  suffices h : ∀ (count : ℕ) (m : ExtTreeMap κ ν), (eraseFirst^[count] m).size = m.size - count by
    rw [trim, h]
    omega
  intro count
  induction count with
  | zero => exact fun _ => rfl
  | succ count ih =>
    intro m
    rw [Function.iterate_succ_apply, ih, size_eraseFirst]
    omega

/-- If there is one entry too many, the entry that comes before all the others is discarded. -/
theorem trim_of_size_succ {bound : ℕ} {m : ExtTreeMap κ ν} (h : m.size = bound + 1) :
    ∃ k ∈ m, (∀ k' ∈ m, k' = k ∨ compare k k' = .lt) ∧ trim bound m = m.erase k := by
  rw [trim, h, Nat.add_sub_cancel_left, Function.iterate_one]
  unfold eraseFirst
  cases hfirst : first? m with
  | none =>
    rw [first?_eq_none.mp hfirst, ExtTreeMap.size_empty] at h
    omega
  | some entry =>
    obtain ⟨hget, hleast⟩ := first?_eq_some hfirst
    have hmem : entry.1 ∈ m := ExtTreeMap.mem_iff_isSome_getElem?.mpr (by rw [hget]; rfl)
    exact ⟨entry.1, hmem, hleast, rfl⟩

omit [LawfulEqOrd κ] in
/-- A new entry adds one to the size. -/
theorem size_insert_of_not_mem {m : ExtTreeMap κ ν} {k : κ} (v : ν) (h : k ∉ m) :
    (m.insert k v).size = m.size + 1 := by
  rw [ExtTreeMap.size_insert]
  exact if_neg h

omit [LawfulEqOrd κ] in
/-- A removed entry takes one from the size. -/
theorem size_erase_of_mem {m : ExtTreeMap κ ν} {k : κ} (h : k ∈ m) :
    (m.erase k).size = m.size - 1 := by
  rw [ExtTreeMap.size_erase]
  exact if_pos h

/-- A new entry that comes before all the others of a full map is discarded at once. -/
theorem trim_insert_least {bound : ℕ} {m : ExtTreeMap κ ν} {k : κ} (v : ν) (hnew : k ∉ m)
    (hfull : m.size = bound) (hleast : ∀ k' ∈ m, compare k k' = .lt) :
    trim bound (m.insert k v) = m := by
  have hsize : (m.insert k v).size = bound + 1 := by rw [size_insert_of_not_mem v hnew, hfull]
  obtain ⟨k₀, hmem, hbefore, htrim⟩ := trim_of_size_succ hsize
  have hk : k₀ = k := by
    rcases ExtTreeMap.mem_insert.mp hmem with heq | hold
    · exact (Std.compare_eq_iff_eq.mp heq).symm
    · rcases hbefore k ExtTreeMap.mem_insert_self with hsame | hlt
      · exact hsame.symm
      · rw [OrientedOrd.eq_swap, hleast k₀ hold] at hlt
        contradiction
  subst hk
  rw [htrim]
  apply ExtTreeMap.ext_getElem?
  intro k'
  rw [ExtTreeMap.getElem?_erase, ExtTreeMap.getElem?_insert]
  split
  next heq => rw [← Std.compare_eq_iff_eq.mp heq, ExtTreeMap.getElem?_eq_none hnew]
  next => rfl

/-- Any other entry survives its own insertion. -/
theorem getElem?_trim_insert {bound : ℕ} {m : ExtTreeMap κ ν} {k : κ} (v : ν) (hsize : m.size ≤ bound)
    (hstays : ¬ (k ∉ m ∧ m.size = bound ∧ ∀ k' ∈ m, compare k k' = .lt)) :
    (trim bound (m.insert k v))[k]? = some v := by
  by_cases hfits : (m.insert k v).size ≤ bound
  · rw [trim_of_size_le hfits, ExtTreeMap.getElem?_insert_self]
  · have hnew : k ∉ m := by
      intro hmem
      rw [ExtTreeMap.size_insert] at hfits
      exact hfits (le_of_eq_of_le (if_pos hmem) hsize)
    rw [size_insert_of_not_mem v hnew] at hfits
    have hfull : m.size = bound := by omega
    obtain ⟨k₀, -, hbefore, htrim⟩ :=
      trim_of_size_succ (m := m.insert k v) (by rw [size_insert_of_not_mem v hnew, hfull])
    rw [htrim, ExtTreeMap.getElem?_erase, if_neg, ExtTreeMap.getElem?_insert_self]
    intro heq
    obtain rfl := Std.compare_eq_iff_eq.mp heq
    refine hstays ⟨hnew, hfull, fun k' hk' => ?_⟩
    refine (hbefore k' (ExtTreeMap.mem_insert.mpr (.inr hk'))).resolve_left ?_
    rintro rfl
    exact hnew hk'

/-- Where at most one entry is discarded, all the others stay. -/
theorem trim_eq_erase {bound : ℕ} {m : ExtTreeMap κ ν} {k : κ} (hsize : m.size ≤ bound + 1)
    (hk : k ∈ m) (hgone : k ∉ trim bound m) : trim bound m = m.erase k ∧ m.size = bound + 1 := by
  rcases Nat.lt_or_eq_of_le hsize with hlt | heq
  · rw [trim_of_size_le (Nat.le_of_lt_succ hlt)] at hgone
    exact absurd hk hgone
  · obtain ⟨k₀, -, -, htrim⟩ := trim_of_size_succ heq
    refine ⟨?_, heq⟩
    rw [htrim, ExtTreeMap.mem_erase, not_and_or, not_not] at hgone
    rcases hgone with hsame | hnot
    · rw [htrim, Std.compare_eq_iff_eq.mp hsame]
    · exact absurd hk hnot

end OrderedMap
