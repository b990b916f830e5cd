import Mathlib.Data.List.Nodup
import Mathlib.Tactic.Common

/-!
# Rows with keys

A list of rows in which a row is replaced or removed by its key. Only the first row with a key is touched,
which makes no difference as long as no key is used twice.
-/

namespace KeyedRows

variable {α β κ : Type*} [DecidableEq κ] (key : α → κ)

/-- Replace the first row with the key of the new one. -/
def replace (row : α) : List α → List α
  | [] => []
  | old :: rows => if key old = key row then row :: rows else old :: replace row rows

/-- Remove the first row with the key. -/
def remove (k : κ) (rows : List α) : List α := rows.eraseP fun row => key row = k

variable {key} {row x : α} {k : κ} {rows : List α}

/-- A row is replaced at the first index with its key. -/
theorem replace_eq_set : replace key row rows =
    match rows.findIdx? fun old => key old = key row with
    | some i => rows.set i row
    | none => rows := by
  induction rows with
  | nil => rfl
  | cons old rows ih =>
    rw [replace, List.findIdx?_cons]
    by_cases hkey : key old = key row
    · simp [hkey]
    · rw [if_neg hkey, ih]
      cases rows.findIdx? fun old => key old = key row with
      | none => simp [hkey]
      | some i => simp [hkey]

/-- A row replaces itself. -/
theorem replace_eq_self (hsame : ∀ old ∈ rows, key old = key row → old = row) :
    replace key row rows = rows := by
  induction rows with
  | nil => rfl
  | cons old rows ih =>
    rw [replace]
    split
    next hkey => rw [hsame old List.mem_cons_self hkey]
    next => rw [ih fun other hother => hsame other (List.mem_cons_of_mem _ hother)]

/-- A replacement changes no key. -/
@[simp] theorem map_key_replace : (replace key row rows).map key = rows.map key := by
  induction rows with
  | nil => rfl
  | cons old rows ih =>
    rw [replace]
    split
    next hkey => rw [List.map_cons, List.map_cons, hkey]
    next => rw [List.map_cons, List.map_cons, ih]

/-- A removed row takes its key along. -/
@[simp] theorem map_key_remove : (remove key k rows).map key = (rows.map key).erase k := by
  rw [remove, List.erase_eq_eraseP', List.eraseP_map]
  rfl

/-- A map of the rows that keeps the keys keeps replacements. -/
theorem map_replace {key' : β → κ} {f : α → β} (hf : ∀ x, key' (f x) = key x) :
    (replace key row rows).map f = replace key' (f row) (rows.map f) := by
  induction rows with
  | nil => rfl
  | cons old rows ih =>
    rw [List.map_cons, replace, replace, hf, hf]
    split
    · rfl
    · rw [List.map_cons, ih]

/-- A map of the rows that keeps the keys keeps removals. -/
theorem map_remove {key' : β → κ} {f : α → β} (hf : ∀ x, key' (f x) = key x) :
    (remove key k rows).map f = remove key' k (rows.map f) := by
  rw [remove, remove, List.eraseP_map]
  simp only [Function.comp_def, hf]

omit [DecidableEq κ] in
/-- No later row has the key of the first one. -/
theorem ne_of_nodup {old : α} (hnodup : ((old :: rows).map key).Nodup) (hx : x ∈ rows) :
    key x ≠ key old := by
  intro hkey
  apply (List.nodup_cons.mp hnodup).1
  rw [← hkey]
  exact List.mem_map_of_mem hx

/-- The rows after a replacement, if no key is used twice. -/
theorem mem_replace (hnodup : (rows.map key).Nodup) :
    x ∈ replace key row rows ↔
      x = row ∧ key row ∈ rows.map key ∨ x ∈ rows ∧ key x ≠ key row := by
  induction rows with
  | nil => simp [replace]
  | cons old rows ih =>
    have hrest := (List.nodup_cons.mp hnodup).2
    rw [replace]
    split
    next hkey =>
      simp only [List.mem_cons, List.map_cons, hkey, true_or, and_true]
      refine or_congr_right ⟨fun hx => ⟨.inr hx, hkey ▸ ne_of_nodup hnodup hx⟩,
        fun hx => hx.1.resolve_left ?_⟩
      rintro rfl
      exact hx.2 hkey
    next hkey =>
      simp only [List.mem_cons, ih hrest, List.map_cons, Ne.symm hkey, false_or]
      constructor
      · rintro (rfl | hnew | hx)
        · exact .inr ⟨.inl rfl, hkey⟩
        · exact .inl hnew
        · exact .inr ⟨.inr hx.1, hx.2⟩
      · rintro (hnew | ⟨rfl | hx, hne⟩)
        · exact .inr (.inl hnew)
        · exact .inl rfl
        · exact .inr (.inr ⟨hx, hne⟩)

/-- The rows after a removal, if no key is used twice. -/
theorem mem_remove (hnodup : (rows.map key).Nodup) :
    x ∈ remove key k rows ↔ x ∈ rows ∧ key x ≠ k := by
  induction rows with
  | nil => simp [remove]
  | cons old rows ih =>
    have hrest := (List.nodup_cons.mp hnodup).2
    by_cases hkey : key old = k
    · have hfirst : remove key k (old :: rows) = rows := List.eraseP_cons_of_pos (decide_eq_true hkey)
      rw [hfirst, List.mem_cons]
      refine ⟨fun hx => ⟨.inr hx, hkey ▸ ne_of_nodup hnodup hx⟩, fun hx => hx.1.resolve_left ?_⟩
      rintro rfl
      exact hx.2 hkey
    · have hskip : remove key k (old :: rows) = old :: remove key k rows :=
        List.eraseP_cons_of_neg fun h => hkey (of_decide_eq_true h)
      rw [hskip, List.mem_cons, List.mem_cons, ih hrest]
      constructor
      · rintro (rfl | hx)
        · exact ⟨.inl rfl, hkey⟩
        · exact ⟨.inr hx.1, hx.2⟩
      · rintro ⟨rfl | hx, hne⟩
        · exact .inl rfl
        · exact .inr ⟨hx, hne⟩

end KeyedRows
