import Mathlib.Data.List.Basic

/-!
# Greedy patterns

A pattern is matched from the left. Its matches are tried in the order of preference, in which longer parts
come first, and the groups of the first complete match are captured.
-/

/-- Literal texts, arbitrary texts, groups, optional parts and sequences. -/
inductive GreedyPattern (α : Type*) where
  | literal (text : List α)
  | any
  | group (p : GreedyPattern α)
  | optional (p : GreedyPattern α)
  | seq (p q : GreedyPattern α)

namespace GreedyPattern

variable {α : Type*} [DecidableEq α]

/-- The number of groups of a pattern. -/
def groups : GreedyPattern α → ℕ
  | literal _ => 0
  | any => 0
  | group p => p.groups + 1
  | optional p => p.groups
  | seq p q => p.groups + q.groups

/-- The captured groups and the remaining text of all matches at the start of a text, in the order of
preference. -/
def candidates : GreedyPattern α → List α → List (List (List α) × List α)
  | literal text, s => if text <+: s then [([], s.drop text.length)] else []
  | any, s => (List.range (s.length + 1)).reverse.map fun k => ([], s.drop k)
  | group p, s => (p.candidates s).map fun found => (s.take (s.length - found.2.length) :: found.1, found.2)
  | optional p, s => p.candidates s ++ [(List.replicate p.groups [], s)]
  | seq p q, s => (p.candidates s).flatMap fun first =>
      (q.candidates first.2).map fun second => (first.1 ++ second.1, second.2)

/-- The groups of the preferred match of a whole text. -/
def exactMatch (p : GreedyPattern α) (s : List α) : Option (List (List α)) :=
  ((p.candidates s).find? fun found => found.2.isEmpty).map Prod.fst

/-- An optional group of an arbitrary text. -/
def anyGroup : GreedyPattern α := optional (group any)

/-- A sequence is matched by the first match of its front whose rest is matched. -/
theorem exactMatch_seq (p q : GreedyPattern α) (s : List α) :
    (seq p q).exactMatch s =
      (p.candidates s).findSome? fun first => (q.exactMatch first.2).map (first.1 ++ ·) := by
  rw [exactMatch, candidates]
  induction p.candidates s with
  | nil => rfl
  | cons first found ih =>
    rw [List.flatMap_cons, List.find?_append, List.findSome?_cons, exactMatch, List.find?_map]
    cases hfirst : (q.candidates first.2).find? fun second => second.2.isEmpty with
    | none =>
      have hnone : (q.candidates first.2).find? ((fun found => found.2.isEmpty) ∘
          fun second => (first.1 ++ second.1, second.2)) = none := hfirst
      rw [hnone, Option.map_none, Option.none_or, ih]
      rfl
    | some second =>
      have hsome : (q.candidates first.2).find? ((fun found => found.2.isEmpty) ∘
          fun second => (first.1 ++ second.1, second.2)) = some second := hfirst
      rw [hsome]
      rfl

/-- Behind a literal text the rest is matched. -/
theorem exactMatch_literal_append (text : List α) (q : GreedyPattern α) (s : List α) :
    (seq (literal text) q).exactMatch (text ++ s) = q.exactMatch s := by
  rw [exactMatch_seq, candidates, if_pos (List.prefix_append text s), List.findSome?_singleton,
    List.drop_left]
  cases q.exactMatch s <;> rfl

/-- A literal text that is missing is not matched. -/
theorem exactMatch_literal_of_not {text s : List α} (h : ¬ text <+: s) (q : GreedyPattern α) :
    (seq (literal text) q).exactMatch s = none := by
  rw [exactMatch_seq, candidates, if_neg h, List.findSome?_nil]

/-- The parts of an optional group are tried from the longest to the shortest. -/
theorem candidates_anyGroup (s : List α) :
    anyGroup.candidates s =
      ((List.range (s.length + 1)).reverse.map fun k => ([s.take k], s.drop k)) ++ [([[]], s)] := by
  rw [anyGroup, candidates, candidates, candidates, List.map_map]
  refine congrArg (· ++ [([[]], s)]) (List.map_congr_left fun k hk => ?_)
  have hle : k ≤ s.length := by
    rw [List.mem_reverse, List.mem_range] at hk
    omega
  have hlength : s.length - (s.length - k) = k := by omega
  rw [Function.comp_apply, List.length_drop, hlength]

/-- An optional group at the end takes the rest of the text. -/
@[simp] theorem exactMatch_anyGroup (s : List α) : anyGroup.exactMatch s = some [s] := by
  rw [exactMatch, candidates_anyGroup, List.range_succ, List.reverse_append, List.reverse_singleton,
    List.map_append, List.map_singleton, List.drop_length, List.take_length, List.append_assoc,
    List.singleton_append, List.find?_cons_of_pos rfl]
  rfl

/-- Two arbitrary texts on both sides of a separator. -/
def split (separator : List α) : GreedyPattern α := seq anyGroup (seq (literal separator) anyGroup)

omit [DecidableEq α] in
/-- A text has a last separator if it has one. -/
theorem exists_last_of_infix {separator s : List α} (hne : separator ≠ []) (h : separator <:+: s) :
    ∃ front back, s = front ++ separator ++ back ∧ ¬ separator <:+: back := by
  induction hlength : s.length using Nat.strongRecOn generalizing s with
  | ind n ih =>
    obtain ⟨front, back, rfl⟩ := h
    by_cases hback : separator <:+: back
    · have hlt : back.length < n := by
        have hpos := List.length_pos_iff.mpr hne
        rw [← hlength, List.length_append, List.length_append]
        omega
      obtain ⟨front', back', hsplit, hlast⟩ := ih back.length hlt hback rfl
      refine ⟨front ++ separator ++ front', back', ?_, hlast⟩
      rw [hsplit]
      simp only [List.append_assoc]
    · exact ⟨front, back, rfl, hback⟩

omit [DecidableEq α] in
/-- A separator whose first symbol does not return starts only behind the previous one. -/
theorem infix_of_prefix_drop {a : α} {rest t back : List α} (ha : a ∉ t) (d : ℕ)
    (h : a :: rest <+: (t ++ back).drop d) : a :: rest <:+: back := by
  induction t generalizing d with
  | nil => exact h.isInfix.trans (List.drop_suffix d back).isInfix
  | cons b t ih =>
    rw [List.mem_cons, not_or] at ha
    cases d with
    | zero =>
      rw [List.drop_zero, List.cons_append, List.cons_prefix_cons] at h
      exact absurd h.1 ha.1
    | succ d => exact ih ha.2 d h

omit [DecidableEq α] in
/-- The search from above finds the highest number with a result. -/
theorem findSome?_reverse_range {β : Type*} {f : ℕ → Option β} {k n : ℕ} {b : β} (hk : k < n)
    (hb : f k = some b) (hnone : ∀ j, k < j → j < n → f j = none) :
    (List.range n).reverse.findSome? f = some b := by
  induction n with
  | zero => exact absurd hk (Nat.not_lt_zero k)
  | succ n ih =>
    rw [List.range_succ, List.reverse_append, List.reverse_singleton, List.singleton_append,
      List.findSome?_cons]
    obtain hlt | rfl := Nat.lt_succ_iff_lt_or_eq.mp hk
    · rw [hnone n hlt (Nat.lt_succ_self n)]
      exact ih hlt fun j hkj hjn => hnone j hkj (Nat.lt_succ_of_lt hjn)
    · rw [hb]

/-- A text without the separator is not split. -/
theorem exactMatch_split_of_not_infix {separator s : List α} (h : ¬ separator <:+: s) :
    (split separator).exactMatch s = none := by
  rw [split, exactMatch_seq, List.findSome?_eq_none_iff, candidates_anyGroup]
  have hnone : ∀ k, (seq (literal separator) anyGroup).exactMatch (s.drop k) = none := fun k =>
    exactMatch_literal_of_not (fun hstart => h (hstart.isInfix.trans (List.drop_suffix k s).isInfix)) _
  intro found hfound
  rw [List.mem_append, List.mem_map, List.mem_singleton] at hfound
  obtain ⟨k, -, rfl⟩ | rfl := hfound
  · rw [hnone, Option.map_none]
  · rw [← List.drop_zero (l := s), hnone, Option.map_none]

/-- A text is split at its last separator. -/
theorem exactMatch_split {a : α} {t front back : List α} (ha : a ∉ t) (hlast : ¬ a :: t <:+: back) :
    (split (a :: t)).exactMatch (front ++ a :: t ++ back) = some [front, back] := by
  have hsome : (seq (literal (a :: t)) anyGroup).exactMatch
      ((front ++ a :: t ++ back).drop front.length) = some [back] := by
    rw [List.append_assoc, List.drop_left, exactMatch_literal_append, exactMatch_anyGroup]
  have hnone : ∀ j, front.length < j → (seq (literal (a :: t)) anyGroup).exactMatch
      ((front ++ a :: t ++ back).drop j) = none := by
    intro j hj
    obtain ⟨d, rfl⟩ := Nat.exists_eq_add_of_lt hj
    refine exactMatch_literal_of_not (fun hstart => hlast ?_) _
    rw [List.append_assoc, Nat.add_assoc, ← List.drop_drop, List.drop_left, List.cons_append,
      List.drop_succ_cons] at hstart
    exact infix_of_prefix_drop ha d hstart
  have hfind : (List.range ((front ++ a :: t ++ back).length + 1)).reverse.findSome? (fun k =>
      ((seq (literal (a :: t)) anyGroup).exactMatch ((front ++ a :: t ++ back).drop k)).map
        ([(front ++ a :: t ++ back).take k] ++ ·)) = some [front, back] := by
    refine findSome?_reverse_range (k := front.length) ?_ ?_ fun j hj _ => ?_
    · rw [List.length_append, List.length_append]
      omega
    · rw [hsome, List.append_assoc, List.take_left]
      rfl
    · rw [hnone j hj, Option.map_none]
  rw [split, exactMatch_seq, candidates_anyGroup, List.findSome?_append, List.findSome?_map]
  simp only [Function.comp_def]
  rw [hfind, Option.some_or]

end GreedyPattern
