import Mathlib.Algebra.Group.Int.Defs
import Mathlib.Algebra.Group.Nat.Defs
import Mathlib.Data.List.TakeWhile
import Ts3Video.Qt.Text

/-!
# Numbers in texts

A text is a number when it consists of decimal digits behind an optional sign. White space on both sides is
skipped. A text that is no number, or whose number is out of range, converts to zero.
-/

namespace Ts3Video

/-- White space. -/
def QChar.isSpace (c : Char) : Bool :=
  c = ' ' ∨ ('\t' ≤ c ∧ c ≤ '\r') ∨
    c.toNat ∈ [0x85, 0xa0, 0x1680, 0x2028, 0x2029, 0x202f, 0x205f, 0x3000] ∨
    (0x2000 ≤ c.toNat ∧ c.toNat ≤ 0x200a)

namespace QString

/-- A text without the white space on both sides. -/
def trimmed (s : List Char) : List Char :=
  (((s.dropWhile QChar.isSpace).reverse).dropWhile QChar.isSpace).reverse

/-- The value of a non-empty text of decimal digits. -/
def digitsValue (digits : List Char) : Option ℕ :=
  if digits = [] then none
  else digits.foldlM (fun value c => (digitValue c).map (10 * value + ·)) 0

/-- The value of decimal digits behind an optional sign. -/
def signedValue : List Char → Option ℤ
  | '-' :: digits => (digitsValue digits).map fun value : ℕ => -(value : ℤ)
  | '+' :: digits => (digitsValue digits).map Int.ofNat
  | digits => (digitsValue digits).map Int.ofNat

/-- The number in a text, if there is one in the range of a 32-bit integer. -/
def toInt? (s : String) : Option ℤ :=
  (signedValue (trimmed s.toList)).filter fun value => -2 ^ 31 ≤ value ∧ value < 2 ^ 31

/-- The number in a text, or zero. -/
def toInt (s : String) : ℤ := (toInt? s).getD 0

/-- The number in a text, if there is one without a minus in the range of an unsigned 64-bit integer. -/
def toULongLong? (s : String) : Option ℕ :=
  match trimmed s.toList with
  | '-' :: _ => none
  | '+' :: digits => (digitsValue digits).filter fun value => value < 2 ^ 64
  | digits => (digitsValue digits).filter fun value => value < 2 ^ 64

/-- The number without a minus in a text, or zero. -/
def toULongLong (s : String) : ℕ := (toULongLong? s).getD 0

/-- Only white space is trimmed. -/
theorem mem_trimmed {s : List Char} {c : Char} (hc : c ∈ s) (hspace : QChar.isSpace c = false) :
    c ∈ trimmed s := by
  have hdrop : ∀ {s : List Char}, c ∈ s → c ∈ s.dropWhile QChar.isSpace := by
    intro s hc
    rw [← List.takeWhile_append_dropWhile (p := QChar.isSpace) (l := s), List.mem_append] at hc
    obtain htake | hdrop := hc
    · exact absurd (List.mem_takeWhile_imp htake) (ne_true_of_eq_false hspace)
    · exact hdrop
  rw [trimmed, List.mem_reverse]
  exact hdrop (List.mem_reverse.mpr (hdrop hc))

/-- All characters of a text with a value are digits. -/
theorem digitValue_isSome_of_mem {digits : List Char} {value : ℕ} (h : digitsValue digits = some value)
    {c : Char} (hc : c ∈ digits) : (digitValue c).isSome := by
  have hfold : ∀ (digits : List Char) (start value : ℕ),
      digits.foldlM (fun value c => (digitValue c).map (10 * value + ·)) start = some value →
      ∀ c ∈ digits, (digitValue c).isSome := by
    intro digits
    induction digits with
    | nil => intro _ _ _ c hc; exact absurd hc List.not_mem_nil
    | cons d digits ih =>
      intro start value h c hc
      rw [List.foldlM_cons, Option.bind_eq_bind, Option.bind_eq_some_iff] at h
      obtain ⟨next, hnext, hrest⟩ := h
      obtain rfl | hc := List.mem_cons.mp hc
      · obtain ⟨digit, hdigit, -⟩ := Option.map_eq_some_iff.mp hnext
        exact Option.isSome_of_eq_some hdigit
      · exact ih next value hrest c hc
  rw [digitsValue] at h
  split at h
  · contradiction
  · exact hfold digits 0 value h c hc

/-- The characters of a text with a number are white space, signs and digits. -/
theorem mem_of_toInt? {s : String} {value : ℤ} (h : toInt? s = some value) {c : Char} (hc : c ∈ s.toList) :
    QChar.isSpace c ∨ c = '-' ∨ c = '+' ∨ (digitValue c).isSome := by
  cases hspace : QChar.isSpace c with
  | true => exact .inl rfl
  | false =>
    right
    have hmem := mem_trimmed hc hspace
    rw [toInt?, Option.filter_eq_some_iff] at h
    obtain ⟨hsigned, -⟩ := h
    unfold signedValue at hsigned
    split at hsigned
    next digits heq =>
      rw [heq] at hmem
      obtain ⟨digits', hdigits, -⟩ := Option.map_eq_some_iff.mp hsigned
      exact (List.mem_cons.mp hmem).imp id fun hmem => .inr (digitValue_isSome_of_mem hdigits hmem)
    next digits heq =>
      rw [heq] at hmem
      obtain ⟨digits', hdigits, -⟩ := Option.map_eq_some_iff.mp hsigned
      exact .inr ((List.mem_cons.mp hmem).imp id fun hmem => digitValue_isSome_of_mem hdigits hmem)
    next =>
      obtain ⟨digits', hdigits, -⟩ := Option.map_eq_some_iff.mp hsigned
      exact .inr (.inr (digitValue_isSome_of_mem hdigits hmem))

/-- A digit is neither white space nor a sign. -/
theorem digit_plain {c : Char} (h : (digitValue c).isSome) :
    QChar.isSpace c = false ∧ c ≠ '-' ∧ c ≠ '+' ∧ c ≠ '.' ∧ c ≠ '*' := by
  have hrange : '0' ≤ c ∧ c ≤ '9' := by
    rw [digitValue] at h
    split at h
    · next hrange => exact hrange
    · contradiction
  have hlow : 48 ≤ c.toNat := hrange.1
  have hhigh : c.toNat ≤ 57 := hrange.2
  have hother : ∀ d : Char, d.toNat < 48 → c ≠ d := by
    rintro d hd rfl
    omega
  refine ⟨?_, hother _ (by decide), hother _ (by decide), hother _ (by decide), hother _ (by decide)⟩
  have htab : ¬ ('\t' ≤ c ∧ c ≤ '\r') := by
    rintro ⟨-, hle⟩
    have hle : c.toNat ≤ 13 := hle
    omega
  have hspaces : c.toNat ∉ [0x85, 0xa0, 0x1680, 0x2028, 0x2029, 0x202f, 0x205f, 0x3000] := by
    intro hmem
    simp only [List.mem_cons, List.not_mem_nil, or_false] at hmem
    omega
  rw [QChar.isSpace, decide_eq_false_iff_not]
  rintro (hspace | htabs | hlisted | hwide)
  · exact hother ' ' (by decide) hspace
  · exact htab htabs
  · exact hspaces hlisted
  · omega

/-- Nothing is trimmed from a text without white space. -/
theorem trimmed_eq {s : List Char} (h : ∀ c ∈ s, QChar.isSpace c = false) : trimmed s = s := by
  have hdrop : ∀ s : List Char, (∀ c ∈ s, QChar.isSpace c = false) → s.dropWhile QChar.isSpace = s := by
    rintro (_ | ⟨c, s⟩) h
    · rfl
    · rw [List.dropWhile_cons, h c List.mem_cons_self]
      rfl
  rw [trimmed, hdrop s h, hdrop s.reverse fun c hc => h c (List.mem_reverse.mp hc), List.reverse_reverse]

/-- A text of digits is read as its value, or as zero if that is out of range. -/
theorem toInt_of_digits {s : String} {value : ℕ} (h : digitsValue s.toList = some value) :
    toInt s = if value < 2 ^ 31 then (value : ℤ) else 0 := by
  have hdigits : ∀ c ∈ s.toList, (digitValue c).isSome := fun c hc => digitValue_isSome_of_mem h hc
  have hsigned : signedValue s.toList = some (value : ℤ) := by
    unfold signedValue
    split
    · next heq => exact absurd rfl (digit_plain (hdigits '-' (heq ▸ List.mem_cons_self))).2.1
    · next heq => exact absurd rfl (digit_plain (hdigits '+' (heq ▸ List.mem_cons_self))).2.2.1
    · rw [h]
      rfl
  rw [toInt, toInt?, trimmed_eq fun c hc => (digit_plain (hdigits c hc)).1, hsigned]
  by_cases hlt : value < 2 ^ 31
  · have hin : -2 ^ 31 ≤ (value : ℤ) ∧ (value : ℤ) < 2 ^ 31 := by omega
    rw [if_pos hlt, Option.filter_some, if_pos (decide_eq_true hin), Option.getD_some]
  · have hout : ¬ (-2 ^ 31 ≤ (value : ℤ) ∧ (value : ℤ) < 2 ^ 31) := by omega
    rw [if_neg hlt, Option.filter_some, decide_eq_false hout]
    rfl

end QString

end Ts3Video
