import Mathlib.Data.Int.Order.Basic
import Mathlib.Data.Nat.Basic
import Ts3Video.Library.WildcardOrder
import Ts3Video.Qt.Number

/-!
# Versions of a licence

A licence names versions of the software. The version of a licence is compared with the one of the software
part by part, and each part has to be large enough by itself. This is the order of versions only if the
first difference agrees with all later parts.
-/

namespace Ts3Video.LicenseManager

open WildcardOrder

/-- Compare the parts of two versions, as long as there are parts of both. -/
def partsValid : List String → List String → Bool
  | sof :: softwareVersionParts, part :: l =>
    if part = "*" then partsValid softwareVersionParts l
    else
      let sofNum := QString.toInt sof
      let licNum := QString.toInt part
      if licNum < sofNum then false else partsValid softwareVersionParts l
  | _, _ => true

/-- Check a version of a licence against the version of the software. -/
def isVersionValid (softwareVersion version : String) : Bool :=
  partsValid (QString.splitSkipEmptyParts softwareVersion '.') (QString.splitSkipEmptyParts version '.')

/-- A decimal number without a sign. -/
structure Numeral where
  text : String
  value : ℕ
  digits : QString.digitsValue text.toList = some value

/-- A part of a licence version. -/
inductive LicencePart where
  | any
  | number (numeral : Numeral)

/-- The text of a part. -/
def LicencePart.text : LicencePart → String
  | .any => "*"
  | .number numeral => numeral.text

/-- The number of a part. -/
def LicencePart.value : LicencePart → Option ℕ
  | .any => none
  | .number numeral => some numeral.value

/-- The text of a version. -/
def versionText (parts : List String) : String := String.ofList (['.'].intercalate (parts.map String.toList))

/-- The parts that are compared, over the common length of both versions. -/
def compared (software : List Numeral) (licence : List LicencePart) : List (ℕ × Option ℕ) :=
  (software.map Numeral.value).zip (licence.map LicencePart.value)

/-- The number that a part is read as. -/
def readInt (value : ℕ) : ℤ := if value < 2 ^ 31 then value else 0

/-- Whether a licence version is valid for a software version. -/
def valid (software : List Numeral) (licence : List LicencePart) : Bool :=
  isVersionValid (versionText (software.map Numeral.text)) (versionText (licence.map LicencePart.text))

/-- The text of a number is not empty and has digits only. -/
theorem Numeral.plain (numeral : Numeral) :
    numeral.text ≠ "" ∧ '.' ∉ numeral.text.toList ∧ '*' ∉ numeral.text.toList := by
  have hdigit : ∀ c ∈ numeral.text.toList, (QString.digitValue c).isSome := fun c hc =>
    QString.digitValue_isSome_of_mem numeral.digits hc
  refine ⟨fun hempty => ?_, fun hdot => ?_, fun hstar => ?_⟩
  · have hnone := numeral.digits
    rw [hempty] at hnone
    exact absurd hnone.symm (Option.some_ne_none numeral.value)
  · exact (QString.digit_plain (hdigit '.' hdot)).2.2.2.1 rfl
  · exact (QString.digit_plain (hdigit '*' hstar)).2.2.2.2 rfl

/-- The text of a number is read as the number, if it is in range. -/
theorem Numeral.toInt_text (numeral : Numeral) : QString.toInt numeral.text = readInt numeral.value :=
  QString.toInt_of_digits numeral.digits

/-- The parts of a version are found between its dots. -/
theorem splitSkipEmptyParts_versionText {parts : List String}
    (h : ∀ part ∈ parts, part ≠ "" ∧ '.' ∉ part.toList) :
    QString.splitSkipEmptyParts (versionText parts) '.' = parts := by
  rw [QString.splitSkipEmptyParts, versionText, String.toList_ofList]
  by_cases hnil : parts = []
  · subst hnil
    rfl
  · have hplain : ∀ part ∈ parts.map String.toList, '.' ∉ part := by
      intro part hpart
      obtain ⟨text, htext, rfl⟩ := List.mem_map.mp hpart
      exact (h text htext).2
    have hkeep : (parts.map String.toList).filter (· ≠ []) = parts.map String.toList := by
      refine List.filter_eq_self.mpr fun part hpart => ?_
      obtain ⟨text, htext, rfl⟩ := List.mem_map.mp hpart
      simpa using (h text htext).1
    rw [List.splitOn_intercalate '.' hplain (by simpa using hnil), hkeep, List.map_map]
    simp

/-- Each part is compared by itself, as it is read. -/
theorem partsValid_iff (software : List Numeral) (licence : List LicencePart) :
    partsValid (software.map Numeral.text) (licence.map LicencePart.text) = true ↔
      ∀ pair ∈ compared software licence, ¬ Smaller readInt pair := by
  induction software generalizing licence with
  | nil => simp [partsValid, compared]
  | cons sof software ih =>
    cases licence with
    | nil => simp [partsValid, compared]
    | cons part licence =>
      change partsValid (sof.text :: software.map Numeral.text) (part.text :: licence.map LicencePart.text) =
        true ↔ ∀ pair ∈ (sof.value, part.value) :: compared software licence, ¬ Smaller readInt pair
      rw [List.forall_mem_cons, partsValid]
      cases part with
      | any =>
        rw [LicencePart.value, LicencePart.text, if_pos rfl, and_iff_right (not_smaller_none readInt _)]
        exact ih licence
      | number numeral =>
        have hstar : (LicencePart.number numeral).text ≠ "*" := by
          intro hstar
          have hmem := numeral.plain.2.2
          rw [show numeral.text = "*" from hstar] at hmem
          exact hmem (by decide)
        rw [if_neg hstar, LicencePart.value, LicencePart.text, smaller_some_iff, numeral.toInt_text,
          sof.toInt_text]
        by_cases hless : readInt numeral.value < readInt sof.value
        · rw [if_pos hless]
          exact iff_of_false Bool.false_ne_true fun h => h.1 hless
        · rw [if_neg hless, and_iff_right hless]
          exact ih licence

/-- A version is valid if no part is read as less than the part of the software. -/
theorem valid_iff (software : List Numeral) (licence : List LicencePart) :
    valid software licence = true ↔ ∀ pair ∈ compared software licence, ¬ Smaller readInt pair := by
  have hsoftware : ∀ part ∈ software.map Numeral.text, part ≠ "" ∧ '.' ∉ part.toList := by
    intro part hpart
    obtain ⟨numeral, -, rfl⟩ := List.mem_map.mp hpart
    exact ⟨numeral.plain.1, numeral.plain.2.1⟩
  have hlicence : ∀ part ∈ licence.map LicencePart.text, part ≠ "" ∧ '.' ∉ part.toList := by
    intro part hpart
    obtain ⟨_ | numeral, -, rfl⟩ := List.mem_map.mp hpart
    · decide
    · exact ⟨numeral.plain.1, numeral.plain.2.1⟩
  rw [valid, isVersionValid, splitSkipEmptyParts_versionText hsoftware,
    splitSkipEmptyParts_versionText hlicence, partsValid_iff]

/-- A licence version is valid just if it is at least the software version in the order of versions, exactly
if the first difference decides; among those versions a greater earlier part keeps a version valid. -/
theorem valid_iff_atLeast_iff (software : List Numeral) (licence : List LicencePart) :
    ((valid software licence = true ↔ AtLeast (compared software licence)) ↔
        FirstDecides readInt (compared software licence)) ∧
      ∀ licence' : List LicencePart,
        Raised (licence.map LicencePart.value) (licence'.map LicencePart.value) →
        FirstDecides readInt (compared software licence) →
        FirstDecides readInt (compared software licence') →
        valid software licence = true → valid software licence' = true := by
  have hiff : ∀ licence : List LicencePart,
      (valid software licence = true ↔ AtLeast (compared software licence)) ↔
        FirstDecides readInt (compared software licence) := by
    intro licence
    rw [valid_iff]
    exact forall_not_smaller_iff_atLeast_iff readInt (compared software licence)
  refine ⟨hiff licence, fun licence' hraised hfirst hfirst' hvalid => ?_⟩
  have hatLeast := ((hiff licence).mpr hfirst).mp hvalid
  exact ((hiff licence').mpr hfirst').mpr (hatLeast.raise hraised)

/-- The number that a text of digits stands for. -/
def numeral (text : String) (value : ℕ) (h : QString.digitsValue text.toList = some value) : LicencePart :=
  .number ⟨text, value, h⟩

/-- Version 1.3 of the software is covered by the versions 1.4 and 2.5. -/
theorem valid_iff_atLeast_iff_covered :
    valid [⟨"1", 1, rfl⟩, ⟨"3", 3, rfl⟩] [numeral "1" 1 rfl, numeral "4" 4 rfl] = true ∧
      valid [⟨"1", 1, rfl⟩, ⟨"3", 3, rfl⟩] [numeral "2" 2 rfl, numeral "5" 5 rfl] = true := by
  obtain ⟨-, hraise⟩ := valid_iff_atLeast_iff [⟨"1", 1, rfl⟩, ⟨"3", 3, rfl⟩]
    [numeral "1" 1 rfl, numeral "4" 4 rfl]
  have hvalid : valid [⟨"1", 1, rfl⟩, ⟨"3", 3, rfl⟩] [numeral "1" 1 rfl, numeral "4" 4 rfl] = true := by
    decide +kernel
  refine ⟨hvalid, hraise [numeral "2" 2 rfl, numeral "5" 5 rfl] ?_ ?_ ?_ hvalid⟩
  · exact ⟨[], 1, 2, [some 4], [some 5], rfl, rfl, by decide⟩
  · simp [compared, FirstDecides, numeral, LicencePart.value, readInt]
  · simp [compared, FirstDecides, numeral, LicencePart.value, readInt]

/-- Version 1.3 of the software is not covered by version 2.0, but by version 1.4. -/
theorem valid_refusesNewer :
    ¬ (valid [⟨"1", 1, rfl⟩, ⟨"3", 3, rfl⟩] [numeral "2" 2 rfl, numeral "0" 0 rfl] = true ↔
        AtLeast (compared [⟨"1", 1, rfl⟩, ⟨"3", 3, rfl⟩] [numeral "2" 2 rfl, numeral "0" 0 rfl])) ∧
      valid [⟨"1", 1, rfl⟩, ⟨"3", 3, rfl⟩] [numeral "1" 1 rfl, numeral "4" 4 rfl] = true := by
  refine ⟨fun h => ?_, by decide +kernel⟩
  have hinvalid : valid [⟨"1", 1, rfl⟩, ⟨"3", 3, rfl⟩] [numeral "2" 2 rfl, numeral "0" 0 rfl] = false := by
    decide +kernel
  rw [hinvalid] at h
  exact Bool.false_ne_true (h.mpr (.inl (by decide : 1 < 2)))

end Ts3Video.LicenseManager
