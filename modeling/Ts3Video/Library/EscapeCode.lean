import Mathlib.Data.List.Basic

/-!
# Escaped and separated texts

Some symbols are written as a mark followed by a letter, so that they can serve as separators outside the
escaped texts. Reading the marks back recovers the text, and splitting at the separators recovers the parts.
-/

namespace EscapeCode

variable {α : Type*} [DecidableEq α]

/-- Read a text in which a mark followed by a letter stands for a symbol. -/
def decode (mark : α) (symbol : α → Option α) : List α → List α
  | [] => []
  | [c] => [c]
  | c :: letter :: rest =>
    if c = mark then
      match symbol letter with
      | some original => original :: decode mark symbol rest
      | none => c :: letter :: decode mark symbol rest
    else c :: decode mark symbol (letter :: rest)

/-- A symbol is written as itself, or as the mark and a letter that is read as the symbol. -/
def IsCode (mark : α) (symbol : α → Option α) (encode : α → List α) : Prop :=
  ∀ c, (c ≠ mark ∧ encode c = [c]) ∨ ∃ letter, symbol letter = some c ∧ encode c = [mark, letter]

variable {mark : α} {symbol : α → Option α}

/-- A symbol other than the mark stands for itself. -/
theorem decode_cons_of_ne {c : α} (h : c ≠ mark) (rest : List α) :
    decode mark symbol (c :: rest) = c :: decode mark symbol rest := by
  cases rest with
  | nil => rfl
  | cons letter rest => rw [decode, if_neg h]

/-- The mark and a letter stand for the letter's symbol. -/
theorem decode_mark_cons {letter c : α} (h : symbol letter = some c) (rest : List α) :
    decode mark symbol (mark :: letter :: rest) = c :: decode mark symbol rest := by
  rw [decode, if_pos rfl, h]

/-- Reading undoes the writing of every text. -/
theorem IsCode.decode_flatMap {encode : α → List α} (h : IsCode mark symbol encode) (text : List α) :
    decode mark symbol (text.flatMap encode) = text := by
  induction text with
  | nil => rfl
  | cons c text ih =>
    rw [List.flatMap_cons]
    obtain ⟨hne, hcode⟩ | ⟨letter, hletter, hcode⟩ := h c
    · rw [hcode, List.cons_append, List.nil_append, decode_cons_of_ne hne, ih]
    · rw [hcode, List.cons_append, List.cons_append, List.nil_append, decode_mark_cons hletter, ih]

omit [DecidableEq α] in
/-- The first part and then each further part after a separator: the parts joined. -/
theorem intercalate_cons (separator part : List α) (parts : List (List α)) :
    separator.intercalate (part :: parts) = part ++ parts.flatMap (separator ++ ·) := by
  induction parts generalizing part with
  | nil => rw [List.intercalate_singleton, List.flatMap_nil, List.append_nil]
  | cons next parts ih =>
    rw [List.intercalate_cons_cons, ih, List.flatMap_cons, List.append_assoc, List.append_assoc]

omit [DecidableEq α] in
/-- The symbols of joined parts are those of the separator and of the parts. -/
theorem mem_intercalate {separator : List α} {parts : List (List α)} {c : α}
    (h : c ∈ separator.intercalate parts) : c ∈ separator ∨ ∃ part ∈ parts, c ∈ part := by
  cases parts with
  | nil => exact absurd h List.not_mem_nil
  | cons part parts =>
    rw [intercalate_cons, List.mem_append, List.mem_flatMap] at h
    obtain hfirst | ⟨next, hnext, hc⟩ := h
    · exact .inr ⟨part, List.mem_cons_self, hfirst⟩
    · exact (List.mem_append.mp hc).imp id fun hc => ⟨next, List.mem_cons_of_mem _ hnext, hc⟩

/-- The text up to the first separator, and the rest behind it if there is a separator. -/
def splitFirst (separator : α) : List α → List α × Option (List α)
  | [] => ([], none)
  | c :: rest =>
    if c = separator then ([], some rest)
    else (c :: (splitFirst separator rest).1, (splitFirst separator rest).2)

/-- A text is split at the first separator behind a part that has none. -/
theorem splitFirst_append {separator : α} {part : List α} (h : separator ∉ part) (rest : List α) :
    splitFirst separator (part ++ separator :: rest) = (part, some rest) := by
  induction part with
  | nil => rw [List.nil_append, splitFirst, if_pos rfl]
  | cons c part ih =>
    rw [List.mem_cons, not_or] at h
    rw [List.cons_append, splitFirst, if_neg (Ne.symm h.1), ih h.2]

/-- A text without a separator is not split. -/
theorem splitFirst_of_not_mem {separator : α} {part : List α} (h : separator ∉ part) :
    splitFirst separator part = (part, none) := by
  induction part with
  | nil => rfl
  | cons c part ih =>
    rw [List.mem_cons, not_or] at h
    rw [splitFirst, if_neg (Ne.symm h.1), ih h.2]

end EscapeCode
