import Mathlib.Tactic.Common

/-!
# Texts

A text with place markers is filled in one argument at a time. Each argument replaces the place
markers `%n` with the lowest number, also those that an earlier argument brought along.
-/

namespace Ts3Video

namespace QString

/-- The value of a decimal digit. -/
def digitValue (c : Char) : Option ℕ :=
  if '0' ≤ c ∧ c ≤ '9' then some (c.toNat - '0'.toNat) else none

/-- One or two digits: their value and the number of characters up to their end. -/
def escapeNumber (before : ℕ) : List Char → Option (ℕ × ℕ)
  | [] => none
  | c :: rest => (digitValue c).map fun first =>
    match rest.head?.bind digitValue with
    | none => (first, before + 1)
    | some second => (10 * first + second, before + 2)

/-- The place marker at the start of a text: its number and length. -/
def escapeAt : List Char → Option (ℕ × ℕ)
  | '%' :: 'L' :: rest => escapeNumber 2 rest
  | '%' :: rest => escapeNumber 1 rest
  | _ => none

/-- The lowest number of a place marker in a text. -/
def lowestEscape : List Char → Option ℕ
  | [] => none
  | c :: rest =>
    match escapeAt (c :: rest), lowestEscape rest with
    | none, lowest => lowest
    | some (number, _), none => some number
    | some (number, _), some lowest => some (min number lowest)

/-- Replace the place markers of one number. The first argument counts the characters of a marker
that are still to be skipped. -/
def replaceEscape (number : ℕ) (argument : List Char) : ℕ → List Char → List Char
  | _, [] => []
  | skip + 1, _ :: rest => replaceEscape number argument skip rest
  | 0, c :: rest =>
    match escapeAt (c :: rest) with
    | none => c :: replaceEscape number argument 0 rest
    | some (found, length) =>
      if found = number then argument ++ replaceEscape number argument (length - 1) rest
      else c :: replaceEscape number argument 0 rest

/-- Fill the place markers of the lowest number. -/
def arg (text argument : String) : String :=
  match lowestEscape text.toList with
  | none => text
  | some number => String.ofList (replaceEscape number argument.toList 0 text.toList)

/-- The non-empty parts of a text between its separators. -/
def splitSkipEmptyParts (text : String) (separator : Char) : List String :=
  ((text.toList.splitOn separator).filter (· ≠ [])).map String.ofList

/-- One byte for each character, for texts whose characters are bytes. -/
def toLatin1 (text : String) : List UInt8 := text.toList.map fun c => UInt8.ofNat c.toNat

/-- One character for each byte. -/
def fromLatin1 (bytes : List UInt8) : String :=
  String.ofList (bytes.map fun byte => Char.ofNat byte.toNat)

end QString

end Ts3Video
