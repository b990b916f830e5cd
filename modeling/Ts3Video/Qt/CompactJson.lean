import Mathlib.Data.List.Sort
import Ts3Video.Qt.Json

/-!
# Compact JSON

The text of a JSON value without blanks, with the members of objects in the order of their names. Whether two
values are the same can be decided.
-/

namespace Ts3Video

namespace QJsonValue

/-- The text of a character inside of quotes. -/
def escape (c : Char) : List Char :=
  if c = '"' ∨ c = '\\' then ['\\', c] else [c]

/-- A text in quotes. -/
def quote (text : String) : List Char := '"' :: (text.toList.flatMap escape ++ ['"'])

/-- Texts with commas in between. -/
def commaSeparated (texts : List (List Char)) : List Char := [','].intercalate texts

mutual

/-- The text of a value, for whole numbers and texts without control characters. -/
def toCompact : QJsonValue → List Char
  | null => "null".toList
  | bool b => (if b then "true" else "false").toList
  | double d => d.num.repr.toList
  | string s => quote s
  | array values => '[' :: (commaSeparated (toCompactValues values) ++ [']'])
  | object members =>
    let sorted := (toCompactMembers members).insertionSort fun first second => first.1 ≤ second.1
    '{' :: (commaSeparated (sorted.map fun named => quote named.1 ++ ':' :: named.2) ++ ['}'])
  | undefined => "null".toList

/-- The texts of several values. -/
def toCompactValues : List QJsonValue → List (List Char)
  | [] => []
  | value :: values => value.toCompact :: toCompactValues values

/-- The texts of the members of an object, with their names. -/
def toCompactMembers : List (String × QJsonValue) → List (String × List Char)
  | [] => []
  | (name, value) :: members => (name, value.toCompact) :: toCompactMembers members

end

mutual

/-- Two values are the same. -/
def isSame : QJsonValue → QJsonValue → Bool
  | null, null => true
  | bool b, bool c => b = c
  | double d, double e => d = e
  | string s, string t => s = t
  | array values, array others => areSame values others
  | object members, object others => haveSame members others
  | undefined, undefined => true
  | _, _ => false

/-- The values of two arrays are the same. -/
def areSame : List QJsonValue → List QJsonValue → Bool
  | [], [] => true
  | value :: values, other :: others => value.isSame other && areSame values others
  | _, _ => false

/-- The members of two objects are the same. -/
def haveSame : List (String × QJsonValue) → List (String × QJsonValue) → Bool
  | [], [] => true
  | (name, value) :: members, (name', other) :: others =>
    name = name' && value.isSame other && haveSame members others
  | _, _ => false

end

mutual

/-- The comparison of values finds the same ones. -/
theorem isSame_iff : ∀ value other : QJsonValue, value.isSame other = true ↔ value = other
  | null, other => by cases other <;> simp [isSame]
  | bool b, other => by cases other <;> simp [isSame]
  | double d, other => by cases other <;> simp [isSame]
  | string s, other => by cases other <;> simp [isSame]
  | array values, other => by cases other <;> simp [isSame, areSame_iff values]
  | object members, other => by cases other <;> simp [isSame, haveSame_iff members]
  | undefined, other => by cases other <;> simp [isSame]

/-- The comparison of arrays finds the same ones. -/
theorem areSame_iff : ∀ values others : List QJsonValue, areSame values others = true ↔ values = others
  | [], others => by cases others <;> simp [areSame]
  | value :: values, others => by
    cases others <;> simp [areSame, isSame_iff value, areSame_iff values]

/-- The comparison of objects finds the same ones. -/
theorem haveSame_iff : ∀ members others : List (String × QJsonValue),
    haveSame members others = true ↔ members = others
  | [], others => by cases others <;> simp [haveSame]
  | (name, value) :: members, others => by
    cases others <;> simp [haveSame, isSame_iff value, haveSame_iff members, Prod.ext_iff]

end

instance : DecidableEq QJsonValue := fun value other =>
  decidable_of_iff (value.isSame other = true) (isSame_iff value other)

end QJsonValue

/-- A quotation mark inside of a text is escaped. -/
example : String.ofList (QJsonValue.toCompact (.array [.string "a\"b", .bool true, .null, .ofInt (-3)])) =
    "[\"a\\\"b\",true,null,-3]" := by decide +kernel

end Ts3Video
