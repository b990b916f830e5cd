import Mathlib.Algebra.Group.Int.Defs
import Mathlib.Data.Rat.Defs

/-!
# JSON values

The values of a JSON document and the conversions that the programs use. A conversion of a value of
another kind gives the default of its type, and a missing member of an object reads as `undefined`.
-/

namespace Ts3Video

/-- A JSON value. Objects keep their members as a list of names and values. -/
inductive QJsonValue where
  | null
  | bool (b : Bool)
  | double (d : ℚ)
  | string (s : String)
  | array (values : List QJsonValue)
  | object (members : List (String × QJsonValue))
  | undefined
deriving Inhabited

/-- The members of a JSON object. -/
abbrev QJsonObject : Type := List (String × QJsonValue)

namespace QJsonValue

/-- A whole number in the range of a 32-bit integer, or zero. -/
def toInt : QJsonValue → ℤ
  | .double d => if d.den = 1 ∧ -2 ^ 31 ≤ d.num ∧ d.num < 2 ^ 31 then d.num else 0
  | _ => 0

/-- A text, or the empty text. -/
def toString : QJsonValue → String
  | .string s => s
  | _ => ""

/-- A truth value, or false. -/
def toBool : QJsonValue → Bool
  | .bool b => b
  | _ => false

/-- An object, or the empty object. -/
def toObject : QJsonValue → QJsonObject
  | .object members => members
  | _ => []

/-- An array, or the empty array. -/
def toArray : QJsonValue → List QJsonValue
  | .array values => values
  | _ => []

/-- The number that stands for an integer. -/
def ofInt (n : ℤ) : QJsonValue := .double n

/-- An integer in range survives the way through a document. -/
theorem toInt_ofInt {n : ℤ} (hlow : -2 ^ 31 ≤ n) (hhigh : n < 2 ^ 31) : (ofInt n).toInt = n := by
  rw [ofInt, toInt, if_pos ⟨Rat.den_intCast n, by simpa using hlow, by simpa using hhigh⟩]
  exact Rat.num_intCast n

end QJsonValue

namespace QJsonObject

/-- The value of a member, `undefined` if there is none. -/
def value (obj : QJsonObject) (key : String) : QJsonValue := (obj.lookup key).getD .undefined

/-- There is a member of this name. -/
def contains (obj : QJsonObject) (key : String) : Bool := (obj.lookup key).isSome

end QJsonObject

end Ts3Video
