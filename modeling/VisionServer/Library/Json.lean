/-
This file gives JSON values with the checked accessors of the vendored JSON library.
-/

import Mathlib.Algebra.Group.Int.Defs
import Mathlib.Data.Rat.Defs
import Mathlib.Data.List.Basic

namespace VisionServer.Library

/-- The text parser keeps integers and decimal numbers apart. -/
inductive JsonNumber where
  | integer (value : Int)
  | decimal (value : ℚ)

/-- The conversion of a decimal drops its fraction. -/
def JsonNumber.truncate : JsonNumber → Int
  | .integer value => value
  | .decimal value => value.num.tdiv value.den

/-- An object keeps its members in key order. -/
inductive Json where
  | null
  | boolean (value : Bool)
  | number (value : JsonNumber)
  | string (value : String)
  | array (items : List Json)
  | object (members : List (String × Json))

/-- Every exception of the library carries an identifier and a text. -/
structure JsonException where
  id : Nat
  what : String
deriving DecidableEq

def JsonException.typeError (id : Nat) (text : String) : JsonException :=
  ⟨id, "[json.exception.type_error." ++ toString id ++ "] " ++ text⟩

def JsonException.outOfRange (id : Nat) (text : String) : JsonException :=
  ⟨id, "[json.exception.out_of_range." ++ toString id ++ "] " ++ text⟩

namespace Json

def typeName : Json → String
  | null => "null"
  | boolean _ => "boolean"
  | number _ => "number"
  | string _ => "string"
  | array _ => "array"
  | object _ => "object"

def isObject : Json → Bool
  | object _ => true
  | _ => false

/-- The count of a key is zero on every value that is not an object. -/
def count : Json → String → Nat
  | object members, key => if (members.lookup key).isSome then 1 else 0
  | _, _ => 0

/-- This is the overload of `at` for object keys. -/
def atKey : Json → String → Except JsonException Json
  | object members, key =>
      match members.lookup key with
      | some value => .ok value
      | none => .error (.outOfRange 403 ("key '" ++ key ++ "' not found"))
  | other, _ => .error (.typeError 304 ("cannot use at() with " ++ other.typeName))

/-- This is the overload of `at` for array positions. -/
def atIndex : Json → Nat → Except JsonException Json
  | array items, index =>
      match items[index]? with
      | some value => .ok value
      | none => .error (.outOfRange 401 ("array index " ++ toString index ++ " is out of range"))
  | other, _ => .error (.typeError 304 ("cannot use at() with " ++ other.typeName))

def getString : Json → Except JsonException String
  | string value => .ok value
  | other => .error (.typeError 302 ("type must be string, but is " ++ other.typeName))

/-- This is `get<unsigned int>`, which also converts booleans. -/
def getUnsigned : Json → Except JsonException Nat
  | number value => .ok (value.truncate % 2 ^ 32).toNat
  | boolean value => .ok value.toNat
  | other => .error (.typeError 302 ("type must be number, but is " ++ other.typeName))

/-- This is `get<float>`, which also converts booleans. -/
def getFloat {Scalar : Type} (toFloat : JsonNumber → Scalar) : Json → Except JsonException Scalar
  | number value => .ok (toFloat value)
  | boolean value => .ok (toFloat (.integer value.toNat))
  | other => .error (.typeError 302 ("type must be number, but is " ++ other.typeName))

/-- This is `get<double>`, which converts no booleans. -/
def getDouble {Scalar : Type} (toDouble : JsonNumber → Scalar) : Json → Except JsonException Scalar
  | number value => .ok (toDouble value)
  | other => .error (.typeError 302 ("type must be number, but is " ++ other.typeName))

/-- A range loop visits a primitive once and `null` never. -/
def items : Json → List Json
  | null => []
  | array items => items
  | object members => members.map Prod.snd
  | other => [other]

/-- A key is counted exactly when a checked access finds it. -/
theorem count_pos_iff (value : Json) (key : String) :
    0 < value.count key ↔ ∃ member, value.atKey key = .ok member := by
  cases value with
  | object members =>
      cases found : members.lookup key with
      | none => simp [count, atKey, found]
      | some member => simp [count, atKey, found]
  | _ => simp [count, atKey]

/-- A counted key belongs to an object. -/
theorem isObject_of_count {value : Json} {key : String} (counted : 0 < value.count key) :
    value.isObject = true := by
  cases value with
  | object members => rfl
  | _ => simp [count] at counted

end Json

/-- This is `wpi::equals_lower`, which folds only ASCII letters. -/
def equalsLower (first second : String) : Bool :=
  first.toList.map Char.toLower == second.toList.map Char.toLower

end VisionServer.Library
