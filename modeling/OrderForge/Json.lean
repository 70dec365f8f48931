/-
This file is a small library of JSON values as a reader of texts delivers them: a
number is kept as an unsigned or a signed integer or as a binary64, a string as
Unicode text, and an object has each name once. A reading of a value is partial: it
has a result for the values of one JSON type. Two values are alike when the same
paths lead to the same values that hold no others, an integer being its value.
-/

import Mathlib.Data.Option.Basic

inductive Json
  | null
  | boolean (value : Bool)
  | unsigned (value : UInt64)
  | integer (value : Int64)
  | float (value : Float.Model)
  | string (value : String)
  | array (items : List Json)
  | object (members : List (String × Json))

namespace Json

/-- The member of an object under a name. -/
def member? : Json → String → Option Json
  | .object members, name => members.lookup name
  | _, _ => none

/-- The text of a string. -/
def string? : Json → Option String
  | .string value => some value
  | _ => none

/-- The binary64 of a number. -/
def number? : Json → Option Float.Model
  | .unsigned value => some (Float.Model.ofUInt64 value)
  | .integer value => some (Float.Model.ofInt value.toInt)
  | .float value => some value
  | _ => none

/-- The value of a number that is an unsigned integer. -/
def unsigned? : Json → Option UInt64
  | .unsigned value => some value
  | _ => none

/-- A reading of the member under a name. -/
def readAt {Value : Type} (json : Json) (read : Json → Option Value) (name : String) :
    Option Value :=
  (json.member? name).bind read

theorem member_of_readAt {Value : Type} {json : Json} {read : Json → Option Value} {name : String}
    {value : Value} (found : json.readAt read name = some value) : (json.member? name).isSome := by
  obtain ⟨held, member, -⟩ := Option.bind_eq_some_iff.mp found
  rw [member]
  rfl

/-! ### Paths -/

/-- A value that holds no others. -/
inductive Scalar
  | null
  | boolean (value : Bool)
  | integer (value : Int)
  | float (value : Float.Model)
  | string (value : String)

namespace Scalar

def string? : Scalar → Option String
  | string value => some value
  | _ => none

def float? : Scalar → Option Float.Model
  | float value => some value
  | _ => none

def integer? : Scalar → Option Int
  | integer value => some value
  | _ => none

end Scalar

def scalar? : Json → Option Scalar
  | .null => some .null
  | .boolean value => some (.boolean value)
  | .unsigned value => some (.integer value.toNat)
  | .integer value => some (.integer value.toInt)
  | .float value => some (.float value)
  | .string value => some (.string value)
  | .array _ | .object _ => none

/-- What a path of names leads to. -/
def valueAt (json : Json) : List String → Option Json
  | [] => some json
  | name :: path => (json.member? name).bind fun member => member.valueAt path

def scalarAt (json : Json) (path : List String) : Option Scalar := (json.valueAt path).bind scalar?

/-- Whether the same paths lead to the same. -/
def Alike (first second : Json) : Prop := first.scalarAt = second.scalarAt

end Json
