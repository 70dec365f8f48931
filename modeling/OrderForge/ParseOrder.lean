/-
This file models how the text of a message becomes an order: the parsing of the JSON
text, the check for the required fields, and the fields read one after the other.
What throws ends the call; what is found wrong here is handed back as an error.

The functions of the JSON library and of the enum library are parameters, a call that
throws having no result. The symbol of an order is a view of a text in the JSON value,
which is destroyed when `parse_order` returns. What the text reads as from then on is a
parameter like what the clock says: the language leaves it open.
-/

import OrderForge.FixedPoint
import OrderForge.Json
import OrderForge.Order

namespace OrderForge

/-- What is thrown. -/
inductive Exception
  | library
  | runtimeError (what : String)
deriving DecidableEq

/-! ### The libraries -/

/-- The functions of `nlohmann::json` and `magic_enum::enum_cast` in use. -/
structure Libraries where
  parse : List UInt8 → Option Json
  contains : Json → String → Bool
  memberAt : Json → String → Option Json
  getString : Json → Option String
  getDouble : Json → Option Float.Model
  getUnsigned : Json → Option UInt64
  castSide : String → Option Side
  castType : String → Option OrderType
  castStatus : String → Option OrderStatus

namespace Libraries

/-- `j.at(name).get<Value>()`. -/
def get {Value : Type} (libraries : Libraries) (read : Json → Option Value) (json : Json)
    (name : String) : Except Exception Value :=
  match (libraries.memberAt json name).bind read with
  | some value => .ok value
  | none => .error .library

end Libraries

/-- What a message meets: what the clock says, and what a text of the JSON value reads as once the
value is destroyed. -/
structure Surroundings where
  timestamp : Int64
  freed : String → String

/-- Surroundings in which a text still reads as it did. -/
def Surroundings.intact : Surroundings := ⟨0, id⟩

/-! ### Keys and error messages -/

def SYMBOL_KEY : String := "symbol"
def PRICE_KEY : String := "price"
def QTY_KEY : String := "qty"
def ORDER_SIDE_KEY : String := "order_side"
def ORDER_TYPE_KEY : String := "order_type"
def ORDER_STATUS_KEY : String := "order_status"
def ACC_ID_KEY : String := "acc_id"
def CLIENT_ORDER_ID_KEY : String := "client_order_id"
def ORDER_ID_KEY : String := "order_id"

/-- `errors_arr`. -/
def errorsArr : Nat → String
  | 51 => "missing field: symbol"
  | 52 => "missing field: price"
  | 53 => "missing field: qty"
  | 54 => "missing field: order_side"
  | 55 => "missing field: order_type"
  | 56 => "missing field: order_status"
  | 57 => "missing field: acc_id"
  | 58 => "missing field: client_order_id"
  | 59 => "missing field: order_id"
  | 120 => "invalid order_side value"
  | 121 => "invalid order_type value"
  | 122 => "invalid order_status value"
  | _ => "unset error code"

/-- `get_error_message<EnumType>`. -/
class ErrorMessage (EnumType : Type) where
  getErrorMessage : String

instance : ErrorMessage Side := ⟨errorsArr 120⟩
instance : ErrorMessage OrderType := ⟨errorsArr 121⟩
instance : ErrorMessage OrderStatus := ⟨errorsArr 122⟩

/-! ### Results -/

/-- `Result<T>`. -/
inductive Result (T : Type)
  | value (value : T)
  | error (error : String)

namespace Result

variable {T : Type}

def isValid : Result T → Bool
  | .value _ => true
  | .error _ => false

def getValue : Result T → Except Exception T
  | .value held => .ok held
  | .error _ => .error (.runtimeError "result does not contain a valid object.")

def getError : Result T → Except Exception String
  | .value _ => .error (.runtimeError "result does not contain an error message.")
  | .error held => .ok held

/-- Which of the accessors returns. -/
theorem isValid_iff (result : Result T) :
    result.isValid = true ↔ ∃ held, result.getValue = .ok held := by
  cases result with
  | value held => exact iff_of_true rfl ⟨held, rfl⟩
  | error held => exact iff_of_false Bool.false_ne_true nofun

theorem isValid_eq_false (result : Result T) :
    result.isValid = false ↔ ∃ held, result.getError = .ok held := by
  cases result with
  | value held => exact iff_of_false Bool.true_eq_false_eq_False nofun
  | error held => exact iff_of_true rfl ⟨held, rfl⟩

end Result

/-! ### Parsing -/

/-- `parse_enum`, with the cast of the enum type. -/
def parseEnum {EnumType : Type} [ErrorMessage EnumType] (libraries : Libraries)
    (enumCast : String → Option EnumType) (json : Json) (fieldName : String) :
    Except Exception (Result EnumType) := do
  let value ← libraries.get libraries.getString json fieldName
  match enumCast value with
  | none => return .error (ErrorMessage.getErrorMessage EnumType)
  | some value => return .value value

/-- The fields that `validate_required_fields` asks for, in its order, with their error codes. -/
def requiredFields : List (String × Nat) :=
  [(SYMBOL_KEY, 51), (PRICE_KEY, 52), (QTY_KEY, 53), (ORDER_SIDE_KEY, 54), (ORDER_TYPE_KEY, 55),
    (ORDER_STATUS_KEY, 56), (ACC_ID_KEY, 57), (CLIENT_ORDER_ID_KEY, 58), (ORDER_ID_KEY, 59)]

/-- `validate_required_fields`. -/
def validateRequiredFields (libraries : Libraries) (json : Json) : Option String :=
  (requiredFields.find? fun field => !libraries.contains json field.1).map fun field =>
    errorsArr field.2

/-- The part of `parse_order` that reads the enums and the ids. -/
def parseEnums (libraries : Libraries) (timestamp : Int64) (json : Json) (symbol : String)
    (price : Price) (qty : Quantity) : Except Exception (Result Order) := do
  match ← parseEnum libraries libraries.castSide json ORDER_SIDE_KEY with
  | .error error => return .error error
  | .value side =>
    match ← parseEnum libraries libraries.castType json ORDER_TYPE_KEY with
    | .error error => return .error error
    | .value type =>
      match ← parseEnum libraries libraries.castStatus json ORDER_STATUS_KEY with
      | .error error => return .error error
      | .value status =>
        let accId ← libraries.get libraries.getUnsigned json ACC_ID_KEY
        let clientOrderId ← libraries.get libraries.getUnsigned json CLIENT_ORDER_ID_KEY
        let orderId ← libraries.get libraries.getUnsigned json ORDER_ID_KEY
        return .value
          (Order.create symbol price qty side status type accId clientOrderId orderId timestamp)

/-- The part of `parse_order` that reads the fields. -/
def parseFields (libraries : Libraries) (timestamp : Int64) (json : Json) :
    Except Exception (Result Order) := do
  let symbol ← libraries.get libraries.getString json SYMBOL_KEY
  if symbol.isEmpty then return .error (errorsArr 51)
  let price ← libraries.get libraries.getDouble json PRICE_KEY
  let qty ← libraries.get libraries.getDouble json QTY_KEY
  parseEnums libraries timestamp json symbol (ScaledInt.ofDouble price) (ScaledInt.ofDouble qty)

/-- The part of `parse_order` that the JSON value of the text goes through. -/
def parseJson (libraries : Libraries) (timestamp : Int64) (json : Json) :
    Except Exception (Result Order) :=
  match validateRequiredFields libraries json with
  | some error => .ok (.error error)
  | none => parseFields libraries timestamp json

/-- A result when the JSON value is destroyed, which the symbol of an order is a view into. -/
def Result.outlive (freed : String → String) : Result Order → Result Order
  | .value order => .value (order.setSymbol (freed order.symbol))
  | .error held => .error held

/-- `parse_order`. -/
def parseOrder (libraries : Libraries) (surroundings : Surroundings) (message : List UInt8) :
    Except Exception (Result Order) :=
  match libraries.parse message with
  | none => .error .library
  | some json =>
    (parseJson libraries surroundings.timestamp json).map (Result.outlive surroundings.freed)

end OrderForge
