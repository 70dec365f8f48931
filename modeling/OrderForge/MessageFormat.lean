/-
This file settles for which texts the parsing of an order does what its format asks
for: the order with the values of the text, or an error, and nothing thrown. A text
that is no JSON value throws, and so does a field that is read with a value of the
wrong type; what is read of a rejected text ends at the first thing found wrong. The
order that is returned has the price and the quantity of the text only where the raw
types have them, and its symbol only where the text it is a view of, which is freed by
then, still reads as it did. So the parsing meets the format exactly when the text is a
JSON value that carries all fields like this, or one that is rejected before a field of
the wrong type is read.
-/

import OrderForge.ParseOrder

namespace OrderForge

/-! ### What the libraries promise -/

/-- The names of the enumerators. -/
def Side.name : Side → String
  | .BUY => "BUY"
  | .SELL => "SELL"

def OrderType.name : OrderType → String
  | .LIMIT => "LIMIT"
  | .MARKET => "MARKET"
  | .FILL_AND_KILL => "FILL_AND_KILL"

def OrderStatus.name : OrderStatus → String
  | .OPEN => "OPEN"
  | .PARTIAL => "PARTIAL"
  | .FILLED => "FILLED"
  | .CANCELLED => "CANCELLED"
  | .REJECTED => "REJECTED"

/-- Whether two texts are equal but for the case of their letters. -/
def SameLetters (first second : String) : Prop :=
  first.toList.map Char.toLower = second.toList.map Char.toLower

instance (first second : String) : Decidable (SameLetters first second) :=
  inferInstanceAs (Decidable (_ = _))

/-- The documented behaviour: a member is there when the value is an object that has it, a string
and a number are read as what they are, and an unsigned integer as its value, other values being of
the wrong type; a cast has a value exactly for the names of the enumerators. -/
structure Libraries.Documented (libraries : Libraries) : Prop where
  contains : libraries.contains = fun json name => (json.member? name).isSome
  memberAt : libraries.memberAt = Json.member?
  getString : libraries.getString = Json.string?
  getDouble : libraries.getDouble = Json.number?
  getUnsigned : ∀ json value, json.unsigned? = some value → libraries.getUnsigned json = some value
  castSide : ∀ text side, libraries.castSide text = some side ↔ SameLetters text side.name
  castType : ∀ text type, libraries.castType text = some type ↔ SameLetters text type.name
  castStatus : ∀ text status, libraries.castStatus text = some status ↔
    SameLetters text status.name

/-! ### The format -/

/-- The values a message carries. -/
structure Message where
  symbol : String
  price : Float.Model
  qty : Float.Model
  side : Side
  type : OrderType
  status : OrderStatus
  accId : UInt64
  clientOrderId : OrderId
  orderId : OrderId

/-- The order with the values of a message. -/
def Message.order (message : Message) (timestamp : Int64) : Order :=
  Order.create message.symbol (ScaledInt.ofDouble message.price) (ScaledInt.ofDouble message.qty)
    message.side message.status message.type message.accId message.clientOrderId message.orderId
    timestamp

/-- Whether there are a price and a quantity that the numbers of a message stand for. -/
structure Message.InRange (message : Message) : Prop where
  price : ∃ price : Price, price.Represents message.price
  qty : ∃ qty : Quantity, qty.Represents message.qty

/-- Whether an order has the values of a message, and all of its quantity left. -/
structure Order.Has (order : Order) (message : Message) : Prop where
  symbol : order.symbol = message.symbol
  price : order.price.Represents message.price
  qty : order.qty.Represents message.qty
  remainingQty : order.remainingQty = order.qty
  side : order.side = message.side
  type : order.type = message.type
  status : order.status = message.status
  accId : order.accId = message.accId
  clientOrderId : order.clientOrderId = message.clientOrderId
  orderId : order.orderId = message.orderId

/-- Whether a field is a string that names an enumerator. -/
def Names {EnumType : Type} (json : Json) (key : String) (name : EnumType → String)
    (value : EnumType) : Prop :=
  ∃ text, json.readAt Json.string? key = some text ∧ SameLetters text (name value)

/-- Whether a field is a string that names no enumerator. -/
def NamesNone {EnumType : Type} (json : Json) (key : String) (name : EnumType → String) : Prop :=
  ∃ text, json.readAt Json.string? key = some text ∧ ∀ value, ¬ SameLetters text (name value)

/-- Whether a JSON value is an object with all fields of the expected types, and carries a
message. -/
structure Carries (json : Json) (message : Message) : Prop where
  symbol : json.readAt Json.string? SYMBOL_KEY = some message.symbol
  nonempty : message.symbol ≠ ""
  price : json.readAt Json.number? PRICE_KEY = some message.price
  qty : json.readAt Json.number? QTY_KEY = some message.qty
  side : Names json ORDER_SIDE_KEY Side.name message.side
  type : Names json ORDER_TYPE_KEY OrderType.name message.type
  status : Names json ORDER_STATUS_KEY OrderStatus.name message.status
  accId : json.readAt Json.unsigned? ACC_ID_KEY = some message.accId
  clientOrderId : json.readAt Json.unsigned? CLIENT_ORDER_ID_KEY = some message.clientOrderId
  orderId : json.readAt Json.unsigned? ORDER_ID_KEY = some message.orderId

/-- Whether the symbol is a string, and the price and the quantity are numbers. -/
structure Priced (json : Json) : Prop where
  symbol : ∃ symbol, json.readAt Json.string? SYMBOL_KEY = some symbol
  price : ∃ price, json.readAt Json.number? PRICE_KEY = some price
  qty : ∃ qty, json.readAt Json.number? QTY_KEY = some qty

/-- Whether something is found wrong with a JSON value, everything read before it being of the
expected type: a missing field, an empty symbol, or an unknown name of an enumerator. -/
inductive Rejected (json : Json) : Prop
  | missing {field : String × Nat} (required : field ∈ requiredFields)
      (absent : json.member? field.1 = none)
  | symbol (empty : json.readAt Json.string? SYMBOL_KEY = some "")
  | side (priced : Priced json) (unknown : NamesNone json ORDER_SIDE_KEY Side.name)
  | type (priced : Priced json) {side : Side} (named : Names json ORDER_SIDE_KEY Side.name side)
      (unknown : NamesNone json ORDER_TYPE_KEY OrderType.name)
  | status (priced : Priced json) {side : Side} (named : Names json ORDER_SIDE_KEY Side.name side)
      {type : OrderType} (typed : Names json ORDER_TYPE_KEY OrderType.name type)
      (unknown : NamesNone json ORDER_STATUS_KEY OrderStatus.name)

/-- Whether the parsing of a text returns the order it carries when it carries one, and an error
when it carries none. -/
def MeetsFormat (libraries : Libraries) (surroundings : Surroundings) (text : List UInt8) : Prop :=
  match parseOrder libraries surroundings text with
  | .error _ => False
  | .ok (.value order) => ∃ json message, libraries.parse text = some json ∧
      Carries json message ∧ order.Has message
  | .ok (.error _) => ¬ ∃ json message, libraries.parse text = some json ∧ Carries json message

/-! ### Reading one field -/

namespace Libraries

variable {libraries : Libraries} {json : Json} {name : String}

theorem bind_ok {First Second : Type} (held : First) (second : First → Except Exception Second) :
    (Except.ok held >>= second) = second held := rfl

theorem bind_eq_ok {First Second : Type} {first : Except Exception First}
    {second : First → Except Exception Second} {value : Second}
    (result : (first >>= second) = .ok value) :
    ∃ held, first = .ok held ∧ second held = .ok value := by
  cases first with
  | error thrown => cases result
  | ok held => exact ⟨held, rfl, result⟩

theorem Documented.get_eq_ok (documented : libraries.Documented) {Value : Type}
    {read : Json → Option Value} {value : Value} :
    libraries.get read json name = .ok value ↔ json.readAt read name = some value := by
  rw [get, documented.memberAt, Json.readAt]
  cases (json.member? name).bind read with
  | none => exact iff_of_false nofun nofun
  | some held => simp only [Except.ok.injEq, Option.some.injEq]

theorem Documented.get_unsigned (documented : libraries.Documented) {value : UInt64}
    (found : json.readAt Json.unsigned? name = some value) :
    libraries.get libraries.getUnsigned json name = .ok value := by
  obtain ⟨held, member, unsigned⟩ := Option.bind_eq_some_iff.mp found
  refine documented.get_eq_ok.mpr ?_
  rw [Json.readAt, member, Option.bind_some]
  exact documented.getUnsigned held value unsigned

section ParseEnum

variable {EnumType : Type} [ErrorMessage EnumType] {enumCast : String → Option EnumType}
  {enumName : EnumType → String}

theorem Documented.parseEnum_value (documented : libraries.Documented)
    (cast : ∀ text value, enumCast text = some value ↔ SameLetters text (enumName value))
    {value : EnumType} (named : Names json name enumName value) :
    parseEnum libraries enumCast json name = .ok (.value value) := by
  obtain ⟨text, found, same⟩ := named
  rw [← documented.getString] at found
  rw [parseEnum, documented.get_eq_ok.mpr found, bind_ok, (cast text value).mpr same]
  rfl

theorem Documented.parseEnum_error (documented : libraries.Documented)
    (cast : ∀ text value, enumCast text = some value ↔ SameLetters text (enumName value))
    (unknown : NamesNone json name enumName) :
    parseEnum libraries enumCast json name =
      .ok (.error (ErrorMessage.getErrorMessage EnumType)) := by
  obtain ⟨text, found, none⟩ := unknown
  rw [← documented.getString] at found
  have uncast : enumCast text = .none :=
    Option.eq_none_iff_forall_ne_some.mpr fun value held => none value ((cast text value).mp held)
  rw [parseEnum, documented.get_eq_ok.mpr found, bind_ok, uncast]
  rfl

/-- An enum that is parsed without an exception was named, or its name is unknown. -/
theorem Documented.names_of_parseEnum (documented : libraries.Documented)
    (cast : ∀ text value, enumCast text = some value ↔ SameLetters text (enumName value))
    {result : Result EnumType} (parsed : parseEnum libraries enumCast json name = .ok result) :
    (∃ value, result = .value value ∧ Names json name enumName value) ∨
      ∃ error, result = .error error ∧ NamesNone json name enumName := by
  obtain ⟨text, found, rest⟩ := bind_eq_ok parsed
  rw [documented.get_eq_ok, documented.getString] at found
  cases held : enumCast text with
  | none =>
    rw [held] at rest
    cases rest
    refine Or.inr ⟨_, rfl, text, found, fun value same => ?_⟩
    rw [(cast text value).mpr same] at held
    cases held
  | some value =>
    rw [held] at rest
    cases rest
    exact Or.inl ⟨value, rfl, text, found, (cast text value).mp held⟩

end ParseEnum

end Libraries

/-! ### The required fields -/

section Fields

variable {libraries : Libraries} {json : Json} {message : Message} {timestamp : Int64}

theorem validate_eq_none (documented : libraries.Documented) :
    validateRequiredFields libraries json = none ↔
      ∀ field ∈ requiredFields, (json.member? field.1).isSome := by
  rw [validateRequiredFields, Option.map_eq_none_iff, List.find?_eq_none, documented.contains]
  simp only [Bool.not_eq_true', Bool.not_eq_false]

theorem missing_of_validate (documented : libraries.Documented) {error : String}
    (invalid : validateRequiredFields libraries json = some error) : Rejected json := by
  obtain ⟨field, found, -⟩ := Option.map_eq_some_iff.mp invalid
  refine Rejected.missing (List.mem_of_find?_eq_some found) ?_
  have absent := List.find?_some found
  rw [documented.contains] at absent
  simpa using absent

/-- A value that carries a message has all fields. -/
theorem Carries.members (carries : Carries json message) :
    ∀ field ∈ requiredFields, (json.member? field.1).isSome := by
  obtain ⟨side, sideRead, -⟩ := carries.side
  obtain ⟨type, typeRead, -⟩ := carries.type
  obtain ⟨status, statusRead, -⟩ := carries.status
  simp only [requiredFields, List.forall_mem_cons]
  exact ⟨Json.member_of_readAt carries.symbol, Json.member_of_readAt carries.price,
    Json.member_of_readAt carries.qty, Json.member_of_readAt sideRead,
    Json.member_of_readAt typeRead, Json.member_of_readAt statusRead,
    Json.member_of_readAt carries.accId, Json.member_of_readAt carries.clientOrderId,
    Json.member_of_readAt carries.orderId, List.forall_mem_nil _⟩

theorem Names.not_namesNone {EnumType : Type} {key : String} {name : EnumType → String}
    {value : EnumType} (named : Names json key name value) : ¬ NamesNone json key name := by
  rintro ⟨other, otherRead, none⟩
  obtain ⟨text, read, same⟩ := named
  rw [read] at otherRead
  exact none value (Option.some.inj otherRead ▸ same)

/-- A value that carries a message is not rejected. -/
theorem Carries.not_rejected (carries : Carries json message) : ¬ Rejected json := by
  intro rejected
  cases rejected with
  | missing required absent =>
    have present := carries.members _ required
    rw [absent] at present
    cases present
  | symbol empty =>
    rw [carries.symbol] at empty
    exact carries.nonempty (Option.some.inj empty)
  | side _ unknown => exact carries.side.not_namesNone unknown
  | type _ _ unknown => exact carries.type.not_namesNone unknown
  | status _ _ _ unknown => exact carries.status.not_namesNone unknown

/-! ### Reading all fields -/

/-- What is left to read once the symbol, the price and the quantity are read. -/
theorem parseFields_of_read (documented : libraries.Documented) {symbol : String}
    {price qty : Float.Model} (symbolRead : json.readAt Json.string? SYMBOL_KEY = some symbol)
    (nonempty : symbol ≠ "") (priceRead : json.readAt Json.number? PRICE_KEY = some price)
    (qtyRead : json.readAt Json.number? QTY_KEY = some qty) :
    parseFields libraries timestamp json =
      parseEnums libraries timestamp json symbol (ScaledInt.ofDouble price)
        (ScaledInt.ofDouble qty) := by
  rw [← documented.getString] at symbolRead
  rw [← documented.getDouble] at priceRead qtyRead
  have filled : ¬ symbol.isEmpty = true := fun empty => nonempty (String.isEmpty_iff.mp empty)
  rw [parseFields, documented.get_eq_ok.mpr symbolRead, Libraries.bind_ok, if_neg filled,
    documented.get_eq_ok.mpr priceRead, Libraries.bind_ok, documented.get_eq_ok.mpr qtyRead]
  rfl

theorem parseFields_of_empty (documented : libraries.Documented)
    (empty : json.readAt Json.string? SYMBOL_KEY = some "") :
    parseFields libraries timestamp json = .ok (.error (errorsArr 51)) := by
  rw [← documented.getString] at empty
  rw [parseFields, documented.get_eq_ok.mpr empty]
  rfl

section Enums

variable {symbol : String} {price : Price} {qty : Quantity} {side : Side} {type : OrderType}

theorem parseEnums_of_side (documented : libraries.Documented)
    (unknown : NamesNone json ORDER_SIDE_KEY Side.name) :
    parseEnums libraries timestamp json symbol price qty = .ok (.error (errorsArr 120)) := by
  rw [parseEnums, documented.parseEnum_error documented.castSide unknown]
  rfl

theorem parseEnums_of_type (documented : libraries.Documented)
    (named : Names json ORDER_SIDE_KEY Side.name side)
    (unknown : NamesNone json ORDER_TYPE_KEY OrderType.name) :
    parseEnums libraries timestamp json symbol price qty = .ok (.error (errorsArr 121)) := by
  rw [parseEnums, documented.parseEnum_value documented.castSide named, Libraries.bind_ok]
  show (parseEnum libraries libraries.castType json ORDER_TYPE_KEY >>= _) = _
  rw [documented.parseEnum_error documented.castType unknown]
  rfl

theorem parseEnums_of_status (documented : libraries.Documented)
    (named : Names json ORDER_SIDE_KEY Side.name side)
    (typed : Names json ORDER_TYPE_KEY OrderType.name type)
    (unknown : NamesNone json ORDER_STATUS_KEY OrderStatus.name) :
    parseEnums libraries timestamp json symbol price qty = .ok (.error (errorsArr 122)) := by
  rw [parseEnums, documented.parseEnum_value documented.castSide named, Libraries.bind_ok]
  show (parseEnum libraries libraries.castType json ORDER_TYPE_KEY >>= _) = _
  rw [documented.parseEnum_value documented.castType typed, Libraries.bind_ok]
  show (parseEnum libraries libraries.castStatus json ORDER_STATUS_KEY >>= _) = _
  rw [documented.parseEnum_error documented.castStatus unknown]
  rfl

/-- An error among the enums is an unknown name. -/
theorem rejected_of_parseEnums (documented : libraries.Documented) (priced : Priced json)
    {error : String}
    (failed : parseEnums libraries timestamp json symbol price qty = .ok (.error error)) :
    Rejected json := by
  obtain ⟨sideResult, sideParsed, failed⟩ := Libraries.bind_eq_ok failed
  rcases documented.names_of_parseEnum documented.castSide sideParsed with
    ⟨side, rfl, named⟩ | ⟨-, -, unknown⟩
  · obtain ⟨typeResult, typeParsed, failed⟩ := Libraries.bind_eq_ok failed
    rcases documented.names_of_parseEnum documented.castType typeParsed with
      ⟨type, rfl, typed⟩ | ⟨-, -, unknown⟩
    · obtain ⟨statusResult, statusParsed, failed⟩ := Libraries.bind_eq_ok failed
      rcases documented.names_of_parseEnum documented.castStatus statusParsed with
        ⟨status, rfl, -⟩ | ⟨-, -, unknown⟩
      · obtain ⟨accId, -, failed⟩ := Libraries.bind_eq_ok failed
        obtain ⟨clientOrderId, -, failed⟩ := Libraries.bind_eq_ok failed
        obtain ⟨orderId, -, failed⟩ := Libraries.bind_eq_ok failed
        cases failed
      · exact Rejected.status priced named typed unknown
    · exact Rejected.type priced named unknown
  · exact Rejected.side priced unknown

end Enums

/-- The fields of a value that carries a message give the order with its values. -/
theorem Carries.parseFields (carries : Carries json message) (documented : libraries.Documented)
    (timestamp : Int64) :
    parseFields libraries timestamp json = .ok (.value (message.order timestamp)) := by
  rw [parseFields_of_read documented carries.symbol carries.nonempty carries.price carries.qty,
    parseEnums, documented.parseEnum_value documented.castSide carries.side, Libraries.bind_ok]
  show (OrderForge.parseEnum libraries libraries.castType json ORDER_TYPE_KEY >>= _) = _
  rw [documented.parseEnum_value documented.castType carries.type, Libraries.bind_ok]
  show (OrderForge.parseEnum libraries libraries.castStatus json ORDER_STATUS_KEY >>= _) = _
  rw [documented.parseEnum_value documented.castStatus carries.status, Libraries.bind_ok]
  show (libraries.get libraries.getUnsigned json ACC_ID_KEY >>= _) = _
  rw [documented.get_unsigned carries.accId, Libraries.bind_ok,
    documented.get_unsigned carries.clientOrderId, Libraries.bind_ok,
    documented.get_unsigned carries.orderId]
  rfl

/-- The first thing found wrong with a value is handed back. -/
theorem Priced.parseFields (priced : Priced json) (documented : libraries.Documented)
    {error : String} (failed : ∀ symbol price qty,
      parseEnums libraries timestamp json symbol price qty = .ok (.error error)) :
    ∃ error, parseFields libraries timestamp json = .ok (.error error) := by
  obtain ⟨⟨symbol, symbolRead⟩, ⟨price, priceRead⟩, ⟨qty, qtyRead⟩⟩ := priced
  by_cases empty : symbol = ""
  · subst empty
    exact ⟨_, parseFields_of_empty documented symbolRead⟩
  · rw [parseFields_of_read documented symbolRead empty priceRead qtyRead]
    exact ⟨error, failed _ _ _⟩

/-- An error among the fields is an empty symbol or an unknown name. -/
theorem rejected_of_parseFields (documented : libraries.Documented) {error : String}
    (failed : parseFields libraries timestamp json = .ok (.error error)) : Rejected json := by
  obtain ⟨symbol, symbolRead, failed⟩ := Libraries.bind_eq_ok failed
  rw [documented.get_eq_ok, documented.getString] at symbolRead
  by_cases empty : symbol.isEmpty = true
  · rw [String.isEmpty_iff] at empty
    exact Rejected.symbol (empty ▸ symbolRead)
  · rw [if_neg empty] at failed
    obtain ⟨price, priceRead, failed⟩ := Libraries.bind_eq_ok failed
    obtain ⟨qty, qtyRead, failed⟩ := Libraries.bind_eq_ok failed
    rw [documented.get_eq_ok, documented.getDouble] at priceRead qtyRead
    exact rejected_of_parseEnums documented ⟨⟨symbol, symbolRead⟩, ⟨price, priceRead⟩,
      ⟨qty, qtyRead⟩⟩ failed

end Fields

/-! ### Whole texts -/

section Texts

variable {libraries : Libraries} {json : Json} {surroundings : Surroundings} {text : List UInt8}

theorem parseOrder_of_parse (parsed : libraries.parse text = some json) :
    parseOrder libraries surroundings text =
      (parseJson libraries surroundings.timestamp json).map
        (Result.outlive surroundings.freed) := by
  rw [parseOrder, parsed]

/-- An error is a text of its own. -/
theorem outlive_eq_error {parsed : Except Exception (Result Order)} {freed : String → String} :
    (∃ error, parsed.map (Result.outlive freed) = .ok (.error error)) ↔
      ∃ error, parsed = .ok (.error error) := by
  rcases parsed with _ | (_ | _)
  · exact iff_of_false nofun nofun
  · exact iff_of_false nofun nofun
  · exact iff_of_true ⟨_, rfl⟩ ⟨_, rfl⟩

/-- A text is answered by an error exactly when its value is rejected. -/
theorem parseOrder_error_iff (documented : libraries.Documented)
    (parsed : libraries.parse text = some json) :
    (∃ error, parseOrder libraries surroundings text = .ok (.error error)) ↔ Rejected json := by
  rw [parseOrder_of_parse parsed, outlive_eq_error, parseJson]
  cases valid : validateRequiredFields libraries json with
  | some error => exact ⟨fun _ => missing_of_validate documented valid, fun _ => ⟨error, rfl⟩⟩
  | none =>
    refine ⟨fun ⟨error, failed⟩ => rejected_of_parseFields documented failed, fun rejected => ?_⟩
    cases rejected with
    | missing required absent =>
      have present := (validate_eq_none documented).mp valid _ required
      rw [absent] at present
      cases present
    | symbol empty => exact ⟨_, parseFields_of_empty documented empty⟩
    | side priced unknown =>
      exact priced.parseFields documented fun _ _ _ => parseEnums_of_side documented unknown
    | type priced named unknown =>
      exact priced.parseFields documented fun _ _ _ =>
        parseEnums_of_type documented named unknown
    | status priced named typed unknown =>
      exact priced.parseFields documented fun _ _ _ =>
        parseEnums_of_status documented named typed unknown

theorem parseJson_of_carries (documented : libraries.Documented) {message : Message}
    (carries : Carries json message) (timestamp : Int64) :
    parseJson libraries timestamp json = .ok (.value (message.order timestamp)) := by
  rw [parseJson, (validate_eq_none documented).mpr carries.members]
  exact carries.parseFields documented timestamp

/-- A text that carries a message is answered by its order, whose symbol is freed. -/
theorem parseOrder_of_carries (documented : libraries.Documented) {message : Message}
    (parsed : libraries.parse text = some json) (carries : Carries json message) :
    parseOrder libraries surroundings text = .ok (.value
      ((message.order surroundings.timestamp).setSymbol (surroundings.freed message.symbol))) := by
  rw [parseOrder_of_parse parsed, parseJson_of_carries documented carries]
  rfl

/-- The order that is returned has the values of a message exactly when the raw types have them and
the freed text of the symbol still reads as it did. -/
theorem Message.order_has_iff (message : Message) :
    ((message.order surroundings.timestamp).setSymbol
        (surroundings.freed message.symbol)).Has message ↔
      message.InRange ∧ surroundings.freed message.symbol = message.symbol := by
  constructor
  · intro has
    exact ⟨⟨⟨_, has.price⟩, ⟨_, has.qty⟩⟩, has.symbol⟩
  · rintro ⟨inRange, reads⟩
    exact ⟨reads, ScaledInt.represents_ofDouble_iff.mpr inRange.price,
      ScaledInt.represents_ofDouble_iff.mpr inRange.qty, rfl, rfl, rfl, rfl, rfl, rfl, rfl⟩

/-- The parsing meets the format exactly when the text is a JSON value that is rejected before a
field of the wrong type is read, or carries a message that is in range and whose symbol still reads
as it did when it is freed. -/
theorem parse_order_meets_format_iff (documented : libraries.Documented)
    (surroundings : Surroundings) (text : List UInt8) :
    MeetsFormat libraries surroundings text ↔ ∃ json, libraries.parse text = some json ∧
      (Rejected json ∨ ∃ message, Carries json message ∧ message.InRange ∧
        surroundings.freed message.symbol = message.symbol) := by
  constructor
  · intro meets
    cases parsed : libraries.parse text with
    | none =>
      rw [MeetsFormat, parseOrder, parsed] at meets
      exact meets.elim
    | some json =>
      refine ⟨json, rfl, ?_⟩
      rw [MeetsFormat] at meets
      split at meets
      next => exact meets.elim
      next order result =>
        obtain ⟨held, message, same, carries, has⟩ := meets
        rw [parsed] at same
        cases same
        rw [parseOrder_of_carries documented parsed carries] at result
        cases result
        exact Or.inr ⟨message, carries, message.order_has_iff.mp has⟩
      next error result =>
        exact Or.inl ((parseOrder_error_iff documented parsed).mp ⟨error, result⟩)
  · rintro ⟨json, parsed, rejected | ⟨message, carries, fits⟩⟩
    · obtain ⟨error, result⟩ := (parseOrder_error_iff documented parsed).mpr rejected
      rw [MeetsFormat, result]
      rintro ⟨held, message, same, carries⟩
      rw [parsed] at same
      cases same
      exact carries.not_rejected rejected
    · rw [MeetsFormat, parseOrder_of_carries documented parsed carries]
      exact ⟨json, message, parsed, carries, message.order_has_iff.mpr fits⟩

end Texts

/-! ### Samples -/

/-- Among all enumerators the one of a name is found. -/
theorem find?_name_eq_some {EnumType : Type} {values : List EnumType} {name : EnumType → String}
    (all : ∀ value, value ∈ values)
    (distinct : ∀ first second, SameLetters (name first) (name second) → first = second)
    {text : String} {value : EnumType} :
    (values.find? fun other => SameLetters text (name other)) = some value ↔
      SameLetters text (name value) := by
  constructor
  · intro found
    simpa using List.find?_some found
  · intro same
    cases found : values.find? fun other => SameLetters text (name other) with
    | none => simpa [same] using List.find?_eq_none.mp found value (all value)
    | some other =>
      have own : SameLetters text (name other) := by simpa using List.find?_some found
      rw [distinct other value (own.symm.trans same)]

/-- Libraries that can parse some texts. -/
def sampleLibraries (texts : List (List UInt8 × Json)) : Libraries where
  parse text := texts.lookup text
  contains json name := (json.member? name).isSome
  memberAt := Json.member?
  getString := Json.string?
  getDouble := Json.number?
  getUnsigned := Json.unsigned?
  castSide text := [Side.BUY, .SELL].find? fun side => SameLetters text side.name
  castType text :=
    [OrderType.LIMIT, .MARKET, .FILL_AND_KILL].find? fun type => SameLetters text type.name
  castStatus text := [OrderStatus.OPEN, .PARTIAL, .FILLED, .CANCELLED, .REJECTED].find?
    fun status => SameLetters text status.name

theorem sampleLibraries_documented (texts : List (List UInt8 × Json)) :
    (sampleLibraries texts).Documented where
  contains := rfl
  memberAt := rfl
  getString := rfl
  getDouble := rfl
  getUnsigned _ _ found := found
  castSide text side := find?_name_eq_some (fun side => by cases side <;> decide)
    fun first second same => by revert same; cases first <;> cases second <;> decide
  castType text type := find?_name_eq_some (fun type => by cases type <;> decide)
    fun first second same => by revert same; cases first <;> cases second <;> decide
  castStatus text status := find?_name_eq_some (fun status => by cases status <;> decide)
    fun first second same => by revert same; cases first <;> cases second <;> decide

/-- A buy order as a client sends it. -/
def sampleText : List UInt8 :=
  ("\x7b\"symbol\":\"AAPL\",\"price\":100,\"qty\":1,\"order_side\":\"buy\"," ++
    "\"order_type\":\"LIMIT\",\"order_status\":\"OPEN\",\"acc_id\":555," ++
    "\"client_order_id\":7,\"order_id\":1\x7d").toUTF8.toList

def sampleJson : Json :=
  .object [("symbol", .string "AAPL"), ("price", .unsigned 100), ("qty", .unsigned 1),
    ("order_side", .string "buy"), ("order_type", .string "LIMIT"),
    ("order_status", .string "OPEN"), ("acc_id", .unsigned 555),
    ("client_order_id", .unsigned 7), ("order_id", .unsigned 1)]

def sampleMessage : Message where
  symbol := "AAPL"
  price := Float.Model.ofUInt64 100
  qty := Float.Model.ofUInt64 1
  side := .BUY
  type := .LIMIT
  status := .OPEN
  accId := 555
  clientOrderId := 7
  orderId := 1

theorem sampleJson_carries : Carries sampleJson sampleMessage where
  symbol := rfl
  nonempty := by decide
  price := rfl
  qty := rfl
  side := ⟨"buy", rfl, by decide⟩
  type := ⟨"LIMIT", rfl, by decide⟩
  status := ⟨"OPEN", rfl, by decide⟩
  accId := rfl
  clientOrderId := rfl
  orderId := rfl

theorem sample_parse :
    (sampleLibraries [(sampleText, sampleJson)]).parse sampleText = some sampleJson :=
  List.lookup_cons_self

theorem sampleMessage_inRange : sampleMessage.InRange where
  price := ⟨⟨10000⟩, by decide⟩
  qty := ⟨⟨100000000⟩, by decide⟩

theorem sample_meets_format :
    MeetsFormat (sampleLibraries [(sampleText, sampleJson)]) .intact sampleText :=
  (parse_order_meets_format_iff (sampleLibraries_documented _) .intact sampleText).mpr
    ⟨sampleJson, sample_parse, Or.inr ⟨sampleMessage, sampleJson_carries, sampleMessage_inRange,
      rfl⟩⟩

/-- An opening brace is no JSON value. -/
theorem parse_order_throws : ¬ ∀ text, MeetsFormat (sampleLibraries []) .intact text :=
  fun meets => meets [0x7b]

end OrderForge
