/-
This file models how the application handles a message, and settles when it does so
properly. The order books are found by their symbols and share the generators of
ids. An order of a known symbol is added to the one book, an order of another symbol
to none, as long as the text of the symbol, which is freed when it is looked for, still
finds what it named. A rejected message is logged, but the handler goes on to the order
that is not there, and what that throws leaves the event loop.

`order_books_` is never iterated while messages are handled, so it is kept as the
sorted list of its entries. Logging is not modelled; all handlers of the books are
installed, and what they are called with is what a call that adds an order publishes.
-/

import Mathlib.Data.String.Basic
import OrderForge.MessageFormat
import OrderForge.OrderBook

namespace OrderForge

/-- `order_books_`. -/
abbrev OrderBooks := FlatMap (fun first second : String => first < second) OrderBook

/-- `OrderForgeApp`, with the generators behind `get_id<Order>()` and `get_id<Trade>()`. -/
structure OrderForgeApp where
  orderBooks : OrderBooks
  orderIds : IdGenerator
  tradeIds : IdGenerator

namespace OrderForgeApp

/-- `OrderForgeApp::handle_event`: the application afterwards and what is published, unless
something is thrown, before which nothing has changed. -/
def handleEvent (libraries : Libraries) (surroundings : Surroundings) (app : OrderForgeApp)
    (message : List UInt8) : Except Exception (OrderForgeApp × List Event) := do
  -- The check of `res.is_valid()` decides about a line of the log only.
  let res ← parseOrder libraries surroundings message
  let order ← res.getValue
  match app.orderBooks.find? order.symbol with
  | some book =>
    let (outcome, orderIds) := book.addOrder app.orderIds app.tradeIds
      (order.setSymbol order.symbol)
    return ({
      orderBooks := app.orderBooks.modify order.symbol fun _ => outcome.book
      orderIds := orderIds
      tradeIds := outcome.tradeIds }, outcome.events)
  | none => return (app, [])

/-! ### What a message may do -/

/-- The order that `OrderForgeApp::handle_event` hands to `add_order`, of the book of its symbol. -/
def handedOrder (libraries : Libraries) (surroundings : Surroundings) (app : OrderForgeApp)
    (message : List UInt8) : Option Order :=
  match parseOrder libraries surroundings message with
  | .ok (.value order) => (app.orderBooks.find? order.symbol).map fun _ => order
  | _ => none

/-- The order of a valid message while the text of its symbol is there. -/
def sentOrder (libraries : Libraries) (timestamp : Int64) (message : List UInt8) : Option Order :=
  match (libraries.parse message).map (parseJson libraries timestamp) with
  | some (.ok (.value order)) => some order
  | _ => none

/-- Whether there is a book of a symbol. -/
def hasBook (app : OrderForgeApp) (symbol : String) : Bool := (app.orderBooks.find? symbol).isSome

/-- Whether the text of a symbol, once it is freed, finds what the symbol names: the one book, or
none. -/
def Finds (app : OrderForgeApp) (freed : String → String) (symbol : String) : Prop :=
  if app.hasBook symbol then freed symbol = symbol else app.hasBook (freed symbol) = false

instance (app : OrderForgeApp) (freed : String → String) (symbol : String) :
    Decidable (app.Finds freed symbol) := inferInstanceAs (Decidable (ite _ _ _))

/-- A text that still reads as it did finds what the symbol names. -/
theorem finds_intact (app : OrderForgeApp) (symbol : String) :
    app.Finds Surroundings.intact.freed symbol := by
  rw [Finds]
  split_ifs with known
  · rfl
  · exact Bool.eq_false_iff.mpr known

/-- Whether handling a message returns, adds no order, and every book is as it was. -/
def LeavesAlone (libraries : Libraries) (surroundings : Surroundings) (app : OrderForgeApp)
    (message : List UInt8) : Prop :=
  handedOrder libraries surroundings app message = none ∧
    ∃ after events, handleEvent libraries surroundings app message = .ok (after, events) ∧
      after.orderBooks = app.orderBooks

/-- Whether handling a message returns after one call that adds an order to a book, and every
other book is as it was. -/
def AddsOnce (libraries : Libraries) (surroundings : Surroundings) (app : OrderForgeApp)
    (message : List UInt8) (book : OrderBook) (order : Order) : Prop :=
  handedOrder libraries surroundings app message = some order ∧
    ∃ after events, handleEvent libraries surroundings app message = .ok (after, events) ∧
      after.orderBooks.find? order.symbol =
        some (book.addOrder app.orderIds app.tradeIds order).1.book ∧
      events = (book.addOrder app.orderIds app.tradeIds order).1.events ∧
      after.orderIds = (book.addOrder app.orderIds app.tradeIds order).2 ∧
      after.tradeIds = (book.addOrder app.orderIds app.tradeIds order).1.tradeIds ∧
      ∀ symbol, symbol ≠ order.symbol →
        after.orderBooks.find? symbol = app.orderBooks.find? symbol

/-- Whether a message that the parsing answers by an error, or a valid one of a symbol without a
book, leaves all books alone, and the order of a valid one of a symbol with a book is added once. -/
structure HandlesProperly (libraries : Libraries) (surroundings : Surroundings)
    (app : OrderForgeApp) (message : List UInt8) : Prop where
  rejected : ∀ error, parseOrder libraries surroundings message = .ok (.error error) →
    LeavesAlone libraries surroundings app message
  unknown : ∀ order, sentOrder libraries surroundings.timestamp message = some order →
    app.orderBooks.find? order.symbol = none → LeavesAlone libraries surroundings app message
  known : ∀ order, sentOrder libraries surroundings.timestamp message = some order →
    ∀ book, app.orderBooks.find? order.symbol = some book →
      AddsOnce libraries surroundings app message book order

variable {libraries : Libraries} {surroundings : Surroundings} {app : OrderForgeApp}
  {message : List UInt8}

/-- The order of an error is asked for. -/
theorem handleEvent_of_error {error : String}
    (rejected : parseOrder libraries surroundings message = .ok (.error error)) :
    handleEvent libraries surroundings app message =
      .error (.runtimeError "result does not contain a valid object.") := by
  rw [handleEvent, rejected]
  rfl

theorem handleEvent_of_unknown {order : Order}
    (parsed : parseOrder libraries surroundings message = .ok (.value order))
    (unknown : app.orderBooks.find? order.symbol = none) :
    handleEvent libraries surroundings app message = .ok (app, []) := by
  rw [handleEvent, parsed]
  show (match app.orderBooks.find? order.symbol with | some _ => _ | none => _) = _
  rw [unknown]
  rfl

theorem handleEvent_of_known {order : Order} {book : OrderBook}
    (parsed : parseOrder libraries surroundings message = .ok (.value order))
    (known : app.orderBooks.find? order.symbol = some book) :
    AddsOnce libraries surroundings app message book order := by
  have handed : handedOrder libraries surroundings app message = some order := by
    rw [handedOrder, parsed]
    show (app.orderBooks.find? order.symbol).map _ = _
    rw [known]
    rfl
  have handled : handleEvent libraries surroundings app message = .ok
      (⟨app.orderBooks.modify order.symbol fun _ =>
        (book.addOrder app.orderIds app.tradeIds order).1.book,
        (book.addOrder app.orderIds app.tradeIds order).2,
        (book.addOrder app.orderIds app.tradeIds order).1.tradeIds⟩,
        (book.addOrder app.orderIds app.tradeIds order).1.events) := by
    rw [handleEvent, parsed]
    show (match app.orderBooks.find? order.symbol with | some _ => _ | none => _) = _
    rw [known]
    rfl
  refine ⟨handed, _, _, handled, ?_, rfl, rfl, rfl, fun symbol other => ?_⟩
  · rw [FlatMap.find?_modify, if_pos rfl, known, Option.map_some]
  · rw [FlatMap.find?_modify, if_neg other]

/-- The order of a valid message is returned with a symbol that is freed. -/
theorem parseOrder_of_sentOrder {order : Order}
    (sent : sentOrder libraries surroundings.timestamp message = some order) :
    parseOrder libraries surroundings message =
      .ok (.value (order.setSymbol (surroundings.freed order.symbol))) := by
  unfold sentOrder at sent
  unfold parseOrder
  cases parsed : libraries.parse message with
  | none =>
    rw [parsed] at sent
    cases sent
  | some json =>
    rw [parsed, Option.map_some] at sent
    dsimp only at sent ⊢
    split at sent
    next result =>
      rw [Option.some.inj result, ← Option.some.inj sent]
      rfl
    next => cases sent

/-- Only an order that is returned is handed to a book. -/
theorem handedOrder_of_sentOrder_eq_none
    (nothing : sentOrder libraries surroundings.timestamp message = none) :
    handedOrder libraries surroundings app message = none := by
  unfold sentOrder at nothing
  unfold handedOrder parseOrder
  cases parsed : libraries.parse message with
  | none => rfl
  | some json =>
    rw [parsed, Option.map_some] at nothing
    dsimp only
    cases result : parseJson libraries surroundings.timestamp json with
    | error error => rfl
    | ok held =>
      rw [result] at nothing
      cases held with
      | value order => exact absurd nothing (Option.some_ne_none order)
      | error error => rfl

/-- A message hands its order to the book of its symbol, if there is one, exactly when the freed
text of the symbol finds what the symbol names. -/
theorem handedOrder_of_sentOrder {order : Order}
    (sent : sentOrder libraries surroundings.timestamp message = some order) :
    handedOrder libraries surroundings app message =
        (if app.hasBook order.symbol then some order else none) ↔
      app.Finds surroundings.freed order.symbol := by
  rw [handedOrder, parseOrder_of_sentOrder sent]
  show (app.orderBooks.find? (surroundings.freed order.symbol)).map _ = _ ↔ _
  rw [Finds]
  split_ifs with known
  · constructor
    · intro handed
      obtain ⟨book, -, same⟩ := Option.map_eq_some_iff.mp handed
      exact congrArg Order.symbol same
    · intro reads
      obtain ⟨book, found⟩ := Option.isSome_iff_exists.mp known
      rw [reads, found]
      rfl
  · rw [Option.map_eq_none_iff, hasBook, Option.isSome_eq_false_iff, Option.isNone_iff_eq_none]

/-- A message is handled properly exactly when it is not a JSON value that the parsing rejects, and
the freed text of the symbol of a valid one finds what the symbol names. -/
theorem handle_event_proper_iff (documented : libraries.Documented) (surroundings : Surroundings)
    (app : OrderForgeApp) (message : List UInt8) :
    HandlesProperly libraries surroundings app message ↔
      (¬ ∃ json, libraries.parse message = some json ∧ Rejected json) ∧
        ∀ order, sentOrder libraries surroundings.timestamp message = some order →
          app.Finds surroundings.freed order.symbol := by
  constructor
  · refine fun proper => ⟨?_, fun order sent => (handedOrder_of_sentOrder sent).mp ?_⟩
    · rintro ⟨json, parsed, rejected⟩
      obtain ⟨error, result⟩ := (parseOrder_error_iff documented parsed).mpr rejected
      obtain ⟨-, after, events, handled, -⟩ := proper.rejected error result
      rw [handleEvent_of_error result] at handled
      cases handled
    · rw [hasBook]
      cases known : app.orderBooks.find? order.symbol with
      | none => exact (proper.unknown order sent known).1
      | some book => exact (proper.known order sent book known).1
  · rintro ⟨accepted, finds⟩
    refine ⟨fun error result => ?_, fun order sent unknown => ?_, fun order sent book known => ?_⟩
    · cases parsed : libraries.parse message with
      | none =>
        rw [parseOrder, parsed] at result
        cases result
      | some json =>
        exact absurd ⟨json, parsed, (parseOrder_error_iff documented parsed).mp ⟨error, result⟩⟩
          accepted
    · have none := (handedOrder_of_sentOrder sent).mpr (finds order sent)
      rw [hasBook, unknown] at none
      have result := parseOrder_of_sentOrder sent
      refine ⟨none, app, [], handleEvent_of_unknown result ?_, rfl⟩
      rw [handedOrder, result] at none
      exact Option.map_eq_none_iff.mp none
    · have has : app.hasBook order.symbol = true := by
        rw [hasBook, known]
        rfl
      have reads := finds order sent
      rw [Finds, if_pos has] at reads
      have result := parseOrder_of_sentOrder sent
      rw [reads] at result
      exact handleEvent_of_known result known

/-- An application with one book. -/
def sampleApp : OrderForgeApp where
  orderBooks := ⟨[("AAPL", OrderBook.create "AAPL" ⟨true, true, true, true⟩)],
    List.pairwise_singleton _ _⟩
  orderIds := ⟨0⟩
  tradeIds := ⟨0⟩

theorem sample_handled :
    HandlesProperly (sampleLibraries [(sampleText, sampleJson)]) .intact sampleApp sampleText := by
  refine (handle_event_proper_iff (sampleLibraries_documented _) .intact sampleApp sampleText).mpr
    ⟨?_, fun order _ => sampleApp.finds_intact order.symbol⟩
  rintro ⟨json, parsed, rejected⟩
  rw [sample_parse] at parsed
  cases parsed
  exact sampleJson_carries.not_rejected rejected

/-- An object without fields. -/
theorem rejected_message_throws :
    ¬ ∀ app message,
      HandlesProperly (sampleLibraries [([0x7b, 0x7d], .object [])]) .intact app message := by
  intro proper
  obtain ⟨-, after, events, handled, -⟩ :=
    (proper sampleApp [0x7b, 0x7d]).rejected "missing field: symbol" rfl
  cases handled

end OrderForgeApp

end OrderForge
