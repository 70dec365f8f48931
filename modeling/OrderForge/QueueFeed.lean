/-
This file proves that the private order feed tells all of a book that nobody cancels
from. A subscriber keeps the limit orders that were reported as unfinished in the order
of their first reports, and the latest report of each in its place. What it has for a
side and a price is then the queue of the level: the same orders with the same quantities
left, in the order in which they will be filled.

An order that vanishes with a wrapped counter is not reported, so no counter may wrap; and
an order must not come under the id of one that rests.
-/

import OrderForge.Exits
import OrderForge.Roster

namespace OrderForge

/-! ### The view of a subscriber -/

/-- Whether a report is that of an order that rests. -/
def Order.Stays (order : Order) : Prop := order.type = .LIMIT ∧ order.Unfinished

instance : DecidablePred Order.Stays := fun order =>
  inferInstanceAs (Decidable (order.type = .LIMIT ∧
    (order.status = .OPEN ∨ order.status = .PARTIAL)))

/-- The orders that rest as far as was heard. -/
abbrev OrderView := List Order

/-- The view after one more update. -/
def OrderView.apply (view : OrderView) (update : Order) : OrderView :=
  Roster.hear Order.orderId Order.Stays view update

/-- Whether a view has the queues of a book. -/
def OrderView.Shows (view : OrderView) (book : OrderBook) : Prop :=
  ∀ side price, (view.filter fun order => order.side = side ∧ order.price = price) =
    Ladder.queue (book.orders side) price

/-- A book of limit orders with something left and ids of their own. -/
structure OrderBook.Plain (book : OrderBook) : Prop where
  wf : book.Wf
  unique : book.UniqueIds
  limit : ∀ side, ∀ resting ∈ book.orders side, resting.type = .LIMIT
  positive : ∀ side, ∀ resting ∈ book.orders side, 0 < resting.remaining

namespace OrderView

variable {view : OrderView} {book : OrderBook} {order : Order}

/-- The view has the orders that rest. -/
theorem Shows.mem_iff (shows : view.Shows book) :
    order ∈ view ↔ ∃ side, order ∈ book.orders side := by
  constructor
  · intro member
    have own : order ∈ view.filter fun other =>
        other.side = order.side ∧ other.price = order.price :=
      List.mem_filter.mpr ⟨member, decide_eq_true ⟨rfl, rfl⟩⟩
    rw [shows order.side order.price, Ladder.mem_queue] at own
    exact ⟨order.side, own.1⟩
  · rintro ⟨side, member⟩
    have own : order ∈ Ladder.queue (book.orders side) order.price :=
      Ladder.mem_queue.mpr ⟨member, rfl⟩
    rw [← shows side order.price] at own
    exact List.mem_of_mem_filter own

/-- The view has no order under an id that rests nowhere. -/
theorem Shows.absent_iff (shows : view.Shows book) {id : OrderId} :
    id ∉ view.map Order.orderId ↔ book.Absent id := by
  constructor
  · intro absent side resting member same
    exact absent (same ▸ List.mem_map_of_mem (shows.mem_iff.mpr ⟨side, member⟩))
  · intro absent member
    obtain ⟨resting, inView, same⟩ := List.mem_map.mp member
    obtain ⟨side, inBook⟩ := shows.mem_iff.mp inView
    exact absent side resting inBook same

theorem create_shows (symbol : String) (handlers : Handlers) :
    OrderView.Shows [] (OrderBook.create symbol handlers) := by
  intro side price
  cases side <;> rfl

end OrderView

theorem OrderBook.create_plain (symbol : String) (handlers : Handlers) :
    (OrderBook.create symbol handlers).Plain where
  wf := create_wf symbol handlers
  unique := List.nodup_nil
  limit side _ member := by cases side <;> cases member
  positive side _ member := by cases side <;> cases member

/-! ### One call -/

namespace OrderBook

variable {book : OrderBook} {order resting : Order}

/-- What is left of a resting order stays in the view as long as something is left. -/
theorem Plain.stays_cut (plain : book.Plain) {side : Side} (member : resting ∈ book.orders side)
    {amount : Nat} (within : amount ≤ resting.remaining) :
    (resting.cut amount).Stays ↔ amount < resting.remaining := by
  have limit : (resting.cut amount).type = .LIMIT := plain.limit side resting member
  constructor
  · rintro ⟨-, unfinished⟩
    refine Nat.lt_of_le_of_ne within fun all => unfinished.not_filled ?_
    rw [resting.status_cut amount within, if_pos all.symm]
  · exact fun less => ⟨limit, Order.unfinished_cut less⟩

/-- An open order stays in the view after its call exactly when it rests. -/
theorem stays_processed_iff (positive : 0 < order.remaining) (opened : order.status = .OPEN) :
    (book.processed order).Stays ↔ book.Rests order := by
  have type := (processed_frame book order).2.2
  constructor
  · rintro ⟨limit, unfinished⟩
    exact ⟨type.symm.trans limit, unfinished.not_filled⟩
  · exact fun rests => ⟨type.trans rests.1, processed_unfinished positive opened rests⟩

/-- A report on a passive order has the place of the order. -/
theorem Plain.place_of_resolve (plain : book.Plain) {other : Order}
    (member : resting ∈ book.orders order.side.opposite)
    (left : other ∈ Roster.resolve Order.orderId Order.Stays
      ((book.fills order).map fun gave => gave.1.cut gave.2) resting) :
    other.side = resting.side ∧ other.price = resting.price := by
  rcases Roster.mem_resolve left with same | ⟨reported, same⟩
  · rw [same]
    exact ⟨rfl, rfl⟩
  · obtain ⟨gave, inFills, rfl⟩ := List.mem_map.mp reported
    have inBook := Greedy.mem_of_taken Order.remaining inFills
    have origin : gave.1 = resting := plain.unique.eq member inBook same
    rw [← origin]
    exact ⟨rfl, rfl⟩

/-- What the reports of a call make of the queues of the opposite side. -/
theorem Plain.queue_passive (plain : book.Plain) (own : order.symbol = book.symbol)
    (unwrapped : book.MatchUnwrapped order) (price : Price) :
    Ladder.queue (Ladder.serve order.side.opposite.Better (book.demand order)
        (book.orders order.side.opposite)) price =
      (Ladder.queue (book.orders order.side.opposite) price).flatMap
        (Roster.resolve Order.orderId Order.Stays
          ((book.fills order).map fun gave => gave.1.cut gave.2)) := by
  have sameId : ∀ (resting : Order) (amount : Nat),
      (resting.cut amount).orderId = resting.orderId := fun _ _ => rfl
  have left : Greedy.left Order.remaining Order.cut (book.demand order)
        (book.orders order.side.opposite) =
      (book.orders order.side.opposite).flatMap (Roster.resolve Order.orderId Order.Stays
        ((book.fills order).map fun gave => gave.1.cut gave.2)) :=
    Roster.left_eq_flatMap sameId (plain.unique.nodup _)
      fun resting member amount within => plain.stays_cut member within
  rw [Ladder.serve_eq_left (plain.wf.sorted _) (plain.positive _) (unwrapped own), left]
  exact Roster.filter_flatMap_resolve fun resting member other stays => decide_eq_decide.mpr
    (by rw [(plain.place_of_resolve member stays).2])

/-- The reports of a call leave the orders of its own side as they are. -/
theorem Plain.resolve_own (plain : book.Plain) (new : book.Absent order.orderId)
    (member : resting ∈ book.orders order.side) :
    Roster.resolve Order.orderId Order.Stays (book.updates order) resting = [resting] := by
  refine Roster.resolve_of_absent fun reported => ?_
  obtain ⟨update, inUpdates, same⟩ := List.mem_map.mp reported
  rcases List.mem_append.mp inUpdates with passive | crossing
  · obtain ⟨gave, inFills, rfl⟩ := List.mem_map.mp passive
    have inBook := Greedy.mem_of_taken Order.remaining inFills
    exact plain.unique.ne_of_opposite plain.wf member inBook same
  · rw [List.mem_singleton.mp crossing, processed_orderId] at same
    exact new _ resting member same.symm

/-- The order of the call itself is no report on an order of the opposite side. -/
theorem resolve_passive (new : book.Absent order.orderId)
    (member : resting ∈ book.orders order.side.opposite) :
    Roster.resolve Order.orderId Order.Stays (book.updates order) resting =
      Roster.resolve Order.orderId Order.Stays
        ((book.fills order).map fun gave => gave.1.cut gave.2) resting := by
  refine Roster.resolve_append_of_absent fun own => ?_
  rw [List.map_singleton, List.mem_singleton, processed_orderId] at own
  exact new _ resting member own

theorem processed_symbol (book : OrderBook) (order : Order) :
    (book.processed order).symbol = order.symbol := by
  rw [processed]
  split_ifs
  · rfl
  · exact (afterFills_frame book order).1

theorem processed_side (book : OrderBook) (order : Order) :
    (book.processed order).side = order.side := by
  rw [processed]
  split_ifs
  · rfl
  · exact (afterFills_frame book order).2.1

/-- A call puts its order at the end of its queue, if the order rests. -/
theorem Plain.queue_own {outcome : Outcome} {report : List Order}
    (executed : book.Executed order report outcome) (plain : book.Plain)
    (new : book.Absent order.orderId) (positive : 0 < order.remaining)
    (opened : order.status = .OPEN) (price : Price) :
    Ladder.queue (outcome.book.orders order.side) price =
      Ladder.queue (book.orders order.side) price ++
        (Roster.kept Order.Stays (book.processed order)).filter fun other =>
          other.side = order.side ∧ other.price = price := by
  have stays : (book.processed order).Stays ↔ _ := stays_processed_iff positive opened
  rw [executed.own, Roster.kept]
  by_cases rests : book.Rests order
  · have place : (book.processed order).orderId ∉
        (Ladder.queue (book.orders order.side) (book.processed order).price).map
          Order.orderId := by
      intro declined
      obtain ⟨other, queued, same⟩ := List.mem_map.mp declined
      rw [processed_orderId] at same
      exact new _ other (Ladder.mem_queue.mp queued).1 same
    rw [if_pos rests, if_pos (stays.mpr rests), Ladder.queue_rest (plain.wf.sorted _),
      List.filter_cons, List.filter_nil]
    simp only [place, not_false_eq_true, and_true, processed_side, true_and, decide_eq_true_eq]
    split_ifs
    · rfl
    · rw [List.append_nil]
  · rw [if_neg rests, if_neg (rests ∘ stays.mp), List.filter_nil, List.append_nil]

/-- The reports of a call take the view along. -/
theorem Executed.shows {outcome : Outcome}
    (executed : book.Executed order [book.processed order] outcome) (plain : book.Plain)
    (own : order.symbol = book.symbol) (unwrapped : book.MatchUnwrapped order)
    (new : book.Absent order.orderId) (positive : 0 < order.remaining)
    (opened : order.status = .OPEN) {view : OrderView} (shows : view.Shows book) :
    OrderView.Shows ((book.updates order).foldl OrderView.apply view) outcome.book := by
  have added : ((book.updates order).filter fun report =>
        report.orderId ∉ view.map Order.orderId) = [book.processed order] := by
    have last : (book.processed order).orderId ∉ view.map Order.orderId := by
      rw [processed_orderId]
      exact shows.absent_iff.mpr new
    rw [updates, List.filter_append, List.filter_eq_nil_iff.mpr fun report member => ?_,
      List.nil_append, List.filter_cons_of_pos (by simpa using last), List.filter_nil]
    obtain ⟨gave, inFills, rfl⟩ := List.mem_map.mp member
    have inBook := Greedy.mem_of_taken Order.remaining inFills
    have known : (gave.1.cut gave.2).orderId ∈ view.map Order.orderId :=
      List.mem_map.mpr ⟨gave.1, shows.mem_iff.mpr ⟨_, inBook⟩, rfl⟩
    simpa using known
  have heard : (book.updates order).foldl OrderView.apply view =
      view.flatMap (Roster.resolve Order.orderId Order.Stays (book.updates order)) ++
        Roster.kept Order.Stays (book.processed order) := by
    refine (Roster.foldl_hear (nodup_updates plain.unique new) view).trans ?_
    rw [added, List.flatMap_singleton]
  have part : ∀ side price, (view.flatMap (Roster.resolve Order.orderId Order.Stays
        (book.updates order))).filter (fun order => order.side = side ∧ order.price = price) =
      (Ladder.queue (book.orders side) price).flatMap
        (Roster.resolve Order.orderId Order.Stays (book.updates order)) := by
    intro side price
    rw [← shows side price]
    refine Roster.filter_flatMap_resolve fun resting inView other left => ?_
    obtain ⟨held, member⟩ := shows.mem_iff.mp inView
    rcases Side.eq_or_eq_opposite held order.side with active | passive
    · rw [active] at member
      rw [plain.resolve_own new member] at left
      rw [List.mem_singleton.mp left]
    · rw [passive] at member
      rw [resolve_passive new member] at left
      obtain ⟨sameSide, samePrice⟩ := plain.place_of_resolve member left
      rw [sameSide, samePrice]
  intro side price
  rw [heard, List.filter_append, part]
  rcases Side.eq_or_eq_opposite side order.side with active | passive
  · have kept : (Ladder.queue (book.orders order.side) price).flatMap
        (Roster.resolve Order.orderId Order.Stays (book.updates order)) =
        Ladder.queue (book.orders order.side) price := by
      refine (List.flatMap_congr fun resting queued => ?_).trans (List.flatMap_singleton' _)
      exact plain.resolve_own new (Ladder.mem_queue.mp queued).1
    rw [active, kept, plain.queue_own executed new positive opened]
  · have gone : (Roster.kept Order.Stays (book.processed order)).filter
        (fun order => order.side = side ∧ order.price = price) = [] := by
      refine List.filter_eq_nil_iff.mpr fun other member => ?_
      obtain ⟨-, rfl⟩ := Roster.mem_kept.mp member
      rw [decide_eq_true_iff, processed_side, passive]
      exact fun both => order.side.opposite_ne both.1.symm
    rw [gone, List.append_nil, passive, executed.passive, plain.queue_passive own unwrapped price]
    exact List.flatMap_congr fun resting queued =>
      resolve_passive new (Ladder.mem_queue.mp queued).1

end OrderBook

namespace Session

variable {session : Session} {order : Order} {result : Session × Response}

/-- Every order that a call reports is of the symbol of its book. -/
theorem Effect.symbol_of_report {request : Request} (effect : session.Effect request result)
    (wf : session.book.Wf) :
    ∀ update ∈ result.2.events.filterMap Event.order?, update.symbol = session.book.symbol := by
  cases effect with
  | foreign => exact fun _ member => (List.not_mem_nil member).elim
  | unknown => exact fun _ member => (List.not_mem_nil member).elim
  | removed _ _ _ _ _ removed =>
    intro update member
    rw [removed.orderFeed] at member
    cases member
  | executed order own after returned trades events executed =>
    intro update member
    rw [executed.orderFeed] at member
    split_ifs at member
    · rcases List.mem_append.mp member with passive | crossing
      · obtain ⟨gave, inFills, rfl⟩ := List.mem_map.mp passive
        exact (wf.placed (Greedy.mem_of_taken Order.remaining inFills)).1
      · rw [List.mem_singleton.mp crossing, OrderBook.processed_symbol]
        exact (prepared_frame session order).1
    · cases member

/-- What a call of an open order takes along. -/
theorem Effect.shows (effect : session.Effect (.addOrder order) result)
    (plain : session.book.Plain) (installed : session.book.handlers.privateOrderUpdate = true)
    (opened : Request.Open (.addOrder order))
    (unwrapped : session.book.MatchUnwrapped (session.prepared order))
    (new : session.book.Absent (session.prepared order).orderId) :
    result.1.book.Plain ∧ ∀ view : OrderView, view.Shows session.book →
      ((result.2.events.filterMap Event.order?).foldl OrderView.apply view).Shows
        result.1.book := by
  refine ⟨⟨effect.wf plain.wf, ?_, ?_, effect.positive opened.positive plain.positive⟩, ?_⟩
  · cases effect with
    | foreign => exact plain.unique
    | executed _ _ _ _ _ _ executed => exact executed.uniqueIds plain.unique new
  · intro side resting member
    rcases effect.origin member with old | ⟨origin, inBook, amount, -, -, rfl⟩ |
      ⟨brought, -, -, rests, -, rfl⟩
    · exact plain.limit side resting old
    · exact plain.limit side origin inBook
    · exact (OrderBook.processed_frame _ _).2.2.trans rests.1
  · cases effect with
    | foreign => exact fun view shows => shows
    | executed _ own after returned trades events executed =>
      have feed : events.filterMap Event.order? = session.book.updates (session.prepared order) :=
        executed.orderFeed.trans (if_pos installed)
      have positive : 0 < (session.prepared order).remaining := by
        rw [prepared_remaining]
        exact Quantity.lt_iff.mp opened.1
      have status := (prepared_frame session order).2.2.2.trans opened.2
      intro view shows
      dsimp only
      rw [feed]
      exact executed.shows plain (prepared_frame session order).1 unwrapped new positive status
        shows

end Session

end OrderForge
