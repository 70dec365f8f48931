/-
This file settles what orders of quantity zero do to the book and to the tape. Nothing
rejects them: a match that reaches one makes a trade of nothing, and one that comes to
rest can make a level that counts zero, which every other operation would have erased.
Neither happens in a run exactly when no call reaches an empty order and no order
comes to rest at a price whose counter it leaves at zero.
-/

import OrderForge.Admission

namespace OrderForge

/-! ### Counters that are not zero -/

namespace Ladder

/-- No price with orders has a counter of zero. -/
def Solid (orders : List Order) : Prop :=
  ∀ price, queue orders price ≠ [] → quantity orders price % 2 ^ 64 ≠ 0

variable {before : Price → Price → Prop} [DecidableRel before] [IsStrictTotalOrder Price before]
  {orders : List Order}

/-- A counter of a ladder after a quota was served. -/
theorem quantity_left (sorted : Ranked.Sorted before Order.price orders) (quota : Nat)
    (price : Price) :
    quantity (Greedy.left Order.remaining Order.cut quota orders) price =
      quantity orders price - (quota - ahead before orders price) :=
  (congrArg (Greedy.total Order.remaining)
    (Ranked.queue_left Order.remaining Order.cut (fun _ _ => rfl) sorted quota price)).trans
    (Greedy.total_left Order.remaining Order.cut Order.remaining_cut _ _)

/-- A match erases what it leaves at zero. -/
theorem Solid.serve (solid : Solid orders) (sorted : Ranked.Sorted before Order.price orders)
    (quota : Nat) : Solid (serve before quota orders) := by
  intro price some
  obtain ⟨order, member⟩ := List.exists_mem_of_ne_nil _ some
  obtain ⟨inServe, rfl⟩ := mem_queue.mp member
  obtain ⟨inLeft, kept⟩ := List.mem_filter.mp inServe
  have queueEq : queue (Ladder.serve before quota orders) order.price =
      queue (Greedy.left Order.remaining Order.cut quota orders) order.price := by
    rw [queue, queue, Ranked.queue, Ranked.queue, Ladder.serve, List.filter_filter]
    refine List.filter_congr fun other _ => ?_
    by_cases same : other.price = order.price
    · rw [same]
      simpa using kept
    · simp [same]
  have before_ : queue orders order.price ≠ [] := by
    intro none
    have left := Ranked.queue_left Order.remaining Order.cut (fun _ _ => rfl) sorted quota
      order.price
    rw [show Ranked.queue Order.price orders order.price = [] from none, Greedy.left_nil] at left
    exact some (queueEq.trans left)
  have total := solid order.price before_
  have unpruned : ¬ Pruned before quota orders order.price := of_decide_eq_true kept
  rw [quantity, queueEq, ← quantity, quantity_left sorted]
  rw [Pruned, upTo_eq] at unpruned
  rcases Nat.lt_or_ge (ahead before orders order.price) quota with reached | ahead_
  · intro zero
    refine unpruned ⟨reached, ?_⟩
    rw [← zero]
    congr 1
    omega
  · rwa [Nat.sub_eq_zero_of_le ahead_, Nat.sub_zero]

/-- A cancel erases what it leaves at zero. -/
theorem Solid.cancel (solid : Solid orders) (price : Price) (id : OrderId) :
    Solid (cancel price id orders) := by
  intro other some
  rw [Ladder.cancel, queue_prune] at some
  split_ifs at some with pruned
  · exact absurd rfl some
  rw [quantity, Ladder.cancel, queue_prune, if_neg pruned]
  by_cases same : other = price
  · subst same
    exact fun zero => pruned ⟨rfl, zero⟩
  · rw [queue_without, if_neg same] at some ⊢
    exact solid other some

/-- A resting order leaves no counter at zero unless it is taken in and the counter comes to
zero with it. -/
theorem Solid.rest_iff (solid : Solid orders) (sorted : Ranked.Sorted before Order.price orders)
    (order : Order) :
    Solid (rest before order orders) ↔
      (order.orderId ∉ (queue orders order.price).map Order.orderId →
        (quantity orders order.price + order.remaining) % 2 ^ 64 ≠ 0) := by
  have total : ∀ price, quantity (rest before order orders) price =
      if order.price = price ∧ order.orderId ∉ (queue orders order.price).map Order.orderId then
        quantity orders price + order.remaining
      else quantity orders price := by
    intro price
    rw [quantity, queue_rest sorted]
    split_ifs
    · rw [Greedy.total_append, Greedy.total_cons, Greedy.total_nil, Nat.add_zero]
      rfl
    · rfl
  constructor
  · intro after fresh
    have own := after order.price (by
      rw [queue_rest sorted, if_pos ⟨rfl, fresh⟩]
      exact List.append_ne_nil_of_right_ne_nil _ (List.cons_ne_nil _ _))
    rwa [total, if_pos ⟨rfl, fresh⟩] at own
  · intro nonzero price some
    rw [total]
    split_ifs with both
    · obtain ⟨rfl, fresh⟩ := both
      exact nonzero fresh
    · rw [queue_rest sorted, if_neg both] at some
      exact solid price some

end Ladder

namespace OrderBook

variable {book : OrderBook}

/-- The levels of a side count more than nothing exactly when its ladder has no counter of
zero. -/
theorem Wf.positive_levels_iff (wf : book.Wf) (side : Side) :
    (∀ entry ∈ book.levels side, 0 < entry.2.totalQty) ↔ Ladder.Solid (book.orders side) := by
  have counted : ∀ entry ∈ book.levels side,
      Quantity.toNat entry.2.totalQty = Ladder.quantity (book.orders side) entry.1 % 2 ^ 64 := by
    intro entry member
    rw [Ladder.quantity, ← (wf.level_orders member).1]
    cases side with
    | BUY => exact (wf.bids.levels entry member).counted
    | SELL => exact (wf.asks.levels entry member).counted
  constructor
  · intro positive price some
    obtain ⟨order, queued⟩ := List.exists_mem_of_ne_nil _ some
    obtain ⟨inBook, rfl⟩ := Ladder.mem_queue.mp queued
    obtain ⟨entry, member, same⟩ := wf.exists_level inBook
    have nonzero := Quantity.lt_iff.mp (positive entry member)
    rw [counted entry member, same] at nonzero
    exact nonzero.ne'
  · intro solid entry member
    obtain ⟨queue, populated⟩ := wf.level_orders member
    refine Quantity.lt_iff.mpr ?_
    rw [counted entry member]
    exact Nat.pos_of_ne_zero (solid entry.1 (queue ▸ populated))

/-! ### One order -/

variable {order : Order} {report : List Order} {outcome : Outcome}

/-- Whether an order is handed to its own side, told from the book before the call. -/
def Lingers (book : OrderBook) (order : Order) : Prop :=
  order.type = .LIMIT ∧
    if book.Marketable order ∧ 0 < order.remaining then book.supply order < order.remaining
    else order.status ≠ .FILLED

instance (book : OrderBook) (order : Order) : Decidable (book.Lingers order) := by
  unfold Lingers
  infer_instance

/-- What an order has left when its call ends. -/
def leftOver (book : OrderBook) (order : Order) : Nat :=
  if book.Marketable order then order.remaining - book.supply order else order.remaining

theorem rests_iff_lingers : book.Rests order ↔ book.Lingers order := by
  refine and_congr_right fun limit => ?_
  by_cases marketable : book.Marketable order
  · rcases Nat.eq_zero_or_pos order.remaining with zero | positive
    · have none : book.fills order = [] := by
        rw [fills, demand_of_marketable marketable, zero, Greedy.taken_zero]
      rw [if_neg fun both => both.2.ne' zero, processed_of_marketable marketable, afterFills,
        if_pos none]
    · rw [if_pos ⟨marketable, positive⟩, status_of_marketable positive marketable]
      split_ifs with enough
      · simpa using enough
      · simpa using enough
  · rw [if_neg fun both => marketable both.1, status_of_not_marketable marketable, if_pos limit]

theorem processed_leftOver (book : OrderBook) (order : Order) :
    (book.processed order).remaining = book.leftOver order := by
  rw [processed_remaining, leftOver]
  split_ifs with marketable
  · rw [sum_fills_of_marketable marketable]
    omega
  · rw [fills_of_not marketable]
    rfl

/-- Whether an order reaches no empty order, and leaves no counter at zero where it comes to
rest. -/
def ZeroFree (book : OrderBook) (order : Order) : Prop :=
  ((∀ resting ∈ book.orders order.side.opposite, 0 < resting.remaining) ∨
    book.demand order ≤ Greedy.total Order.remaining
      ((book.orders order.side.opposite).takeWhile fun resting => 0 < resting.remaining)) ∧
  (book.Lingers order → book.IdFree order →
    (Ladder.quantity (book.orders order.side) order.price + book.leftOver order) % 2 ^ 64 ≠ 0)

instance (book : OrderBook) (order : Order) : Decidable (book.ZeroFree order) :=
  inferInstanceAs (Decidable ((_ ∨ _) ∧ (_ → _ → _)))

theorem Executed.trades_positive_iff (executed : book.Executed order report outcome) :
    (∀ trade ∈ outcome.trades, 0 < trade.qty) ↔ ∀ gave ∈ book.fills order, 0 < gave.2 := by
  have amounts : outcome.trades.map Trade.qty =
      (book.fills order).map fun gave => Quantity.ofNat gave.2 := by
    have terms := congrArg (List.map Trade.qty) executed.trades
    rwa [List.map_map, List.map_map] at terms
  rw [← List.forall_mem_map (f := Trade.qty) (P := fun qty => 0 < qty), amounts,
    List.forall_mem_map]
  refine forall_congr' fun gave => forall_congr' fun member => ?_
  rw [Quantity.lt_iff, Quantity.toNat_ofNat (small_fills book order gave member),
    Quantity.toNat_zero]

theorem Executed.solid_own_iff (executed : book.Executed order report outcome) (wf : book.Wf)
    (solid : Ladder.Solid (book.orders order.side)) :
    Ladder.Solid (outcome.book.orders order.side) ↔
      (book.Lingers order → book.IdFree order →
        (Ladder.quantity (book.orders order.side) order.price + book.leftOver order) % 2 ^ 64
          ≠ 0) := by
  obtain ⟨price, id, -⟩ := book.processed_frame order
  rw [executed.own]
  split_ifs with rests
  · rw [solid.rest_iff (wf.sorted _), price, id, processed_leftOver, idFree_iff]
    exact (imp_iff_right (rests_iff_lingers.mp rests)).symm
  · exact ⟨fun _ lingers => absurd (rests_iff_lingers.mpr lingers) rests, fun _ => solid⟩

end OrderBook

/-! ### Runs -/

/-- Whether a call trades nothing but positive quantities and leaves nothing but levels of
positive quantity. -/
structure PositiveQuantities (call : Call) : Prop where
  trades : ∀ trade ∈ call.output.trades, 0 < trade.qty
  levels : ∀ side, ∀ entry ∈ call.after.book.levels side, 0 < entry.2.totalQty

/-- Whether the order of a call, if the book takes it, keeps zero quantities off the book and the
tape. -/
def ZeroFree (call : Call) : Prop :=
  match call.input with
  | .addOrder order => order.symbol = call.before.book.symbol →
    call.before.book.ZeroFree (call.before.prepared order)
  | .removeOrder _ => True

instance : DecidablePred ZeroFree
  | ⟨_, .addOrder _, _, _⟩ => inferInstanceAs (Decidable (_ → _))
  | ⟨_, .removeOrder _, _, _⟩ => inferInstanceAs (Decidable True)

namespace Session

theorem Effect.positive_quantities_iff {session : Session} (wf : session.book.Wf)
    {request : Request} {result : Session × Response} (effect : session.Effect request result)
    (solid : ∀ side, Ladder.Solid (session.book.orders side)) :
    PositiveQuantities ⟨session, request, result.2, result.1⟩ ↔
      ZeroFree ⟨session, request, result.2, result.1⟩ := by
  have idle : ∀ {after : Session} {events : List Event} {order : Option Order}, after.book.Wf →
      (∀ side, Ladder.Solid (after.book.orders side)) →
      PositiveQuantities ⟨session, request, ⟨order, [], events⟩, after⟩ :=
    fun afterWf afterSolid => ⟨fun trade member => by (cases member),
      fun side => (afterWf.positive_levels_iff side).mpr (afterSolid side)⟩
  cases effect with
  | foreign order foreign => exact ⟨fun _ own => absurd own foreign, fun _ => idle wf solid⟩
  | unknown id unknown => exact ⟨fun _ => trivial, fun _ => idle wf solid⟩
  | removed id helper after events found removed =>
    refine ⟨fun _ => trivial, fun _ => idle removed.wf fun side => ?_⟩
    rcases Side.eq_or_eq_opposite side helper.side with same | same
    · rw [same]
      exact removed.own ▸ (solid _).cancel _ _
    · rw [same]
      exact removed.other ▸ solid _
  | executed order own after returned trades events executed =>
    have trades_ := executed.trades_positive_iff
    have ownSide := executed.solid_own_iff wf (solid _)
    have passive := (solid (session.prepared order).side.opposite).serve (wf.sorted _)
      (session.book.demand (session.prepared order))
    rw [← executed.passive] at passive
    rw [OrderBook.fills, Greedy.taken_pos_iff] at trades_
    constructor
    · intro positive _
      refine ⟨trades_.mp positive.trades, ownSide.mp ?_⟩
      exact (executed.wf.positive_levels_iff _).mp (positive.levels _)
    · intro free
      obtain ⟨reaches, rests⟩ := free own
      refine ⟨trades_.mpr reaches, fun side => (executed.wf.positive_levels_iff side).mpr ?_⟩
      rcases Side.eq_or_eq_opposite side (session.prepared order).side with same | same
      · exact same ▸ ownSide.mpr rests
      · exact same ▸ passive

variable {symbol : String} {handlers : Handlers} {orderIds tradeIds : IdGenerator}

/-- As long as every call so far kept zero quantities off the book, no counter is zero. -/
theorem final_solid {front : List Request}
    (positive : ∀ call ∈ (create symbol handlers orderIds tradeIds).run front,
      PositiveQuantities call) :
    ∀ side, Ladder.Solid
      (((create symbol handlers orderIds tradeIds).final front).book.orders side) := by
  refine run_induction (motive := fun _ session => ∀ side, Ladder.Solid (session.book.orders side))
    ?_ ?_ front positive
  · intro side price some
    exact absurd (by cases side <;> rfl) some
  · intro past session request result wf _ effect levels side
    exact ((effect.wf wf).positive_levels_iff side).mp (levels.levels side)

/-- In every run, no trade and no level has quantity zero after any call exactly when every call
reaches no empty order and leaves no counter at zero where its order comes to rest. -/
theorem quantities_positive_iff {requests : List Request} :
    (∀ call ∈ (create symbol handlers orderIds tradeIds).run requests, PositiveQuantities call) ↔
      ∀ call ∈ (create symbol handlers orderIds tradeIds).run requests, ZeroFree call := by
  constructor
  · intro positive call member
    obtain ⟨wf, -, effect⟩ := call_effect member
    obtain ⟨front, back, requestsEq, callEq⟩ := Machine.mem_run step member
    refine (effect.positive_quantities_iff wf ?_).mp (positive call member)
    rw [callEq]
    refine final_solid fun call inFront => positive call ?_
    rw [requestsEq, run, Machine.run_append]
    exact List.mem_append_left _ inFront
  · intro free
    refine (run_induction (motive := fun past session =>
      (∀ call ∈ past, PositiveQuantities call) ∧ ∀ side, Ladder.Solid (session.book.orders side))
      ⟨fun call member => by (cases member), fun side price some => ?_⟩ ?_ requests free).1
    · exact absurd (by cases side <;> rfl) some
    · rintro past session request result wf ⟨positive, solid⟩ effect allowed
      have last := (effect.positive_quantities_iff wf solid).mpr allowed
      refine ⟨fun call member => ?_, fun side =>
        ((effect.wf wf).positive_levels_iff side).mp (last.levels side)⟩
      rcases List.mem_append.mp member with old | new
      · exact positive call old
      · exact List.mem_singleton.mp new ▸ last

/-- A buy order takes a sell order and half of another. -/
theorem sample_quantities_positive :
    ∃ call ∈ sampleSession.run sampleFills, call.output.trades ≠ [] ∧ PositiveQuantities call := by
  have positive : ∀ call ∈ sampleSession.run sampleFills, PositiveQuantities call :=
    quantities_positive_iff.mpr (by decide)
  have last : Machine.transition step (sampleSession.final sampleAsks)
      (.addOrder (sampleOrder .BUY .LIMIT 10500 150000000 3)) ∈ sampleSession.run sampleFills :=
    List.mem_cons_of_mem _ (List.mem_cons_of_mem _ List.mem_cons_self)
  exact ⟨_, last, by decide, positive _ last⟩

/-- A limit order of quantity zero makes a level that counts zero. -/
theorem zero_order_makes_zero_level :
    ¬ ∀ call ∈ sampleSession.run [.addOrder (sampleOrder .SELL .LIMIT 10000 0 1)],
      PositiveQuantities call := by
  intro positive
  exact absurd ((positive _ List.mem_cons_self).levels .SELL _ List.mem_cons_self) (by decide)

end Session

end OrderForge
