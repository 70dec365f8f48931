/-
This file settles whether resting orders can vanish. A level is thrown away when
its counter is zero, and the counter counts modulo `2 ^ 64`. So a call takes a
resting order off the book without cancelling or filling it exactly when a counter
wraps: when a cancel leaves orders that sum to a multiple of `2 ^ 64` at its price,
or when a match stops inside a price and leaves such a sum there.
-/

import OrderForge.Fate

namespace OrderForge

/-! ### Positive orders -/

/-- A request that submits nothing but orders with something left. -/
def Request.Positive : Request → Prop
  | .addOrder order => 0 < order.remainingQty
  | .removeOrder _ => True

instance : DecidablePred Request.Positive
  | .addOrder order => inferInstanceAs (Decidable (0 < order.remainingQty))
  | .removeOrder _ => inferInstanceAs (Decidable True)

namespace OrderBook

variable {book : OrderBook} {order : Order}

/-- What is left of a positive order when it comes to rest is positive. -/
theorem processed_positive (positive : 0 < order.remaining) (rests : book.Rests order) :
    0 < (book.processed order).remaining := by
  rw [processed_remaining]
  exact Nat.sub_pos_of_lt (sum_fills_lt positive rests)

end OrderBook

namespace Session

variable {symbol : String} {handlers : Handlers} {orderIds tradeIds : IdGenerator}

theorem prepared_remaining (session : Session) (order : Order) :
    (session.prepared order).remaining = order.remaining := by
  rw [prepared_eq]
  rfl

/-- The invariant of positive runs: every resting order has something left. -/
theorem Effect.positive {session : Session} {request : Request} {result : Session × Response}
    (effect : session.Effect request result) (allowed : request.Positive)
    (positive : ∀ side, ∀ order ∈ session.book.orders side, 0 < order.remaining) :
    ∀ side, ∀ order ∈ result.1.book.orders side, 0 < order.remaining := by
  intro side order member
  rcases effect.origin member with old | ⟨origin, inBook, amount, some, less, rfl⟩ |
    ⟨brought, rfl, -, rests, rfl, rfl⟩
  · exact positive side order old
  · rw [origin.remaining_cut amount less.le]
    omega
  · refine OrderBook.processed_positive ?_ rests
    rw [prepared_remaining]
    exact Quantity.lt_iff.mp allowed

end Session

/-! ### One call -/

/-- Whether a call takes resting orders off the book only by cancelling or filling them. -/
def KeepsResting (call : Call) : Prop :=
  ∀ side, ∀ resting ∈ call.before.book.orders side,
    (∃ kept ∈ call.after.book.orders side, kept.place = resting.place) ∨
    call.input = .removeOrder resting.orderId ∨
    filled call.output.trades resting = resting.remaining

namespace OrderBook

/-- Whether a cancel leaves nothing at its price, or no multiple of `2 ^ 64`. -/
def CancelUnwrapped (book : OrderBook) (id : OrderId) : Prop :=
  match book.ordersIdMap.find? id with
  | none => True
  | some helper =>
    Ladder.queue (Ladder.without helper.price id (book.orders helper.side)) helper.price = [] ∨
    Ladder.quantity (Ladder.without helper.price id (book.orders helper.side)) helper.price
      % 2 ^ 64 ≠ 0

instance (book : OrderBook) (id : OrderId) : Decidable (book.CancelUnwrapped id) := by
  unfold CancelUnwrapped
  cases book.ordersIdMap.find? id <;> infer_instance

theorem cancelUnwrapped_iff {book : OrderBook} {id : OrderId} {helper : FindOrderHelper}
    (found : book.ordersIdMap.find? id = some helper) :
    book.CancelUnwrapped id ↔
      (Ladder.queue (Ladder.without helper.price id (book.orders helper.side)) helper.price = [] ∨
        Ladder.quantity (Ladder.without helper.price id (book.orders helper.side)) helper.price
          % 2 ^ 64 ≠ 0) := by
  rw [CancelUnwrapped, found]

/-- Whether matching an order stops inside no price at which it leaves a multiple of `2 ^ 64`. -/
def MatchUnwrapped (book : OrderBook) (order : Order) : Prop :=
  order.symbol = book.symbol → ∀ resting ∈ book.orders order.side.opposite,
    ¬ Ladder.Wraps order.side.opposite.Better (book.demand order)
      (book.orders order.side.opposite) resting.price

instance (book : OrderBook) (order : Order) : Decidable (book.MatchUnwrapped order) :=
  inferInstanceAs (Decidable (_ → _))

end OrderBook

/-- Whether no counter wraps in a call. -/
def Unwrapped (call : Call) : Prop :=
  match call.input with
  | .addOrder order => call.before.book.MatchUnwrapped order
  | .removeOrder id => call.before.book.CancelUnwrapped id

instance : DecidablePred Unwrapped := fun call => by
  unfold Unwrapped
  cases call.input <;> infer_instance

namespace OrderBook

variable {book : OrderBook}

theorem Removed.keeps_iff {helper : FindOrderHelper} {result : OrderBook × List Event}
    (removed : book.Removed helper result)
    (positive : ∀ side, ∀ order ∈ book.orders side, 0 < order.remaining) :
    (∀ side, ∀ resting ∈ book.orders side,
      (∃ kept ∈ result.1.orders side, kept.place = resting.place) ∨
      helper.orderId = resting.orderId ∨ 0 = resting.remaining) ↔
    (Ladder.queue (Ladder.without helper.price helper.orderId (book.orders helper.side))
        helper.price = [] ∨
      Ladder.quantity (Ladder.without helper.price helper.orderId (book.orders helper.side))
        helper.price % 2 ^ 64 ≠ 0) := by
  constructor
  · intro keeps
    by_contra wrapped
    obtain ⟨some, zero⟩ := not_or.mp wrapped
    obtain ⟨lost, queued⟩ := List.exists_mem_of_ne_nil _ some
    obtain ⟨inWithout, price⟩ := Ladder.mem_queue.mp queued
    obtain ⟨inBook, notBoth⟩ := List.mem_filter.mp inWithout
    have otherId : lost.orderId ≠ helper.orderId := fun same =>
      of_decide_eq_true notBoth ⟨price, same⟩
    rcases keeps helper.side lost inBook with ⟨kept, inAfter, place⟩ | same | none
    · rw [removed.own, Ladder.cancel, Ladder.prune, if_pos (not_not.mp zero)] at inAfter
      refine of_decide_eq_true (List.mem_filter.mp inAfter).2 ?_
      exact (congrArg Prod.fst place).trans price
    · exact otherId same.symm
    · exact absurd none (positive _ _ inBook).ne
  · intro fits side resting inBook
    rcases Side.eq_or_eq_opposite side helper.side with same | same
    · subst same
      by_cases own : resting.price = helper.price ∧ resting.orderId = helper.orderId
      · exact Or.inr (Or.inl own.2.symm)
      · refine Or.inl ⟨resting, ?_, rfl⟩
        rw [removed.own, Ladder.cancel, Ladder.prune_eq_self fits]
        exact List.mem_filter.mpr ⟨inBook, decide_eq_true own⟩
    · subst same
      refine Or.inl ⟨resting, ?_, rfl⟩
      rw [removed.other]
      exact inBook

theorem Executed.keeps_iff {order : Order} {report : List Order} {outcome : Outcome}
    (executed : book.Executed order report outcome) (wf : book.Wf)
    (positive : ∀ side, ∀ order ∈ book.orders side, 0 < order.remaining) :
    (∀ side, ∀ resting ∈ book.orders side,
      (∃ kept ∈ outcome.book.orders side, kept.place = resting.place) ∨
      filled outcome.trades resting = resting.remaining) ↔
    ∀ resting ∈ book.orders order.side.opposite,
      ¬ Ladder.Wraps order.side.opposite.Better (book.demand order)
        (book.orders order.side.opposite) resting.price := by
  have sorted := wf.sorted order.side.opposite
  have distinct := wf.nodup_places order.side.opposite
  constructor
  · intro keeps resting member wraps
    obtain ⟨front, lost, back, split, price, begun, ends⟩ :=
      Ladder.exists_end_at sorted wraps.1 wraps.2.1
    have inBook : lost ∈ book.orders order.side.opposite :=
      split ▸ List.mem_append_right _ List.mem_cons_self
    rcases keeps _ lost inBook with ⟨kept, inAfter, place⟩ | all
    · rw [executed.passive] at inAfter
      refine of_decide_eq_true (List.mem_filter.mp inAfter).2 ?_
      rw [show kept.price = resting.price from (congrArg Prod.fst place).trans price]
      exact ⟨wraps.1, wraps.2.2⟩
    · rw [executed.filled_passive wf inBook, given, split] at all
      rw [split] at distinct
      rw [Ladder.given_split distinct] at all
      omega
  · intro unwrapped side resting inBook
    rcases Side.eq_or_eq_opposite side order.side with same | same
    · subst same
      refine Or.inl ⟨resting, ?_, rfl⟩
      rw [executed.own]
      split_ifs
      · exact Ladder.mem_rest_of_mem inBook
      · exact inBook
    · subst same
      rw [executed.filled_passive wf inBook]
      by_cases all : book.given order resting = resting.remaining
      · exact Or.inr all
      have kept := executed.passive_atPlace wf (positive _) unwrapped inBook
      rw [Ladder.after, if_neg all] at kept
      obtain ⟨survivor, atPlace⟩ : ∃ survivor, survivor ∈ Ladder.atPlace
          (outcome.book.orders order.side.opposite) resting.place := by
        rw [kept]
        split_ifs
        · exact ⟨_, List.mem_cons_self⟩
        · exact ⟨_, List.mem_cons_self⟩
      obtain ⟨inAfter, place⟩ := Ladder.mem_atPlace.mp atPlace
      exact Or.inl ⟨survivor, inAfter, place⟩

end OrderBook

namespace Session

theorem demand_prepared (session : Session) (order : Order) :
    session.book.demand (session.prepared order) = session.book.demand order := by
  rw [prepared_eq]
  rfl

theorem prepared_side (session : Session) (order : Order) :
    (session.prepared order).side = order.side := by
  rw [prepared_eq]

/-- A call takes resting orders off the book only by cancelling or filling them exactly when no
counter wraps in it. -/
theorem Effect.keeps_iff {session : Session} (wf : session.book.Wf) {request : Request}
    {result : Session × Response} (effect : session.Effect request result)
    (positive : ∀ side, ∀ order ∈ session.book.orders side, 0 < order.remaining) :
    KeepsResting ⟨session, request, result.2, result.1⟩ ↔
      Unwrapped ⟨session, request, result.2, result.1⟩ := by
  cases effect with
  | foreign order foreign =>
    refine ⟨fun _ own => absurd own foreign, fun _ side resting member => ?_⟩
    exact Or.inl ⟨resting, member, rfl⟩
  | unknown id unknown =>
    have idle : session.book.CancelUnwrapped id := by
      rw [OrderBook.CancelUnwrapped, unknown]
      trivial
    refine ⟨fun _ => idle, fun _ side resting member => ?_⟩
    exact Or.inl ⟨resting, member, rfl⟩
  | removed id helper after events found removed =>
    have ownId := wf.index_orderId found
    subst ownId
    refine Iff.trans ?_ ((removed.keeps_iff positive).trans
      (OrderBook.cancelUnwrapped_iff found).symm)
    refine forall_congr' fun side => forall_congr' fun resting => imp_congr_right fun _ => ?_
    refine or_congr_right (or_congr_left ?_)
    exact ⟨fun same => Request.removeOrder.inj same, fun same => congrArg _ same⟩
  | executed order own after returned trades events executed =>
    have keeps := executed.keeps_iff wf positive
    rw [prepared_side, demand_prepared] at keeps
    refine Iff.trans ?_ (keeps.trans ⟨fun unwrapped _ => unwrapped, fun unwrapped => unwrapped own⟩)
    refine forall_congr' fun side => forall_congr' fun resting => imp_congr_right fun _ => ?_
    refine or_congr_right ⟨fun either => either.resolve_left fun same => ?_, Or.inr⟩
    cases same

variable {symbol : String} {handlers : Handlers} {orderIds tradeIds : IdGenerator}

theorem final_positive {requests : List Request}
    (positive : ∀ request ∈ requests, request.Positive) :
    ∀ side, ∀ order ∈ ((create symbol handlers orderIds tradeIds).final requests).book.orders side,
      0 < order.remaining := by
  refine run_induction
    (motive := fun _ session => ∀ side, ∀ order ∈ session.book.orders side, 0 < order.remaining)
    ?_ ?_ requests fun call member => positive _ (call_effect member).2.1
  · intro side order member
    cases side <;> cases member
  · intro past session request result wf kept effect allowed
    exact effect.positive allowed kept

theorem call_keeps_iff {requests : List Request}
    (positive : ∀ request ∈ requests, request.Positive) {call : Call}
    (member : call ∈ (create symbol handlers orderIds tradeIds).run requests) :
    KeepsResting call ↔ Unwrapped call := by
  obtain ⟨wf, -, effect⟩ := call_effect member
  obtain ⟨front, back, requestsEq, callEq⟩ := Machine.mem_run step member
  refine effect.keeps_iff wf ?_
  rw [callEq]
  exact final_positive fun request inFront =>
    positive request (requestsEq ▸ List.mem_append_left _ inFront)

/-- In every run of positive orders, every call takes resting orders off the book only by
cancelling or filling them exactly when no counter wraps in any call. -/
theorem resting_kept_iff {requests : List Request}
    (positive : ∀ request ∈ requests, request.Positive) :
    (∀ call ∈ (create symbol handlers orderIds tradeIds).run requests, KeepsResting call) ↔
      ∀ call ∈ (create symbol handlers orderIds tradeIds).run requests, Unwrapped call :=
  forall_congr' fun _ => forall_congr' fun member => call_keeps_iff positive member

/-- Of two sell orders at one price the first is cancelled. -/
theorem sample_kept :
    (∀ call ∈ sampleSession.run (sampleAsks ++ [.removeOrder 1]), KeepsResting call) ∧
      ((sampleSession.final (sampleAsks ++ [.removeOrder 1])).book.orders .SELL).map
        Order.orderId = [2] :=
  ⟨(resting_kept_iff (by decide)).mpr (by decide), by decide⟩

/-- Three sell orders at one price whose first two sum to `2 ^ 64`: cancelling the third erases
the level with the first two in it. -/
theorem cancel_erases_live_orders :
    ¬ ∀ call ∈ sampleSession.run
      [.addOrder (sampleOrder .SELL .LIMIT 10000 9223372036854775808 1),
        .addOrder (sampleOrder .SELL .LIMIT 10000 9223372036854775808 2),
        .addOrder (sampleOrder .SELL .LIMIT 10000 1 3), .removeOrder 3],
      KeepsResting call := by
  intro keeps
  have unwrapped := fun call member =>
    (call_keeps_iff (by decide) member).mp (keeps call member)
  exact absurd unwrapped (by decide)

end Session

end OrderForge
