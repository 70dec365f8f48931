/-
This file settles whether the status of an order says what was traded. A match sets
the status by what is left, and a rejection sets it as well. But a limit order that
meets nothing keeps the status it was submitted with, and a match against nothing but
empty orders calls the order filled in part. Otherwise the status is right.
-/

import OrderForge.Immediate

namespace OrderForge

namespace OrderBook

variable {book : OrderBook} {order : Order} {report : List Order} {outcome : Outcome}

/-- What rests on the side an order would trade with. -/
def supply (book : OrderBook) (order : Order) : Nat :=
  Greedy.total Order.remaining (book.orders order.side.opposite)

/-- Whether an order finds all it asks for. -/
def FillsUp (book : OrderBook) (order : Order) : Prop :=
  book.Marketable order ∧ order.remaining ≤ book.supply order

instance (book : OrderBook) (order : Order) : Decidable (book.FillsUp order) :=
  inferInstanceAs (Decidable (_ ∧ _))

theorem sum_fills_of_marketable (marketable : book.Marketable order) :
    ((book.fills order).map Prod.snd).sum = min order.remaining (book.supply order) := by
  rw [sum_fills, demand_of_marketable marketable]
  rfl

/-- The status of a marketable order. -/
theorem status_of_marketable (positive : 0 < order.remaining)
    (marketable : book.Marketable order) :
    (book.processed order).status =
      if order.remaining ≤ book.supply order then .FILLED else .PARTIAL := by
  have some := fun none => (fills_eq_nil_iff positive).mp none marketable
  rw [processed_of_marketable marketable, afterFills_status some,
    sum_fills_of_marketable marketable]
  split_ifs <;> first | rfl | omega

/-- The status of any other order. -/
theorem status_of_not_marketable (silent : ¬ book.Marketable order) :
    (book.processed order).status = if order.type = .LIMIT then order.status else .REJECTED := by
  rw [processed]
  by_cases limit : order.type = .LIMIT
  · rw [if_neg fun both => both.1 limit, if_pos limit, afterFills, if_pos (fills_of_not silent)]
  · rw [if_pos ⟨limit, silent⟩, if_neg limit]
    rfl

/-- Whether the status of an order will be right: what it meets is worth a trade, and a limit
order that meets nothing was not submitted as traded. -/
def StatusSound (book : OrderBook) (order : Order) : Prop :=
  if book.Marketable order then 0 < book.supply order
  else order.type = .LIMIT → order.status ≠ .FILLED ∧ order.status ≠ .PARTIAL

instance (book : OrderBook) (order : Order) : Decidable (book.StatusSound order) := by
  unfold StatusSound
  infer_instance

end OrderBook

/-- Whether a status says what was traded of an order. -/
structure StatusMatches (order : Order) (status : OrderStatus) (trades : List Trade) : Prop where
  filled : status = .FILLED ↔ volume trades = Quantity.toNat order.qty
  inPart : status = .PARTIAL ↔ 0 < volume trades ∧ volume trades < Quantity.toNat order.qty
  untraded : status = .OPEN ∨ status = .REJECTED → trades = []

namespace OrderBook

variable {book : OrderBook} {order : Order} {report : List Order} {outcome : Outcome}

theorem Executed.status_matches_of_marketable (executed : book.Executed order report outcome)
    (positive : 0 < order.remaining) (whole : order.remainingQty = order.qty)
    (marketable : book.Marketable order) :
    StatusMatches order outcome.order.status outcome.trades ↔ 0 < book.supply order := by
  have traded := executed.volume
  have status : outcome.order.status = _ :=
    (congrArg Order.status executed.result).trans (status_of_marketable positive marketable)
  have amount : Quantity.toNat order.qty = order.remaining := congrArg Quantity.toNat whole.symm
  rw [sum_fills_of_marketable marketable] at traded
  rw [status]
  constructor
  · intro sound
    by_contra none
    have inPart := sound.inPart.mp (if_neg (by omega))
    omega
  · intro some
    refine ⟨?_, ?_, fun idle => ?_⟩
    · rw [traded, amount]
      split_ifs <;> simp <;> omega
    · rw [traded, amount]
      split_ifs <;> simp <;> omega
    · split_ifs at idle <;> simp at idle

theorem Executed.status_matches_of_not (executed : book.Executed order report outcome)
    (positive : 0 < order.remaining) (whole : order.remainingQty = order.qty)
    (silent : ¬ book.Marketable order) :
    StatusMatches order outcome.order.status outcome.trades ↔
      (order.type = .LIMIT → order.status ≠ .FILLED ∧ order.status ≠ .PARTIAL) := by
  have none : outcome.trades = [] :=
    executed.trades_eq_nil_iff.mpr (fills_of_not silent)
  have status : outcome.order.status = _ :=
    (congrArg Order.status executed.result).trans (status_of_not_marketable silent)
  have amount : Quantity.toNat order.qty = order.remaining := congrArg Quantity.toNat whole.symm
  have nothing : OrderForge.volume [] = 0 := rfl
  rw [none, status]
  constructor
  · intro sound limit
    rw [if_pos limit] at sound
    refine ⟨fun filled => ?_, fun inPart => ?_⟩
    · have all := sound.filled.mp filled
      omega
    · have some := (sound.inPart.mp inPart).1
      omega
  · intro submitted
    have untouched : (if order.type = .LIMIT then order.status else .REJECTED) ≠ .FILLED ∧
        (if order.type = .LIMIT then order.status else .REJECTED) ≠ .PARTIAL := by
      split_ifs with limit
      · exact submitted limit
      · exact ⟨by decide, by decide⟩
    refine ⟨⟨fun filled => absurd filled untouched.1, fun all => ?_⟩,
      ⟨fun inPart => absurd inPart untouched.2, fun some => ?_⟩, fun _ => rfl⟩
    · omega
    · omega

theorem Executed.statusSound_iff (executed : book.Executed order report outcome)
    (positive : 0 < order.remaining) (whole : order.remainingQty = order.qty) :
    StatusMatches order outcome.order.status outcome.trades ↔ book.StatusSound order := by
  rw [StatusSound]
  split_ifs with marketable
  · exact executed.status_matches_of_marketable positive whole marketable
  · exact executed.status_matches_of_not positive whole marketable

end OrderBook

namespace Session

theorem statusSound_prepared (session : Session) (order : Order) :
    session.book.StatusSound (session.prepared order) ↔ session.book.StatusSound order := by
  rw [prepared_eq]
  exact Iff.rfl

variable {symbol : String} {handlers : Handlers} {orderIds tradeIds : IdGenerator}

/-- In every reachable book, the status an order comes back with says what was traded of it exactly
when what it meets is worth a trade, or it meets nothing and was not submitted as traded. -/
theorem status_matches_iff {requests : List Request} {order : Order} (own : order.symbol = symbol)
    (positive : 0 < order.qty) (whole : order.remainingQty = order.qty) :
    (∃ returned, (((create symbol handlers orderIds tradeIds).final requests).step
        (.addOrder order)).2.order = some returned ∧
      StatusMatches order returned.status
        (((create symbol handlers orderIds tradeIds).final requests).step
          (.addOrder order)).2.trades) ↔
      ((create symbol handlers orderIds tradeIds).final requests).book.StatusSound order := by
  have wf := final_wf symbol handlers orderIds tradeIds requests
  have symbolEq := final_symbol symbol handlers orderIds tradeIds requests
  generalize (create symbol handlers orderIds tradeIds).final requests = session at wf symbolEq ⊢
  have effect := step_effect wf (.addOrder order)
  generalize session.step (.addOrder order) = result at effect ⊢
  cases effect with
  | foreign _ foreign => exact absurd (own.trans symbolEq.symm) foreign
  | executed _ _ after returned trades events executed =>
    have same := prepared_eq session order
    have some : 0 < (session.prepared order).remaining := by
      rw [prepared_remaining, Order.remaining, whole]
      exact Quantity.lt_iff.mp positive
    have sound := executed.statusSound_iff some (by rw [same]; exact whole)
    rw [statusSound_prepared] at sound
    rw [← sound]
    have qty : (session.prepared order).qty = order.qty := by rw [same]
    constructor
    · rintro ⟨_, equal, holds⟩
      cases equal
      exact ⟨by rw [qty]; exact holds.filled, by rw [qty]; exact holds.inPart, holds.untraded⟩
    · intro holds
      refine ⟨returned, rfl, ?_⟩
      exact ⟨by rw [← qty]; exact holds.filled, by rw [← qty]; exact holds.inPart,
        holds.untraded⟩

/-- A market order that takes one sell order and half of another. -/
theorem sample_status :
    ∃ returned, ((sampleSession.final sampleAsks).step
        (.addOrder (sampleOrder .BUY .MARKET 0 150000000 3))).2.order = some returned ∧
      StatusMatches (sampleOrder .BUY .MARKET 0 150000000 3) returned.status
        ((sampleSession.final sampleAsks).step
          (.addOrder (sampleOrder .BUY .MARKET 0 150000000 3))).2.trades :=
  (status_matches_iff (by rfl) (by decide) (by rfl)).mpr (by decide)

/-- A limit order submitted as filled, on an empty book. -/
theorem limit_order_keeps_submitted_status :
    ¬ ∃ returned, (sampleSession.step
        (.addOrder ((sampleOrder .BUY .LIMIT 10000 100000000 1).setStatus .FILLED))).2.order =
          some returned ∧
      StatusMatches ((sampleOrder .BUY .LIMIT 10000 100000000 1).setStatus .FILLED)
        returned.status
        (sampleSession.step (.addOrder
          ((sampleOrder .BUY .LIMIT 10000 100000000 1).setStatus .FILLED))).2.trades := by
  rintro ⟨returned, equal, holds⟩
  cases equal
  exact absurd (holds.filled.mp rfl) (by decide)

end Session

end OrderForge
