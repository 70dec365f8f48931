/-
This file proves that splitting a market order changes nothing. The second part finds
the ladder the first part left, wherever the split point falls: inside an order, at
the end of an order or of a level, or beyond the whole side. The node removal and the
level erasure between the two parts do not show, since a book is determined by the
orders that rest in it.
-/

import OrderForge.Immediate

namespace OrderForge

/-- The passive order of a trade, by its place in the book, and what the trade takes from it. -/
def Trade.leg (trade : Trade) : (Price × OrderId) × Nat :=
  ((trade.price, trade.passiveOrderId), Quantity.toNat trade.qty)

theorem legs_termsOf (order : Order) {gaves : List (Order × Nat)}
    (small : ∀ gave ∈ gaves, gave.2 < 2 ^ 64) :
    (gaves.map (MatchingEngine.termsOf order)).map Trade.leg =
      gaves.map (Greedy.keyed Order.place) := by
  rw [List.map_map]
  refine List.map_congr_left fun gave member => ?_
  exact Prod.ext rfl (Quantity.toNat_ofNat (small gave member))

namespace OrderBook

variable {book : OrderBook} {order : Order} {report : List Order} {outcome : Outcome}

/-- The trades of a market order, by what they take from whom. -/
theorem Executed.market_legs (executed : book.Executed order report outcome)
    (market : order.type = .MARKET) :
    outcome.trades.map Trade.leg =
      (Greedy.taken Order.remaining order.remaining (book.orders order.side.opposite)).map
        (Greedy.keyed Order.place) := by
  have terms : outcome.trades.map Trade.leg = (outcome.trades.map Trade.terms).map Trade.leg := by
    rw [List.map_map]
    rfl
  rw [terms, executed.trades, legs_termsOf order (small_fills book order), fills_of_market market]

end OrderBook

namespace Session

/-- What a market order does to the ladders and the index. -/
structure MarketServed (session : Session) (order : Order) (result : Session × Response) :
    Prop where
  wf : result.1.book.Wf
  symbol : result.1.book.symbol = session.book.symbol
  own : result.1.book.orders order.side = session.book.orders order.side
  passive : result.1.book.orders order.side.opposite =
    Greedy.left Order.remaining Order.cut order.remaining
      (session.book.orders order.side.opposite)
  index : result.1.book.ordersIdMap = session.book.ordersIdMap
  legs : result.2.trades.map Trade.leg =
    (Greedy.taken Order.remaining order.remaining (session.book.orders order.side.opposite)).map
      (Greedy.keyed Order.place)
  bounded : result.1.book.Bounded

theorem market_served {session : Session} {order : Order} (wf : session.book.Wf)
    (positive : ∀ side, ∀ resting ∈ session.book.orders side, 0 < resting.remaining)
    (bounded : session.book.Bounded) (own : order.symbol = session.book.symbol)
    (market : order.type = .MARKET) :
    MarketServed session order (session.step (.addOrder order)) := by
  obtain ⟨symbolKept, typeKept, -⟩ := prepared_frame session order
  have prepared := typeKept.trans market
  have taker : (session.prepared order).type ≠ .LIMIT := by
    rw [prepared]
    decide
  have effect := step_effect wf (.addOrder order)
  generalize session.step (.addOrder order) = result at effect ⊢
  cases effect with
  | foreign _ foreign => exact absurd own foreign
  | executed _ _ after returned trades events executed =>
    have ownOrders := executed.own
    have passive := executed.passive_left wf positive bounded symbolKept
    have legs := executed.market_legs prepared
    rw [if_neg (OrderBook.not_rests_of_taker taker), prepared_side] at ownOrders
    rw [OrderBook.left_demand_of_market prepared, prepared_side, prepared_remaining] at passive
    rw [prepared_side, prepared_remaining] at legs
    exact ⟨executed.wf, executed.symbol, ownOrders, passive, executed.own_index taker, legs,
      executed.bounded wf positive bounded symbolKept taker⟩

/-- Two orders in a row leave what a single one leaves, and take the same from the same passive
orders. -/
structure SplitsInto (session : Session) (whole first second : Order) : Prop where
  levels : ∀ side,
    ((session.step (.addOrder first)).1.step (.addOrder second)).1.book.levels side =
      (session.step (.addOrder whole)).1.book.levels side
  index : ((session.step (.addOrder first)).1.step (.addOrder second)).1.book.ordersIdMap =
    (session.step (.addOrder whole)).1.book.ordersIdMap
  trades : Greedy.merged (((session.step (.addOrder first)).2.trades ++
      ((session.step (.addOrder first)).1.step (.addOrder second)).2.trades).map Trade.leg) =
    (session.step (.addOrder whole)).2.trades.map Trade.leg

theorem MarketServed.splitsInto {session : Session} {whole first second : Order}
    (wf : session.book.Wf)
    (once : MarketServed session whole (session.step (.addOrder whole)))
    (former : MarketServed session first (session.step (.addOrder first)))
    (latter : MarketServed (session.step (.addOrder first)).1 second
      ((session.step (.addOrder first)).1.step (.addOrder second)))
    (sides : first.side = whole.side ∧ second.side = whole.side)
    (split : whole.remaining = first.remaining + second.remaining) :
    session.SplitsInto whole first second := by
  have ownFormer := former.own
  have passiveFormer := former.passive
  have legsFormer := former.legs
  have ownLatter := latter.own
  have passiveLatter := latter.passive
  have legsLatter := latter.legs
  rw [sides.1] at ownFormer passiveFormer legsFormer
  rw [sides.2] at ownLatter passiveLatter legsLatter
  rw [passiveFormer] at passiveLatter legsLatter
  have symbol := (latter.symbol.trans former.symbol).trans once.symbol.symm
  refine ⟨fun side => latter.wf.levels_eq once.wf symbol ?_, ?_, ?_⟩
  · rcases Side.eq_or_eq_opposite side whole.side with same | same
    · rw [same, ownLatter, ownFormer, once.own]
    · rw [same, passiveLatter, once.passive, split]
      exact Greedy.left_add Order.remaining Order.cut Order.remaining_cut Order.cut_cut _ _ _
  · exact (latter.index.trans former.index).trans once.index.symm
  · rw [List.map_append, legsFormer, legsLatter, ← List.map_append, once.legs, split]
    exact Greedy.merged_taken_add Order.remaining Order.cut Order.place Order.remaining_cut
      (fun _ _ => rfl) (wf.nodup_places _) _ _

variable {symbol : String} {handlers : Handlers} {orderIds tradeIds : IdGenerator}

/-- In every reachable book of positive orders whose counters fit, two market orders in a row do
what a single one of both quantities does. -/
theorem market_order_splits {requests : List Request} {whole first second : Order}
    (positive : ∀ side, ∀ resting ∈
      ((create symbol handlers orderIds tradeIds).final requests).book.orders side,
      0 < resting.remaining)
    (bounded : ((create symbol handlers orderIds tradeIds).final requests).book.Bounded)
    (own : whole.symbol = symbol ∧ first.symbol = symbol ∧ second.symbol = symbol)
    (market : whole.type = .MARKET ∧ first.type = .MARKET ∧ second.type = .MARKET)
    (sides : first.side = whole.side ∧ second.side = whole.side)
    (wanted : 0 < first.remainingQty)
    (split : whole.remaining = first.remaining + second.remaining) :
    ((create symbol handlers orderIds tradeIds).final requests).SplitsInto whole first second := by
  have wf := final_wf symbol handlers orderIds tradeIds requests
  have symbolEq := final_symbol symbol handlers orderIds tradeIds requests
  generalize (create symbol handlers orderIds tradeIds).final requests = session
    at wf symbolEq positive bounded ⊢
  have once := market_served wf positive bounded (own.1.trans symbolEq.symm) market.1
  have former := market_served wf positive bounded (own.2.1.trans symbolEq.symm) market.2.1
  have kept := (step_effect wf (.addOrder first)).positive wanted positive
  have latter := market_served former.wf kept former.bounded
    (own.2.2.trans (former.symbol.trans symbolEq).symm) market.2.2
  exact once.splitsInto wf former latter sides split

/-- A market order that ends inside the second of two sell orders, split inside the first. -/
theorem sample_splits :
    (sampleSession.final sampleAsks).SplitsInto (sampleOrder .BUY .MARKET 0 150000000 3)
      (sampleOrder .BUY .MARKET 0 50000000 4) (sampleOrder .BUY .MARKET 0 100000000 5) :=
  market_order_splits (fun side => by cases side <;> decide)
    (OrderBook.bounded_of_total fun side => by cases side <;> decide)
    ⟨rfl, rfl, rfl⟩ ⟨rfl, rfl, rfl⟩ ⟨rfl, rfl⟩ (by decide) (by decide)

end Session

end OrderForge
