/-
This file settles price protection. The limit of a crossing order is compared with
the best opposite price only; the sweep that follows knows nothing of it. So the
trades of a priced order stay within its limit exactly when the sweep cannot leave
the prices the order accepts: nothing is accepted, everything is, or the accepted
orders alone are enough.
-/

import OrderForge.SessionInvariant

namespace OrderForge

namespace OrderBook

variable {book : OrderBook} {order : Order}

/-- Whether a sweep for the order ends before the first price beyond its limit. -/
def CoversWithinLimit (book : OrderBook) (order : Order) : Prop :=
  (∀ resting ∈ book.orders order.side.opposite, ¬ order.accepts resting.price) ∨
  (∀ resting ∈ book.orders order.side.opposite, order.accepts resting.price) ∨
  order.remaining ≤ Greedy.total Order.remaining
    ((book.orders order.side.opposite).filter fun resting => order.accepts resting.price)

instance (book : OrderBook) (order : Order) : Decidable (book.CoversWithinLimit order) :=
  inferInstanceAs (Decidable (_ ∨ _ ∨ _))

/-- The accepted orders of a ladder come first. -/
theorem Wf.accepted_first (wf : book.Wf) (order : Order) :
    ((book.orders order.side.opposite).filter fun resting => order.accepts resting.price) ++
      ((book.orders order.side.opposite).filter fun resting => ¬ order.accepts resting.price) =
    book.orders order.side.opposite :=
  Ranked.filter_append_filter_not ((wf.sorted order.side.opposite).imp
    fun notBetter accepted => Order.accepts_of_not_better accepted notBetter)

/-- The fills of a marketable order: first from the orders it accepts, then from the rest. -/
theorem Wf.fills_split (wf : book.Wf) (marketable : book.Marketable order) :
    book.fills order =
      Greedy.taken Order.remaining order.remaining
        ((book.orders order.side.opposite).filter fun resting => order.accepts resting.price) ++
      Greedy.taken Order.remaining
        (order.remaining - Greedy.total Order.remaining
          ((book.orders order.side.opposite).filter fun resting => order.accepts resting.price))
        ((book.orders order.side.opposite).filter fun resting => ¬ order.accepts resting.price) := by
  rw [fills, demand_of_marketable marketable, ← Greedy.taken_append, wf.accepted_first]

theorem fills_accepted_iff (wf : book.Wf) (priced : order.type ≠ .MARKET) :
    (∀ gave ∈ book.fills order, order.accepts gave.1.price) ↔ book.CoversWithinLimit order := by
  have marketable : book.Marketable order ↔
      ∃ resting ∈ book.orders order.side.opposite, order.accepts resting.price := by
    rw [marketable_iff_crossing wf priced, isCrossingOrder_iff wf]
  by_cases serves : book.Marketable order
  · have front : ∀ {quota : Nat} {gave : Order × Nat}, gave ∈ Greedy.taken Order.remaining quota
        ((book.orders order.side.opposite).filter fun resting => order.accepts resting.price) →
        order.accepts gave.1.price := fun member =>
      of_decide_eq_true (List.mem_filter.mp (Greedy.mem_of_taken _ member)).2
    have back : ∀ {quota : Nat} {gave : Order × Nat}, gave ∈ Greedy.taken Order.remaining quota
        ((book.orders order.side.opposite).filter fun resting => ¬ order.accepts resting.price) →
        ¬ order.accepts gave.1.price := fun member =>
      of_decide_eq_true (List.mem_filter.mp (Greedy.mem_of_taken _ member)).2
    have within : (∀ gave ∈ book.fills order, order.accepts gave.1.price) ↔
        Greedy.taken Order.remaining
          (order.remaining - Greedy.total Order.remaining
            ((book.orders order.side.opposite).filter fun resting => order.accepts resting.price))
          ((book.orders order.side.opposite).filter fun resting =>
            ¬ order.accepts resting.price) = [] := by
      rw [wf.fills_split serves]
      constructor
      · intro all
        refine List.eq_nil_iff_forall_not_mem.mpr fun gave member => ?_
        exact back member (all gave (List.mem_append_right _ member))
      · intro none gave member
        rw [none, List.append_nil] at member
        exact front member
    obtain ⟨accepted, member, accepts⟩ := marketable.mp serves
    rw [within, Greedy.taken_eq_nil, Nat.sub_eq_zero_iff_le, List.filter_eq_nil_iff]
    constructor
    · rintro (enough | everything)
      · exact Or.inr (Or.inr enough)
      · exact Or.inr (Or.inl fun resting inBook => by simpa using everything resting inBook)
    · rintro (nothing | everything | enough)
      · exact absurd accepts (nothing accepted member)
      · exact Or.inr fun resting inBook => by simpa using everything resting inBook
      · exact Or.inl enough
  · rw [fills_of_not serves]
    refine ⟨fun _ => Or.inl fun resting member accepts => ?_, fun _ gave member => by cases member⟩
    exact serves (marketable.mpr ⟨resting, member, accepts⟩)

end OrderBook

namespace Session

/-- The trades of a priced order stay within its limit exactly when the order is ignored or the
sweep for it ends before the first price beyond the limit. -/
theorem trades_within_limit_iff (symbol : String) (handlers : Handlers)
    (orderIds tradeIds : IdGenerator) (requests : List Request) (order : Order)
    (priced : order.type ≠ .MARKET) :
    (∀ trade ∈ (((create symbol handlers orderIds tradeIds).final requests).step
        (.addOrder order)).2.trades, order.accepts trade.price) ↔
      order.symbol ≠ symbol ∨
        ((create symbol handlers orderIds tradeIds).final requests).book.CoversWithinLimit
          order := by
  have wf := final_wf symbol handlers orderIds tradeIds requests
  have symbolEq := final_symbol symbol handlers orderIds tradeIds requests
  generalize (create symbol handlers orderIds tradeIds).final requests = session at wf symbolEq ⊢
  have effect := step_effect wf (.addOrder order)
  generalize session.step (.addOrder order) = result at effect ⊢
  cases effect with
  | foreign _ foreign =>
    rw [symbolEq] at foreign
    exact ⟨fun _ => Or.inl foreign, fun _ trade member => by cases member⟩
  | executed _ own after returned trades events executed =>
    have same := prepared_eq session order
    have covers : (∀ gave ∈ session.book.fills (session.prepared order),
        order.accepts gave.1.price) ↔ session.book.CoversWithinLimit order := by
      have priced' : (session.prepared order).type ≠ .MARKET := by rwa [same]
      have accepted := OrderBook.fills_accepted_iff wf priced'
      rw [same] at accepted ⊢
      exact accepted
    have prices : trades.map Trade.price =
        (session.book.fills (session.prepared order)).map fun gave => gave.1.price := by
      have terms := congrArg (List.map Trade.price) executed.trades
      rwa [List.map_map, List.map_map] at terms
    rw [← covers, ← List.forall_mem_map (f := Trade.price) (P := fun price => order.accepts price),
      prices, List.forall_mem_map]
    exact ⟨Or.inr, fun either => either.resolve_left fun foreign =>
      foreign (own.trans symbolEq)⟩

/-- Three levels of sell orders, the first two of which a limit accepts. -/
def sampleLevels : List Request :=
  [.addOrder (sampleOrder .SELL .LIMIT 10000 100000000 1),
    .addOrder (sampleOrder .SELL .LIMIT 10100 100000000 2),
    .addOrder (sampleOrder .SELL .LIMIT 10500 100000000 3)]

/-- A buy order takes the first level and half of the second. -/
theorem trades_within_limit_at_two_levels :
    (∀ trade ∈ ((sampleSession.final sampleLevels).step
        (.addOrder (sampleOrder .BUY .LIMIT 10200 150000000 4))).2.trades,
      (sampleOrder .BUY .LIMIT 10200 150000000 4).accepts trade.price) ∧
      ((sampleSession.final sampleLevels).step
        (.addOrder (sampleOrder .BUY .LIMIT 10200 150000000 4))).2.trades.map Trade.price =
        [⟨10000⟩, ⟨10100⟩] :=
  ⟨(trades_within_limit_iff "AAPL" ⟨true, true, true, true⟩ ⟨0⟩ ⟨0⟩ sampleLevels
    (sampleOrder .BUY .LIMIT 10200 150000000 4) (by decide)).mpr (by decide), by decide⟩

/-- Two sell orders and a buy order whose limit accepts only the first of them. -/
theorem limit_order_trades_beyond_limit :
    ¬ ∀ trade ∈ ((sampleSession.final
        [.addOrder (sampleOrder .SELL .LIMIT 10000 100000000 1),
          .addOrder (sampleOrder .SELL .LIMIT 10500 100000000 2)]).step
        (.addOrder (sampleOrder .BUY .LIMIT 10000 200000000 3))).2.trades,
      (sampleOrder .BUY .LIMIT 10000 200000000 3).accepts trade.price := by
  decide

end Session

end OrderForge
