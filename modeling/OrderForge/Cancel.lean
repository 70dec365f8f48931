/-
This file settles cancelling under reuse of ids. A cancel works on the level that
the id index names, and the index is filled by an insertion that keeps an old entry
and emptied by cancels alone. So a cancel takes the order off exactly when the entry
of its id is about this order; and then nothing else goes with it exactly when the
order is alone at its price or the counter of its level exceeds what it has left.
-/

import OrderForge.SessionInvariant

namespace OrderForge

/-- The counter of the level of a price; a level that does not exist counts nothing. -/
def BookSide.counter {CompFunc : Price → Price → Prop} (bookSide : BookSide CompFunc)
    (price : Price) : Quantity := (bookSide.levels.bookCont.find? price).elim 0 PriceLevel.totalQty

theorem BookSide.counter_eq {CompFunc : Price → Price → Prop} [IsStrictTotalOrder Price CompFunc]
    {bookSide : BookSide CompFunc} {symbol : String} {side : Side}
    (wf : bookSide.Wf symbol side) (price : Price) :
    Quantity.toNat (bookSide.counter price) = Ladder.quantity bookSide.orders price % 2 ^ 64 := by
  rw [counter, Ladder.quantity, wf.queue_eq]
  cases found : bookSide.levels.bookCont.find? price with
  | none => rfl
  | some level => exact (wf.level_wf found).counted

namespace OrderBook

/-- `total_qty_` of the level of a side and a price. -/
def totalQty (book : OrderBook) : Side → Price → Quantity
  | .BUY, price => book.bids.counter price
  | .SELL, price => book.asks.counter price

/-- No two resting orders share an id. -/
def UniqueIds (book : OrderBook) : Prop :=
  ((book.orders .BUY ++ book.orders .SELL).map Order.orderId).Nodup

instance (book : OrderBook) : Decidable book.UniqueIds := inferInstanceAs (Decidable (List.Nodup _))

theorem UniqueIds.eq {book : OrderBook} (unique : book.UniqueIds) {first second : Side}
    {order other : Order} (member : order ∈ book.orders first) (inBook : other ∈ book.orders second)
    (same : other.orderId = order.orderId) : other = order := by
  have both : ∀ {side : Side} {resting : Order}, resting ∈ book.orders side →
      resting ∈ book.orders .BUY ++ book.orders .SELL := by
    intro side resting inSide
    cases side with
    | BUY => exact List.mem_append_left _ inSide
    | SELL => exact List.mem_append_right _ inSide
  exact List.inj_on_of_nodup_map unique (both inBook) (both member) same

/-- What it means that a call takes a resting order off the book. -/
structure TakenOff (before after : OrderBook) (resting : Order) : Prop where
  gone : ∀ side, ∀ other ∈ after.orders side, other.orderId ≠ resting.orderId
  total : Quantity.toNat (after.totalQty resting.side resting.price) + resting.remaining =
    Quantity.toNat (before.totalQty resting.side resting.price)
  others : ∀ side, after.orders side =
    (before.orders side).filter fun other => other.orderId ≠ resting.orderId

variable {book : OrderBook}

theorem Wf.totalQty_eq (wf : book.Wf) (side : Side) (price : Price) :
    Quantity.toNat (book.totalQty side price) =
      Ladder.quantity (book.orders side) price % 2 ^ 64 := by
  cases side with
  | BUY => exact BookSide.counter_eq wf.bids price
  | SELL => exact BookSide.counter_eq wf.asks price

/-- The condition under which a cancel takes a resting order off the book: the index entry of its
id is about it, and it is alone at its price or the counter exceeds what it has left. -/
def Cancellable (book : OrderBook) (resting : Order) : Prop :=
  book.ordersIdMap.find? resting.orderId =
      some ⟨resting.orderId, resting.price, resting.side⟩ ∧
    (Ladder.queue (book.orders resting.side) resting.price = [resting] ∨
      resting.remainingQty < book.totalQty resting.side resting.price)

instance (book : OrderBook) (resting : Order) : Decidable (book.Cancellable resting) :=
  inferInstanceAs (Decidable (_ ∧ _))

section Cancel

variable {side : Side} {resting : Order}

/-- With unique ids, the orders without the resting one are those with another id. -/
theorem UniqueIds.without_eq (unique : book.UniqueIds) (member : resting ∈ book.orders side) :
    Ladder.without resting.price resting.orderId (book.orders side) =
      (book.orders side).filter fun other => other.orderId ≠ resting.orderId := by
  refine List.filter_congr fun other inBook => decide_eq_decide.mpr (not_congr ?_)
  refine ⟨fun both => both.2, fun same => ⟨?_, same⟩⟩
  rw [unique.eq member inBook same]

/-- A cancel whose index entry is not about the resting order leaves it. -/
theorem stale_cancel_keeps (wf : book.Wf) (member : resting ∈ book.orders side)
    (stale : book.ordersIdMap.find? resting.orderId ≠
      some ⟨resting.orderId, resting.price, resting.side⟩) :
    resting ∈ (book.removeOrder resting.orderId).1.orders side := by
  have ownSide : resting.side = side := (wf.placed member).2.1
  cases found : book.ordersIdMap.find? resting.orderId with
  | none =>
    rw [removeOrder_unknown found]
    exact member
  | some helper =>
    have removed := removeOrder_removed wf found
    have ownId := wf.index_orderId found
    rcases Side.eq_or_eq_opposite side helper.side with same | same
    · rw [same, removed.own]
      rw [same] at member ownSide
      refine Ladder.mem_cancel_of_ne member fun samePrice => stale ?_
      rw [found, ← ownId, samePrice, ownSide]
    · rw [same, removed.other, ← same]
      exact member

/-- A cancel whose index entry is about the resting order leaves its side without it, unless the
level is pruned. -/
theorem cancel_own (wf : book.Wf) (unique : book.UniqueIds)
    (member : resting ∈ book.orders resting.side)
    (found : book.ordersIdMap.find? resting.orderId =
      some ⟨resting.orderId, resting.price, resting.side⟩) :
    (book.removeOrder resting.orderId).1.orders resting.side =
      Ladder.prune resting.price
        ((book.orders resting.side).filter fun other => other.orderId ≠ resting.orderId) := by
  rw [← unique.without_eq member]
  exact (removeOrder_removed wf found).own

theorem cancel_other (wf : book.Wf) (unique : book.UniqueIds)
    (member : resting ∈ book.orders resting.side)
    (found : book.ordersIdMap.find? resting.orderId =
      some ⟨resting.orderId, resting.price, resting.side⟩) :
    (book.removeOrder resting.orderId).1.orders resting.side.opposite =
      (book.orders resting.side.opposite).filter fun other =>
        other.orderId ≠ resting.orderId := by
  refine (removeOrder_removed wf found).other.trans
    (List.filter_eq_self.mpr fun other inBook => decide_eq_true (p := ¬ _) fun same => ?_).symm
  have side := (wf.placed inBook).2.1
  rw [unique.eq member inBook same] at side
  exact resting.side.opposite_ne side.symm

/-- What the resting order leaves at its price, as the counter sees it. -/
theorem counters (wf : book.Wf) (unique : book.UniqueIds)
    (member : resting ∈ book.orders resting.side) :
    Quantity.toNat (book.totalQty resting.side resting.price) =
      (Ladder.quantity ((book.orders resting.side).filter fun other =>
        other.orderId ≠ resting.orderId) resting.price + resting.remaining) % 2 ^ 64 := by
  rw [wf.totalQty_eq, ← unique.without_eq member,
    Ladder.quantity_without member (wf.nodup_orderIds _ _)]

theorem takenOff_of_cancellable (wf : book.Wf) (unique : book.UniqueIds)
    (member : resting ∈ book.orders resting.side) (cancellable : book.Cancellable resting) :
    book.TakenOff (book.removeOrder resting.orderId).1 resting := by
  obtain ⟨found, fits⟩ := cancellable
  have before := counters wf unique member
  have after := (removeOrder_removed wf found).wf.totalQty_eq resting.side resting.price
  have less := resting.remaining_lt
  have alone : Ladder.queue (book.orders resting.side) resting.price = [resting] →
      Ladder.queue ((book.orders resting.side).filter fun other =>
        other.orderId ≠ resting.orderId) resting.price = [] := by
    intro single
    rw [← unique.without_eq member, Ladder.queue_without, if_pos rfl, single]
    simp
  have kept : Ladder.prune resting.price
      ((book.orders resting.side).filter fun other => other.orderId ≠ resting.orderId) =
      (book.orders resting.side).filter fun other => other.orderId ≠ resting.orderId := by
    refine Ladder.prune_eq_self (fits.imp alone fun exceeds zero => ?_)
    have bigger : resting.remaining < _ := Quantity.lt_iff.mp exceeds
    rw [before, Nat.add_mod, zero] at bigger
    omega
  have own := (cancel_own wf unique member found).trans kept
  have others : ∀ side, (book.removeOrder resting.orderId).1.orders side =
      (book.orders side).filter fun other => other.orderId ≠ resting.orderId := by
    intro side
    rcases Side.eq_or_eq_opposite side resting.side with same | same
    · rw [same, own]
    · rw [same, cancel_other wf unique member found]
  refine ⟨fun side other inBook => ?_, ?_, others⟩
  · rw [others] at inBook
    exact of_decide_eq_true (List.mem_filter.mp inBook).2
  · rw [own] at after
    rcases fits with single | exceeds
    · rw [Ladder.quantity, alone single, Greedy.total_nil] at before after
      omega
    · have bigger : resting.remaining < _ := Quantity.lt_iff.mp exceeds
      omega

theorem cancellable_of_takenOff (wf : book.Wf) (unique : book.UniqueIds)
    (member : resting ∈ book.orders resting.side)
    (takenOff : book.TakenOff (book.removeOrder resting.orderId).1 resting) :
    book.Cancellable resting := by
  have found : book.ordersIdMap.find? resting.orderId =
      some ⟨resting.orderId, resting.price, resting.side⟩ :=
    not_not.mp fun stale => takenOff.gone _ resting (stale_cancel_keeps wf member stale) rfl
  refine ⟨found, ?_⟩
  have before := counters wf unique member
  have after := (removeOrder_removed wf found).wf.totalQty_eq resting.side resting.price
  have total := takenOff.total
  rw [takenOff.others] at after
  by_cases zero : Ladder.quantity ((book.orders resting.side).filter fun other =>
      other.orderId ≠ resting.orderId) resting.price % 2 ^ 64 = 0
  · have kept := cancel_own wf unique member found
    rw [takenOff.others] at kept
    have nothing := Ladder.queue_eq_nil_of_prune zero kept.symm
    rw [← unique.without_eq member] at nothing
    exact Or.inl (Ladder.queue_eq_singleton member (wf.nodup_orderIds _ _) nothing)
  · refine Or.inr (Quantity.lt_iff.mpr ?_)
    show resting.remaining < _
    omega

/-- A cancel takes a resting order off the book exactly when the order is cancellable. -/
theorem removeOrder_takenOff_iff (wf : book.Wf) (unique : book.UniqueIds)
    (member : resting ∈ book.orders side) :
    book.TakenOff (book.removeOrder resting.orderId).1 resting ↔ book.Cancellable resting := by
  have ownSide : resting.side = side := (wf.placed member).2.1
  subst ownSide
  exact ⟨cancellable_of_takenOff wf unique member, takenOff_of_cancellable wf unique member⟩

end Cancel

end OrderBook

namespace Session

/-- After any run in which no two resting orders share an id, cancelling a resting order takes it
off the book exactly when it is cancellable. -/
theorem cancel_takes_off_iff (symbol : String) (handlers : Handlers)
    (orderIds tradeIds : IdGenerator) (requests : List Request)
    (unique : ((create symbol handlers orderIds tradeIds).final requests).book.UniqueIds)
    (side : Side) (resting : Order)
    (member : resting ∈
      ((create symbol handlers orderIds tradeIds).final requests).book.orders side) :
    ((create symbol handlers orderIds tradeIds).final requests).book.TakenOff
        (((create symbol handlers orderIds tradeIds).final requests).step
          (.removeOrder resting.orderId)).1.book resting ↔
      ((create symbol handlers orderIds tradeIds).final requests).book.Cancellable resting :=
  OrderBook.removeOrder_takenOff_iff (final_wf symbol handlers orderIds tradeIds requests) unique
    member

/-- A sell order is filled, and its id is used again at the same price, between other orders. -/
def sampleReuse : List Request :=
  [.addOrder (sampleOrder .SELL .LIMIT 10000 100000000 1),
    .addOrder (sampleOrder .BUY .MARKET 10000 100000000 2),
    .addOrder (sampleOrder .SELL .LIMIT 10000 100000000 3),
    .addOrder (sampleOrder .SELL .LIMIT 10000 100000000 1),
    .addOrder (sampleOrder .SELL .LIMIT 10000 100000000 4),
    .addOrder (sampleOrder .BUY .LIMIT 9000 100000000 5)]

/-- The second order with the id is cancelled, and the others stay where they are. -/
theorem sample_cancel :
    (sampleSession.final sampleReuse).book.TakenOff
        ((sampleSession.final sampleReuse).step (.removeOrder 1)).1.book
        (sampleOrder .SELL .LIMIT 10000 100000000 1) ∧
      (((sampleSession.final sampleReuse).step (.removeOrder 1)).1.book.orders .SELL).map
        Order.orderId = [3, 4] :=
  ⟨(cancel_takes_off_iff _ _ _ _ sampleReuse (by decide) .SELL
    (sampleOrder .SELL .LIMIT 10000 100000000 1) (by decide)).mpr (by decide), by decide⟩

/-- An id is used again after the first order with it was filled: the cancel looks for the second
order where the first one was. -/
theorem cancel_misses_reused_id :
    ¬ (sampleSession.final
        [.addOrder (sampleOrder .SELL .LIMIT 10000 100000000 1),
          .addOrder (sampleOrder .BUY .MARKET 10000 100000000 2),
          .addOrder (sampleOrder .BUY .LIMIT 9000 100000000 1)]).book.TakenOff
      ((sampleSession.final
        [.addOrder (sampleOrder .SELL .LIMIT 10000 100000000 1),
          .addOrder (sampleOrder .BUY .MARKET 10000 100000000 2),
          .addOrder (sampleOrder .BUY .LIMIT 9000 100000000 1)]).step (.removeOrder 1)).1.book
      (sampleOrder .BUY .LIMIT 9000 100000000 1) :=
  fun takenOff => takenOff.gone .BUY (sampleOrder .BUY .LIMIT 9000 100000000 1) (by decide) rfl

end Session

end OrderForge
