/-
This file proves that an order book with pointers does what the book of the queues
does. Whatever a call follows leads to a node or to a level, so the call has a
result, and the caller's order, the trades, the events and the generators are those
of the other book. The levels of other books stay as they are.
-/

import OrderForge.BookStep
import OrderForge.SweepRefinement

namespace OrderForge

namespace Evolves

variable {Gone : PriceLevel → Prop} {heap after : LevelHeap}
  {queues changed : PriceLvlPtr → PriceLevel} {pointers next rest : List PriceLvlPtr}

theorem perm {others final : List PriceLvlPtr}
    (evolves : Evolves Gone heap after queues changed pointers next)
    (before : pointers.Perm others) (later : next.Perm final) :
    Evolves Gone heap after queues changed others final where
  grown := evolves.grown
  others ptr less outside := evolves.others ptr less (mt before.mem_iff.mp outside)
  origin ptr member := (evolves.origin ptr (later.mem_iff.mpr member)).imp_left before.mem_iff.mp
  made ptr member := evolves.made ptr (later.mem_iff.mpr member)
  distinct := later.nodup_iff.mp evolves.distinct
  gone ptr less outside := (evolves.gone ptr less (mt later.mem_iff.mp outside)).imp_left
    (And.imp_right (mt before.mem_iff.mpr))

theorem mono {More : PriceLevel → Prop}
    (evolves : Evolves Gone heap after queues changed pointers next)
    (more : ∀ level, Gone level → More level) :
    Evolves More heap after queues changed pointers next :=
  { evolves with gone := fun ptr less outside =>
      (evolves.gone ptr less outside).imp_right (more _) }

/-- Levels at further addresses stay as they are. -/
theorem append (evolves : Evolves Gone heap after queues changed pointers next)
    (made : ∀ ptr ∈ rest, ptr < heap.levels.length) (distinct : (pointers ++ rest).Nodup) :
    Evolves Gone heap after queues changed (pointers ++ rest) (next ++ rest) := by
  have apart := (List.nodup_append.mp distinct).2.2
  refine ⟨evolves.grown, fun ptr less outside => ?_, fun ptr member => ?_, fun ptr member => ?_, ?_,
    fun ptr less outside => ?_⟩
  · exact evolves.others ptr less fun member => outside (List.mem_append_left _ member)
  · rcases List.mem_append.mp member with own | other
    · exact (evolves.origin ptr own).imp_left (List.mem_append_left _)
    · exact Or.inl (List.mem_append_right _ other)
  · rcases List.mem_append.mp member with own | other
    · exact evolves.made ptr own
    · exact (made ptr other).trans_le evolves.grown
  · refine List.nodup_append.mpr ⟨evolves.distinct, (List.nodup_append.mp distinct).2.1,
      fun ptr own other inRest same => ?_⟩
    subst same
    rcases evolves.origin ptr own with old | new
    · exact apart ptr old ptr inRest rfl
    · exact Nat.not_le_of_lt (made ptr inRest) new
  · rw [List.mem_append, not_or] at outside
    refine (evolves.gone ptr less outside.1).imp_left fun old => ⟨old.1, ?_⟩
    rw [List.mem_append, not_or]
    exact ⟨old.2, outside.2⟩

/-- What the levels at further addresses stand for. -/
theorem kept (evolves : Evolves Gone heap after queues changed pointers next)
    (made : ∀ ptr ∈ rest, ptr < heap.levels.length) (distinct : (pointers ++ rest).Nodup) :
    ∀ ptr ∈ rest, changed ptr = queues ptr := fun ptr member =>
  evolves.others ptr (made ptr member) fun own =>
    (List.nodup_append.mp distinct).2.2 ptr own ptr member rfl

end Evolves

/-- Whether a level is what became of a level of a book. -/
def OrderBook.Dropped (book : OrderBook) (level : PriceLevel) : Prop :=
  book.bids.Dropped level ∨ book.asks.Dropped level

namespace LinkedBook

/-- The addresses of the levels of a book. -/
def pointers (linked : LinkedBook) : List PriceLvlPtr :=
  linked.bids.pointers ++ linked.asks.pointers

/-- Whether a book with pointers stands for a book. -/
structure Shows (linked : LinkedBook) (queues : PriceLvlPtr → PriceLevel) (book : OrderBook) :
    Prop where
  symbol : linked.symbol = book.symbol
  bids : linked.bids.Shows queues book.bids
  asks : linked.asks.Shows queues book.asks
  ordersIdMap : linked.ordersIdMap = book.ordersIdMap
  handlers : linked.handlers = book.handlers

/-- Whether a book with pointers stands for a book in a heap. -/
structure Stands (linked : LinkedBook) (heap : LevelHeap) (queues : PriceLvlPtr → PriceLevel)
    (cells : PriceLvlPtr → List Cell) (handed : List Slot) (book : OrderBook) : Prop where
  houses : heap.Houses queues cells handed
  shows : linked.Shows queues book
  made : ∀ ptr ∈ linked.pointers, ptr < heap.levels.length
  distinct : linked.pointers.Nodup

variable {linked : LinkedBook} {book : OrderBook} {heap : LevelHeap}
  {queues : PriceLvlPtr → PriceLevel} {cells : PriceLvlPtr → List Cell} {handed : List Slot}

theorem create_shows (symbol : String) (handlers : Handlers) (queues : PriceLvlPtr → PriceLevel) :
    (create symbol handlers).Shows queues (OrderBook.create symbol handlers) :=
  ⟨rfl, ⟨rfl, rfl, rfl, rfl⟩, ⟨rfl, rfl, rfl, rfl⟩, rfl, rfl⟩

theorem Shows.congr {changed : PriceLvlPtr → PriceLevel} (shows : linked.Shows queues book)
    (same : ∀ ptr ∈ linked.pointers, changed ptr = queues ptr) : linked.Shows changed book where
  symbol := shows.symbol
  bids := ⟨shows.bids.side, shows.bids.levels.congr fun ptr member =>
    same ptr (List.mem_append_left _ member)⟩
  asks := ⟨shows.asks.side, shows.asks.levels.congr fun ptr member =>
    same ptr (List.mem_append_right _ member)⟩
  ordersIdMap := shows.ordersIdMap
  handlers := shows.handlers

theorem Stands.bids (stands : linked.Stands heap queues cells handed book) :
    (∀ ptr ∈ linked.bids.pointers, ptr < heap.levels.length) ∧ linked.bids.pointers.Nodup :=
  ⟨fun ptr member => stands.made ptr (List.mem_append_left _ member),
    (List.nodup_append.mp stands.distinct).1⟩

theorem Stands.asks (stands : linked.Stands heap queues cells handed book) :
    (∀ ptr ∈ linked.asks.pointers, ptr < heap.levels.length) ∧ linked.asks.pointers.Nodup :=
  ⟨fun ptr member => stands.made ptr (List.mem_append_right _ member),
    (List.nodup_append.mp stands.distinct).2.1⟩

/-- What an operation leaves of a book and its heap. -/
def Follows (Gone : PriceLevel → Prop) (heap after : LevelHeap) (queues : PriceLvlPtr → PriceLevel)
    (linked larger : LinkedBook) (book : OrderBook) : Prop :=
  ∃ changed next left, larger.Stands after changed next left book ∧
    Evolves Gone heap after queues changed linked.pointers larger.pointers

variable {Gone : PriceLevel → Prop} {after : LevelHeap} {changed : PriceLvlPtr → PriceLevel}
  {next : PriceLvlPtr → List Cell} {left : List Slot}

/-- An operation on the bids leaves the asks alone. -/
theorem Stands.setBids (stands : linked.Stands heap queues cells handed book)
    {larger : LinkedSide (· > ·)} {bids : BookSideBid} (houses : after.Houses changed next left)
    (shows : larger.Shows changed bids)
    (evolves : Evolves Gone heap after queues changed linked.bids.pointers larger.pointers) :
    Follows Gone heap after queues linked { linked with bids := larger } { book with bids } := by
  have whole := evolves.append stands.asks.1 stands.distinct
  have kept := evolves.kept stands.asks.1 stands.distinct
  exact ⟨changed, next, left, ⟨houses, ⟨stands.shows.symbol, shows,
    ⟨stands.shows.asks.side, stands.shows.asks.levels.congr kept⟩, stands.shows.ordersIdMap,
    stands.shows.handlers⟩, whole.made, whole.distinct⟩, whole⟩

/-- An operation on the asks leaves the bids alone. -/
theorem Stands.setAsks (stands : linked.Stands heap queues cells handed book)
    {larger : LinkedSide (· < ·)} {asks : BookSideAsk} (houses : after.Houses changed next left)
    (shows : larger.Shows changed asks)
    (evolves : Evolves Gone heap after queues changed linked.asks.pointers larger.pointers) :
    Follows Gone heap after queues linked { linked with asks := larger } { book with asks } := by
  have distinct := List.nodup_append_comm.mp stands.distinct
  have whole := (evolves.append stands.bids.1 distinct).perm List.perm_append_comm
    List.perm_append_comm
  have kept := evolves.kept stands.bids.1 distinct
  exact ⟨changed, next, left, ⟨houses, ⟨stands.shows.symbol,
    ⟨stands.shows.bids.side, stands.shows.bids.levels.congr kept⟩, shows, stands.shows.ordersIdMap,
    stands.shows.handlers⟩, whole.made, whole.distinct⟩, whole⟩

/-- The index takes part in no pointer. -/
theorem Follows.index {larger : LinkedBook}
    (follows : Follows Gone heap after queues linked larger book) {index : OrdersIdMap}
    {linkedIndex : OrdersIdMap} (same : linkedIndex = index) :
    Follows Gone heap after queues linked { larger with ordersIdMap := linkedIndex }
      { book with ordersIdMap := index } := by
  obtain ⟨changed, next, left, stands, evolves⟩ := follows
  exact ⟨changed, next, left, ⟨stands.houses, { stands.shows with ordersIdMap := same },
    stands.made, stands.distinct⟩, evolves⟩

theorem Stands.idle (stands : linked.Stands heap queues cells handed book) :
    Follows Gone heap heap queues linked linked book :=
  ⟨queues, cells, handed, stands, Evolves.refl stands.made stands.distinct⟩

end LinkedBook

/-! ### The operations of a book -/

/-- Whether a call with pointers leaves what a call leaves. -/
structure LinkedOutcome.Shows (after : LinkedOutcome) (Gone : PriceLevel → Prop)
    (heap : LevelHeap) (queues : PriceLvlPtr → PriceLevel) (linked : LinkedBook)
    (outcome : Outcome) : Prop where
  follows : LinkedBook.Follows Gone heap after.heap queues linked after.book outcome.book
  tradeIds : after.tradeIds = outcome.tradeIds
  order : after.order = outcome.order
  trades : after.trades = outcome.trades
  events : after.events = outcome.events

namespace LinkedBook

variable {linked : LinkedBook} {book : OrderBook} {heap : LevelHeap}
  {queues : PriceLvlPtr → PriceLevel} {cells : PriceLvlPtr → List Cell} {handed : List Slot}
  {Gone : PriceLevel → Prop}

/-- The changed orders are read before their nodes are unlinked. -/
theorem Shows.finishMatch (shows : linked.Shows queues book) {middle after : LevelHeap}
    {engine : LinkedEngine} {matched : MatchingEngine} (updates : List PriceLevelUpdate)
    (recorded : engine.Shows middle.pool.memory matched)
    (unlinked : engine.removeLevels.foldlM LevelHeap.removeMarkedOrderNodes middle = some after) :
    linked.finishMatch middle engine updates =
      some (after, book.matchEvents matched updates) := by
  rw [LinkedBook.finishMatch, LinkedSide.mapM_ordersAt recorded.modified, Option.bind_some,
    unlinked, Option.map_some, shows.handlers, shows.symbol, recorded.trades]
  rfl

theorem Stands.matchOrder (stands : linked.Stands heap queues cells handed book) (wf : book.Wf)
    (tradeIds : IdGenerator) (order : Order) :
    ∃ after, linked.matchOrder heap tradeIds order = some after ∧
      after.Shows book.Dropped heap queues linked (book.matchOrder tradeIds order) := by
  rw [LinkedBook.matchOrder, OrderBook.matchOrder]
  by_cases buy : order.isBuy = true
  · rw [if_pos buy, if_pos buy]
    obtain ⟨middle, asks, engine, after, changed, next, left, matched, recorded, unlinked, houses,
      shows, evolves⟩ := stands.shows.asks.matchOrder wf.asks stands.houses stands.asks.1
        stands.asks.2 order tradeIds
    rw [matched, Option.bind_some]
    dsimp only
    rw [stands.shows.finishMatch _ recorded unlinked, Option.map_some]
    exact ⟨_, rfl, stands.setAsks houses shows (evolves.mono fun _ => Or.inr), recorded.tradeIds,
      recorded.originalOrder, recorded.trades, rfl⟩
  · rw [if_neg buy, if_neg buy]
    obtain ⟨middle, bids, engine, after, changed, next, left, matched, recorded, unlinked, houses,
      shows, evolves⟩ := stands.shows.bids.matchOrder wf.bids stands.houses stands.bids.1
        stands.bids.2 order tradeIds
    rw [matched, Option.bind_some]
    dsimp only
    rw [stands.shows.finishMatch _ recorded unlinked, Option.map_some]
    exact ⟨_, rfl, stands.setBids houses shows (evolves.mono fun _ => Or.inl), recorded.tradeIds,
      recorded.originalOrder, recorded.trades, rfl⟩

theorem Shows.bestPrice (shows : linked.Shows queues book) :
    linked.bids.bestPrice = book.bids.bestPrice ∧ linked.asks.bestPrice = book.asks.bestPrice := by
  constructor
  · have same := shows.bids.levels.image.begin?
    rw [BookSide.bestPrice, OrderBookDataMap.bestPrice, same, Option.map_map]
    rfl
  · have same := shows.asks.levels.image.begin?
    rw [BookSide.bestPrice, OrderBookDataMap.bestPrice, same, Option.map_map]
    rfl

theorem Shows.empty (shows : linked.Shows queues book) :
    linked.bids.empty = book.bids.empty ∧ linked.asks.empty = book.asks.empty :=
  ⟨shows.bids.levels.image.isEmpty.symm, shows.asks.levels.image.isEmpty.symm⟩

theorem Shows.isCrossingOrder (shows : linked.Shows queues book) (order : Order) :
    linked.isCrossingOrder order = book.isCrossingOrder order := by
  rw [LinkedBook.isCrossingOrder, shows.bestPrice.1, shows.bestPrice.2]
  rfl

theorem Stands.unchanged (stands : linked.Stands heap queues cells handed book)
    (tradeIds : IdGenerator) (order : Order) :
    (linked.unchanged heap tradeIds order).Shows Gone heap queues linked
      (book.unchanged tradeIds order) :=
  ⟨stands.idle, rfl, rfl, rfl, rfl⟩

theorem Stands.restOrder (stands : linked.Stands heap queues cells handed book) (order : Order)
    (Gone : PriceLevel → Prop) :
    ∃ after larger, linked.restOrder heap order = some (after, larger, (book.restOrder order).2) ∧
      Follows Gone heap after queues linked larger (book.restOrder order).1 := by
  rw [LinkedBook.restOrder, OrderBook.restOrder]
  have index : ∀ index : OrdersIdMap, index = book.ordersIdMap →
      index.emplace order.orderId ⟨order.orderId, order.price, order.side⟩ =
        book.ordersIdMap.emplace order.orderId ⟨order.orderId, order.price, order.side⟩ :=
    fun index same => same ▸ rfl
  by_cases buy : order.isBuy = true
  · rw [if_pos buy, if_pos buy]
    obtain ⟨after, bids, changed, next, left, added, houses, shows, evolves⟩ :=
      stands.shows.bids.addOrder stands.houses stands.bids.1 stands.bids.2 order Gone
    rw [added, Option.map_some]
    exact ⟨_, _, rfl, (stands.setBids houses shows evolves).index
      (index _ stands.shows.ordersIdMap)⟩
  · rw [if_neg buy, if_neg buy]
    obtain ⟨after, asks, changed, next, left, added, houses, shows, evolves⟩ :=
      stands.shows.asks.addOrder stands.houses stands.asks.1 stands.asks.2 order Gone
    rw [added, Option.map_some]
    exact ⟨_, _, rfl, (stands.setAsks houses shows evolves).index
      (index _ stands.shows.ordersIdMap)⟩

theorem Stands.limitOrder (stands : linked.Stands heap queues cells handed book) (wf : book.Wf)
    (tradeIds : IdGenerator) (order : Order) :
    ∃ after, linked.limitOrder heap tradeIds order = some after ∧
      after.Shows book.Dropped heap queues linked (book.limitOrder tradeIds order) := by
  let outcome := if book.isCrossingOrder order then book.matchOrder tradeIds order
    else book.unchanged tradeIds order
  obtain ⟨middle, done, shows⟩ : ∃ middle,
      (if linked.isCrossingOrder order then linked.matchOrder heap tradeIds order
        else some (linked.unchanged heap tradeIds order)) = some middle ∧
      middle.Shows book.Dropped heap queues linked outcome := by
    rw [stands.shows.isCrossingOrder]
    by_cases crossing : book.isCrossingOrder order = true
    · simp only [outcome, if_pos crossing]
      exact stands.matchOrder wf tradeIds order
    · simp only [outcome, if_neg crossing]
      exact ⟨_, rfl, stands.unchanged tradeIds order⟩
  have result : book.limitOrder tradeIds order =
      if outcome.order.status = .FILLED then outcome
      else
        { outcome with
          book := (outcome.book.restOrder outcome.order).1
          events := outcome.events ++
            emit (outcome.book.restOrder outcome.order).1.handlers.publicOrderBookUpdate
              (.publicOrderBookUpdate (outcome.book.restOrder outcome.order).2) } := rfl
  rw [LinkedBook.limitOrder, done, Option.bind_some, result, shows.order]
  by_cases filled : outcome.order.status = .FILLED
  · rw [if_pos filled, if_pos filled]
    exact ⟨middle, rfl, shows⟩
  · rw [if_neg filled, if_neg filled]
    obtain ⟨changed, next, left, middleStands, evolves⟩ := shows.follows
    obtain ⟨after, larger, rested, last, final, rest, lastStands, lastEvolves⟩ :=
      middleStands.restOrder outcome.order book.Dropped
    rw [rested, Option.map_some]
    refine ⟨_, rfl, ⟨last, final, rest, lastStands, evolves.trans lastEvolves⟩, shows.tradeIds,
      rfl, shows.trades, ?_⟩
    dsimp only
    rw [shows.events, lastStands.shows.handlers]

theorem Stands.executeOrder (stands : linked.Stands heap queues cells handed book) (wf : book.Wf)
    (tradeIds : IdGenerator) (order : Order) :
    ∃ after, linked.executeOrder heap tradeIds order = some after ∧
      after.Shows book.Dropped heap queues linked (book.executeOrder tradeIds order) := by
  have rejected : ∃ after, some (linked.rejectOrder heap tradeIds order) = some after ∧
      after.Shows book.Dropped heap queues linked (book.rejectOrder tradeIds order) :=
    ⟨_, rfl, stands.unchanged tradeIds (order.setStatus .REJECTED)⟩
  have matched := stands.matchOrder wf tradeIds order
  rw [LinkedBook.executeOrder, OrderBook.executeOrder]
  cases order.type with
  | LIMIT => exact stands.limitOrder wf tradeIds order
  | MARKET =>
    dsimp only
    rw [LinkedBook.marketOrder, OrderBook.marketOrder, stands.shows.empty.1, stands.shows.empty.2]
    split_ifs
    · exact rejected
    · exact matched
  | FILL_AND_KILL =>
    dsimp only
    rw [LinkedBook.fillAndKillOrder, OrderBook.fillAndKillOrder, stands.shows.isCrossingOrder]
    split_ifs
    · exact matched
    · exact rejected

theorem Stands.addOrder (stands : linked.Stands heap queues cells handed book) (wf : book.Wf)
    (orderIds tradeIds : IdGenerator) (order : Order) :
    ∃ after, linked.addOrder heap orderIds tradeIds order =
        some (after, (book.addOrder orderIds tradeIds order).2) ∧
      after.Shows book.Dropped heap queues linked (book.addOrder orderIds tradeIds order).1 := by
  have prepared : linked.prepareOrder orderIds order = book.prepareOrder orderIds order := by
    rw [LinkedBook.prepareOrder, OrderBook.prepareOrder, stands.shows.symbol]
  rw [LinkedBook.addOrder, OrderBook.addOrder, stands.shows.symbol, prepared]
  by_cases own : order.isSameSymbol book.symbol = true
  · rw [if_pos own, if_pos own]
    obtain ⟨after, executed, shows⟩ :=
      stands.executeOrder wf tradeIds (book.prepareOrder orderIds order).1
    obtain ⟨changed, next, left, lastStands, evolves⟩ := shows.follows
    dsimp only
    rw [executed, Option.map_some]
    refine ⟨_, rfl, ⟨changed, next, left, lastStands, evolves⟩, shows.tradeIds, shows.order,
      shows.trades, ?_⟩
    dsimp only
    rw [shows.events, shows.order, stands.shows.handlers]
  · rw [if_neg own, if_neg own]
    exact ⟨_, rfl, stands.unchanged tradeIds order⟩

theorem Stands.removeOrder (stands : linked.Stands heap queues cells handed book) (wf : book.Wf)
    (id : OrderId) :
    ∃ after larger, linked.removeOrder heap id =
        some (after, larger, (book.removeOrder id).2) ∧
      Follows book.Dropped heap after queues linked larger (book.removeOrder id).1 := by
  rw [LinkedBook.removeOrder, OrderBook.removeOrder, stands.shows.ordersIdMap]
  cases found : book.ordersIdMap.find? id with
  | none => exact ⟨heap, linked, rfl, stands.idle⟩
  | some helper =>
    dsimp only
    by_cases buy : helper.side = .BUY
    · rw [if_pos buy, if_pos buy]
      obtain ⟨after, bids, changed, next, left, removed, houses, shows, evolves⟩ :=
        stands.shows.bids.removeOrder wf.bids stands.houses stands.bids.1 stands.bids.2 helper
      rw [removed, Option.map_some, Option.map_some]
      dsimp only
      refine ⟨after, _, ?_, (stands.setBids houses shows (evolves.mono fun _ => Or.inl)).index
        (Eq.refl (book.ordersIdMap.erase id))⟩
      rw [stands.shows.handlers]
    · rw [if_neg buy, if_neg buy]
      obtain ⟨after, asks, changed, next, left, removed, houses, shows, evolves⟩ :=
        stands.shows.asks.removeOrder wf.asks stands.houses stands.asks.1 stands.asks.2 helper
      rw [removed, Option.map_some, Option.map_some]
      dsimp only
      refine ⟨after, _, ?_, (stands.setAsks houses shows (evolves.mono fun _ => Or.inr)).index
        (Eq.refl (book.ordersIdMap.erase id))⟩
      rw [stands.shows.handlers]

end LinkedBook

end OrderForge
