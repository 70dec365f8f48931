/-
This file proves that adding an order and cancelling it again restores the book, when
the order is new and meets no order of the other side. In the level the node goes to
the back of the hashed linked list and is unlinked from there, after which the list
and every node that was there is what it was; the counter counts the order and forgets
it, whether or not it wraps meanwhile. A level that was made for the order is taken out
of its map by the cancel, a level that had orders is not, since their quantities do not
sum to zero. The index entry goes with the cancel.
-/

import OrderForge.Identity
import OrderForge.ProcessRefinement
import OrderForge.Representation

namespace OrderForge

/-! ### One level -/

theorem LinkedLevel.Shows.addOrder_removeOrder {level : LinkedLevel} {pool : OrderPool}
    {cells : List Cell} {handed : List Slot} {queue : PriceLevel}
    (shows : level.Shows pool.memory cells queue) (accounted : pool.allocator.Accounted handed)
    (held : ∀ slot ∈ cells.map Prod.fst, slot ∈ handed) {order : Order}
    (fresh : queue.orderCont.contains order.orderId = false) :
    ∃ larger changed update smaller, level.addOrder pool order = some (larger, changed, update) ∧
      changed.removeOrder larger order.orderId = some (smaller, level, level.update) ∧
      ∀ slot ∈ handed, smaller.memory slot = pool.memory slot := by
  have contained := (shows.contains order.orderId).trans fresh
  obtain ⟨larger, pushed, smaller, done, found, removed, same⟩ :=
    shows.orders.push_remove contained accounted held order
  refine ⟨larger, { level with
    orderCont := pushed
    totalQty := level.totalQty + order.remainingQty },
    { level.update with totalQuantity := level.totalQty + order.remainingQty }, smaller, ?_, ?_,
    same⟩
  · rw [LinkedLevel.addOrder, contained, if_neg Bool.false_ne_true, done]
    rfl
  · rw [LinkedLevel.removeOrder, found, Option.bind_some]
    dsimp only
    rw [removed, Option.map_some, Quantity.add_sub_cancel]

/-! ### The levels in the heap -/

/-- Whether every level that was made is as it was, with its total, the ends of its list and its
index, so is every node of every level, with its order and its links, and so are the queues that
are walked from the front. -/
structure LevelHeap.Restored (heap after : LevelHeap) : Prop where
  levels : heap.levels <+: after.levels
  nodes : ∀ level ∈ heap.levels, ∀ slot ∈ level.orderCont.nodeMap.items,
    after.pool.memory slot = heap.pool.memory slot
  queues : ∀ level ∈ heap.levels,
    HashLinkedList.iterate after.pool (level.orderCont.size + 1) level.orderCont.front =
      HashLinkedList.iterate heap.pool (level.orderCont.size + 1) level.orderCont.front

namespace LevelHeap

variable {heap : LevelHeap} {queues : PriceLvlPtr → PriceLevel} {cells : PriceLvlPtr → List Cell}
  {handed : List Slot}

theorem Restored.refl (heap : LevelHeap) : heap.Restored heap :=
  ⟨List.prefix_rfl, fun _ _ _ _ => rfl, fun _ _ => rfl⟩

/-- The nodes of the levels are among what the pool has handed out. -/
theorem Houses.restored (houses : heap.Houses queues cells handed) {after : LevelHeap}
    (levels : heap.levels <+: after.levels)
    (same : ∀ slot ∈ handed, after.pool.memory slot = heap.pool.memory slot) :
    heap.Restored after := by
  refine ⟨levels, fun level member slot inLevel => ?_, fun level member => ?_⟩
  · obtain ⟨ptr, found⟩ := List.mem_iff_getElem?.mp member
    rw [InsertionMap.items, (houses.shows ptr level found).orders.nodeMap, List.map_map] at inLevel
    exact same slot (houses.held ptr slot inLevel)
  · obtain ⟨ptr, found⟩ := List.mem_iff_getElem?.mp member
    have represents := (houses.shows ptr level found).orders
    have enough : (cells ptr).length < level.orderCont.size + 1 := by
      rw [HashLinkedList.size, represents.nodeMap, List.length_map]
      exact Nat.lt_succ_self _
    have afterwards : level.orderCont.Represents after.pool.memory (cells ptr) :=
      represents.congr fun slot inCells => same slot (houses.held ptr slot inCells)
    rw [represents.iterate enough, afterwards.iterate enough]

/-- Adding a new order to a level and cancelling it again. -/
theorem Houses.addOrder_removeOrder (houses : heap.Houses queues cells handed) {ptr : PriceLvlPtr}
    {level : LinkedLevel} (found : heap.levels[ptr]? = some level) {order : Order}
    (fresh : (queues ptr).orderCont.contains order.orderId = false) :
    ∃ middle update after,
      heap.call ptr (fun level pool => level.addOrder pool order) = some (middle, update) ∧
      middle.call ptr (fun level pool => level.removeOrder pool order.orderId) =
        some (after, level.update) ∧
      after.levels = heap.levels ∧
      ∀ slot ∈ handed, after.pool.memory slot = heap.pool.memory slot := by
  obtain ⟨larger, changed, update, smaller, added, removed, same⟩ :=
    (houses.shows ptr level found).addOrder_removeOrder houses.accounted (houses.held ptr) fresh
  obtain ⟨less, level_eq⟩ := List.getElem?_eq_some_iff.mp found
  refine ⟨⟨larger, heap.levels.set ptr changed⟩, update,
    ⟨smaller, (heap.levels.set ptr changed).set ptr level⟩, ?_, ?_, ?_, same⟩
  · rw [LevelHeap.call, found, Option.bind_some, added, Option.map_some]
  · rw [LevelHeap.call, List.getElem?_set_self less, Option.bind_some, removed, Option.map_some]
  · rw [List.set_set, ← level_eq, List.set_getElem_self]

end LevelHeap

/-! ### One side -/

namespace LinkedSide

variable {CompFunc : Price → Price → Prop} [DecidableRel CompFunc]
  [IsStrictTotalOrder Price CompFunc] {linked : LinkedSide CompFunc}
  {bookSide : BookSide CompFunc} {heap : LevelHeap} {queues : PriceLvlPtr → PriceLevel}
  {cells : PriceLvlPtr → List Cell} {handed : List Slot} {symbol : String} {side : Side}
  {order : Order}

/-- Whether adding an order and cancelling it have results, and leave a side and its heap as they
were. -/
def Undoes (linked : LinkedSide CompFunc) (heap : LevelHeap) (order : Order)
    (helper : FindOrderHelper) : Prop :=
  ∃ middle larger update after last,
    linked.addOrder heap order = some (middle, larger, update) ∧
    larger.removeOrder middle helper = some (after, linked, last) ∧ heap.Restored after

/-- A level that has orders stays in its map: positive quantities that fit do not sum to zero. -/
theorem Shows.undoes_of_level (shows : linked.Shows queues bookSide)
    (houses : heap.Houses queues cells handed) (wf : bookSide.Wf symbol side)
    (positive : ∀ resting ∈ bookSide.orders, 0 < resting.remaining)
    (bounded : Ladder.quantity bookSide.orders order.price < 2 ^ 64)
    (absent : ∀ resting ∈ bookSide.orders, resting.orderId ≠ order.orderId) (helped : Side)
    {ptr : PriceLvlPtr} (known : linked.levels.bookCont.find? order.price = some ptr)
    {level : LinkedLevel} (found : heap.levels[ptr]? = some level) :
    linked.Undoes heap order ⟨order.orderId, order.price, helped⟩ := by
  have image := shows.levels.image.find? Function.injective_id order.price
  rw [known] at image
  have levelWf := wf.level_wf image
  have queued : Ladder.queue bookSide.orders order.price = (queues ptr).orders := by
    have queue := wf.queue_eq order.price
    rw [id_eq, Option.map_some] at image
    rw [image] at queue
    exact queue
  have fresh : (queues ptr).orderCont.contains order.orderId = false := by
    rw [InsertionMap.contains_eq_false, levelWf.keys_eq, ← queued]
    intro inQueue
    obtain ⟨resting, inQueue, same⟩ := List.mem_map.mp inQueue
    exact absent resting (Ladder.mem_queue.mp inQueue).1 same
  have counted : level.update.totalQuantity.value ≠ 0 := by
    intro zero
    have total : Quantity.toNat (queues ptr).totalQty = 0 :=
      (houses.shows ptr level found).totalQty ▸ congrArg UInt64.toNat zero
    rw [levelWf.counted, PriceLevel.quantity, ← queued] at total
    rcases Ladder.fits_of_positive positive bounded with empty | some
    · exact wf.populated _ ((FlatMap.find?_eq_some _).mp image) (queued.symm.trans empty)
    · exact some total
  obtain ⟨middle, update, after, added, removed, levels, same⟩ :=
    houses.addOrder_removeOrder found fresh
  have got : ∀ heap, linked.levels.getBookLevel heap order.price = (heap, linked.levels, ptr) :=
    fun heap => by rw [LinkedDataMap.getBookLevel, known]
  refine ⟨middle, linked, update, after, level.update, ?_, ?_,
    houses.restored (levels ▸ List.prefix_rfl) same⟩
  · rw [LinkedSide.addOrder, got]
    dsimp only
    rw [added]
    rfl
  · rw [LinkedSide.removeOrder, got]
    dsimp only
    rw [removed, Option.map_some]
    dsimp only
    rw [if_neg counted]

/-- A level that is made for the order is taken out of its map again. -/
theorem undoes_of_no_level (houses : heap.Houses queues cells handed) (helped : Side)
    (unknown : linked.levels.bookCont.find? order.price = none) :
    linked.Undoes heap order ⟨order.orderId, order.price, helped⟩ := by
  let created := LinkedLevel.create linked.levels.symbol order.price linked.levels.side
  let levels := { linked.levels with
    bookCont := linked.levels.bookCont.emplace order.price heap.levels.length }
  have inserted : levels.bookCont.find? order.price = some heap.levels.length := by
    rw [FlatMap.find?_emplace, if_pos rfl, unknown, Option.getD_none]
  have made : linked.levels.getBookLevel heap order.price =
      ((heap.newLevel created).2, levels, heap.levels.length) := by
    rw [LinkedDataMap.getBookLevel, unknown]
    dsimp only [LinkedDataMap.addBookLevel, LevelHeap.newLevel]
    rw [inserted, Option.getD_some]
  have got : ∀ heap, levels.getBookLevel heap order.price = (heap, levels, _) :=
    fun heap => by rw [LinkedDataMap.getBookLevel, inserted]
  have found : (heap.newLevel created).2.levels[heap.levels.length]? = some created :=
    List.getElem?_concat_length
  have fresh : (Function.update queues heap.levels.length (PriceLevel.create linked.levels.symbol
      order.price linked.levels.side) heap.levels.length).orderCont.contains order.orderId =
      false := by
    rw [Function.update_self]
    rfl
  have housed := houses.newLevel linked.levels.symbol order.price linked.levels.side
  obtain ⟨middle, update, after, added, removed, same, nodes⟩ :=
    housed.addOrder_removeOrder found fresh
  have erased : levels.removeBookLevel order.price = linked.levels := by
    rw [LinkedDataMap.removeBookLevel, FlatMap.erase_emplace unknown]
  have zero : created.update.totalQuantity.value = 0 := rfl
  have price : created.update.price = order.price := rfl
  refine ⟨middle, { linked with levels }, update, after, created.update, ?_, ?_,
    houses.restored (same ▸ List.prefix_append _ _) nodes⟩
  · rw [LinkedSide.addOrder, made]
    dsimp only
    rw [added]
    rfl
  · rw [LinkedSide.removeOrder, got]
    dsimp only
    rw [removed, Option.map_some]
    dsimp only
    rw [if_pos zero, price, erased]

theorem Shows.undoes (shows : linked.Shows queues bookSide)
    (houses : heap.Houses queues cells handed)
    (made : ∀ ptr ∈ linked.pointers, ptr < heap.levels.length) (wf : bookSide.Wf symbol side)
    (positive : ∀ resting ∈ bookSide.orders, 0 < resting.remaining)
    (bounded : Ladder.quantity bookSide.orders order.price < 2 ^ 64)
    (absent : ∀ resting ∈ bookSide.orders, resting.orderId ≠ order.orderId) (helped : Side) :
    linked.Undoes heap order ⟨order.orderId, order.price, helped⟩ := by
  cases known : linked.levels.bookCont.find? order.price with
  | none => exact undoes_of_no_level houses helped known
  | some ptr =>
    have member := (FlatMap.find?_eq_some _).mp known
    have found := List.getElem?_eq_getElem
      (made ptr (List.mem_map_of_mem (f := Prod.snd) member))
    exact shows.undoes_of_level houses wf positive bounded absent helped known found

end LinkedSide

/-! ### One book -/

namespace LinkedBook

variable {linked : LinkedBook} {book : OrderBook} {heap : LevelHeap}
  {queues : PriceLvlPtr → PriceLevel} {cells : PriceLvlPtr → List Cell} {handed : List Slot}
  {order : Order}

/-- A cancel of an order that the book has just rested. -/
theorem Stands.restOrder_removeOrder (stands : linked.Stands heap queues cells handed book)
    (wf : book.Wf) (positive : ∀ side, ∀ resting ∈ book.orders side, 0 < resting.remaining)
    (bounded : book.Bounded) (order : Order)
    (unknown : book.ordersIdMap.find? order.orderId = none) (absent : book.Absent order.orderId) :
    ∃ middle larger update after events,
      linked.restOrder heap order = some (middle, larger, update) ∧
      larger.removeOrder middle order.orderId = some (after, linked, events) ∧
      heap.Restored after := by
  let helper : FindOrderHelper := ⟨order.orderId, order.price, order.side⟩
  have fresh : linked.ordersIdMap.find? order.orderId = none :=
    stands.shows.ordersIdMap ▸ unknown
  have found : (linked.ordersIdMap.emplace order.orderId helper).find? order.orderId =
      some helper := by
    rw [FlatMap.find?_emplace, if_pos rfl, fresh]
    rfl
  cases sided : order.side with
  | BUY =>
    obtain ⟨middle, bids, update, after, last, added, removed, restored⟩ :=
      stands.shows.bids.undoes stands.houses stands.bids.1 wf.bids (positive .BUY)
        (bounded .BUY order.price) (absent .BUY) order.side
    have buy : order.isBuy = true := decide_eq_true sided
    let larger := { linked with bids }.addOrderHelper order.price order.orderId order.side
    refine ⟨middle, larger, update, after,
      emit linked.handlers.publicOrderBookUpdate (.publicOrderBookUpdate last), ?_, ?_, restored⟩
    · rw [LinkedBook.restOrder, if_pos buy, added]
      rfl
    · rw [LinkedBook.removeOrder]
      dsimp only [larger, addOrderHelper]
      rw [found]
      dsimp only
      rw [if_pos sided, removed]
      dsimp only [Option.map_some]
      rw [FlatMap.erase_emplace fresh]
  | SELL =>
    obtain ⟨middle, asks, update, after, last, added, removed, restored⟩ :=
      stands.shows.asks.undoes stands.houses stands.asks.1 wf.asks (positive .SELL)
        (bounded .SELL order.price) (absent .SELL) order.side
    have sell : order.side ≠ .BUY := sided ▸ Side.noConfusion
    have notBuy : ¬ order.isBuy = true := mt of_decide_eq_true sell
    let larger := { linked with asks }.addOrderHelper order.price order.orderId order.side
    refine ⟨middle, larger, update, after,
      emit linked.handlers.publicOrderBookUpdate (.publicOrderBookUpdate last), ?_, ?_, restored⟩
    · rw [LinkedBook.restOrder, if_neg notBuy, added]
      rfl
    · rw [LinkedBook.removeOrder]
      dsimp only [larger, addOrderHelper]
      rw [found]
      dsimp only
      rw [if_neg sell, removed]
      dsimp only [Option.map_some]
      rw [FlatMap.erase_emplace fresh]

theorem removeOrder_of_unknown (heap : LevelHeap) {id : OrderId}
    (unknown : linked.ordersIdMap.find? id = none) :
    linked.removeOrder heap id = some (heap, linked, []) := by
  rw [LinkedBook.removeOrder, unknown]

/-- A new order that meets no order of the other side, and its cancel. -/
theorem Stands.addOrder_removeOrder (stands : linked.Stands heap queues cells handed book)
    (wf : book.Wf) (positive : ∀ side, ∀ resting ∈ book.orders side, 0 < resting.remaining)
    (bounded : book.Bounded) (limit : order.type = .LIMIT) (identified : order.orderId ≠ 0)
    (unknown : book.ordersIdMap.find? order.orderId = none) (absent : book.Absent order.orderId)
    (quiet : book.isCrossingOrder order = false) (orderIds tradeIds : IdGenerator) :
    ∃ outcome after events,
      linked.addOrder heap orderIds tradeIds order = some (outcome, orderIds) ∧
      outcome.book.removeOrder outcome.heap order.orderId = some (after, linked, events) ∧
      heap.Restored after := by
  have nothing := removeOrder_of_unknown heap (stands.shows.ordersIdMap ▸ unknown)
  rw [LinkedBook.addOrder]
  by_cases own : order.isSameSymbol linked.symbol = true
  · let prepared := order.setSymbol linked.symbol
    let unchanged := linked.unchanged heap tradeIds prepared
    have reached : linked.prepareOrder orderIds order = (prepared, orderIds) := if_neg identified
    have typed : prepared.type = .LIMIT := limit
    have calm : ¬ linked.isCrossingOrder prepared = true :=
      Bool.eq_false_iff.mp ((stands.shows.isCrossingOrder _).trans quiet)
    rw [if_pos own, reached]
    dsimp only
    rw [LinkedBook.executeOrder, typed]
    dsimp only
    rw [LinkedBook.limitOrder, if_neg calm, Option.bind_some]
    by_cases filled : unchanged.order.status = .FILLED
    · rw [if_pos filled]
      exact ⟨_, heap, [], rfl, nothing, LevelHeap.Restored.refl heap⟩
    · obtain ⟨middle, larger, update, after, events, rested, removed, restored⟩ :=
        stands.restOrder_removeOrder wf positive bounded prepared unknown absent
      have same : unchanged.book.restOrder unchanged.heap unchanged.order = _ := rested
      rw [if_neg filled, same]
      exact ⟨_, after, events, rfl, removed, restored⟩
  · rw [if_neg own]
    exact ⟨_, heap, [], rfl, nothing, LevelHeap.Restored.refl heap⟩

end LinkedBook

/-! ### The books of a process -/

/-- The resting orders of a book that gets no empty order have something left. -/
theorem Process.final_positive {Name : Type} [DecidableEq Name] (symbol : Name → String)
    (handlers : Name → Handlers) (orderIds tradeIds : IdGenerator) {name : Name}
    {requests : List (Name × Request)}
    (positive : ∀ request ∈ requests, request.1 = name → request.2.Positive) :
    ((Machine.final Process.step (Process.create symbol handlers orderIds tradeIds)
        requests).books name).Wf ∧
      ∀ side, ∀ resting ∈ ((Machine.final Process.step
        (Process.create symbol handlers orderIds tradeIds) requests).books name).orders side,
        0 < resting.remaining := by
  induction requests using List.reverseRecOn with
  | nil =>
    refine ⟨OrderBook.create_wf _ _, fun side resting member => ?_⟩
    cases side <;> cases member
  | append_singleton requests request inductionHypothesis =>
    rw [Machine.final_concat]
    obtain ⟨wf, kept⟩ := inductionHypothesis fun request member =>
      positive request (List.mem_append_left _ member)
    by_cases called : request.1 = name
    · subst called
      have effect := Process.step_effect _ request wf
      rw [Process.step_book]
      exact ⟨effect.wf wf, effect.positive
        (positive request (List.mem_append_right _ (List.mem_singleton_self _)) rfl) kept⟩
    · rw [Process.step_book_of_ne _ _ (Ne.symm called)]
      exact ⟨wf, kept⟩

namespace LinkedProcess

variable {Name : Type} [DecidableEq Name]

/-- Whether all that the pointers of the books lead to is as it was: the maps of both sides with
the addresses of the levels, the index of the ids, the levels and their nodes. -/
structure Restored (before after : LinkedProcess Name) : Prop where
  books : after.books = before.books
  heap : before.heap.Restored after.heap

/-- An order is added to a book and cancelled. -/
def addThenCancel (name : Name) (order : Order) : List (Name × Request) :=
  [(name, .addOrder order), (name, .removeOrder order.orderId)]

/-- Whether both calls have a result, and leave all as it was. -/
def Undoes (before : LinkedProcess Name) (name : Name) (order : Order) : Prop :=
  (∀ call ∈ Machine.run step before (addThenCancel name order), call.output.isSome) ∧
    before.Restored (Machine.final step before (addThenCancel name order))

variable {linked : LinkedProcess Name} {process : Process Name}
  {queues : PriceLvlPtr → PriceLevel} {cells : PriceLvlPtr → List Cell} {handed : List Slot}

theorem Refines.undoes (refines : linked.Refines process queues cells handed) {name : Name}
    (positive : ∀ side, ∀ resting ∈ (process.books name).orders side, 0 < resting.remaining)
    (bounded : (process.books name).Bounded) {order : Order} (limit : order.type = .LIMIT)
    (identified : order.orderId ≠ 0)
    (unknown : (process.books name).ordersIdMap.find? order.orderId = none)
    (absent : (process.books name).Absent order.orderId)
    (quiet : (process.books name).isCrossingOrder order = false) : linked.Undoes name order := by
  obtain ⟨outcome, after, events, added, removed, restored⟩ :=
    (refines.stands name).addOrder_removeOrder (refines.wf name) positive bounded limit identified
      unknown absent quiet linked.orderIds linked.tradeIds
  let middle : LinkedProcess Name := ⟨outcome.heap, Function.update linked.books name outcome.book,
    linked.orderIds, outcome.tradeIds⟩
  let last : LinkedProcess Name := ⟨after, Function.update middle.books name (linked.books name),
    middle.orderIds, middle.tradeIds⟩
  have first : linked.step (name, .addOrder order) =
      (middle, some ⟨some outcome.order, outcome.trades, outcome.events⟩) := by
    rw [LinkedProcess.step, call, added]
    rfl
  have second : middle.step (name, .removeOrder order.orderId) =
      (last, some ⟨none, [], events⟩) := by
    have own : middle.books name = outcome.book := Function.update_self ..
    rw [LinkedProcess.step, call, own, removed]
    rfl
  have final : Machine.final LinkedProcess.step linked (addThenCancel name order) = last := by
    rw [addThenCancel, Machine.final, first, Machine.final, second]
    rfl
  constructor
  · rw [addThenCancel, Machine.run, Machine.run, Machine.run, Machine.transition,
      Machine.transition, first, second]
    simp
  · rw [final]
    refine ⟨?_, restored⟩
    show Function.update (Function.update linked.books name _) name (linked.books name) = _
    rw [Function.update_idem, Function.update_eq_self]

variable (symbol : Name → String) (handlers : Name → Handlers)
  (nodeSize : { size : Nat // 0 < size }) (initialSize : Nat) (orderIds tradeIds : IdGenerator)

/-- Adding an order and cancelling it: in every book that positive orders and cancels lead to and
whose sums fit, a new order that meets none of the other side leaves no trace. -/
theorem add_then_cancel_restores {requests : List (Name × Request)} {name : Name}
    (positive : ∀ request ∈ requests, request.1 = name → request.2.Positive) {book : OrderBook}
    (reached : (Machine.final Process.step (Process.create symbol handlers orderIds tradeIds)
      requests).books name = book)
    (bounded : book.Bounded) {order : Order} (limit : order.type = .LIMIT)
    (identified : order.orderId ≠ 0) (unknown : book.ordersIdMap.find? order.orderId = none)
    (absent : book.Absent order.orderId) (quiet : book.isCrossingOrder order = false) :
    (Machine.final step (create symbol handlers nodeSize initialSize orderIds tradeIds)
      requests).Undoes name order := by
  subst reached
  obtain ⟨queues, cells, handed, refines⟩ :=
    (run_refines symbol handlers nodeSize initialSize orderIds tradeIds requests).1
  exact refines.undoes (Process.final_positive symbol handlers orderIds tradeIds positive).2 bounded
    limit identified unknown absent quiet

/-- A third sell order behind two others, while another book has orders too. -/
theorem sample_undone :
    (Machine.final step (create (fun _ : Bool => "AAPL") (fun _ => ⟨true, true, true, true⟩)
        ⟨1, by decide⟩ 2 ⟨0⟩ ⟨0⟩)
      (sampleAsks.flatMap fun request => [(true, request), (false, request)])).Undoes true
      (sampleOrder .SELL .LIMIT 10000 100000000 3) := by
  refine add_then_cancel_restores _ _ _ _ _ _ (by decide) rfl
    (OrderBook.bounded_of_total fun side => ?_) (by decide) (by decide) (by decide)
    (fun side => ?_) (by decide)
  · cases side <;> decide
  · cases side <;> decide

end LinkedProcess

end OrderForge
