/-
This file proves that the books of a process, with all their pointers, do what the
books of the queues do. The nodes of all levels of all books come from one pool,
which hands the slot of a deleted node out again, perhaps to another book, and a
level that leaves its map stays where it is. Along every run of calls of any of the
books each call has a result, so no null or dangling pointer is followed, and the
responses are those of the books of the queues.
-/

import OrderForge.BookRefinement

namespace OrderForge

/-! ### What a book with pointers looks like -/

/-- Whether a level is seen from outside as a level of the queues is. -/
structure LinkedLevel.Agrees (linked : LinkedLevel) (pool : OrderPool) (level : PriceLevel) :
    Prop where
  update : linked.update = level.update
  orders : linked.orderCont.Agrees pool level.orderCont
  unmarked : linked.ordersToBeRemoved = [] ∧ level.ordersToBeRemoved = []

/-- Whether the addresses under the prices of a side lead to the levels of the prices. -/
structure LinkedSide.Agrees {CompFunc : Price → Price → Prop} (linked : LinkedSide CompFunc)
    (heap : LevelHeap) (bookSide : BookSide CompFunc) : Prop where
  side : linked.side = bookSide.side
  levels : List.Forall₂ (fun address level => address.1 = level.1 ∧
      ∃ held : LinkedLevel, heap.levels[address.2]? = some held ∧ held.Agrees heap.pool level.2)
    linked.levels.bookCont.entries bookSide.levels.bookCont.entries

/-- Whether a book is seen from outside as a book of the queues is. -/
structure LinkedBook.Agrees (linked : LinkedBook) (heap : LevelHeap) (book : OrderBook) : Prop where
  symbol : linked.symbol = book.symbol
  bids : linked.bids.Agrees heap book.bids
  asks : linked.asks.Agrees heap book.asks
  ordersIdMap : linked.ordersIdMap = book.ordersIdMap
  handlers : linked.handlers = book.handlers

theorem LinkedSide.Shows.agrees {CompFunc : Price → Price → Prop} {linked : LinkedSide CompFunc}
    {bookSide : BookSide CompFunc} {heap : LevelHeap} {queues : PriceLvlPtr → PriceLevel}
    {cells : PriceLvlPtr → List Cell} {handed : List Slot} {symbol : String} {side : Side}
    (shows : linked.Shows queues bookSide) (wf : bookSide.Wf symbol side)
    (houses : heap.Houses queues cells handed)
    (made : ∀ ptr ∈ linked.pointers, ptr < heap.levels.length) : linked.Agrees heap bookSide where
  side := shows.side
  levels := by
    have image : bookSide.levels.bookCont.entries =
        linked.levels.bookCont.entries.map (Prod.map id queues) := shows.levels.image
    have levels := wf.levels
    rw [image] at levels ⊢
    rw [List.forall₂_map_right_iff, List.forall₂_same]
    intro entry member
    have level := levels _ (List.mem_map_of_mem (f := Prod.map id queues) member)
    obtain ⟨held, found⟩ : ∃ held, heap.levels[entry.2]? = some held :=
      ⟨_, List.getElem?_eq_getElem (made _ (List.mem_map_of_mem (f := Prod.snd) member))⟩
    have shown := houses.shows _ held found
    obtain ⟨marked, -, linkedMarks, marks⟩ := shown.marks
    have none : marked = [] := List.map_eq_nil_iff.mp (marks.symm.trans level.unmarked)
    exact ⟨rfl, held, found, shown.update, shown.orders.agrees shown.entries,
      linkedMarks.trans (congrArg (List.map Prod.fst) none), level.unmarked⟩

/-! ### The books of a process -/

namespace LinkedProcess

variable {Name : Type}

/-- What holds of the books along every run: each stands for its book of the queues, and no two
books have a level in common. -/
structure Refines (linked : LinkedProcess Name) (process : Process Name)
    (queues : PriceLvlPtr → PriceLevel) (cells : PriceLvlPtr → List Cell) (handed : List Slot) :
    Prop where
  houses : linked.heap.Houses queues cells handed
  stands : ∀ name, (linked.books name).Stands linked.heap queues cells handed (process.books name)
  apart : ∀ name other, name ≠ other → ∀ ptr ∈ (linked.books name).pointers,
    ptr ∉ (linked.books other).pointers
  wf : ∀ name, (process.books name).Wf
  orderIds : linked.orderIds = process.orderIds
  tradeIds : linked.tradeIds = process.tradeIds

variable [DecidableEq Name] {linked : LinkedProcess Name} {process : Process Name}
  {queues : PriceLvlPtr → PriceLevel} {cells : PriceLvlPtr → List Cell} {handed : List Slot}

/-- A call of one book leaves the other books alone. -/
theorem Refines.update (refines : linked.Refines process queues cells handed) {name : Name}
    {Gone : PriceLevel → Prop} {after : LevelHeap} {larger : LinkedBook} {book : OrderBook}
    {orderIds tradeIds : IdGenerator} {changed : PriceLvlPtr → PriceLevel}
    {next : PriceLvlPtr → List Cell} {left : List Slot} (wf : book.Wf)
    (stands : larger.Stands after changed next left book)
    (evolves : Evolves Gone linked.heap after queues changed (linked.books name).pointers
      larger.pointers) :
    Refines ⟨after, Function.update linked.books name larger, orderIds, tradeIds⟩
      ⟨Function.update process.books name book, orderIds, tradeIds⟩ changed next left := by
  have away : ∀ other, other ≠ name → ∀ ptr ∈ (linked.books other).pointers,
      ptr ∉ (linked.books name).pointers ∧ ptr ∉ larger.pointers := by
    intro other different ptr member
    have outside := refines.apart other name different ptr member
    refine ⟨outside, fun inLarger => ?_⟩
    rcases evolves.origin ptr inLarger with old | new
    · exact outside old
    · exact Nat.not_le_of_lt ((refines.stands other).made ptr member) new
  refine ⟨stands.houses, fun other => ?_, fun first second different ptr member => ?_,
    fun other => ?_, rfl, rfl⟩
  · dsimp only
    by_cases same : other = name
    · rw [same, Function.update_self, Function.update_self]
      exact stands
    · rw [Function.update_of_ne same, Function.update_of_ne same]
      have old := refines.stands other
      refine ⟨stands.houses, old.shows.congr fun ptr member => ?_, fun ptr member => ?_,
        old.distinct⟩
      · exact evolves.others ptr (old.made ptr member) (away other same ptr member).1
      · exact (old.made ptr member).trans_le evolves.grown
  · dsimp only at member ⊢
    by_cases firstSame : first = name
    · rw [firstSame, Function.update_self] at member
      rw [firstSame] at different
      rw [Function.update_of_ne different.symm]
      exact fun inSecond => (away second different.symm ptr inSecond).2 member
    · rw [Function.update_of_ne firstSame] at member
      by_cases secondSame : second = name
      · rw [secondSame, Function.update_self]
        exact (away first firstSame ptr member).2
      · rw [Function.update_of_ne secondSame]
        exact refines.apart first second different ptr member
  · dsimp only
    by_cases same : other = name
    · rw [same, Function.update_self]
      exact wf
    · rw [Function.update_of_ne same]
      exact refines.wf other

omit [DecidableEq Name] in
theorem step_book_of_ne [DecidableEq Name] (linked : LinkedProcess Name)
    (request : Name × Request) {other : Name} (different : other ≠ request.1) :
    (linked.step request).1.books other = linked.books other := by
  obtain ⟨name, call⟩ := request
  rw [LinkedProcess.step]
  cases call with
  | addOrder order =>
    rw [LinkedProcess.call]
    cases (linked.books name).addOrder linked.heap linked.orderIds linked.tradeIds order with
    | none => rfl
    | some result => exact Function.update_of_ne different ..
  | removeOrder id =>
    rw [LinkedProcess.call]
    cases (linked.books name).removeOrder linked.heap id with
    | none => rfl
    | some result => exact Function.update_of_ne different ..

/-- A call has a result, which is that of the books of the queues. -/
theorem Refines.step (refines : linked.Refines process queues cells handed)
    (request : Name × Request) :
    (linked.step request).2 = some (process.step request).2 ∧
    ∃ changed next left,
      (linked.step request).1.Refines (process.step request).1 changed next left ∧
      Evolves (process.books request.1).Dropped linked.heap (linked.step request).1.heap queues
        changed (linked.books request.1).pointers
        ((linked.step request).1.books request.1).pointers := by
  obtain ⟨name, call⟩ := request
  have stands := refines.stands name
  have wf := refines.wf name
  have kept := (process.step_effect (name, call) wf).wf wf
  cases call with
  | addOrder order =>
    obtain ⟨after, added, shows⟩ :=
      stands.addOrder wf process.orderIds process.tradeIds order
    obtain ⟨changed, next, left, lastStands, evolves⟩ := shows.follows
    have stepped : linked.step (name, .addOrder order) =
        (⟨after.heap, Function.update linked.books name after.book,
          ((process.books name).addOrder process.orderIds process.tradeIds order).2,
          after.tradeIds⟩, some ⟨some after.order, after.trades, after.events⟩) := by
      rw [LinkedProcess.step, LinkedProcess.call, refines.orderIds, refines.tradeIds, added]
      rfl
    rw [stepped, shows.order, shows.trades, shows.events, shows.tradeIds]
    refine ⟨rfl, changed, next, left, refines.update kept lastStands evolves, ?_⟩
    dsimp only
    rw [Function.update_self]
    exact evolves
  | removeOrder id =>
    obtain ⟨after, larger, removed, changed, next, left, lastStands, evolves⟩ :=
      stands.removeOrder wf id
    have stepped : linked.step (name, .removeOrder id) =
        (⟨after, Function.update linked.books name larger, process.orderIds, process.tradeIds⟩,
          some ⟨none, [], ((process.books name).removeOrder id).2⟩) := by
      rw [LinkedProcess.step, LinkedProcess.call, removed, refines.orderIds, refines.tradeIds]
      rfl
    rw [stepped]
    refine ⟨rfl, changed, next, left, refines.update kept lastStands evolves, ?_⟩
    dsimp only
    rw [Function.update_self]
    exact evolves

/-! ### Runs of the books of a process -/

variable (symbol : Name → String) (handlers : Name → Handlers)
  (nodeSize : { size : Nat // 0 < size }) (initialSize : Nat) (orderIds tradeIds : IdGenerator)

omit [DecidableEq Name] in
theorem create_refines (queues : PriceLvlPtr → PriceLevel) :
    (create symbol handlers nodeSize initialSize orderIds tradeIds).Refines
      (Process.create symbol handlers orderIds tradeIds) queues (fun _ => []) [] where
  houses := LevelHeap.create_houses nodeSize initialSize queues
  stands name := ⟨LevelHeap.create_houses nodeSize initialSize queues,
    LinkedBook.create_shows (symbol name) (handlers name) queues,
    fun _ member => (List.not_mem_nil member).elim, List.nodup_nil⟩
  apart _ _ _ _ member := (List.not_mem_nil member).elim
  wf name := OrderBook.create_wf (symbol name) (handlers name)
  orderIds := rfl
  tradeIds := rfl

/-- Along every run of calls the books with pointers respond as the books of the queues do and
stand for them. -/
theorem run_refines (requests : List (Name × Request)) :
    (∃ queues cells handed,
      (Machine.final step (create symbol handlers nodeSize initialSize orderIds tradeIds)
        requests).Refines (Machine.final Process.step
          (Process.create symbol handlers orderIds tradeIds) requests) queues cells handed) ∧
    (Machine.run step (create symbol handlers nodeSize initialSize orderIds tradeIds)
        requests).map Transition.output =
      (Machine.run Process.step (Process.create symbol handlers orderIds tradeIds)
        requests).map (fun call => some call.output) := by
  let start : PriceLvlPtr → PriceLevel := fun _ => PriceLevel.create "" 0 .BUY
  have simulates : ∀ (process : Process Name) (linked : LinkedProcess Name)
      (request : Name × Request),
      (∃ queues cells handed, linked.Refines process queues cells handed) → True →
      (∃ queues cells handed, (linked.step (id request)).1.Refines (process.step request).1 queues
        cells handed) ∧ (linked.step (id request)).2 = some (process.step request).2 := by
    rintro process linked request ⟨queues, cells, handed, refines⟩ -
    obtain ⟨responds, changed, next, left, kept, -⟩ := refines.step request
    exact ⟨⟨changed, next, left, kept⟩, responds⟩
  have simulated := Machine.run_simulation Process.step id some simulates
    (fun request (_ : request ∈ requests) => trivial)
    ⟨start, _, _, create_refines symbol handlers nodeSize initialSize orderIds tradeIds start⟩
  rw [List.map_id] at simulated
  exact simulated

/-- Along every run of calls of any books the books with pointers respond as the books of the
queues do and look like them, whatever the orders. -/
theorem linked_books_refine_books (requests : List (Name × Request)) :
    (Machine.run step (create symbol handlers nodeSize initialSize orderIds tradeIds)
        requests).map Transition.output =
      (Machine.run Process.step (Process.create symbol handlers orderIds tradeIds)
        requests).map (fun call => some call.output) ∧
    ∀ name, ((Machine.final step (create symbol handlers nodeSize initialSize orderIds tradeIds)
        requests).books name).Agrees
      (Machine.final step (create symbol handlers nodeSize initialSize orderIds tradeIds)
        requests).heap
      ((Machine.final Process.step (Process.create symbol handlers orderIds tradeIds)
        requests).books name) := by
  obtain ⟨⟨queues, cells, handed, refines⟩, outputs⟩ :=
    run_refines symbol handlers nodeSize initialSize orderIds tradeIds requests
  refine ⟨outputs, fun name => ?_⟩
  have stands := refines.stands name
  have wf := refines.wf name
  exact ⟨stands.shows.symbol, stands.shows.bids.agrees wf.bids stands.houses stands.bids.1,
    stands.shows.asks.agrees wf.asks stands.houses stands.asks.1, stands.shows.ordersIdMap,
    stands.shows.handlers⟩

end LinkedProcess

end OrderForge
