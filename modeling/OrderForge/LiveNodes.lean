/-
This file settles which nodes of the pool are in use. A level leaves its map when its
counter is zero, and its list goes out of reach with whatever nodes it then has. When
no empty order is submitted and the quantities of no price exceed a counter, such a
list has none: the nodes that the pool has handed out are those of the resting
orders, so a process whose orders are all gone has the whole pool back.
-/

import OrderForge.ProcessRefinement
import OrderForge.Vanish

namespace OrderForge

/-! ### Levels that are dropped -/

/-- Whether the quantities of every price of a book fit into a counter. -/
def OrderBook.Fits (book : OrderBook) : Prop :=
  ∀ side, ∀ order ∈ book.orders side, Ladder.quantity (book.orders side) order.price < 2 ^ 64

instance (book : OrderBook) : Decidable book.Fits :=
  decidable_of_iff
    ((∀ order ∈ book.orders .BUY, Ladder.quantity (book.orders .BUY) order.price < 2 ^ 64) ∧
      ∀ order ∈ book.orders .SELL, Ladder.quantity (book.orders .SELL) order.price < 2 ^ 64)
    ⟨fun both side => Side.rec both.1 both.2 side, fun all => ⟨all .BUY, all .SELL⟩⟩

namespace PriceLevel

variable {symbol : String} {side : Side} {price : Price} {level old : PriceLevel}

/-- A level of positive orders that fit counts zero only when it has none. -/
theorem orders_eq_nil (wf : level.Wf symbol side price) (zero : level.totalQty = 0)
    (positive : ∀ order ∈ level.orders, 0 < order.remaining)
    (fits : level.quantity < 2 ^ 64) : level.orders = [] := by
  have none := wf.totalQty_eq_zero_iff.mp zero
  rw [Nat.mod_eq_of_lt fits] at none
  refine List.eq_nil_iff_forall_not_mem.mpr fun order member => ?_
  have weight : order.remaining ≤ level.quantity := Greedy.weight_le_total Order.remaining member
  exact Nat.not_lt_of_le (none ▸ weight) (positive order member)

/-- A level of positive orders that fit is dropped without orders. -/
theorem Drained.orders_eq_nil (drained : old.Drained level) (wf : old.Wf symbol side price)
    (positive : ∀ order ∈ old.orders, 0 < order.remaining)
    (fits : old.quantity < 2 ^ 64) : level.orders = [] := by
  cases drained with
  | removed id zero =>
    refine PriceLevel.orders_eq_nil (removeOrder_wf wf id) zero (fun order member => ?_) ?_
    · rw [removeOrder_orders wf] at member
      exact positive order (List.mem_of_mem_filter member)
    · rw [quantity, removeOrder_orders wf]
      exact (Greedy.total_le_of_sublist _ List.filter_sublist).trans_lt fits
  | served quota small zero =>
    refine PriceLevel.orders_eq_nil (serve_wf wf small) zero (fun order member => ?_) ?_
    · rw [serve_orders] at member
      rcases Greedy.mem_left _ _ member with old | ⟨origin, -, amount, -, less, rfl⟩
      · exact positive order old
      · rw [origin.remaining_cut amount less.le]
        exact Nat.sub_pos_of_lt less
    · rw [serve_quantity]
      exact (Nat.sub_le _ _).trans_lt fits
  | overlooked _ zero populated =>
    exact absurd (PriceLevel.orders_eq_nil wf zero positive fits) populated

end PriceLevel

/-- What a side of positive orders that fit drops has no orders. -/
theorem BookSide.Dropped.orders_eq_nil {CompFunc : Price → Price → Prop}
    [IsStrictTotalOrder Price CompFunc] {bookSide : BookSide CompFunc} {symbol : String}
    {side : Side} {level : PriceLevel} (dropped : bookSide.Dropped level)
    (wf : bookSide.Wf symbol side) (positive : ∀ order ∈ bookSide.orders, 0 < order.remaining)
    (fits : ∀ order ∈ bookSide.orders, Ladder.quantity bookSide.orders order.price < 2 ^ 64) :
    level.orders = [] := by
  obtain ⟨price, drained⟩ := dropped
  have queue := wf.levelAt_orders price
  refine drained.orders_eq_nil (wf.levelAt_wf price) (fun order member => ?_) ?_
  · rw [queue] at member
    exact positive order (Ladder.mem_queue.mp member).1
  · rw [PriceLevel.quantity, queue]
    cases held : Ladder.queue bookSide.orders price with
    | nil => decide
    | cons order rest =>
      have member : order ∈ Ladder.queue bookSide.orders price := held ▸ List.mem_cons_self
      obtain ⟨inSide, rfl⟩ := Ladder.mem_queue.mp member
      rw [← held]
      exact fits order inSide

theorem OrderBook.Dropped.orders_eq_nil {book : OrderBook} {level : PriceLevel}
    (dropped : book.Dropped level) (wf : book.Wf)
    (positive : ∀ side, ∀ order ∈ book.orders side, 0 < order.remaining) (fits : book.Fits) :
    level.orders = [] := by
  rcases dropped with bids | asks
  · exact bids.orders_eq_nil wf.bids (positive .BUY) (fits .BUY)
  · exact asks.orders_eq_nil wf.asks (positive .SELL) (fits .SELL)

/-! ### Runs -/

/-- Whether a call submits no empty order, and the quantities of its book fit before it. -/
def ProcessCall.Bounded {Name : Type} (call : ProcessCall Name) : Prop :=
  call.input.2.Positive ∧ (call.before.books call.input.1).Fits

instance {Name : Type} : DecidablePred fun call : ProcessCall Name => call.Bounded := fun call =>
  inferInstanceAs (Decidable (call.input.2.Positive ∧ (call.before.books call.input.1).Fits))

namespace LinkedProcess

variable {Name : Type} [DecidableEq Name] {linked : LinkedProcess Name} {process : Process Name}
  {queues : PriceLvlPtr → PriceLevel} {cells : PriceLvlPtr → List Cell} {handed : List Slot}

/-- What holds of bounded runs besides: resting orders have something left, and a level that no
book has any more has no orders. -/
structure Tidy (linked : LinkedProcess Name) (process : Process Name)
    (queues : PriceLvlPtr → PriceLevel) : Prop where
  positive : ∀ name side, ∀ order ∈ (process.books name).orders side, 0 < order.remaining
  spent : ∀ ptr < linked.heap.levels.length, (∀ name, ptr ∉ (linked.books name).pointers) →
    (queues ptr).orders = []

theorem Refines.step_tidy (refines : linked.Refines process queues cells handed)
    (tidy : linked.Tidy process queues) (request : Name × Request)
    (bounded : ProcessCall.Bounded (Machine.transition Process.step process request)) :
    ∃ changed next left,
      (linked.step request).1.Refines (process.step request).1 changed next left ∧
      (linked.step request).1.Tidy (process.step request).1 changed := by
  obtain ⟨-, changed, next, left, kept, evolves⟩ := refines.step request
  have effect := process.step_effect request (refines.wf request.1)
  refine ⟨changed, next, left, kept, fun name => ?_, fun ptr less unused => ?_⟩
  · by_cases same : name = request.1
    · rw [same, Process.step_book]
      exact effect.positive bounded.1 (tidy.positive request.1)
    · rw [Process.step_book_of_ne _ _ same]
      exact tidy.positive name
  · rcases evolves.gone ptr less (unused request.1) with ⟨old, away⟩ | dropped
    · rw [evolves.others ptr old away]
      refine tidy.spent ptr old fun name => ?_
      by_cases same : name = request.1
      · exact same ▸ away
      · exact linked.step_book_of_ne request same ▸ unused name
    · exact dropped.orders_eq_nil (refines.wf request.1) (tidy.positive request.1) bounded.2

/-- The slot of a node of a level that a book of a process still has. -/
def Live (linked : LinkedProcess Name) (slot : Slot) : Prop :=
  ∃ name, ∃ ptr ∈ (linked.books name).pointers, ∃ level : LinkedLevel,
    linked.heap.levels[ptr]? = some level ∧ slot ∈ level.orderCont.nodeMap.items

omit [DecidableEq Name] in
/-- In a tidy process the handed out slots are the live ones. -/
theorem Refines.mem_handed_iff_live (refines : linked.Refines process queues cells handed)
    (tidy : linked.Tidy process queues) (slot : Slot) : slot ∈ handed ↔ linked.Live slot := by
  have houses := refines.houses
  -- the slots in the map of the nodes of a level are those of its cells
  have nodes : ∀ ptr (level : LinkedLevel), linked.heap.levels[ptr]? = some level →
      level.orderCont.nodeMap.items = (cells ptr).map Prod.fst := fun ptr level found => by
    rw [InsertionMap.items, (houses.shows ptr level found).orders.nodeMap, List.map_map]
    rfl
  refine ⟨fun member => ?_, ?_⟩
  · obtain ⟨ptr, inCells⟩ := houses.owned slot member
    have less : ptr < linked.heap.levels.length := by
      by_contra le
      rw [houses.unmade ptr (Nat.le_of_not_lt le)] at inCells
      cases inCells
    have found := List.getElem?_eq_getElem less
    have used : ∃ name, ptr ∈ (linked.books name).pointers := by
      by_contra unused
      have none := tidy.spent ptr less (not_exists.mp unused)
      rw [PriceLevel.orders, InsertionMap.items, ← (houses.shows ptr _ found).entries,
        List.map_eq_nil_iff, List.map_eq_nil_iff] at none
      rw [none] at inCells
      cases inCells
    obtain ⟨name, inBook⟩ := used
    exact ⟨name, ptr, inBook, _, found, (nodes ptr _ found).symm ▸ inCells⟩
  · rintro ⟨name, ptr, -, level, found, member⟩
    exact houses.held ptr slot (nodes ptr level found ▸ member)

variable (symbol : Name → String) (handlers : Name → Handlers)
  (nodeSize : { size : Nat // 0 < size }) (initialSize : Nat) (orderIds tradeIds : IdGenerator)

theorem final_tidy (requests : List (Name × Request))
    (bounded : ∀ call ∈ Machine.run Process.step
      (Process.create symbol handlers orderIds tradeIds) requests, ProcessCall.Bounded call) :
    ∃ queues cells handed,
      (Machine.final step (create symbol handlers nodeSize initialSize orderIds tradeIds)
        requests).Refines (Machine.final Process.step
          (Process.create symbol handlers orderIds tradeIds) requests) queues cells handed ∧
      (Machine.final step (create symbol handlers nodeSize initialSize orderIds tradeIds)
        requests).Tidy (Machine.final Process.step
          (Process.create symbol handlers orderIds tradeIds) requests) queues := by
  induction requests using List.reverseRecOn with
  | nil =>
    refine ⟨fun _ => PriceLevel.create "" 0 .BUY, _, _,
      create_refines symbol handlers nodeSize initialSize orderIds tradeIds _, ?_, ?_⟩
    · intro name side order member
      cases side <;> cases member
    · exact fun ptr less => (Nat.not_lt_zero ptr less).elim
  | append_singleton requests request inductionHypothesis =>
    rw [Machine.run_concat] at bounded
    obtain ⟨queues, cells, handed, refines, tidy⟩ :=
      inductionHypothesis fun call member => bounded call (List.mem_append_left _ member)
    rw [Machine.final_concat, Machine.final_concat]
    obtain ⟨changed, next, left, kept⟩ := refines.step_tidy tidy request
      (bounded _ (List.mem_append_right _ (List.mem_singleton_self _)))
    exact ⟨changed, next, left, kept⟩

/-- Along every bounded run the pool has handed out the nodes of the levels in the maps of the
books, and nothing else. -/
theorem handed_out_iff_live (requests : List (Name × Request))
    (bounded : ∀ call ∈ Machine.run Process.step
      (Process.create symbol handlers orderIds tradeIds) requests, ProcessCall.Bounded call) :
    ∃ handed, (Machine.final step (create symbol handlers nodeSize initialSize orderIds tradeIds)
        requests).heap.pool.allocator.Accounted handed ∧
      ∀ slot, slot ∈ handed ↔ (Machine.final step
        (create symbol handlers nodeSize initialSize orderIds tradeIds) requests).Live slot := by
  obtain ⟨queues, cells, handed, refines, tidy⟩ :=
    final_tidy symbol handlers nodeSize initialSize orderIds tradeIds requests bounded
  exact ⟨handed, refines.houses.accounted, refines.mem_handed_iff_live tidy⟩

theorem handed_out_iff_live_day :
    ∃ handed, (Machine.final step (create (fun _ : Bool => "AAPL")
        (fun _ => ⟨true, true, true, true⟩) ⟨1, by decide⟩ 2 ⟨0⟩ ⟨0⟩)
        sampleTurns).heap.pool.allocator.Accounted handed ∧
      ∀ slot, slot ∈ handed ↔ (Machine.final step (create (fun _ : Bool => "AAPL")
        (fun _ => ⟨true, true, true, true⟩) ⟨1, by decide⟩ 2 ⟨0⟩ ⟨0⟩) sampleTurns).Live slot :=
  handed_out_iff_live _ _ _ _ _ _ sampleTurns (by decide)

end LinkedProcess

end OrderForge
