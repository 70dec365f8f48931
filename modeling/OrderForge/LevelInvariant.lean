/-
This file states what is true of every price level of every book and shows that
the three operations of a level keep it. The counter of a level agrees with the
exact sum of the remaining quantities modulo `2 ^ 64`; that the sum fits is an
assumption some runs make, not an invariant.

For each operation the file also says what becomes of the queue: an order goes to
the back unless its id is there, a cancelled id leaves, and a match leaves what a
greedy visit leaves.
-/

import OrderForge.LevelMatch

namespace OrderForge

namespace PriceLevel

/-- The queue of a level. -/
def orders (level : PriceLevel) : List Order := level.orderCont.items

/-- The exact sum of the remaining quantities of a level. -/
def quantity (level : PriceLevel) : Nat := Greedy.total Order.remaining level.orders

/-- What holds of a level of a book at any time: it knows its place, no node waits to be
unlinked, the counter counts the queue modulo `2 ^ 64`, every order is stored under its own id
and belongs to the level. -/
structure Wf (symbol : String) (side : Side) (price : Price) (level : PriceLevel) : Prop where
  symbol_eq : level.symbol = symbol
  price_eq : level.price = price
  side_eq : level.side = side
  unmarked : level.ordersToBeRemoved = []
  counted : Quantity.toNat level.totalQty = level.quantity % 2 ^ 64
  keyed : ∀ node ∈ level.orderCont.nodes, node.1 = node.2.orderId
  placed : ∀ order ∈ level.orders, order.symbol = symbol ∧ order.side = side ∧
    order.price = price ∧ order.type = .LIMIT ∧ order.status ≠ .FILLED

namespace Wf

variable {symbol : String} {side : Side} {price : Price} {level : PriceLevel}

theorem keys_eq (wf : level.Wf symbol side price) :
    level.orderCont.nodes.map Prod.fst = level.orders.map Order.orderId := by
  rw [orders, InsertionMap.items, List.map_map]
  exact List.map_congr_left wf.keyed

/-- The orders of a level have distinct ids. -/
theorem nodup_orderIds (wf : level.Wf symbol side price) :
    (level.orders.map Order.orderId).Nodup := wf.keys_eq ▸ level.orderCont.distinct

theorem contains_eq_false (wf : level.Wf symbol side price) {id : OrderId} :
    level.orderCont.contains id = false ↔ id ∉ level.orders.map Order.orderId := by
  rw [InsertionMap.contains_eq_false, wf.keys_eq]

theorem find?_eq_some (wf : level.Wf symbol side price) {id : OrderId} {order : Order}
    (found : level.orderCont.find? id = some order) :
    order ∈ level.orders ∧ order.orderId = id := by
  have member := (InsertionMap.find?_eq_some _).mp found
  exact ⟨List.mem_map_of_mem (f := Prod.snd) member, (wf.keyed _ member).symm⟩

theorem find?_eq_none (wf : level.Wf symbol side price) {id : OrderId} :
    level.orderCont.find? id = none ↔ id ∉ level.orders.map Order.orderId := by
  rw [InsertionMap.find?_eq_none, wf.keys_eq]

/-- The counter is exact when the sum fits. -/
theorem totalQty_eq (wf : level.Wf symbol side price) (fits : level.quantity < 2 ^ 64) :
    Quantity.toNat level.totalQty = level.quantity := by
  rw [wf.counted, Nat.mod_eq_of_lt fits]

end Wf

theorem create_wf (symbol : String) (price : Price) (side : Side) :
    (create symbol price side).Wf symbol side price where
  symbol_eq := rfl
  price_eq := rfl
  side_eq := rfl
  unmarked := rfl
  counted := rfl
  keyed _ member := by cases member
  placed _ member := by cases member

/-! ### Adding an order -/

section Add

variable {symbol : String} {side : Side} {price : Price} {level : PriceLevel}

/-- An order whose id is in the level is declined. -/
theorem addOrder_declined (wf : level.Wf symbol side price) {order : Order}
    (present : order.orderId ∈ level.orders.map Order.orderId) :
    (level.addOrder order).1 = level := by
  have contained : ¬ level.orderCont.contains order.orderId = false := fun fresh =>
    wf.contains_eq_false.mp fresh present
  rw [addOrder, dif_neg contained]

/-- Any other order goes to the back of the queue. -/
theorem addOrder_orders (wf : level.Wf symbol side price) {order : Order}
    (absent : order.orderId ∉ level.orders.map Order.orderId) :
    (level.addOrder order).1.orders = level.orders ++ [order] := by
  rw [addOrder, dif_pos (wf.contains_eq_false.mpr absent)]
  simp [orders, InsertionMap.items, InsertionMap.push]

/-- The counter gains what the order has left. -/
theorem addOrder_totalQty (wf : level.Wf symbol side price) {order : Order}
    (absent : order.orderId ∉ level.orders.map Order.orderId) :
    (level.addOrder order).1.totalQty = level.totalQty + order.remainingQty := by
  rw [addOrder, dif_pos (wf.contains_eq_false.mpr absent)]

theorem addOrder_update (wf : level.Wf symbol side price) {order : Order}
    (own : order.symbol = symbol) : (level.addOrder order).2 = (level.addOrder order).1.update := by
  unfold addOrder
  split_ifs with fresh
  · rfl
  · show { level.update with symbol := order.symbol } = level.update
    rw [own, ← wf.symbol_eq]
    rfl

theorem addOrder_wf (wf : level.Wf symbol side price) {order : Order}
    (own : order.symbol = symbol ∧ order.side = side ∧ order.price = price ∧
      order.type = .LIMIT ∧ order.status ≠ .FILLED) :
    (level.addOrder order).1.Wf symbol side price := by
  by_cases present : order.orderId ∈ level.orders.map Order.orderId
  · rw [addOrder_declined wf present]
    exact wf
  have queue := addOrder_orders wf present
  have fresh := wf.contains_eq_false.mpr present
  refine ⟨?_, ?_, ?_, ?_, ?_, ?_, ?_⟩
  · rw [addOrder, dif_pos fresh]
    exact wf.symbol_eq
  · rw [addOrder, dif_pos fresh]
    exact wf.price_eq
  · rw [addOrder, dif_pos fresh]
    exact wf.side_eq
  · rw [addOrder, dif_pos fresh]
    exact wf.unmarked
  · rw [quantity, queue, addOrder_totalQty wf present, Greedy.total_append, Greedy.total_cons,
      Greedy.total_nil]
    have counted := wf.counted
    have sum := Quantity.toNat_add level.totalQty order.remainingQty
    unfold quantity at counted
    unfold Order.remaining at counted ⊢
    omega
  · rw [addOrder, dif_pos fresh]
    intro node member
    rcases List.mem_append.mp member with old | new
    · exact wf.keyed node old
    · rw [List.mem_singleton.mp new]
  · rw [queue]
    intro other member
    rcases List.mem_append.mp member with old | new
    · exact wf.placed other old
    · exact List.mem_singleton.mp new ▸ own

end Add

/-! ### Cancelling an order -/

section Remove

variable {symbol : String} {side : Side} {price : Price} {level : PriceLevel}

theorem removeOrder_absent (wf : level.Wf symbol side price) {id : OrderId}
    (absent : id ∉ level.orders.map Order.orderId) : (level.removeOrder id).1 = level := by
  rw [removeOrder, wf.find?_eq_none.mpr absent]

/-- A cancelled id leaves the queue, nothing else does. -/
theorem removeOrder_orders (wf : level.Wf symbol side price) (id : OrderId) :
    (level.removeOrder id).1.orders = level.orders.filter fun order => order.orderId ≠ id := by
  have kept : (level.orderCont.remove id).items =
      level.orders.filter fun order => order.orderId ≠ id := by
    rw [orders, InsertionMap.items, InsertionMap.items, InsertionMap.remove, List.filter_map]
    refine congrArg (List.map Prod.snd) (List.filter_congr fun node member => ?_)
    rw [wf.keyed node member]
    rfl
  cases found : level.orderCont.find? id with
  | none =>
    rw [removeOrder_absent wf (wf.find?_eq_none.mp found), List.filter_eq_self.mpr]
    intro order member
    simpa using fun same : order.orderId = id =>
      wf.find?_eq_none.mp found (same ▸ List.mem_map_of_mem member)
  | some order =>
    rw [removeOrder, found]
    exact kept

theorem removeOrder_update (level : PriceLevel) (id : OrderId) :
    (level.removeOrder id).2 = (level.removeOrder id).1.update := rfl

/-- The counter loses exactly what the cancelled order had left. -/
theorem removeOrder_totalQty (wf : level.Wf symbol side price) {order : Order}
    (member : order ∈ level.orders) :
    (level.removeOrder order.orderId).1.totalQty = level.totalQty - order.remainingQty := by
  cases found : level.orderCont.find? order.orderId with
  | none => exact absurd (List.mem_map_of_mem member) (wf.find?_eq_none.mp found)
  | some held =>
    obtain ⟨heldMember, same⟩ := wf.find?_eq_some found
    rw [removeOrder, found, List.inj_on_of_nodup_map wf.nodup_orderIds heldMember member same]

theorem removeOrder_wf (wf : level.Wf symbol side price) (id : OrderId) :
    (level.removeOrder id).1.Wf symbol side price := by
  by_cases absent : id ∉ level.orders.map Order.orderId
  · rw [removeOrder_absent wf absent]
    exact wf
  obtain ⟨order, member, rfl⟩ := List.mem_map.mp (not_not.mp absent)
  have queue := removeOrder_orders wf order.orderId
  have counter := removeOrder_totalQty wf member
  obtain ⟨held, found⟩ : ∃ held, level.orderCont.find? order.orderId = some held := by
    refine Option.ne_none_iff_exists'.mp fun none => ?_
    exact wf.find?_eq_none.mp none (List.mem_map_of_mem member)
  refine ⟨?_, ?_, ?_, ?_, ?_, ?_, ?_⟩
  · rw [removeOrder, found]
    exact wf.symbol_eq
  · rw [removeOrder, found]
    exact wf.price_eq
  · rw [removeOrder, found]
    exact wf.side_eq
  · rw [removeOrder, found]
    exact wf.unmarked
  · have split := Greedy.total_filter_key Order.remaining Order.orderId wf.nodup_orderIds member
    have counted := wf.counted
    have difference := Quantity.toNat_sub level.totalQty order.remainingQty
    have bound := order.remaining_lt
    rw [counter, quantity, queue]
    unfold quantity at counted
    unfold Order.remaining at split counted bound ⊢
    omega
  · rw [removeOrder, found]
    exact fun node nodeMember => wf.keyed node (List.mem_of_mem_filter nodeMember)
  · rw [queue]
    exact fun other otherMember => wf.placed other (List.mem_of_mem_filter otherMember)

end Remove

/-! ### Matching -/

theorem serve_distinct (level : PriceLevel) (quota : Nat) :
    ((Greedy.left nodeRemaining nodeCut quota level.orderCont.nodes).map Prod.fst).Nodup :=
  level.orderCont.distinct.sublist
    (Greedy.left_sublist nodeRemaining nodeCut Prod.fst (fun _ _ => rfl) quota _)

/-- A level that served a quota: its queue is what a greedy visit leaves, and the counter lost
what the visit took. -/
def serve (level : PriceLevel) (quota : Nat) : PriceLevel :=
  { level with
    totalQty := level.totalQty - Quantity.ofNat (min quota level.quantity)
    orderCont := ⟨Greedy.left nodeRemaining nodeCut quota level.orderCont.nodes,
      serve_distinct level quota⟩
    ordersToBeRemoved := [] }

section Match

variable {symbol : String} {side : Side} {price : Price} {level : PriceLevel}

/-- The counter loses what a greedy visit takes. -/
theorem matchOrder_totalQty (level : PriceLevel) (engine : MatchingEngine) :
    (level.matchOrder engine).1.totalQty = (level.serve engine.quota).totalQty := by
  obtain ⟨marked, scanned⟩ := mapAccum_scanned ⟨level.totalQty, level.ordersToBeRemoved, engine⟩
    level.orderCont.nodes level.orderCont.distinct
  exact scanned.totalQty

/-- Once its marked nodes are unlinked, a matched level has served the quota. -/
theorem matchOrder_removeMarked (unmarked : level.ordersToBeRemoved = [])
    (engine : MatchingEngine) :
    (level.matchOrder engine).1.removeMarkedOrderNodes = level.serve engine.quota := by
  obtain ⟨marked, scanned⟩ := mapAccum_scanned ⟨level.totalQty, level.ordersToBeRemoved, engine⟩
    level.orderCont.nodes level.orderCont.distinct
  have marks : (level.matchOrder engine).1.ordersToBeRemoved = marked := by
    refine scanned.ordersToBeRemoved.trans ?_
    rw [unmarked, List.nil_append]
  have nodes : (level.matchOrder engine).1.removeMarkedOrderNodes.orderCont.nodes =
      Greedy.left nodeRemaining nodeCut engine.quota level.orderCont.nodes := by
    rw [removeMarkedOrderNodes, InsertionMap.nodes_foldl_remove, marks]
    exact scanned.unmarked
  exact PriceLevel.ext rfl rfl scanned.totalQty rfl (InsertionMap.ext nodes) rfl

/-- The engine absorbs what a greedy visit takes, and remembers a level whose counter
changed. -/
theorem matchOrder_engine (level : PriceLevel) (engine : MatchingEngine) :
    (level.matchOrder engine).2.1 =
      (engine.absorb (Greedy.taken Order.remaining engine.quota level.orders)).addLevels
        (if (level.serve engine.quota).totalQty ≠ level.totalQty then [level.price] else []) := by
  obtain ⟨marked, scanned⟩ := mapAccum_scanned ⟨level.totalQty, level.ordersToBeRemoved, engine⟩
    level.orderCont.nodes level.orderCont.distinct
  have absorbed : (level.orderCont.mapAccum matchNode
      ⟨level.totalQty, level.ordersToBeRemoved, engine⟩).2.engine =
      engine.absorb (Greedy.taken Order.remaining engine.quota level.orders) := scanned.engine
  rw [← absorbed, ← matchOrder_totalQty]
  by_cases changed : (level.matchOrder engine).1.totalQty ≠ level.totalQty
  · rw [if_pos changed]
    exact if_pos changed
  · rw [if_neg changed, MatchingEngine.addLevels_nil]
    exact if_neg changed

theorem matchOrder_update (unmarked : level.ordersToBeRemoved = []) (engine : MatchingEngine) :
    (level.matchOrder engine).2.2 = (level.serve engine.quota).update := by
  rw [← matchOrder_removeMarked unmarked]
  rfl

/-- What serving a quota leaves of the queue. -/
theorem serve_orders (level : PriceLevel) (quota : Nat) :
    (level.serve quota).orders = Greedy.left Order.remaining Order.cut quota level.orders :=
  Greedy.left_map Order.remaining Order.cut Prod.snd nodeCut (fun _ _ => rfl) _ _

theorem serve_quantity (level : PriceLevel) (quota : Nat) :
    (level.serve quota).quantity = level.quantity - quota := by
  rw [quantity, serve_orders]
  exact Greedy.total_left _ _ Order.remaining_cut _ _

theorem serve_wf (wf : level.Wf symbol side price) {quota : Nat} (small : quota < 2 ^ 64) :
    (level.serve quota).Wf symbol side price := by
  refine ⟨wf.symbol_eq, wf.price_eq, wf.side_eq, rfl, ?_, ?_, ?_⟩
  · have counted := wf.counted
    have amount : Quantity.toNat (Quantity.ofNat (min quota level.quantity)) =
        min quota level.quantity := Quantity.toNat_ofNat (by omega)
    rw [serve_quantity, serve, Quantity.toNat_sub, amount]
    omega
  · intro node member
    rcases Greedy.mem_left _ _ member with old | ⟨origin, originMember, amount, -, -, rfl⟩
    · exact wf.keyed node old
    · exact wf.keyed origin originMember
  · intro order member
    rw [serve_orders] at member
    rcases Greedy.mem_left _ _ member with old | ⟨origin, originMember, amount, -, less, rfl⟩
    · exact wf.placed order old
    · obtain ⟨ownSymbol, ownSide, ownPrice, limit, -⟩ := wf.placed origin originMember
      refine ⟨ownSymbol, ownSide, ownPrice, limit, ?_⟩
      rw [Order.status_cut _ _ less.le, if_neg less.ne']
      decide

/-- The counter of a level is zero exactly when its queue sums to a multiple of `2 ^ 64`. -/
theorem Wf.totalQty_eq_zero_iff (wf : level.Wf symbol side price) :
    level.totalQty = 0 ↔ level.quantity % 2 ^ 64 = 0 := by
  rw [Quantity.eq_zero_iff, wf.counted]

/-- A visit that does not change the counter finds it at zero: the orders visited had nothing
left. -/
theorem serve_totalQty_eq_zero (wf : level.Wf symbol side price) {quota : Nat}
    (small : quota < 2 ^ 64) (wanted : 0 < quota)
    (same : (level.serve quota).totalQty = level.totalQty) :
    (level.serve quota).totalQty = 0 := by
  rw [same, wf.totalQty_eq_zero_iff]
  have before := wf.counted
  have after := (serve_wf wf small).counted
  rw [same, before, serve_quantity] at after
  omega

end Match

end PriceLevel

end OrderForge
