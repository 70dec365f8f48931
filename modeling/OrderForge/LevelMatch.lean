/-
This file reduces the match of one price level to a greedy visit of its queue.
While the crossing order wants something, every visited order gives the smaller of
the two remaining quantities; the loop marks the orders it fills, and unlinking the
marked nodes leaves what a greedy visit leaves.

The level's counter is only known modulo `2 ^ 64`: nothing here assumes that the
quantities of a level fit into it.
-/

import OrderForge.Greedy
import OrderForge.PriceLevel

namespace OrderForge

/-! ### Orders as weighted items -/

namespace Order

/-- What is left of an order, as a natural number. -/
def remaining (order : Order) : Nat := Quantity.toNat order.remainingQty

/-- An order after it gave an amount. -/
def cut (order : Order) (amount : Nat) : Order := order.fill (Quantity.ofNat amount)

theorem remaining_lt (order : Order) : order.remaining < 2 ^ 64 := Quantity.toNat_lt _

theorem remaining_cut (order : Order) (amount : Nat) (le : amount ≤ order.remaining) :
    (order.cut amount).remaining = order.remaining - amount := by
  have small : Quantity.toNat (Quantity.ofNat amount) = amount :=
    Quantity.toNat_ofNat (Nat.lt_of_le_of_lt le order.remaining_lt)
  show Quantity.toNat (order.remainingQty - Quantity.ofNat amount) = _
  rw [Quantity.toNat_sub_of_le (small.symm ▸ le), small]
  rfl

theorem status_cut (order : Order) (amount : Nat) (le : amount ≤ order.remaining) :
    (order.cut amount).status = if order.remaining = amount then .FILLED else .PARTIAL := by
  have left := remaining_cut order amount le
  have zero : (order.cut amount).remainingQty = 0 ↔ order.remaining = amount := by
    rw [Quantity.eq_zero_iff]
    change (order.cut amount).remaining = 0 ↔ _
    omega
  show (if (order.cut amount).remainingQty = 0 then OrderStatus.FILLED else .PARTIAL) = _
  simp only [zero]

theorem cut_cut (order : Order) (first second : Nat) :
    (order.cut first).cut second = order.cut (first + second) := by
  simp only [cut, fill, Quantity.sub_ofNat_sub_ofNat]

end Order

/-! ### The engine after a greedy visit -/

namespace MatchingEngine

/-- What the crossing order still wants. -/
def quota (engine : MatchingEngine) : Nat := engine.originalOrder.remaining

theorem hasRemainingQty_iff (engine : MatchingEngine) :
    engine.hasRemainingQty = true ↔ 0 < engine.quota := by
  rw [hasRemainingQty, decide_eq_true_iff, UInt64.lt_iff_toNat_lt]
  rfl

/-- The engine after it matched each of a list of orders by an amount. -/
def absorb (engine : MatchingEngine) (taken : List (Order × Nat)) : MatchingEngine :=
  taken.foldl (fun engine gave => engine.record gave.1 (Quantity.ofNat gave.2)) engine

theorem matchOrder_eq_absorb (engine : MatchingEngine) (order : Order) :
    engine.matchOrder order =
      (Quantity.ofNat (min order.remaining engine.quota),
        order.cut (min order.remaining engine.quota),
        engine.absorb [(order, min order.remaining engine.quota)]) := by
  have amount : engine.amountOf order = Quantity.ofNat (min order.remaining engine.quota) := by
    rw [← Quantity.ofNat_toNat (engine.amountOf order), amountOf, Quantity.toNat_min]
    rfl
  rw [matchOrder_eq, amount]
  rfl

theorem quota_absorb_singleton (engine : MatchingEngine) (order : Order) (amount : Nat)
    (le : amount ≤ engine.quota) :
    (engine.absorb [(order, amount)]).quota = engine.quota - amount :=
  engine.originalOrder.remaining_cut amount le

theorem absorb_cons (engine : MatchingEngine) (gave : Order × Nat) (rest : List (Order × Nat)) :
    engine.absorb (gave :: rest) =
      (engine.record gave.1 (Quantity.ofNat gave.2)).absorb rest := rfl

theorem absorb_append (engine : MatchingEngine) (first second : List (Order × Nat)) :
    engine.absorb (first ++ second) = (engine.absorb first).absorb second :=
  List.foldl_append

/-- The crossing order loses the sum of what it took. -/
theorem absorb_originalOrder (engine : MatchingEngine) (taken : List (Order × Nat)) :
    (engine.absorb taken).originalOrder =
      if taken = [] then engine.originalOrder
      else engine.originalOrder.cut (taken.map Prod.snd).sum := by
  induction taken generalizing engine with
  | nil => rfl
  | cons gave rest inductionHypothesis =>
    rw [absorb_cons, inductionHypothesis, if_neg (List.cons_ne_nil gave rest), List.map_cons,
      List.sum_cons, ← Order.cut_cut]
    by_cases last : rest = []
    · rw [if_pos last, last, List.map_nil, List.sum_nil, Order.cut_cut]
      rfl
    · rw [if_neg last]
      rfl

/-- The passive orders as the engine reports them. -/
theorem absorb_modifiedOrders (engine : MatchingEngine) (taken : List (Order × Nat)) :
    (engine.absorb taken).modifiedOrders =
      engine.modifiedOrders ++ taken.map fun gave => gave.1.cut gave.2 := by
  induction taken generalizing engine with
  | nil => exact (List.append_nil _).symm
  | cons gave rest inductionHypothesis =>
    rw [absorb_cons, inductionHypothesis, record, List.append_assoc]
    rfl

/-- The terms of the trade by which a crossing order takes an amount from a passive one. -/
def termsOf (crossing : Order) (gave : Order × Nat) : Trade where
  symbol := gave.1.symbol
  price := gave.1.price
  qty := Quantity.ofNat gave.2
  crossingSide := crossing.side
  passiveAccountId := gave.1.accId
  crossingAccountId := crossing.accId
  passiveOrderId := gave.1.orderId
  crossingOrderId := crossing.orderId
  tradeId := 0

/-- The trades the engine reports, but for their ids. -/
theorem absorb_trades (engine : MatchingEngine) (taken : List (Order × Nat)) :
    (engine.absorb taken).trades.map Trade.terms =
      engine.trades.map Trade.terms ++ taken.map (termsOf engine.originalOrder) := by
  induction taken generalizing engine with
  | nil => exact (List.append_nil _).symm
  | cons gave rest inductionHypothesis =>
    rw [absorb_cons, inductionHypothesis, record, List.map_append, List.append_assoc]
    rfl

/-- The engine that also remembers some levels. -/
def addLevels (engine : MatchingEngine) (prices : List Price) : MatchingEngine :=
  { engine with removeLevels := engine.removeLevels ++ prices }

theorem addLevels_nil (engine : MatchingEngine) : engine.addLevels [] = engine := by
  rw [addLevels, List.append_nil]

theorem addLevels_addLevels (engine : MatchingEngine) (first second : List Price) :
    (engine.addLevels first).addLevels second = engine.addLevels (first ++ second) := by
  simp only [addLevels, List.append_assoc]

theorem absorb_addLevels (engine : MatchingEngine) (prices : List Price)
    (taken : List (Order × Nat)) :
    (engine.addLevels prices).absorb taken = (engine.absorb taken).addLevels prices := by
  induction taken generalizing engine with
  | nil => rfl
  | cons gave rest inductionHypothesis =>
    exact inductionHypothesis (engine.record gave.1 (Quantity.ofNat gave.2))

theorem absorb_removeLevels (engine : MatchingEngine) (taken : List (Order × Nat)) :
    (engine.absorb taken).removeLevels = engine.removeLevels := by
  induction taken generalizing engine with
  | nil => rfl
  | cons gave rest inductionHypothesis => exact inductionHypothesis _

/-- After a greedy visit the crossing order wants what the orders could not give. -/
theorem quota_absorb_taken (engine : MatchingEngine) (orders : List Order) :
    (engine.absorb (Greedy.taken Order.remaining engine.quota orders)).quota =
      engine.quota - Greedy.total Order.remaining orders := by
  have given := Greedy.sum_taken Order.remaining engine.quota orders
  rw [quota, absorb_originalOrder]
  split_ifs with none
  · rw [none, List.map_nil, List.sum_nil] at given
    show engine.quota = _
    omega
  · rw [Order.remaining_cut _ _ (given.trans_le (Nat.min_le_left _ _)), given]
    show engine.quota - _ = _
    omega

end MatchingEngine

/-! ### The loop over the queue -/

namespace PriceLevel

/-- The weight of a node. -/
def nodeRemaining (node : OrderId × Order) : Nat := node.2.remaining

/-- A node after its order gave an amount. -/
def nodeCut (node : OrderId × Order) (amount : Nat) : OrderId × Order :=
  (node.1, node.2.cut amount)

theorem matchNode_idle (scan : Scan) (done : scan.engine.quota = 0) (node : OrderId × Order) :
    matchNode scan node = (node.2, scan) := by
  have idle : scan.engine.hasRemainingQty = false := by
    rw [← Bool.not_eq_true, MatchingEngine.hasRemainingQty_iff, done]
    exact Nat.lt_irrefl 0
  rw [matchNode, idle, if_neg Bool.false_ne_true]

/-- The amount a visited node gives. -/
def Scan.amount (scan : Scan) (node : OrderId × Order) : Nat :=
  min node.2.remaining scan.engine.quota

/-- The loop's variables after a visit. -/
def Scan.visit (scan : Scan) (node : OrderId × Order) : Scan where
  totalQty := scan.totalQty - Quantity.ofNat (scan.amount node)
  ordersToBeRemoved := scan.ordersToBeRemoved ++
    if node.2.remaining ≤ scan.engine.quota then [node.1] else []
  engine := scan.engine.absorb [(node.2, scan.amount node)]

theorem Scan.quota_visit (scan : Scan) (node : OrderId × Order) :
    (scan.visit node).engine.quota = scan.engine.quota - node.2.remaining := by
  have used : scan.amount node ≤ scan.engine.quota := min_le_right _ _
  refine (MatchingEngine.quota_absorb_singleton _ _ _ used).trans ?_
  unfold amount
  omega

/-- A visited node gives the smaller of the two remaining quantities, and is marked when that
is all it had. -/
theorem matchNode_visit (scan : Scan) (wanted : 0 < scan.engine.quota)
    (node : OrderId × Order) :
    matchNode scan node = (node.2.cut (scan.amount node), scan.visit node) := by
  have busy : scan.engine.hasRemainingQty = true := scan.engine.hasRemainingQty_iff.mpr wanted
  have status := node.2.status_cut (scan.amount node) (min_le_left _ _)
  unfold Scan.visit
  unfold Scan.amount at status ⊢
  rw [matchNode, busy, if_pos rfl, MatchingEngine.matchOrder_eq_absorb]
  simp only [status]
  by_cases filled : node.2.remaining ≤ scan.engine.quota
  · rw [if_pos filled, Nat.min_eq_left filled, if_pos rfl, if_pos rfl]
  · have less : scan.engine.quota < node.2.remaining := Nat.lt_of_not_le filled
    rw [if_neg filled, Nat.min_eq_right less.le, if_neg less.ne', if_neg (by decide),
      List.append_nil]

/-- What the loop does to a queue: it absorbs what a greedy visit takes, counts it down, and
the nodes it does not mark are what the greedy visit leaves. -/
structure Scanned (scan : Scan) (nodes : List (OrderId × Order))
    (result : List (OrderId × Order) × Scan) (marked : List OrderId) : Prop where
  marked_mem : ∀ id ∈ marked, id ∈ nodes.map Prod.fst
  engine : result.2.engine = scan.engine.absorb
    (Greedy.taken Order.remaining scan.engine.quota (nodes.map Prod.snd))
  totalQty : result.2.totalQty = scan.totalQty - Quantity.ofNat
    (min scan.engine.quota (Greedy.total Order.remaining (nodes.map Prod.snd)))
  ordersToBeRemoved : result.2.ordersToBeRemoved = scan.ordersToBeRemoved ++ marked
  unmarked : result.1.filter (fun node => node.1 ∉ marked) =
    Greedy.left nodeRemaining nodeCut scan.engine.quota nodes

theorem scanned_idle (scan : Scan) (nodes : List (OrderId × Order))
    (done : scan.engine.quota = 0) : Scanned scan nodes (nodes, scan) [] where
  marked_mem := by simp
  engine := by
    rw [done, Greedy.taken_zero]
    rfl
  totalQty := by rw [done, Nat.zero_min, Quantity.sub_ofNat_zero]
  ordersToBeRemoved := (List.append_nil _).symm
  unmarked := by
    rw [done, Greedy.left_zero]
    simp

theorem mapAccum_scanned (scan : Scan) (nodes : List (OrderId × Order))
    (distinct : (nodes.map Prod.fst).Nodup) :
    ∃ marked, Scanned scan nodes (Keyed.mapAccum matchNode scan nodes) marked := by
  induction nodes generalizing scan with
  | nil =>
    refine ⟨[], by simp, rfl, ?_, (List.append_nil _).symm, rfl⟩
    rw [List.map_nil, Greedy.total_nil, Nat.min_zero, Quantity.sub_ofNat_zero]
    rfl
  | cons node rest inductionHypothesis =>
    rcases Nat.eq_zero_or_pos scan.engine.quota with done | wanted
    · rw [Keyed.mapAccum_idle _ _ (matchNode_idle scan done)]
      exact ⟨[], scanned_idle scan _ done⟩
    obtain ⟨fresh, restDistinct⟩ := List.nodup_cons.mp distinct
    rw [Keyed.mapAccum_cons, matchNode_visit scan wanted node]
    obtain ⟨marked, others⟩ := inductionHypothesis (scan.visit node) restDistinct
    have notMarked : node.1 ∉ marked := fun member => fresh (others.marked_mem _ member)
    have unmarked := others.unmarked
    rw [scan.quota_visit] at unmarked
    refine ⟨(if node.2.remaining ≤ scan.engine.quota then [node.1] else []) ++ marked,
      ?_, ?_, ?_, ?_, ?_⟩
    · intro id member
      rcases List.mem_append.mp member with head | tail
      · split_ifs at head
        · exact List.mem_singleton.mp head ▸ List.mem_cons_self
        · cases head
      · exact List.mem_cons_of_mem _ (others.marked_mem id tail)
    · rw [others.engine, scan.quota_visit, List.map_cons, Greedy.taken_cons _ wanted]
      exact (MatchingEngine.absorb_append _ [_] _).symm
    · rw [others.totalQty, scan.quota_visit, Scan.visit, Quantity.sub_ofNat_sub_ofNat,
        List.map_cons, Greedy.total_cons, Scan.amount]
      congr 2
      omega
    · rw [others.ordersToBeRemoved, Scan.visit, List.append_assoc]
    by_cases filled : node.2.remaining ≤ scan.engine.quota
    · rw [if_pos filled, Greedy.left_cons_of_le nodeRemaining nodeCut wanted rest filled]
      refine Eq.trans ?_ unmarked
      rw [List.filter_cons_of_neg (by simp)]
      refine List.filter_congr fun other member => ?_
      have otherMember := List.mem_map_of_mem (f := Prod.fst) member
      rw [Keyed.mapAccum_keys] at otherMember
      have different : other.1 ≠ node.1 := fun same => fresh (same ▸ otherMember)
      simp [different]
    · have stops : scan.engine.quota < node.2.remaining := Nat.lt_of_not_le filled
      rw [Nat.sub_eq_zero_of_le stops.le, Greedy.left_zero] at unmarked
      rw [if_neg filled, Greedy.left_cons_of_lt nodeRemaining nodeCut wanted rest stops,
        List.nil_append, List.filter_cons_of_pos (by simpa using notMarked), unmarked,
        Scan.amount, Nat.min_eq_right stops.le]
      rfl

end PriceLevel

end OrderForge
