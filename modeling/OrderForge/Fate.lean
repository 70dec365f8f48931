/-
This file follows one resting order through a call. Its place is its price and its
id; no two orders of a side have the same place. A crossing order takes some amount
from it, the sum of the trades that name the place; and unless a counter wraps, the
place afterwards holds the order as it was, the order less that amount, or nothing.

A counter wraps when a call stops inside a price and leaves there a multiple of
`2 ^ 64`.
-/

import OrderForge.SessionInvariant

namespace OrderForge

/-- Where an order rests on its side. -/
def Order.place (order : Order) : Price × OrderId := (order.price, order.orderId)

namespace Ladder

/-! ### Places -/

/-- With distinct ids at every price, the places are distinct. -/
theorem nodup_places {orders : List Order}
    (distinct : ∀ price, ((queue orders price).map Order.orderId).Nodup) :
    (orders.map Order.place).Nodup := by
  refine List.pairwise_map.mpr
    (List.pairwise_iff_forall_sublist.mpr fun {first second} both same => ?_)
  obtain ⟨samePrice, sameId⟩ := Prod.mk.inj same
  have queued : [first, second].Sublist (queue orders first.price) := by
    have filtered := both.filter fun order => order.price = first.price
    rwa [List.filter_cons_of_pos (by simp), List.filter_cons_of_pos (by simpa using samePrice.symm),
      List.filter_nil] at filtered
  have ids := (distinct first.price).sublist (queued.map Order.orderId)
  rw [List.map_cons, List.map_cons, sameId] at ids
  exact (List.nodup_cons.mp ids).1 List.mem_cons_self

/-- The orders of a place. -/
def atPlace (orders : List Order) (place : Price × OrderId) : List Order :=
  orders.filter fun order => order.place = place

@[simp]
theorem mem_atPlace {orders : List Order} {place : Price × OrderId} {order : Order} :
    order ∈ atPlace orders place ↔ order ∈ orders ∧ order.place = place := by
  simp [atPlace]

/-- What a quota takes from an order. -/
def given (quota : Nat) (orders : List Order) (resting : Order) : Nat :=
  (((Greedy.taken Order.remaining quota orders).filter fun gave =>
    gave.1.place = resting.place).map Prod.snd).sum

section Given

variable {quota : Nat} {orders : List Order} {resting : Order}

theorem given_split {front back : List Order}
    (distinct : ((front ++ resting :: back).map Order.place).Nodup) :
    given quota (front ++ resting :: back) resting =
      min resting.remaining (quota - Greedy.total Order.remaining front) :=
  Greedy.sum_taken_key Order.remaining Order.place quota distinct

theorem given_le (distinct : (orders.map Order.place).Nodup) (member : resting ∈ orders) :
    given quota orders resting ≤ resting.remaining := by
  obtain ⟨front, back, rfl⟩ := List.append_of_mem member
  rw [given_split distinct]
  exact Nat.min_le_left _ _

/-- What is left of an order that gave an amount. -/
def after (resting : Order) (amount : Nat) : List Order :=
  if amount = resting.remaining then []
  else if amount = 0 then [resting]
  else [resting.cut amount]

/-- What a served quota leaves at a place. -/
theorem left_atPlace (distinct : (orders.map Order.place).Nodup) (member : resting ∈ orders)
    (positive : 0 < resting.remaining) :
    atPlace (Greedy.left Order.remaining Order.cut quota orders) resting.place =
      after resting (given quota orders resting) := by
  obtain ⟨front, back, rfl⟩ := List.append_of_mem member
  refine (Greedy.left_key Order.remaining Order.cut Order.place quota distinct
    (fun _ _ => rfl) positive).trans ?_
  rw [given_split distinct, after]
  by_cases filled : Greedy.total Order.remaining front + resting.remaining ≤ quota
  · have all : min resting.remaining (quota - Greedy.total Order.remaining front) =
        resting.remaining := by omega
    rw [if_pos filled, if_pos all]
  have notAll : min resting.remaining (quota - Greedy.total Order.remaining front) ≠
      resting.remaining := by omega
  rw [if_neg filled, if_neg notAll]
  by_cases untouched : quota ≤ Greedy.total Order.remaining front
  · have none : min resting.remaining (quota - Greedy.total Order.remaining front) = 0 := by omega
    rw [if_pos untouched, if_pos none]
  · have part : min resting.remaining (quota - Greedy.total Order.remaining front) =
        quota - Greedy.total Order.remaining front := by omega
    have some : quota - Greedy.total Order.remaining front ≠ 0 := by omega
    rw [if_neg untouched, part, if_neg some]

end Given

/-! ### Wrapping counters -/

section Wrap

variable (before : Price → Price → Prop) [DecidableRel before]

/-- Whether serving a quota stops inside a price and leaves a multiple of `2 ^ 64` there. -/
def Wraps (quota : Nat) (orders : List Order) (price : Price) : Prop :=
  ahead before orders price < quota ∧ quota < upTo before orders price ∧
    (upTo before orders price - quota) % 2 ^ 64 = 0

instance (quota : Nat) (orders : List Order) (price : Price) :
    Decidable (Wraps before quota orders price) := inferInstanceAs (Decidable (_ ∧ _ ∧ _))

variable {before} [IsStrictTotalOrder Price before] {quota : Nat} {orders : List Order}

/-- Up to the end of an order's price stands everything in front of it, and the order. -/
theorem le_upTo {front back : List Order} {resting : Order}
    (sorted : Ranked.Sorted before Order.price (front ++ resting :: back)) :
    Greedy.total Order.remaining front + resting.remaining ≤
      upTo before (front ++ resting :: back) resting.price := by
  have front_ : Ranked.upTo before Order.price Order.remaining front resting.price =
      Greedy.total Order.remaining front :=
    Ranked.upTo_of_all _ fun other inFront => sorted.front inFront
  have own : Ranked.upTo before Order.price Order.remaining [resting] resting.price =
      resting.remaining := by
    rw [Ranked.upTo_of_all _ fun other single => List.mem_singleton.mp single ▸ Std.Irrefl.irrefl _,
      Greedy.total_cons, Greedy.total_nil, Nat.add_zero]
  rw [upTo, Ranked.upTo_append, ← List.singleton_append, Ranked.upTo_append, front_, own]
  omega

/-- An order that a served quota leaves stands at a price the quota did not use up. -/
theorem lt_upTo_of_mem_left (sorted : Ranked.Sorted before Order.price orders)
    (positive : ∀ order ∈ orders, 0 < order.remaining) {resting : Order}
    (member : resting ∈ Greedy.left Order.remaining Order.cut quota orders) :
    quota < upTo before orders resting.price := by
  generalize gaveEq : Greedy.taken Order.remaining quota orders = gave
  generalize keptEq : Greedy.left Order.remaining Order.cut quota orders = kept at member
  have shape := Greedy.shape Order.remaining Order.cut quota orders
  rw [gaveEq, keptEq] at shape
  cases shape with
  | exhausted => cases member
  | boundary done rest exact_ =>
    have some := positive resting (List.mem_append_right _ member)
    obtain ⟨middle, back, rfl⟩ := List.append_of_mem member
    rw [← List.append_assoc] at sorted ⊢
    have bound := le_upTo sorted
    rw [Greedy.total_append] at bound
    omega
  | inside done last rest reached stops =>
    rcases List.mem_cons.mp member with same | behind
    · have bound := le_upTo sorted
      rw [same]
      exact Nat.lt_of_lt_of_le stops bound
    · obtain ⟨middle, back, rfl⟩ := List.append_of_mem behind
      rw [← List.cons_append, ← List.append_assoc] at sorted ⊢
      have bound := le_upTo sorted
      rw [Greedy.total_append, Greedy.total_cons] at bound
      omega

/-- A quota that does not make a counter wrap is served without pruning. -/
theorem serve_eq_left (sorted : Ranked.Sorted before Order.price orders)
    (positive : ∀ order ∈ orders, 0 < order.remaining)
    (unwrapped : ∀ order ∈ orders, ¬ Wraps before quota orders order.price) :
    serve before quota orders = Greedy.left Order.remaining Order.cut quota orders := by
  refine List.filter_eq_self.mpr fun resting member => decide_eq_true (p := ¬ _) fun pruned => ?_
  have less := lt_upTo_of_mem_left sorted positive member
  have wraps : Wraps before quota orders resting.price := ⟨pruned.1, less, pruned.2⟩
  rcases Greedy.mem_left _ _ member with old | ⟨origin, inOrders, amount, -, -, rfl⟩
  · exact unwrapped resting old wraps
  · exact unwrapped origin inOrders wraps

/-- A quota that ends inside a price ends inside an order of the price. -/
theorem exists_end_at {price : Price} (sorted : Ranked.Sorted before Order.price orders)
    (reached : ahead before orders price < quota) (stops : quota < upTo before orders price) :
    ∃ front resting back, orders = front ++ resting :: back ∧ resting.price = price ∧
      Greedy.total Order.remaining front ≤ quota ∧
      quota < Greedy.total Order.remaining front + resting.remaining := by
  have less : quota < Greedy.total Order.remaining orders :=
    Nat.lt_of_lt_of_le stops (Greedy.total_le_of_sublist _ List.filter_sublist)
  obtain ⟨front, resting, back, rfl, begun, ends⟩ := Greedy.exists_end Order.remaining less
  refine ⟨front, resting, back, rfl, ?_, begun, ends⟩
  rcases Std.Trichotomous.rel_or_eq_or_rel_swap (r := before) (a := resting.price) (b := price)
    with better | same | worse
  · have front_ : Ranked.ahead before Order.price Order.remaining front price =
        Greedy.total Order.remaining front := Ranked.ahead_of_all _ fun other inFront =>
      Ranked.before_of_not_before (sorted.front inFront) better
    have own : Ranked.ahead before Order.price Order.remaining [resting] price =
        resting.remaining := by
      rw [Ranked.ahead_of_all _ fun other single => List.mem_singleton.mp single ▸ better,
        Greedy.total_cons, Greedy.total_nil, Nat.add_zero]
    rw [ahead, Ranked.ahead_append, ← List.singleton_append, Ranked.ahead_append, front_,
      own] at reached
    omega
  · exact same
  · have back_ : Ranked.upTo before Order.price Order.remaining (resting :: back) price = 0 := by
      refine Ranked.upTo_of_none _ fun other member => ?_
      rcases List.mem_cons.mp member with same | behind
      · exact same ▸ worse
      · by_contra notWorse
        exact sorted.behind behind (Ranked.before_of_not_before notWorse worse)
    have front_ : Ranked.upTo before Order.price Order.remaining front price ≤
        Greedy.total Order.remaining front :=
      Greedy.total_le_of_sublist _ List.filter_sublist
    rw [upTo, Ranked.upTo_append, back_] at stops
    omega

end Wrap

end Ladder

/-! ### What the trades of a call take from an order -/

/-- A trade that takes from a resting order. -/
def Trade.Fills (trade : Trade) (resting : Order) : Prop :=
  trade.crossingSide = resting.side.opposite ∧ trade.price = resting.price ∧
    trade.passiveOrderId = resting.orderId

instance (trade : Trade) (resting : Order) : Decidable (trade.Fills resting) :=
  inferInstanceAs (Decidable (_ ∧ _ ∧ _))

/-- What some trades take from a resting order. -/
def filled (trades : List Trade) (resting : Order) : Nat :=
  ((trades.filter fun trade => trade.Fills resting).map fun trade =>
    Quantity.toNat trade.qty).sum

theorem filled_terms (trades : List Trade) (resting : Order) :
    filled (trades.map Trade.terms) resting = filled trades resting := by
  rw [filled, filled, List.filter_map, List.map_map]
  rfl

/-- What the trades of some fills take from a passive order. -/
theorem filled_termsOf {order resting : Order} (opposite : order.side = resting.side.opposite)
    {gaves : List (Order × Nat)} (small : ∀ gave ∈ gaves, gave.2 < 2 ^ 64) :
    filled (gaves.map (MatchingEngine.termsOf order)) resting =
      ((gaves.filter fun gave => gave.1.place = resting.place).map Prod.snd).sum := by
  rw [filled, List.filter_map, List.map_map]
  refine congrArg List.sum (Eq.trans ?_ (List.map_congr_left fun gave inFilter =>
    Quantity.toNat_ofNat (small gave (List.mem_of_mem_filter inFilter))))
  refine congrArg (List.map _) (List.filter_congr fun gave _ => decide_eq_decide.mpr ?_)
  exact ⟨fun all => Prod.ext all.2.1 all.2.2,
    fun same => ⟨opposite, congrArg Prod.fst same, congrArg Prod.snd same⟩⟩

namespace OrderBook

variable {book : OrderBook} {order resting : Order} {report : List Order} {outcome : Outcome}

theorem Wf.nodup_places (wf : book.Wf) (side : Side) :
    ((book.orders side).map Order.place).Nodup := Ladder.nodup_places (wf.nodup_orderIds side)

/-- What a call takes from an order of the opposite side. -/
def given (book : OrderBook) (order resting : Order) : Nat :=
  Ladder.given (book.demand order) (book.orders order.side.opposite) resting

theorem given_le (wf : book.Wf) (member : resting ∈ book.orders order.side.opposite) :
    book.given order resting ≤ resting.remaining := Ladder.given_le (wf.nodup_places _) member

/-- The trades of a call take from a passive order what the call takes from it. -/
theorem Executed.filled_passive (executed : book.Executed order report outcome) (wf : book.Wf)
    (member : resting ∈ book.orders order.side.opposite) :
    filled outcome.trades resting = book.given order resting := by
  have opposite : order.side = resting.side.opposite := by
    rw [(wf.placed member).2.1, Side.opposite_opposite]
  rw [← filled_terms, executed.trades, filled_termsOf opposite]
  · rfl
  · exact fun gave inFills => Nat.lt_of_le_of_lt (Greedy.taken_le Order.remaining inFills)
      (Order.remaining_lt _)

/-- What a call may leave of a passive order. -/
theorem Executed.passive_sublist (executed : book.Executed order report outcome) (wf : book.Wf)
    (member : resting ∈ book.orders order.side.opposite) (positive : 0 < resting.remaining) :
    (Ladder.atPlace (outcome.book.orders order.side.opposite) resting.place).Sublist
      (Ladder.after resting (book.given order resting)) := by
  rw [executed.passive, given, ← Ladder.left_atPlace (wf.nodup_places _) member positive]
  exact List.filter_sublist.filter _

/-- What a call in which no counter wraps leaves of a passive order. -/
theorem Executed.passive_atPlace (executed : book.Executed order report outcome) (wf : book.Wf)
    (positive : ∀ resting ∈ book.orders order.side.opposite, 0 < resting.remaining)
    (unwrapped : ∀ resting ∈ book.orders order.side.opposite,
      ¬ Ladder.Wraps order.side.opposite.Better (book.demand order)
        (book.orders order.side.opposite) resting.price)
    (member : resting ∈ book.orders order.side.opposite) :
    Ladder.atPlace (outcome.book.orders order.side.opposite) resting.place =
      Ladder.after resting (book.given order resting) := by
  rw [executed.passive, Ladder.serve_eq_left (wf.sorted _) positive unwrapped]
  exact Ladder.left_atPlace (wf.nodup_places _) member (positive resting member)

end OrderBook

end OrderForge
