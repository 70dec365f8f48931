/-
This file is the abstract model of one side of a book. A ladder is the list of the
orders resting on the side, ranked by price and then by arrival. There are no
levels and no cached counters in it: resting an order puts it behind its price,
cancelling takes it out, and serving a quota visits the ladder greedily from the
front.

One thing of the program shows through. A level is thrown away when its counter is
zero, and the counter counts modulo `2 ^ 64`; so the operations end by `prune`,
which does nothing as long as the quantity of a price is neither zero nor a
multiple of `2 ^ 64`.
-/

import OrderForge.LevelMatch
import OrderForge.Ranked

namespace OrderForge

namespace Ladder

/-- The orders resting at a price, the oldest first. -/
def queue (orders : List Order) (price : Price) : List Order :=
  Ranked.queue Order.price orders price

/-- The exact sum of the remaining quantities at a price. -/
def quantity (orders : List Order) (price : Price) : Nat :=
  Greedy.total Order.remaining (queue orders price)

section Operations

variable (before : Price → Price → Prop) [DecidableRel before]

/-- The sum of the remaining quantities at better prices. -/
def ahead (orders : List Order) (price : Price) : Nat :=
  Ranked.ahead before Order.price Order.remaining orders price

/-- The sum of the remaining quantities at prices that are not worse. -/
def upTo (orders : List Order) (price : Price) : Nat :=
  Ranked.upTo before Order.price Order.remaining orders price

/-- Rest an order behind its price; a second order of the same price and id is declined. -/
def rest (order : Order) (orders : List Order) : List Order :=
  if order.orderId ∈ (queue orders order.price).map Order.orderId then orders
  else Ranked.insert before Order.price order orders

/-- Whether the counter of a price is zero after a quota was served: the price was reached and
what is left there is a multiple of `2 ^ 64`. -/
def Pruned (quota : Nat) (orders : List Order) (price : Price) : Prop :=
  ahead before orders price < quota ∧ (upTo before orders price - quota) % 2 ^ 64 = 0

instance (quota : Nat) (orders : List Order) (price : Price) :
    Decidable (Pruned before quota orders price) := inferInstanceAs (Decidable (_ ∧ _))

/-- Serve a quota from the front of the ladder. -/
def serve (quota : Nat) (orders : List Order) : List Order :=
  (Greedy.left Order.remaining Order.cut quota orders).filter fun order =>
    ¬ Pruned before quota orders order.price

end Operations

/-- Drop the orders of a price whose counter is zero. -/
def prune (price : Price) (orders : List Order) : List Order :=
  if quantity orders price % 2 ^ 64 = 0 then orders.filter fun order => order.price ≠ price
  else orders

/-- Take out the order of a price and an id. -/
def without (price : Price) (id : OrderId) (orders : List Order) : List Order :=
  orders.filter fun order => ¬ (order.price = price ∧ order.orderId = id)

/-- Cancel the order of a price and an id. -/
def cancel (price : Price) (id : OrderId) (orders : List Order) : List Order :=
  prune price (without price id orders)

/-! ### Members of the results -/

theorem mem_rest {before : Price → Price → Prop} [DecidableRel before] {order resting : Order}
    {orders : List Order} (member : resting ∈ rest before order orders) :
    resting = order ∨ resting ∈ orders := by
  rw [rest] at member
  split_ifs at member
  · exact Or.inr member
  · exact Ranked.mem_insert.mp member

theorem mem_rest_of_mem {before : Price → Price → Prop} [DecidableRel before]
    {order resting : Order} {orders : List Order} (member : resting ∈ orders) :
    resting ∈ rest before order orders := by
  rw [rest]
  split_ifs
  · exact member
  · exact Ranked.mem_insert.mpr (Or.inr member)

/-- What a ladder keeps of a served quota was there before, or is the one order the quota ended
in. -/
theorem mem_serve {before : Price → Price → Prop} [DecidableRel before] {quota : Nat}
    {resting : Order} {orders : List Order} (member : resting ∈ serve before quota orders) :
    resting ∈ orders ∨ ∃ origin ∈ orders, ∃ amount, 0 < amount ∧ amount < origin.remaining ∧
      resting = origin.cut amount :=
  Greedy.mem_left _ _ (List.mem_of_mem_filter member)

theorem mem_of_cancel {price : Price} {id : OrderId} {resting : Order} {orders : List Order}
    (member : resting ∈ cancel price id orders) : resting ∈ orders := by
  rw [cancel, prune] at member
  split_ifs at member
  · exact List.mem_of_mem_filter (List.mem_of_mem_filter member)
  · exact List.mem_of_mem_filter member

/-! ### Queues of the operations -/

@[simp]
theorem mem_queue {orders : List Order} {price : Price} {order : Order} :
    order ∈ queue orders price ↔ order ∈ orders ∧ order.price = price := Ranked.mem_queue

theorem queue_append (first second : List Order) (price : Price) :
    queue (first ++ second) price = queue first price ++ queue second price :=
  List.filter_append _ _

theorem queue_of_all {orders : List Order} {price : Price}
    (all : ∀ order ∈ orders, order.price = price) : queue orders price = orders :=
  List.filter_eq_self.mpr fun order member => decide_eq_true (all order member)

theorem queue_of_none {orders : List Order} {price : Price}
    (none : ∀ order ∈ orders, order.price ≠ price) : queue orders price = [] :=
  Ranked.queue_of_none none

theorem queue_without (price : Price) (id : OrderId) (orders : List Order) (other : Price) :
    queue (without price id orders) other =
      if other = price then (queue orders price).filter fun order => order.orderId ≠ id
      else queue orders other := by
  rw [queue, Ranked.queue, without, List.filter_filter]
  split_ifs with same
  · rw [queue, Ranked.queue, List.filter_filter, same]
    refine List.filter_congr fun order _ => ?_
    by_cases own : order.price = price <;> simp [own]
  · refine List.filter_congr fun order _ => ?_
    by_cases own : order.price = other <;> simp [own, same]

theorem queue_prune (price : Price) (orders : List Order) (other : Price) :
    queue (prune price orders) other =
      if other = price ∧ quantity orders price % 2 ^ 64 = 0 then [] else queue orders other := by
  rw [prune]
  split_ifs with zero both both
  · exact queue_of_none fun order member => both.1 ▸ by simpa using (List.mem_filter.mp member).2
  · have different : other ≠ price := fun same => both ⟨same, zero⟩
    rw [queue, Ranked.queue, List.filter_filter]
    refine List.filter_congr fun order _ => ?_
    by_cases own : order.price = other <;> simp [own, different]
  · exact absurd both.2 zero
  · rfl

theorem prune_sublist (price : Price) (orders : List Order) :
    (prune price orders).Sublist orders := by
  rw [prune]
  split_ifs
  · exact List.filter_sublist
  · exact List.Sublist.refl _

theorem cancel_sublist (price : Price) (id : OrderId) (orders : List Order) :
    (cancel price id orders).Sublist orders :=
  (prune_sublist _ _).trans List.filter_sublist

theorem prune_eq_self {price : Price} {orders : List Order}
    (kept : queue orders price = [] ∨ quantity orders price % 2 ^ 64 ≠ 0) :
    prune price orders = orders := by
  rw [prune]
  split_ifs with zero
  · have nothing := kept.resolve_right (not_not.mpr zero)
    refine List.filter_eq_self.mpr fun order member => decide_eq_true fun same => ?_
    have queued : order ∈ queue orders price := mem_queue.mpr ⟨member, same⟩
    rw [nothing] at queued
    cases queued
  · rfl

/-- A price where positive orders have a sum that fits is not pruned. -/
theorem fits_of_positive {orders : List Order} {price : Price}
    (positive : ∀ resting ∈ orders, 0 < resting.remaining)
    (bounded : quantity orders price < 2 ^ 64) :
    queue orders price = [] ∨ quantity orders price % 2 ^ 64 ≠ 0 := by
  refine or_iff_not_imp_left.mpr fun some => ?_
  obtain ⟨resting, queued⟩ := List.exists_mem_of_ne_nil _ some
  have weight : resting.remaining ≤ quantity orders price :=
    Greedy.weight_le_total Order.remaining queued
  rw [Nat.mod_eq_of_lt bounded]
  exact Nat.ne_of_gt (Nat.lt_of_lt_of_le (positive resting (mem_queue.mp queued).1) weight)

theorem queue_eq_nil_of_prune {price : Price} {orders : List Order}
    (zero : quantity orders price % 2 ^ 64 = 0) (same : prune price orders = orders) :
    queue orders price = [] := by
  have kept := queue_prune price orders price
  rwa [same, if_pos ⟨rfl, zero⟩] at kept

/-- An order whose id is the only one in its queue is alone there. -/
theorem queue_eq_singleton {orders : List Order} {order : Order} (member : order ∈ orders)
    (distinct : ((queue orders order.price).map Order.orderId).Nodup)
    (alone : queue (without order.price order.orderId orders) order.price = []) :
    queue orders order.price = [order] := by
  rw [queue_without, if_pos rfl] at alone
  have sameId : ∀ other ∈ queue orders order.price, other.orderId = order.orderId := by
    simpa using alone
  obtain ⟨front, back, split⟩ := List.append_of_mem (mem_queue.mpr ⟨member, rfl⟩)
  rw [split] at distinct sameId ⊢
  obtain ⟨inFront, inBack⟩ := Greedy.absent_of_nodup distinct
  have absent : ∀ {part : List Order}, (∀ other ∈ part, other.orderId = order.orderId) →
      order.orderId ∉ part.map Order.orderId → part = [] := by
    intro part all none
    refine List.eq_nil_iff_forall_not_mem.mpr fun other inPart => none ?_
    exact all other inPart ▸ List.mem_map_of_mem inPart
  rw [absent (fun other member => sameId other (List.mem_append_left _ member)) inFront,
    absent (fun other member => sameId other
      (List.mem_append_right _ (List.mem_cons_of_mem _ member))) inBack, List.nil_append]

/-- A cancel leaves the other prices alone. -/
theorem mem_cancel_of_ne {price : Price} {id : OrderId} {order : Order} {orders : List Order}
    (member : order ∈ orders) (other : order.price ≠ price) : order ∈ cancel price id orders := by
  have kept : order ∈ without price id orders :=
    List.mem_filter.mpr ⟨member, decide_eq_true fun both => other both.1⟩
  rw [cancel, prune]
  split_ifs
  · exact List.mem_filter.mpr ⟨kept, decide_eq_true other⟩
  · exact kept

/-- Taking an order out takes its remaining quantity from its price. -/
theorem quantity_without {orders : List Order} {order : Order} (member : order ∈ orders)
    (distinct : ((queue orders order.price).map Order.orderId).Nodup) :
    quantity (without order.price order.orderId orders) order.price + order.remaining =
      quantity orders order.price := by
  rw [quantity, queue_without, if_pos rfl]
  exact Greedy.total_filter_key Order.remaining Order.orderId distinct
    (mem_queue.mpr ⟨member, rfl⟩)

section Rank

variable {before : Price → Price → Prop} [DecidableRel before]

theorem serve_zero (orders : List Order) : serve before 0 orders = orders := by
  rw [serve, Greedy.left_zero]
  exact List.filter_eq_self.mpr fun order _ =>
    decide_eq_true fun pruned => Nat.not_lt_zero _ pruned.1

variable [IsStrictTotalOrder Price before]

theorem rest_sorted {orders : List Order} (sorted : Ranked.Sorted before Order.price orders)
    (order : Order) : Ranked.Sorted before Order.price (rest before order orders) := by
  rw [rest]
  split_ifs
  · exact sorted
  · exact Ranked.insert_sorted sorted order

theorem queue_rest {orders : List Order} (sorted : Ranked.Sorted before Order.price orders)
    (order : Order) (price : Price) :
    queue (rest before order orders) price =
      if order.price = price ∧ order.orderId ∉ (queue orders order.price).map Order.orderId then
        queue orders price ++ [order]
      else queue orders price := by
  rw [rest]
  split_ifs with declined both both
  · exact absurd declined both.2
  · rfl
  · exact (Ranked.queue_insert sorted order price).trans (by rw [if_pos both.1]; rfl)
  · have other : order.price ≠ price := fun same => both ⟨same, declined⟩
    refine (Ranked.queue_insert sorted order price).trans ?_
    rw [if_neg other, List.append_nil]
    rfl

theorem upTo_eq (orders : List Order) (price : Price) :
    upTo before orders price = ahead before orders price + quantity orders price :=
  Ranked.upTo_eq _ _ _

/-! ### Serving from the front -/

variable {first second : List Order} {price : Price} {quota : Nat}

/-- The counter of the best price after a quota was served. -/
theorem pruned_head (own : ∀ order ∈ first, order.price = price)
    (worse : ∀ order ∈ second, before price order.price) :
    Pruned before quota (first ++ second) price ↔
      0 < quota ∧ (Greedy.total Order.remaining first - quota) % 2 ^ 64 = 0 := by
  have irrefl : ¬ before price price := Std.Irrefl.irrefl _
  have nothing : ahead before (first ++ second) price = 0 := by
    refine Ranked.ahead_of_none _ fun order member better => ?_
    rcases List.mem_append.mp member with inFirst | inSecond
    · exact irrefl (own order inFirst ▸ better)
    · exact irrefl (IsTrans.trans _ _ _ (worse order inSecond) better)
  have everything : upTo before (first ++ second) price = Greedy.total Order.remaining first := by
    rw [upTo, Ranked.upTo_append, Ranked.upTo_of_none _ worse, Ranked.upTo_of_all, Nat.add_zero]
    exact fun order member => own order member ▸ irrefl
  rw [Pruned, nothing, everything]

/-- The counter of a later price, seen from behind the best one. -/
theorem pruned_tail (better : ∀ order ∈ first, before order.price price) :
    Pruned before quota (first ++ second) price ↔
      Pruned before (quota - Greedy.total Order.remaining first) second price := by
  have ahead : ahead before (first ++ second) price =
      Greedy.total Order.remaining first + ahead before second price := by
    rw [ahead, Ranked.ahead_append, Ranked.ahead_of_all _ better]
    rfl
  have upTo : upTo before (first ++ second) price =
      Greedy.total Order.remaining first + upTo before second price := by
    rw [upTo, Ranked.upTo_append, Ranked.upTo_of_all]
    · rfl
    · exact fun order member worse =>
        Std.Irrefl.irrefl _ (IsTrans.trans _ _ _ worse (better order member))
  rw [Pruned, Pruned, ahead, upTo]
  omega

/-- A quota is served by the best price first, and then by the others. -/
theorem serve_append (wanted : 0 < quota) (own : ∀ order ∈ first, order.price = price)
    (worse : ∀ order ∈ second, before price order.price) :
    serve before quota (first ++ second) =
      (if (Greedy.total Order.remaining first - quota) % 2 ^ 64 = 0 then []
        else Greedy.left Order.remaining Order.cut quota first) ++
      serve before (quota - Greedy.total Order.remaining first) second := by
  have leftPrice : ∀ {part : List Order} {amount : Nat} {order : Order},
      order ∈ Greedy.left Order.remaining Order.cut amount part →
      ∃ origin ∈ part, order.price = origin.price := by
    intro part amount order member
    rcases Greedy.mem_left _ _ member with old | ⟨origin, originMember, amount, -, -, rfl⟩
    · exact ⟨order, old, rfl⟩
    · exact ⟨origin, originMember, rfl⟩
  rw [serve, Greedy.left_append, List.filter_append, serve]
  congr 1
  · have pruned : Pruned before quota (first ++ second) price ↔ _ := pruned_head own worse
    have prices : ∀ order ∈ Greedy.left Order.remaining Order.cut quota first,
        order.price = price := by
      intro order member
      obtain ⟨origin, originMember, same⟩ := leftPrice member
      exact same.trans (own origin originMember)
    split_ifs with zero
    · refine List.filter_eq_nil_iff.mpr fun order member => ?_
      rw [prices order member, decide_eq_true_iff, not_not]
      exact pruned.mpr ⟨wanted, zero⟩
    · refine List.filter_eq_self.mpr fun order member => ?_
      rw [prices order member, decide_eq_true_iff]
      exact fun gone => zero (pruned.mp gone).2
  · refine List.filter_congr fun order member => ?_
    obtain ⟨origin, originMember, same⟩ := leftPrice member
    refine decide_eq_decide.mpr (not_congr (pruned_tail fun other inFirst => ?_))
    rw [own other inFirst, same]
    exact worse origin originMember

end Rank

end Ladder

end OrderForge
