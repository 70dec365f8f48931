/-
This file states what is true of every book side at any time and shows that
resting an order and cancelling one keep it. The orders of a side refine a ladder:
the two operations do to them what the ladder's operations say. The file also says
what the published updates of an operation mean: each gives the total of its price
afterwards, and a price without an update has kept its queue.
-/

import OrderForge.Ladder
import OrderForge.SideMatch

namespace OrderForge

namespace BookSide

/-! ### The orders of a list of levels -/

section Entries

variable {CompFunc : Price → Price → Prop} {symbol : String} {side : Side}

theorem EntriesWf.head {entry : Price × PriceLevel} {rest : List (Price × PriceLevel)}
    (wf : EntriesWf symbol side (entry :: rest)) : entry.2.Wf symbol side entry.1 :=
  wf entry List.mem_cons_self

theorem EntriesWf.tail {entry : Price × PriceLevel} {rest : List (Price × PriceLevel)}
    (wf : EntriesWf symbol side (entry :: rest)) : EntriesWf symbol side rest :=
  fun other member => wf other (List.mem_cons_of_mem _ member)

theorem mem_ordersOf {entries : List (Price × PriceLevel)} {order : Order} :
    order ∈ ordersOf entries ↔ ∃ entry ∈ entries, order ∈ entry.2.orders := List.mem_flatMap

theorem EntriesWf.price_mem {entries : List (Price × PriceLevel)}
    (wf : EntriesWf symbol side entries) {order : Order} (member : order ∈ ordersOf entries) :
    order.price ∈ entries.map Prod.fst := by
  obtain ⟨entry, entryMember, inLevel⟩ := mem_ordersOf.mp member
  rw [((wf entry entryMember).placed order inLevel).2.2.1]
  exact List.mem_map_of_mem entryMember

/-- The orders of levels in price order are ranked by price. -/
theorem EntriesWf.sorted [IsStrictTotalOrder Price CompFunc]
    {entries : List (Price × PriceLevel)} (wf : EntriesWf symbol side entries)
    (ordered : entries.Pairwise fun first second => CompFunc first.1 second.1) :
    Ranked.Sorted CompFunc Order.price (ordersOf entries) := by
  induction entries with
  | nil => exact List.Pairwise.nil
  | cons entry rest inductionHypothesis =>
    obtain ⟨headFirst, restOrdered⟩ := List.pairwise_cons.mp ordered
    have price : ∀ order ∈ entry.2.orders, order.price = entry.1 := fun order member =>
      (wf.head.placed order member).2.2.1
    rw [ordersOf_cons]
    refine List.pairwise_append.mpr ⟨?_, inductionHypothesis wf.tail restOrdered, ?_⟩
    · refine List.pairwise_of_forall_mem_list fun first inFirst second inSecond => ?_
      rw [price first inFirst, price second inSecond]
      exact Std.Irrefl.irrefl _
    · intro first inFirst second inSecond worse
      obtain ⟨other, inRest, samePrice⟩ := List.mem_map.mp (wf.tail.price_mem inSecond)
      rw [price first inFirst, ← samePrice] at worse
      exact Std.Irrefl.irrefl _ (IsTrans.trans _ _ _ worse (headFirst other inRest))

theorem EntriesWf.queue_eq_nil {entries : List (Price × PriceLevel)}
    (wf : EntriesWf symbol side entries) {price : Price} (absent : price ∉ entries.map Prod.fst) :
    Ladder.queue (ordersOf entries) price = [] :=
  Ladder.queue_of_none fun _ member same => absent (same ▸ wf.price_mem member)

/-- The queue of a price is the queue of its level. -/
theorem EntriesWf.queue_eq {entries : List (Price × PriceLevel)}
    (wf : EntriesWf symbol side entries) (distinct : (entries.map Prod.fst).Nodup)
    {entry : Price × PriceLevel} (member : entry ∈ entries) :
    Ladder.queue (ordersOf entries) entry.1 = entry.2.orders := by
  induction entries with
  | nil => cases member
  | cons head rest inductionHypothesis =>
    obtain ⟨fresh, restDistinct⟩ := List.nodup_cons.mp distinct
    have headPrice : ∀ order ∈ head.2.orders, order.price = head.1 := fun order inHead =>
      (wf.head.placed order inHead).2.2.1
    rw [ordersOf_cons, Ladder.queue_append]
    rcases List.mem_cons.mp member with same | inRest
    · rw [same, Ladder.queue_of_all headPrice, wf.tail.queue_eq_nil fresh, List.append_nil]
    · have other : head.1 ≠ entry.1 := fun same => fresh (same ▸ List.mem_map_of_mem inRest)
      rw [Ladder.queue_of_none fun order inHead => headPrice order inHead ▸ other,
        inductionHypothesis wf.tail restDistinct inRest, List.nil_append]

end Entries

/-! ### The invariant of a side -/

section Invariant

variable {CompFunc : Price → Price → Prop}

/-- The orders resting on a side, in the order in which a match visits them. -/
def orders (bookSide : BookSide CompFunc) : List Order :=
  ordersOf bookSide.levels.bookCont.entries

/-- The level an operation at a price works on: the level of the price, or a new one. -/
def levelAt (bookSide : BookSide CompFunc) (price : Price) : PriceLevel :=
  (bookSide.levels.bookCont.find? price).getD
    (PriceLevel.create bookSide.levels.symbol price bookSide.levels.side)

/-- The level a cancel changed. -/
def levelAfterRemove (bookSide : BookSide CompFunc) (helper : FindOrderHelper) : PriceLevel :=
  ((bookSide.levelAt helper.price).removeOrder helper.orderId).1

/-- What holds of a book side at any time: every level is well-formed at its own price, and no
level is empty. -/
structure Wf (symbol : String) (side : Side) (bookSide : BookSide CompFunc) : Prop where
  symbol_eq : bookSide.levels.symbol = symbol
  side_eq : bookSide.levels.side = side
  levels : EntriesWf symbol side bookSide.levels.bookCont.entries
  populated : ∀ entry ∈ bookSide.levels.bookCont.entries, entry.2.orders ≠ []

/-- What the updates of an operation on a ladder mean. -/
structure Reported (symbol : String) (side : Side) (before after : List Order)
    (updates : List PriceLevelUpdate) : Prop where
  placed : ∀ update ∈ updates, update.symbol = symbol ∧ update.side = side
  total : ∀ update ∈ updates,
    Quantity.toNat update.totalQuantity = Ladder.quantity after update.price % 2 ^ 64
  others : ∀ price, price ∉ updates.map PriceLevelUpdate.price →
    Ladder.queue after price = Ladder.queue before price

/-- An operation that changes nothing needs no update. -/
theorem Reported.silent (symbol : String) (side : Side) (orders : List Order) :
    Reported symbol side orders orders [] where
  placed _ member := by cases member
  total _ member := by cases member
  others _ _ := rfl

variable {symbol : String} {side : Side} {bookSide : BookSide CompFunc}

theorem create_wf (symbol : String) (side : Side) :
    (create symbol side : BookSide CompFunc).Wf symbol side where
  symbol_eq := rfl
  side_eq := rfl
  levels _ member := by cases member
  populated _ member := by cases member

namespace Wf

theorem placed (wf : bookSide.Wf symbol side) {order : Order} (member : order ∈ bookSide.orders) :
    order.symbol = symbol ∧ order.side = side ∧ order.type = .LIMIT ∧ order.status ≠ .FILLED := by
  obtain ⟨entry, inEntries, inLevel⟩ := mem_ordersOf.mp member
  obtain ⟨ownSymbol, ownSide, -, limit, live⟩ := (wf.levels entry inEntries).placed order inLevel
  exact ⟨ownSymbol, ownSide, limit, live⟩

variable [IsStrictTotalOrder Price CompFunc]

theorem sorted (wf : bookSide.Wf symbol side) :
    Ranked.Sorted CompFunc Order.price bookSide.orders :=
  wf.levels.sorted bookSide.levels.bookCont.sorted

/-- The level under a price holds the queue of the price. -/
theorem queue_eq (wf : bookSide.Wf symbol side) (price : Price) :
    Ladder.queue bookSide.orders price =
      (bookSide.levels.bookCont.find? price).elim [] PriceLevel.orders := by
  cases found : bookSide.levels.bookCont.find? price with
  | none =>
    refine wf.levels.queue_eq_nil fun member => ?_
    obtain ⟨⟨key, level⟩, inEntries, rfl⟩ := List.mem_map.mp member
    exact (FlatMap.find?_eq_none _).mp found level inEntries
  | some level =>
    have member := (FlatMap.find?_eq_some _).mp found
    exact wf.levels.queue_eq bookSide.levels.bookCont.nodup_keys member

theorem level_wf (wf : bookSide.Wf symbol side) {price : Price} {level : PriceLevel}
    (found : bookSide.levels.bookCont.find? price = some level) :
    level.Wf symbol side price := wf.levels (price, level) ((FlatMap.find?_eq_some _).mp found)

theorem levelAt_wf (wf : bookSide.Wf symbol side) (price : Price) :
    (bookSide.levelAt price).Wf symbol side price := by
  rw [levelAt, wf.symbol_eq, wf.side_eq]
  cases found : bookSide.levels.bookCont.find? price with
  | none => exact PriceLevel.create_wf symbol price side
  | some level => exact wf.level_wf found

theorem levelAt_orders (wf : bookSide.Wf symbol side) (price : Price) :
    (bookSide.levelAt price).orders = Ladder.queue bookSide.orders price := by
  rw [levelAt, wf.queue_eq]
  cases bookSide.levels.bookCont.find? price <;> rfl

theorem levelAfterRemove_wf (wf : bookSide.Wf symbol side) (helper : FindOrderHelper) :
    (bookSide.levelAfterRemove helper).Wf symbol side helper.price :=
  PriceLevel.removeOrder_wf (wf.levelAt_wf helper.price) helper.orderId

/-- The orders of one price have distinct ids. -/
theorem nodup_orderIds (wf : bookSide.Wf symbol side) (price : Price) :
    ((Ladder.queue bookSide.orders price).map Order.orderId).Nodup := by
  rw [wf.queue_eq]
  cases found : bookSide.levels.bookCont.find? price with
  | none => exact List.nodup_nil
  | some level => exact (wf.level_wf found).nodup_orderIds

end Wf

end Invariant

/-! ### Replacing one level -/

section Replace

variable {CompFunc : Price → Price → Prop} [IsStrictTotalOrder Price CompFunc]
  {symbol : String} {side : Side} {bookSide changed : BookSide CompFunc}

/-- An operation that leaves a level, or none, under one price and all other levels alone. -/
structure Replaced (bookSide changed : BookSide CompFunc) (symbol : String) (side : Side)
    (price : Price) (slot : Option PriceLevel) : Prop where
  symbol_eq : changed.levels.symbol = bookSide.levels.symbol
  side_eq : changed.levels.side = bookSide.levels.side
  find? : ∀ other, changed.levels.bookCont.find? other =
    if other = price then slot else bookSide.levels.bookCont.find? other
  level : ∀ level, slot = some level → level.Wf symbol side price ∧ level.orders ≠ []

theorem Replaced.wf {price : Price} {slot : Option PriceLevel} (wf : bookSide.Wf symbol side)
    (replaced : Replaced bookSide changed symbol side price slot) : changed.Wf symbol side := by
  have entry : ∀ entry ∈ changed.levels.bookCont.entries,
      entry.2.Wf symbol side entry.1 ∧ entry.2.orders ≠ [] := by
    rintro ⟨other, level⟩ member
    have found := (FlatMap.find?_eq_some _).mpr member
    rw [replaced.find?] at found
    split_ifs at found with same
    · exact same ▸ replaced.level level found
    · have old := (FlatMap.find?_eq_some _).mp found
      exact ⟨wf.levels _ old, wf.populated _ old⟩
  exact ⟨replaced.symbol_eq.trans wf.symbol_eq, replaced.side_eq.trans wf.side_eq,
    fun other member => (entry other member).1, fun other member => (entry other member).2⟩

theorem Replaced.queue_eq {price : Price} {slot : Option PriceLevel}
    (wf : bookSide.Wf symbol side)
    (replaced : Replaced bookSide changed symbol side price slot) (other : Price) :
    Ladder.queue changed.orders other =
      if other = price then slot.elim [] PriceLevel.orders
      else Ladder.queue bookSide.orders other := by
  rw [(replaced.wf wf).queue_eq, replaced.find?]
  split_ifs
  · rfl
  · exact (wf.queue_eq other).symm

/-- The update of a replaced level reports it. -/
theorem Replaced.reported {price : Price} {slot : Option PriceLevel} {level : PriceLevel}
    (wf : bookSide.Wf symbol side)
    (replaced : Replaced bookSide changed symbol side price slot)
    (levelWf : level.Wf symbol side price)
    (slotEq : slot = some level ∨ slot = none ∧ level.totalQty = 0) :
    Reported symbol side bookSide.orders changed.orders [level.update] where
  placed update member := by
    rw [List.mem_singleton.mp member]
    exact ⟨levelWf.symbol_eq, levelWf.side_eq⟩
  total update member := by
    have own : level.update.price = price := levelWf.price_eq
    rw [List.mem_singleton.mp member, Ladder.quantity, own, replaced.queue_eq wf, if_pos rfl]
    rcases slotEq with held | ⟨gone, zero⟩
    · rw [held]
      exact levelWf.counted
    · rw [gone]
      exact congrArg Quantity.toNat zero
  others other absent := by
    rw [replaced.queue_eq wf, if_neg]
    intro same
    rw [same, ← levelWf.price_eq] at absent
    exact absent List.mem_cons_self

variable [DecidableRel CompFunc]

theorem getBookLevel_level (levels : OrderBookDataMap CompFunc) (price : Price) :
    (levels.getBookLevel price).2 =
      (levels.bookCont.find? price).getD (PriceLevel.create levels.symbol price levels.side) := by
  rw [OrderBookDataMap.getBookLevel]
  cases found : levels.bookCont.find? price with
  | none =>
    show ((levels.bookCont.emplace price _).find? price).getD _ = _
    rw [FlatMap.find?_emplace, if_pos rfl, found]
    rfl
  | some level => rfl

/-- Changing the level of a price in place. -/
theorem find?_setBookLevel (levels : OrderBookDataMap CompFunc) (price other : Price)
    (level : PriceLevel) :
    ((levels.getBookLevel price).1.setBookLevel price level).bookCont.find? other =
      if other = price then some level else levels.bookCont.find? other := by
  rw [OrderBookDataMap.getBookLevel]
  cases found : levels.bookCont.find? price with
  | none =>
    show ((levels.bookCont.emplace price _).modify price _).find? other = _
    rw [FlatMap.find?_modify, FlatMap.find?_emplace, FlatMap.find?_emplace,
      if_pos (rfl : price = price)]
    split_ifs <;> rfl
  | some held =>
    show (levels.bookCont.modify price _).find? other = _
    rw [FlatMap.find?_modify, found]
    rfl

theorem getBookLevel_symbol (levels : OrderBookDataMap CompFunc) (price : Price) :
    (levels.getBookLevel price).1.symbol = levels.symbol := by
  rw [OrderBookDataMap.getBookLevel]
  cases levels.bookCont.find? price <;> rfl

theorem getBookLevel_side (levels : OrderBookDataMap CompFunc) (price : Price) :
    (levels.getBookLevel price).1.side = levels.side := by
  rw [OrderBookDataMap.getBookLevel]
  cases levels.bookCont.find? price <;> rfl

end Replace

/-! ### Resting and cancelling -/

section Rest

variable {CompFunc : Price → Price → Prop} [DecidableRel CompFunc]
  [IsStrictTotalOrder Price CompFunc] {symbol : String} {side : Side}
  {bookSide : BookSide CompFunc}

/-- What an order must be to rest on a side. -/
def Restable (symbol : String) (side : Side) (order : Order) : Prop :=
  order.symbol = symbol ∧ order.side = side ∧ order.type = .LIMIT ∧ order.status ≠ .FILLED

theorem Restable.at_price {order : Order} (restable : Restable symbol side order) :
    order.symbol = symbol ∧ order.side = side ∧ order.price = order.price ∧
      order.type = .LIMIT ∧ order.status ≠ .FILLED :=
  ⟨restable.1, restable.2.1, rfl, restable.2.2.1, restable.2.2.2⟩

theorem addOrder_replaced (wf : bookSide.Wf symbol side) {order : Order}
    (restable : Restable symbol side order) :
    Replaced bookSide (bookSide.addOrder order).1 symbol side order.price
      (some ((bookSide.levelAt order.price).addOrder order).1) where
  symbol_eq := getBookLevel_symbol _ _
  side_eq := getBookLevel_side _ _
  find? other := by
    rw [levelAt, ← getBookLevel_level]
    exact find?_setBookLevel _ _ _ _
  level level found := by
    have levelWf := wf.levelAt_wf order.price
    rw [← Option.some.inj found]
    refine ⟨PriceLevel.addOrder_wf levelWf restable.at_price, ?_⟩
    by_cases present : order.orderId ∈ (bookSide.levelAt order.price).orders.map Order.orderId
    · rw [PriceLevel.addOrder_declined levelWf present]
      obtain ⟨held, member, -⟩ := List.mem_map.mp present
      exact List.ne_nil_of_mem member
    · rw [PriceLevel.addOrder_orders levelWf present]
      exact List.concat_ne_nil _ _

theorem addOrder_wf (wf : bookSide.Wf symbol side) {order : Order}
    (restable : Restable symbol side order) : (bookSide.addOrder order).1.Wf symbol side :=
  (addOrder_replaced wf restable).wf wf

/-- Resting an order on a side rests it on the ladder. -/
theorem addOrder_orders (wf : bookSide.Wf symbol side) {order : Order}
    (restable : Restable symbol side order) :
    (bookSide.addOrder order).1.orders = Ladder.rest CompFunc order bookSide.orders := by
  have replaced := addOrder_replaced wf restable
  have levelWf := wf.levelAt_wf order.price
  refine Ranked.eq_of_queue (replaced.wf wf).sorted (Ladder.rest_sorted wf.sorted order)
    fun price => ?_
  refine (replaced.queue_eq wf price).trans
    (Eq.trans ?_ (Ladder.queue_rest wf.sorted order price).symm)
  by_cases same : price = order.price
  · subst same
    rw [if_pos rfl, Option.elim_some]
    by_cases present : order.orderId ∈ (Ladder.queue bookSide.orders order.price).map Order.orderId
    · rw [if_neg fun both => both.2 present, ← wf.levelAt_orders]
      rw [← wf.levelAt_orders] at present
      rw [PriceLevel.addOrder_declined levelWf present]
    · rw [if_pos ⟨rfl, present⟩, ← wf.levelAt_orders]
      rw [← wf.levelAt_orders] at present
      rw [PriceLevel.addOrder_orders levelWf present]
  · rw [if_neg same, if_neg fun both => same both.1.symm]

theorem addOrder_reported (wf : bookSide.Wf symbol side) {order : Order}
    (restable : Restable symbol side order) :
    Reported symbol side bookSide.orders (bookSide.addOrder order).1.orders
      [(bookSide.addOrder order).2] := by
  have levelWf := wf.levelAt_wf order.price
  have update : (bookSide.addOrder order).2 =
      ((bookSide.levelAt order.price).addOrder order).1.update := by
    rw [← PriceLevel.addOrder_update levelWf restable.1, levelAt, ← getBookLevel_level]
    rfl
  rw [update]
  exact (addOrder_replaced wf restable).reported wf
    (PriceLevel.addOrder_wf levelWf restable.at_price) (Or.inl rfl)

/-- The level a cancel leaves under its price. -/
def slotAfterRemove (bookSide : BookSide CompFunc) (helper : FindOrderHelper) :
    Option PriceLevel :=
  if (bookSide.levelAfterRemove helper).totalQty = 0 then none
  else some (bookSide.levelAfterRemove helper)

theorem removeOrder_levels (bookSide : BookSide CompFunc) (helper : FindOrderHelper) :
    (bookSide.removeOrder helper).1.levels =
      removeIfEmpty ((bookSide.levels.getBookLevel helper.price).1.setBookLevel helper.price
        (bookSide.levelAfterRemove helper)) (bookSide.levelAfterRemove helper).update := by
  rw [levelAfterRemove, levelAt, ← getBookLevel_level]
  rfl

theorem removeOrder_update (bookSide : BookSide CompFunc) (helper : FindOrderHelper) :
    (bookSide.removeOrder helper).2 = (bookSide.levelAfterRemove helper).update := by
  rw [levelAfterRemove, levelAt, ← getBookLevel_level]
  rfl

theorem removeOrder_replaced (wf : bookSide.Wf symbol side) (helper : FindOrderHelper) :
    Replaced bookSide (bookSide.removeOrder helper).1 symbol side helper.price
      (bookSide.slotAfterRemove helper) := by
  have levelWf := wf.levelAfterRemove_wf helper
  have result := bookSide.removeOrder_levels helper
  by_cases zero : (bookSide.levelAfterRemove helper).totalQty = 0
  · rw [removeIfEmpty_of_zero _ zero] at result
    refine ⟨?_, ?_, fun other => ?_, fun level found => ?_⟩
    · rw [result]
      exact getBookLevel_symbol _ _
    · rw [result]
      exact getBookLevel_side _ _
    · rw [result, slotAfterRemove, if_pos zero]
      show (FlatMap.erase _ _).find? other = _
      rw [FlatMap.find?_erase, find?_setBookLevel, PriceLevel.update, levelWf.price_eq]
      split_ifs <;> rfl
    · rw [slotAfterRemove, if_pos zero] at found
      cases found
  · rw [removeIfEmpty_of_ne _ zero] at result
    refine ⟨?_, ?_, fun other => ?_, fun level found => ?_⟩
    · rw [result]
      exact getBookLevel_symbol _ _
    · rw [result]
      exact getBookLevel_side _ _
    · rw [result, slotAfterRemove, if_neg zero, find?_setBookLevel]
    · rw [slotAfterRemove, if_neg zero] at found
      rw [← Option.some.inj found]
      refine ⟨levelWf, fun none => zero (levelWf.totalQty_eq_zero_iff.mpr ?_)⟩
      rw [PriceLevel.quantity, none]
      rfl

theorem removeOrder_wf (wf : bookSide.Wf symbol side) (helper : FindOrderHelper) :
    (bookSide.removeOrder helper).1.Wf symbol side := (removeOrder_replaced wf helper).wf wf

/-- Cancelling an order on a side cancels it on the ladder. -/
theorem removeOrder_orders (wf : bookSide.Wf symbol side) (helper : FindOrderHelper) :
    (bookSide.removeOrder helper).1.orders =
      Ladder.cancel helper.price helper.orderId bookSide.orders := by
  have replaced := removeOrder_replaced wf helper
  have levelWf := wf.levelAfterRemove_wf helper
  refine Ranked.eq_of_queue (replaced.wf wf).sorted
    (wf.sorted.sublist (Ladder.cancel_sublist _ _ _)) fun price => ?_
  refine (replaced.queue_eq wf price).trans (Eq.trans ?_ (Ladder.queue_prune _ _ price).symm)
  have remains : (bookSide.levelAfterRemove helper).orders =
      Ladder.queue (Ladder.without helper.price helper.orderId bookSide.orders) helper.price := by
    rw [levelAfterRemove, PriceLevel.removeOrder_orders (wf.levelAt_wf _), wf.levelAt_orders,
      Ladder.queue_without, if_pos rfl]
  have zero : (bookSide.levelAfterRemove helper).totalQty = 0 ↔
      Ladder.quantity (Ladder.without helper.price helper.orderId bookSide.orders) helper.price
        % 2 ^ 64 = 0 := by
    rw [levelWf.totalQty_eq_zero_iff, PriceLevel.quantity, remains]
    rfl
  by_cases same : price = helper.price
  · subst same
    rw [if_pos rfl, slotAfterRemove]
    by_cases gone : (bookSide.levelAfterRemove helper).totalQty = 0
    · rw [if_pos gone, if_pos ⟨rfl, zero.mp gone⟩, Option.elim_none]
    · rw [if_neg gone, if_neg fun both => gone (zero.mpr both.2), Option.elim_some, remains]
  · rw [if_neg same, if_neg fun both => same both.1, Ladder.queue_without, if_neg same]

theorem removeOrder_reported (wf : bookSide.Wf symbol side) (helper : FindOrderHelper) :
    Reported symbol side bookSide.orders (bookSide.removeOrder helper).1.orders
      [(bookSide.removeOrder helper).2] := by
  rw [removeOrder_update]
  refine (removeOrder_replaced wf helper).reported wf (wf.levelAfterRemove_wf helper) ?_
  rw [slotAfterRemove]
  split_ifs with zero
  · exact Or.inr ⟨rfl, zero⟩
  · exact Or.inl rfl

end Rest

end BookSide

end OrderForge
