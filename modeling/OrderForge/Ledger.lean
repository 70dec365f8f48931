/-
This file keeps the ledger of fills. An order may trade first as the crossing order
and later, from the copy that rests, many times as the passive one. In a run with
distinct ids and counters that fit, the trades that name an order add up to its
quantity less what is left of it, wherever that is now: with the caller, in the
book, at the cancel that took it off, or nowhere.
-/

import OrderForge.Identity
import OrderForge.Representation

namespace OrderForge

/-! ### The entries of the ledger -/

/-- The trades published in some calls. -/
def publishedTrades (past : List Call) : List Trade :=
  past.flatMap fun call => call.output.events.filterMap Event.trade?

/-- Whether a trade names an order. -/
def Trade.Names (trade : Trade) (id : OrderId) : Prop :=
  trade.crossingOrderId = id ∨ trade.passiveOrderId = id

instance (trade : Trade) (id : OrderId) : Decidable (trade.Names id) :=
  inferInstanceAs (Decidable (_ ∨ _))

/-- The sum of the quantities of some trades. -/
def volume (trades : List Trade) : Nat := (trades.map fun trade => Quantity.toNat trade.qty).sum

/-- What the trades that name an order add up to. -/
def traded (trades : List Trade) (id : OrderId) : Nat :=
  volume (trades.filter fun trade => trade.Names id)

/-- The order a call took off the book under an id, as it rested there. -/
def cancelled? (id : OrderId) (call : Call) : Option Order :=
  if call.input = .removeOrder id ∧ call.after.book.resting? id = none then
    call.before.book.resting? id
  else none

/-- A submitted order as the call that submitted it gave it back. -/
def returned? (order : Order) (call : Call) : Option Order :=
  if call.input = .addOrder order then call.output.order else none

/-- What is left of a submitted order after some calls. -/
def remainder (past : List Call) (session : Session) (order : Order) : Nat :=
  match order.type with
  | .LIMIT =>
    ((session.book.resting? order.orderId).or (past.findSome? (cancelled? order.orderId))).elim 0
      Order.remaining
  | _ => (past.findSome? (returned? order)).elim 0 Order.remaining

theorem volume_append (first second : List Trade) :
    volume (first ++ second) = volume first + volume second := by
  rw [volume, List.map_append, List.sum_append]
  rfl

theorem traded_append (first second : List Trade) (id : OrderId) :
    traded (first ++ second) id = traded first id + traded second id := by
  rw [traded, List.filter_append, volume_append]
  rfl

theorem publishedTrades_concat (past : List Call) (call : Call) :
    publishedTrades (past ++ [call]) =
      publishedTrades past ++ call.output.events.filterMap Event.trade? := by
  rw [publishedTrades, List.flatMap_append, List.flatMap_singleton]
  rfl

/-- The volume of the trades of some fills. -/
theorem volume_termsOf (order : Order) {gaves : List (Order × Nat)}
    (small : ∀ gave ∈ gaves, gave.2 < 2 ^ 64) :
    volume (gaves.map (MatchingEngine.termsOf order)) = (gaves.map Prod.snd).sum := by
  rw [volume, List.map_map]
  exact congrArg List.sum (List.map_congr_left fun gave member =>
    Quantity.toNat_ofNat (small gave member))

theorem volume_terms (trades : List Trade) : volume (trades.map Trade.terms) = volume trades := by
  rw [volume, List.map_map]
  rfl

theorem traded_terms (trades : List Trade) (id : OrderId) :
    traded (trades.map Trade.terms) id = traded trades id := by
  rw [traded, List.filter_map, volume_terms]
  rfl

namespace OrderBook

variable {book : OrderBook} {order resting : Order} {report : List Order} {outcome : Outcome}

theorem small_fills (book : OrderBook) (order : Order) :
    ∀ gave ∈ book.fills order, gave.2 < 2 ^ 64 :=
  fun _ member => Nat.lt_of_le_of_lt (Greedy.taken_le Order.remaining member) (Order.remaining_lt _)

/-! ### The trades of one call -/

/-- The volume of a call is what it takes from the crossing order. -/
theorem Executed.volume (executed : book.Executed order report outcome) :
    volume outcome.trades = ((book.fills order).map Prod.snd).sum := by
  rw [← volume_terms, executed.trades, volume_termsOf order (small_fills book order)]

/-- Every trade of a call names the crossing order. -/
theorem Executed.traded_crossing (executed : book.Executed order report outcome) :
    traded outcome.trades order.orderId = ((book.fills order).map Prod.snd).sum := by
  rw [← traded_terms, executed.trades, traded, List.filter_eq_self.mpr,
    volume_termsOf order (small_fills book order)]
  intro trade member
  obtain ⟨gave, -, rfl⟩ := List.mem_map.mp member
  exact decide_eq_true (Or.inl rfl)

/-- The trades that name another order are those that take from it. -/
theorem Executed.traded_other (executed : book.Executed order report outcome) {id : OrderId}
    (other : id ≠ order.orderId) :
    traded outcome.trades id =
      (((book.fills order).filter fun gave => gave.1.orderId = id).map Prod.snd).sum := by
  have named : ∀ gave : Order × Nat,
      (MatchingEngine.termsOf order gave).Names id ↔ gave.1.orderId = id := fun gave =>
    ⟨fun names => names.resolve_left other.symm, Or.inr⟩
  rw [← traded_terms, executed.trades, traded, List.filter_map]
  refine (volume_termsOf order fun gave member =>
    small_fills book order gave (List.mem_of_mem_filter member)).trans ?_
  refine congrArg (fun part : List (Order × Nat) => (part.map Prod.snd).sum) ?_
  exact List.filter_congr fun gave _ => decide_eq_decide.mpr (named gave)

theorem Executed.traded_absent (executed : book.Executed order report outcome) {id : OrderId}
    (other : id ≠ order.orderId)
    (absent : ∀ resting ∈ book.orders order.side.opposite, resting.orderId ≠ id) :
    traded outcome.trades id = 0 := by
  rw [executed.traded_other other, fills_of_absent absent]
  rfl

theorem Executed.traded_passive (executed : book.Executed order report outcome)
    (unique : book.UniqueIds) (member : resting ∈ book.orders order.side.opposite)
    (positive : 0 < resting.remaining) (other : resting.orderId ≠ order.orderId) :
    traded outcome.trades resting.orderId = book.given order resting := by
  rw [executed.traded_other other, fills_of_id unique member positive]
  split_ifs with none
  · exact none.symm
  · simp

/-- A new limit order that does not come to rest is filled. -/
theorem sum_fills_of_stays (new : order.New) (limit : order.type = .LIMIT)
    (stays : ¬ book.Rests order) : ((book.fills order).map Prod.snd).sum = order.remaining := by
  have filled : (book.processed order).status = .FILLED :=
    not_not.mp fun status => stays ⟨limit, status⟩
  rw [processed_of_limit limit, afterFills] at filled
  split_ifs at filled with none
  · rw [new.status] at filled
    cases filled
  · rw [order.status_cut _ (sum_fills_le book order)] at filled
    split_ifs at filled with all
    exact all.symm

/-! ### Counters that fit -/

theorem Bounded.matchUnwrapped (bounded : book.Bounded) (order : Order) :
    book.MatchUnwrapped order := by
  rintro - resting - ⟨reached, stops, wrapped⟩
  have fits := bounded order.side.opposite resting.price
  rw [Ladder.upTo_eq] at stops wrapped
  omega

theorem Bounded.cancelUnwrapped (bounded : book.Bounded)
    (positive : ∀ side, ∀ order ∈ book.orders side, 0 < order.remaining) (id : OrderId) :
    book.CancelUnwrapped id := by
  cases found : book.ordersIdMap.find? id with
  | none =>
    rw [CancelUnwrapped, found]
    trivial
  | some helper =>
    have within : Ladder.quantity (Ladder.without helper.price id (book.orders helper.side))
        helper.price ≤ Ladder.quantity (book.orders helper.side) helper.price :=
      Greedy.total_le_of_sublist _ (List.filter_sublist.filter _)
    refine (cancelUnwrapped_iff found).mpr (Ladder.fits_of_positive (fun resting member => ?_) ?_)
    · exact positive helper.side resting (List.mem_of_mem_filter member)
    · exact Nat.lt_of_le_of_lt within (bounded helper.side helper.price)

/-! ### The resting orders of one call -/

theorem Executed.resting?_crossing (executed : book.Executed order report outcome)
    (unique : book.UniqueIds)
    (new : book.Absent order.orderId) :
    outcome.book.resting? order.orderId =
      if book.Rests order then some (book.processed order) else none := by
  split_ifs with rests
  · refine (resting?_eq_some (executed.uniqueIds unique new)).mpr ⟨⟨order.side, ?_⟩, ?_⟩
    · exact (executed.mem_own (new _)).mpr (Or.inr ⟨rests, rfl⟩)
    · exact processed_orderId book order
  · refine resting?_eq_none.mpr fun side kept member => ?_
    rcases Side.eq_or_eq_opposite side order.side with own | passive
    · rw [own, executed.mem_own (new _)] at member
      exact new _ kept (member.resolve_right fun both => rests both.1)
    · rw [passive] at member
      obtain ⟨resting, inBook, same⟩ := List.mem_map.mp
        (executed.passive_ids.subset (List.mem_map_of_mem member))
      exact same ▸ new _ resting inBook

theorem Executed.resting?_own (executed : book.Executed order report outcome)
    (unique : book.UniqueIds)
    (new : book.Absent order.orderId)
    (member : resting ∈ book.orders order.side) :
    outcome.book.resting? resting.orderId = some resting :=
  (resting?_eq_some (executed.uniqueIds unique new)).mpr
    ⟨⟨order.side, (executed.mem_own (new _)).mpr (Or.inl member)⟩, rfl⟩

theorem Executed.resting?_passive (executed : book.Executed order report outcome) (wf : book.Wf)
    (unique : book.UniqueIds)
    (new : book.Absent order.orderId)
    (positive : ∀ side, ∀ resting ∈ book.orders side, 0 < resting.remaining)
    (bounded : book.Bounded) (own : order.symbol = book.symbol)
    (member : resting ∈ book.orders order.side.opposite) :
    outcome.book.resting? resting.orderId =
      (Ladder.after resting (book.given order resting)).head? := by
  have left := executed.passive_atPlace wf (positive _) (bounded.matchUnwrapped order own) member
  cases after : Ladder.after resting (book.given order resting) with
  | nil =>
    refine resting?_eq_none.mpr fun side kept inAfter same => ?_
    have remains := executed.after_of_id wf unique new positive member inAfter same
    rw [after] at remains
    cases remains
  | cons kept rest =>
    have inLeft : kept ∈ Ladder.after resting (book.given order resting) :=
      after ▸ List.mem_cons_self
    refine (resting?_eq_some (executed.uniqueIds unique new)).mpr
      ⟨⟨order.side.opposite, ?_⟩, Ladder.id_of_mem_after inLeft⟩
    rw [← left] at inLeft
    exact (Ladder.mem_atPlace.mp inLeft).1

theorem Executed.resting?_absent (executed : book.Executed order report outcome) {id : OrderId}
    (new : book.Absent order.orderId)
    (other : id ≠ order.orderId) (absent : book.resting? id = none) :
    outcome.book.resting? id = none := by
  have none := resting?_eq_none.mp absent
  refine resting?_eq_none.mpr fun side kept member => ?_
  rcases Side.eq_or_eq_opposite side order.side with own | passive
  · rw [own, executed.mem_own (new _)] at member
    rcases member with old | ⟨-, rfl⟩
    · exact none _ kept old
    · rw [processed_orderId]
      exact other.symm
  · rw [passive] at member
    obtain ⟨resting, inBook, same⟩ := List.mem_map.mp
      (executed.passive_ids.subset (List.mem_map_of_mem member))
    exact same ▸ none _ resting inBook

/-- What trades in a call take from an order and what rests of it afterwards is what rested
before. -/
theorem Executed.balance (executed : book.Executed order report outcome) (wf : book.Wf)
    (unique : book.UniqueIds)
    (new : book.Absent order.orderId)
    (positive : ∀ side, ∀ resting ∈ book.orders side, 0 < resting.remaining)
    (bounded : book.Bounded) (own : order.symbol = book.symbol) {id : OrderId}
    (other : id ≠ order.orderId) :
    traded outcome.trades id + (outcome.book.resting? id).elim 0 Order.remaining =
      (book.resting? id).elim 0 Order.remaining := by
  cases found : book.resting? id with
  | none =>
    rw [executed.resting?_absent new other found,
      executed.traded_absent other (resting?_eq_none.mp found _)]
    rfl
  | some resting =>
    obtain ⟨⟨side, member⟩, same⟩ := (resting?_eq_some unique).mp found
    subst same
    rcases Side.eq_or_eq_opposite side order.side with ownSide | passive
    · rw [ownSide] at member
      have others : ∀ passive ∈ book.orders order.side.opposite,
          passive.orderId ≠ resting.orderId := fun _ => unique.ne_of_opposite wf member
      rw [executed.resting?_own unique new member, executed.traded_absent other others,
        Nat.zero_add]
    · rw [passive] at member
      have within := given_le wf member
      rw [executed.resting?_passive wf unique new positive bounded own member,
        executed.traded_passive unique member (positive _ resting member) other, Ladder.after]
      split_ifs with all none
      · exact all
      · rw [none]
        exact Nat.zero_add _
      · show book.given order resting + (resting.cut _).remaining = resting.remaining
        rw [resting.remaining_cut _ within]
        omega

end OrderBook

/-! ### The ledger of a run -/

theorem findSome?_concat {Item Found : Type} (search : Item → Option Found) (items : List Item)
    (item : Item) :
    (items ++ [item]).findSome? search = (items.findSome? search).or (search item) := by
  rw [List.findSome?_append, List.findSome?_cons]
  cases search item <;> rfl

theorem remainder_of_limit {past : List Call} {session : Session} {order : Order}
    (limit : order.type = .LIMIT) :
    remainder past session order =
      ((session.book.resting? order.orderId).or
        (past.findSome? (cancelled? order.orderId))).elim 0 Order.remaining := by
  rw [remainder, limit]

theorem remainder_of_taker {past : List Call} {session : Session} {order : Order}
    (taker : order.type ≠ .LIMIT) :
    remainder past session order =
      (past.findSome? (returned? order)).elim 0 Order.remaining := by
  rw [remainder]
  cases type : order.type with
  | LIMIT => exact absurd type taker
  | MARKET => rfl
  | FILL_AND_KILL => rfl

/-- A submitted order was given back by the call that submitted it. -/
theorem returned_of_fresh {past : List Call} {order : Order} (fresh : Fresh past order.orderId) :
    past.findSome? (returned? order) = none := by
  refine List.findSome?_eq_none_iff.mpr fun call member => if_neg fun same => ?_
  refine fresh order (List.mem_filterMap.mpr ⟨call.input, List.mem_map_of_mem member, ?_⟩) rfl
  rw [same]
  rfl

theorem cancelled_of_add (id : OrderId) {call : Call} {order : Order}
    (adds : call.input = .addOrder order) : cancelled? id call = none := by
  refine if_neg fun both => ?_
  rw [adds] at both
  cases both.1

namespace Session

/-- The state of the ledger after some calls: it balances for every submitted order, names no
other, and holds no cancel of an order that still rests. -/
structure Balanced (past : List Call) (session : Session) : Prop where
  positive : ∀ side, ∀ resting ∈ session.book.orders side, 0 < resting.remaining
  bounded : session.book.Bounded
  balance : ∀ order ∈ submitted (past.map Transition.input),
    traded (publishedTrades past) order.orderId + remainder past session order =
      Quantity.toNat order.qty
  unnamed : ∀ id, Fresh past id → traded (publishedTrades past) id = 0
  cancelled : ∀ id, (∃ order, past.findSome? (cancelled? id) = some order) →
    session.book.resting? id = none ∧ ¬ Fresh past id

theorem create_balanced (symbol : String) (handlers : Handlers) (orderIds tradeIds : IdGenerator) :
    Balanced [] (create symbol handlers orderIds tradeIds) where
  positive side _ member := by cases side <;> cases member
  bounded side _ := by cases side <;> exact Nat.two_pow_pos 64
  balance _ member := by cases member
  unnamed _ _ := rfl
  cancelled _ found := by
    obtain ⟨_, found⟩ := found
    cases found

/-- With the trade handler installed, a call publishes the trades it makes. -/
theorem Effect.published {session : Session} {request : Request} {result : Session × Response}
    (effect : session.Effect request result)
    (installed : session.book.handlers.privateTradesUpdate = true) :
    result.2.events.filterMap Event.trade? = result.2.trades := by
  cases effect with
  | foreign => rfl
  | unknown => rfl
  | removed _ _ _ _ _ removed => exact removed.tradeFeed
  | executed _ _ _ _ _ _ executed => exact executed.tradeFeed.trans (if_pos installed)

section Step

variable {past : List Call} {session : Session} {result : Session × Response}

/-- A cancel in which no counter wraps leaves what rests under other ids. -/
theorem Effect.resting?_of_remove {id other : OrderId}
    (effect : session.Effect (.removeOrder id) result) (wf : session.book.Wf)
    (tracked : Tracked past session) (unwrapped : session.book.CancelUnwrapped id)
    (different : other ≠ id) : result.1.book.resting? other = session.book.resting? other := by
  have after := effect.tracked wf tracked fun order adds => by cases adds
  refine Option.ext fun resting => ?_
  rw [OrderBook.resting?_eq_some after.unique, OrderBook.resting?_eq_some tracked.unique]
  refine and_congr_left fun same => exists_congr fun side => ?_
  exact effect.mem_of_remove wf unwrapped (same ▸ different)

/-- What a call cancels is what rested under its id. -/
theorem Effect.cancelled?_own {id : OrderId} (effect : session.Effect (.removeOrder id) result)
    (wf : session.book.Wf) (tracked : Tracked past session) :
    cancelled? id ⟨session, .removeOrder id, result.2, result.1⟩ = session.book.resting? id :=
  if_pos ⟨rfl, OrderBook.resting?_eq_none.mpr (effect.cancelled wf tracked)⟩

theorem cancelled?_other {id other : OrderId} (different : other ≠ id) :
    cancelled? other ⟨session, .removeOrder id, result.2, result.1⟩ = none :=
  if_neg fun both => different (Request.removeOrder.inj both.1).symm

/-- A cancel moves what rests under its id from the book to the record of cancels. -/
theorem Effect.remainder_of_remove {id : OrderId} (effect : session.Effect (.removeOrder id) result)
    (wf : session.book.Wf) (tracked : Tracked past session) (balanced : Balanced past session)
    (order : Order) :
    remainder (past ++ [⟨session, .removeOrder id, result.2, result.1⟩]) result.1 order =
      remainder past session order := by
  have unwrapped := balanced.bounded.cancelUnwrapped balanced.positive id
  have gone := OrderBook.resting?_eq_none.mpr (effect.cancelled wf tracked)
  by_cases limit : order.type = .LIMIT
  · rw [remainder_of_limit limit, remainder_of_limit limit, findSome?_concat]
    by_cases mine : order.orderId = id
    · rw [mine, gone, effect.cancelled?_own wf tracked]
      cases resting : session.book.resting? id with
      | none => rw [Option.or_none]
      | some order =>
        cases found : past.findSome? (cancelled? id) with
        | none => rfl
        | some taken =>
          rw [(balanced.cancelled id ⟨taken, found⟩).1] at resting
          cases resting
    · rw [effect.resting?_of_remove wf tracked unwrapped mine, cancelled?_other mine,
        Option.or_none]
  · rw [remainder_of_taker limit, remainder_of_taker limit, findSome?_concat]
    have none : returned? order ⟨session, .removeOrder id, result.2, result.1⟩ = none :=
      if_neg fun adds => by cases adds
    rw [none, Option.or_none]

/-- A cancel neither trades nor loses anything. -/
theorem Effect.balanced_of_remove {id : OrderId} (effect : session.Effect (.removeOrder id) result)
    (wf : session.book.Wf) (tracked : Tracked past session) (balanced : Balanced past session)
    (bounded : result.1.book.Bounded) :
    Balanced (past ++ [⟨session, .removeOrder id, result.2, result.1⟩]) result.1 := by
  have unwrapped := balanced.bounded.cancelUnwrapped balanced.positive id
  have gone := OrderBook.resting?_eq_none.mpr (effect.cancelled wf tracked)
  have silent : result.2.events.filterMap Event.trade? = [] := by
    cases effect with
    | unknown => rfl
    | removed _ _ _ _ _ removed => exact removed.tradeFeed
  have published : publishedTrades (past ++ [⟨session, .removeOrder id, result.2, result.1⟩]) =
      publishedTrades past := by
    rw [publishedTrades_concat, silent, List.append_nil]
  refine ⟨effect.positive trivial balanced.positive, bounded, fun order member => ?_,
    fun other fresh => ?_, ?_⟩
  · rw [submitted_call] at member
    rw [published, effect.remainder_of_remove wf tracked balanced]
    exact balanced.balance order ((List.mem_append.mp member).resolve_right List.not_mem_nil)
  · rw [published]
    exact balanced.unnamed other (fresh_of_concat fresh)
  · rintro other ⟨order, found⟩
    rw [findSome?_concat] at found
    by_cases mine : other = id
    · subst mine
      refine ⟨gone, fun fresh => ?_⟩
      have absent := tracked.not_resting (fresh_of_concat fresh)
      rcases Option.or_eq_some_iff.mp found with past | ⟨-, now⟩
      · exact (balanced.cancelled other ⟨order, past⟩).2 (fresh_of_concat fresh)
      · rw [effect.cancelled?_own wf tracked, OrderBook.resting?_eq_none.mpr absent] at now
        cases now
    · rw [cancelled?_other mine, Option.or_none] at found
      have before := balanced.cancelled other ⟨order, found⟩
      rw [effect.resting?_of_remove wf tracked unwrapped mine]
      exact ⟨before.1, fun fresh => before.2 (fresh_of_concat fresh)⟩

/-- What trades take from the orders that rest is what these lose. -/
theorem Balanced.keeps {order other : Order} {report : List Order} {after : Session}
    {returned : Order} {trades : List Trade} {events : List Event}
    (balanced : Balanced past session) (wf : session.book.Wf) (tracked : Tracked past session)
    (fresh : Fresh past order.orderId) (own : order.symbol = session.book.symbol)
    (executed : session.book.Executed order report ⟨after.book, after.tradeIds, returned, trades,
      events⟩) (member : other ∈ submitted (past.map Transition.input)) :
    traded (publishedTrades past) other.orderId + traded trades other.orderId +
      remainder (past ++ [⟨session, .addOrder order, ⟨some returned, trades, events⟩, after⟩])
        after other = Quantity.toNat other.qty := by
  have different : other.orderId ≠ order.orderId := fresh other member
  have before := balanced.balance other member
  by_cases limit : other.type = .LIMIT
  · have step : traded trades other.orderId +
        (after.book.resting? other.orderId).elim 0 Order.remaining = _ :=
      executed.balance wf tracked.unique (tracked.not_resting fresh) balanced.positive
        balanced.bounded own different
    rw [remainder_of_limit limit, findSome?_concat, cancelled_of_add _ rfl, Option.or_none]
    rw [remainder_of_limit limit] at before
    cases found : past.findSome? (cancelled? other.orderId) with
    | none =>
      rw [found, Option.or_none] at before
      rw [Option.or_none]
      omega
    | some taken =>
      have absent := (balanced.cancelled other.orderId ⟨taken, found⟩).1
      have gone : after.book.resting? other.orderId = none :=
        executed.resting?_absent (tracked.not_resting fresh) different absent
      rw [absent, gone] at step
      have silent : traded trades other.orderId = 0 := step
      rw [absent, found] at before
      rwa [gone, silent]
  · have silent : traded trades other.orderId = 0 :=
      executed.traded_absent different fun resting inBook same =>
        limit (tracked.limit inBook member same)
    have foreign : returned? other
        ⟨session, .addOrder order, ⟨some returned, trades, events⟩, after⟩ = none :=
      if_neg fun same => different (congrArg Order.orderId (Request.addOrder.inj same).symm)
    rw [remainder_of_taker limit, findSome?_concat, foreign, Option.or_none, silent]
    rwa [remainder_of_taker limit] at before

/-- What trades take from the new order is what it lost when it is given back. -/
theorem Balanced.gains {order : Order} {report : List Order} {after : Session}
    {returned : Order} {trades : List Trade} {events : List Event}
    (balanced : Balanced past session) (tracked : Tracked past session)
    (fresh : Fresh past order.orderId) (new : order.New)
    (executed : session.book.Executed order report ⟨after.book, after.tradeIds, returned, trades,
      events⟩) :
    traded (publishedTrades past) order.orderId + traded trades order.orderId +
      remainder (past ++ [⟨session, .addOrder order, ⟨some returned, trades, events⟩, after⟩])
        after order = Quantity.toNat order.qty := by
  have whole : order.remaining = Quantity.toNat order.qty := by rw [Order.remaining, new.whole]
  have within := OrderBook.sum_fills_le session.book order
  have left := OrderBook.processed_remaining session.book order
  have crossing : traded trades order.orderId = _ := executed.traded_crossing
  rw [balanced.unnamed _ fresh, crossing]
  by_cases limit : order.type = .LIMIT
  · have none : past.findSome? (cancelled? order.orderId) = none :=
      Option.eq_none_iff_forall_not_mem.mpr fun taken found =>
        (balanced.cancelled _ ⟨taken, found⟩).2 fresh
    have rested : after.book.resting? order.orderId = _ :=
      executed.resting?_crossing tracked.unique (tracked.not_resting fresh)
    rw [remainder_of_limit limit, findSome?_concat, cancelled_of_add _ rfl, none, rested]
    by_cases rests : session.book.Rests order
    · rw [if_pos rests]
      show 0 + _ + (session.book.processed order).remaining = _
      omega
    · rw [if_neg rests]
      have all := OrderBook.sum_fills_of_stays new limit rests
      show 0 + _ + 0 = _
      omega
  · have back : returned? order
        ⟨session, .addOrder order, ⟨some returned, trades, events⟩, after⟩ = some returned :=
      if_pos rfl
    have result : returned = session.book.processed order := executed.result
    rw [remainder_of_taker limit, findSome?_concat, returned_of_fresh fresh, back, result]
    show 0 + _ + (session.book.processed order).remaining = _
    omega

/-- Executing a new order with a fresh id balances: what trades take from the orders that rest
and from the new one is what they lose. -/
theorem Effect.balanced_of_add {order : Order} (effect : session.Effect (.addOrder order) result)
    (wf : session.book.Wf) (tracked : Tracked past session) (balanced : Balanced past session)
    (nonzero : order.orderId ≠ 0) (fresh : Fresh past order.orderId) (new : order.New)
    (own : order.symbol = session.book.symbol)
    (installed : session.book.handlers.privateTradesUpdate = true)
    (bounded : result.1.book.Bounded) :
    Balanced (past ++ [⟨session, .addOrder order, result.2, result.1⟩]) result.1 := by
  have published := effect.published installed
  have positive := effect.positive (Quantity.lt_iff.mpr new.live.positive) balanced.positive
  have unresting := tracked.not_resting fresh
  cases effect with
  | foreign _ foreign => exact absurd own foreign
  | executed _ _ after returned trades events executed =>
    rw [prepared_eq_self own nonzero] at executed
    have same : submitted (List.map Transition.input (past ++
        [(⟨session, .addOrder order, ⟨some returned, trades, events⟩, after⟩ : Call)])) =
        submitted (past.map Transition.input) ++ [order] := submitted_call _ _
    refine ⟨positive, bounded, fun other member => ?_, fun id unknown => ?_, ?_⟩
    · rw [same] at member
      rw [publishedTrades_concat, published, traded_append]
      rcases List.mem_append.mp member with old | latest
      · exact balanced.keeps wf tracked fresh own executed old
      · rw [List.mem_singleton.mp latest]
        exact balanced.gains tracked fresh new executed
    · have before := fresh_of_concat unknown
      have other := unknown order (submitted_by_call past rfl)
      rw [publishedTrades_concat, published, traded_append, balanced.unnamed id before]
      exact (Nat.zero_add _).trans
        (executed.traded_absent other.symm (tracked.not_resting before _))
    · rintro id ⟨taken, found⟩
      rw [findSome?_concat, cancelled_of_add id rfl, Option.or_none] at found
      obtain ⟨absent, known⟩ := balanced.cancelled id ⟨taken, found⟩
      have other : id ≠ order.orderId := fun same => known (same ▸ fresh)
      exact ⟨executed.resting?_absent unresting other absent,
        fun unknown => known (fresh_of_concat unknown)⟩

end Step

/-- Whether a call that adds an order takes from it what it takes from the passive side. -/
def Conserves (call : Call) : Prop :=
  ∀ order, call.input = .addOrder order → ∃ returned, call.output.order = some returned ∧
    returned.remaining + volume call.output.trades = order.remaining ∧
    Greedy.total Order.remaining (call.after.book.orders order.side.opposite) +
        volume call.output.trades =
      Greedy.total Order.remaining (call.before.book.orders order.side.opposite)

theorem Effect.conserves {session : Session} {request : Request} {result : Session × Response}
    (effect : session.Effect request result) (wf : session.book.Wf)
    (positive : ∀ side, ∀ resting ∈ session.book.orders side, 0 < resting.remaining)
    (bounded : session.book.Bounded) :
    Conserves ⟨session, request, result.2, result.1⟩ := by
  rintro order rfl
  cases effect with
  | foreign => exact ⟨order, rfl, Nat.add_zero _, Nat.add_zero _⟩
  | executed _ own after returned trades events executed =>
    obtain ⟨symbol, -⟩ := prepared_frame session order
    have volumeEq : volume trades = _ := executed.volume
    have taken := OrderBook.sum_fills session.book (session.prepared order)
    have within := OrderBook.sum_fills_le session.book (session.prepared order)
    have passive := executed.passive
    rw [Ladder.serve_eq_left (wf.sorted _) (positive _)
      (bounded.matchUnwrapped (session.prepared order) symbol)] at passive
    have left := Greedy.total_left Order.remaining Order.cut Order.remaining_cut
      (session.book.demand (session.prepared order))
      (session.book.orders (session.prepared order).side.opposite)
    rw [← passive] at left
    refine ⟨returned, rfl, ?_, ?_⟩
    · have result : returned = _ := executed.result
      rw [← prepared_remaining session order, result, OrderBook.processed_remaining]
      show _ + volume trades = _
      omega
    · rw [← prepared_side session order]
      show Greedy.total Order.remaining (after.book.orders _) + volume trades =
        Greedy.total Order.remaining (session.book.orders _)
      change Greedy.total Order.remaining (after.book.orders _) = _ at left
      omega

section Run

variable {symbol : String} {handlers : Handlers} {orderIds tradeIds : IdGenerator}

/-- The fill ledger: with the trade handler installed, in every run of new orders of the book's
symbol with distinct ids and of cancels, in which the sum at each price fits, the published
trades that name an order come to its quantity less what is left of it, and every call takes
from the crossing order what it takes from the passive side. -/
theorem fill_ledger (installed : handlers.privateTradesUpdate = true) {requests : List Request}
    (identified : Identified requests) (new : ∀ request ∈ requests, request.New)
    (own : ∀ order ∈ submitted requests, order.symbol = symbol)
    (bounded : ∀ call ∈ (create symbol handlers orderIds tradeIds).run requests,
      call.after.book.Bounded) :
    (∀ order ∈ submitted requests,
      traded (publishedTrades ((create symbol handlers orderIds tradeIds).run requests))
          order.orderId +
        remainder ((create symbol handlers orderIds tradeIds).run requests)
          ((create symbol handlers orderIds tradeIds).final requests) order =
          Quantity.toNat order.qty) ∧
      ∀ call ∈ (create symbol handlers orderIds tradeIds).run requests, Conserves call := by
  have inputs := Machine.run_inputs step (create symbol handlers orderIds tradeIds) requests
  have ledger := @run_identified symbol handlers orderIds tradeIds
    (fun past session => Balanced past session ∧ ∀ call ∈ past, Conserves call)
    (fun call => call.input.New ∧
      (∀ order, call.input = .addOrder order → order.symbol = call.before.book.symbol) ∧
      call.before.book.handlers.privateTradesUpdate = true ∧ call.after.book.Bounded)
    ⟨create_balanced symbol handlers orderIds tradeIds, fun _ member => by cases member⟩ ?_
    requests identified ?_
  · refine ⟨fun order member => ledger.2.1.balance order ?_, ledger.2.2⟩
    exact inputs.symm ▸ member
  · rintro past session request result wf tracked fresh ⟨balanced, conserved⟩ effect
      ⟨newOrder, ownSymbol, publishes, fits⟩
    refine ⟨?_, fun call member => ?_⟩
    · cases request with
      | removeOrder id => exact effect.balanced_of_remove wf tracked balanced fits
      | addOrder order =>
        obtain ⟨nonzero, unknown⟩ := fresh order rfl
        exact effect.balanced_of_add wf tracked balanced nonzero unknown newOrder
          (ownSymbol order rfl) publishes fits
    · rcases List.mem_append.mp member with old | latest
      · exact conserved call old
      · rw [List.mem_singleton.mp latest]
        exact effect.conserves wf balanced.positive balanced.bounded
  · intro call member
    obtain ⟨-, inRequests, -⟩ := call_effect member
    obtain ⟨symbolEq, handlersEq⟩ := call_before member
    refine ⟨new _ inRequests, fun order adds => ?_, handlersEq ▸ installed, bounded call member⟩
    rw [symbolEq]
    exact own order (List.mem_filterMap.mpr ⟨call.input, inRequests, adds ▸ rfl⟩)

theorem sample_ledger :
    (∀ order ∈ submitted sampleDay,
      traded (publishedTrades (sampleSession.run sampleDay)) order.orderId +
        remainder (sampleSession.run sampleDay) (sampleSession.final sampleDay) order =
          Quantity.toNat order.qty) ∧
      ∀ call ∈ sampleSession.run sampleDay, Conserves call := by
  have fits : ∀ call ∈ sampleSession.run sampleDay,
      Greedy.total Order.remaining (call.after.book.orders .BUY) < 2 ^ 64 ∧
        Greedy.total Order.remaining (call.after.book.orders .SELL) < 2 ^ 64 := by decide
  refine fill_ledger rfl (by decide) (by decide) (by decide) fun call member => ?_
  refine OrderBook.bounded_of_total fun side => ?_
  cases side with
  | BUY => exact (fits call member).1
  | SELL => exact (fits call member).2

end Run

end Session

end OrderForge
