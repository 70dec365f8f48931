/-
This file follows ids through runs whose submitted orders have distinct ids. In such
a run no two resting orders share an id, every resting order descends from the order
submitted under its id, and the index names the place of every resting order. So a
fresh id is nowhere in the book, a cancel takes off whatever rests under its id, and
a call deals with a resting order under its id alone.
-/

import OrderForge.Cancel
import OrderForge.Vanish

namespace OrderForge

/-! ### Submitted orders -/

/-- The order a request submits. -/
def Request.order? : Request → Option Order
  | .addOrder order => some order
  | .removeOrder _ => none

/-- The orders some requests submit. -/
def submitted (requests : List Request) : List Order := requests.filterMap Request.order?

/-- Requests that submit orders under pairwise distinct ids, none of them zero. -/
structure Identified (requests : List Request) : Prop where
  nonzero : ∀ order ∈ submitted requests, order.orderId ≠ 0
  distinct : ((submitted requests).map Order.orderId).Nodup

instance : DecidablePred Identified := fun requests =>
  decidable_of_iff ((∀ order ∈ submitted requests, order.orderId ≠ 0) ∧
      ((submitted requests).map Order.orderId).Nodup)
    ⟨fun both => ⟨both.1, both.2⟩, fun identified => ⟨identified.nonzero, identified.distinct⟩⟩

theorem submitted_append (first second : List Request) :
    submitted (first ++ second) = submitted first ++ submitted second := List.filterMap_append

theorem Identified.front {first second : List Request} (identified : Identified (first ++ second)) :
    Identified first := by
  have distinct := identified.distinct
  rw [submitted_append, List.map_append] at distinct
  refine ⟨fun order member => identified.nonzero order ?_, (List.nodup_append.mp distinct).1⟩
  rw [submitted_append]
  exact List.mem_append_left _ member

/-- Whether no order has been submitted under an id in some calls. -/
def Fresh (past : List Call) (id : OrderId) : Prop :=
  ∀ order ∈ submitted (past.map Transition.input), order.orderId ≠ id

theorem Identified.fresh {past : List Call} {order : Order}
    (identified : Identified (past.map Transition.input ++ [.addOrder order])) :
    order.orderId ≠ 0 ∧ Fresh past order.orderId := by
  have same : submitted (past.map Transition.input ++ [.addOrder order]) =
      submitted (past.map Transition.input) ++ [order] := submitted_append _ _
  have distinct := identified.distinct
  rw [same, List.map_append] at distinct
  refine ⟨identified.nonzero order ?_, fun old member => ?_⟩
  · rw [same]
    exact List.mem_append_right _ List.mem_cons_self
  · exact (List.nodup_append.mp distinct).2.2 _ (List.mem_map_of_mem member) _ List.mem_cons_self

/-! ### What a call leaves -/

namespace Ladder

/-- What a call may leave of an order is the order or its cut. -/
theorem mem_after {resting kept : Order} {amount : Nat} :
    kept ∈ after resting amount ↔
      amount ≠ resting.remaining ∧ kept = if amount = 0 then resting else resting.cut amount := by
  rw [after]
  by_cases all : amount = resting.remaining
  · rw [if_pos all]
    exact ⟨fun member => by (cases member), fun both => absurd all both.1⟩
  rw [if_neg all]
  split_ifs
  · exact List.mem_singleton.trans ⟨fun same => ⟨all, same⟩, And.right⟩
  · exact List.mem_singleton.trans ⟨fun same => ⟨all, same⟩, And.right⟩

theorem place_of_mem_after {resting kept : Order} {amount : Nat}
    (member : kept ∈ after resting amount) :
    kept.place = resting.place ∧ kept.side = resting.side := by
  rw [(mem_after.mp member).2]
  split_ifs <;> exact ⟨rfl, rfl⟩

theorem id_of_mem_after {resting kept : Order} {amount : Nat}
    (member : kept ∈ after resting amount) : kept.orderId = resting.orderId :=
  congrArg Prod.snd (place_of_mem_after member).1

theorem not_mem_cancel {price : Price} {id : OrderId} {resting : Order} {orders : List Order}
    (member : resting ∈ cancel price id orders) :
    ¬ (resting.price = price ∧ resting.orderId = id) :=
  of_decide_eq_true (List.mem_filter.mp ((prune_sublist _ _).subset member)).2

end Ladder

/-! ### Unique ids -/

namespace OrderBook

variable {book : OrderBook} {order resting : Order} {report : List Order} {outcome : Outcome}

theorem uniqueIds_iff (book : OrderBook) (side : Side) :
    book.UniqueIds ↔
      ((book.orders side).map Order.orderId ++
        (book.orders side.opposite).map Order.orderId).Nodup := by
  rw [UniqueIds, List.map_append]
  cases side with
  | BUY => exact Iff.rfl
  | SELL => exact List.perm_append_comm.nodup_iff

/-- No order rests under an id. -/
def Absent (book : OrderBook) (id : OrderId) : Prop :=
  ∀ side, ∀ resting ∈ book.orders side, resting.orderId ≠ id

/-- The ids of a side after an order with a new id was executed. -/
theorem Executed.own_ids (executed : book.Executed order report outcome)
    (new : ∀ resting ∈ book.orders order.side, resting.orderId ≠ order.orderId) :
    ((outcome.book.orders order.side).map Order.orderId).Perm
      (if book.Rests order then order.orderId :: (book.orders order.side).map Order.orderId
        else (book.orders order.side).map Order.orderId) := by
  rw [executed.own]
  split_ifs with rests
  · have id := processed_orderId book order
    rw [Ladder.rest, if_neg]
    · rw [← id]
      exact (Ranked.insert_perm _ _).map _
    · intro declined
      obtain ⟨other, queued, same⟩ := List.mem_map.mp declined
      exact new other (Ladder.mem_queue.mp queued).1 (same.trans id)
  · exact List.Perm.refl _

/-- An order with a new id comes to rest if its match leaves something over. -/
theorem Executed.mem_own (executed : book.Executed order report outcome)
    (new : ∀ resting ∈ book.orders order.side, resting.orderId ≠ order.orderId) :
    resting ∈ outcome.book.orders order.side ↔
      resting ∈ book.orders order.side ∨ book.Rests order ∧ resting = book.processed order := by
  rw [executed.own]
  split_ifs with rests
  · rw [Ladder.rest, if_neg]
    · refine Ranked.mem_insert.trans (or_comm.trans (or_congr_right ?_))
      exact ⟨fun same => ⟨rests, same⟩, And.right⟩
    · intro declined
      obtain ⟨other, queued, same⟩ := List.mem_map.mp declined
      exact new other (Ladder.mem_queue.mp queued).1 (same.trans (processed_orderId book order))
  · exact ⟨Or.inl, fun either => either.resolve_right fun both => rests both.1⟩

theorem Executed.passive_ids (executed : book.Executed order report outcome) :
    ((outcome.book.orders order.side.opposite).map Order.orderId).Sublist
      ((book.orders order.side.opposite).map Order.orderId) := by
  rw [executed.passive]
  exact (List.filter_sublist.map _).trans
    (Greedy.left_sublist Order.remaining Order.cut Order.orderId (fun _ _ => rfl) _ _)

theorem Executed.uniqueIds (executed : book.Executed order report outcome)
    (unique : book.UniqueIds)
    (new : book.Absent order.orderId) :
    outcome.book.UniqueIds := by
  rw [uniqueIds_iff _ order.side] at unique ⊢
  have fresh : order.orderId ∉ (book.orders order.side).map Order.orderId ++
      (book.orders order.side.opposite).map Order.orderId := by
    rw [← List.map_append]
    intro member
    obtain ⟨other, inBook, same⟩ := List.mem_map.mp member
    rcases List.mem_append.mp inBook with own | passive
    · exact new _ other own same
    · exact new _ other passive same
  refine ((executed.own_ids (new _)).append_right _).nodup_iff.mpr ?_
  split_ifs
  · exact (List.nodup_cons.mpr ⟨fresh, unique⟩).sublist
      ((executed.passive_ids.append_left _).cons_cons _)
  · exact unique.sublist (executed.passive_ids.append_left _)

theorem Removed.uniqueIds {helper : FindOrderHelper} {result : OrderBook × List Event}
    (removed : book.Removed helper result) (unique : book.UniqueIds) : result.1.UniqueIds := by
  rw [uniqueIds_iff _ helper.side] at unique ⊢
  rw [removed.own, removed.other]
  exact unique.sublist (((Ladder.cancel_sublist _ _ _).map _).append_right _)

theorem UniqueIds.nodup (unique : book.UniqueIds) (side : Side) :
    ((book.orders side).map Order.orderId).Nodup :=
  (List.nodup_append.mp ((uniqueIds_iff book side).mp unique)).1

/-- Orders on opposite sides have different ids. -/
theorem UniqueIds.ne_of_opposite (unique : book.UniqueIds) (wf : book.Wf) {side : Side}
    {passive : Order} (own : resting ∈ book.orders side)
    (opposite : passive ∈ book.orders side.opposite) : passive.orderId ≠ resting.orderId := by
  intro same
  have passiveSide := (wf.placed opposite).2.1
  rw [unique.eq own opposite same, (wf.placed own).2.1] at passiveSide
  exact side.opposite_ne passiveSide.symm

/-- The resting order with an id. -/
def resting? (book : OrderBook) (id : OrderId) : Option Order :=
  (book.orders .BUY ++ book.orders .SELL).find? fun resting => resting.orderId = id

theorem mem_sides : resting ∈ book.orders .BUY ++ book.orders .SELL ↔
    ∃ side, resting ∈ book.orders side := by
  rw [List.mem_append]
  constructor
  · rintro (buy | sell)
    · exact ⟨.BUY, buy⟩
    · exact ⟨.SELL, sell⟩
  · rintro ⟨side, member⟩
    cases side with
    | BUY => exact Or.inl member
    | SELL => exact Or.inr member

theorem resting?_eq_none {id : OrderId} :
    book.resting? id = none ↔ book.Absent id := by
  rw [resting?, List.find?_eq_none]
  constructor
  · intro absent side resting member
    simpa using absent resting (mem_sides.mpr ⟨side, member⟩)
  · intro absent resting member
    obtain ⟨side, inSide⟩ := mem_sides.mp member
    simpa using absent side resting inSide

theorem resting?_eq_some (unique : book.UniqueIds) {id : OrderId} :
    book.resting? id = some resting ↔
      (∃ side, resting ∈ book.orders side) ∧ resting.orderId = id := by
  constructor
  · intro found
    exact ⟨mem_sides.mp (List.mem_of_find?_eq_some found), by simpa using List.find?_some found⟩
  · rintro ⟨⟨side, member⟩, same⟩
    cases found : book.resting? id with
    | none => exact absurd same (resting?_eq_none.mp found side resting member)
    | some other =>
      obtain ⟨otherSide, inOther⟩ := mem_sides.mp (List.mem_of_find?_eq_some found)
      have otherId : other.orderId = id := by simpa using List.find?_some found
      exact congrArg some (unique.eq member inOther (otherId.trans same.symm))

/-! ### One passive order in a call -/

/-- What a call takes from a passive order, it takes at once. -/
theorem fills_of_id (unique : book.UniqueIds) (member : resting ∈ book.orders order.side.opposite)
    (positive : 0 < resting.remaining) :
    (book.fills order).filter (fun gave => gave.1.orderId = resting.orderId) =
      if book.given order resting = 0 then [] else [(resting, book.given order resting)] := by
  have ids := unique.nodup order.side.opposite
  obtain ⟨front, back, split⟩ := List.append_of_mem member
  rw [split] at ids
  have places : ((front ++ resting :: back).map Order.place).Nodup := by
    refine List.Nodup.of_map Prod.snd ?_
    rw [List.map_map]
    exact ids
  rw [fills, given, split, Ladder.given_split places,
    Greedy.taken_key Order.remaining Order.orderId _ ids]
  refine if_congr ?_ rfl rfl
  omega

/-- Nothing is taken under an id that does not rest on the opposite side. -/
theorem fills_of_absent {id : OrderId}
    (absent : ∀ resting ∈ book.orders order.side.opposite, resting.orderId ≠ id) :
    (book.fills order).filter (fun gave => gave.1.orderId = id) = [] := by
  refine List.filter_eq_nil_iff.mpr fun gave member => ?_
  simpa using absent gave.1 (Greedy.mem_of_taken Order.remaining member)

/-- What the opposite side holds after a call is what the call left of an order there. -/
theorem Executed.mem_passive (executed : book.Executed order report outcome) (wf : book.Wf)
    (positive : ∀ resting ∈ book.orders order.side.opposite, 0 < resting.remaining) {kept : Order}
    (member : kept ∈ outcome.book.orders order.side.opposite) :
    ∃ resting ∈ book.orders order.side.opposite,
      kept ∈ Ladder.after resting (book.given order resting) := by
  obtain ⟨resting, inBook, same⟩ : ∃ resting ∈ book.orders order.side.opposite,
      kept.place = resting.place := by
    have served := member
    rw [executed.passive] at served
    rcases Ladder.mem_serve served with old | ⟨origin, inBook, amount, -, -, rfl⟩
    · exact ⟨kept, old, rfl⟩
    · exact ⟨origin, inBook, rfl⟩
  refine ⟨resting, inBook, ?_⟩
  exact (executed.passive_sublist wf inBook (positive resting inBook)).subset
    (Ladder.mem_atPlace.mpr ⟨member, same⟩)

/-- What rests under the id of a passive order after a call is what the call left of it. -/
theorem Executed.after_of_id (executed : book.Executed order report outcome) (wf : book.Wf)
    (unique : book.UniqueIds)
    (new : book.Absent order.orderId)
    (positive : ∀ side, ∀ resting ∈ book.orders side, 0 < resting.remaining)
    (member : resting ∈ book.orders order.side.opposite) {side : Side} {kept : Order}
    (inAfter : kept ∈ outcome.book.orders side) (same : kept.orderId = resting.orderId) :
    kept ∈ Ladder.after resting (book.given order resting) := by
  rcases Side.eq_or_eq_opposite side order.side with own | passive
  · rw [own, executed.mem_own (new _)] at inAfter
    rcases inAfter with old | ⟨-, rfl⟩
    · exact absurd same.symm (unique.ne_of_opposite wf old member)
    · rw [processed_orderId] at same
      exact absurd same.symm (new _ resting member)
  · rw [passive] at inAfter
    obtain ⟨other, inBook, left⟩ := executed.mem_passive wf (positive _) inAfter
    have equal := unique.eq member inBook ((Ladder.id_of_mem_after left).symm.trans same)
    exact equal ▸ left

/-! ### The index after a call -/

/-- An added order leaves what the index has under other ids. -/
theorem Executed.find?_of_ne (executed : book.Executed order report outcome) {id : OrderId}
    (other : id ≠ order.orderId) :
    outcome.book.ordersIdMap.find? id = book.ordersIdMap.find? id := by
  rw [executed.ordersIdMap]
  split_ifs
  · rw [FlatMap.find?_emplace, if_neg other]
  · rfl

/-- An order that comes to rest is indexed under its id when nothing was. -/
theorem Executed.find?_of_rests (executed : book.Executed order report outcome)
    (rests : book.Rests order) (unknown : book.ordersIdMap.find? order.orderId = none) :
    outcome.book.ordersIdMap.find? order.orderId =
      some ⟨order.orderId, order.price, order.side⟩ := by
  rw [executed.ordersIdMap, if_pos rests, FlatMap.find?_emplace, if_pos rfl, unknown]
  rfl

/-- What the index has after an order is added it had before, or has under the id of that order. -/
theorem Executed.known_of_find? (executed : book.Executed order report outcome) {id : OrderId}
    {helper : FindOrderHelper} (found : outcome.book.ordersIdMap.find? id = some helper) :
    book.ordersIdMap.find? id = some helper ∨ id = order.orderId ∧ book.Rests order := by
  by_cases same : id = order.orderId
  · by_cases rests : book.Rests order
    · exact Or.inr ⟨same, rests⟩
    · rw [executed.ordersIdMap, if_neg rests] at found
      exact Or.inl found
  · rw [executed.find?_of_ne same] at found
    exact Or.inl found

variable {helper : FindOrderHelper} {cancelled : OrderBook × List Event}

/-- A cancel takes one id out of the index. -/
theorem Removed.find?_eq (removed : book.Removed helper cancelled) (id : OrderId) :
    cancelled.1.ordersIdMap.find? id =
      if id = helper.orderId then none else book.ordersIdMap.find? id := by
  rw [removed.ordersIdMap, FlatMap.find?_erase]

/-- A cancel keeps the entries of the orders it leaves. -/
theorem Removed.find?_of_kept (removed : book.Removed helper cancelled)
    (found : book.ordersIdMap.find? helper.orderId = some helper) {side : Side} {kept : Order}
    (member : kept ∈ cancelled.1.orders side)
    (entry : book.ordersIdMap.find? kept.orderId = some ⟨kept.orderId, kept.price, side⟩) :
    cancelled.1.ordersIdMap.find? kept.orderId = some ⟨kept.orderId, kept.price, side⟩ := by
  rw [removed.find?_eq, if_neg]
  · exact entry
  · intro same
    -- the order under the cancelled id would be the one the cancel took off
    rw [same, found] at entry
    have helperEq := Option.some.inj entry
    have sideEq : helper.side = side := congrArg FindOrderHelper.side helperEq
    rw [← sideEq, removed.own] at member
    exact Ladder.not_mem_cancel member ⟨(congrArg FindOrderHelper.price helperEq).symm, same⟩

end OrderBook

/-! ### Tracked runs -/

/-- What distinct ids make true of a session after some calls. -/
structure Tracked (past : List Call) (session : Session) : Prop where
  distinct : ((submitted (past.map Transition.input)).map Order.orderId).Nodup
  unique : session.book.UniqueIds
  resting : ∀ side, ∀ resting ∈ session.book.orders side,
    ∃ order ∈ submitted (past.map Transition.input),
      order.orderId = resting.orderId ∧ order.type = .LIMIT
  indexed : ∀ side, ∀ resting ∈ session.book.orders side,
    session.book.ordersIdMap.find? resting.orderId = some ⟨resting.orderId, resting.price, side⟩
  known : ∀ id helper, session.book.ordersIdMap.find? id = some helper →
    ∃ order ∈ submitted (past.map Transition.input), order.orderId = id

namespace Tracked

variable {past : List Call} {session : Session} {id : OrderId}

/-- The submitted order with the id of a resting one is a limit order. -/
theorem limit (tracked : Tracked past session) {side : Side} {resting order : Order}
    (member : resting ∈ session.book.orders side)
    (inPast : order ∈ submitted (past.map Transition.input))
    (same : resting.orderId = order.orderId) : order.type = .LIMIT := by
  obtain ⟨origin, originInPast, originId, limit⟩ := tracked.resting side resting member
  rwa [List.inj_on_of_nodup_map tracked.distinct inPast originInPast (originId.trans same).symm]

/-- A fresh id does not rest. -/
theorem not_resting (tracked : Tracked past session) (fresh : Fresh past id) :
    session.book.Absent id := by
  intro side resting member
  obtain ⟨order, inPast, same, -⟩ := tracked.resting side resting member
  exact same ▸ fresh order inPast

theorem not_indexed (tracked : Tracked past session) (fresh : Fresh past id) :
    session.book.ordersIdMap.find? id = none := by
  refine Option.eq_none_iff_forall_not_mem.mpr fun helper found => ?_
  obtain ⟨order, inPast, same⟩ := tracked.known id helper found
  exact fresh order inPast same

end Tracked

theorem submitted_call (past : List Call) (call : Call) :
    submitted ((past ++ [call]).map Transition.input) =
      submitted (past.map Transition.input) ++ submitted [call.input] := by
  rw [List.map_append, submitted_append]
  rfl

theorem mem_submitted_call {past : List Call} {call : Call} {order : Order}
    (member : order ∈ submitted (past.map Transition.input)) :
    order ∈ submitted ((past ++ [call]).map Transition.input) := by
  rw [submitted_call]
  exact List.mem_append_left _ member

/-- An id that is fresh after a call was so before it. -/
theorem fresh_of_concat {past : List Call} {call : Call} {id : OrderId}
    (fresh : Fresh (past ++ [call]) id) : Fresh past id :=
  fun order member => fresh order (mem_submitted_call member)

/-- The order a call submits is known after the call. -/
theorem submitted_by_call (past : List Call) {call : Call} {order : Order}
    (adds : call.input = .addOrder order) :
    order ∈ submitted ((past ++ [call]).map Transition.input) := by
  rw [submitted_call, adds]
  exact List.mem_append_right _ List.mem_cons_self

namespace Session

variable {past : List Call} {session : Session} {request : Request} {result : Session × Response}

/-- An order with an id of its own is executed as it is. -/
theorem prepared_eq_self {order : Order} (own : order.symbol = session.book.symbol)
    (nonzero : order.orderId ≠ 0) : session.prepared order = order :=
  OrderBook.prepared_of_id own nonzero

/-- A call with a fresh id keeps the ids distinct. -/
theorem distinct_of_fresh (tracked : Tracked past session)
    (fresh : ∀ order, request = .addOrder order → order.orderId ≠ 0 ∧ Fresh past order.orderId) :
    ((submitted ((past ++ [(⟨session, request, result.2, result.1⟩ : Call)]).map
      Transition.input)).map Order.orderId).Nodup := by
  rw [submitted_call, List.map_append]
  cases request with
  | removeOrder id => exact (List.append_nil _).symm ▸ tracked.distinct
  | addOrder order =>
    refine List.nodup_append.mpr ⟨tracked.distinct, List.nodup_singleton _, ?_⟩
    intro id member other new same
    obtain ⟨old, inPast, rfl⟩ := List.mem_map.mp member
    exact (fresh order rfl).2 old inPast (same.trans (List.mem_singleton.mp new))

/-- A call with a fresh id keeps the resting ids distinct. -/
theorem Effect.uniqueIds (effect : session.Effect request result) (tracked : Tracked past session)
    (fresh : ∀ order, request = .addOrder order → order.orderId ≠ 0 ∧ Fresh past order.orderId) :
    result.1.book.UniqueIds := by
  cases effect with
  | foreign => exact tracked.unique
  | unknown => exact tracked.unique
  | removed _ _ _ _ _ removed => exact removed.uniqueIds tracked.unique
  | executed order own _ _ _ _ executed =>
    rw [prepared_eq_self own (fresh order rfl).1] at executed
    exact executed.uniqueIds tracked.unique (tracked.not_resting (fresh order rfl).2)

/-- What rests after a call with a fresh id descends from an order submitted under its id. -/
theorem Effect.descends (effect : session.Effect request result) (tracked : Tracked past session)
    (fresh : ∀ order, request = .addOrder order → order.orderId ≠ 0 ∧ Fresh past order.orderId)
    {side : Side} {kept : Order} (member : kept ∈ result.1.book.orders side) :
    ∃ order ∈ submitted ((past ++ [(⟨session, request, result.2, result.1⟩ : Call)]).map
      Transition.input), order.orderId = kept.orderId ∧ order.type = .LIMIT := by
  rcases effect.origin member with old | ⟨origin, inBook, amount, -, -, rfl⟩ |
    ⟨brought, rfl, own, rests, -, rfl⟩
  · obtain ⟨order, inPast, descends⟩ := tracked.resting side kept old
    exact ⟨order, mem_submitted_call inPast, descends⟩
  · obtain ⟨order, inPast, descends⟩ := tracked.resting side origin inBook
    exact ⟨order, mem_submitted_call inPast, descends⟩
  · rw [prepared_eq_self own (fresh brought rfl).1] at rests ⊢
    refine ⟨brought, submitted_by_call past rfl, ?_, rests.1⟩
    exact (OrderBook.processed_orderId session.book brought).symm

/-- The index has the place of what rests after a call with a fresh id. -/
theorem Effect.indexed (effect : session.Effect request result) (wf : session.book.Wf)
    (tracked : Tracked past session)
    (fresh : ∀ order, request = .addOrder order → order.orderId ≠ 0 ∧ Fresh past order.orderId)
    {side : Side} {kept : Order} (member : kept ∈ result.1.book.orders side) :
    result.1.book.ordersIdMap.find? kept.orderId =
      some ⟨kept.orderId, kept.price, side⟩ := by
  have origin := effect.origin member
  cases effect with
  | foreign => exact tracked.indexed side kept member
  | unknown => exact tracked.indexed side kept member
  | removed id helper after events found removed =>
    obtain rfl := wf.index_orderId found
    exact removed.find?_of_kept found member (tracked.indexed side kept (removed.mem_before member))
  | executed order own after returned trades events executed =>
    obtain ⟨nonzero, new⟩ := fresh order rfl
    have absent := tracked.not_resting new
    rw [prepared_eq_self own nonzero] at executed
    rcases origin with old | ⟨origin, inBook, amount, -, -, rfl⟩ | ⟨_, same, -, rests, rfl, rfl⟩
    · exact (executed.find?_of_ne (absent side kept old)).trans (tracked.indexed side kept old)
    · refine (executed.find?_of_ne (absent side origin inBook)).trans ?_
      exact tracked.indexed side origin inBook
    · cases same
      rw [prepared_eq_self own nonzero] at rests ⊢
      obtain ⟨price, id, -⟩ := session.book.processed_frame order
      rw [price, id]
      exact executed.find?_of_rests rests (tracked.not_indexed new)

/-- The index has nothing but submitted ids after a call with a fresh id. -/
theorem Effect.known (effect : session.Effect request result) (tracked : Tracked past session)
    (fresh : ∀ order, request = .addOrder order → order.orderId ≠ 0 ∧ Fresh past order.orderId)
    {id : OrderId} {helper : FindOrderHelper}
    (found : result.1.book.ordersIdMap.find? id = some helper) :
    ∃ order ∈ submitted ((past ++ [(⟨session, request, result.2, result.1⟩ : Call)]).map
      Transition.input), order.orderId = id := by
  have old : session.book.ordersIdMap.find? id = some helper →
      ∃ order ∈ submitted ((past ++ [(⟨session, request, result.2, result.1⟩ : Call)]).map
        Transition.input), order.orderId = id := by
    intro known
    obtain ⟨order, inPast, same⟩ := tracked.known id helper known
    exact ⟨order, mem_submitted_call inPast, same⟩
  cases effect with
  | foreign => exact old found
  | unknown => exact old found
  | removed _ _ after _ _ removed =>
    change after.book.ordersIdMap.find? id = _ at found
    rw [removed.find?_eq] at found
    split_ifs at found
    exact old found
  | executed order own after _ _ _ executed =>
    rw [prepared_eq_self own (fresh order rfl).1] at executed
    rcases executed.known_of_find? found with known | ⟨same, -⟩
    · exact old known
    · exact ⟨order, submitted_by_call past rfl, same.symm⟩

/-- A call with a fresh id keeps a session tracked. -/
theorem Effect.tracked (effect : session.Effect request result) (wf : session.book.Wf)
    (tracked : Tracked past session)
    (fresh : ∀ order, request = .addOrder order → order.orderId ≠ 0 ∧ Fresh past order.orderId) :
    Tracked (past ++ [⟨session, request, result.2, result.1⟩]) result.1 where
  distinct := distinct_of_fresh tracked fresh
  unique := effect.uniqueIds tracked fresh
  resting _ _ member := effect.descends tracked fresh member
  indexed _ _ member := effect.indexed wf tracked fresh member
  known _ _ found := effect.known tracked fresh found

/-- What rests under another id after a cancel in which no counter wraps rested there before. -/
theorem Effect.mem_of_remove {id : OrderId} (effect : session.Effect (.removeOrder id) result)
    (wf : session.book.Wf) (unwrapped : session.book.CancelUnwrapped id) {side : Side}
    {kept : Order} (other : kept.orderId ≠ id) :
    kept ∈ result.1.book.orders side ↔ kept ∈ session.book.orders side := by
  cases effect with
  | unknown => exact Iff.rfl
  | removed _ helper after _ found removed =>
    have ownId := wf.index_orderId found
    subst ownId
    rcases Side.eq_or_eq_opposite side helper.side with same | same
    · rw [same, removed.own, Ladder.cancel,
        Ladder.prune_eq_self ((OrderBook.cancelUnwrapped_iff found).mp unwrapped)]
      refine List.mem_filter.trans ⟨And.left, fun member => ⟨member, ?_⟩⟩
      exact decide_eq_true fun both => other both.2
    · rw [same, removed.other]

/-- After a cancel nothing rests under its id. -/
theorem Effect.cancelled {id : OrderId} (effect : session.Effect (.removeOrder id) result)
    (wf : session.book.Wf) (tracked : Tracked past session) : result.1.book.Absent id := by
  intro side kept member same
  have after := effect.tracked wf tracked fun order adds => by cases adds
  have entry := after.indexed side kept member
  rw [same] at entry
  cases effect with
  | unknown _ unknown =>
    rw [unknown] at entry
    cases entry
  | removed _ _ _ _ found removed =>
    rw [removed.find?_eq, wf.index_orderId found, if_pos rfl] at entry
    cases entry

/-! ### Runs -/

variable {symbol : String} {handlers : Handlers} {orderIds tradeIds : IdGenerator}

theorem create_tracked : Tracked [] (create symbol handlers orderIds tradeIds) where
  distinct := List.nodup_nil
  unique := List.nodup_nil
  resting side _ member := by cases side <;> cases member
  indexed side _ member := by cases side <;> cases member
  known _ _ found := by cases found

/-- A property of the calls made so far and the session they lead to holds of every run with
distinct ids when it holds at the start and every effect of an allowed call with a fresh id
keeps it. -/
theorem run_identified {motive : List Call → Session → Prop} {allowed : Call → Prop}
    (base : motive [] (create symbol handlers orderIds tradeIds))
    (next : ∀ past session request result, session.book.Wf → Tracked past session →
      (∀ order, request = .addOrder order → order.orderId ≠ 0 ∧ Fresh past order.orderId) →
      motive past session → session.Effect request result →
      allowed ⟨session, request, result.2, result.1⟩ →
      motive (past ++ [⟨session, request, result.2, result.1⟩]) result.1)
    {requests : List Request} (identified : Identified requests)
    (all : ∀ call ∈ (create symbol handlers orderIds tradeIds).run requests, allowed call) :
    Tracked ((create symbol handlers orderIds tradeIds).run requests)
        ((create symbol handlers orderIds tradeIds).final requests) ∧
      motive ((create symbol handlers orderIds tradeIds).run requests)
        ((create symbol handlers orderIds tradeIds).final requests) := by
  refine run_induction (motive := fun past session => Identified (past.map Transition.input) →
    Tracked past session ∧ motive past session) ?_ ?_ requests all ?_
  · exact fun _ => ⟨create_tracked, base⟩
  · intro past session request result wf kept effect permitted identified
    rw [List.map_append] at identified
    obtain ⟨tracked, held⟩ := kept identified.front
    have fresh : ∀ order, request = .addOrder order →
        order.orderId ≠ 0 ∧ Fresh past order.orderId := by
      rintro order rfl
      exact identified.fresh
    exact ⟨effect.tracked wf tracked fresh,
      next past session request result wf tracked fresh held effect permitted⟩
  · have inputs := Machine.run_inputs step (create symbol handlers orderIds tradeIds) requests
    exact inputs.symm ▸ identified

end Session

end OrderForge
