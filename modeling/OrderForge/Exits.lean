/-
This file settles whether every limit order that leaves the book is reported. An
order that is filled up, as the crossing or as the passive one, is reported with the
status `FILLED`. A cancel publishes no order at all, although there is a status
`CANCELLED`; and an order that vanishes with a wrapped counter is not reported
either. So in every run the feed tells of every exit exactly when no call cancels a
resting order and no counter wraps.
-/

import OrderForge.OrderFeed

namespace OrderForge

/-! ### Orders that are not finished -/

/-- An order whose status says that it is still in the book. -/
def Order.Unfinished (order : Order) : Prop := order.status = .OPEN ∨ order.status = .PARTIAL

theorem Order.Unfinished.not_filled {order : Order} (unfinished : order.Unfinished) :
    order.status ≠ .FILLED := by
  intro filled
  rw [Order.Unfinished, filled] at unfinished
  rcases unfinished with opened | part
  · cases opened
  · cases part

/-- A request that submits nothing but open orders with something left. -/
def Request.Open : Request → Prop
  | .addOrder order => 0 < order.remainingQty ∧ order.status = .OPEN
  | .removeOrder _ => True

instance : DecidablePred Request.Open
  | .addOrder order => inferInstanceAs (Decidable (0 < order.remainingQty ∧ order.status = .OPEN))
  | .removeOrder _ => inferInstanceAs (Decidable True)

theorem Request.Open.positive {request : Request} (opened : request.Open) : request.Positive := by
  cases request with
  | addOrder order => exact opened.1
  | removeOrder id => trivial

theorem Order.unfinished_cut {order : Order} {amount : Nat} (less : amount < order.remaining) :
    (order.cut amount).Unfinished := by
  refine Or.inr ?_
  rw [order.status_cut amount less.le, if_neg less.ne']

/-- What is left of an open order when it comes to rest is unfinished. -/
theorem OrderBook.processed_unfinished {book : OrderBook} {order : Order}
    (positive : 0 < order.remaining) (opened : order.status = .OPEN) (rests : book.Rests order) :
    (book.processed order).Unfinished := by
  have less := sum_fills_lt positive rests
  rw [processed_of_limit rests.1, afterFills]
  split_ifs
  · exact Or.inl opened
  · exact Order.unfinished_cut less

/-- Whether every limit order whose latest update is unfinished rests in the book. -/
def ReportsExits (past : List Call) (session : Session) : Prop :=
  ∀ id update, latestUpdate (publishedOrders past) id = some update → update.type = .LIMIT →
    update.Unfinished → ∃ side, ∃ resting ∈ session.book.orders side, resting.orderId = id

/-- Whether a call cancels an order that rests. -/
def CancelsResting (call : Call) : Prop :=
  match call.input with
  | .addOrder _ => False
  | .removeOrder id => (call.before.book.resting? id).isSome

instance : DecidablePred CancelsResting
  | ⟨_, .addOrder _, _, _⟩ => inferInstanceAs (Decidable False)
  | ⟨before, .removeOrder id, _, _⟩ =>
    inferInstanceAs (Decidable ((before.book.resting? id).isSome = true))

namespace Session

/-! ### One call -/

section Step

variable {past : List Call} {session : Session} {request : Request} {result : Session × Response}

theorem Effect.unfinished (effect : session.Effect request result) (opened : request.Open)
    (unfinished : ∀ side, ∀ resting ∈ session.book.orders side, resting.Unfinished) :
    ∀ side, ∀ resting ∈ result.1.book.orders side, resting.Unfinished := by
  intro side resting member
  rcases effect.origin member with old | ⟨origin, -, amount, -, less, rfl⟩ |
    ⟨order, rfl, -, rests, -, rfl⟩
  · exact unfinished side resting old
  · exact Order.unfinished_cut less
  · refine OrderBook.processed_unfinished ?_ ?_ rests
    · rw [prepared_remaining]
      exact Quantity.lt_iff.mp opened.1
    · rw [(prepared_frame session order).2.2.2]
      exact opened.2

/-- A call that publishes no order and keeps what rests keeps telling of every exit. -/
theorem reportsExits_of_silent (reports : ReportsExits past session)
    (feed : result.2.events.filterMap Event.order? = [])
    (kept : ∀ side, ∀ resting ∈ session.book.orders side,
      ∃ other ∈ result.1.book.orders side, other.orderId = resting.orderId) :
    ReportsExits (past ++ [⟨session, request, result.2, result.1⟩]) result.1 := by
  intro id update latest limit unfinished
  rw [publishedOrders_concat, feed, List.append_nil] at latest
  obtain ⟨side, resting, member, rfl⟩ := reports id update latest limit unfinished
  exact ⟨side, kept side resting member⟩

/-- A cancel of no resting order in which no counter wraps keeps telling of every exit. -/
theorem Effect.reports_of_remove {id : OrderId} (effect : session.Effect (.removeOrder id) result)
    (tracked : Tracked past session) (positive : ∀ side, ∀ resting ∈ session.book.orders side,
      0 < resting.remaining) (reports : ReportsExits past session)
    (keeps : KeepsResting ⟨session, .removeOrder id, result.2, result.1⟩)
    (stays : ¬ CancelsResting ⟨session, .removeOrder id, result.2, result.1⟩) :
    ReportsExits (past ++ [⟨session, .removeOrder id, result.2, result.1⟩]) result.1 := by
  have trades : result.2.trades = [] := by cases effect <;> rfl
  refine reportsExits_of_silent reports effect.silent_of_remove fun side resting member => ?_
  rcases keeps side resting member with ⟨kept, inAfter, place⟩ | same | all
  · exact ⟨kept, inAfter, congrArg Prod.snd place⟩
  · refine absurd ?_ stays
    have found := (OrderBook.resting?_eq_some tracked.unique).mpr ⟨⟨side, member⟩, rfl⟩
    rw [← Request.removeOrder.inj same] at found
    exact Option.isSome_iff_exists.mpr ⟨resting, found⟩
  · rw [trades] at all
    exact absurd all (positive side resting member).ne

/-- Executing an order without a wrapping counter keeps telling of every exit. -/
theorem Effect.reports_of_add {order : Order} (effect : session.Effect (.addOrder order) result)
    (wf : session.book.Wf) (tracked : Tracked past session) (nonzero : order.orderId ≠ 0)
    (fresh : Fresh past order.orderId)
    (positive : ∀ side, ∀ resting ∈ session.book.orders side, 0 < resting.remaining)
    (installed : session.book.handlers.privateOrderUpdate = true)
    (reports : ReportsExits past session)
    (keeps : KeepsResting ⟨session, .addOrder order, result.2, result.1⟩) :
    ReportsExits (past ++ [⟨session, .addOrder order, result.2, result.1⟩]) result.1 := by
  have new := tracked.not_resting fresh
  cases effect with
  | foreign =>
    exact reportsExits_of_silent reports rfl fun side resting member => ⟨resting, member, rfl⟩
  | executed _ own after returned trades events executed =>
    rw [prepared_eq_self own nonzero] at executed
    have feed : events.filterMap Event.order? = session.book.updates order :=
      executed.orderFeed.trans (if_pos installed)
    intro id update latest limit unfinished
    rw [publishedOrders_concat, feed, latestUpdate_append] at latest
    by_cases crossing : id = order.orderId
    · subst crossing
      rw [OrderBook.latest_crossing, Option.some_or, Option.some.injEq] at latest
      subst latest
      rw [(session.book.processed_frame order).2.2] at limit
      have rests : session.book.Rests order := ⟨limit, unfinished.not_filled⟩
      exact ⟨order.side, _, (executed.mem_own (new _)).mpr (Or.inr ⟨rests, rfl⟩),
        OrderBook.processed_orderId _ _⟩
    by_cases passive : ∃ resting ∈ session.book.orders order.side.opposite, resting.orderId = id
    · obtain ⟨resting, member, rfl⟩ := passive
      have left := positive _ resting member
      rw [OrderBook.latest_passive tracked.unique new member left] at latest
      have notAll : filled trades resting ≠ resting.remaining := by
        intro all
        have gave : session.book.given order resting = resting.remaining :=
          (executed.filled_passive wf member).symm.trans all
        rw [gave, if_neg left.ne', Option.some_or, Option.some.injEq] at latest
        refine unfinished.not_filled ?_
        rw [← latest, resting.status_cut _ le_rfl, if_pos rfl]
      rcases keeps _ resting member with ⟨kept, inAfter, place⟩ | same | all
      · exact ⟨_, kept, inAfter, congrArg Prod.snd place⟩
      · cases same
      · exact absurd all notAll
    · have absent : ∀ resting ∈ session.book.orders order.side.opposite, resting.orderId ≠ id :=
        fun resting member same => passive ⟨resting, member, same⟩
      rw [OrderBook.latest_absent crossing absent] at latest
      obtain ⟨side, resting, member, rfl⟩ := reports id update latest limit unfinished
      rcases Side.eq_or_eq_opposite side order.side with ownSide | other
      · rw [ownSide] at member
        exact ⟨_, resting, (executed.mem_own (new _)).mpr (Or.inl member), rfl⟩
      · rw [other] at member
        exact absurd rfl (absent resting member)

/-- A cancel that tells of every exit leaves an order under every id that rested. -/
theorem Effect.rests_of_reports {id : OrderId} (effect : session.Effect (.removeOrder id) result)
    (wf : session.book.Wf) (accurate : Accurate past session)
    (unfinished : ∀ side, ∀ resting ∈ session.book.orders side, resting.Unfinished)
    (reports : ReportsExits (past ++ [⟨session, .removeOrder id, result.2, result.1⟩]) result.1)
    {side : Side} {resting : Order} (member : resting ∈ session.book.orders side) :
    ∃ other, ∃ kept ∈ result.1.book.orders other, kept.orderId = resting.orderId := by
  refine reports resting.orderId resting ?_ (wf.placed member).2.2.1
    (unfinished side resting member)
  rw [publishedOrders_concat, effect.silent_of_remove, List.append_nil]
  exact accurate.latest side resting member

/-- A cancel of a resting order is an exit that the feed does not tell of. -/
theorem Effect.stays_of_reports (effect : session.Effect request result) (wf : session.book.Wf)
    (tracked : Tracked past session) (accurate : Accurate past session)
    (unfinished : ∀ side, ∀ resting ∈ session.book.orders side, resting.Unfinished)
    (reports : ReportsExits (past ++ [⟨session, request, result.2, result.1⟩]) result.1) :
    ¬ CancelsResting ⟨session, request, result.2, result.1⟩ := by
  intro cancels
  cases request with
  | addOrder order => exact cancels
  | removeOrder id =>
    obtain ⟨resting, found⟩ := Option.isSome_iff_exists.mp cancels
    obtain ⟨⟨side, member⟩, rfl⟩ := (OrderBook.resting?_eq_some tracked.unique).mp found
    obtain ⟨other, kept, inAfter, same⟩ :=
      effect.rests_of_reports wf accurate unfinished reports member
    exact effect.cancelled wf tracked other kept inAfter same

/-- A call that tells of every exit takes resting orders off the book only by filling them, or
cancels. -/
theorem Effect.keeps_of_reports (effect : session.Effect request result) (wf : session.book.Wf)
    (tracked : Tracked past session) (accurate : Accurate past session)
    (fresh : ∀ order, request = .addOrder order → order.orderId ≠ 0 ∧ Fresh past order.orderId)
    (installed : session.book.handlers.privateOrderUpdate = true)
    (unfinished : ∀ side, ∀ resting ∈ session.book.orders side, resting.Unfinished)
    (reports : ReportsExits (past ++ [⟨session, request, result.2, result.1⟩]) result.1) :
    KeepsResting ⟨session, request, result.2, result.1⟩ := by
  intro side resting member
  have limit := (wf.placed member).2.2.1
  cases request with
  | removeOrder id =>
    obtain ⟨other, kept, inAfter, same⟩ :=
      effect.rests_of_reports wf accurate unfinished reports member
    have before := effect.rested_of_remove other kept inAfter
    have equal := tracked.unique.eq member before same
    subst equal
    have sameSide : other = side := (wf.placed before).2.1.symm.trans (wf.placed member).2.1
    exact Or.inl ⟨kept, sameSide ▸ inAfter, rfl⟩
  | addOrder order =>
    obtain ⟨nonzero, unknown⟩ := fresh order rfl
    have new := tracked.not_resting unknown
    cases effect with
    | foreign => exact Or.inl ⟨resting, member, rfl⟩
    | executed _ own after returned trades events executed =>
      rw [prepared_eq_self own nonzero] at executed
      have feed : events.filterMap Event.order? = session.book.updates order :=
        executed.orderFeed.trans (if_pos installed)
      rcases Side.eq_or_eq_opposite side order.side with ownSide | passive
      · rw [ownSide] at member ⊢
        exact Or.inl ⟨resting, (executed.mem_own (new _)).mpr (Or.inl member), rfl⟩
      rw [passive] at member ⊢
      by_cases all : session.book.given order resting = resting.remaining
      · exact Or.inr (Or.inr ((executed.filled_passive wf member).trans all))
      have left := accurate.positive _ resting member
      have within := OrderBook.given_le wf member
      obtain ⟨update, latest, limit, pending⟩ : ∃ update,
          latestUpdate (publishedOrders past ++ session.book.updates order) resting.orderId =
            some update ∧ update.type = .LIMIT ∧ update.Unfinished := by
        rw [latestUpdate_append, OrderBook.latest_passive tracked.unique new member left,
          accurate.latest _ resting member]
        split_ifs
        · exact ⟨resting, rfl, limit, unfinished _ resting member⟩
        · exact ⟨_, rfl, limit, Order.unfinished_cut (Nat.lt_of_le_of_ne within all)⟩
      obtain ⟨other, kept, inAfter, same⟩ := reports resting.orderId update
        (by rw [publishedOrders_concat, feed]; exact latest) limit pending
      have remains := executed.after_of_id wf tracked.unique new accurate.positive member inAfter
        same
      obtain ⟨place, sameSide⟩ := Ladder.place_of_mem_after remains
      rw [(wf.placed member).2.1] at sameSide
      have otherSide : other = order.side.opposite :=
        (executed.wf.placed inAfter).2.1.symm.trans sameSide
      exact Or.inl ⟨kept, otherSide ▸ inAfter, place⟩

end Step

/-! ### Runs -/

variable {symbol : String} {handlers : Handlers} {orderIds tradeIds : IdGenerator}

/-- After a run, the feed is accurate and every resting order is unfinished. -/
theorem run_unfinished (installed : handlers.privateOrderUpdate = true) {requests : List Request}
    (identified : Identified requests) (opened : ∀ request ∈ requests, request.Open) :
    Tracked ((create symbol handlers orderIds tradeIds).run requests)
        ((create symbol handlers orderIds tradeIds).final requests) ∧
      Accurate ((create symbol handlers orderIds tradeIds).run requests)
        ((create symbol handlers orderIds tradeIds).final requests) ∧
      ∀ side, ∀ resting ∈
        ((create symbol handlers orderIds tradeIds).final requests).book.orders side,
        resting.Unfinished := by
  refine @run_identified symbol handlers orderIds tradeIds
    (fun past session => Accurate past session ∧
      ∀ side, ∀ resting ∈ session.book.orders side, resting.Unfinished)
    (fun call => call.input.Open ∧ call.before.book.handlers = handlers)
    ⟨create_accurate symbol handlers orderIds tradeIds, ?_⟩ ?_ requests identified
    fun call member => ⟨opened _ (call_effect member).2.1, (call_before member).2⟩
  · intro side resting member
    cases side <;> cases member
  · rintro past session request result wf tracked fresh ⟨accurate, unfinished⟩ effect
      ⟨allowed, handlersEq⟩
    exact ⟨effect.accurate wf tracked accurate fresh allowed.positive (handlersEq ▸ installed),
      effect.unfinished allowed unfinished⟩

/-- When the feed has told of every exit so far, it does so after one more call exactly when the
call cancels no resting order and no counter wraps in it. -/
theorem reports_call_iff (installed : handlers.privateOrderUpdate = true)
    {front : List Request} {request : Request} (identified : Identified (front ++ [request]))
    (opened : ∀ other ∈ front ++ [request], other.Open)
    (reports : ReportsExits ((create symbol handlers orderIds tradeIds).run front)
      ((create symbol handlers orderIds tradeIds).final front)) :
    ReportsExits ((create symbol handlers orderIds tradeIds).run (front ++ [request]))
        ((create symbol handlers orderIds tradeIds).final (front ++ [request])) ↔
      Unwrapped (Machine.transition step
          ((create symbol handlers orderIds tradeIds).final front) request) ∧
        ¬ CancelsResting (Machine.transition step
          ((create symbol handlers orderIds tradeIds).final front) request) := by
  have wf := final_wf symbol handlers orderIds tradeIds front
  have handlersEq := final_handlers symbol handlers orderIds tradeIds front
  have inputs := Machine.run_inputs step (create symbol handlers orderIds tradeIds) front
  obtain ⟨tracked, accurate, unfinished⟩ :=
    @run_unfinished symbol handlers orderIds tradeIds installed front identified.front
      fun other member => opened other (List.mem_append_left _ member)
  have runEq := Machine.run_concat step (create symbol handlers orderIds tradeIds) front request
  have finalEq := Machine.final_concat step (create symbol handlers orderIds tradeIds) front request
  rw [run, final, runEq, finalEq]
  change Tracked (Machine.run step _ front) (Machine.final step _ front) at tracked
  change Accurate (Machine.run step _ front) (Machine.final step _ front) at accurate
  change ReportsExits (Machine.run step _ front) (Machine.final step _ front) at reports
  rw [← inputs] at identified
  generalize Machine.run step (create symbol handlers orderIds tradeIds) front = past
    at tracked accurate reports identified
  rw [final] at unfinished wf handlersEq ⊢
  generalize Machine.final step (create symbol handlers orderIds tradeIds) front = session
    at tracked accurate reports wf handlersEq unfinished
  have effect := step_effect wf request
  have fresh : ∀ order, request = .addOrder order →
      order.orderId ≠ 0 ∧ Fresh past order.orderId := by
    rintro order rfl
    exact identified.fresh
  have publishes : session.book.handlers.privateOrderUpdate = true := handlersEq ▸ installed
  constructor
  · intro told
    have keeps := effect.keeps_of_reports wf tracked accurate fresh publishes unfinished told
    exact ⟨(effect.keeps_iff wf accurate.positive).mp keeps,
      effect.stays_of_reports wf tracked accurate unfinished told⟩
  · rintro ⟨unwrapped, stays⟩
    have keeps := (effect.keeps_iff wf accurate.positive).mpr unwrapped
    cases request with
    | removeOrder id =>
      exact effect.reports_of_remove tracked accurate.positive reports keeps stays
    | addOrder order =>
      obtain ⟨nonzero, unknown⟩ := fresh order rfl
      exact effect.reports_of_add wf tracked nonzero unknown accurate.positive publishes reports
        keeps

/-- With the order handler installed, in every run of positive open orders with distinct ids and of
cancels, the feed tells after every call of every exit of a limit order exactly when no call
cancels a resting order and no counter wraps in any call. -/
theorem exits_reported_iff (installed : handlers.privateOrderUpdate = true)
    {requests : List Request} (identified : Identified requests)
    (opened : ∀ request ∈ requests, request.Open) :
    (∀ front back, requests = front ++ back →
      ReportsExits ((create symbol handlers orderIds tradeIds).run front)
        ((create symbol handlers orderIds tradeIds).final front)) ↔
      ∀ call ∈ (create symbol handlers orderIds tradeIds).run requests,
        Unwrapped call ∧ ¬ CancelsResting call := by
  constructor
  · intro reports call member
    obtain ⟨front, back, requestsEq, callEq⟩ := Machine.mem_run step member
    have split : requests = (front ++ [call.input]) ++ back := by
      rw [requestsEq, List.append_assoc, List.singleton_append]
    rw [callEq]
    exact (reports_call_iff installed (split ▸ identified).front
      (fun other inFront => opened other (split ▸ List.mem_append_left _ inFront))
      (reports front _ requestsEq)).mp (reports _ back split)
  · intro unwrapped front
    induction front using List.reverseRecOn with
    | nil =>
      intro _ _ id update latest
      cases latest
    | append_singleton front request inductionHypothesis =>
      intro back requestsEq
      have split : requests = front ++ request :: back := by
        rw [requestsEq, List.append_assoc, List.singleton_append]
      refine (reports_call_iff installed (requestsEq ▸ identified).front
        (fun other inFront => opened other (requestsEq ▸ List.mem_append_left _ inFront))
        (inductionHypothesis _ split)).mpr (unwrapped _ ?_)
      rw [split, run, Machine.run_append]
      exact List.mem_append_right _ List.mem_cons_self

theorem sample_exits :
    ReportsExits (sampleSession.run sampleFills) (sampleSession.final sampleFills) :=
  (exits_reported_iff rfl (by decide) (by decide)).mpr (by decide) sampleFills []
    (List.append_nil _).symm

/-- A sell order is cancelled: its latest update says `OPEN`, and it rests nowhere. -/
theorem cancel_is_not_reported :
    ¬ ∀ front back, sampleCancel = front ++ back →
      ReportsExits (sampleSession.run front) (sampleSession.final front) := by
  intro reports
  obtain ⟨side, resting, member, -⟩ := reports _ [] (List.append_nil _).symm 1
    (sampleOrder .SELL .LIMIT 10000 100000000 1) (by decide) rfl (Or.inl rfl)
  cases side <;> cases member

end Session

end OrderForge
