/-
This file proves price-time priority over whole runs. The time of a resting order
is its arrival: the number of the call that brought it to its place. Two facts carry
the proof. A call keeps the queue of a price in order: what stays keeps its relative
place, and at most one order is new, at the end. And a match takes from an order
only after it took everything from the orders in front of it.
-/

import OrderForge.Fate

namespace OrderForge

/-! ### Queues as lists of ids -/

namespace Ladder

/-- The ids resting at a price, the oldest first. -/
def ids (orders : List Order) (price : Price) : List OrderId :=
  (queue orders price).map Order.orderId

theorem mem_ids {orders : List Order} {price : Price} {id : OrderId} :
    id ∈ ids orders price ↔ (price, id) ∈ orders.map Order.place := by
  simp only [ids, List.mem_map, mem_queue, Order.place, Prod.mk.injEq]
  exact exists_congr fun order => and_assoc

theorem ids_eq (orders : List Order) (price : Price) :
    ids orders price =
      ((orders.map Order.place).filter fun place => place.1 = price).map Prod.snd := by
  rw [ids, queue, Ranked.queue, List.filter_map, List.map_map]
  rfl

theorem ids_sublist {first second : List Order}
    (sublist : (first.map Order.place).Sublist (second.map Order.place)) (price : Price) :
    (ids first price).Sublist (ids second price) := by
  rw [ids_eq, ids_eq]
  exact (sublist.filter _).map _

theorem ids_serve (before : Price → Price → Prop) [DecidableRel before] (quota : Nat)
    (orders : List Order) (price : Price) :
    (ids (serve before quota orders) price).Sublist (ids orders price) :=
  ids_sublist ((List.filter_sublist.map _).trans
    (Greedy.left_sublist Order.remaining Order.cut Order.place (fun _ _ => rfl) quota orders))
    price

theorem ids_cancel (price : Price) (id : OrderId) (orders : List Order) (other : Price) :
    (ids (cancel price id orders) other).Sublist (ids orders other) :=
  ids_sublist ((cancel_sublist _ _ _).map _) other

theorem ids_rest {before : Price → Price → Prop} [DecidableRel before]
    [IsStrictTotalOrder Price before] {orders : List Order}
    (sorted : Ranked.Sorted before Order.price orders) (order : Order) (price : Price) :
    ids (rest before order orders) price = ids orders price ++
      if order.price = price ∧ order.orderId ∉ ids orders price then [order.orderId] else [] := by
  rw [ids, queue_rest sorted]
  by_cases own : order.price = price
  · subst own
    split_ifs with fresh declined declined
    · rw [List.map_append]
      rfl
    · exact absurd ⟨rfl, fresh.2⟩ declined
    · exact absurd ⟨rfl, declined.2⟩ fresh
    · rw [List.append_nil]
      rfl
  · rw [if_neg fun both => own both.1, if_neg fun both => own both.1, List.append_nil]
    rfl

end Ladder

/-- What a call does to a queue: some ids stay, in order, and at most one is new at the end. -/
def QueueStep (before after : List OrderId) (adds : Bool) : Prop :=
  ∃ kept new, after = kept ++ new ∧ kept.Sublist before ∧ new.length ≤ 1 ∧
    (∀ id ∈ new, id ∉ before) ∧ (adds = false → new = [])

theorem QueueStep.of_sublist {before after : List OrderId} (sublist : after.Sublist before)
    (adds : Bool) : QueueStep before after adds :=
  ⟨after, [], (List.append_nil _).symm, sublist, Nat.zero_le _, fun _ member => by (cases member),
    fun _ => rfl⟩

/-- Whether a request adds an order. -/
def Request.adds : Request → Bool
  | .addOrder _ => true
  | .removeOrder _ => false

theorem Session.Effect.queueStep {session : Session} (wf : session.book.Wf) {request : Request}
    {result : Session × Response} (effect : session.Effect request result) (side : Side)
    (price : Price) :
    QueueStep (Ladder.ids (session.book.orders side) price)
      (Ladder.ids (result.1.book.orders side) price) request.adds := by
  cases effect with
  | foreign => exact QueueStep.of_sublist (List.Sublist.refl _) _
  | unknown => exact QueueStep.of_sublist (List.Sublist.refl _) _
  | removed _ helper _ _ _ removed =>
    refine QueueStep.of_sublist ?_ _
    rcases Side.eq_or_eq_opposite side helper.side with same | same
    · rw [same, removed.own]
      exact Ladder.ids_cancel _ _ _ _
    · rw [same, removed.other]
  | executed order _ _ _ _ _ executed =>
    rcases Side.eq_or_eq_opposite side (session.prepared order).side with same | same
    · rw [same, executed.own]
      split_ifs
      · rw [Ladder.ids_rest (wf.sorted _)]
        refine ⟨_, _, rfl, List.Sublist.refl _, ?_, fun id member => ?_,
          fun adds => by (cases adds)⟩
        · split_ifs
          · exact le_refl _
          · exact Nat.zero_le _
        · split_ifs at member with both
          · exact List.mem_singleton.mp member ▸ both.2
          · cases member
      · exact QueueStep.of_sublist (List.Sublist.refl _) _
    · rw [same, executed.passive]
      exact QueueStep.of_sublist (Ladder.ids_serve _ _ _ _) _

/-! ### Arrivals -/

/-- Whether a call brought an order to a place. -/
def Entered (side : Side) (place : Price × OrderId) (call : Call) : Prop :=
  place ∈ (call.after.book.orders side).map Order.place ∧
    place ∉ (call.before.book.orders side).map Order.place

instance (side : Side) (place : Price × OrderId) : DecidablePred (Entered side place) :=
  fun _ => inferInstanceAs (Decidable (_ ∧ _))

/-- The arrival at a place: the number of the last call that brought an order there. -/
def arrival (past : List Call) (side : Side) (place : Price × OrderId) : Nat :=
  past.length - past.reverse.findIdx fun call => Entered side place call

theorem arrival_concat (past : List Call) (call : Call) (side : Side)
    (place : Price × OrderId) :
    arrival (past ++ [call]) side place =
      if Entered side place call then past.length + 1 else arrival past side place := by
  rw [arrival, List.reverse_append, List.reverse_singleton, List.singleton_append,
    List.findIdx_cons, List.length_append, List.length_singleton]
  by_cases entered : Entered side place call
  · rw [if_pos entered, decide_eq_true entered]
    rfl
  · rw [if_neg entered, decide_eq_false entered, arrival]
    exact Nat.add_sub_add_right _ _ _

theorem arrival_le (past : List Call) (side : Side) (place : Price × OrderId) :
    arrival past side place ≤ past.length := Nat.sub_le _ _

/-- The queues are in order of arrival. -/
def InOrder (past : List Call) (session : Session) : Prop :=
  ∀ side price, (Ladder.ids (session.book.orders side) price).Pairwise fun first second =>
    arrival past side (price, first) ≤ arrival past side (price, second)

theorem inOrder_step {past : List Call} {session : Session} (wf : session.book.Wf)
    (ordered : InOrder past session) {request : Request} {result : Session × Response}
    (effect : session.Effect request result) :
    InOrder (past ++ [⟨session, request, result.2, result.1⟩]) result.1 := by
  intro side price
  obtain ⟨kept, new, after, sublist, atMostOne, fresh, -⟩ := (effect.queueStep wf side price)
  have old : ∀ id ∈ kept, arrival (past ++ [⟨session, request, result.2, result.1⟩]) side
      (price, id) = arrival past side (price, id) := by
    intro id member
    rw [arrival_concat, if_neg]
    exact fun entered => entered.2 (Ladder.mem_ids.mp (sublist.subset member))
  have latest : ∀ id ∈ new, arrival (past ++ [⟨session, request, result.2, result.1⟩]) side
      (price, id) = past.length + 1 := by
    intro id member
    rw [arrival_concat, if_pos]
    refine ⟨Ladder.mem_ids.mp ?_, fun before => fresh id member (Ladder.mem_ids.mpr before)⟩
    rw [after]
    exact List.mem_append_right _ member
  rw [after]
  refine List.pairwise_append.mpr ⟨?_, ?_, fun first inKept second inNew => ?_⟩
  · refine ((ordered side price).sublist sublist).imp_of_mem fun first second le => ?_
    rwa [old _ first, old _ second]
  · refine List.pairwise_of_forall_mem_list fun first inFirst second inSecond => ?_
    rw [latest first inFirst, latest second inSecond]
  · rw [old first inKept, latest second inNew]
    exact (arrival_le past side _).trans (Nat.le_succ _)

/-! ### Trades -/

/-- When a trade executes, everything in front of its passive order is used up. -/
theorem OrderBook.Executed.trade_split {book : OrderBook} {order : Order} {report : List Order}
    {outcome : Outcome} (executed : book.Executed order report outcome) (wf : book.Wf)
    {done todo : List Trade} {trade : Trade} (split : outcome.trades = done ++ trade :: todo) :
    trade.crossingSide = order.side ∧
    ∃ front passive back, book.orders order.side.opposite = front ++ passive :: back ∧
      trade.Fills passive ∧ ∀ other ∈ front, filled done other = other.remaining := by
  have terms := executed.trades
  rw [split, List.map_append, List.map_cons] at terms
  obtain ⟨doneFills, rest, fillsEq, doneEq, restEq⟩ := List.map_eq_append_iff.mp terms.symm
  obtain ⟨gave, todoFills, rfl, tradeEq, -⟩ := List.map_eq_cons_iff.mp restEq
  obtain ⟨front, back, orders, doneFull, -⟩ := Greedy.taken_split Order.remaining fillsEq
  have crossing : trade.crossingSide = order.side :=
    (congrArg Trade.crossingSide tradeEq).symm
  have ownSide : ∀ {resting : Order}, resting ∈ book.orders order.side.opposite →
      resting.side.opposite = order.side := by
    intro resting member
    rw [(wf.placed member).2.1, Side.opposite_opposite]
  have passive : gave.1 ∈ book.orders order.side.opposite :=
    orders ▸ List.mem_append_right _ List.mem_cons_self
  refine ⟨crossing, front, gave.1, back, orders, ⟨?_, ?_, ?_⟩, fun other inFront => ?_⟩
  · rw [ownSide passive, crossing]
  · exact (congrArg Trade.price tradeEq).symm
  · exact (congrArg Trade.passiveOrderId tradeEq).symm
  · have inBook : other ∈ book.orders order.side.opposite :=
      orders ▸ List.mem_append_left _ inFront
    have distinct := wf.nodup_places order.side.opposite
    rw [orders, List.map_append] at distinct
    rw [← filled_terms, ← doneEq, filled_termsOf (ownSide inBook).symm, doneFull]
    · exact Greedy.sum_full_key Order.remaining Order.place (List.nodup_append.mp distinct).1
        inFront
    · intro full member
      obtain ⟨origin, -, rfl⟩ := List.mem_map.mp (doneFull ▸ member)
      exact origin.remaining_lt

namespace Session

variable {symbol : String} {handlers : Handlers} {orderIds tradeIds : IdGenerator}

theorem run_inOrder (requests : List Request) :
    InOrder ((create symbol handlers orderIds tradeIds).run requests)
      ((create symbol handlers orderIds tradeIds).final requests) := by
  refine run_invariant ?_ ?_ requests
  · intro side price
    cases side <;> exact List.Pairwise.nil
  · exact fun past session request result wf ordered effect => inOrder_step wf ordered effect

/-- Every resting order was brought to its place by some call. -/
theorem run_arrival_pos (requests : List Request) :
    ∀ side, ∀ resting ∈
      ((create symbol handlers orderIds tradeIds).final requests).book.orders side,
      0 < arrival ((create symbol handlers orderIds tradeIds).run requests) side resting.place := by
  refine run_invariant
    (motive := fun past session => ∀ side, ∀ resting ∈ session.book.orders side,
      0 < arrival past side resting.place) ?_ ?_ requests
  · intro side resting member
    cases side <;> cases member
  · intro past session request result wf brought effect side resting member
    rw [arrival_concat]
    split_ifs with entered
    · exact Nat.succ_pos _
    · obtain ⟨before, inBook, same⟩ := List.mem_map.mp (not_not.mp fun absent =>
        entered ⟨List.mem_map_of_mem member, absent⟩)
      exact same ▸ brought side before inBook

/-- In a ladder in order of arrival, an order behind another one of its price arrived later. -/
theorem arrival_le_of_behind {past : List Call} {side : Side} {front back : List Order}
    {passive other : Order}
    (ordered : (Ladder.ids (front ++ passive :: back) passive.price).Pairwise fun first second =>
      arrival past side (passive.price, first) ≤ arrival past side (passive.price, second))
    (behind : other ∈ back) (same : other.price = passive.price) :
    arrival past side passive.place ≤ arrival past side other.place := by
  have queued : passive.orderId ∈ Ladder.ids [passive] passive.price := by
    rw [Ladder.mem_ids]
    exact List.mem_cons_self
  have later : other.orderId ∈ Ladder.ids back passive.price := by
    rw [Ladder.mem_ids, ← same]
    exact List.mem_map_of_mem (f := Order.place) behind
  rw [← List.singleton_append, Ladder.ids, Ladder.queue_append, Ladder.queue_append,
    List.map_append, List.map_append] at ordered
  have le := (List.pairwise_append.mp (List.pairwise_append.mp ordered).2.1).2.2 _ queued _ later
  rw [← same] at le
  rw [Order.place, Order.place, ← same]
  exact le

theorem Effect.priority {past : List Call} {session : Session} (wf : session.book.Wf)
    (ordered : InOrder past session) {request : Request} {result : Session × Response}
    (effect : session.Effect request result) (done : List Trade) (trade : Trade)
    (todo : List Trade) (split : result.2.trades = done ++ trade :: todo) :
    ∃ passive ∈ session.book.orders trade.crossingSide.opposite, trade.Fills passive ∧
      ∀ other ∈ session.book.orders trade.crossingSide.opposite,
        filled done other < other.remaining →
        ¬ trade.crossingSide.opposite.Better other.price passive.price ∧
        (other.price = passive.price →
          arrival past trade.crossingSide.opposite passive.place ≤
            arrival past trade.crossingSide.opposite other.place) := by
  cases effect with
  | foreign => cases done <;> cases split
  | unknown => cases done <;> cases split
  | removed => cases done <;> cases split
  | executed order _ _ _ trades _ executed =>
    obtain ⟨crossing, front, passive, back, orders, fills, used⟩ :=
      executed.trade_split wf split
    have sorted := wf.sorted (session.prepared order).side.opposite
    have inQueue := ordered (session.prepared order).side.opposite passive.price
    rw [crossing, orders]
    rw [orders] at sorted inQueue
    refine ⟨passive, List.mem_append_right _ List.mem_cons_self, fills, fun other member less => ?_⟩
    rcases List.mem_append.mp member with inFront | atOrBehind
    · exact absurd (used other inFront) less.ne
    rcases List.mem_cons.mp atOrBehind with same | behind
    · rw [same]
      exact ⟨Std.Irrefl.irrefl _, fun _ => le_refl _⟩
    · exact ⟨sorted.behind behind, arrival_le_of_behind inQueue behind⟩

/-- Price-time priority: in every run, every trade takes from a resting order of its side, and no
order of that side which still has something left is at a better price, or at the same price
with an earlier arrival. Every call keeps every queue in order: what stays keeps its relative
place, and what is new, at most one order and none in a cancel, is at the end. -/
theorem run_priority (requests : List Request) (past later : List Call) (call : Call)
    (split : (create symbol handlers orderIds tradeIds).run requests = past ++ call :: later) :
    (∀ done trade todo, call.output.trades = done ++ trade :: todo →
      ∃ passive ∈ call.before.book.orders trade.crossingSide.opposite, trade.Fills passive ∧
        ∀ other ∈ call.before.book.orders trade.crossingSide.opposite,
          filled done other < other.remaining →
          ¬ trade.crossingSide.opposite.Better other.price passive.price ∧
          (other.price = passive.price →
            arrival past trade.crossingSide.opposite passive.place ≤
              arrival past trade.crossingSide.opposite other.place)) ∧
    ∀ side price, QueueStep (Ladder.ids (call.before.book.orders side) price)
      (Ladder.ids (call.after.book.orders side) price) call.input.adds := by
  obtain ⟨front, request, back, -, rfl, rfl⟩ := Machine.run_split step split
  have wf := final_wf symbol handlers orderIds tradeIds front
  have ordered := @run_inOrder symbol handlers orderIds tradeIds front
  have effect := step_effect wf request
  exact ⟨effect.priority wf ordered, fun side price => effect.queueStep wf side price⟩

/-- Of two sell orders at one price, a buy order takes from one that arrived first. -/
theorem sample_priority :
    ∃ passive ∈ (sampleSession.final sampleAsks).book.orders .SELL,
      Trade.Fills ⟨"AAPL", ⟨10000⟩, ⟨100000000⟩, .BUY, 555, 555, 1, 3, 1⟩ passive ∧
      ∀ other ∈ (sampleSession.final sampleAsks).book.orders .SELL,
        filled [] other < other.remaining →
        ¬ Side.SELL.Better other.price passive.price ∧
        (other.price = passive.price →
          arrival (sampleSession.run sampleAsks) .SELL passive.place ≤
            arrival (sampleSession.run sampleAsks) .SELL other.place) :=
  (run_priority (sampleAsks ++ [.addOrder (sampleOrder .BUY .LIMIT 10000 100000000 3)])
    (sampleSession.run sampleAsks) []
    (Machine.transition step (sampleSession.final sampleAsks)
      (.addOrder (sampleOrder .BUY .LIMIT 10000 100000000 3))) rfl).1
    [] ⟨"AAPL", ⟨10000⟩, ⟨100000000⟩, .BUY, 555, 555, 1, 3, 1⟩ [] rfl

end Session

end OrderForge
