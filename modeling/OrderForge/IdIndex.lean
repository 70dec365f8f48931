/-
This file settles when the id index is exact. A cancel takes its entry out of the
index, and an order that comes to rest brings one. An order that is filled while it
rests leaves the book inside the match of another order, where nothing knows of the
index, and its entry stays. So along a run the index is exact exactly as long as no
order is added that fills the first order of the other side.
-/

import OrderForge.Exits
import OrderForge.Ledger

namespace OrderForge

/-- Whether the index has the side and the price of every resting order under its id, and under
no other id anything. -/
structure OrderBook.IndexExact (book : OrderBook) : Prop where
  indexed : ∀ side, ∀ resting ∈ book.orders side,
    book.ordersIdMap.find? resting.orderId = some ⟨resting.orderId, resting.price, side⟩
  resting : ∀ id helper, book.ordersIdMap.find? id = some helper →
    ∃ side, ∃ resting ∈ book.orders side, resting.orderId = id

/-- Whether an order is added that is matched and has at least as much left as the first order of
the other side. -/
def FillsFirst (call : Call) : Prop :=
  match call.input with
  | .addOrder order => order.symbol = call.before.book.symbol ∧
      call.before.book.Marketable order ∧
      ∃ first ∈ (call.before.book.orders order.side.opposite).head?,
        first.remaining ≤ order.remaining
  | .removeOrder _ => False

instance : DecidablePred FillsFirst
  | ⟨_, .addOrder _, _, _⟩ => inferInstanceAs (Decidable (_ ∧ _ ∧ _))
  | ⟨_, .removeOrder _, _, _⟩ => inferInstanceAs (Decidable False)

/-! ### What a match takes -/

namespace OrderBook

variable {book : OrderBook} {order resting : Order} {report : List Order} {outcome : Outcome}

/-- An order with less left than the first order of the other side takes no order whole. -/
theorem given_lt (wf : book.Wf)
    (positive : ∀ resting ∈ book.orders order.side.opposite, 0 < resting.remaining)
    (less : book.Marketable order → ∀ first ∈ (book.orders order.side.opposite).head?,
      order.remaining < first.remaining)
    (member : resting ∈ book.orders order.side.opposite) :
    book.given order resting < resting.remaining := by
  have some := positive resting member
  have places := wf.nodup_places order.side.opposite
  obtain ⟨front, back, split⟩ := List.append_of_mem member
  rw [split] at places
  rw [given, split, Ladder.given_split places]
  by_cases marketable : book.Marketable order
  · rw [demand_of_marketable marketable]
    have bound := less marketable
    rw [split] at bound
    cases front with
    | nil =>
      have first := bound resting rfl
      rw [Greedy.total_nil]
      omega
    | cons head middle =>
      have first := bound head rfl
      rw [Greedy.total_cons]
      omega
  · rw [demand_of_not marketable]
    omega

/-- An order with as much left as the first order of the other side takes that one whole. -/
theorem given_first (wf : book.Wf) (marketable : book.Marketable order) {first : Order}
    (head : first ∈ (book.orders order.side.opposite).head?)
    (enough : first.remaining ≤ order.remaining) : book.given order first = first.remaining := by
  have places := wf.nodup_places order.side.opposite
  obtain ⟨back, split⟩ := List.head?_eq_some_iff.mp head
  rw [split] at places
  rw [given, split, ← List.nil_append (first :: back), Ladder.given_split places,
    demand_of_marketable marketable, Greedy.total_nil]
  omega

/-- What is not taken whole still rests under its id. -/
theorem Executed.rests_of_given_ne (executed : book.Executed order report outcome) (wf : book.Wf)
    (positive : ∀ resting ∈ book.orders order.side.opposite, 0 < resting.remaining)
    (unwrapped : ∀ resting ∈ book.orders order.side.opposite,
      ¬ Ladder.Wraps order.side.opposite.Better (book.demand order)
        (book.orders order.side.opposite) resting.price)
    (member : resting ∈ book.orders order.side.opposite)
    (left : book.given order resting ≠ resting.remaining) :
    ∃ kept ∈ outcome.book.orders order.side.opposite, kept.orderId = resting.orderId := by
  have remains := Ladder.mem_after.mpr ⟨left, rfl⟩
  rw [← executed.passive_atPlace wf positive unwrapped member] at remains
  obtain ⟨inAfter, place⟩ := Ladder.mem_atPlace.mp remains
  exact ⟨_, inAfter, congrArg Prod.snd place⟩

end OrderBook

namespace Session

variable {past : List Call} {session : Session} {request : Request} {result : Session × Response}

/-! ### One call -/

/-- A call that fills the first order of the other side leaves its entry in the index. -/
theorem Effect.fillsFirst_not_exact (effect : session.Effect request result)
    (wf : session.book.Wf) (tracked : Tracked past session)
    (fresh : ∀ order, request = .addOrder order → order.orderId ≠ 0 ∧ Fresh past order.orderId)
    (positive : ∀ side, ∀ resting ∈ session.book.orders side, 0 < resting.remaining)
    (fills : FillsFirst ⟨session, request, result.2, result.1⟩) :
    ¬ result.1.book.IndexExact := by
  intro exact_
  cases effect with
  | unknown => exact fills
  | removed => exact fills
  | foreign _ foreign => exact foreign fills.1
  | executed order own after returned trades events executed =>
    obtain ⟨-, marketable, first, head, enough⟩ := fills
    obtain ⟨nonzero, unknown⟩ := fresh order rfl
    have new := tracked.not_resting unknown
    rw [prepared_eq_self own nonzero] at executed
    have member := List.mem_of_mem_head? head
    have stays : after.book.ordersIdMap.find? first.orderId =
        some ⟨first.orderId, first.price, order.side.opposite⟩ :=
      (executed.find?_of_ne (new _ first member)).trans (tracked.indexed _ first member)
    obtain ⟨side, kept, inAfter, same⟩ := exact_.resting _ _ stays
    have remains := executed.after_of_id wf tracked.unique new positive member inAfter same
    exact (Ladder.mem_after.mp remains).1 (OrderBook.given_first wf marketable head enough)

/-- A call that does not fill the first order of the other side keeps the index exact. -/
theorem Effect.indexExact (effect : session.Effect request result) (wf : session.book.Wf)
    (tracked : Tracked past session)
    (fresh : ∀ order, request = .addOrder order → order.orderId ≠ 0 ∧ Fresh past order.orderId)
    (positive : ∀ side, ∀ resting ∈ session.book.orders side, 0 < resting.remaining)
    (bounded : session.book.Bounded) (exact_ : session.book.IndexExact)
    (leaves : ¬ FillsFirst ⟨session, request, result.2, result.1⟩) :
    result.1.book.IndexExact := by
  refine ⟨(effect.tracked wf tracked fresh).indexed, fun id helper found => ?_⟩
  cases effect with
  | unknown => exact exact_.resting id helper found
  | foreign => exact exact_.resting id helper found
  | removed cancelled entry after events known removed =>
    have erased : after.book.ordersIdMap.find? id = some helper := found
    rw [removed.find?_eq] at erased
    split_ifs at erased with other
    obtain ⟨side, resting, member, rfl⟩ := exact_.resting id helper erased
    have different : resting.orderId ≠ cancelled := fun same =>
      other (same.trans (wf.index_orderId known).symm)
    refine ⟨side, resting, ?_, rfl⟩
    exact ((Effect.removed cancelled entry after events known removed).mem_of_remove wf
      (bounded.cancelUnwrapped positive cancelled) different).mpr member
  | executed order own after returned trades events executed =>
    obtain ⟨nonzero, unknown⟩ := fresh order rfl
    have new := tracked.not_resting unknown
    rw [prepared_eq_self own nonzero] at executed
    have kept : ∀ {entry}, session.book.ordersIdMap.find? id = some entry →
        ∃ side, ∃ resting ∈ after.book.orders side, resting.orderId = id := by
      intro entry known
      obtain ⟨side, resting, member, rfl⟩ := exact_.resting id entry known
      rcases Side.eq_or_eq_opposite side order.side with ownSide | passive
      · rw [ownSide] at member
        exact ⟨order.side, resting, (executed.mem_own (new _)).mpr (Or.inl member), rfl⟩
      · rw [passive] at member
        have part := OrderBook.given_lt wf (positive _) (fun marketable first head =>
          Nat.lt_of_not_le fun enough => leaves ⟨own, marketable, first, head, enough⟩) member
        obtain ⟨left, inAfter, same⟩ := executed.rests_of_given_ne wf (positive _)
          (bounded.matchUnwrapped order own) member part.ne
        exact ⟨_, left, inAfter, same⟩
    rcases executed.known_of_find? found with known | ⟨same, rests⟩
    · exact kept known
    · refine ⟨order.side, session.book.processed order, ?_, ?_⟩
      · exact (executed.mem_own (new _)).mpr (Or.inr ⟨rests, rfl⟩)
      · rw [OrderBook.processed_orderId, same]

/-! ### Runs -/

variable {symbol : String} {handlers : Handlers} {orderIds tradeIds : IdGenerator}

theorem create_indexExact :
    (create symbol handlers orderIds tradeIds).book.IndexExact where
  indexed side _ member := by cases side <;> cases member
  resting _ _ found := by cases found

/-- In every run of positive open orders with distinct ids and of cancels, in which the sum at each
price fits, the index is exact after every call exactly when no call fills the first order of
the other side. -/
theorem index_exact_iff {requests : List Request} (identified : Identified requests)
    (opened : ∀ request ∈ requests, request.Open)
    (bounded : ∀ call ∈ (create symbol handlers orderIds tradeIds).run requests,
      call.after.book.Bounded) :
    (∀ call ∈ (create symbol handlers orderIds tradeIds).run requests,
      call.after.book.IndexExact) ↔
    ∀ call ∈ (create symbol handlers orderIds tradeIds).run requests, ¬ FillsFirst call := by
  refine (@run_identified symbol handlers orderIds tradeIds
    (fun past session => (∀ side, ∀ resting ∈ session.book.orders side, 0 < resting.remaining) ∧
      session.book.Bounded ∧ ((∀ call ∈ past, ¬ FillsFirst call) → session.book.IndexExact) ∧
      ((∀ call ∈ past, call.after.book.IndexExact) ↔ ∀ call ∈ past, ¬ FillsFirst call))
    (fun call => call.input.Open ∧ call.after.book.Bounded) ?_ ?_ requests identified ?_).2.2.2.2
  · refine ⟨fun side _ member => ?_, fun side price => ?_, fun _ => create_indexExact, ?_⟩
    · cases side <;> cases member
    · cases side <;> exact Nat.two_pow_pos 64
    · exact iff_of_true (fun _ none => (List.not_mem_nil none).elim)
        fun _ none => (List.not_mem_nil none).elim
  · rintro past session request result wf tracked fresh ⟨positive, fits, exact_, same⟩ effect
      ⟨open_, fitsAfter⟩
    have next : (∀ call ∈ past, ¬ FillsFirst call) → (result.1.book.IndexExact ↔
        ¬ FillsFirst ⟨session, request, result.2, result.1⟩) := fun leaves =>
      ⟨fun after fills => effect.fillsFirst_not_exact wf tracked fresh positive fills after,
        effect.indexExact wf tracked fresh positive fits (exact_ leaves)⟩
    refine ⟨effect.positive open_.positive positive, fitsAfter, fun leaves => ?_, ?_⟩
    · rw [List.forall_mem_append, List.forall_mem_singleton] at leaves
      exact (next leaves.1).mpr leaves.2
    · rw [List.forall_mem_append, List.forall_mem_append, List.forall_mem_singleton,
        List.forall_mem_singleton, same]
      exact and_congr_right next
  · exact fun call member => ⟨opened _ (call_effect member).2.1, bounded call member⟩

/-- The first of two sell orders is filled in part, and cancelled. -/
def samplePart : List Request :=
  sampleAsks ++ [.addOrder (sampleOrder .BUY .LIMIT 10000 50000000 3), .removeOrder 1]

theorem sample_index :
    Identified samplePart ∧ ∀ call ∈ sampleSession.run samplePart, call.after.book.IndexExact := by
  have fits : ∀ call ∈ sampleSession.run samplePart, ∀ side ∈ [Side.BUY, .SELL],
      Greedy.total Order.remaining (call.after.book.orders side) < 2 ^ 64 := by decide
  refine ⟨by decide, (index_exact_iff (by decide) (by decide) fun call member => ?_).mpr
    (by decide)⟩
  exact OrderBook.bounded_of_total fun side => fits call member side (by cases side <;> decide)

/-- The first of two sell orders is filled, and the index still has it. -/
theorem filled_order_stays_indexed :
    ¬ ∀ call ∈ sampleSession.run sampleFills, call.after.book.IndexExact := by
  intro exact_
  have gone : ∀ side, ∀ resting ∈ (sampleSession.final sampleFills).book.orders side,
      resting.orderId ≠ 1 := fun side => by cases side <;> decide
  have last := exact_ _ (List.mem_cons_of_mem _ (List.mem_cons_of_mem _ List.mem_cons_self))
  obtain ⟨side, resting, member, same⟩ := last.resting 1 ⟨1, ⟨10000⟩, .SELL⟩ (by decide)
  exact gone side resting member same

end Session

end OrderForge
