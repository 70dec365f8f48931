/-
This file shows that matching on a book side keeps the side's invariant and serves
its ladder: the levels after the three passes are a sweep, the orders of a sweep
are what the ladder keeps, and the published updates report it.
-/

import OrderForge.SideInvariant

namespace OrderForge

namespace BookSide

/-! ### A sweep as a ladder operation -/

section Sweep

variable {CompFunc : Price → Price → Prop} {symbol : String} {side : Side}
  {entries : List (Price × PriceLevel)} {quota : Nat}

/-- What a sweep leaves of a level it visits. -/
def served (quota : Nat) (level : PriceLevel) : List Order :=
  if (level.serve quota).totalQty = 0 then [] else (level.serve quota).orders

theorem ordersOf_sweep_cons (wanted : 0 < quota) (entry : Price × PriceLevel)
    (rest : List (Price × PriceLevel)) :
    ordersOf (sweep quota (entry :: rest)) =
      served quota entry.2 ++ ordersOf (sweep (quota - entry.2.quantity) rest) := by
  rw [sweep_cons wanted, served]
  split_ifs <;> rfl

theorem sweep_keys (quota : Nat) (entries : List (Price × PriceLevel)) :
    ((sweep quota entries).map Prod.fst).Sublist (entries.map Prod.fst) := by
  induction entries generalizing quota with
  | nil => exact List.Sublist.refl _
  | cons entry rest inductionHypothesis =>
    rcases Nat.eq_zero_or_pos quota with done | wanted
    · rw [done, sweep_zero]
    rw [sweep_cons wanted]
    split_ifs
    · exact (inductionHypothesis _).cons _
    · exact (inductionHypothesis _).cons_cons _

theorem sweep_wf (wf : EntriesWf symbol side entries) (small : quota < 2 ^ 64)
    (populated : ∀ entry ∈ entries, entry.2.orders ≠ []) :
    EntriesWf symbol side (sweep quota entries) ∧
      ∀ entry ∈ sweep quota entries, entry.2.orders ≠ [] := by
  induction entries generalizing quota with
  | nil => exact ⟨wf, populated⟩
  | cons entry rest inductionHypothesis =>
    rcases Nat.eq_zero_or_pos quota with done | wanted
    · rw [done, sweep_zero]
      exact ⟨wf, populated⟩
    have serveWf := PriceLevel.serve_wf wf.head small
    have restSmall : quota - entry.2.quantity < 2 ^ 64 := by omega
    obtain ⟨restWf, restPopulated⟩ := inductionHypothesis wf.tail restSmall
      fun other member => populated other (List.mem_cons_of_mem _ member)
    rw [sweep_cons wanted]
    split_ifs with zero
    · exact ⟨restWf, restPopulated⟩
    · refine ⟨fun other member => ?_, fun other member => ?_⟩
      · rcases List.mem_cons.mp member with same | inRest
        · exact same ▸ serveWf
        · exact restWf other inRest
      · rcases List.mem_cons.mp member with same | inRest
        · intro none
          rw [same] at none
          refine zero (serveWf.totalQty_eq_zero_iff.mpr ?_)
          rw [PriceLevel.quantity, none]
          rfl
        · exact restPopulated other inRest

/-- What a sweep leaves of a level it visits belongs to the level. -/
theorem served_price {entry : Price × PriceLevel} (wf : entry.2.Wf symbol side entry.1)
    (small : quota < 2 ^ 64) {order : Order} (member : order ∈ served quota entry.2) :
    order.price = entry.1 := by
  rw [served] at member
  split_ifs at member
  · cases member
  · exact ((PriceLevel.serve_wf wf small).placed order member).2.2.1

theorem total_served {entry : Price × PriceLevel} (wf : entry.2.Wf symbol side entry.1)
    (small : quota < 2 ^ 64) :
    Quantity.toNat (entry.2.serve quota).totalQty =
      Greedy.total Order.remaining (served quota entry.2) % 2 ^ 64 := by
  rw [served]
  split_ifs with zero
  · rw [zero]
    rfl
  · exact (PriceLevel.serve_wf wf small).counted

/-- The updates of a sweep report what it did. -/
theorem sweep_reported (wf : EntriesWf symbol side entries) (small : quota < 2 ^ 64)
    (distinct : (entries.map Prod.fst).Nodup)
    (populated : ∀ entry ∈ entries, entry.2.orders ≠ []) :
    Reported symbol side (ordersOf entries) (ordersOf (sweep quota entries))
      (sweepUpdates quota entries) := by
  induction entries generalizing quota with
  | nil =>
    exact ⟨fun _ member => by (cases member), fun _ member => by (cases member), fun _ _ => rfl⟩
  | cons entry rest inductionHypothesis =>
    rcases Nat.eq_zero_or_pos quota with done | wanted
    · rw [done, sweep_zero, sweepUpdates_zero]
      exact ⟨fun _ member => by (cases member), fun _ member => by (cases member), fun _ _ => rfl⟩
    obtain ⟨fresh, restDistinct⟩ := List.nodup_cons.mp distinct
    have restPopulated : ∀ other ∈ rest, other.2.orders ≠ [] := fun other member =>
      populated other (List.mem_cons_of_mem _ member)
    have restSmall : quota - entry.2.quantity < 2 ^ 64 := by omega
    have others := inductionHypothesis wf.tail restSmall restDistinct restPopulated
    have sweptWf := (sweep_wf wf.tail restSmall restPopulated).1
    have freshAfter : entry.1 ∉ (sweep (quota - entry.2.quantity) rest).map Prod.fst :=
      fun member => fresh ((sweep_keys _ _).subset member)
    have headQueue : Ladder.queue (served quota entry.2) entry.1 = served quota entry.2 :=
      Ladder.queue_of_all fun order member => served_price wf.head small member
    have headPrice : (entry.2.serve quota).update.price = entry.1 := wf.head.price_eq
    have headOther : ∀ {price : Price}, price ≠ entry.1 →
        Ladder.queue (served quota entry.2) price = [] := fun other =>
      Ladder.queue_of_none fun order member same =>
        other (same.symm.trans (served_price wf.head small member))
    rw [sweepUpdates_cons wanted, ordersOf_sweep_cons wanted, ordersOf_cons]
    refine ⟨fun update member => ?_, fun update member => ?_, fun price absent => ?_⟩
    · rcases List.mem_cons.mp member with head | tail
      · rw [head]
        exact ⟨wf.head.symbol_eq, wf.head.side_eq⟩
      · exact others.placed update tail
    · rw [Ladder.quantity, Ladder.queue_append]
      rcases List.mem_cons.mp member with head | tail
      · rw [head, headPrice, headQueue, sweptWf.queue_eq_nil freshAfter, List.append_nil]
        exact total_served wf.head small
      · have key := sweepUpdates_mem wf.tail tail
        rw [headOther fun same => fresh (same ▸ key), List.nil_append]
        exact others.total update tail
    · rw [List.map_cons, headPrice, List.mem_cons, not_or] at absent
      have headBefore : Ladder.queue entry.2.orders price = [] :=
        Ladder.queue_of_none fun order member same =>
          absent.1 (same.symm.trans (wf.head.placed order member).2.2.1)
      rw [Ladder.queue_append, Ladder.queue_append, headOther absent.1, headBefore,
        others.others price absent.2]

/-- A sweep serves the ladder. -/
theorem ordersOf_sweep [DecidableRel CompFunc] [IsStrictTotalOrder Price CompFunc]
    (wf : EntriesWf symbol side entries) (small : quota < 2 ^ 64)
    (ordered : entries.Pairwise fun first second => CompFunc first.1 second.1) :
    ordersOf (sweep quota entries) = Ladder.serve CompFunc quota (ordersOf entries) := by
  induction entries generalizing quota with
  | nil => rfl
  | cons entry rest inductionHypothesis =>
    rcases Nat.eq_zero_or_pos quota with done | wanted
    · rw [done, sweep_zero, Ladder.serve_zero]
    obtain ⟨headFirst, restOrdered⟩ := List.pairwise_cons.mp ordered
    have headPrice : ∀ order ∈ entry.2.orders, order.price = entry.1 := fun order member =>
      (wf.head.placed order member).2.2.1
    have restPrice : ∀ order ∈ ordersOf rest, CompFunc entry.1 order.price := by
      intro order member
      obtain ⟨other, inRest, same⟩ := List.mem_map.mp (wf.tail.price_mem member)
      exact same ▸ headFirst other inRest
    rw [ordersOf_sweep_cons wanted, ordersOf_cons, Ladder.serve_append wanted headPrice restPrice,
      inductionHypothesis wf.tail (by omega) restOrdered, served, PriceLevel.serve_orders]
    simp only [(PriceLevel.serve_wf wf.head small).totalQty_eq_zero_iff, PriceLevel.serve_quantity]
    rfl

end Sweep

/-! ### Matching -/

section Match

variable {CompFunc : Price → Price → Prop} {symbol : String} {side : Side}
  {bookSide : BookSide CompFunc} {engine : MatchingEngine}

/-- A side after a match, once the filled nodes are unlinked. -/
def matched (bookSide : BookSide CompFunc) (engine : MatchingEngine) : BookSide CompFunc :=
  (bookSide.matchOrder engine).1.removeMarkedOrderNodes
    (bookSide.matchOrder engine).2.1.removeLevels

variable [IsStrictTotalOrder Price CompFunc]

/-- The first pass over the levels of a side. -/
theorem Wf.swept (wf : bookSide.Wf symbol side) (engine : MatchingEngine) :
    ∃ prices, Swept (engine, []) bookSide.levels.bookCont.entries
      (Keyed.mapAccum matchLevel (engine, []) bookSide.levels.bookCont.entries) prices :=
  mapAccum_swept (engine, []) _ bookSide.levels.bookCont.nodup_keys wf.levels

/-- The engine absorbs what a greedy visit of the side's orders takes. -/
theorem matchOrder_engine (wf : bookSide.Wf symbol side) (engine : MatchingEngine) :
    ∃ prices, (bookSide.matchOrder engine).2.1 =
      (engine.absorb (Greedy.taken Order.remaining engine.quota bookSide.orders)).addLevels
        prices := by
  obtain ⟨prices, swept⟩ := wf.swept engine
  exact ⟨prices, swept.engine⟩

theorem matchOrder_updates (wf : bookSide.Wf symbol side) (engine : MatchingEngine) :
    (bookSide.matchOrder engine).2.2 =
      sweepUpdates engine.quota bookSide.levels.bookCont.entries := by
  obtain ⟨prices, swept⟩ := wf.swept engine
  exact swept.updates.trans (List.nil_append _)

theorem matched_levels (wf : bookSide.Wf symbol side) (none : engine.removeLevels = []) :
    (bookSide.matched engine).levels.symbol = bookSide.levels.symbol ∧
      (bookSide.matched engine).levels.side = bookSide.levels.side ∧
      (bookSide.matched engine).levels.bookCont.entries =
        sweep engine.quota bookSide.levels.bookCont.entries := by
  obtain ⟨prices, swept⟩ := wf.swept engine
  have remembered : (bookSide.matchOrder engine).2.1.removeLevels = prices := by
    refine (congrArg MatchingEngine.removeLevels swept.engine).trans ?_
    show _ ++ prices = prices
    rw [MatchingEngine.absorb_removeLevels, none, List.nil_append]
  obtain ⟨symbolEq, sideEq, entries⟩ := foldl_removeIfEmpty
    { bookSide.levels with bookCont := (bookSide.levels.bookCont.mapAccum matchLevel (engine, [])).1 }
    (bookSide.matchOrder engine).2.2
  refine ⟨symbolEq, sideEq, ?_⟩
  rw [matched, removeMarkedOrderNodes_entries, remembered, ← swept.entries]
  refine congrArg (List.map (unlink prices)) (entries.trans ?_)
  rw [matchOrder_updates wf]
  rfl

theorem matched_wf (wf : bookSide.Wf symbol side) (none : engine.removeLevels = []) :
    (bookSide.matched engine).Wf symbol side := by
  obtain ⟨symbolEq, sideEq, entries⟩ := matched_levels wf none
  obtain ⟨levels, populated⟩ :=
    sweep_wf wf.levels engine.originalOrder.remaining_lt wf.populated
  refine ⟨symbolEq.trans wf.symbol_eq, sideEq.trans wf.side_eq, ?_, ?_⟩
  · rw [entries]
    exact levels
  · rw [entries]
    exact populated

/-- Matching on a side serves the ladder. -/
theorem matched_orders [DecidableRel CompFunc] (wf : bookSide.Wf symbol side)
    (none : engine.removeLevels = []) :
    (bookSide.matched engine).orders = Ladder.serve CompFunc engine.quota bookSide.orders := by
  rw [orders, (matched_levels wf none).2.2]
  exact ordersOf_sweep wf.levels engine.originalOrder.remaining_lt bookSide.levels.bookCont.sorted

theorem matched_reported (wf : bookSide.Wf symbol side) (none : engine.removeLevels = []) :
    Reported symbol side bookSide.orders (bookSide.matched engine).orders
      (bookSide.matchOrder engine).2.2 := by
  rw [matchOrder_updates wf, orders, orders, (matched_levels wf none).2.2]
  exact sweep_reported wf.levels engine.originalOrder.remaining_lt
    bookSide.levels.bookCont.nodup_keys wf.populated

end Match

end BookSide

end OrderForge
