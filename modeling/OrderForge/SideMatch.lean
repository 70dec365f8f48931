/-
This file reduces the match of a book side to a sweep of its levels. The source
works in three passes: the first matches the levels from the best one on, the
second erases the levels whose published total is zero, and the third, back in the
book, unlinks the filled nodes of the levels whose counter changed. A sweep does
all of it in one pass: each visited level serves what is still wanted and stays
unless its counter is then zero.
-/

import OrderForge.BookSide
import OrderForge.LevelInvariant

namespace OrderForge

namespace BookSide

/-- The orders of a list of levels, in the order in which a match visits them. -/
def ordersOf (entries : List (Price × PriceLevel)) : List Order :=
  entries.flatMap fun entry => entry.2.orders

@[simp]
theorem ordersOf_cons (entry : Price × PriceLevel) (rest : List (Price × PriceLevel)) :
    ordersOf (entry :: rest) = entry.2.orders ++ ordersOf rest := rfl

/-- The levels after a quota was served greedily. -/
def sweep : Nat → List (Price × PriceLevel) → List (Price × PriceLevel)
  | _, [] => []
  | quota, entry :: rest =>
    if quota = 0 then entry :: rest
    else
      (if (entry.2.serve quota).totalQty = 0 then [] else [(entry.1, entry.2.serve quota)]) ++
        sweep (quota - entry.2.quantity) rest

/-- The updates of the levels a sweep visits. -/
def sweepUpdates : Nat → List (Price × PriceLevel) → List PriceLevelUpdate
  | _, [] => []
  | quota, entry :: rest =>
    if quota = 0 then []
    else (entry.2.serve quota).update :: sweepUpdates (quota - entry.2.quantity) rest

@[simp]
theorem sweep_zero (entries : List (Price × PriceLevel)) : sweep 0 entries = entries := by
  cases entries <;> rfl

@[simp]
theorem sweepUpdates_zero (entries : List (Price × PriceLevel)) : sweepUpdates 0 entries = [] := by
  cases entries <;> rfl

theorem sweep_cons {quota : Nat} (wanted : 0 < quota) (entry : Price × PriceLevel)
    (rest : List (Price × PriceLevel)) :
    sweep quota (entry :: rest) =
      (if (entry.2.serve quota).totalQty = 0 then [] else [(entry.1, entry.2.serve quota)]) ++
        sweep (quota - entry.2.quantity) rest := if_neg wanted.ne'

theorem sweepUpdates_cons {quota : Nat} (wanted : 0 < quota) (entry : Price × PriceLevel)
    (rest : List (Price × PriceLevel)) :
    sweepUpdates quota (entry :: rest) =
      (entry.2.serve quota).update :: sweepUpdates (quota - entry.2.quantity) rest :=
  if_neg wanted.ne'

/-! ### The second and the third pass -/

/-- Whether the second pass leaves a level in the map. -/
def kept (updates : List PriceLevelUpdate) (entry : Price × PriceLevel) : Bool :=
  ∀ update ∈ updates, update.price = entry.1 → update.totalQuantity ≠ 0

/-- What the third pass makes of a level. -/
def unlink (prices : List Price) (entry : Price × PriceLevel) : Price × PriceLevel :=
  if entry.1 ∈ prices then (entry.1, entry.2.removeMarkedOrderNodes) else entry

theorem kept_nil (entries : List (Price × PriceLevel)) : entries.filter (kept []) = entries :=
  List.filter_eq_self.mpr fun _ _ => by simp [kept]

theorem kept_cons_of_ne {update : PriceLevelUpdate} {entry : Price × PriceLevel}
    (other : update.price ≠ entry.1) (updates : List PriceLevelUpdate) :
    kept (update :: updates) entry = kept updates entry := by
  simp [kept, other]

theorem unlink_of_mem {prices : List Price} {entry : Price × PriceLevel}
    (member : entry.1 ∈ prices) :
    unlink prices entry = (entry.1, entry.2.removeMarkedOrderNodes) := if_pos member

theorem unlink_append_of_ne {first second : List Price} {entry : Price × PriceLevel}
    (fresh : entry.1 ∉ first) : unlink (first ++ second) entry = unlink second entry := by
  simp [unlink, fresh]

section Passes

variable {CompFunc : Price → Price → Prop}

theorem removeIfEmpty_of_zero (levels : OrderBookDataMap CompFunc) {update : PriceLevelUpdate}
    (zero : update.totalQuantity = 0) :
    removeIfEmpty levels update = levels.removeBookLevel update.price :=
  if_pos (congrArg ScaledInt.value zero)

theorem removeIfEmpty_of_ne (levels : OrderBookDataMap CompFunc) {update : PriceLevelUpdate}
    (live : update.totalQuantity ≠ 0) : removeIfEmpty levels update = levels :=
  if_neg fun gone => live (ScaledInt.value_injective gone)

theorem foldl_removeIfEmpty (levels : OrderBookDataMap CompFunc)
    (updates : List PriceLevelUpdate) :
    (updates.foldl removeIfEmpty levels).symbol = levels.symbol ∧
      (updates.foldl removeIfEmpty levels).side = levels.side ∧
      (updates.foldl removeIfEmpty levels).bookCont.entries =
        levels.bookCont.entries.filter (kept updates) := by
  induction updates generalizing levels with
  | nil => exact ⟨rfl, rfl, (kept_nil _).symm⟩
  | cons update rest inductionHypothesis =>
    obtain ⟨symbol, side, entries⟩ := inductionHypothesis (removeIfEmpty levels update)
    rw [List.foldl_cons, symbol, side, entries]
    by_cases zero : update.totalQuantity = 0
    · rw [removeIfEmpty_of_zero _ zero]
      refine ⟨rfl, rfl, ?_⟩
      rw [OrderBookDataMap.removeBookLevel, FlatMap.erase, List.filter_filter]
      refine List.filter_congr fun entry _ => ?_
      by_cases same : update.price = entry.1
      · simp [kept, zero, same]
      · rw [kept_cons_of_ne same, decide_eq_true (Ne.symm same), Bool.and_true]
    · rw [removeIfEmpty_of_ne _ zero]
      refine ⟨rfl, rfl, List.filter_congr fun entry _ => ?_⟩
      simp [kept, zero]

theorem removeMarkedOrderNodes_entries (bookSide : BookSide CompFunc) (prices : List Price) :
    (bookSide.removeMarkedOrderNodes prices).levels.bookCont.entries =
      bookSide.levels.bookCont.entries.map (unlink prices) :=
  FlatMap.entries_foldl_modify _ _ fun _ => rfl

end Passes

/-! ### The first pass -/

/-- What the three passes do to a list of levels: the engine absorbs what a greedy visit of all
their orders takes, the published updates are those of the sweep, and what the second and the
third pass leave of the first one's result is the sweep. -/
structure Swept (state : MatchingEngine × List PriceLevelUpdate)
    (entries : List (Price × PriceLevel))
    (result : List (Price × PriceLevel) × MatchingEngine × List PriceLevelUpdate)
    (prices : List Price) : Prop where
  prices_mem : ∀ price ∈ prices, price ∈ entries.map Prod.fst
  engine : result.2.1 = (state.1.absorb
    (Greedy.taken Order.remaining state.1.quota (ordersOf entries))).addLevels prices
  updates : result.2.2 = state.2 ++ sweepUpdates state.1.quota entries
  entries : (result.1.filter (kept (sweepUpdates state.1.quota entries))).map (unlink prices) =
    sweep state.1.quota entries

theorem matchLevel_idle (state : MatchingEngine × List PriceLevelUpdate)
    (done : state.1.quota = 0) (entry : Price × PriceLevel) :
    matchLevel state entry = (entry.2, state) := by
  have idle : state.1.hasRemainingQty = false := by
    rw [← Bool.not_eq_true, MatchingEngine.hasRemainingQty_iff, done]
    exact Nat.lt_irrefl 0
  rw [matchLevel, idle, if_neg Bool.false_ne_true]

theorem matchLevel_visit (state : MatchingEngine × List PriceLevelUpdate)
    (wanted : 0 < state.1.quota) (entry : Price × PriceLevel)
    (unmarked : entry.2.ordersToBeRemoved = []) :
    matchLevel state entry =
      ((entry.2.matchOrder state.1).1, (entry.2.matchOrder state.1).2.1,
        state.2 ++ [(entry.2.serve state.1.quota).update]) := by
  rw [matchLevel, if_pos (state.1.hasRemainingQty_iff.mpr wanted),
    ← PriceLevel.matchOrder_update unmarked]

theorem swept_idle (state : MatchingEngine × List PriceLevelUpdate)
    (entries : List (Price × PriceLevel)) (done : state.1.quota = 0) :
    Swept state entries (entries, state) [] where
  prices_mem := by simp
  engine := by
    rw [done, Greedy.taken_zero, MatchingEngine.addLevels_nil]
    rfl
  updates := by rw [done, sweepUpdates_zero, List.append_nil]
  entries := by
    rw [done, sweepUpdates_zero, sweep_zero, kept_nil]
    exact List.map_id _

/-- Every level of a list is well-formed at its key. -/
def EntriesWf (symbol : String) (side : Side) (entries : List (Price × PriceLevel)) : Prop :=
  ∀ entry ∈ entries, entry.2.Wf symbol side entry.1

section Sweep

variable {symbol : String} {side : Side}

theorem sweepUpdates_mem {quota : Nat} {entries : List (Price × PriceLevel)}
    (wf : EntriesWf symbol side entries) {update : PriceLevelUpdate}
    (member : update ∈ sweepUpdates quota entries) : update.price ∈ entries.map Prod.fst := by
  induction entries generalizing quota with
  | nil => cases member
  | cons entry rest inductionHypothesis =>
    rw [List.map_cons]
    rcases Nat.eq_zero_or_pos quota with done | wanted
    · rw [done, sweepUpdates_zero] at member
      cases member
    rw [sweepUpdates_cons wanted] at member
    rcases List.mem_cons.mp member with head | tail
    · rw [head, ← (wf entry List.mem_cons_self).price_eq]
      exact List.mem_cons_self
    · exact List.mem_cons_of_mem _ (inductionHypothesis
        (fun other inRest => wf other (List.mem_cons_of_mem _ inRest)) tail)

/-- The prices at which a level is handed to the engine as one that has to unlink nodes. -/
def ownPrices (quota : Nat) (entry : Price × PriceLevel) : List Price :=
  if (entry.2.serve quota).totalQty ≠ entry.2.totalQty then [entry.2.price] else []

theorem mem_ownPrices {quota : Nat} {entry : Price × PriceLevel}
    (wf : entry.2.Wf symbol side entry.1) {price : Price} (member : price ∈ ownPrices quota entry) :
    price = entry.1 := by
  rw [← wf.price_eq]
  rw [ownPrices] at member
  split_ifs at member
  · exact List.mem_singleton.mp member
  · cases member

/-- The second pass leaves the levels at other prices to the later updates. -/
theorem filter_kept_cons {entries : List (Price × PriceLevel)} {update : PriceLevelUpdate}
    (away : ∀ entry ∈ entries, entry.1 ≠ update.price) (updates : List PriceLevelUpdate) :
    entries.filter (kept (update :: updates)) = entries.filter (kept updates) :=
  List.filter_congr fun entry member => kept_cons_of_ne (away entry member).symm _

/-- A level whose update is not zero is kept when no later update is at its price. -/
theorem kept_head {quota rest : Nat} {entry : Price × PriceLevel}
    {entries : List (Price × PriceLevel)} (wf : EntriesWf symbol side entries)
    (fresh : entry.1 ∉ entries.map Prod.fst) (level : PriceLevel)
    (left : (entry.2.serve quota).totalQty ≠ 0) :
    kept ((entry.2.serve quota).update :: sweepUpdates rest entries) (entry.1, level) = true := by
  rw [kept, decide_eq_true_iff]
  intro update member same
  rcases List.mem_cons.mp member with head | tail
  · rw [head]
    exact left
  · exact absurd (same ▸ sweepUpdates_mem wf tail) fresh

/-- The third pass unlinks the filled nodes of a level that the engine was handed. -/
theorem unlink_head (engine : MatchingEngine) {entry : Price × PriceLevel}
    (wf : entry.2.Wf symbol side entry.1) (prices : List Price)
    (changed : (entry.2.serve engine.quota).totalQty ≠ entry.2.totalQty) :
    unlink (ownPrices engine.quota entry ++ prices) (entry.1, (entry.2.matchOrder engine).1) =
      (entry.1, entry.2.serve engine.quota) := by
  rw [unlink_of_mem, PriceLevel.matchOrder_removeMarked wf.unmarked]
  rw [ownPrices, if_pos changed, wf.price_eq]
  exact List.mem_cons_self

/-- What the second and the third pass leave of a level and of those behind it. -/
theorem passes_cons (engine : MatchingEngine) (wanted : 0 < engine.quota)
    {entry : Price × PriceLevel} {rest after : List (Price × PriceLevel)} {prices : List Price}
    (wf : EntriesWf symbol side (entry :: rest)) (fresh : entry.1 ∉ rest.map Prod.fst)
    (keys : after.map Prod.fst = rest.map Prod.fst)
    (others : (after.filter (kept (sweepUpdates (engine.quota - entry.2.quantity) rest))).map
      (unlink prices) = sweep (engine.quota - entry.2.quantity) rest) :
    (((entry.1, (entry.2.matchOrder engine).1) :: after).filter
        (kept (sweepUpdates engine.quota (entry :: rest)))).map
        (unlink (ownPrices engine.quota entry ++ prices)) =
      sweep engine.quota (entry :: rest) := by
  have headWf : entry.2.Wf symbol side entry.1 := wf entry List.mem_cons_self
  have restWf : EntriesWf symbol side rest :=
    fun other inRest => wf other (List.mem_cons_of_mem _ inRest)
  have updatePrice : (entry.2.serve engine.quota).update.price = entry.1 := headWf.price_eq
  have untouched : ∀ other ∈ after, other.1 ≠ entry.1 := by
    intro other member same
    have key := List.mem_map_of_mem (f := Prod.fst) member
    rw [keys] at key
    exact fresh (same ▸ key)
  have restUnlinked : (after.filter (kept (sweepUpdates (engine.quota - entry.2.quantity)
        rest))).map (unlink (ownPrices engine.quota entry ++ prices)) =
      sweep (engine.quota - entry.2.quantity) rest := by
    rw [← others]
    refine List.map_congr_left fun other member => unlink_append_of_ne fun inOwn => ?_
    exact untouched other (List.mem_of_mem_filter member) (mem_ownPrices headWf inOwn)
  have restKept := filter_kept_cons (fun other member => updatePrice ▸ untouched other member)
    (sweepUpdates (engine.quota - entry.2.quantity) rest)
  rw [sweep_cons wanted, sweepUpdates_cons wanted]
  by_cases zero : (entry.2.serve engine.quota).totalQty = 0
  · rw [if_pos zero, List.nil_append, List.filter_cons_of_neg, restKept, restUnlinked]
    intro alive
    exact (decide_eq_true_iff.mp alive) _ List.mem_cons_self updatePrice zero
  · have changed : (entry.2.serve engine.quota).totalQty ≠ entry.2.totalQty := fun same =>
      zero (PriceLevel.serve_totalQty_eq_zero headWf engine.originalOrder.remaining_lt wanted same)
    rw [if_neg zero, List.filter_cons_of_pos (kept_head restWf fresh _ zero), List.map_cons,
      unlink_head engine headWf prices changed, restKept, restUnlinked, List.singleton_append]

theorem mapAccum_swept (state : MatchingEngine × List PriceLevelUpdate)
    (entries : List (Price × PriceLevel)) (distinct : (entries.map Prod.fst).Nodup)
    (wf : EntriesWf symbol side entries) :
    ∃ prices, Swept state entries (Keyed.mapAccum matchLevel state entries) prices := by
  induction entries generalizing state with
  | nil =>
    refine ⟨[], by simp, ?_, (List.append_nil _).symm, rfl⟩
    rw [MatchingEngine.addLevels_nil]
    rfl
  | cons entry rest inductionHypothesis =>
    rcases Nat.eq_zero_or_pos state.1.quota with done | wanted
    · rw [Keyed.mapAccum_idle _ _ (matchLevel_idle state done)]
      exact ⟨[], swept_idle state _ done⟩
    obtain ⟨fresh, restDistinct⟩ := List.nodup_cons.mp distinct
    have headWf : entry.2.Wf symbol side entry.1 := wf entry List.mem_cons_self
    have restWf : EntriesWf symbol side rest :=
      fun other inRest => wf other (List.mem_cons_of_mem _ inRest)
    rw [Keyed.mapAccum_cons, matchLevel_visit state wanted entry headWf.unmarked]
    let next : MatchingEngine × List PriceLevelUpdate :=
      ((entry.2.matchOrder state.1).2.1, state.2 ++ [(entry.2.serve state.1.quota).update])
    obtain ⟨prices, others⟩ := inductionHypothesis next restDistinct restWf
    have nextEngine : next.1 = (state.1.absorb (Greedy.taken Order.remaining state.1.quota
        entry.2.orders)).addLevels (ownPrices state.1.quota entry) :=
      entry.2.matchOrder_engine state.1
    have nextQuota : next.1.quota = state.1.quota - entry.2.quantity := by
      rw [nextEngine]
      exact state.1.quota_absorb_taken _
    have restEntries := others.entries
    rw [nextQuota] at restEntries
    refine ⟨ownPrices state.1.quota entry ++ prices, ?_, ?_, ?_,
      passes_cons state.1 wanted wf fresh (Keyed.mapAccum_keys ..) restEntries⟩
    · intro price member
      rcases List.mem_append.mp member with head | tail
      · exact mem_ownPrices headWf head ▸ List.mem_cons_self
      · exact List.mem_cons_of_mem _ (others.prices_mem price tail)
    · rw [others.engine, nextQuota, nextEngine, MatchingEngine.absorb_addLevels,
        MatchingEngine.addLevels_addLevels, ordersOf_cons, Greedy.taken_append,
        MatchingEngine.absorb_append]
      rfl
    · rw [others.updates, nextQuota, sweepUpdates_cons wanted, List.append_assoc]
      rfl

end Sweep

end BookSide

end OrderForge
