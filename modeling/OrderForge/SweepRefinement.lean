/-
This file proves that a match on a book side with pointers does what the match on
the side of the queues does. The loop matches one level after the other; the orders
it has changed are in nodes of the levels it has passed, so the pointers to them
still lead there when the later levels have been matched. Then the levels that
report a zero counter leave the map, and the marked nodes are unlinked in the levels
whose addresses the engine has remembered, whether the map still has them or not.

An address that leaves the map is never used again. The result says of each what
had become of its level.
-/

import OrderForge.SideRefinement

namespace OrderForge

namespace LinkedSide

variable {CompFunc : Price → Price → Prop} {linked : LinkedSide CompFunc}
  {bookSide : BookSide CompFunc} {heap : LevelHeap} {queues : PriceLvlPtr → PriceLevel}
  {cells : PriceLvlPtr → List Cell} {handed : List Slot}
  [DecidableRel CompFunc] [IsStrictTotalOrder Price CompFunc]

/-! ### The loop over the levels -/

section Sweep

variable {symbol : String} {side : Side} {scan : Scan}
  {state : MatchingEngine × List PriceLevelUpdate}

/-- What the loop leaves of the levels of some entries. An update that it appends reports a level
it has matched, and the address of the level is remembered unless the counter is as it was. -/
structure Swept (scan after : Scan) (queues changed : PriceLvlPtr → PriceLevel)
    (cells next : PriceLvlPtr → List Cell) (handed : List Slot)
    (entries picked : List (Price × PriceLvlPtr)) (state : MatchingEngine × List PriceLevelUpdate)
    (result : List (Price × PriceLevel) × MatchingEngine × List PriceLevelUpdate) : Prop where
  houses : after.heap.Houses changed next handed
  length : after.heap.levels.length = scan.heap.levels.length
  others : ∀ ptr ∉ entries.map Prod.snd, changed ptr = queues ptr
  slots : ∀ ptr, (next ptr).map Prod.fst = (cells ptr).map Prod.fst
  levels : entries.map (Prod.map id changed) = result.1
  engine : after.engine.Shows after.heap.pool.memory result.2.1
  modified : ∀ slot ∈ after.engine.modifiedOrders, slot ∈ scan.engine.modifiedOrders ∨
    ∃ ptr ∈ entries.map Prod.snd, slot ∈ (cells ptr).map Prod.fst
  updates : after.updates = result.2.2
  sublist : picked.Sublist entries
  linkedRemoveLevels :
    after.engine.removeLevels = scan.engine.removeLevels ++ picked.map Prod.snd
  removeLevels : result.2.1.removeLevels = state.1.removeLevels ++ picked.map Prod.fst
  reported : ∀ update ∈ result.2.2, update ∈ state.2 ∨ ∃ entry ∈ entries,
    update.price = entry.1 ∧ update.totalQuantity = (changed entry.2).totalQty ∧
    (∃ engine, changed entry.2 = ((queues entry.2).matchOrder engine).1) ∧
    (entry ∈ picked ∨ (changed entry.2).totalQty = (queues entry.2).totalQty)

theorem matchLevel_swept (houses : scan.heap.Houses queues cells handed)
    (entry : Price × PriceLvlPtr) (made : entry.2 < scan.heap.levels.length)
    (wf : (queues entry.2).Wf symbol side entry.1)
    (shows : scan.engine.Shows scan.heap.pool.memory state.1) (updates : scan.updates = state.2)
    (fresh : ∀ slot ∈ scan.engine.modifiedOrders, slot ∉ (cells entry.2).map Prod.fst) :
    ∃ after changed next picked, matchLevel scan entry = some after ∧
      Swept scan after queues changed cells next handed [entry] picked state
        (Keyed.mapAccum BookSide.matchLevel state [(entry.1, queues entry.2)]) := by
  rw [Keyed.mapAccum_cons, matchLevel, BookSide.matchLevel, shows.hasRemainingQty]
  by_cases wanted : state.1.hasRemainingQty = true
  · rw [if_pos wanted, if_pos wanted]
    let matched := (queues entry.2).matchOrder state.1
    obtain ⟨level, found⟩ : ∃ level, scan.heap.levels[entry.2]? = some level :=
      ⟨_, List.getElem?_eq_getElem made⟩
    obtain ⟨larger, changed, after, next, done, operated, slots, engaged⟩ :=
      (houses.shows _ level found).matchOrder wf.unmarked houses.accounted (houses.held _) shows
        fresh entry.2
    obtain ⟨called, housed⟩ := houses.call found
      (fun level pool => level.matchOrder entry.2 pool scan.engine) done operated
    have result : Function.update queues entry.2 matched.1 entry.2 = matched.1 :=
      Function.update_self ..
    have reported (picked : List (Price × PriceLvlPtr))
        (kept : entry ∈ picked ∨ matched.1.totalQty = (queues entry.2).totalQty) :
        ∀ update ∈ state.2 ++ [matched.2.2], update ∈ state.2 ∨ ∃ other ∈ [entry],
          update.price = other.1 ∧
          update.totalQuantity = (Function.update queues entry.2 matched.1 other.2).totalQty ∧
          (∃ engine, Function.update queues entry.2 matched.1 other.2 =
            ((queues other.2).matchOrder engine).1) ∧
          (other ∈ picked ∨ (Function.update queues entry.2 matched.1 other.2).totalQty =
            (queues other.2).totalQty) := by
      intro update member
      refine (List.mem_append.mp member).imp_right fun own => ⟨entry, List.mem_singleton_self _, ?_⟩
      rw [List.mem_singleton.mp own, result]
      exact ⟨wf.price_eq, rfl, ⟨state.1, rfl⟩, kept⟩
    have swept (picked : List (Price × PriceLvlPtr)) (sublist : picked.Sublist [entry])
        (linkedRemoveLevels : after.removeLevels =
          scan.engine.removeLevels ++ picked.map Prod.snd)
        (removeLevels : matched.2.1.removeLevels = state.1.removeLevels ++ picked.map Prod.fst)
        (kept : entry ∈ picked ∨ matched.1.totalQty = (queues entry.2).totalQty) :
        Swept scan ⟨⟨larger, scan.heap.levels.set entry.2 changed⟩, after,
            scan.updates ++ [matched.2.2]⟩ queues (Function.update queues entry.2 matched.1) cells
          (Function.update cells entry.2 next) handed [entry] picked state
          ([(entry.1, matched.1)], matched.2.1, state.2 ++ [matched.2.2]) :=
      { houses := housed
        length := List.length_set
        others := fun ptr outside =>
          Function.update_of_ne (List.ne_of_not_mem_cons outside) _ _
        slots := fun ptr => by
          by_cases same : ptr = entry.2
          · rw [same, Function.update_self, slots]
          · rw [Function.update_of_ne same]
        levels := by
          rw [List.map_singleton, Prod.map, result]
          rfl
        engine := engaged.shows
        modified := fun slot member => (engaged.modified slot member).imp_right fun own =>
          ⟨entry.2, List.mem_singleton_self _, own⟩
        updates := congrArg (· ++ _) updates
        sublist := sublist
        linkedRemoveLevels := linkedRemoveLevels
        removeLevels := removeLevels
        reported := reported picked kept }
    rw [called, Option.map_some]
    rcases engaged.removeLevels with ⟨counter, linkedSame, same⟩ | ⟨linkedOwn, own⟩
    · exact ⟨_, _, _, [], rfl, swept [] (List.nil_sublist _)
        (linkedSame.trans (List.append_nil _).symm) (same.trans (List.append_nil _).symm)
        (Or.inr counter)⟩
    · rw [wf.price_eq] at own
      exact ⟨_, _, _, [entry], rfl, swept [entry] (List.Sublist.refl _) linkedOwn own
        (Or.inl (List.mem_singleton_self _))⟩
  · rw [if_neg wanted, if_neg wanted]
    refine ⟨scan, queues, cells, [], rfl, ?_⟩
    exact {
      houses := houses
      length := rfl
      others := fun _ _ => rfl
      slots := fun _ => rfl
      levels := rfl
      engine := shows
      modified := fun _ => Or.inl
      updates := updates
      sublist := List.nil_sublist _
      linkedRemoveLevels := (List.append_nil _).symm
      removeLevels := (List.append_nil _).symm
      reported := fun _ => Or.inl }

/-- Some entries after others that they have no address in common with. -/
theorem Swept.append {middle after : Scan} {changed last : PriceLvlPtr → PriceLevel}
    {next final : PriceLvlPtr → List Cell} {first second picked others : List (Price × PriceLvlPtr)}
    {result : List (Price × PriceLevel) × MatchingEngine × List PriceLevelUpdate}
    {rest : List (Price × PriceLevel) × MatchingEngine × List PriceLevelUpdate}
    (one : Swept scan middle queues changed cells next handed first picked state result)
    (two : Swept middle after changed last next final handed second others result.2 rest)
    (apart : ∀ ptr ∈ first.map Prod.snd, ptr ∉ second.map Prod.snd) :
    Swept scan after queues last cells final handed (first ++ second) (picked ++ others) state
      (result.1 ++ rest.1, rest.2) where
  houses := two.houses
  length := two.length.trans one.length
  others ptr outside := by
    rw [List.map_append, List.mem_append, not_or] at outside
    exact (two.others ptr outside.2).trans (one.others ptr outside.1)
  slots ptr := (two.slots ptr).trans (one.slots ptr)
  levels := by
    have same : first.map (Prod.map id last) = first.map (Prod.map id changed) := by
      refine List.map_congr_left fun entry member => ?_
      rw [Prod.map, Prod.map, two.others _ (apart _ (List.mem_map_of_mem member))]
    rw [List.map_append, same, one.levels, two.levels]
  engine := two.engine
  modified slot member := by
    rcases two.modified slot member with old | ⟨ptr, inSecond, own⟩
    · refine (one.modified slot old).imp_right fun ⟨ptr, inFirst, own⟩ => ⟨ptr, ?_, own⟩
      rw [List.map_append]
      exact List.mem_append_left _ inFirst
    · rw [List.map_append]
      exact Or.inr ⟨ptr, List.mem_append_right _ inSecond, one.slots ptr ▸ own⟩
  updates := two.updates
  sublist := one.sublist.append two.sublist
  linkedRemoveLevels := by
    rw [two.linkedRemoveLevels, one.linkedRemoveLevels, List.map_append, List.append_assoc]
  removeLevels := by
    rw [two.removeLevels, one.removeLevels, List.map_append, List.append_assoc]
  reported update member := by
    rcases two.reported update member with old | ⟨entry, inSecond, price, total, matched, kept⟩
    · refine (one.reported update old).imp_right ?_
      rintro ⟨entry, inFirst, price, total, matched, kept⟩
      rw [← two.others _ (apart _ (List.mem_map_of_mem inFirst))] at total matched kept
      exact ⟨entry, List.mem_append_left _ inFirst, price, total, matched,
        kept.imp_left (List.mem_append_left _)⟩
    · have away : entry.2 ∉ first.map Prod.snd := fun inFirst =>
        apart _ inFirst (List.mem_map_of_mem inSecond)
      rw [one.others _ away] at matched kept
      exact Or.inr ⟨entry, List.mem_append_right _ inSecond, price, total, matched,
        kept.imp_left (List.mem_append_right _)⟩

theorem foldlM_matchLevel (entries : List (Price × PriceLvlPtr)) (scan : Scan)
    (state : MatchingEngine × List PriceLevelUpdate)
    (houses : scan.heap.Houses queues cells handed)
    (made : ∀ ptr ∈ entries.map Prod.snd, ptr < scan.heap.levels.length)
    (distinct : (entries.map Prod.snd).Nodup)
    (wf : ∀ entry ∈ entries, (queues entry.2).Wf symbol side entry.1)
    (shows : scan.engine.Shows scan.heap.pool.memory state.1) (updates : scan.updates = state.2)
    (fresh : ∀ slot ∈ scan.engine.modifiedOrders, ∀ ptr ∈ entries.map Prod.snd,
      slot ∉ (cells ptr).map Prod.fst) :
    ∃ after changed next picked, entries.foldlM matchLevel scan = some after ∧
      Swept scan after queues changed cells next handed entries picked state
        (Keyed.mapAccum BookSide.matchLevel state (entries.map (Prod.map id queues))) := by
  induction entries generalizing scan queues cells state with
  | nil =>
    exact ⟨scan, queues, cells, [], rfl, {
      houses := houses
      length := rfl
      others := fun _ _ => rfl
      slots := fun _ => rfl
      levels := rfl
      engine := shows
      modified := fun _ => Or.inl
      updates := updates
      sublist := List.Sublist.refl _
      linkedRemoveLevels := (List.append_nil _).symm
      removeLevels := (List.append_nil _).symm
      reported := fun _ => Or.inl }⟩
  | cons entry rest inductionHypothesis =>
    obtain ⟨foreign, restDistinct⟩ := List.nodup_cons.mp distinct
    obtain ⟨ownMade, restMade⟩ := List.forall_mem_cons.mp made
    obtain ⟨ownWf, restWf⟩ := List.forall_mem_cons.mp wf
    obtain ⟨middle, changed, next, picked, one, swept⟩ := matchLevel_swept houses entry ownMade
      ownWf shows updates fun slot member => fresh slot member entry.2 List.mem_cons_self
    have kept : ∀ ptr ∈ rest.map Prod.snd, changed ptr = queues ptr := fun ptr member =>
      swept.others ptr (List.not_mem_cons_of_ne_of_not_mem
        (ne_of_mem_of_not_mem member foreign) List.not_mem_nil)
    have same : rest.map (Prod.map id changed) = rest.map (Prod.map id queues) :=
      List.map_congr_left fun other member => by
        rw [Prod.map, Prod.map, kept _ (List.mem_map_of_mem member)]
    have restFresh : ∀ slot ∈ middle.engine.modifiedOrders, ∀ ptr ∈ rest.map Prod.snd,
        slot ∉ (next ptr).map Prod.fst := by
      intro slot member ptr inRest
      rw [swept.slots]
      rcases swept.modified slot member with old | ⟨other, inEntry, own⟩
      · exact fresh slot old ptr (List.mem_cons_of_mem _ inRest)
      · have different : other ≠ ptr := by
          rw [List.mem_singleton.mp inEntry]
          exact (ne_of_mem_of_not_mem inRest foreign).symm
        exact houses.apart other ptr different slot own
    obtain ⟨after, last, final, others, done, sweptRest⟩ := inductionHypothesis _ _ swept.houses
      (fun ptr member => swept.length ▸ restMade ptr member) restDistinct
      (fun other member => by rw [kept _ (List.mem_map_of_mem member)]; exact restWf other member)
      swept.engine swept.updates restFresh
    rw [same] at sweptRest
    refine ⟨after, last, final, picked ++ others, ?_, ?_⟩
    · rw [List.foldlM_cons, one]
      exact done
    · exact swept.append sweptRest fun ptr member inRest =>
        foreign (List.mem_singleton.mp member ▸ inRest)

end Sweep

/-! ### The passes after the loop -/

section Passes

variable {levels : LinkedDataMap CompFunc} {held : OrderBookDataMap CompFunc}

omit [IsStrictTotalOrder Price CompFunc] [DecidableRel CompFunc] in
theorem foldl_removeIfEmpty_shows (shows : levels.Shows queues held)
    (updates : List PriceLevelUpdate) :
    (updates.foldl removeIfEmpty levels).Shows queues
      (updates.foldl BookSide.removeIfEmpty held) := by
  induction updates generalizing levels held with
  | nil => exact shows
  | cons update rest inductionHypothesis =>
    exact inductionHypothesis (removeIfEmpty_shows shows update)

omit [IsStrictTotalOrder Price CompFunc] [DecidableRel CompFunc] in
theorem foldl_removeIfEmpty_sublist (levels : LinkedDataMap CompFunc)
    (updates : List PriceLevelUpdate) :
    (updates.foldl removeIfEmpty levels).pointers.Sublist levels.pointers ∧
      (updates.foldl removeIfEmpty levels).bookCont.entries.Sublist levels.bookCont.entries := by
  induction updates generalizing levels with
  | nil => exact ⟨List.Sublist.refl _, List.Sublist.refl _⟩
  | cons update rest inductionHypothesis =>
    obtain ⟨pointers, entries⟩ := inductionHypothesis (removeIfEmpty levels update)
    refine ⟨pointers.trans (removeIfEmpty_sublist levels update), entries.trans ?_⟩
    rw [removeIfEmpty]
    split_ifs
    · exact List.filter_sublist
    · exact List.Sublist.refl _

omit [IsStrictTotalOrder Price CompFunc] [DecidableRel CompFunc] in
theorem mem_of_foldl_removeIfEmpty {updates : List PriceLevelUpdate} {ptr : PriceLvlPtr}
    (member : ptr ∈ levels.pointers)
    (gone : ptr ∉ (updates.foldl removeIfEmpty levels).pointers) :
    ∃ update ∈ updates, (update.price, ptr) ∈ levels.bookCont.entries ∧
      update.totalQuantity = 0 := by
  induction updates generalizing levels with
  | nil => exact absurd member gone
  | cons update rest inductionHypothesis =>
    by_cases still : ptr ∈ (removeIfEmpty levels update).pointers
    · obtain ⟨other, inRest, inEntries, zero⟩ := inductionHypothesis still gone
      exact ⟨other, List.mem_cons_of_mem _ inRest,
        (foldl_removeIfEmpty_sublist levels [update]).2.subset inEntries, zero⟩
    · exact ⟨update, List.mem_cons_self, mem_of_removeIfEmpty member still⟩

omit [IsStrictTotalOrder Price CompFunc] [DecidableRel CompFunc] in
/-- Unlinking the marked nodes of some levels, each under its price. -/
theorem foldlM_removeMarkedOrderNodes {base picked : List (Price × PriceLvlPtr)}
    (shows : levels.Shows queues held) (houses : heap.Houses queues cells handed)
    (keys : (base.map Prod.fst).Nodup) (addresses : (base.map Prod.snd).Nodup)
    (made : ∀ ptr ∈ base.map Prod.snd, ptr < heap.levels.length)
    (subset : ∀ entry ∈ levels.bookCont.entries, entry ∈ base)
    (member : ∀ entry ∈ picked, entry ∈ base) :
    ∃ after changed next left,
      (picked.map Prod.snd).foldlM LevelHeap.removeMarkedOrderNodes heap = some after ∧
      after.Houses changed next left ∧ after.levels.length = heap.levels.length ∧
      levels.Shows changed { held with
        bookCont := (picked.map Prod.fst).foldl (fun bookCont price =>
          bookCont.modify price PriceLevel.removeMarkedOrderNodes) held.bookCont } ∧
      ∀ ptr, changed ptr =
        if ptr ∈ picked.map Prod.snd then (queues ptr).removeMarkedOrderNodes else queues ptr := by
  induction picked generalizing heap queues cells handed held with
  | nil => exact ⟨heap, queues, cells, handed, rfl, houses, rfl, shows, fun _ => rfl⟩
  | cons entry rest inductionHypothesis =>
    obtain ⟨own, others⟩ := List.forall_mem_cons.mp member
    obtain ⟨level, found⟩ : ∃ level, heap.levels[entry.2]? = some level :=
      ⟨_, List.getElem?_eq_getElem (made _ (List.mem_map_of_mem own))⟩
    obtain ⟨larger, changed, next, left, done, operated⟩ :=
      (houses.shows _ level found).removeMarkedOrderNodes houses.accounted (houses.held _)
    obtain ⟨called, housed⟩ := houses.call found
      (fun level pool => (level.removeMarkedOrderNodes pool).map fun result =>
        (result.1, result.2, ())) (congrArg (Option.map _) done) operated
    have unlinked : heap.removeMarkedOrderNodes entry.2 =
        some ⟨larger, heap.levels.set entry.2 changed⟩ := congrArg (Option.map Prod.fst) called
    have length : (heap.levels.set entry.2 changed).length = heap.levels.length := List.length_set
    have image := shows.image.update keys addresses subset own PriceLevel.removeMarkedOrderNodes
    have shown : levels.Shows
        (Function.update queues entry.2 (queues entry.2).removeMarkedOrderNodes) { held with
          bookCont := held.bookCont.modify entry.1 PriceLevel.removeMarkedOrderNodes } :=
      ⟨shows.symbol, shows.side, image⟩
    obtain ⟨after, last, final, rest, loop, lastHoused, lastLength, lastShown, content⟩ :=
      inductionHypothesis shown housed (fun ptr member => length ▸ made ptr member) others
    refine ⟨after, last, final, rest, ?_, lastHoused, lastLength.trans length, lastShown,
      fun ptr => ?_⟩
    · rw [List.map_cons, List.foldlM_cons, unlinked]
      exact loop
    · rw [content]
      by_cases same : ptr = entry.2
      · subst same
        rw [Function.update_self, List.map_cons, if_pos List.mem_cons_self]
        exact ite_self _
      · simp only [Function.update_of_ne same, List.map_cons, List.mem_cons, same, false_or]

end Passes

/-! ### A match on a side -/

/-- The pointers to orders lead to them one by one. -/
theorem mapM_ordersAt {pool : OrderPool} {pointers : List Slot} {orders : List Order}
    (same : LinkedEngine.ordersAt pool.memory pointers = orders.map some) :
    (pointers.mapM fun pointer => (pool.read (some pointer)).map fun node => node.content.2) =
      some orders := by
  induction pointers generalizing orders with
  | nil =>
    rw [List.map_eq_nil_iff.mp same.symm]
    rfl
  | cons pointer rest inductionHypothesis =>
    cases orders with
    | nil => cases same
    | cons order others =>
      obtain ⟨head, tail⟩ := List.cons.inj same
      dsimp only at head
      rw [List.mapM_cons, inductionHypothesis tail]
      change Option.bind ((pool.memory pointer).map fun node => node.content.2) _ = _
      rw [head]
      rfl

omit [DecidableRel CompFunc] in
theorem Shows.matchOrder {symbol : String} {side : Side} (shows : linked.Shows queues bookSide)
    (wf : bookSide.Wf symbol side) (houses : heap.Houses queues cells handed)
    (made : ∀ ptr ∈ linked.pointers, ptr < heap.levels.length) (distinct : linked.pointers.Nodup)
    (order : Order) (tradeIds : IdGenerator) :
    ∃ middle larger engine after changed next left,
      linked.matchOrder heap (LinkedEngine.create order tradeIds) = some (middle, larger, engine,
        (bookSide.matchOrder (MatchingEngine.create order tradeIds)).2.2) ∧
      engine.Shows middle.pool.memory
        (bookSide.matchOrder (MatchingEngine.create order tradeIds)).2.1 ∧
      engine.removeLevels.foldlM LevelHeap.removeMarkedOrderNodes middle = some after ∧
      after.Houses changed next left ∧
      larger.Shows changed
        ((bookSide.matchOrder (MatchingEngine.create order tradeIds)).1.removeMarkedOrderNodes
          (bookSide.matchOrder (MatchingEngine.create order tradeIds)).2.1.removeLevels) ∧
      Evolves bookSide.Dropped heap after queues changed linked.pointers larger.pointers := by
  let entries := linked.levels.bookCont.entries
  have image : bookSide.levels.bookCont.entries = entries.map (Prod.map id queues) :=
    shows.levels.image
  have keys : (entries.map Prod.fst).Nodup := linked.levels.bookCont.nodup_keys
  have entryWf : ∀ entry ∈ entries, (queues entry.2).Wf symbol side entry.1 := fun entry member =>
    wf.levels (entry.1, queues entry.2) (image ▸ List.mem_map_of_mem member)
  obtain ⟨scan, changed, next, picked, done, swept⟩ := foldlM_matchLevel entries
    ⟨heap, LinkedEngine.create order tradeIds, []⟩ (MatchingEngine.create order tradeIds, [])
    houses made distinct entryWf (LinkedEngine.create_shows order tradeIds) rfl
    (fun _ member => (List.not_mem_nil member).elim)
  rw [← image] at swept
  let updates := (bookSide.matchOrder (MatchingEngine.create order tradeIds)).2.2
  have shownFirst : linked.levels.Shows changed { bookSide.levels with
      bookCont := (bookSide.levels.bookCont.mapAccum BookSide.matchLevel
        (MatchingEngine.create order tradeIds, [])).1 } :=
    ⟨shows.levels.symbol, shows.levels.side, swept.levels.symm⟩
  have shownSecond := foldl_removeIfEmpty_shows shownFirst updates
  have sublist := foldl_removeIfEmpty_sublist linked.levels updates
  obtain ⟨after, last, final, left, unlinked, housed, length, shownThird, content⟩ :=
    foldlM_removeMarkedOrderNodes shownSecond swept.houses keys distinct
      (fun ptr member => swept.length ▸ made ptr member)
      (fun entry member => sublist.2.subset member)
      (fun entry member => swept.sublist.subset member)
  refine ⟨scan.heap, { linked with levels := updates.foldl removeIfEmpty linked.levels },
    scan.engine, after, last, final, left, ?_, swept.engine, ?_, housed, ?_, ?_⟩
  · rw [LinkedSide.matchOrder, done, Option.map_some, swept.updates]
    rfl
  · rw [swept.linkedRemoveLevels]
    exact unlinked
  · refine ⟨shows.side, ?_⟩
    have prices : (bookSide.matchOrder (MatchingEngine.create order tradeIds)).2.1.removeLevels =
        picked.map Prod.fst := swept.removeLevels
    rw [prices]
    exact shownThird
  · have made' : ∀ ptr ∈ linked.pointers, ptr < after.levels.length := fun ptr member =>
      length ▸ swept.length ▸ made ptr member
    have others : ∀ ptr ∉ linked.pointers, last ptr = queues ptr := by
      intro ptr outside
      have unpicked : ptr ∉ picked.map Prod.snd := fun member =>
        outside ((swept.sublist.map Prod.snd).subset member)
      rw [content, if_neg unpicked]
      exact swept.others ptr outside
    have evolves : Evolves bookSide.Dropped heap after queues last linked.pointers
        linked.pointers := by
      refine ⟨?_, fun ptr _ => others ptr, fun _ => Or.inl, made', distinct,
        fun ptr less away => ?_⟩
      · rw [length, swept.length]
      · rw [length, swept.length] at less
        exact Or.inl ⟨less, away⟩
    refine evolves.drop sublist.1 fun ptr member gone => ?_
    obtain ⟨update, published, inEntries, zero⟩ := mem_of_foldl_removeIfEmpty member gone
    obtain ⟨entry, member, price, total, ⟨engine, matched⟩, kept⟩ :=
      (swept.reported update published).resolve_left List.not_mem_nil
    cases List.inj_on_of_nodup_map keys member inEntries price.symm
    have level := entryWf _ member
    have inSide : (update.price, queues ptr) ∈ bookSide.levels.bookCont.entries :=
      image ▸ List.mem_map_of_mem (f := Prod.map id queues) member
    have old : bookSide.levelAt update.price = queues ptr := by
      rw [BookSide.levelAt, (FlatMap.find?_eq_some _).mpr inSide, Option.getD_some]
    refine ⟨update.price, ?_⟩
    rw [old, content]
    by_cases remembered : ptr ∈ picked.map Prod.snd
    · rw [if_pos remembered, matched, PriceLevel.matchOrder_removeMarked level.unmarked]
      refine PriceLevel.Drained.served _ engine.originalOrder.remaining_lt ?_
      rw [← PriceLevel.matchOrder_totalQty, ← matched, ← total, zero]
    · rw [if_neg remembered]
      have counter := kept.resolve_left fun inPicked => remembered (List.mem_map_of_mem inPicked)
      exact PriceLevel.Drained.overlooked _ (counter.symm.trans (total.symm.trans zero))
        (wf.populated _ inSide)

end LinkedSide

end OrderForge
