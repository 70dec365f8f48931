/-
This file proves that a book side with pointers does what the side of the queues
does. The heap is housed when every level that was ever made has the fields of a
queue and the nodes of its cells, no node belongs to two levels, and the nodes are
all that is handed out. A call of one level keeps the others. The map of the side of
the queues is the image of the map of addresses, so a change at an address is a
change under its price, as long as no address is under two prices.
-/

import OrderForge.LevelRefinement
import OrderForge.LinkedBook
import OrderForge.SideServe

namespace OrderForge

/-! ### The levels in the heap -/

/-- Whether the levels that were made are those of some queues with some cells: no two levels have
a node in common, and the nodes are what the pool has handed out. -/
structure LevelHeap.Houses (heap : LevelHeap) (queues : PriceLvlPtr → PriceLevel)
    (cells : PriceLvlPtr → List Cell) (handed : List Slot) : Prop where
  accounted : heap.pool.allocator.Accounted handed
  shows : ∀ ptr (level : LinkedLevel), heap.levels[ptr]? = some level →
    level.Shows heap.pool.memory (cells ptr) (queues ptr)
  unmade : ∀ ptr, heap.levels.length ≤ ptr → cells ptr = []
  held : ∀ ptr, ∀ slot ∈ (cells ptr).map Prod.fst, slot ∈ handed
  owned : ∀ slot ∈ handed, ∃ ptr, slot ∈ (cells ptr).map Prod.fst
  apart : ∀ ptr other, ptr ≠ other → ∀ slot ∈ (cells ptr).map Prod.fst,
    slot ∉ (cells other).map Prod.fst

namespace LevelHeap

variable {heap : LevelHeap} {queues : PriceLvlPtr → PriceLevel} {cells : PriceLvlPtr → List Cell}
  {handed : List Slot}

theorem create_houses (nodeSize : { size : Nat // 0 < size }) (initialSize : Nat)
    (queues : PriceLvlPtr → PriceLevel) :
    Houses ⟨⟨nodeSize, PoolAllocator.create initialSize, fun _ => none⟩, []⟩ queues
      (fun _ => []) [] where
  accounted := PoolAllocator.create_accounted initialSize
  shows _ _ found := by cases found
  unmade _ _ := rfl
  held _ _ member := member
  owned _ member := (List.not_mem_nil member).elim
  apart _ _ _ _ member := (List.not_mem_nil member).elim

/-- A new level is a level without orders at an address that no level had. -/
theorem Houses.newLevel (houses : heap.Houses queues cells handed) (symbol : String)
    (price : Price) (side : Side) :
    (heap.newLevel (LinkedLevel.create symbol price side)).2.Houses
      (Function.update queues heap.levels.length (PriceLevel.create symbol price side)) cells
      handed where
  accounted := houses.accounted
  shows ptr level found := by
    rcases Nat.lt_trichotomy ptr heap.levels.length with less | same | more
    · rw [Function.update_of_ne less.ne]
      exact houses.shows ptr level ((List.getElem?_append_left less).symm.trans found)
    · subst same
      rw [Function.update_self, houses.unmade _ (Nat.le_refl _)]
      change (heap.levels ++ [_])[heap.levels.length]? = _ at found
      rw [List.getElem?_concat_length] at found
      cases found
      exact LinkedLevel.create_shows symbol price side heap.pool.memory
    · have none : (heap.levels ++ [LinkedLevel.create symbol price side])[ptr]? = none := by
        refine List.getElem?_eq_none ?_
        rw [List.length_append, List.length_singleton]
        exact more
      cases none.symm.trans found
  unmade ptr le := by
    change (heap.levels ++ [_]).length ≤ ptr at le
    rw [List.length_append] at le
    exact houses.unmade ptr (Nat.le_of_succ_le le)
  held := houses.held
  owned := houses.owned
  apart := houses.apart

/-- A call of one level leaves all others as they are. -/
theorem Houses.call (houses : heap.Houses queues cells handed) {ptr : PriceLvlPtr}
    {level : LinkedLevel} (found : heap.levels[ptr]? = some level) {Result : Type}
    (body : LinkedLevel → OrderPool → Option (OrderPool × LinkedLevel × Result))
    {larger : OrderPool} {changed : LinkedLevel} {result : Result} {next : List Cell}
    {left : List Slot} {queue : PriceLevel}
    (done : body level heap.pool = some (larger, changed, result))
    (operated : LinkedLevel.Operated heap.pool (cells ptr) handed larger changed next left queue) :
    heap.call ptr body = some (⟨larger, heap.levels.set ptr changed⟩, result) ∧
      Houses ⟨larger, heap.levels.set ptr changed⟩ (Function.update queues ptr queue)
        (Function.update cells ptr next) left := by
  have less : ptr < heap.levels.length := (List.getElem?_eq_some_iff.mp found).1
  have frame : ∀ other, other ≠ ptr → ∀ slot ∈ (cells other).map Prod.fst, slot ∈ left ∧
      slot ∉ next.map Prod.fst ∧ larger.memory slot = heap.pool.memory slot :=
    fun other different slot member => operated.served.frame slot (houses.held other slot member)
      (houses.apart other ptr different slot member)
  refine ⟨?_, operated.served.accounted, fun other held inLevels => ?_, fun other le => ?_,
    fun other slot member => ?_, fun slot member => ?_,
    fun first second different slot member => ?_⟩
  · rw [LevelHeap.call, found, Option.bind_some, done, Option.map_some]
  · by_cases same : other = ptr
    · subst same
      rw [Function.update_self, Function.update_self]
      rw [List.getElem?_set_self less] at inLevels
      cases inLevels
      exact operated.shows
    · rw [Function.update_of_ne same, Function.update_of_ne same]
      rw [List.getElem?_set_ne (Ne.symm same)] at inLevels
      exact (houses.shows other held inLevels).congr fun slot member =>
        (frame other same slot member).2.2
  · rw [List.length_set] at le
    rw [Function.update_of_ne (less.trans_le le).ne']
    exact houses.unmade other le
  · by_cases same : other = ptr
    · subst same
      rw [Function.update_self] at member
      exact operated.served.held slot member
    · rw [Function.update_of_ne same] at member
      exact (frame other same slot member).1
  · rcases operated.owned slot member with own | ⟨old, away⟩
    · exact ⟨ptr, by rw [Function.update_self]; exact own⟩
    · obtain ⟨other, inOther⟩ := houses.owned slot old
      have different : other ≠ ptr := fun same => away (same ▸ inOther)
      exact ⟨other, by rw [Function.update_of_ne different]; exact inOther⟩
  · by_cases firstSame : first = ptr
    · subst firstSame
      rw [Function.update_self] at member
      rw [Function.update_of_ne different.symm]
      exact fun inSecond => (frame second different.symm slot inSecond).2.1 member
    · rw [Function.update_of_ne firstSame] at member
      by_cases secondSame : second = ptr
      · subst secondSame
        rw [Function.update_self]
        exact (frame first firstSame slot member).2.1
      · rw [Function.update_of_ne secondSame]
        exact houses.apart first second different slot member

end LevelHeap

/-! ### What an operation leaves of the other levels -/

/-- What an operation on the levels at some addresses leaves: levels at other addresses stand for
what they stood for, an address that is used afterwards was used before or is new, and the levels
that are used no more are those that `Gone` describes. -/
structure Evolves (Gone : PriceLevel → Prop) (heap after : LevelHeap)
    (queues changed : PriceLvlPtr → PriceLevel) (pointers next : List PriceLvlPtr) : Prop where
  grown : heap.levels.length ≤ after.levels.length
  others : ∀ ptr < heap.levels.length, ptr ∉ pointers → changed ptr = queues ptr
  origin : ∀ ptr ∈ next, ptr ∈ pointers ∨ heap.levels.length ≤ ptr
  made : ∀ ptr ∈ next, ptr < after.levels.length
  distinct : next.Nodup
  gone : ∀ ptr < after.levels.length, ptr ∉ next →
    ptr < heap.levels.length ∧ ptr ∉ pointers ∨ Gone (changed ptr)

namespace Evolves

variable {Gone : PriceLevel → Prop} {heap middle after : LevelHeap}
  {queues changed last : PriceLvlPtr → PriceLevel} {pointers next final : List PriceLvlPtr}

theorem trans (first : Evolves Gone heap middle queues changed pointers next)
    (second : Evolves Gone middle after changed last next final) :
    Evolves Gone heap after queues last pointers final where
  grown := first.grown.trans second.grown
  others ptr less outside := by
    have away : ptr ∉ next := fun member =>
      (first.origin ptr member).elim outside (Nat.not_le_of_lt less)
    exact (second.others ptr (less.trans_le first.grown) away).trans (first.others ptr less outside)
  origin ptr member := by
    rcases second.origin ptr member with inNext | new
    · exact first.origin ptr inNext
    · exact Or.inr (first.grown.trans new)
  made := second.made
  distinct := second.distinct
  gone ptr less outside := by
    rcases second.gone ptr less outside with ⟨old, away⟩ | gone
    · rw [second.others ptr old away]
      exact first.gone ptr old away
    · exact Or.inr gone

/-- Nothing happens. -/
theorem refl (made : ∀ ptr ∈ pointers, ptr < heap.levels.length) (distinct : pointers.Nodup) :
    Evolves Gone heap heap queues queues pointers pointers :=
  ⟨Nat.le_refl _, fun _ _ _ => rfl, fun _ => Or.inl, made, distinct,
    fun _ less outside => Or.inl ⟨less, outside⟩⟩

/-- A call of the level at one of the addresses. -/
theorem call (made : ∀ ptr ∈ pointers, ptr < heap.levels.length) (distinct : pointers.Nodup)
    {ptr : PriceLvlPtr} (member : ptr ∈ pointers) (pool : OrderPool) (level : LinkedLevel)
    (queue : PriceLevel) :
    Evolves Gone heap ⟨pool, heap.levels.set ptr level⟩ queues (Function.update queues ptr queue)
      pointers pointers where
  grown := by rw [List.length_set]
  others other _ outside :=
    Function.update_of_ne (ne_of_mem_of_not_mem member outside).symm queue queues
  origin other := Or.inl
  made := by
    rw [List.length_set]
    exact made
  distinct := distinct
  gone other less outside := by
    rw [List.length_set] at less
    exact Or.inl ⟨less, outside⟩

/-- Some of the addresses are used no more. -/
theorem drop (evolves : Evolves Gone heap after queues changed pointers next)
    (sublist : final.Sublist next) (gone : ∀ ptr ∈ next, ptr ∉ final → Gone (changed ptr)) :
    Evolves Gone heap after queues changed pointers final where
  grown := evolves.grown
  others := evolves.others
  origin ptr member := evolves.origin ptr (sublist.subset member)
  made ptr member := evolves.made ptr (sublist.subset member)
  distinct := evolves.distinct.sublist sublist
  gone ptr less outside := by
    by_cases member : ptr ∈ next
    · exact Or.inr (gone ptr member outside)
    · exact evolves.gone ptr less member

end Evolves

/-! ### The map of a side -/

namespace LinkedDataMap

variable {CompFunc : Price → Price → Prop} {linked : LinkedDataMap CompFunc}
  {levels : OrderBookDataMap CompFunc} {Gone : PriceLevel → Prop} {heap : LevelHeap}
  {queues : PriceLvlPtr → PriceLevel}
  {cells : PriceLvlPtr → List Cell} {handed : List Slot}

/-- The addresses in a map. -/
def pointers (linked : LinkedDataMap CompFunc) : List PriceLvlPtr :=
  linked.bookCont.entries.map Prod.snd

/-- Whether a map of addresses stands for a map of levels. -/
structure Shows (linked : LinkedDataMap CompFunc) (queues : PriceLvlPtr → PriceLevel)
    (levels : OrderBookDataMap CompFunc) : Prop where
  symbol : linked.symbol = levels.symbol
  side : linked.side = levels.side
  image : FlatMap.Image id queues linked.bookCont levels.bookCont

theorem Shows.congr {changed : PriceLvlPtr → PriceLevel} (shows : linked.Shows queues levels)
    (same : ∀ ptr ∈ linked.pointers, changed ptr = queues ptr) : linked.Shows changed levels where
  symbol := shows.symbol
  side := shows.side
  image := shows.image.congr fun _ member => same _ (List.mem_map_of_mem member)

variable [IsStrictTotalOrder Price CompFunc]

/-- Changing the level at the address of a price changes the level of the price. -/
theorem Shows.setBookLevel (shows : linked.Shows queues levels) (distinct : linked.pointers.Nodup)
    {price : Price} {ptr : PriceLvlPtr} (member : (price, ptr) ∈ linked.bookCont.entries)
    (queue : PriceLevel) :
    linked.Shows (Function.update queues ptr queue) (levels.setBookLevel price queue) where
  symbol := shows.symbol
  side := shows.side
  image := shows.image.update linked.bookCont.nodup_keys distinct (fun _ => id) member
    fun _ => queue

omit [IsStrictTotalOrder Price CompFunc] in
theorem Shows.removeBookLevel (shows : linked.Shows queues levels) (price : Price) :
    (linked.removeBookLevel price).Shows queues (levels.removeBookLevel price) where
  symbol := shows.symbol
  side := shows.side
  image := shows.image.erase Function.injective_id price

omit [IsStrictTotalOrder Price CompFunc] in
theorem removeBookLevel_sublist (linked : LinkedDataMap CompFunc) (price : Price) :
    (linked.removeBookLevel price).pointers.Sublist linked.pointers :=
  List.filter_sublist.map Prod.snd

omit [IsStrictTotalOrder Price CompFunc] in
/-- Only the address of the price goes. -/
theorem mem_of_removeBookLevel {price : Price} {ptr : PriceLvlPtr}
    (member : ptr ∈ linked.pointers) (gone : ptr ∉ (linked.removeBookLevel price).pointers) :
    (price, ptr) ∈ linked.bookCont.entries := by
  obtain ⟨⟨key, other⟩, inEntries, rfl⟩ := List.mem_map.mp member
  by_cases same : key = price
  · exact same ▸ inEntries
  · exact absurd (List.mem_map_of_mem (f := Prod.snd) (List.mem_filter.mpr
      ⟨inEntries, decide_eq_true same⟩)) gone

variable [DecidableRel CompFunc]

/-- The addresses after an insertion. -/
theorem pointers_emplace (linked : LinkedDataMap CompFunc) (price : Price) (ptr : PriceLvlPtr) :
    ((linked.bookCont.emplace price ptr).entries.map Prod.snd).Perm (ptr :: linked.pointers) ∨
      (linked.bookCont.emplace price ptr).entries.map Prod.snd = linked.pointers :=
  (FlatMap.insertEntry_perm (price, ptr) linked.bookCont.entries).imp
    (fun perm => perm.map Prod.snd) (congrArg (List.map Prod.snd))

/-- A level of a price that has none is made at a new address. -/
theorem Shows.addBookLevel (shows : linked.Shows queues levels)
    (houses : heap.Houses queues cells handed)
    (made : ∀ ptr ∈ linked.pointers, ptr < heap.levels.length) (distinct : linked.pointers.Nodup)
    {price : Price} (absent : linked.bookCont.find? price = none) :
    ∃ after larger ptr changed, linked.addBookLevel heap price = (after, larger, ptr) ∧
      after.Houses changed cells handed ∧ larger.Shows changed (levels.addBookLevel price).1 ∧
      (price, ptr) ∈ larger.bookCont.entries ∧ changed ptr = (levels.addBookLevel price).2 ∧
      Evolves Gone heap after queues changed linked.pointers larger.pointers := by
  let ptr := heap.levels.length
  let level := PriceLevel.create linked.symbol price linked.side
  let bookCont := linked.bookCont.emplace price ptr
  have absentLevel : levels.bookCont.find? price = none := by
    have found := shows.image.find? Function.injective_id price
    rw [absent] at found
    exact found
  have found : bookCont.find? price = some ptr := by
    rw [FlatMap.find?_emplace, if_pos rfl, absent, Option.getD_none]
  have result : linked.addBookLevel heap price =
      ((heap.newLevel (LinkedLevel.create linked.symbol price linked.side)).2,
        { linked with bookCont }, ptr) := by
    dsimp only [LinkedDataMap.addBookLevel, LevelHeap.newLevel]
    rw [found, Option.getD_some]
  have levelResult : levels.addBookLevel price =
      ({ levels with bookCont := levels.bookCont.emplace price level }, level) := by
    dsimp only [OrderBookDataMap.addBookLevel]
    rw [← shows.symbol, ← shows.side, FlatMap.find?_emplace, if_pos rfl, absentLevel]
    rfl
  have away : ∀ other ∈ linked.pointers, other ≠ ptr := fun other member => (made other member).ne
  have image : FlatMap.Image id (Function.update queues ptr level) bookCont
      (levels.bookCont.emplace price level) := by
    have moved : FlatMap.Image id (Function.update queues ptr level) linked.bookCont
        levels.bookCont := shows.image.congr fun entry member =>
      Function.update_of_ne (away _ (List.mem_map_of_mem member)) level queues
    have inserted := moved.emplace price (fun _ _ => ⟨Iff.rfl, Iff.rfl⟩) ptr
    rw [Function.update_self] at inserted
    exact inserted
  have pointers := pointers_emplace linked price ptr
  have own : ptr ∈ bookCont.entries.map Prod.snd :=
    List.mem_map_of_mem ((FlatMap.find?_eq_some _).mp found)
  have used : ∀ other, other ∈ bookCont.entries.map Prod.snd ↔
      other = ptr ∨ other ∈ linked.pointers := by
    intro other
    rcases pointers with perm | unchanged
    · exact perm.mem_iff.trans List.mem_cons
    · rw [unchanged] at own ⊢
      exact ⟨Or.inr, fun either => either.elim (fun same => same ▸ own) id⟩
  rw [result, levelResult]
  refine ⟨_, _, ptr, Function.update queues ptr level, rfl, houses.newLevel _ _ _,
    ⟨shows.symbol, shows.side, image⟩, (FlatMap.find?_eq_some _).mp found,
    Function.update_self .., List.length_append ▸ Nat.le_add_right _ _,
    fun other less _ => Function.update_of_ne less.ne level queues, fun other member => ?_,
    fun other member => ?_, ?_, fun other less outside => ?_⟩
  · exact ((used other).mp member).elim (fun new => Or.inr (Nat.le_of_eq new.symm)) Or.inl
  · change other < (heap.levels ++ [_]).length
    rw [List.length_append, List.length_singleton]
    rcases (used other).mp member with new | old
    · exact Nat.lt_succ_of_le (Nat.le_of_eq new)
    · exact Nat.lt_succ_of_lt (made other old)
  · rcases pointers with perm | unchanged
    · exact perm.nodup_iff.mpr
        (List.nodup_cons.mpr ⟨fun member => away ptr member rfl, distinct⟩)
    · exact (congrArg List.Nodup unchanged).mpr distinct
  · change other < (heap.levels ++ [_]).length at less
    rw [List.length_append, List.length_singleton] at less
    have away := not_or.mp (mt (used other).mpr outside)
    exact Or.inl ⟨Nat.lt_of_le_of_ne (Nat.le_of_lt_succ less) away.1, away.2⟩

/-- The level of a price is found at an address, or is made there. -/
theorem Shows.getBookLevel (shows : linked.Shows queues levels)
    (houses : heap.Houses queues cells handed)
    (made : ∀ ptr ∈ linked.pointers, ptr < heap.levels.length) (distinct : linked.pointers.Nodup)
    (price : Price) :
    ∃ after larger ptr changed, linked.getBookLevel heap price = (after, larger, ptr) ∧
      after.Houses changed cells handed ∧ larger.Shows changed (levels.getBookLevel price).1 ∧
      (price, ptr) ∈ larger.bookCont.entries ∧ changed ptr = (levels.getBookLevel price).2 ∧
      Evolves Gone heap after queues changed linked.pointers larger.pointers := by
  have found := shows.image.find? Function.injective_id price
  simp only [id] at found
  rw [LinkedDataMap.getBookLevel, OrderBookDataMap.getBookLevel, found]
  cases held : linked.bookCont.find? price with
  | some ptr =>
    exact ⟨heap, linked, ptr, queues, rfl, houses, shows, (FlatMap.find?_eq_some _).mp held, rfl,
      Evolves.refl made distinct⟩
  | none => exact shows.addBookLevel houses made distinct held

/-- An operation on the level of a price, which is looked up first, leaves what it makes of the
level under the price. -/
theorem Shows.callBookLevel (shows : linked.Shows queues levels)
    (houses : heap.Houses queues cells handed)
    (made : ∀ ptr ∈ linked.pointers, ptr < heap.levels.length) (distinct : linked.pointers.Nodup)
    (price : Price) (Gone : PriceLevel → Prop) {Result : Type}
    {body : LinkedLevel → OrderPool → Option (OrderPool × LinkedLevel × Result)} {result : Result}
    {queue : PriceLevel}
    (operates : ∀ {level : LinkedLevel} {pool : OrderPool} {cells : List Cell}
      {handed : List Slot}, level.Shows pool.memory cells (levels.getBookLevel price).2 →
      pool.allocator.Accounted handed → (∀ slot ∈ cells.map Prod.fst, slot ∈ handed) →
      ∃ larger changed next left, body level pool = some (larger, changed, result) ∧
        LinkedLevel.Operated pool cells handed larger changed next left queue) :
    ∃ middle larger ptr after changed next left,
      linked.getBookLevel heap price = (middle, larger, ptr) ∧
      middle.call ptr body = some (after, result) ∧ after.Houses changed next left ∧
      larger.Shows changed ((levels.getBookLevel price).1.setBookLevel price queue) ∧
      (price, ptr) ∈ larger.bookCont.entries ∧ changed ptr = queue ∧
      Evolves Gone heap after queues changed linked.pointers larger.pointers := by
  obtain ⟨middle, larger, ptr, found, got, housed, shown, member, same, evolves⟩ :=
    shows.getBookLevel houses made distinct price
  have used : ptr ∈ larger.pointers := List.mem_map_of_mem (f := Prod.snd) member
  obtain ⟨level, inLevels⟩ : ∃ level, middle.levels[ptr]? = some level :=
    ⟨_, List.getElem?_eq_getElem (evolves.made ptr used)⟩
  obtain ⟨pool, changed, next, left, done, operated⟩ :=
    operates (same ▸ housed.shows ptr level inLevels) housed.accounted (housed.held ptr)
  obtain ⟨called, left⟩ := housed.call inLevels body done operated
  exact ⟨middle, larger, ptr, _, _, _, _, got, called, left,
    shown.setBookLevel evolves.distinct member queue, member, Function.update_self ..,
    evolves.trans (Evolves.call evolves.made evolves.distinct used _ _ _)⟩

end LinkedDataMap

/-! ### Adding and cancelling on a side -/

/-- What became of a level that a side has dropped: it lost an order or served a quota, or its
counter was zero while it held orders. -/
inductive PriceLevel.Drained (old : PriceLevel) : PriceLevel → Prop
  | removed (id : OrderId) (zero : (old.removeOrder id).1.totalQty = 0) :
      Drained old (old.removeOrder id).1
  | served (quota : Nat) (small : quota < 2 ^ 64) (zero : (old.serve quota).totalQty = 0) :
      Drained old (old.serve quota)
  | overlooked (level : PriceLevel) (zero : old.totalQty = 0) (populated : old.orders ≠ []) :
      Drained old level

/-- Whether a level is what became of a level of a side. -/
def BookSide.Dropped {CompFunc : Price → Price → Prop} (bookSide : BookSide CompFunc)
    (level : PriceLevel) : Prop :=
  ∃ price, (bookSide.levelAt price).Drained level

namespace LinkedSide

variable {CompFunc : Price → Price → Prop} {linked : LinkedSide CompFunc}
  {bookSide : BookSide CompFunc} {heap : LevelHeap}
  {queues : PriceLvlPtr → PriceLevel} {cells : PriceLvlPtr → List Cell} {handed : List Slot}

/-- The addresses of the levels of a side. -/
def pointers (linked : LinkedSide CompFunc) : List PriceLvlPtr := linked.levels.pointers

/-- Whether a side with pointers stands for a side. -/
structure Shows (linked : LinkedSide CompFunc) (queues : PriceLvlPtr → PriceLevel)
    (bookSide : BookSide CompFunc) : Prop where
  side : linked.side = bookSide.side
  levels : linked.levels.Shows queues bookSide.levels

variable [DecidableRel CompFunc] [IsStrictTotalOrder Price CompFunc]

theorem Shows.addOrder (shows : linked.Shows queues bookSide)
    (houses : heap.Houses queues cells handed)
    (made : ∀ ptr ∈ linked.pointers, ptr < heap.levels.length) (distinct : linked.pointers.Nodup)
    (order : Order) (Gone : PriceLevel → Prop) :
    ∃ after larger changed next left,
      linked.addOrder heap order = some (after, larger, (bookSide.addOrder order).2) ∧
      after.Houses changed next left ∧ larger.Shows changed (bookSide.addOrder order).1 ∧
      Evolves Gone heap after queues changed linked.pointers larger.pointers := by
  obtain ⟨middle, larger, ptr, after, changed, next, left, got, called, housed, shown, -, -,
      evolves⟩ := shows.levels.callBookLevel houses made distinct order.price Gone
    fun level accounted held => level.addOrder accounted held order
  refine ⟨after, { linked with levels := larger }, changed, next, left, ?_, housed,
    ⟨shows.side, shown⟩, evolves⟩
  rw [LinkedSide.addOrder, got]
  dsimp only
  rw [called]
  rfl

omit [IsStrictTotalOrder Price CompFunc] [DecidableRel CompFunc] in
/-- The second pass over the updates of an operation. -/
theorem removeIfEmpty_shows {levels : LinkedDataMap CompFunc} {held : OrderBookDataMap CompFunc}
    (shows : levels.Shows queues held) (update : PriceLevelUpdate) :
    (removeIfEmpty levels update).Shows queues (BookSide.removeIfEmpty held update) := by
  rw [removeIfEmpty, BookSide.removeIfEmpty]
  split_ifs
  · exact shows.removeBookLevel update.price
  · exact shows

omit [IsStrictTotalOrder Price CompFunc] [DecidableRel CompFunc] in
theorem removeIfEmpty_sublist (levels : LinkedDataMap CompFunc) (update : PriceLevelUpdate) :
    (removeIfEmpty levels update).pointers.Sublist levels.pointers := by
  rw [removeIfEmpty]
  split_ifs
  · exact levels.removeBookLevel_sublist update.price
  · exact List.Sublist.refl _

omit [IsStrictTotalOrder Price CompFunc] [DecidableRel CompFunc] in
/-- An address goes only when the update of its price reports that nothing is left. -/
theorem mem_of_removeIfEmpty {levels : LinkedDataMap CompFunc} {update : PriceLevelUpdate}
    {ptr : PriceLvlPtr} (member : ptr ∈ levels.pointers)
    (gone : ptr ∉ (removeIfEmpty levels update).pointers) :
    (update.price, ptr) ∈ levels.bookCont.entries ∧ update.totalQuantity = 0 := by
  rw [removeIfEmpty] at gone
  split_ifs at gone with zero
  · exact ⟨LinkedDataMap.mem_of_removeBookLevel member gone, ScaledInt.value_injective zero⟩
  · exact absurd member gone

theorem Shows.removeOrder {symbol : String} {side : Side} (shows : linked.Shows queues bookSide)
    (wf : bookSide.Wf symbol side) (houses : heap.Houses queues cells handed)
    (made : ∀ ptr ∈ linked.pointers, ptr < heap.levels.length) (distinct : linked.pointers.Nodup)
    (helper : FindOrderHelper) :
    ∃ after larger changed next left,
      linked.removeOrder heap helper = some (after, larger, (bookSide.removeOrder helper).2) ∧
      after.Houses changed next left ∧ larger.Shows changed (bookSide.removeOrder helper).1 ∧
      Evolves bookSide.Dropped heap after queues changed linked.pointers larger.pointers := by
  have level : (bookSide.levels.getBookLevel helper.price).2 = bookSide.levelAt helper.price :=
    BookSide.getBookLevel_level bookSide.levels helper.price
  have unmarked : (bookSide.levels.getBookLevel helper.price).2.ordersToBeRemoved = [] :=
    level ▸ (wf.levelAt_wf helper.price).unmarked
  obtain ⟨middle, larger, ptr, after, changed, next, left, got, called, housed, shown, member,
      same, evolves⟩ := shows.levels.callBookLevel houses made distinct helper.price
      bookSide.Dropped fun level accounted held =>
        level.removeOrder unmarked accounted held helper.orderId
  let update := (bookSide.removeOrder helper).2
  refine ⟨after, { linked with levels := removeIfEmpty larger update }, changed, next, left, ?_,
    housed, ⟨shows.side, removeIfEmpty_shows shown update⟩,
    evolves.drop (removeIfEmpty_sublist larger update) fun other inLarger gone => ?_⟩
  · rw [LinkedSide.removeOrder, got]
    dsimp only
    rw [called]
    rfl
  · obtain ⟨inEntries, zero⟩ := mem_of_removeIfEmpty inLarger gone
    have reported : update = (bookSide.levelAfterRemove helper).update :=
      bookSide.removeOrder_update helper
    have price : update.price = helper.price := by
      rw [reported]
      exact (wf.levelAfterRemove_wf helper).price_eq
    rw [price] at inEntries
    cases List.inj_on_of_nodup_map larger.bookCont.nodup_keys inEntries member rfl
    rw [reported] at zero
    rw [same, level]
    exact ⟨helper.price, PriceLevel.Drained.removed helper.orderId zero⟩

end LinkedSide

end OrderForge
