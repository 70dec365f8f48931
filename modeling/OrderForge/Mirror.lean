/-
This file holds the mirror up to the exchange: buy and sell change places and every
price changes its sign. Each operation of the source is written twice, once per side,
with opposite comparisons; the lemmas say of one operation after the other that the
two versions do the same thing to mirrored data. The one price without an opposite,
the least integer, is excluded wherever two prices are compared.
-/

import OrderForge.OrderBook

namespace OrderForge

/-! ### Prices -/

instance {Raw : Type} {scale : Nat} [Neg Raw] : Neg (ScaledInt Raw scale) :=
  ⟨fun number => ⟨-number.value⟩⟩

namespace Price

/-- A price whose sign can be changed. -/
def Reversible (price : Price) : Prop := price.value ≠ Int64.minValue

instance (price : Price) : Decidable (Reversible price) := inferInstanceAs (Decidable (_ ≠ _))

theorem neg_injective : Function.Injective (Neg.neg : Price → Price) := by
  intro first second same
  exact ScaledInt.value_injective (Int64.neg_inj.mp (congrArg ScaledInt.value same))

theorem toInt_neg {price : Price} (reversible : Reversible price) :
    (-price).value.toInt = -price.value.toInt := by
  have notLeast : price.value.toBitVec ≠ BitVec.intMin 64 := fun least =>
    reversible (Int64.toBitVec_inj.mp least)
  exact BitVec.toInt_neg_of_ne_intMin notLeast

/-- The order of prices turns around. -/
theorem neg_lt_neg_iff {first second : Price} (firstReversible : Reversible first)
    (secondReversible : Reversible second) : -first < -second ↔ second < first := by
  have mirrored : -first < -second ↔ _ := Int64.lt_iff_toInt_lt
  have plain : second < first ↔ _ := Int64.lt_iff_toInt_lt
  rw [mirrored, plain, toInt_neg firstReversible, toInt_neg secondReversible]
  omega

theorem neg_le_neg_iff {first second : Price} (firstReversible : Reversible first)
    (secondReversible : Reversible second) : -first ≤ -second ↔ second ≤ first := by
  rw [← not_lt, ← not_lt, neg_lt_neg_iff secondReversible firstReversible]

end Price

/-! ### Records -/

def Order.mirror (order : Order) : Order :=
  { order with price := -order.price, side := order.side.opposite }

def FindOrderHelper.mirror (helper : FindOrderHelper) : FindOrderHelper :=
  { helper with price := -helper.price, side := helper.side.opposite }

def Trade.mirror (trade : Trade) : Trade :=
  { trade with price := -trade.price, crossingSide := trade.crossingSide.opposite }

def LastTradeUpdate.mirror (update : LastTradeUpdate) : LastTradeUpdate :=
  { update with price := -update.price, side := update.side.opposite }

def PriceLevelUpdate.mirror (update : PriceLevelUpdate) : PriceLevelUpdate :=
  { update with price := -update.price, side := update.side.opposite }

def Event.mirror : Event → Event
  | privateOrderUpdate order => privateOrderUpdate order.mirror
  | privateTradesUpdate trade => privateTradesUpdate trade.mirror
  | publicOrderBookUpdate update => publicOrderBookUpdate update.mirror
  | publicLastTradeUpdate update => publicLastTradeUpdate update.mirror

/-! ### The matching engine -/

namespace MatchingEngine

def mirror (engine : MatchingEngine) : MatchingEngine where
  originalOrder := engine.originalOrder.mirror
  trades := engine.trades.map Trade.mirror
  modifiedOrders := engine.modifiedOrders.map Order.mirror
  removeLevels := engine.removeLevels.map Neg.neg
  tradeIds := engine.tradeIds

theorem mirror_matchOrder (engine : MatchingEngine) (order : Order) :
    engine.mirror.matchOrder order.mirror =
      Prod.map id (Prod.map Order.mirror mirror) (engine.matchOrder order) := by
  have recorded : engine.mirror.record order.mirror (engine.amountOf order) =
      (engine.record order (engine.amountOf order)).mirror := by
    simp only [record, mirror, List.map_append]
    rfl
  rw [matchOrder_eq, matchOrder_eq]
  exact congrArg (fun after => (engine.amountOf order,
    (order.fill (engine.amountOf order)).mirror, after)) recorded

theorem mirror_addLevel (engine : MatchingEngine) (price : Price) :
    engine.mirror.addLevelToRemoveOrders (-price) =
      (engine.addLevelToRemoveOrders price).mirror := by
  simp only [addLevelToRemoveOrders, mirror, List.map_append]
  rfl

end MatchingEngine

/-! ### Price levels -/

namespace PriceLevel

def mirror (level : PriceLevel) : PriceLevel where
  symbol := level.symbol
  price := -level.price
  totalQty := level.totalQty
  side := level.side.opposite
  orderCont := level.orderCont.map Order.mirror
  ordersToBeRemoved := level.ordersToBeRemoved

def Scan.mirror (scan : Scan) : Scan := { scan with engine := scan.engine.mirror }

theorem mirror_addOrder (level : PriceLevel) (order : Order) :
    level.mirror.addOrder order.mirror =
      Prod.map mirror PriceLevelUpdate.mirror (level.addOrder order) := by
  have contains : level.mirror.orderCont.contains order.mirror.orderId =
      level.orderCont.contains order.orderId := InsertionMap.contains_map _ _ _
  rw [addOrder, addOrder]
  by_cases fresh : level.orderCont.contains order.orderId = false
  · rw [dif_pos fresh, dif_pos (contains.trans fresh)]
    have pushed := InsertionMap.push_map Order.mirror level.orderCont order.orderId order fresh
      (contains.trans fresh)
    exact Prod.ext (PriceLevel.ext rfl rfl rfl rfl pushed rfl) rfl
  · rw [dif_neg fresh, dif_neg fun image => fresh (contains.symm.trans image)]
    rfl

theorem mirror_removeOrder (level : PriceLevel) (id : OrderId) :
    level.mirror.removeOrder id =
      Prod.map mirror PriceLevelUpdate.mirror (level.removeOrder id) := by
  have found : level.mirror.orderCont.find? id = (level.orderCont.find? id).map Order.mirror :=
    InsertionMap.find?_map _ _ _
  rw [removeOrder, removeOrder, found]
  cases level.orderCont.find? id with
  | none => rfl
  | some order =>
    have removed := InsertionMap.remove_map Order.mirror level.orderCont id
    exact Prod.ext (PriceLevel.ext rfl rfl rfl rfl removed rfl) rfl

theorem mirror_removeMarkedOrderNodes (level : PriceLevel) :
    level.mirror.removeMarkedOrderNodes = level.removeMarkedOrderNodes.mirror :=
  PriceLevel.ext rfl rfl rfl rfl
    (InsertionMap.foldl_remove_map Order.mirror level.orderCont level.ordersToBeRemoved) rfl

/-- One step of the loop over the queue, while the crossing order wants something. -/
theorem matchNode_wanted {scan : Scan} (wants : scan.engine.hasRemainingQty = true)
    (node : OrderId × Order) :
    matchNode scan node =
      ((scan.engine.matchOrder node.2).2.1, {
        totalQty := scan.totalQty - (scan.engine.matchOrder node.2).1
        ordersToBeRemoved :=
          if (scan.engine.matchOrder node.2).2.1.status = .FILLED then
            scan.ordersToBeRemoved ++ [node.1]
          else scan.ordersToBeRemoved
        engine := (scan.engine.matchOrder node.2).2.2 }) := if_pos wants

theorem mirror_matchNode (scan : Scan) (node : OrderId × Order) :
    matchNode scan.mirror (Prod.map id Order.mirror node) =
      Prod.map Order.mirror Scan.mirror (matchNode scan node) := by
  have same : scan.mirror.engine.hasRemainingQty = scan.engine.hasRemainingQty := rfl
  by_cases wants : scan.engine.hasRemainingQty = true
  · have matched : scan.mirror.engine.matchOrder (Prod.map id Order.mirror node).2 = _ :=
      MatchingEngine.mirror_matchOrder scan.engine node.2
    rw [matchNode_wanted (same.trans wants), matchNode_wanted wants, matched]
    generalize scan.engine.matchOrder node.2 = result
    rfl
  · rw [matchNode, matchNode, if_neg wants, if_neg (same ▸ wants)]
    rfl

theorem mirror_matchOrder (level : PriceLevel) (engine : MatchingEngine) :
    level.mirror.matchOrder engine.mirror =
      Prod.map mirror (Prod.map MatchingEngine.mirror PriceLevelUpdate.mirror)
        (level.matchOrder engine) := by
  have passed : level.mirror.orderCont.mapAccum matchNode
      ⟨level.mirror.totalQty, level.mirror.ordersToBeRemoved, engine.mirror⟩ = _ :=
    InsertionMap.mapAccum_map Order.mirror Scan.mirror mirror_matchNode level.orderCont
      ⟨level.totalQty, level.ordersToBeRemoved, engine⟩
  rw [matchOrder, matchOrder, passed]
  generalize level.orderCont.mapAccum matchNode
    ⟨level.totalQty, level.ordersToBeRemoved, engine⟩ = result
  obtain ⟨orderCont, scan⟩ := result
  simp only [Prod.map]
  by_cases changed : scan.totalQty ≠ level.totalQty
  · have other : scan.mirror.totalQty ≠ level.mirror.totalQty := changed
    have added := MatchingEngine.mirror_addLevel scan.engine level.price
    rw [if_pos changed, if_pos other]
    exact congrArg (fun after => (_, after, _)) added
  · have other : ¬ scan.mirror.totalQty ≠ level.mirror.totalQty := changed
    rw [if_neg changed, if_neg other]
    rfl

end PriceLevel

/-! ### Book sides -/

/-- Whether a comparison of prices is another one seen in the mirror. -/
def Reverses (CompFunc Other : Price → Price → Prop) : Prop :=
  ∀ first second, Price.Reversible first → Price.Reversible second →
    (Other (-first) (-second) ↔ CompFunc first second)

theorem reverses_less : Reverses (· < ·) (· > ·) := fun _ _ firstReversible secondReversible =>
  Price.neg_lt_neg_iff secondReversible firstReversible

theorem reverses_greater : Reverses (· > ·) (· < ·) :=
  fun _ _ firstReversible secondReversible =>
    Price.neg_lt_neg_iff firstReversible secondReversible

namespace OrderBookDataMap

variable {CompFunc Other : Price → Price → Prop}

/-- Whether the prices of all levels have opposites. -/
def Reversible (levels : OrderBookDataMap CompFunc) : Prop :=
  ∀ entry ∈ levels.bookCont.entries, Price.Reversible entry.1

/-- Whether the levels are those of another map seen in the mirror. -/
structure Mirrored (first : OrderBookDataMap CompFunc) (second : OrderBookDataMap Other) :
    Prop where
  symbol : second.symbol = first.symbol
  side : second.side = first.side.opposite
  bookCont : FlatMap.Image Neg.neg PriceLevel.mirror first.bookCont second.bookCont

variable {first : OrderBookDataMap CompFunc} {second : OrderBookDataMap Other}

theorem Mirrored.empty (mirrored : first.Mirrored second) : second.empty = first.empty :=
  mirrored.bookCont.isEmpty

theorem Mirrored.bestPrice (mirrored : first.Mirrored second) :
    second.bestPrice = first.bestPrice.map Neg.neg := by
  rw [OrderBookDataMap.bestPrice, mirrored.bookCont.begin?, Option.map_map,
    OrderBookDataMap.bestPrice, Option.map_map]
  rfl

theorem Mirrored.setBookLevel (mirrored : first.Mirrored second) (price : Price)
    (level : PriceLevel) :
    (first.setBookLevel price level).Mirrored (second.setBookLevel (-price) level.mirror) :=
  ⟨mirrored.symbol, mirrored.side, mirrored.bookCont.modify Price.neg_injective
    (fun _ => level) (fun _ => level.mirror) (fun _ => rfl) price⟩

theorem Mirrored.removeBookLevel (mirrored : first.Mirrored second) (price : Price) :
    (first.removeBookLevel price).Mirrored (second.removeBookLevel (-price)) :=
  ⟨mirrored.symbol, mirrored.side, mirrored.bookCont.erase Price.neg_injective price⟩

variable [DecidableRel CompFunc] [DecidableRel Other] [IsStrictTotalOrder Price CompFunc]
  [IsStrictTotalOrder Price Other]

theorem Mirrored.addBookLevel (mirrored : first.Mirrored second)
    (reverses : Reverses CompFunc Other) (reversible : first.Reversible) {price : Price}
    (own : Price.Reversible price) :
    (first.addBookLevel price).1.Mirrored (second.addBookLevel (-price)).1 ∧
      (second.addBookLevel (-price)).2 = (first.addBookLevel price).2.mirror := by
  have created : PriceLevel.create second.symbol (-price) second.side =
      (PriceLevel.create first.symbol price first.side).mirror := by
    rw [mirrored.symbol, mirrored.side]
    rfl
  have image := mirrored.bookCont.emplace price
    (fun entry member => ⟨reverses price entry.1 own (reversible entry member),
      reverses entry.1 price (reversible entry member) own⟩)
    (PriceLevel.create first.symbol price first.side)
  rw [← created] at image
  refine ⟨⟨mirrored.symbol, mirrored.side, image⟩, ?_⟩
  have found := image.find? Price.neg_injective price
  rw [created] at found
  rw [OrderBookDataMap.addBookLevel, OrderBookDataMap.addBookLevel]
  simp only [created, found]
  cases (first.bookCont.emplace price _).find? price <;> rfl

theorem Mirrored.getBookLevel (mirrored : first.Mirrored second)
    (reverses : Reverses CompFunc Other) (reversible : first.Reversible) {price : Price}
    (own : Price.Reversible price) :
    (first.getBookLevel price).1.Mirrored (second.getBookLevel (-price)).1 ∧
      (second.getBookLevel (-price)).2 = (first.getBookLevel price).2.mirror := by
  have found := mirrored.bookCont.find? Price.neg_injective price
  rw [OrderBookDataMap.getBookLevel, OrderBookDataMap.getBookLevel, found]
  cases first.bookCont.find? price with
  | none => exact mirrored.addBookLevel reverses reversible own
  | some level => exact ⟨mirrored, rfl⟩

end OrderBookDataMap

namespace BookSide

variable {CompFunc Other : Price → Price → Prop}

/-- Whether a side is another one seen in the mirror. -/
structure Mirrored (first : BookSide CompFunc) (second : BookSide Other) : Prop where
  side : second.side = first.side.opposite
  levels : first.levels.Mirrored second.levels

theorem create_mirrored (symbol : String) (side : Side) :
    (create symbol side : BookSide CompFunc).Mirrored
      (create symbol side.opposite : BookSide Other) := ⟨rfl, rfl, rfl, rfl⟩

variable {first : BookSide CompFunc} {second : BookSide Other}

theorem mirror_matchLevel (state : MatchingEngine × List PriceLevelUpdate)
    (entry : Price × PriceLevel) :
    matchLevel (Prod.map MatchingEngine.mirror (List.map PriceLevelUpdate.mirror) state)
        (Prod.map Neg.neg PriceLevel.mirror entry) =
      Prod.map PriceLevel.mirror
        (Prod.map MatchingEngine.mirror (List.map PriceLevelUpdate.mirror))
        (matchLevel state entry) := by
  have matched := PriceLevel.mirror_matchOrder entry.2 state.1
  have same : state.1.mirror.hasRemainingQty = state.1.hasRemainingQty := rfl
  rw [matchLevel, matchLevel]
  simp only [Prod.map, same]
  split_ifs
  · rw [matched]
    simp only [Prod.map, List.map_append]
    rfl
  · rfl

/-- A level erased when its update says that it is empty. -/
theorem Mirrored.removeIfEmpty {levels : OrderBookDataMap CompFunc}
    {others : OrderBookDataMap Other} (mirrored : levels.Mirrored others)
    (update : PriceLevelUpdate) :
    (removeIfEmpty levels update).Mirrored (removeIfEmpty others update.mirror) := by
  have same : update.mirror.totalQuantity = update.totalQuantity := rfl
  rw [BookSide.removeIfEmpty, BookSide.removeIfEmpty, same]
  split_ifs
  · exact mirrored.removeBookLevel update.price
  · exact mirrored

theorem Mirrored.foldl_removeIfEmpty {levels : OrderBookDataMap CompFunc}
    {others : OrderBookDataMap Other} (mirrored : levels.Mirrored others)
    (updates : List PriceLevelUpdate) :
    (updates.foldl BookSide.removeIfEmpty levels).Mirrored
      ((updates.map PriceLevelUpdate.mirror).foldl BookSide.removeIfEmpty others) := by
  induction updates generalizing levels others with
  | nil => exact mirrored
  | cons update rest inductionHypothesis =>
    exact inductionHypothesis (Mirrored.removeIfEmpty mirrored update)

theorem Mirrored.matchOrder (mirrored : first.Mirrored second) (engine : MatchingEngine) :
    (first.matchOrder engine).1.Mirrored (second.matchOrder engine.mirror).1 ∧
      (second.matchOrder engine.mirror).2 =
        Prod.map MatchingEngine.mirror (List.map PriceLevelUpdate.mirror)
          (first.matchOrder engine).2 := by
  obtain ⟨image, states⟩ := mirrored.levels.bookCont.mapAccum
    (Prod.map MatchingEngine.mirror (List.map PriceLevelUpdate.mirror)) mirror_matchLevel
    (engine, [])
  have swept : ({ first.levels with
        bookCont := (first.levels.bookCont.mapAccum matchLevel (engine, [])).1 } :
          OrderBookDataMap CompFunc).Mirrored { second.levels with
        bookCont := (second.levels.bookCont.mapAccum matchLevel (engine.mirror, [])).1 } :=
    ⟨mirrored.levels.symbol, mirrored.levels.side, image⟩
  have erased := Mirrored.foldl_removeIfEmpty swept
    (first.levels.bookCont.mapAccum matchLevel (engine, [])).2.2
  have updates : (second.levels.bookCont.mapAccum matchLevel (engine.mirror, [])).2.2 =
      (first.levels.bookCont.mapAccum matchLevel (engine, [])).2.2.map PriceLevelUpdate.mirror :=
    congrArg Prod.snd states
  rw [← updates] at erased
  exact ⟨⟨mirrored.side, erased⟩, states⟩

theorem Mirrored.removeMarkedOrderNodes (mirrored : first.Mirrored second) (prices : List Price) :
    (first.removeMarkedOrderNodes prices).Mirrored
      (second.removeMarkedOrderNodes (prices.map Neg.neg)) := by
  refine ⟨mirrored.side, mirrored.levels.symbol, mirrored.levels.side, ?_⟩
  have image := mirrored.levels.bookCont
  change FlatMap.Image _ _ (prices.foldl _ first.levels.bookCont)
    ((prices.map Neg.neg).foldl _ second.levels.bookCont)
  generalize first.levels.bookCont = bookCont at image ⊢
  generalize second.levels.bookCont = other at image ⊢
  induction prices generalizing bookCont other with
  | nil => exact image
  | cons price rest inductionHypothesis =>
    exact inductionHypothesis _ _ (image.modify Price.neg_injective _ _
      PriceLevel.mirror_removeMarkedOrderNodes price)

variable [DecidableRel CompFunc] [DecidableRel Other] [IsStrictTotalOrder Price CompFunc]
  [IsStrictTotalOrder Price Other]

/-- A level changed in place, on a side and on its mirror image. -/
theorem Mirrored.changeLevel (mirrored : first.Mirrored second)
    (reverses : Reverses CompFunc Other) (reversible : first.levels.Reversible) {price : Price}
    (own : Price.Reversible price) (change other : PriceLevel → PriceLevel × PriceLevelUpdate)
    (commutes : ∀ level, other level.mirror =
      Prod.map PriceLevel.mirror PriceLevelUpdate.mirror (change level)) :
    ((first.levels.getBookLevel price).1.setBookLevel price
        (change (first.levels.getBookLevel price).2).1).Mirrored
      ((second.levels.getBookLevel (-price)).1.setBookLevel (-price)
        (other (second.levels.getBookLevel (-price)).2).1) ∧
    (other (second.levels.getBookLevel (-price)).2).2 =
      (change (first.levels.getBookLevel price).2).2.mirror := by
  obtain ⟨levels, level⟩ := mirrored.levels.getBookLevel reverses reversible own
  rw [level, commutes]
  exact ⟨levels.setBookLevel price _, rfl⟩

theorem Mirrored.addOrder (mirrored : first.Mirrored second)
    (reverses : Reverses CompFunc Other) (reversible : first.levels.Reversible) {order : Order}
    (own : Price.Reversible order.price) :
    (first.addOrder order).1.Mirrored (second.addOrder order.mirror).1 ∧
      (second.addOrder order.mirror).2 = (first.addOrder order).2.mirror := by
  obtain ⟨levels, update⟩ := mirrored.changeLevel reverses reversible own
    (fun level => level.addOrder order) (fun level => level.addOrder order.mirror)
    fun level => level.mirror_addOrder order
  exact ⟨⟨mirrored.side, levels⟩, update⟩

theorem Mirrored.removeOrder (mirrored : first.Mirrored second)
    (reverses : Reverses CompFunc Other) (reversible : first.levels.Reversible)
    {helper : FindOrderHelper} (own : Price.Reversible helper.price) :
    (first.removeOrder helper).1.Mirrored (second.removeOrder helper.mirror).1 ∧
      (second.removeOrder helper.mirror).2 = (first.removeOrder helper).2.mirror := by
  obtain ⟨levels, update⟩ := mirrored.changeLevel reverses reversible own
    (fun level => level.removeOrder helper.orderId) (fun level => level.removeOrder helper.orderId)
    fun level => level.mirror_removeOrder helper.orderId
  have erased := Mirrored.removeIfEmpty levels
    ((first.levels.getBookLevel helper.price).2.removeOrder helper.orderId).2
  rw [← update] at erased
  exact ⟨⟨mirrored.side, erased⟩, update⟩

end BookSide

end OrderForge
