/-
This file is a small library of maps that remember the order of insertion: a new
entry goes to the back, an entry can be taken out anywhere, and a pass over the
entries sees them from the oldest to the newest. The identifiers of the entries
are pairwise distinct, which is a field of the structure; the insertion asks for
the identifier to be fresh.
-/

import OrderForge.Keyed

/-- A map from identifiers to items that keeps its nodes in the order of insertion. -/
structure InsertionMap (Id Item : Type) where
  nodes : List (Id × Item)
  distinct : (nodes.map Prod.fst).Nodup

namespace InsertionMap

variable {Id Item State : Type}

@[ext]
theorem ext {first second : InsertionMap Id Item} (same : first.nodes = second.nodes) :
    first = second := by
  cases first
  cases second
  cases same
  rfl

/-- The map without entries. -/
def empty : InsertionMap Id Item := ⟨[], List.nodup_nil⟩

/-- The items from the oldest to the newest. -/
def items (map : InsertionMap Id Item) : List Item := map.nodes.map Prod.snd

/-- Visit the entries from the oldest to the newest, replacing each item and threading a
state. -/
def mapAccum (map : InsertionMap Id Item) (visit : State → Id × Item → Item × State)
    (state : State) : InsertionMap Id Item × State :=
  (⟨(Keyed.mapAccum visit state map.nodes).1, by
    rw [Keyed.mapAccum_keys]
    exact map.distinct⟩, (Keyed.mapAccum visit state map.nodes).2)

theorem mapAccum_congr {View : Type} {visit : State → Id × Item → Item × State}
    (view : State → View) (same : ∀ first second node, view first = view second →
      (visit first node).1 = (visit second node).1 ∧
        view (visit first node).2 = view (visit second node).2)
    {first second : State} (alike : view first = view second) (map : InsertionMap Id Item) :
    (map.mapAccum visit first).1 = (map.mapAccum visit second).1 ∧
      view (map.mapAccum visit first).2 = view (map.mapAccum visit second).2 := by
  obtain ⟨nodes, states⟩ := Keyed.mapAccum_congr view same alike map.nodes
  exact ⟨ext nodes, states⟩

section Lookup

variable [DecidableEq Id]

/-- Whether an identifier has an entry. -/
def contains (map : InsertionMap Id Item) (id : Id) : Bool := (map.nodes.lookup id).isSome

/-- The item under an identifier. -/
def find? (map : InsertionMap Id Item) (id : Id) : Option Item := map.nodes.lookup id

theorem contains_eq_false (map : InsertionMap Id Item) {id : Id} :
    map.contains id = false ↔ id ∉ map.nodes.map Prod.fst := by
  rw [contains, Option.isSome_eq_false_iff, Option.isNone_iff_eq_none, Keyed.lookup_eq_none]

theorem contains_congr {Other : Type} {map : InsertionMap Id Item} {other : InsertionMap Id Other}
    (same : map.nodes.map Prod.fst = other.nodes.map Prod.fst) (id : Id) :
    map.contains id = other.contains id := by
  refine Bool.eq_iff_iff.mpr (not_iff_not.mp ?_)
  rw [Bool.not_eq_true, Bool.not_eq_true, contains_eq_false, contains_eq_false, same]

theorem find?_eq_some (map : InsertionMap Id Item) {id : Id} {item : Item} :
    map.find? id = some item ↔ (id, item) ∈ map.nodes := Keyed.lookup_eq_some map.distinct

theorem find?_eq_none (map : InsertionMap Id Item) {id : Id} :
    map.find? id = none ↔ id ∉ map.nodes.map Prod.fst := Keyed.lookup_eq_none

end Lookup

/-! ### Insertion and removal -/

section Change

variable [DecidableEq Id]

/-- Add an entry at the back, under an identifier that has none. -/
def push (map : InsertionMap Id Item) (id : Id) (item : Item)
    (fresh : map.contains id = false) : InsertionMap Id Item where
  nodes := map.nodes ++ [(id, item)]
  distinct := by
    rw [List.map_append, List.nodup_append_comm]
    exact List.nodup_cons.mpr ⟨map.contains_eq_false.mp fresh, map.distinct⟩

/-- Add an entry at the back, unless the identifier has one. -/
def emplace (map : InsertionMap Id Item) (id : Id) (item : Item) : InsertionMap Id Item :=
  if fresh : map.contains id = false then map.push id item fresh else map

theorem emplace_of_fresh (map : InsertionMap Id Item) {id : Id} (item : Item)
    (fresh : map.contains id = false) : map.emplace id item = map.push id item fresh :=
  dif_pos fresh

/-- Take out the entry of an identifier. -/
def remove (map : InsertionMap Id Item) (id : Id) : InsertionMap Id Item where
  nodes := map.nodes.filter fun node => node.1 ≠ id
  distinct := map.distinct.sublist (List.filter_sublist.map _)

/-- Take out the oldest entry, if there is one. -/
def pop (map : InsertionMap Id Item) : InsertionMap Id Item :=
  match map.nodes with
  | [] => map
  | node :: _ => map.remove node.1

/-- A removal leaves what is in front of the entry and what is behind it. -/
theorem nodes_remove (map : InsertionMap Id Item) {front back : List (Id × Item)}
    {node : Id × Item} (split : map.nodes = front ++ node :: back) :
    (map.remove node.1).nodes = front ++ back := by
  have distinct := map.distinct
  rw [split, List.map_append, List.map_cons, List.nodup_middle, ← List.map_append] at distinct
  change map.nodes.filter _ = _
  rw [split, List.filter_append, List.filter_cons_of_neg (by simp), ← List.filter_append]
  refine List.filter_eq_self.mpr fun other member => decide_eq_true fun same => ?_
  exact (List.nodup_cons.mp distinct).1 (same ▸ List.mem_map_of_mem member)

theorem pop_of_nil (map : InsertionMap Id Item) (none : map.nodes = []) : map.pop = map := by
  rw [pop]
  split
  next => rfl
  next node rest split => rw [none] at split; cases split

theorem pop_of_cons (map : InsertionMap Id Item) {node : Id × Item} {rest : List (Id × Item)}
    (some : map.nodes = node :: rest) : map.pop = map.remove node.1 := by
  rw [pop]
  split
  next none => rw [some] at none; cases none
  next other others split => rw [some] at split; cases split; rfl

/-- Removing an identifier without entry changes nothing. -/
theorem remove_of_absent (map : InsertionMap Id Item) {id : Id} (absent : map.contains id = false) :
    map.remove id = map := by
  refine ext (List.filter_eq_self.mpr fun node member => decide_eq_true fun same => ?_)
  exact map.contains_eq_false.mp absent (same ▸ List.mem_map_of_mem member)

/-- Removing several identifiers one after the other. -/
theorem nodes_foldl_remove (map : InsertionMap Id Item) (ids : List Id) :
    (ids.foldl remove map).nodes = map.nodes.filter fun node => node.1 ∉ ids := by
  induction ids generalizing map with
  | nil => simp
  | cons id rest inductionHypothesis =>
    rw [List.foldl_cons, inductionHypothesis, remove, List.filter_filter]
    refine List.filter_congr fun node _ => ?_
    simp only [List.mem_cons, not_or, ← Bool.decide_and, decide_eq_decide]
    exact and_comm

end Change

/-! ### A change of all items -/

section Map

variable {Other OtherState : Type}

/-- Change every item. -/
def map (change : Item → Other) (map : InsertionMap Id Item) : InsertionMap Id Other where
  nodes := map.nodes.map (Prod.map id change)
  distinct := by
    rw [List.map_map]
    exact map.distinct

theorem mapAccum_map {visit : State → Id × Item → Item × State}
    {other : OtherState → Id × Other → Other × OtherState} (change : Item → Other)
    (changeState : State → OtherState) (commutes : ∀ state node,
      other (changeState state) (Prod.map id change node) =
        Prod.map change changeState (visit state node))
    (cont : InsertionMap Id Item) (state : State) :
    (cont.map change).mapAccum other (changeState state) =
      Prod.map (map change) changeState (cont.mapAccum visit state) := by
  have passed := Keyed.mapAccum_map id change changeState commutes state cont.nodes
  have nodes := congrArg Prod.fst passed
  have states := congrArg Prod.snd passed
  exact Prod.ext (ext nodes) states

variable [DecidableEq Id] (change : Item → Other) (cont : InsertionMap Id Item)

theorem find?_map (id : Id) : (cont.map change).find? id = (cont.find? id).map change :=
  Keyed.lookup_map Function.injective_id change cont.nodes id

theorem contains_map (id : Id) : (cont.map change).contains id = cont.contains id := by
  have found := find?_map change cont id
  rw [find?, find?] at found
  rw [contains, contains, found, Option.isSome_map]

theorem push_map (id : Id) (item : Item) (fresh : cont.contains id = false)
    (freshImage : (cont.map change).contains id = false) :
    (cont.map change).push id (change item) freshImage = (cont.push id item fresh).map change :=
  ext (by
    change cont.nodes.map _ ++ _ = (cont.nodes ++ _).map _
    rw [List.map_append]
    rfl)

theorem remove_map (id : Id) : (cont.map change).remove id = (cont.remove id).map change :=
  ext List.filter_map

theorem foldl_remove_map (ids : List Id) :
    ids.foldl remove (cont.map change) = (ids.foldl remove cont).map change := by
  induction ids generalizing cont with
  | nil => rfl
  | cons id rest inductionHypothesis =>
    rw [List.foldl_cons, remove_map, inductionHypothesis, List.foldl_cons]

end Map

end InsertionMap
