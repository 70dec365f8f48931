/-
This file proves that the hashed linked list refines a map that remembers the order
of insertion. Any number of lists share one pool, which hands the slot of a deleted
node out again, perhaps to another list. One request changes one list and leaves
everything that was handed out to the others alone. So along every run no null or
dangling pointer is followed, and each list agrees with the map that its own requests
lead to: by its links to the right and to the left, its index and its ends.
-/

import OrderForge.ListLinks
import OrderForge.Machine

namespace OrderForge

/-- What is asked of one list. -/
inductive ListRequest (Id Item : Type)
  | push (id : Id) (item : Item)
  | pop
  | remove (id : Id)
  | removeNode (nodePtr : Slot)

/-- The lists of one type and the pool they share. -/
structure ListStore (Name Id Item : Type) where
  pool : NodePool Id Item
  lists : Name → HashLinkedList Id

/-- A request to one of the lists, and whether its pointers could be followed. -/
abbrev ListCall (Name Id Item : Type) :=
  Transition (ListStore Name Id Item) (Name × ListRequest Id Item) Bool

variable {Name Id Item : Type} [DecidableEq Name] [DecidableEq Id]

namespace HashLinkedList

def serve (list : HashLinkedList Id) (pool : NodePool Id Item) :
    ListRequest Id Item → Result Id Item
  | .push id item => list.push pool id item
  | .pop => list.pop pool
  | .remove id => list.remove pool id
  | .removeNode nodePtr => list.removeNode pool nodePtr

/-- Whether a push is of an id that the list does not contain, and a node that is removed is one
that the list has. -/
def Admits (list : HashLinkedList Id) : ListRequest Id Item → Prop
  | .push id _ => list.contains id = false
  | .pop => True
  | .remove _ => True
  | .removeNode nodePtr => nodePtr ∈ list.nodeMap.items

instance (list : HashLinkedList Id) : DecidablePred fun request : ListRequest Id Item =>
    list.Admits request
  | .push id _ => inferInstanceAs (Decidable (list.contains id = false))
  | .pop => inferInstanceAs (Decidable True)
  | .remove _ => inferInstanceAs (Decidable True)
  | .removeNode nodePtr => inferInstanceAs (Decidable (nodePtr ∈ list.nodeMap.items))

end HashLinkedList

namespace ListStore

/-- The lists that hold nothing, and a new pool. -/
def create (nodeSize : { size : Nat // 0 < size }) (initialSize : Nat) :
    ListStore Name Id Item where
  pool := ⟨nodeSize, PoolAllocator.create initialSize, fun _ => none⟩
  lists := fun _ => HashLinkedList.create

def step (store : ListStore Name Id Item) (request : Name × ListRequest Id Item) :
    ListStore Name Id Item × Bool :=
  match (store.lists request.1).serve store.pool request.2 with
  | some (pool, list) => (⟨pool, Function.update store.lists request.1 list⟩, true)
  | none => (store, false)

def run (nodeSize : { size : Nat // 0 < size }) (initialSize : Nat)
    (requests : List (Name × ListRequest Id Item)) : List (ListCall Name Id Item) :=
  Machine.run step (create nodeSize initialSize) requests

def final (nodeSize : { size : Nat // 0 < size }) (initialSize : Nat)
    (requests : List (Name × ListRequest Id Item)) : ListStore Name Id Item :=
  Machine.final step (create nodeSize initialSize) requests

end ListStore

/-- Whether the list that a request is for admits it. -/
def ListCall.Legal (call : ListCall Name Id Item) : Prop :=
  (call.before.lists call.input.1).Admits call.input.2

instance : DecidablePred fun call : ListCall Name Id Item => call.Legal := fun call =>
  inferInstanceAs (Decidable ((call.before.lists call.input.1).Admits call.input.2))

/-! ### The map a list stands for -/

/-- What a request does to the map; a node pointer names the id that is in its node. -/
def ListRequest.onMap (pool : NodePool Id Item) (map : InsertionMap Id Item) :
    ListRequest Id Item → InsertionMap Id Item
  | .push id item => map.emplace id item
  | .pop => map.pop
  | .remove id => map.remove id
  | .removeNode nodePtr =>
    (pool.read (some nodePtr)).elim map fun node => map.remove node.content.1

/-- The map that the requests to one list lead to. -/
def mapAfter (calls : List (ListCall Name Id Item)) (name : Name) : InsertionMap Id Item :=
  calls.foldl (fun map call =>
    if call.input.1 = name then call.input.2.onMap call.before.pool map else map)
    InsertionMap.empty

/-- A request changes the map of its own list. -/
theorem mapAfter_concat (calls : List (ListCall Name Id Item)) (call : ListCall Name Id Item) :
    mapAfter (calls ++ [call]) = Function.update (mapAfter calls) call.input.1
      (call.input.2.onMap call.before.pool (mapAfter calls call.input.1)) := by
  funext name
  rw [mapAfter, List.foldl_append]
  by_cases same : name = call.input.1
  · subst same
    rw [Function.update_self]
    exact if_pos rfl
  · rw [Function.update_of_ne same]
    exact if_neg (Ne.symm same)

/-- Whether a list is seen from outside as a map is. -/
structure HashLinkedList.Agrees (list : HashLinkedList Id) (pool : NodePool Id Item)
    (map : InsertionMap Id Item) : Prop where
  nodes : ∃ cells : List (Slot × Id × Item), cells.map Prod.snd = map.nodes ∧
    (∀ fuel, cells.length < fuel →
      list.forward pool fuel = some cells ∧ list.backward pool fuel = some cells.reverse) ∧
    ∀ id slot, list.nodeMap.find? id = some slot ↔ ∃ item, (slot, id, item) ∈ cells
  front : list.front = none ↔ map.nodes = []
  back : list.back = none ↔ map.nodes = []
  frontItem : list.frontItem pool = map.items.head?
  backItem : list.backItem pool = map.items.getLast?
  size : list.size = map.nodes.length
  empty : list.empty = map.nodes.isEmpty
  contains : ∀ id, list.contains id = map.contains id
  find : ∀ id, list.find pool id = some (map.find? id)
  iterate : ∀ fuel, map.nodes.length < fuel →
    HashLinkedList.iterate pool fuel list.front = some map.items

namespace HashLinkedList

variable {list changed : HashLinkedList Id} {pool larger : NodePool Id Item}
  {map : InsertionMap Id Item} {cells next : List (Slot × Id × Item)} {handed left : List Slot}

omit [DecidableEq Id] in
theorem Represents.keys_eq (represents : list.Represents pool.memory cells)
    (entries : cells.map Prod.snd = map.nodes) :
    list.nodeMap.nodes.map Prod.fst = map.nodes.map Prod.fst := by
  rw [represents.nodeMap, ← entries, List.map_map, List.map_map]
  rfl

/-- The node that is found has the item of the map. -/
theorem Represents.find (represents : list.Represents pool.memory cells)
    (entries : cells.map Prod.snd = map.nodes) (id : Id) :
    list.find pool id = some (map.find? id) := by
  rw [HashLinkedList.find]
  cases held : list.nodeMap.find? id with
  | none =>
    refine congrArg some (map.find?_eq_none.mpr ?_).symm
    rw [← represents.keys_eq entries]
    exact (InsertionMap.find?_eq_none _).mp held
  | some slot =>
    obtain ⟨item, member⟩ := represents.find?_eq_some.mp held
    obtain ⟨before, after, node⟩ := represents.segment.mem member
    have read : pool.read (some slot) = some ⟨(id, item), before, after⟩ := node
    have inMap : map.find? id = some item :=
      map.find?_eq_some.mpr (entries ▸ List.mem_map_of_mem (f := Prod.snd) member)
    rw [inMap]
    exact congrArg (Option.map _) read

/-- A list that represents the entries of a map agrees with the map. -/
theorem Represents.agrees (represents : list.Represents pool.memory cells)
    (entries : cells.map Prod.snd = map.nodes) : list.Agrees pool map := by
  have none_iff : map.nodes = [] ↔ cells = [] := by rw [← entries, List.map_eq_nil_iff]
  have lengths : list.nodeMap.nodes.length = map.nodes.length := by
    rw [represents.nodeMap, ← entries, List.length_map, List.length_map]
  have content : ∀ node : Option (Node Id Item), (node.map fun node => node.content.2) =
      (node.map Chain.Node.content).map Prod.snd := fun node => (Option.map_map _ _ _).symm
  exact {
    nodes := ⟨cells, entries, fun fuel enough =>
      ⟨represents.forward enough, represents.backward enough⟩,
      fun id slot => represents.find?_eq_some⟩
    front := by rw [represents.front, Chain.entry_eq_none, none_iff]
    back := by rw [represents.back, Chain.exit_eq_none, none_iff]
    frontItem := by
      rw [HashLinkedList.frontItem, NodePool.read, represents.front, content,
        represents.segment.entry_content, Option.map_map, InsertionMap.items, ← entries,
        List.map_map, List.head?_map]
    backItem := by
      rw [HashLinkedList.backItem, NodePool.read, represents.back, content,
        represents.segment.exit_content, Option.map_map, InsertionMap.items, ← entries,
        List.map_map, List.getLast?_map]
    size := lengths
    empty := by rw [HashLinkedList.empty, represents.nodeMap, ← entries]; cases cells <;> rfl
    contains := InsertionMap.contains_congr (represents.keys_eq entries)
    find := represents.find entries
    iterate := fun fuel enough => by
      rw [← entries, List.length_map] at enough
      rw [represents.iterate enough, InsertionMap.items, ← entries, List.map_map]
      rfl }

/-! ### One request to one list -/

/-- What a request leaves to a list whose cells and whose pool were given: a list of other cells.
What was handed out to others still is, and is as it was. -/
structure Served (pool : NodePool Id Item) (cells : List (Slot × Id × Item)) (handed : List Slot)
    (larger : NodePool Id Item) (changed : HashLinkedList Id) (next : List (Slot × Id × Item))
    (left : List Slot) : Prop where
  accounted : larger.allocator.Accounted left
  represents : changed.Represents larger.memory next
  held : ∀ slot ∈ next.map Prod.fst, slot ∈ left
  frame : ∀ slot ∈ handed, slot ∉ cells.map Prod.fst →
    slot ∈ left ∧ slot ∉ next.map Prod.fst ∧ larger.memory slot = pool.memory slot

variable {before after : List (Slot × Id × Item)} {cell : Slot × Id × Item}

omit [DecidableEq Id] in
/-- An unlinked node is no longer handed out. -/
theorem Unlinked.served (unlinked : Unlinked pool before cell after larger changed)
    (accounted : pool.allocator.Accounted handed)
    (distinct : ((before ++ cell :: after).map Prod.fst).Nodup)
    (held : ∀ slot ∈ (before ++ cell :: after).map Prod.fst, slot ∈ handed) :
    Served pool (before ++ cell :: after) handed larger changed (before ++ after)
      (handed.erase cell.1) := by
  have perm : ((before ++ cell :: after).map Prod.fst).Perm
      (cell.1 :: (before ++ after).map Prod.fst) := List.perm_middle.map Prod.fst
  have fresh := (List.nodup_cons.mp (perm.nodup_iff.mp distinct)).1
  have others : ∀ slot ∈ handed, slot ≠ cell.1 → slot ∈ handed.erase cell.1 :=
    fun slot member different => (List.mem_erase_of_ne different).mpr member
  have own : cell.1 ∈ handed := held _ (perm.mem_iff.mpr List.mem_cons_self)
  refine ⟨?_, unlinked.represents, fun slot member => ?_, fun slot member outside => ?_⟩
  · rw [unlinked.allocator]
    exact (accounted.perm (List.perm_cons_erase own)).deallocate _
  · exact others slot (held slot (perm.mem_iff.mpr (List.mem_cons_of_mem _ member)))
      (ne_of_mem_of_not_mem member fresh)
  · have away := List.ne_and_not_mem_of_not_mem_cons (mt perm.mem_iff.mpr outside)
    exact ⟨others slot member away.1, away.2, unlinked.frame slot outside⟩

omit [DecidableEq Id] in
/-- A request that changes nothing. -/
theorem Represents.idle (represents : list.Represents pool.memory cells)
    (accounted : pool.allocator.Accounted handed)
    (held : ∀ slot ∈ cells.map Prod.fst, slot ∈ handed) :
    Served pool cells handed pool list cells handed :=
  ⟨accounted, represents, held, fun _ member outside => ⟨member, outside, rfl⟩⟩

omit [DecidableEq Id] in
/-- One request after another. -/
theorem Served.trans {larger largest : NodePool Id Item} {changed last : HashLinkedList Id}
    {next final : List (Slot × Id × Item)} {left rest : List Slot}
    (first : Served pool cells handed larger changed next left)
    (second : Served larger next left largest last final rest) :
    Served pool cells handed largest last final rest where
  accounted := second.accounted
  represents := second.represents
  held := second.held
  frame slot member outside := by
    obtain ⟨still, away, same⟩ := first.frame slot member outside
    obtain ⟨kept, apart, unchanged⟩ := second.frame slot still away
    exact ⟨kept, apart, unchanged.trans same⟩

/-- A push serves a list whose map does not contain the id. -/
theorem Represents.push_served (represents : list.Represents pool.memory cells) {id : Id}
    (fresh : list.contains id = false) (accounted : pool.allocator.Accounted handed)
    (held : ∀ slot ∈ cells.map Prod.fst, slot ∈ handed) (item : Item) :
    ∃ slot larger changed, list.push pool id item = some (larger, changed) ∧
      Served pool cells handed larger changed (cells ++ [(slot, id, item)]) (slot :: handed) := by
  obtain ⟨slot, larger, changed, pushed, kept, appended, frame⟩ :=
    represents.push fresh accounted held item
  have own : ∀ taken, taken ∈ (cells ++ [(slot, id, item)]).map Prod.fst ↔
      taken ∈ cells.map Prod.fst ∨ taken = slot := by
    intro taken
    rw [List.map_append, List.mem_append]
    exact or_congr_right List.mem_singleton
  refine ⟨slot, larger, changed, pushed, kept, appended, fun taken member => ?_,
    fun taken member outside => ?_⟩
  · rcases (own taken).mp member with old | new
    · exact List.mem_cons_of_mem _ (held taken old)
    · exact new ▸ List.mem_cons_self
  · have different := ne_of_mem_of_not_mem member kept.not_mem
    refine ⟨List.mem_cons_of_mem _ member, fun inside => ?_, frame taken ?_⟩
    · exact ((own taken).mp inside).elim outside different
    · exact List.not_mem_cons_of_ne_of_not_mem different outside

/-- The map loses the entry of a cell that is taken out. -/
theorem entries_remove (entries : (before ++ cell :: after).map Prod.snd = map.nodes) :
    (before ++ after).map Prod.snd = (map.remove cell.2.1).nodes := by
  rw [List.map_append, List.map_cons] at entries
  rw [InsertionMap.nodes_remove map entries.symm, List.map_append]

/-- A legal request finds all its nodes, and the list it leaves has the entries of the map that
the request leaves. -/
theorem Represents.serve (represents : list.Represents pool.memory cells)
    (entries : cells.map Prod.snd = map.nodes) (accounted : pool.allocator.Accounted handed)
    (held : ∀ slot ∈ cells.map Prod.fst, slot ∈ handed) {request : ListRequest Id Item}
    (legal : list.Admits request) :
    ∃ larger changed next left, list.serve pool request = some (larger, changed) ∧
      Served pool cells handed larger changed next left ∧
      next.map Prod.snd = (request.onMap pool map).nodes := by
  have keys := represents.keys_eq entries
  cases request with
  | push id item =>
    obtain ⟨slot, larger, changed, pushed, served⟩ :=
      represents.push_served legal accounted held item
    have fresh : map.contains id = false := (InsertionMap.contains_congr keys id).symm.trans legal
    refine ⟨larger, changed, _, _, pushed, served, ?_⟩
    rw [List.map_append, entries]
    exact (congrArg InsertionMap.nodes (map.emplace_of_fresh item fresh)).symm
  | pop =>
    cases cells with
    | nil =>
      refine ⟨pool, list, [], handed, ?_, represents.idle accounted held, ?_⟩
      · have pointed : list.front = none := represents.front
        rw [HashLinkedList.serve, HashLinkedList.pop, HashLinkedList.popFront, pointed]
      · exact entries.trans (congrArg InsertionMap.nodes (map.pop_of_nil entries.symm).symm)
    | cons cell after =>
      obtain ⟨larger, changed, popped, unlinked⟩ := represents.popFront
      have removed : ([] ++ after).map Prod.snd = (map.remove cell.2.1).nodes :=
        entries_remove entries
      refine ⟨larger, changed, after, _, popped,
        unlinked.served accounted represents.distinct held, removed.trans ?_⟩
      exact congrArg InsertionMap.nodes (map.pop_of_cons entries.symm).symm
  | remove id =>
    rw [HashLinkedList.serve, HashLinkedList.remove]
    cases found : list.nodeMap.find? id with
    | none =>
      refine ⟨pool, list, cells, handed, rfl, represents.idle accounted held, entries.trans ?_⟩
      have absent := (InsertionMap.find?_eq_none _).mp found
      rw [keys] at absent
      exact congrArg InsertionMap.nodes
        (map.remove_of_absent (map.contains_eq_false.mpr absent)).symm
    | some nodePtr =>
      obtain ⟨item, member⟩ := represents.find?_eq_some.mp found
      obtain ⟨before, after, split⟩ := List.append_of_mem member
      subst split
      obtain ⟨larger, changed, done, unlinked⟩ := represents.removeNode
      exact ⟨larger, changed, _, _, done, unlinked.served accounted represents.distinct held,
        entries_remove entries⟩
  | removeNode nodePtr =>
    obtain ⟨before, cell, after, split, rfl⟩ := represents.split legal
    subst split
    obtain ⟨larger, changed, done, unlinked⟩ := represents.removeNode
    refine ⟨larger, changed, _, _, done, unlinked.served accounted represents.distinct held,
      (entries_remove entries).trans ?_⟩
    obtain ⟨left, right, node⟩ :=
      represents.segment.mem (List.mem_append_right before List.mem_cons_self)
    have read : pool.read (some cell.1) = some ⟨cell.2, left, right⟩ := node
    rw [ListRequest.onMap, read]
    rfl

end HashLinkedList

/-! ### Runs of the lists that share a pool -/

namespace ListStore

/-- What holds of the lists along every run: each represents the entries of its map, its nodes are
handed out, and no two lists have a node in common. -/
structure Shared (store : ListStore Name Id Item) (maps : Name → InsertionMap Id Item)
    (cells : Name → List (Slot × Id × Item)) (handed : List Slot) : Prop where
  accounted : store.pool.allocator.Accounted handed
  represents : ∀ name, (store.lists name).Represents store.pool.memory (cells name)
  entries : ∀ name, (cells name).map Prod.snd = (maps name).nodes
  held : ∀ name, ∀ slot ∈ (cells name).map Prod.fst, slot ∈ handed
  apart : ∀ name other, name ≠ other → ∀ slot ∈ (cells name).map Prod.fst,
    slot ∉ (cells other).map Prod.fst

variable {store : ListStore Name Id Item} {maps : Name → InsertionMap Id Item}
  {cells : Name → List (Slot × Id × Item)} {handed : List Slot}

theorem Shared.step (shared : store.Shared maps cells handed)
    {request : Name × ListRequest Id Item} (legal : (store.lists request.1).Admits request.2) :
    ∃ next left, (store.step request).1.Shared
        (Function.update maps request.1 (request.2.onMap store.pool (maps request.1)))
        (Function.update cells request.1 next) left ∧ (store.step request).2 = true := by
  obtain ⟨name, asked⟩ := request
  obtain ⟨larger, changed, next, left, done, served, entries⟩ :=
    (shared.represents name).serve (shared.entries name) shared.accounted (shared.held name) legal
  have stepped : store.step (name, asked) =
      (⟨larger, Function.update store.lists name changed⟩, true) := by
    rw [ListStore.step, done]
  have frame : ∀ other, other ≠ name → ∀ slot ∈ (cells other).map Prod.fst, slot ∈ left ∧
      slot ∉ next.map Prod.fst ∧ larger.memory slot = store.pool.memory slot :=
    fun other different slot member => served.frame slot (shared.held other slot member)
      (shared.apart other name different slot member)
  rw [stepped]
  refine ⟨next, left, ⟨served.accounted, ?_, ?_, ?_, ?_⟩, rfl⟩
  · intro other
    by_cases same : other = name
    · subst same
      simp only [Function.update_self]
      exact served.represents
    · simp only [Function.update_of_ne same]
      exact (shared.represents other).congr fun slot member => (frame other same slot member).2.2
  · intro other
    by_cases same : other = name
    · subst same
      simp only [Function.update_self]
      exact entries
    · simp only [Function.update_of_ne same]
      exact shared.entries other
  · intro other slot member
    by_cases same : other = name
    · subst same
      rw [Function.update_self] at member
      exact served.held slot member
    · rw [Function.update_of_ne same] at member
      exact (frame other same slot member).1
  · intro first second different slot member
    by_cases firstSame : first = name
    · subst firstSame
      rw [Function.update_self] at member
      rw [Function.update_of_ne different.symm]
      exact fun inSecond => (frame second different.symm slot inSecond).2.1 member
    · rw [Function.update_of_ne firstSame] at member
      by_cases secondSame : second = name
      · subst secondSame
        rw [Function.update_self]
        exact (frame first firstSame slot member).2.1
      · rw [Function.update_of_ne secondSame]
        exact shared.apart first second different slot member

omit [DecidableEq Name] [DecidableEq Id] in
theorem create_shared (nodeSize : { size : Nat // 0 < size }) (initialSize : Nat) :
    (create nodeSize initialSize : ListStore Name Id Item).Shared (fun _ => InsertionMap.empty)
      (fun _ => []) [] where
  accounted := PoolAllocator.create_accounted initialSize
  represents _ := HashLinkedList.create_represents
  entries _ := rfl
  held _ _ member := member
  apart _ _ _ _ member := (List.not_mem_nil member).elim

/-- Along every run of legal requests every pointer that is followed leads to a node, and each list
agrees with the map that its requests lead to. -/
theorem lists_refine_maps (nodeSize : { size : Nat // 0 < size }) (initialSize : Nat)
    (requests : List (Name × ListRequest Id Item))
    (legal : ∀ call ∈ run nodeSize initialSize requests, call.Legal) :
    (∀ call ∈ run nodeSize initialSize requests, call.output = true) ∧
      ∀ name, ((final nodeSize initialSize requests).lists name).Agrees
        (final nodeSize initialSize requests).pool
        (mapAfter (run nodeSize initialSize requests) name) := by
  have held := Machine.run_induction
    (motive := fun past store => (∀ call ∈ past, call.output = true) ∧
      ∃ cells handed, Shared store (mapAfter past) cells handed)
    step ⟨fun _ none => (List.not_mem_nil none).elim, _, _, create_shared nodeSize initialSize⟩
    (fun past store request known admitted => ?_) requests legal
  · obtain ⟨followed, cells, handed, shared⟩ := held
    exact ⟨followed, fun name => (shared.represents name).agrees (shared.entries name)⟩
  · obtain ⟨followed, cells, handed, shared⟩ := known
    obtain ⟨next, left, kept, true⟩ := shared.step admitted
    refine ⟨List.forall_mem_append.mpr ⟨followed, List.forall_mem_singleton.mpr true⟩,
      Function.update cells request.1 next, left, ?_⟩
    rw [mapAfter_concat]
    exact kept

/-- Two lists take turns; the node in the middle goes first, and its slot is used again. -/
def sampleRequests : List (Bool × ListRequest Nat String) :=
  [(true, .push 1 "Crown"), (false, .push 1 "Crown"), (true, .push 2 "Queen"),
    (true, .push 3 "King"), (true, .removeNode ⟨1, 3⟩), (false, .push 2 "Queen"),
    (true, .remove 3), (true, .remove 7), (false, .pop), (true, .pop), (true, .pop)]

theorem sample_lists_refine_maps :
    (∀ call ∈ run ⟨1, by decide⟩ 2 sampleRequests, call.output = true) ∧
      ∀ name, ((final ⟨1, by decide⟩ 2 sampleRequests).lists name).Agrees
        (final ⟨1, by decide⟩ 2 sampleRequests).pool
        (mapAfter (run ⟨1, by decide⟩ 2 sampleRequests) name) :=
  lists_refine_maps ⟨1, by decide⟩ 2 sampleRequests (by decide)

end ListStore

end OrderForge
