/-
This file models the hashed linked list at the level of its pointers: nodes in the
slots of a pool that all lists of one type share, a link to either side in every
node, a pointer to each end, and the index of the nodes by their ids.

A null pointer or one to a slot without a node has nothing to be read or written,
and an operation that follows one has no result.
-/

import OrderForge.Chain
import OrderForge.InsertionMap
import OrderForge.PoolAllocator

namespace OrderForge

variable {Id Item : Type}

/-- `Node`: the content is the id and the item. -/
abbrev Node (Id Item : Type) := Chain.Node Slot (Id × Item)

/-- The pool of the nodes of one type, the size of such a node in bytes, and what is in the
slots. -/
structure NodePool (Id Item : Type) where
  nodeSize : { size : Nat // 0 < size }
  allocator : PoolAllocator
  memory : Chain.Memory Slot (Id × Item)

namespace NodePool

/-- `Node::operator new` and the constructor. -/
def new (pool : NodePool Id Item) (id : Id) (item : Item) : Option (Slot × NodePool Id Item) :=
  (pool.allocator.allocate pool.nodeSize).map fun (slot, allocator) =>
    (slot, { pool with
      allocator := allocator
      memory := Chain.store pool.memory slot (some ⟨(id, item), none, none⟩) })

/-- `Node::operator delete`, after which the slot holds no node. -/
def delete (pool : NodePool Id Item) (ptr : Slot) : NodePool Id Item where
  nodeSize := pool.nodeSize
  allocator := pool.allocator.deallocate ptr pool.nodeSize
  memory := Chain.store pool.memory ptr none

/-- The node a pointer points to. -/
def read (pool : NodePool Id Item) (ptr : Option Slot) : Option (Node Id Item) :=
  ptr.bind pool.memory

/-- Change the node a pointer points to. -/
def write (pool : NodePool Id Item) (ptr : Option Slot) (change : Node Id Item → Node Id Item) :
    Option (NodePool Id Item) :=
  (Chain.write pool.memory ptr change).map fun memory => { pool with memory := memory }

variable {pool : NodePool Id Item}

/-- A new node is in a slot that was not handed out. -/
theorem new_spec {handed : List Slot} (accounted : pool.allocator.Accounted handed) (id : Id)
    (item : Item) :
    ∃ slot larger, pool.new id item = some (slot, larger) ∧
      larger.allocator.Accounted (slot :: handed) ∧ slot ∉ handed ∧
      larger.memory slot = some ⟨(id, item), none, none⟩ ∧
      ∀ address, address ≠ slot → larger.memory address = pool.memory address := by
  obtain ⟨slot, allocator, found, kept⟩ := accounted.allocate pool.nodeSize.2
  exact ⟨slot, _, by rw [new, found]; rfl, kept, kept.not_mem, Chain.store_self ..,
    fun address different => Chain.store_of_ne different _⟩

theorem write_eq {ptr : Option Slot} {change : Node Id Item → Node Id Item}
    {memory : Chain.Memory Slot (Id × Item)}
    (written : Chain.write pool.memory ptr change = some memory) :
    pool.write ptr change = some { pool with memory := memory } := by
  rw [write, written, Option.map_some]

end NodePool

/-- `HashLinkedList`: the pointers to both ends and the index of the nodes. -/
@[ext]
structure HashLinkedList (Id : Type) where
  front : Option Slot
  back : Option Slot
  nodeMap : InsertionMap Id Slot

namespace HashLinkedList

/-- The default constructor. -/
def create : HashLinkedList Id where
  front := none
  back := none
  nodeMap := InsertionMap.empty

/-- What an operation leaves: the pool and the list. -/
abbrev Result (Id Item : Type) := Option (NodePool Id Item × HashLinkedList Id)

section Change

variable [DecidableEq Id]

/-- `HashLinkedList::push`. -/
def push (list : HashLinkedList Id) (pool : NodePool Id Item) (id : Id) (item : Item) :
    Result Id Item :=
  (pool.new id item).bind fun (nodePtr, pool) =>
    if list.nodeMap.nodes.isEmpty then
      some (pool, {
        front := some nodePtr
        back := some nodePtr
        nodeMap := list.nodeMap.emplace id nodePtr })
    else
      (pool.write list.back ({ · with right := some nodePtr })).bind fun pool =>
        (pool.write (some nodePtr) ({ · with left := list.back })).map fun pool =>
          (pool, {
            front := list.front
            back := some nodePtr
            nodeMap := list.nodeMap.emplace id nodePtr })

/-- `HashLinkedList::pop_front`. -/
def popFront (list : HashLinkedList Id) (pool : NodePool Id Item) : Result Id Item :=
  match list.front with
  | none => some (pool, list)
  | some temp =>
    (pool.read (some temp)).bind fun node =>
      match node.right with
      | some front =>
        (pool.write (some front) ({ · with left := none })).map fun pool =>
          (pool.delete temp, {
            front := some front
            back := list.back
            nodeMap := list.nodeMap.remove node.content.1 })
      | none =>
        some (pool.delete temp, {
          front := none
          back := none
          nodeMap := list.nodeMap.remove node.content.1 })

/-- `HashLinkedList::pop_back`. -/
def popBack (list : HashLinkedList Id) (pool : NodePool Id Item) : Result Id Item :=
  match list.back with
  | none => some (pool, list)
  | some temp =>
    (pool.read (some temp)).bind fun node =>
      match node.left with
      | some back =>
        (pool.write (some back) ({ · with right := none })).map fun pool =>
          (pool.delete temp, {
            front := list.front
            back := some back
            nodeMap := list.nodeMap.remove node.content.1 })
      | none =>
        some (pool.delete temp, {
          front := none
          back := none
          nodeMap := list.nodeMap.remove node.content.1 })

/-- `HashLinkedList::pop_middle`: the node is read again after the first of the writes. -/
def popMiddle (list : HashLinkedList Id) (pool : NodePool Id Item) (nodePtr : Slot) :
    Result Id Item :=
  (pool.read (some nodePtr)).bind fun node =>
    (pool.write node.left ({ · with right := node.right })).bind fun pool =>
      (pool.read (some nodePtr)).bind fun again =>
        (pool.write again.right ({ · with left := again.left })).map fun pool =>
          (pool.delete nodePtr, { list with nodeMap := list.nodeMap.remove node.content.1 })

/-- `HashLinkedList::pop`. -/
def pop (list : HashLinkedList Id) (pool : NodePool Id Item) : Result Id Item :=
  list.popFront pool

/-- `HashLinkedList::remove_node`. -/
def removeNode (list : HashLinkedList Id) (pool : NodePool Id Item) (nodePtr : Slot) :
    Result Id Item :=
  if some nodePtr = list.front then list.popFront pool
  else if some nodePtr = list.back then list.popBack pool
  else list.popMiddle pool nodePtr

/-- `HashLinkedList::remove`. -/
def remove (list : HashLinkedList Id) (pool : NodePool Id Item) (id : Id) : Result Id Item :=
  match list.nodeMap.find? id with
  | some nodePtr => list.removeNode pool nodePtr
  | none => some (pool, list)

/-- `HashLinkedList::contains`. -/
def contains (list : HashLinkedList Id) (id : Id) : Bool := list.nodeMap.contains id

/-- `HashLinkedList::find`: the item pointed to, or a null pointer. Inside, a pointer to no node
has no result. -/
def find (list : HashLinkedList Id) (pool : NodePool Id Item) (id : Id) : Option (Option Item) :=
  match list.nodeMap.find? id with
  | some nodePtr => (pool.read (some nodePtr)).map fun node => some node.content.2
  | none => some none

end Change

/-- `HashLinkedList::size`. -/
def size (list : HashLinkedList Id) : Nat := list.nodeMap.nodes.length

/-- `HashLinkedList::empty`. -/
def empty (list : HashLinkedList Id) : Bool := list.nodeMap.nodes.isEmpty

/-- `HashLinkedList::front`. -/
def frontItem (list : HashLinkedList Id) (pool : NodePool Id Item) : Option Item :=
  (pool.read list.front).map fun node => node.content.2

/-- `HashLinkedList::back`. -/
def backItem (list : HashLinkedList Id) (pool : NodePool Id Item) : Option Item :=
  (pool.read list.back).map fun node => node.content.2

/-- The nodes reached from the front to the right, with a bound on the number of steps. -/
def forward (list : HashLinkedList Id) (pool : NodePool Id Item) (fuel : Nat) :
    Option (List (Slot × Id × Item)) :=
  Chain.walk Chain.Node.right pool.memory fuel list.front

/-- The nodes reached from the back to the left, with a bound on the number of steps. -/
def backward (list : HashLinkedList Id) (pool : NodePool Id Item) (fuel : Nat) :
    Option (List (Slot × Id × Item)) :=
  Chain.walk Chain.Node.left pool.memory fuel list.back

/-- The loop from `begin` to `end` of `Iterator`: the pointer to a node is at the node to the
right next, until it is null. What `operator++` returns is left out: it is not used, and behind the
last node it would be a reference to what a null pointer points to. -/
def iterate (pool : NodePool Id Item) : Nat → Option Slot → Option (List Item)
  | 0, _ => none
  | _ + 1, none => some []
  | fuel + 1, some ptr =>
    (pool.read (some ptr)).bind fun node =>
      (iterate pool fuel node.right).map (List.cons node.content.2)

end HashLinkedList

end OrderForge
