/-
This file models the pool allocator and settles whether its allocations are disjoint.
A pointer is a block and an index into it; a new block is disjoint from the others.
The free list holds single slots, and an allocation takes one slot off its back
whatever it was asked for. So slots are accounted for in every run: each is free or
handed out, once. But only an allocation of one slot owns all that it was given.

The sizes are unbounded numbers here: a size that overflows 64 bits is more memory
than a block can have.
-/

import Mathlib.Data.List.Nodup
import OrderForge.Machine

namespace OrderForge

/-- A pointer into a pool. -/
@[ext]
structure Slot where
  block : Nat
  index : Nat
deriving DecidableEq

/-- `PoolAllocator<T>`: the next size, the size of every block, and the free slots with the back of
the vector last. -/
structure PoolAllocator where
  poolSize : Nat
  poolBlocks : List Nat
  freeList : List Slot
deriving DecidableEq

namespace PoolAllocator

/-- `PoolAllocator::expand_pool`. -/
def expandPool (pool : PoolAllocator) (n : Nat) : PoolAllocator :=
  let newPoolSize := max pool.poolSize n
  { poolSize := newPoolSize * 2
    poolBlocks := pool.poolBlocks ++ [newPoolSize]
    freeList := pool.freeList ++ (List.range newPoolSize).map (Slot.mk pool.poolBlocks.length) }

/-- The constructor. -/
def create (initialSize : Nat) : PoolAllocator :=
  expandPool ⟨initialSize, [], []⟩ initialSize

/-- `PoolAllocator::allocate`: there is no result when the back of an empty vector is read. -/
def allocate (pool : PoolAllocator) (n : Nat) : Option (Slot × PoolAllocator) :=
  let pool := if pool.freeList.length < n then pool.expandPool n else pool
  pool.freeList.getLast?.map fun result =>
    (result, { pool with freeList := pool.freeList.dropLast })

/-- `PoolAllocator::deallocate`: the size is not looked at. -/
def deallocate (pool : PoolAllocator) (ptr : Slot) (_ : Nat) : PoolAllocator :=
  { pool with freeList := pool.freeList ++ [ptr] }

/-! ### The accounting of slots -/

/-- Whether some slots from one on lie inside one block. -/
def InBlock (pool : PoolAllocator) (start : Slot) (count : Nat) : Prop :=
  ∃ size, pool.poolBlocks[start.block]? = some size ∧ start.index + count ≤ size

/-- Whether every slot of every block is once in the free list or among those handed out. -/
structure Accounted (pool : PoolAllocator) (handed : List Slot) : Prop where
  once : (pool.freeList ++ handed).Nodup
  slots : ∀ slot, slot ∈ pool.freeList ++ handed ↔ pool.InBlock slot 1

variable {pool : PoolAllocator} {handed : List Slot}

theorem Accounted.perm {other : List Slot} (accounted : pool.Accounted handed)
    (perm : handed.Perm other) : pool.Accounted other where
  once := (perm.append_left pool.freeList).nodup_iff.mp accounted.once
  slots slot := ((perm.append_left pool.freeList).mem_iff).symm.trans (accounted.slots slot)

theorem InBlock.expandPool {start : Slot} {count : Nat} (inBlock : pool.InBlock start count)
    (n : Nat) : (pool.expandPool n).InBlock start count := by
  obtain ⟨size, found, fits⟩ := inBlock
  obtain ⟨less, -⟩ := List.getElem?_eq_some_iff.mp found
  exact ⟨size, (List.getElem?_append_left less).trans found, fits⟩

/-- A new block adds its slots to the free list. -/
theorem Accounted.expandPool (accounted : pool.Accounted handed) (n : Nat) :
    (pool.expandPool n).Accounted handed := by
  have fresh : ∀ slot ∈ pool.freeList ++ handed, slot.block < pool.poolBlocks.length := by
    intro slot member
    obtain ⟨size, found, -⟩ := (accounted.slots slot).mp member
    exact (List.getElem?_eq_some_iff.mp found).1
  have added : ∀ slot, slot ∈ (List.range (max pool.poolSize n)).map
      (Slot.mk pool.poolBlocks.length) ↔
      slot.block = pool.poolBlocks.length ∧ slot.index < max pool.poolSize n := by
    rintro ⟨block, index⟩
    rw [List.mem_map]
    constructor
    · rintro ⟨position, inRange, same⟩
      cases same
      exact ⟨rfl, List.mem_range.mp inRange⟩
    · rintro ⟨rfl, less⟩
      exact ⟨index, List.mem_range.mpr less, rfl⟩
  have shuffled : (pool.freeList ++ (List.range (max pool.poolSize n)).map
      (Slot.mk pool.poolBlocks.length) ++ handed).Perm (pool.freeList ++ handed ++
        (List.range (max pool.poolSize n)).map (Slot.mk pool.poolBlocks.length)) := by
    rw [List.append_assoc, List.append_assoc]
    exact List.perm_append_comm.append_left _
  refine ⟨shuffled.nodup_iff.mpr (List.nodup_append.mpr ⟨accounted.once, ?_, ?_⟩),
    fun slot => shuffled.mem_iff.trans ?_⟩
  · refine List.nodup_range.map fun first second same => ?_
    exact congrArg Slot.index same
  · intro old inOld new inNew same
    have less := fresh old inOld
    rw [same, ((added new).mp inNew).1] at less
    exact Nat.lt_irrefl _ less
  · rw [List.mem_append, accounted.slots, added]
    constructor
    · rintro (old | ⟨block, less⟩)
      · exact old.expandPool n
      · refine ⟨max pool.poolSize n, ?_, less⟩
        show (pool.poolBlocks ++ [_])[slot.block]? = _
        rw [block, List.getElem?_concat_length]
    · rintro ⟨size, found, fits⟩
      change (pool.poolBlocks ++ [max pool.poolSize n])[slot.block]? = some size at found
      obtain ⟨less, same⟩ := List.getElem?_eq_some_iff.mp found
      rw [List.length_append, List.length_singleton] at less
      rcases Nat.lt_or_ge slot.block pool.poolBlocks.length with old | new
      · rw [List.getElem?_append_left old] at found
        exact Or.inl ⟨size, found, fits⟩
      · have last : slot.block = pool.poolBlocks.length := by omega
        rw [last, List.getElem?_concat_length] at found
        cases found
        exact Or.inr ⟨last, fits⟩

theorem create_accounted (initialSize : Nat) : (create initialSize).Accounted [] := by
  refine Accounted.expandPool ⟨List.nodup_nil, fun slot => ?_⟩ initialSize
  refine iff_of_false List.not_mem_nil ?_
  rintro ⟨size, found, -⟩
  cases found

/-- An allocation takes one free slot. -/
theorem Accounted.allocate (accounted : pool.Accounted handed) {n : Nat} (some : 0 < n) :
    ∃ slot after, pool.allocate n = .some (slot, after) ∧ after.Accounted (slot :: handed) := by
  rw [PoolAllocator.allocate]
  have enough : ∃ larger : PoolAllocator,
      (if pool.freeList.length < n then pool.expandPool n else pool) = larger ∧
        larger.Accounted handed ∧ larger.freeList ≠ [] := by
    split_ifs with short
    · refine ⟨_, rfl, accounted.expandPool n, fun none => ?_⟩
      have size : (pool.expandPool n).freeList.length = 0 := by rw [none]; rfl
      rw [PoolAllocator.expandPool, List.length_append, List.length_map, List.length_range] at size
      omega
    · refine ⟨pool, rfl, accounted, fun none => ?_⟩
      rw [none, List.length_nil] at short
      omega
  obtain ⟨larger, largerEq, kept, nonempty⟩ := enough
  rw [largerEq]
  have split := List.dropLast_append_getLast nonempty
  refine ⟨larger.freeList.getLast nonempty, { larger with freeList := larger.freeList.dropLast },
    ?_, ?_⟩
  · simp only [List.getLast?_eq_some_getLast nonempty, Option.map_some]
  · have moved : (larger.freeList.dropLast ++ larger.freeList.getLast nonempty :: handed) =
        larger.freeList ++ handed := by
      rw [← List.singleton_append, ← List.append_assoc, split]
    refine ⟨?_, fun slot => ?_⟩
    · show (larger.freeList.dropLast ++ _ :: handed).Nodup
      rw [moved]
      exact kept.once
    · show slot ∈ larger.freeList.dropLast ++ _ :: handed ↔ _
      rw [moved]
      exact kept.slots slot

/-- A deallocation frees a slot that was handed out. -/
theorem Accounted.deallocate {slot : Slot} (accounted : pool.Accounted (slot :: handed)) (n : Nat) :
    (pool.deallocate slot n).Accounted handed := by
  have moved : pool.freeList ++ [slot] ++ handed = pool.freeList ++ slot :: handed := by
    rw [List.append_assoc, List.singleton_append]
  refine ⟨?_, fun other => ?_⟩
  · show (pool.freeList ++ [slot] ++ handed).Nodup
    rw [moved]
    exact accounted.once
  · show other ∈ pool.freeList ++ [slot] ++ handed ↔ _
    rw [moved]
    exact accounted.slots other

/-- A slot that has just been handed out was not handed out before. -/
theorem Accounted.not_mem {slot : Slot} (accounted : pool.Accounted (slot :: handed)) :
    slot ∉ handed := (List.nodup_cons.mp (List.nodup_append.mp accounted.once).2.1).1

theorem Accounted.inBlock (accounted : pool.Accounted handed) {slot : Slot}
    (member : slot ∈ handed) : pool.InBlock slot 1 :=
  (accounted.slots slot).mp (List.mem_append_right _ member)

end PoolAllocator

/-! ### Runs of a pool -/

/-- What an allocation was given: the slots that follow a pointer. -/
structure PoolAllocation where
  start : Slot
  count : Nat
deriving DecidableEq

def PoolAllocation.Owns (allocation : PoolAllocation) (slot : Slot) : Prop :=
  slot.block = allocation.start.block ∧ allocation.start.index ≤ slot.index ∧
    slot.index < allocation.start.index + allocation.count

inductive PoolRequest
  | allocate (n : Nat)
  | deallocate (ptr : Slot) (n : Nat)
deriving DecidableEq

/-- A pool and its live allocations. -/
structure PoolState where
  pool : PoolAllocator
  live : List PoolAllocation

abbrev PoolCall := Transition PoolState PoolRequest (Option Slot)

namespace PoolState

def create (initialSize : Nat) : PoolState := ⟨PoolAllocator.create initialSize, []⟩

/-- One request, and the pointer it returns. -/
def step (state : PoolState) : PoolRequest → PoolState × Option Slot
  | .allocate n =>
    match state.pool.allocate n with
    | some (ptr, pool) => (⟨pool, ⟨ptr, n⟩ :: state.live⟩, some ptr)
    | none => (state, none)
  | .deallocate ptr n => (⟨state.pool.deallocate ptr n, state.live.erase ⟨ptr, n⟩⟩, none)

def run (initialSize : Nat) (requests : List PoolRequest) : List PoolCall :=
  Machine.run step (create initialSize) requests

end PoolState

/-- A request for at least one slot, or the return of a live allocation. -/
def LegalRequest (call : PoolCall) : Prop :=
  match call.input with
  | .allocate n => 0 < n
  | .deallocate ptr n => ⟨ptr, n⟩ ∈ call.before.live

/-- Whether an allocation returns slots of one block that no other live allocation has. -/
def GivesDisjoint (call : PoolCall) : Prop :=
  ∀ n, call.input = .allocate n → ∃ ptr, call.output = some ptr ∧
    call.after.pool.InBlock ptr n ∧
    ∀ other ∈ call.before.live, ∀ slot, PoolAllocation.Owns ⟨ptr, n⟩ slot → ¬ other.Owns slot

/-- Whether a request is not for several slots. -/
def SingleSlot (call : PoolCall) : Prop :=
  match call.input with
  | .allocate n => n = 1
  | .deallocate _ _ => True

instance : DecidablePred LegalRequest
  | ⟨_, .allocate n, _, _⟩ => inferInstanceAs (Decidable (0 < n))
  | ⟨before, .deallocate ptr n, _, _⟩ => inferInstanceAs (Decidable (⟨ptr, n⟩ ∈ before.live))

instance : DecidablePred SingleSlot
  | ⟨_, .allocate n, _, _⟩ => inferInstanceAs (Decidable (n = 1))
  | ⟨_, .deallocate _ _, _, _⟩ => inferInstanceAs (Decidable True)

namespace PoolState

/-- What holds along every run of single slots. -/
structure Single (state : PoolState) : Prop where
  accounted : state.pool.Accounted (state.live.map PoolAllocation.start)
  single : ∀ allocation ∈ state.live, allocation.count = 1

theorem PoolAllocation.eq_start {allocation : PoolAllocation} (single : allocation.count = 1)
    {slot : Slot} (owns : allocation.Owns slot) : slot = allocation.start := by
  obtain ⟨block, least, most⟩ := owns
  rw [single] at most
  exact Slot.ext block (by omega)

theorem Single.step {state : PoolState} (holds : state.Single) {request : PoolRequest}
    (legal : LegalRequest (Machine.transition PoolState.step state request))
    (one : SingleSlot (Machine.transition PoolState.step state request)) :
    (state.step request).1.Single ∧
      GivesDisjoint (Machine.transition PoolState.step state request) := by
  cases request with
  | allocate n =>
    have same : n = 1 := one
    subst same
    obtain ⟨ptr, after, found, accounted⟩ := holds.accounted.allocate Nat.one_pos
    have stepped : state.step (.allocate 1) = (⟨after, ⟨ptr, 1⟩ :: state.live⟩, some ptr) := by
      rw [PoolState.step, found]
    have fresh : ptr ∉ state.live.map PoolAllocation.start := accounted.not_mem
    refine ⟨?_, ?_⟩
    · rw [stepped]
      refine ⟨accounted, fun allocation member => ?_⟩
      rcases List.mem_cons.mp member with new | old
      · rw [new]
      · exact holds.single allocation old
    · rintro n asked
      cases asked
      refine ⟨ptr, congrArg Prod.snd stepped, ?_, fun other member slot owns taken => fresh ?_⟩
      · show (state.step (.allocate 1)).1.pool.InBlock ptr 1
        rw [stepped]
        exact accounted.inBlock List.mem_cons_self
      · have own : slot = ptr := PoolAllocation.eq_start rfl owns
        rw [← own, PoolAllocation.eq_start (holds.single other member) taken]
        exact List.mem_map_of_mem member
  | deallocate ptr n =>
    have live : ⟨ptr, n⟩ ∈ state.live := legal
    refine ⟨⟨?_, fun allocation member => ?_⟩, fun _ asked => by cases asked⟩
    · refine PoolAllocator.Accounted.deallocate (holds.accounted.perm ?_) n
      exact (List.perm_cons_erase live).map PoolAllocation.start
    · exact holds.single allocation (List.mem_of_mem_erase member)

/-- In every run whose allocations are of one slot each, every allocation is disjoint from the
other live ones. -/
theorem single_allocations_disjoint (initialSize : Nat) (requests : List PoolRequest)
    (legal : ∀ call ∈ run initialSize requests, LegalRequest call)
    (single : ∀ call ∈ run initialSize requests, SingleSlot call) :
    ∀ call ∈ run initialSize requests, GivesDisjoint call := by
  have kept : ∀ call ∈ run initialSize requests, LegalRequest call ∧ SingleSlot call :=
    fun call member => ⟨legal call member, single call member⟩
  refine (Machine.run_induction
    (motive := fun past state => state.Single ∧ ∀ call ∈ past, GivesDisjoint call) step ?_ ?_
    requests kept).2
  · exact ⟨⟨PoolAllocator.create_accounted initialSize, fun _ member => by cases member⟩,
      fun _ member => by cases member⟩
  · rintro past state request ⟨holds, given⟩ ⟨legalRequest, one⟩
    obtain ⟨kept, disjoint⟩ := holds.step legalRequest one
    refine ⟨kept, fun call member => ?_⟩
    rcases List.mem_append.mp member with old | latest
    · exact given call old
    · rw [List.mem_singleton.mp latest]
      exact disjoint

/-- Slots are taken, returned and taken again. -/
def sampleRequests : List PoolRequest :=
  [.allocate 1, .allocate 1, .deallocate ⟨0, 0⟩ 1, .allocate 1]

theorem sample_allocations_disjoint :
    (run 1 sampleRequests).map Transition.output =
        [some ⟨0, 0⟩, some ⟨1, 1⟩, none, some ⟨0, 0⟩] ∧
      ∀ call ∈ run 1 sampleRequests, GivesDisjoint call :=
  ⟨by decide, single_allocations_disjoint 1 sampleRequests (by decide) (by decide)⟩

/-- Two slots are asked for, and the pointer returned is to the last slot of the block. -/
theorem allocation_leaves_block : ¬ ∀ call ∈ run 2 [.allocate 2], GivesDisjoint call := by
  intro given
  obtain ⟨ptr, returned, ⟨size, found, fits⟩, -⟩ := given _ List.mem_cons_self 2 rfl
  have last : ptr = ⟨0, 1⟩ := (Option.some.inj returned).symm
  subst last
  have whole : size = 2 := (Option.some.inj found).symm
  subst whole
  exact absurd fits (by decide)

/-- Of several slots no more than the first is taken: the second one, if it is inside the block, is
still free or is where another live allocation starts. -/
theorem second_slot_not_taken {pool after : PoolAllocator} {handed : List Slot}
    (accounted : pool.Accounted handed) {n : Nat} (several : 2 ≤ n) {ptr : Slot}
    (found : pool.allocate n = some (ptr, after)) (inBlock : after.InBlock ptr n) :
    ⟨ptr.block, ptr.index + 1⟩ ∈ after.freeList ++ handed := by
  obtain ⟨slot, result, same, kept⟩ := accounted.allocate (by omega : 0 < n)
  rw [found] at same
  cases same
  obtain ⟨size, block, fits⟩ := inBlock
  have member := (kept.slots ⟨ptr.block, ptr.index + 1⟩).mpr ⟨size, block, by
    show ptr.index + 1 + 1 ≤ size
    omega⟩
  rcases List.mem_append.mp member with free | taken
  · exact List.mem_append_left _ free
  · rcases List.mem_cons.mp taken with own | other
    · have index : ptr.index + 1 = ptr.index := congrArg Slot.index own
      omega
    · exact List.mem_append_right _ other

end PoolState

end OrderForge
