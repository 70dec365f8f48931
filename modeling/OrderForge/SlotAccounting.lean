/-
This file settles whether a pool loses slots or hands one out twice. A user of the
pool may allocate, return any pointer that is handed out and expand the pool, in any
order, the initial size being zero or not. Along every such run each slot of each
block is once in the free list or once among the pointers handed out, whatever sizes
are asked for, so an allocation never finds the free list empty.
-/

import OrderForge.PoolAllocator

namespace OrderForge

/-- A call on a pool. -/
inductive SlotRequest
  | allocate (n : Nat)
  | deallocate (ptr : Slot) (n : Nat)
  | expandPool (n : Nat)
deriving DecidableEq

/-- A pool and the pointers that are handed out. -/
structure SlotState where
  pool : PoolAllocator
  handed : List Slot
deriving DecidableEq

/-- A call of a run, with the pointer it returns. -/
abbrev SlotCall := Transition SlotState SlotRequest (Option Slot)

namespace SlotState

def create (initialSize : Nat) : SlotState := ⟨PoolAllocator.create initialSize, []⟩

/-- One call. When the back of an empty free list is read, nothing is returned. -/
def step (state : SlotState) : SlotRequest → SlotState × Option Slot
  | .allocate n =>
    match state.pool.allocate n with
    | some (ptr, pool) => (⟨pool, ptr :: state.handed⟩, some ptr)
    | none => (state, none)
  | .deallocate ptr n => (⟨state.pool.deallocate ptr n, state.handed.erase ptr⟩, none)
  | .expandPool n => (⟨state.pool.expandPool n, state.handed⟩, none)

def run (initialSize : Nat) (requests : List SlotRequest) : List SlotCall :=
  Machine.run step (create initialSize) requests

def final (initialSize : Nat) (requests : List SlotRequest) : SlotState :=
  Machine.final step (create initialSize) requests

/-- Whether every slot of every block is once in the free list or once among the pointers handed
out. -/
def Accounted (state : SlotState) : Prop := state.pool.Accounted state.handed

end SlotState

namespace SlotCall

/-- A call that asks for at least one slot, returns a pointer that is handed out, or expands the
pool. -/
def Legal (call : SlotCall) : Prop :=
  match call.input with
  | .allocate n => 0 < n
  | .deallocate ptr _ => ptr ∈ call.before.handed
  | .expandPool _ => True

instance : DecidablePred Legal
  | ⟨_, .allocate n, _, _⟩ => inferInstanceAs (Decidable (0 < n))
  | ⟨before, .deallocate ptr _, _, _⟩ => inferInstanceAs (Decidable (ptr ∈ before.handed))
  | ⟨_, .expandPool _, _, _⟩ => inferInstanceAs (Decidable True)

/-- Whether an allocation returns a pointer that was not handed out. -/
def ReturnsFree (call : SlotCall) : Prop :=
  ∀ n, call.input = .allocate n → ∃ ptr, call.output = some ptr ∧ ptr ∉ call.before.handed

end SlotCall

namespace SlotState

variable {state : SlotState}

/-- A legal call keeps the account. -/
theorem Accounted.step (accounted : state.Accounted) {request : SlotRequest}
    (legal : SlotCall.Legal (Machine.transition SlotState.step state request)) :
    (state.step request).1.Accounted ∧
      SlotCall.ReturnsFree (Machine.transition SlotState.step state request) := by
  cases request with
  | allocate n =>
    obtain ⟨ptr, after, found, kept⟩ := PoolAllocator.Accounted.allocate accounted legal
    have stepped : state.step (.allocate n) = (⟨after, ptr :: state.handed⟩, some ptr) := by
      rw [SlotState.step, found]
    refine ⟨?_, fun _ _ => ⟨ptr, congrArg Prod.snd stepped, kept.not_mem⟩⟩
    rw [stepped]
    exact kept
  | deallocate ptr n =>
    have returned : ptr ∈ state.handed := legal
    refine ⟨?_, fun _ asked => by cases asked⟩
    exact (accounted.perm (List.perm_cons_erase returned)).deallocate n
  | expandPool n =>
    refine ⟨?_, fun _ asked => by cases asked⟩
    exact PoolAllocator.Accounted.expandPool accounted n

/-- Along every run of legal calls every slot is accounted for, and what an allocation returns was
free. -/
theorem slots_accounted (initialSize : Nat) (requests : List SlotRequest)
    (legal : ∀ call ∈ run initialSize requests, SlotCall.Legal call) :
    (final initialSize requests).Accounted ∧
      ∀ call ∈ run initialSize requests, call.after.Accounted ∧ SlotCall.ReturnsFree call := by
  refine Machine.run_induction
    (motive := fun past state => state.Accounted ∧
      ∀ call ∈ past, call.after.Accounted ∧ SlotCall.ReturnsFree call) step ?_ ?_ requests legal
  · exact ⟨PoolAllocator.create_accounted initialSize, fun _ none => (List.not_mem_nil none).elim⟩
  · rintro past state request ⟨accounted, kept⟩ admitted
    obtain ⟨next, free⟩ := accounted.step admitted
    exact ⟨next, List.forall_mem_append.mpr
      ⟨kept, List.forall_mem_singleton.mpr ⟨next, free⟩⟩⟩

/-- A pool that starts empty; nodes of eight bytes are asked for by their size, and the user expands
the pool in between. -/
def sampleRequests : List SlotRequest :=
  [.allocate 8, .allocate 8, .expandPool 2, .deallocate ⟨1, 7⟩ 8, .allocate 8, .allocate 1]

theorem sample_slots_accounted :
    (run 0 sampleRequests).map Transition.output =
        [some ⟨1, 7⟩, some ⟨2, 15⟩, none, none, some ⟨1, 7⟩, some ⟨3, 31⟩] ∧
      (final 0 sampleRequests).Accounted ∧
      ∀ call ∈ run 0 sampleRequests, call.after.Accounted ∧ SlotCall.ReturnsFree call :=
  ⟨by decide, slots_accounted 0 sampleRequests (by decide)⟩

end SlotState

end OrderForge
