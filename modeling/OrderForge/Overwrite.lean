/-
This file proves what the space handed out to the producer can overlap. The producer
goes by its own counters alone: nothing keeps it out of a block that the consumer has
not read. So an unread record that the space overlaps is one left over in the block
from before the producer entered it, and there is none when the block was read by
then.
-/

import OrderForge.LoggerInvariant

namespace OrderForge

variable {Byte : Type}

/-- The record lies on some of the space at a pointer. -/
def Placed.Overlaps (record : Placed Byte) (pointer : Pointer) (space : Nat) : Prop :=
  record.pointer.block = pointer.block ∧
    pointer.offset < record.pointer.offset + record.bytes.length ∧
    record.pointer.offset < pointer.offset + space

instance Placed.decidableOverlaps (record : Placed Byte) (pointer : Pointer) (space : Nat) :
    Decidable (record.Overlaps pointer space) :=
  inferInstanceAs (Decidable (_ ∧ _ ∧ _))

namespace Logger

variable [DecidableEq Byte] {format : RecordFormat Byte}

/-- The record was unread in the block when the producer last entered it. -/
def LeftOver (past : List (Transition (Logger Byte) (BufferCall format) (Answer Byte)))
    (record : Placed Byte) : Prop :=
  ∃ earlier entry since, past = earlier ++ entry :: since ∧ entry.before.Enters entry.input ∧
    (∀ call ∈ since, ¬ call.before.Enters call.input) ∧ record ∈ entry.before.unread ∧
    record.pointer.block = entry.after.ringBuffer.writeBlockIndex

variable {past : List (Transition (Logger Byte) (BufferCall format) (Answer Byte))}
  {logger : Logger Byte} {record : Placed Byte}

omit [DecidableEq Byte] in
theorem LeftOver.concat (leftOver : LeftOver past record)
    {call : Transition (Logger Byte) (BufferCall format) (Answer Byte)}
    (stays : ¬ call.before.Enters call.input) : LeftOver (past ++ [call]) record := by
  obtain ⟨earlier, entry, since, rfl, enters, others, member, block⟩ := leftOver
  refine ⟨earlier, entry, since ++ [call], ?_, enters, ?_, member, block⟩
  · rw [List.append_assoc, List.cons_append]
  · exact List.forall_mem_append.mpr ⟨others, List.forall_mem_singleton.mpr stays⟩

/-- A call by which the producer enters no block leaves it in its block, no further back; a
record it makes unread lies in front of the producer. -/
theorem step_stays (laid : Laid logger) {call : BufferCall format} (proper : logger.Proper call)
    (stays : ¬ logger.Enters call) :
    (step logger call).1.ringBuffer.writeBlockIndex = logger.ringBuffer.writeBlockIndex ∧
      logger.ringBuffer.writePtrOffset ≤ (step logger call).1.ringBuffer.writePtrOffset ∧
      ∀ record ∈ (step logger call).1.unread, record ∈ logger.unread ∨
        record.pointer.offset + record.bytes.length ≤
          (step logger call).1.ringBuffer.writePtrOffset := by
  cases call with
  | getWritePointer wantedSpace =>
    rw [step_getWritePointer, RingBuffer.getWritePointer_fits stays]
    exact ⟨rfl, Nat.le_refl _, fun _ => Or.inl⟩
  | fill record =>
    obtain ⟨pointer, reserved⟩ := Producer.space?_eq_some.mp proper
    rw [step_fill reserved]
    exact ⟨rfl, Nat.le_refl _, fun _ => Or.inl⟩
  | forwardWritePointer newWriteOffset =>
    obtain ⟨record, filled, rfl⟩ := Option.map_eq_some_iff.mp proper
    rw [Producer.record?_eq_some] at filled
    have offset := laid.forwardWritePointer_offset filled
    rw [step_forwardWritePointer filled]
    refine ⟨rfl, ?_, fun other member => ?_⟩
    · rw [offset, (laid.filled _ filled).1]
      exact Nat.le_add_right _ _
    · rcases List.mem_append.mp member with member | member
      · exact .inl member
      · rw [List.mem_singleton.mp member, offset]
        exact .inr (Nat.le_refl _)
  | canRead =>
    obtain ⟨-, -, block, offset, -⟩ := logger.ringBuffer.checkWrapReadPointer_writer
    rw [step_canRead]
    exact ⟨block, Nat.le_of_eq offset.symm, fun _ => Or.inl⟩
  | getReadPointer =>
    obtain ⟨-, -, block, offset, -⟩ := logger.ringBuffer.checkWrapReadPointer_writer
    exact ⟨block, Nat.le_of_eq offset.symm, fun _ => Or.inl⟩
  | consume =>
    obtain ⟨pointer, pointing⟩ := Option.isSome_iff_exists.mp proper
    rw [Consumer.pointer?_eq_some] at pointing
    rw [step_consume pointing rfl]
    exact ⟨rfl, Nat.le_refl _, fun _ member => .inl (List.mem_of_mem_erase member)⟩
  | forwardReadPointer newReadOffset => exact ⟨rfl, Nat.le_refl _, fun _ => Or.inl⟩

/-- No call changes the number of blocks or their size. -/
theorem step_sizes (logger : Logger Byte) (call : BufferCall format) :
    (step logger call).1.ringBuffer.memBlockSize = logger.ringBuffer.memBlockSize ∧
      (step logger call).1.ringBuffer.memBlocks.length =
        logger.ringBuffer.memBlocks.length := by
  cases call with
  | getWritePointer wantedSpace =>
    rw [step_getWritePointer]
    by_cases overflows : logger.ringBuffer.Overflows wantedSpace
    · rw [RingBuffer.getWritePointer_overflows overflows]
      exact ⟨rfl, rfl⟩
    · rw [RingBuffer.getWritePointer_fits overflows]
      exact ⟨rfl, rfl⟩
  | fill record =>
    rw [step]
    split
    · exact ⟨rfl, RingBuffer.length_fill _ _ _⟩
    · exact ⟨rfl, rfl⟩
  | forwardWritePointer newWriteOffset =>
    rw [step]
    split <;> exact ⟨rfl, rfl⟩
  | canRead =>
    obtain ⟨blocks, size, -⟩ := logger.ringBuffer.checkWrapReadPointer_writer
    rw [step_canRead]
    exact ⟨size, congrArg List.length blocks⟩
  | getReadPointer =>
    obtain ⟨blocks, size, -⟩ := logger.ringBuffer.checkWrapReadPointer_writer
    exact ⟨size, congrArg List.length blocks⟩
  | consume =>
    rw [step]
    split <;> exact ⟨rfl, rfl⟩
  | forwardReadPointer newReadOffset => exact ⟨rfl, rfl⟩

/-- What is known of the unread records after the calls `past`. -/
structure Accounted (allocation : Allocation Byte)
    (past : List (Transition (Logger Byte) (BufferCall format) (Answer Byte)))
    (logger : Logger Byte) : Prop where
  laid : Laid logger
  size : logger.ringBuffer.memBlockSize = allocation.memBlockSize
  blocks : logger.ringBuffer.memBlocks.length = allocation.blocks.length
  accounted : ∀ record ∈ logger.unread,
    record.pointer.block = logger.ringBuffer.writeBlockIndex →
      record.pointer.offset + record.bytes.length ≤ logger.ringBuffer.writePtrOffset ∨
        LeftOver past record

theorem Accounted.concat {allocation : Allocation Byte} (known : Accounted allocation past logger)
    {call : BufferCall format} (proper : logger.Proper call) :
    Accounted allocation (past ++ [Machine.transition step logger call]) (step logger call).1 where
  laid := known.laid.step proper
  size := (step_sizes logger call).1.trans known.size
  blocks := (step_sizes logger call).2.trans known.blocks
  accounted := by
    intro record member block
    by_cases enters : logger.Enters call
    · refine .inr ⟨past, _, [], rfl, enters, fun _ => (by intro none; cases none), ?_, block⟩
      cases call with
      | getWritePointer wantedSpace => exact member
      | fill | forwardWritePointer | canRead | getReadPointer | consume | forwardReadPointer =>
        exact absurd enters id
    · obtain ⟨same, further, others⟩ := step_stays known.laid proper enters
      rcases others record member with old | front
      · exact (known.accounted record old (block.trans same)).imp
          (fun front => Nat.le_trans front further) fun leftOver => leftOver.concat enters
      · exact .inl front

theorem run_accounted (allocation : Allocation Byte) (several : 2 ≤ allocation.blocks.length)
    (calls : List (BufferCall format))
    (proper : ∀ call ∈ run (create allocation) calls, call.before.Proper call.input) :
    Accounted allocation (run (create allocation) calls) (final (create allocation) calls) :=
  Machine.run_induction step
    ⟨laid_create allocation several, rfl, rfl, fun _ none => (by cases none)⟩
    (fun _ _ _ known proper => known.concat proper) calls proper

theorem Accounted.overlaps {allocation : Allocation Byte} (known : Accounted allocation past logger)
    {wantedSpace : Nat} (fits : wantedSpace ≤ allocation.memBlockSize)
    (member : record ∈ logger.unread)
    (overlaps : record.Overlaps (logger.ringBuffer.getWritePointer wantedSpace).2 wantedSpace) :
    LeftOver (past ++ [Machine.transition step logger
      (.getWritePointer wantedSpace : BufferCall format)]) record := by
  obtain ⟨block, behind, -⟩ := overlaps
  by_cases enters : logger.ringBuffer.Overflows wantedSpace
  · obtain ⟨place, -⟩ := known.laid.getWritePointer_region (known.size.symm ▸ fits)
    exact ⟨past, _, [], rfl, enters, fun _ none => (by cases none), member,
      block.trans (congrArg Pointer.block place)⟩
  · rw [RingBuffer.getWritePointer_fits enters] at block behind
    rcases known.accounted record member block with front | leftOver
    · exact absurd front (Nat.not_le.mpr behind)
    · exact leftOver.concat enters

/-- The space a call hands out lies inside one block, and an unread record it overlaps was
unread in that block when the producer last entered it. -/
theorem space_overlaps_left_over (allocation : Allocation Byte)
    (several : 2 ≤ allocation.blocks.length) (calls : List (BufferCall format))
    (proper : ∀ call ∈ run (create allocation) calls, call.before.Proper call.input)
    {past later : List (Transition (Logger Byte) (BufferCall format) (Answer Byte))}
    {call : Transition (Logger Byte) (BufferCall format) (Answer Byte)}
    (split : run (create allocation) calls = past ++ call :: later) {wantedSpace : Nat}
    (asked : call.input = .getWritePointer wantedSpace) :
    ∃ pointer, call.output = .pointer pointer ∧ pointer.block < allocation.blocks.length ∧
      pointer.offset + wantedSpace ≤ allocation.memBlockSize ∧
      ∀ record ∈ call.before.unread, record.Overlaps pointer wantedSpace →
        LeftOver (past ++ [call]) record := by
  obtain ⟨front, input, back, -, rfl, rfl⟩ := Machine.run_split step split
  obtain rfl : input = .getWritePointer wantedSpace := asked
  obtain ⟨-, -, fits⟩ := proper _ (split ▸ List.mem_append_right _ List.mem_cons_self)
  have known := run_accounted allocation several front fun other member =>
    proper other (split ▸ List.mem_append_left _ member)
  obtain ⟨-, block, room⟩ := known.laid.getWritePointer_region fits
  rw [known.blocks] at block
  rw [known.size] at room
  exact ⟨_, rfl, block, room, fun record member overlaps =>
    known.overlaps (known.size ▸ fits) member overlaps⟩

/-- Two records fill both blocks, and the producer asks for the space of a third. -/
def sampleOverrun : List (BufferCall sampleFormat) :=
  writeBuffer (sampleRecord 5) ++ writeBuffer (sampleRecord 6) ++ [.getWritePointer 2]

theorem sample_space :
    ∃ pointer, ((run (create sampleAllocation) sampleOverrun).get ⟨6, by decide⟩).output =
        .pointer pointer ∧ pointer.block < 2 ∧ pointer.offset + 2 ≤ 2 ∧
      ∀ record ∈ ((run (create sampleAllocation) sampleOverrun).get ⟨6, by decide⟩).before.unread,
        record.Overlaps pointer 2 →
          LeftOver (run (create sampleAllocation) sampleOverrun) record :=
  space_overlaps_left_over sampleAllocation (by decide) sampleOverrun (by decide)
    (show _ = (run (create sampleAllocation) sampleOverrun).take 6 ++ _ :: [] from rfl) rfl

/-- The space for the third record is that of the first, which has not been read. -/
theorem space_overlaps_unread :
    (∀ call ∈ run (create sampleAllocation) sampleOverrun, call.before.Proper call.input) ∧
      ∃ call ∈ run (create sampleAllocation) sampleOverrun,
        call.input = .getWritePointer 2 ∧ ∃ pointer, call.output = .pointer pointer ∧
          ∃ record ∈ call.before.unread, record.Overlaps pointer 2 := by
  refine ⟨by decide, _, List.mem_of_getElem? (i := 6) rfl, rfl, _, rfl, ?_⟩
  decide

end Logger

end OrderForge
