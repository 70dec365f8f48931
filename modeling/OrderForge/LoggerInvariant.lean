/-
This file proves what holds of the log's buffer in any run whose calls are made in
their order, however far one side is ahead of the other: the space the producer has
is in its block, from its offset on, and every record lies inside a block.
-/

import Mathlib.Data.List.GetD
import OrderForge.Logger

namespace OrderForge

variable {Byte : Type}

namespace RingBuffer

/-- With an offset and a wanted space that fit into a block the sum does not wrap round. -/
theorem overflows_iff {buffer : RingBuffer Byte} {wantedSpace : Nat}
    (addressable : buffer.memBlockSize < 2 ^ 63)
    (offset : buffer.writePtrOffset ≤ buffer.memBlockSize)
    (fits : wantedSpace ≤ buffer.memBlockSize) :
    buffer.Overflows wantedSpace ↔
      buffer.memBlockSize < buffer.writePtrOffset + wantedSpace := by
  rw [Overflows, Nat.mod_eq_of_lt (by omega)]

theorem length_block {buffer : RingBuffer Byte}
    (whole : ∀ block ∈ buffer.memBlocks, block.length = buffer.memBlockSize) {index : Nat}
    (bound : index < buffer.memBlocks.length) :
    (buffer.block index).length = buffer.memBlockSize := by
  rw [block, List.getD_eq_getElem _ _ bound]
  exact whole _ (List.getElem_mem bound)

theorem whole_fill {buffer : RingBuffer Byte}
    (whole : ∀ block ∈ buffer.memBlocks, block.length = buffer.memBlockSize)
    (pointer : Pointer) (bytes : List Byte)
    (fits : pointer.offset + bytes.length ≤ buffer.memBlockSize) :
    ∀ block ∈ (buffer.fill pointer bytes).memBlocks, block.length = buffer.memBlockSize := by
  intro block member
  obtain ⟨index, bound, rfl⟩ := List.getElem_of_mem member
  rw [length_fill] at bound
  have size := whole _ (List.getElem_mem bound)
  simp only [fill, List.getElem_modify]
  split
  · rw [Splice.length_splice (size.symm ▸ fits), size]
  · exact size

end RingBuffer

namespace Logger

/-- The space the producer has starts at its pointer, and every record lies inside a block. -/
structure Laid (logger : Logger Byte) : Prop where
  several : 2 ≤ logger.ringBuffer.memBlocks.length
  addressable : logger.ringBuffer.memBlockSize < 2 ^ 63
  whole : ∀ block ∈ logger.ringBuffer.memBlocks, block.length = logger.ringBuffer.memBlockSize
  marks : logger.ringBuffer.memBlocksEnd.length = logger.ringBuffer.memBlocks.length
  block : logger.ringBuffer.writeBlockIndex < logger.ringBuffer.memBlocks.length
  offset : logger.ringBuffer.writePtrOffset ≤ logger.ringBuffer.memBlockSize
  reserved : ∀ pointer wantedSpace, logger.producer = .reserved pointer wantedSpace →
    pointer = ⟨logger.ringBuffer.writeBlockIndex, logger.ringBuffer.writePtrOffset⟩ ∧
      0 < wantedSpace ∧ pointer.offset + wantedSpace ≤ logger.ringBuffer.memBlockSize
  filled : ∀ record, logger.producer = .filled record →
    record.pointer =
        ⟨logger.ringBuffer.writeBlockIndex, logger.ringBuffer.writePtrOffset⟩ ∧
      0 < record.bytes.length ∧
      record.pointer.offset + record.bytes.length ≤ logger.ringBuffer.memBlockSize
  inside : ∀ record ∈ logger.unread,
    record.pointer.block < logger.ringBuffer.memBlocks.length ∧
      record.pointer.offset + record.bytes.length ≤ logger.ringBuffer.memBlockSize

theorem laid_create (allocation : Allocation Byte) (several : 2 ≤ allocation.blocks.length) :
    Laid (create allocation) where
  several := several
  addressable := allocation.addressable
  whole := allocation.whole
  marks := List.length_map _
  block := Nat.lt_of_lt_of_le Nat.zero_lt_two several
  offset := Nat.zero_le _
  reserved _ _ reserved := by cases reserved
  filled _ filled := by cases filled
  inside _ member := by cases member

namespace Laid

variable {logger : Logger Byte}

theorem overflows_iff (laid : Laid logger) {wantedSpace : Nat}
    (fits : wantedSpace ≤ logger.ringBuffer.memBlockSize) :
    logger.ringBuffer.Overflows wantedSpace ↔
      logger.ringBuffer.memBlockSize < logger.ringBuffer.writePtrOffset + wantedSpace :=
  RingBuffer.overflows_iff laid.addressable laid.offset fits

theorem nextBlock_lt (laid : Laid logger) (index : Nat) :
    logger.ringBuffer.nextBlock index < logger.ringBuffer.memBlocks.length :=
  Nat.mod_lt _ (by have several := laid.several; omega)

/-- The space handed out starts at the writer's place after the call, and lies in its block. -/
theorem getWritePointer_region (laid : Laid logger) {wantedSpace : Nat}
    (fits : wantedSpace ≤ logger.ringBuffer.memBlockSize) :
    (logger.ringBuffer.getWritePointer wantedSpace).2 =
        ⟨(logger.ringBuffer.getWritePointer wantedSpace).1.writeBlockIndex,
          (logger.ringBuffer.getWritePointer wantedSpace).1.writePtrOffset⟩ ∧
      (logger.ringBuffer.getWritePointer wantedSpace).2.block <
        logger.ringBuffer.memBlocks.length ∧
      (logger.ringBuffer.getWritePointer wantedSpace).2.offset + wantedSpace ≤
        logger.ringBuffer.memBlockSize := by
  by_cases overflows : logger.ringBuffer.Overflows wantedSpace
  · rw [RingBuffer.getWritePointer_overflows overflows]
    exact ⟨rfl, laid.nextBlock_lt _, by rw [Nat.zero_add]; exact fits⟩
  · rw [RingBuffer.getWritePointer_fits overflows]
    rw [laid.overflows_iff fits, Nat.not_lt] at overflows
    exact ⟨rfl, laid.block, overflows⟩

/-- What the reader changes of the buffer leaves the space and the records where they are. -/
theorem reads (laid : Laid logger) (consumer : Consumer) :
    Laid { logger with ringBuffer := logger.ringBuffer.checkWrapReadPointer, consumer } := by
  obtain ⟨blocks, size, block, offset, marks⟩ := logger.ringBuffer.checkWrapReadPointer_writer
  constructor <;> simp only [blocks, size, block, offset, marks]
  exacts [laid.several, laid.addressable, laid.whole, laid.marks, laid.block, laid.offset,
    laid.reserved, laid.filled, laid.inside]

/-- The writer moves to the end of the record it has filled in. -/
theorem forwardWritePointer_offset (laid : Laid logger) {record : Placed Byte}
    (filled : logger.producer = .filled record) :
    (logger.ringBuffer.forwardWritePointer record.bytes.length).writePtrOffset =
      record.pointer.offset + record.bytes.length := by
  obtain ⟨place, -, room⟩ := laid.filled _ filled
  have addressable := laid.addressable
  rw [RingBuffer.forwardWritePointer, place, Nat.add_comm]
  rw [place] at room
  exact Nat.mod_eq_of_lt (Nat.lt_of_le_of_lt room (by omega))

variable [DecidableEq Byte] {format : RecordFormat Byte}

theorem getWritePointer (laid : Laid logger) {wantedSpace : Nat} (positive : 0 < wantedSpace)
    (fits : wantedSpace ≤ logger.ringBuffer.memBlockSize) :
    Laid (step logger (.getWritePointer wantedSpace : BufferCall format)).1 := by
  obtain ⟨place, bound, room⟩ := laid.getWritePointer_region fits
  by_cases overflows : logger.ringBuffer.Overflows wantedSpace
  · rw [step_getWritePointer]
    rw [RingBuffer.getWritePointer_overflows overflows] at place bound room ⊢
    exact { laid with
      marks := List.length_set.trans laid.marks
      block := bound
      offset := Nat.zero_le _
      reserved := by rintro _ _ ⟨⟩; exact ⟨rfl, positive, room⟩
      filled := by rintro _ ⟨⟩ }
  · rw [step_getWritePointer]
    rw [RingBuffer.getWritePointer_fits overflows] at place bound room ⊢
    exact { laid with
      reserved := by rintro _ _ ⟨⟩; exact ⟨rfl, positive, room⟩
      filled := by rintro _ ⟨⟩ }

theorem fill (laid : Laid logger) {pointer : Pointer} {record : format.Record}
    (reserved : logger.producer = .reserved pointer record.bytes.length) :
    Laid (step logger (.fill record)).1 := by
  obtain ⟨place, positive, room⟩ := laid.reserved _ _ reserved
  rw [step_fill reserved]
  have length := RingBuffer.length_fill logger.ringBuffer pointer record.bytes
  exact {
    several := length.symm ▸ laid.several
    addressable := laid.addressable
    whole := RingBuffer.whole_fill laid.whole pointer record.bytes room
    marks := length.symm ▸ laid.marks
    block := length.symm ▸ laid.block
    offset := laid.offset
    reserved := by rintro _ _ ⟨⟩
    filled := by rintro _ ⟨⟩; exact ⟨place, positive, room⟩
    inside := length.symm ▸ laid.inside }

theorem forwardWritePointer (laid : Laid logger) {record : Placed Byte}
    (filled : logger.producer = .filled record) :
    Laid (step logger (.forwardWritePointer record.bytes.length : BufferCall format)).1 := by
  obtain ⟨place, positive, room⟩ := laid.filled _ filled
  rw [step_forwardWritePointer filled]
  exact { laid with
    offset := (laid.forwardWritePointer_offset filled).symm ▸ room
    reserved := by rintro _ _ ⟨⟩
    filled := by rintro _ ⟨⟩
    inside := List.forall_mem_append.mpr ⟨laid.inside, List.forall_mem_singleton.mpr
      ⟨congrArg Pointer.block place ▸ laid.block, room⟩⟩ }

theorem consume (laid : Laid logger) {pointer : Pointer}
    (pointing : logger.consumer = .pointing pointer) :
    Laid (step logger (.consume : BufferCall format)).1 := by
  rw [step_consume pointing rfl]
  exact { laid with
    inside := fun record member => laid.inside record (List.mem_of_mem_erase member) }

/-- Every proper call leaves the space and the records laid inside the blocks. -/
theorem step (laid : Laid logger) {call : BufferCall format} (proper : logger.Proper call) :
    Laid (Logger.step logger call).1 := by
  cases call with
  | getWritePointer wantedSpace => exact laid.getWritePointer proper.2.1 proper.2.2
  | fill record =>
    obtain ⟨pointer, reserved⟩ := Producer.space?_eq_some.mp proper
    exact laid.fill reserved
  | forwardWritePointer newWriteOffset =>
    obtain ⟨record, filled, rfl⟩ := Option.map_eq_some_iff.mp proper
    exact laid.forwardWritePointer (Producer.record?_eq_some.mp filled)
  | canRead =>
    rw [step_canRead]
    exact laid.reads _
  | getReadPointer =>
    rw [step_getReadPointer]
    exact laid.reads _
  | consume =>
    obtain ⟨pointer, pointing⟩ := Option.isSome_iff_exists.mp proper
    exact laid.consume (Consumer.pointer?_eq_some.mp pointing)
  | forwardReadPointer newReadOffset => exact { laid with }

end Laid

end Logger

end OrderForge
