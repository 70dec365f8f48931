/-
This file proves the invariant that holds while the consumer follows the producer
closely: it enters a block only while the producer is still in it, and the producer
enters no block with an unread record. The unread records then lie on a trail from
the reader's place to the writer's, over the blocks whose ends the writer has marked
and the reader has yet to reach.
-/

import OrderForge.LoggerInvariant
import OrderForge.Trail

namespace OrderForge

variable {Byte : Type}

/-- Where a record lies in the buffer. -/
def recordLayout : Layout (Placed Byte) where
  block record := record.pointer.block
  offset record := record.pointer.offset
  size record := record.bytes.length

/-- What the consumer has read behind the reader's pointer. -/
def Consumer.ahead : Consumer → Nat
  | taken size => size
  | _ => 0

/-- The buffer holds the record, and the reader finds its size. -/
def Intact (format : RecordFormat Byte) (buffer : RingBuffer Byte) (record : Placed Byte) : Prop :=
  buffer.HoldsAt record.pointer record.bytes ∧
    ∀ rest, format.size (record.bytes ++ rest) = record.bytes.length

theorem Intact.size {format : RecordFormat Byte} {buffer : RingBuffer Byte} {record : Placed Byte}
    (intact : Intact format buffer record) :
    format.size (buffer.bytesFrom record.pointer) = record.bytes.length := by
  obtain ⟨⟨rest, found⟩, sized⟩ := intact
  rw [RingBuffer.bytesFrom, ← found, sized]

/-- Reading at an intact record finds its bytes. -/
theorem Intact.take {format : RecordFormat Byte} {buffer : RingBuffer Byte} {record : Placed Byte}
    (intact : Intact format buffer record) :
    (buffer.bytesFrom record.pointer).take (format.size (buffer.bytesFrom record.pointer)) =
      record.bytes := by
  rw [intact.size]
  exact (List.prefix_iff_eq_take.mp intact.1).symm

namespace RingBuffer

theorem getD_set {ends : List Nat} {index : Nat} (bound : index < ends.length)
    (other value : Nat) :
    (ends.set index value).getD other 0 = if index = other then value else ends.getD other 0 := by
  rw [List.getD_eq_getElem?_getD, List.getD_eq_getElem?_getD]
  split
  next same => rw [same, List.getElem?_set_self (same ▸ bound), Option.getD_some]
  next apart => rw [List.getElem?_set_ne apart]

/-- The block behind the one with a number. -/
theorem nextBlock_mod {buffer : RingBuffer Byte} {block number : Nat}
    (own : block = number % buffer.memBlocks.length) :
    buffer.nextBlock block = (number + 1) % buffer.memBlocks.length := by
  rw [own, nextBlock, Nat.mod_add_mod]

end RingBuffer

namespace Logger

/-- The reader is in block `number` of all those filled so far, the writer in block `last`, and
the unread records lie between them. -/
structure Following (format : RecordFormat Byte) (logger : Logger Byte) (number last : Nat) :
    Prop where
  readBlock : logger.ringBuffer.readBlockIndex = number % logger.ringBuffer.memBlocks.length
  writeBlock : logger.ringBuffer.writeBlockIndex = last % logger.ringBuffer.memBlocks.length
  trail : Trail recordLayout logger.ringBuffer.memBlocks.length logger.ringBuffer.blockEnd last
    logger.ringBuffer.writePtrOffset number
    (logger.ringBuffer.readPtrOffset + logger.consumer.ahead) logger.unread
  unmarked : number = last →
    logger.ringBuffer.blockEnd (last % logger.ringBuffer.memBlocks.length) = 0
  intact : ∀ record ∈ logger.unread, Intact format logger.ringBuffer record
  filled : ∀ record, logger.producer = .filled record → Intact format logger.ringBuffer record
  oldest : logger.consumer = .ready ∨ logger.consumer.pointer?.isSome →
    ∃ record rest, logger.unread = record :: rest ∧ record.pointer =
      ⟨logger.ringBuffer.readBlockIndex, logger.ringBuffer.readPtrOffset⟩
  pointing : ∀ pointer, logger.consumer = .pointing pointer →
    pointer = ⟨logger.ringBuffer.readBlockIndex, logger.ringBuffer.readPtrOffset⟩
  taken : ∀ size, logger.consumer = .taken size →
    logger.ringBuffer.readPtrOffset + size ≤ logger.ringBuffer.memBlockSize
  kept : logger.written = logger.consumed ++ logger.unread

theorem following_create (format : RecordFormat Byte) (allocation : Allocation Byte) :
    Following format (create allocation) 0 0 where
  readBlock := (Nat.zero_mod _).symm
  writeBlock := (Nat.zero_mod _).symm
  trail := .arrive
  unmarked _ := by
    show ((allocation.blocks.map fun _ => 0).getD _ 0 : Nat) = 0
    rw [List.getD_eq_getElem?_getD, List.getElem?_map]
    exact Option.getD_map (fun _ => 0) [] _
  intact _ none := by cases none
  filled _ filled := by cases filled
  oldest ready := by rcases ready with ready | ready <;> cases ready
  pointing _ pointing := by cases pointing
  taken _ taken := by cases taken
  kept := rfl

namespace Following

variable {format : RecordFormat Byte} {logger : Logger Byte} {number last : Nat}

/-- A reader whose pointer is at an unread record is not at the end of its block. -/
theorem not_atEnd (following : Following format logger number last) (laid : Laid logger)
    (here : logger.consumer.ahead = 0) {record : Placed Byte} {rest : List (Placed Byte)}
    (unread : logger.unread = record :: rest) (place : record.pointer =
      ⟨logger.ringBuffer.readBlockIndex, logger.ringBuffer.readPtrOffset⟩) :
    ¬ logger.ringBuffer.AtEnd := by
  have trail := following.trail
  rw [unread, here, Nat.add_zero] at trail
  obtain ⟨-, positive, next⟩ := trail.tail laid.several
    ((congrArg Pointer.block place).trans following.readBlock)
  rintro ⟨marked, atEnd⟩
  rw [following.readBlock] at marked atEnd
  rcases Nat.lt_or_eq_of_le trail.number_le with before | same
  · have bound := next.offset_le_mark before
    omega
  · exact marked (same ▸ following.unmarked same)

/-- A reader at the mark of its block is one block behind the producer, and the unread records
lie in the producer's block. -/
theorem crosses (following : Following format logger number last) (laid : Laid logger)
    (here : logger.consumer.ahead = 0)
    (follows : logger.Follows (.canRead : BufferCall format))
    (atEnd : logger.ringBuffer.AtEnd) :
    number + 1 = last ∧
      Trail recordLayout logger.ringBuffer.memBlocks.length logger.ringBuffer.blockEnd last
        logger.ringBuffer.writePtrOffset (number + 1) 0 logger.unread := by
  have close := follows atEnd
  rw [RingBuffer.nextBlock_mod following.readBlock, following.writeBlock] at close
  have trail := following.trail
  rw [here, Nat.add_zero] at trail
  obtain ⟨marked, reached⟩ := atEnd
  rw [following.readBlock] at marked reached
  have before : number < last := Nat.lt_of_le_of_ne trail.number_le fun same =>
    marked (same ▸ following.unmarked same)
  exact ⟨Trail.number_eq_of_mod_eq before (trail.last_le laid.several) close.symm,
    trail.crossed before reached.symm⟩

/-- The reader leaves its block at the mark, for the block the producer is in. -/
theorem wrapped (following : Following format logger number last) (laid : Laid logger)
    (idle : logger.consumer = .idle)
    (follows : logger.Follows (.canRead : BufferCall format)) :
    ∃ number, Following format
        { logger with ringBuffer := logger.ringBuffer.checkWrapReadPointer } number last ∧
      (number < last → logger.ringBuffer.checkWrapReadPointer.blockEnd
          (number % logger.ringBuffer.memBlocks.length) ≠
        logger.ringBuffer.checkWrapReadPointer.readPtrOffset) := by
  have here : logger.consumer.ahead = 0 := by rw [idle]; rfl
  by_cases atEnd : logger.ringBuffer.AtEnd
  · obtain ⟨same, trail⟩ := following.crosses laid here follows atEnd
    have next := RingBuffer.nextBlock_mod following.readBlock
    have bound : logger.ringBuffer.nextBlock logger.ringBuffer.readBlockIndex <
      logger.ringBuffer.memBlocksEnd.length := laid.marks ▸ laid.nextBlock_lt _
    rw [RingBuffer.checkWrapReadPointer_of_atEnd atEnd]
    refine ⟨number + 1, { following with
      readBlock := next
      trail := ?_
      unmarked := fun _ => ?_
      oldest := ?_
      pointing := ?_
      taken := ?_ }, fun less => absurd same less.ne⟩
    · rw [idle]
      exact trail.remark _ same
    · rw [same] at next
      exact (RingBuffer.getD_set bound _ _).trans (if_pos next)
    · rw [idle]
      rintro (ready | ready) <;> cases ready
    · rw [idle]
      rintro _ ⟨⟩
    · rw [idle]
      rintro _ ⟨⟩
  · rw [RingBuffer.checkWrapReadPointer_of_not atEnd]
    refine ⟨number, following, fun before reached => atEnd ?_⟩
    rw [RingBuffer.AtEnd, following.readBlock]
    exact ⟨(following.trail.mark_pos before).ne', reached.symm⟩

/-- The oldest unread record is at the pointer of a reader that is not at a mark. -/
theorem oldest_here (following : Following format logger number last)
    (here : logger.consumer.ahead = 0)
    (inside : number < last → logger.ringBuffer.blockEnd
      (number % logger.ringBuffer.memBlocks.length) ≠ logger.ringBuffer.readPtrOffset)
    (left : logger.unread ≠ []) :
    ∃ record rest, logger.unread = record :: rest ∧ record.pointer =
      ⟨logger.ringBuffer.readBlockIndex, logger.ringBuffer.readPtrOffset⟩ := by
  have trail := following.trail
  rw [here] at trail
  obtain ⟨record, rest, unread, block, offset⟩ := trail.passed inside left
  rw [← following.readBlock] at block
  exact ⟨record, rest, unread, Pointer.ext block offset⟩

/-- What `can_read` compares tells whether there is an unread record, for a reader that is not
at a mark. -/
theorem readable_iff (following : Following format logger number last) (laid : Laid logger)
    (here : logger.consumer.ahead = 0)
    (inside : number < last → logger.ringBuffer.blockEnd
      (number % logger.ringBuffer.memBlocks.length) ≠ logger.ringBuffer.readPtrOffset) :
    (logger.ringBuffer.readBlockIndex = logger.ringBuffer.writeBlockIndex →
        logger.ringBuffer.readPtrOffset < logger.ringBuffer.writePtrOffset) ↔
      logger.unread ≠ [] := by
  have trail := following.trail
  rw [here, Nat.add_zero] at trail
  rcases Nat.lt_or_eq_of_le trail.number_le with before | same
  · have left := trail.ne_nil_of_before before (inside before)
    obtain ⟨record, rest, unread, place⟩ := following.oldest_here here inside left
    rw [unread] at trail
    obtain ⟨recent, -⟩ := trail.tail laid.several
      ((congrArg Pointer.block place).trans following.readBlock)
    refine ⟨fun _ => left, fun _ equal => ?_⟩
    rw [following.readBlock, following.writeBlock] at equal
    exact absurd (Trail.number_eq_of_mod_eq before.le recent equal) before.ne
  · have equal : logger.ringBuffer.readBlockIndex = logger.ringBuffer.writeBlockIndex := by
      rw [following.readBlock, following.writeBlock, same]
    rw [trail.ne_nil_iff same]
    exact ⟨fun less => less equal, fun less _ => less⟩

variable [DecidableEq Byte]

theorem getWritePointer (following : Following format logger number last) (laid : Laid logger)
    {wantedSpace : Nat} (fits : wantedSpace ≤ logger.ringBuffer.memBlockSize)
    (free : logger.EntersFree (.getWritePointer wantedSpace : BufferCall format)) :
    ∃ last, Following format
      (step logger (.getWritePointer wantedSpace : BufferCall format)).1 number last := by
  rw [step_getWritePointer]
  by_cases overflows : logger.ringBuffer.Overflows wantedSpace
  · have next := RingBuffer.nextBlock_mod following.writeBlock
    have apart := free overflows
    rw [next] at apart
    have bound : logger.ringBuffer.writeBlockIndex < logger.ringBuffer.memBlocksEnd.length :=
      laid.marks ▸ laid.block
    rw [RingBuffer.getWritePointer_overflows overflows]
    rw [laid.overflows_iff fits] at overflows
    refine ⟨last + 1, { following with
      writeBlock := next
      trail := following.trail.leave (following.trail.last_lt laid.several apart) (by omega)
        ?_ (fun index other => ?_) apart
      unmarked := fun same => absurd (same ▸ following.trail.number_le) (Nat.not_succ_le_self _)
      filled := by rintro _ ⟨⟩ }⟩
    · exact (RingBuffer.getD_set bound _ _).trans (if_pos following.writeBlock)
    · refine (RingBuffer.getD_set bound _ _).trans (if_neg fun same => other ?_)
      exact same.symm.trans following.writeBlock
  · rw [RingBuffer.getWritePointer_fits overflows]
    exact ⟨last, { following with filled := by rintro _ ⟨⟩ }⟩

theorem fill (following : Following format logger number last) (laid : Laid logger)
    {pointer : Pointer} {record : format.Record}
    (reserved : logger.producer = .reserved pointer record.bytes.length) :
    Following format (step logger (.fill record)).1 number last := by
  obtain ⟨place, positive, room⟩ := laid.reserved _ _ reserved
  have block : pointer.block = last % logger.ringBuffer.memBlocks.length :=
    (congrArg Pointer.block place).trans following.writeBlock
  have bound : pointer.block < logger.ringBuffer.memBlocks.length :=
    congrArg Pointer.block place ▸ laid.block
  have inside : pointer.offset ≤ (logger.ringBuffer.block pointer.block).length := by
    rw [RingBuffer.length_block laid.whole bound]
    exact Nat.le_trans (Nat.le_add_right _ _) room
  have length := RingBuffer.length_fill logger.ringBuffer pointer record.bytes
  rw [step_fill reserved]
  exact {
    readBlock := length.symm ▸ following.readBlock
    writeBlock := length.symm ▸ following.writeBlock
    trail := length.symm ▸ following.trail
    unmarked := length.symm ▸ following.unmarked
    intact := by
      intro other member
      obtain ⟨held, sized⟩ := following.intact other member
      refine ⟨RingBuffer.fill_apart (laid.inside other member).1 inside ?_ held, sized⟩
      intro same
      rw [congrArg Pointer.offset place]
      exact .inl (following.trail.end_le_last member (same.trans block))
    filled := by
      rintro _ ⟨⟩
      exact ⟨RingBuffer.fill_self bound inside, record.sized⟩
    oldest := following.oldest
    pointing := following.pointing
    taken := following.taken
    kept := following.kept }

theorem forwardWritePointer (following : Following format logger number last) (laid : Laid logger)
    {record : Placed Byte} (filled : logger.producer = .filled record) :
    Following format
      (step logger (.forwardWritePointer record.bytes.length : BufferCall format)).1
      number last := by
  obtain ⟨place, positive, room⟩ := laid.filled _ filled
  have offset := laid.forwardWritePointer_offset filled
  have trail := following.trail.laid (by have several := laid.several; omega)
    ((congrArg Pointer.block place).trans following.writeBlock) (congrArg Pointer.offset place)
    positive
  have reached : logger.ringBuffer.writePtrOffset = record.pointer.offset := by rw [place]
  rw [reached] at trail
  rw [step_forwardWritePointer filled]
  exact { following with
    trail := offset.symm ▸ trail
    intact := List.forall_mem_append.mpr
      ⟨following.intact, List.forall_mem_singleton.mpr (following.filled _ filled)⟩
    filled := by rintro _ ⟨⟩
    oldest := by
      intro ready
      obtain ⟨oldest, rest, unread, at_⟩ := following.oldest ready
      exact ⟨oldest, rest ++ [record], by rw [unread, List.cons_append], at_⟩
    kept := by rw [following.kept, List.append_assoc] }

theorem canRead (following : Following format logger number last) (laid : Laid logger)
    (idle : logger.consumer = .idle)
    (follows : logger.Follows (.canRead : BufferCall format)) :
    (∃ number, Following format (step logger (.canRead : BufferCall format)).1 number last) ∧
      (logger.ringBuffer.canRead.2 = true ↔ logger.unread ≠ []) := by
  obtain ⟨number, following, inside⟩ := following.wrapped laid idle follows
  have laid := laid.reads logger.consumer
  have same := congrArg List.length logger.ringBuffer.checkWrapReadPointer_writer.1
  rw [← same] at inside
  have here : logger.consumer.ahead = 0 := by rw [idle]; rfl
  have readable : logger.ringBuffer.canRead.2 = true ↔ logger.unread ≠ [] :=
    (logger.ringBuffer.canRead_snd).trans (following.readable_iff laid here inside)
  refine ⟨⟨number, ?_⟩, readable⟩
  have trail := following.trail
  rw [show logger.consumer.ahead = 0 from here] at trail
  rw [step_canRead]
  split
  next answer =>
    have oldest := following.oldest_here here inside (readable.mp answer)
    exact { following with
      trail := trail
      oldest := fun _ => oldest
      pointing := by rintro _ ⟨⟩
      taken := by rintro _ ⟨⟩ }
  next => exact { following with
      trail := trail
      oldest := by rintro (ready | ready) <;> cases ready
      pointing := by rintro _ ⟨⟩
      taken := by rintro _ ⟨⟩ }

theorem getReadPointer (following : Following format logger number last) (laid : Laid logger)
    (ready : logger.consumer = .ready) :
    Following format (step logger (.getReadPointer : BufferCall format)).1 number last ∧
      logger.ringBuffer.getReadPointer.2 =
        ⟨logger.ringBuffer.readBlockIndex, logger.ringBuffer.readPtrOffset⟩ := by
  obtain ⟨record, rest, unread, place⟩ := following.oldest (.inl ready)
  have here : logger.consumer.ahead = 0 := by rw [ready]; rfl
  have inside := RingBuffer.checkWrapReadPointer_of_not
    (following.not_atEnd laid here unread place)
  have pointer : logger.ringBuffer.getReadPointer.2 =
      ⟨logger.ringBuffer.readBlockIndex, logger.ringBuffer.readPtrOffset⟩ := by
    rw [RingBuffer.getReadPointer, inside]
  have trail := following.trail
  rw [here] at trail
  refine ⟨?_, pointer⟩
  rw [step_getReadPointer, inside, pointer]
  exact { following with
    trail := trail
    oldest := fun _ => ⟨record, rest, unread, place⟩
    pointing := by rintro _ ⟨⟩; rfl
    taken := by rintro _ ⟨⟩ }

theorem consume (following : Following format logger number last) (laid : Laid logger)
    {pointer : Pointer} (pointing : logger.consumer = .pointing pointer) :
    Following format (step logger (.consume : BufferCall format)).1 number last := by
  obtain ⟨record, rest, unread, place⟩ := following.oldest
    (.inr (by rw [pointing]; rfl))
  have here : logger.consumer.ahead = 0 := by rw [pointing]; rfl
  have member : record ∈ logger.unread := unread ▸ List.mem_cons_self
  have intact := following.intact record member
  obtain rfl : pointer = record.pointer := (following.pointing _ pointing).trans place.symm
  have trail := following.trail
  rw [unread, here, Nat.add_zero] at trail
  obtain ⟨-, -, next⟩ := trail.tail laid.several
    ((congrArg Pointer.block place).trans following.readBlock)
  rw [step_consume pointing intact.take, intact.size, unread, List.erase_cons_head]
  exact { following with
    trail := next
    intact := fun other later => following.intact other (unread ▸ List.mem_cons_of_mem _ later)
    oldest := by rintro (ready | ready) <;> cases ready
    pointing := by rintro _ ⟨⟩
    taken := by
      rintro _ ⟨⟩
      have inside := (laid.inside record member).2
      rw [place] at inside
      exact inside
    kept := by rw [following.kept, unread, List.append_assoc]; rfl }

theorem forwardReadPointer (following : Following format logger number last) (laid : Laid logger)
    {size : Nat} (taken : logger.consumer = .taken size) :
    Following format (step logger (.forwardReadPointer size : BufferCall format)).1
      number last := by
  have bound := following.taken _ taken
  have addressable := laid.addressable
  have offset : (logger.ringBuffer.forwardReadPointer size).readPtrOffset =
      logger.ringBuffer.readPtrOffset + size :=
    Nat.mod_eq_of_lt (by omega)
  have trail := following.trail
  rw [taken] at trail
  exact { following with
    trail := offset.symm ▸ trail
    oldest := by rintro (ready | ready) <;> cases ready
    pointing := by rintro _ ⟨⟩
    taken := by rintro _ ⟨⟩ }

/-- A call that keeps to the conditions keeps the unread records on a trail. -/
theorem step {call : BufferCall format} (following : Following format logger number last)
    (laid : Laid logger) (proper : logger.Proper call) (free : logger.EntersFree call)
    (follows : logger.Follows call) :
    ∃ number last, Following format (Logger.step logger call).1 number last := by
  cases call with
  | getWritePointer wantedSpace =>
    exact ⟨number, following.getWritePointer laid proper.2.2 free⟩
  | fill record =>
    obtain ⟨pointer, reserved⟩ := Producer.space?_eq_some.mp proper
    exact ⟨number, last, following.fill laid reserved⟩
  | forwardWritePointer newWriteOffset =>
    obtain ⟨record, filled, rfl⟩ := Option.map_eq_some_iff.mp proper
    rw [Producer.record?_eq_some] at filled
    exact ⟨number, last, following.forwardWritePointer laid filled⟩
  | canRead =>
    obtain ⟨⟨number, following⟩, -⟩ := following.canRead laid proper follows
    exact ⟨number, last, following⟩
  | getReadPointer => exact ⟨number, last, (following.getReadPointer laid proper).1⟩
  | consume =>
    obtain ⟨pointer, pointing⟩ := Option.isSome_iff_exists.mp proper
    rw [Consumer.pointer?_eq_some] at pointing
    exact ⟨number, last, following.consume laid pointing⟩
  | forwardReadPointer newReadOffset =>
    exact ⟨number, last, following.forwardReadPointer laid proper⟩

end Following

end Logger

end OrderForge
