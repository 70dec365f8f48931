/-
This file models the ring buffer behind the log: blocks of memory that a producer
fills one after another and a consumer reads behind it. The writer marks the end of
a block when it leaves it; the reader leaves a block at this mark and clears the
mark of the block it enters.

A `char*` into the buffer is a block and an offset in it, and the memory is the
list of the blocks' bytes. The calls are atomic: the relaxed orderings of the
atomics are not modelled.
-/

import Mathlib.Algebra.Ring.Nat
import OrderForge.Splice

namespace OrderForge

variable {Byte : Type}

/-- `&mem_blocks_[block][offset]`. -/
@[ext]
structure Pointer where
  block : Nat
  offset : Nat
deriving DecidableEq

/-- The blocks `std::malloc` gave: all of one size, which an object in memory bounds. -/
structure Allocation (Byte : Type) where
  memBlockSize : Nat
  blocks : List (List Byte)
  whole : ∀ block ∈ blocks, block.length = memBlockSize
  addressable : memBlockSize < 2 ^ 63

structure RingBuffer (Byte : Type) where
  writePtrOffset : Nat
  writeBlockIndex : Nat
  readPtrOffset : Nat
  readBlockIndex : Nat
  memBlockSize : Nat
  memBlocks : List (List Byte)
  memBlocksEnd : List Nat

namespace RingBuffer

def create (allocation : Allocation Byte) : RingBuffer Byte where
  writePtrOffset := 0
  writeBlockIndex := 0
  readPtrOffset := 0
  readBlockIndex := 0
  memBlockSize := allocation.memBlockSize
  memBlocks := allocation.blocks
  memBlocksEnd := allocation.blocks.map fun _ => 0

/-- The block behind a block, round the ring. -/
def nextBlock (buffer : RingBuffer Byte) (block : Nat) : Nat :=
  (block + 1) % buffer.memBlocks.length

/-- The mark in `mem_blocks_end_` for a block. -/
def blockEnd (buffer : RingBuffer Byte) (block : Nat) : Nat :=
  buffer.memBlocksEnd.getD block 0

/-! ### The writer -/

/-- The wanted space does not fit into the rest of the block. -/
def Overflows (buffer : RingBuffer Byte) (wantedSpace : Nat) : Prop :=
  buffer.memBlockSize < (buffer.writePtrOffset + wantedSpace) % 2 ^ 64
deriving Decidable

/-- `RingBuffer::get_write_pointer`. -/
def getWritePointer (buffer : RingBuffer Byte) (wantedSpace : Nat) :
    RingBuffer Byte × Pointer :=
  if buffer.Overflows wantedSpace then
    let block := buffer.nextBlock buffer.writeBlockIndex
    ({ buffer with
        memBlocksEnd := buffer.memBlocksEnd.set buffer.writeBlockIndex buffer.writePtrOffset
        writeBlockIndex := block
        writePtrOffset := 0 }, ⟨block, 0⟩)
  else (buffer, ⟨buffer.writeBlockIndex, buffer.writePtrOffset⟩)

/-- `RingBuffer::forward_write_pointer`. -/
def forwardWritePointer (buffer : RingBuffer Byte) (newWriteOffset : Nat) : RingBuffer Byte :=
  { buffer with writePtrOffset := (newWriteOffset + buffer.writePtrOffset) % 2 ^ 64 }

/-! ### The reader -/

/-- The reader has come to the mark of its block. -/
def AtEnd (buffer : RingBuffer Byte) : Prop :=
  buffer.blockEnd buffer.readBlockIndex ≠ 0 ∧
    buffer.readPtrOffset = buffer.blockEnd buffer.readBlockIndex
deriving Decidable

/-- `RingBuffer::check_wrap_read_pointer`. -/
def checkWrapReadPointer (buffer : RingBuffer Byte) : RingBuffer Byte :=
  if buffer.AtEnd then
    let block := buffer.nextBlock buffer.readBlockIndex
    { buffer with
      readBlockIndex := block
      readPtrOffset := 0
      memBlocksEnd := buffer.memBlocksEnd.set block 0 }
  else buffer

/-- `RingBuffer::can_read`. -/
def canRead (buffer : RingBuffer Byte) : RingBuffer Byte × Bool :=
  let buffer := buffer.checkWrapReadPointer
  if buffer.readBlockIndex = buffer.writeBlockIndex then
    (buffer, decide (buffer.readPtrOffset < buffer.writePtrOffset))
  else (buffer, true)

/-- `RingBuffer::get_read_pointer`. -/
def getReadPointer (buffer : RingBuffer Byte) : RingBuffer Byte × Pointer :=
  let buffer := buffer.checkWrapReadPointer
  (buffer, ⟨buffer.readBlockIndex, buffer.readPtrOffset⟩)

/-- `RingBuffer::forward_read_pointer`. -/
def forwardReadPointer (buffer : RingBuffer Byte) (newReadOffset : Nat) : RingBuffer Byte :=
  { buffer with readPtrOffset := (buffer.readPtrOffset + newReadOffset) % 2 ^ 64 }

/-! ### The memory -/

/-- The bytes of a block. -/
def block (buffer : RingBuffer Byte) (index : Nat) : List Byte :=
  buffer.memBlocks.getD index []

/-- The caller writes bytes at a pointer it was given. -/
def fill (buffer : RingBuffer Byte) (pointer : Pointer) (bytes : List Byte) :
    RingBuffer Byte :=
  { buffer with
    memBlocks := buffer.memBlocks.modify pointer.block (splice · pointer.offset bytes) }

/-- What the caller finds from a pointer on. -/
def bytesFrom (buffer : RingBuffer Byte) (pointer : Pointer) : List Byte :=
  (buffer.block pointer.block).drop pointer.offset

/-- The buffer holds these bytes at a pointer. -/
def HoldsAt (buffer : RingBuffer Byte) (pointer : Pointer) (bytes : List Byte) : Prop :=
  Holds (buffer.block pointer.block) pointer.offset bytes

/-! ### What the calls change -/

theorem getWritePointer_overflows {buffer : RingBuffer Byte} {wantedSpace : Nat}
    (overflows : buffer.Overflows wantedSpace) :
    buffer.getWritePointer wantedSpace =
      ({ buffer with
          memBlocksEnd := buffer.memBlocksEnd.set buffer.writeBlockIndex buffer.writePtrOffset
          writeBlockIndex := buffer.nextBlock buffer.writeBlockIndex
          writePtrOffset := 0 }, ⟨buffer.nextBlock buffer.writeBlockIndex, 0⟩) :=
  if_pos overflows

theorem getWritePointer_fits {buffer : RingBuffer Byte} {wantedSpace : Nat}
    (fits : ¬ buffer.Overflows wantedSpace) :
    buffer.getWritePointer wantedSpace =
      (buffer, ⟨buffer.writeBlockIndex, buffer.writePtrOffset⟩) :=
  if_neg fits

theorem checkWrapReadPointer_of_not {buffer : RingBuffer Byte} (inside : ¬ buffer.AtEnd) :
    buffer.checkWrapReadPointer = buffer :=
  if_neg inside

theorem checkWrapReadPointer_of_atEnd {buffer : RingBuffer Byte} (atEnd : buffer.AtEnd) :
    buffer.checkWrapReadPointer = { buffer with
      readBlockIndex := buffer.nextBlock buffer.readBlockIndex
      readPtrOffset := 0
      memBlocksEnd := buffer.memBlocksEnd.set (buffer.nextBlock buffer.readBlockIndex) 0 } :=
  if_pos atEnd

/-- The reader changes nothing of the memory, nor of the writer's place. -/
theorem checkWrapReadPointer_writer (buffer : RingBuffer Byte) :
    buffer.checkWrapReadPointer.memBlocks = buffer.memBlocks ∧
      buffer.checkWrapReadPointer.memBlockSize = buffer.memBlockSize ∧
      buffer.checkWrapReadPointer.writeBlockIndex = buffer.writeBlockIndex ∧
      buffer.checkWrapReadPointer.writePtrOffset = buffer.writePtrOffset ∧
      buffer.checkWrapReadPointer.memBlocksEnd.length = buffer.memBlocksEnd.length := by
  unfold checkWrapReadPointer
  split
  · exact ⟨rfl, rfl, rfl, rfl, List.length_set⟩
  · exact ⟨rfl, rfl, rfl, rfl, rfl⟩

theorem canRead_fst (buffer : RingBuffer Byte) :
    buffer.canRead.1 = buffer.checkWrapReadPointer := by
  unfold canRead
  simp only
  split <;> rfl

theorem canRead_snd (buffer : RingBuffer Byte) :
    buffer.canRead.2 = true ↔
      (buffer.checkWrapReadPointer.readBlockIndex =
          buffer.checkWrapReadPointer.writeBlockIndex →
        buffer.checkWrapReadPointer.readPtrOffset <
          buffer.checkWrapReadPointer.writePtrOffset) := by
  unfold canRead
  simp only
  split
  next same => exact ⟨fun less _ => of_decide_eq_true less, fun less => decide_eq_true (less same)⟩
  next other => exact ⟨fun _ same => absurd same other, fun _ => rfl⟩

theorem length_fill (buffer : RingBuffer Byte) (pointer : Pointer) (bytes : List Byte) :
    (buffer.fill pointer bytes).memBlocks.length = buffer.memBlocks.length :=
  List.length_modify _ _ _

theorem block_fill (buffer : RingBuffer Byte) (pointer : Pointer) (bytes : List Byte)
    {index : Nat} (bound : index < buffer.memBlocks.length) :
    (buffer.fill pointer bytes).block index =
      if pointer.block = index then splice (buffer.block index) pointer.offset bytes
      else buffer.block index := by
  rw [block, fill, List.getD_eq_getElem?_getD, List.getElem?_modify, block,
    List.getD_eq_getElem?_getD, List.getElem?_eq_getElem bound]
  split <;> rfl

/-- Writing a region leaves what is held in other blocks, in front of it and behind it. -/
theorem fill_apart {buffer : RingBuffer Byte} {pointer place : Pointer}
    {bytes part : List Byte} (bound : place.block < buffer.memBlocks.length)
    (fits : pointer.offset ≤ (buffer.block pointer.block).length)
    (apart : place.block = pointer.block → place.offset + part.length ≤ pointer.offset ∨
      pointer.offset + bytes.length ≤ place.offset) (held : buffer.HoldsAt place part) :
    (buffer.fill pointer bytes).HoldsAt place part := by
  rw [HoldsAt, block_fill _ _ _ bound]
  split
  next same => exact Splice.holds_apart (same ▸ fits) (apart same.symm) held
  next other => exact held

/-- What is written is held where it is written. -/
theorem fill_self {buffer : RingBuffer Byte} {pointer : Pointer} {bytes : List Byte}
    (bound : pointer.block < buffer.memBlocks.length)
    (fits : pointer.offset ≤ (buffer.block pointer.block).length) :
    (buffer.fill pointer bytes).HoldsAt pointer bytes := by
  rw [HoldsAt, block_fill _ _ _ bound, if_pos rfl]
  exact Splice.holds_self fits

end RingBuffer

end OrderForge
