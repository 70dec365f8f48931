/-
This file models how the log uses its ring buffer: `write_buffer` on the side of the
program and `read_buffer` on the side of the log thread, taken apart into the calls
they make, so that the calls of the two may come in any order. A call is a step of
the machine library on the buffer and on what each side is about to do.

What the records are is left open. A record is its bytes, and the reader finds its
size from the bytes at the pointer, as `read_buffer` does from the log type.

Beside the buffer the state keeps what has been written and what has been read,
each record with the pointer it was written or read at.
-/

import OrderForge.Machine
import OrderForge.RingBuffer

namespace OrderForge

variable {Byte : Type}

/-- How the reader finds the size of the record that starts the bytes at a pointer. -/
structure RecordFormat (Byte : Type) where
  size : List Byte → Nat

/-- The bytes of a record, whose size the reader finds whatever comes behind them. -/
structure RecordFormat.Record (format : RecordFormat Byte) where
  bytes : List Byte
  sized : ∀ rest, format.size (bytes ++ rest) = bytes.length

/-- The format of `read_buffer`: `sizeof(LogInfo)` and what the function registered for the log
type returns. The type is the first byte of `LogInfo`. -/
def logFormat (infoSize : Nat) (functionRegister : Byte → Nat) : RecordFormat Byte where
  size bytes := infoSize + (bytes.head?.map functionRegister).getD 0

/-- A record with a log type in front, of the size that is found for the type. -/
def logRecord {infoSize : Nat} {functionRegister : Byte → Nat} (type : Byte) (rest : List Byte)
    (size : rest.length + 1 = infoSize + functionRegister type) :
    (logFormat infoSize functionRegister).Record where
  bytes := type :: rest
  sized _ := size.symm

/-- A record at the pointer it was written or read at. -/
structure Placed (Byte : Type) where
  pointer : Pointer
  bytes : List Byte
deriving DecidableEq

/-- What the writing side does next: ask for space, fill the space it got, move the pointer. -/
inductive Producer (Byte : Type)
  | idle
  | reserved (pointer : Pointer) (wantedSpace : Nat)
  | filled (record : Placed Byte)
deriving DecidableEq

namespace Producer

/-- The space the producer got and has not filled yet. -/
def space? : Producer Byte → Option Nat
  | reserved _ wantedSpace => some wantedSpace
  | _ => none

/-- The record the producer has filled its space with. -/
def record? : Producer Byte → Option (Placed Byte)
  | filled record => some record
  | _ => none

theorem space?_eq_some {producer : Producer Byte} {wantedSpace : Nat} :
    producer.space? = some wantedSpace ↔ ∃ pointer, producer = reserved pointer wantedSpace := by
  cases producer <;> simp [space?]

theorem record?_eq_some {producer : Producer Byte} {record : Placed Byte} :
    producer.record? = some record ↔ producer = filled record := by
  cases producer <;> simp [record?]

end Producer

/-- What the reading side does next: ask whether there is a record, ask where, read it, move
the pointer. -/
inductive Consumer
  | idle
  | ready
  | pointing (pointer : Pointer)
  | taken (size : Nat)
deriving DecidableEq

namespace Consumer

/-- The pointer the consumer got and has not read at yet. -/
def pointer? : Consumer → Option Pointer
  | pointing pointer => some pointer
  | _ => none

theorem pointer?_eq_some {consumer : Consumer} {pointer : Pointer} :
    consumer.pointer? = some pointer ↔ consumer = pointing pointer := by
  cases consumer <;> simp [pointer?]

end Consumer

/-- One call of either side. `fill` and `consume` stand for what the side does itself with the
pointer it got. -/
inductive BufferCall (format : RecordFormat Byte)
  | getWritePointer (wantedSpace : Nat)
  | fill (record : format.Record)
  | forwardWritePointer (newWriteOffset : Nat)
  | canRead
  | getReadPointer
  | consume
  | forwardReadPointer (newReadOffset : Nat)

/-- What a call returns. -/
inductive Answer (Byte : Type)
  | none
  | pointer (pointer : Pointer)
  | readable (answer : Bool)
  | record (record : Placed Byte)

/-- The buffer between its two sides. `unread` are the records written and not read yet. -/
structure Logger (Byte : Type) where
  ringBuffer : RingBuffer Byte
  producer : Producer Byte
  consumer : Consumer
  written : List (Placed Byte)
  unread : List (Placed Byte)
  consumed : List (Placed Byte)

namespace Logger

def create (allocation : Allocation Byte) : Logger Byte where
  ringBuffer := RingBuffer.create allocation
  producer := .idle
  consumer := .idle
  written := []
  unread := []
  consumed := []

variable [DecidableEq Byte] {format : RecordFormat Byte}

/-- One call. -/
def step (logger : Logger Byte) : BufferCall format → Logger Byte × Answer Byte
  | .getWritePointer wantedSpace =>
    let (ringBuffer, pointer) := logger.ringBuffer.getWritePointer wantedSpace
    ({ logger with ringBuffer, producer := .reserved pointer wantedSpace }, .pointer pointer)
  | .fill record =>
    match logger.producer with
    | .reserved pointer _ =>
      ({ logger with
          ringBuffer := logger.ringBuffer.fill pointer record.bytes
          producer := .filled ⟨pointer, record.bytes⟩ }, .none)
    | _ => (logger, .none)
  | .forwardWritePointer newWriteOffset =>
    match logger.producer with
    | .filled record =>
      ({ logger with
          ringBuffer := logger.ringBuffer.forwardWritePointer newWriteOffset
          producer := .idle
          written := logger.written ++ [record]
          unread := logger.unread ++ [record] }, .none)
    | _ => (logger, .none)
  | .canRead =>
    let (ringBuffer, readable) := logger.ringBuffer.canRead
    ({ logger with ringBuffer, consumer := if readable then .ready else .idle },
      .readable readable)
  | .getReadPointer =>
    let (ringBuffer, pointer) := logger.ringBuffer.getReadPointer
    ({ logger with ringBuffer, consumer := .pointing pointer }, .pointer pointer)
  | .consume =>
    match logger.consumer with
    | .pointing pointer =>
      let bytes := logger.ringBuffer.bytesFrom pointer
      let record := ⟨pointer, bytes.take (format.size bytes)⟩
      ({ logger with
          consumer := .taken (format.size bytes)
          unread := logger.unread.erase record
          consumed := logger.consumed ++ [record] }, .record record)
    | _ => (logger, .none)
  | .forwardReadPointer newReadOffset =>
    ({ logger with
        ringBuffer := logger.ringBuffer.forwardReadPointer newReadOffset
        consumer := .idle }, .none)

/-- The calls of a run. -/
def run (logger : Logger Byte) (calls : List (BufferCall format)) :
    List (Transition (Logger Byte) (BufferCall format) (Answer Byte)) :=
  Machine.run step logger calls

/-- The state a run ends in. -/
def final (logger : Logger Byte) (calls : List (BufferCall format)) : Logger Byte :=
  Machine.final step logger calls

/-- The side whose call it is makes its calls in order: the producer asks for some space that
fits into a block, fills it with a record of that size and moves on by that size; the consumer
asks for a pointer once it may read, reads there and moves on by the size of what it read. -/
def Proper (logger : Logger Byte) : BufferCall format → Prop
  | .getWritePointer wantedSpace =>
    logger.producer = .idle ∧ 0 < wantedSpace ∧ wantedSpace ≤ logger.ringBuffer.memBlockSize
  | .fill record => logger.producer.space? = some record.bytes.length
  | .forwardWritePointer newWriteOffset =>
    logger.producer.record?.map (·.bytes.length) = some newWriteOffset
  | .canRead => logger.consumer = .idle
  | .getReadPointer => logger.consumer = .ready
  | .consume => logger.consumer.pointer?.isSome
  | .forwardReadPointer newReadOffset => logger.consumer = .taken newReadOffset

/-- The call makes the producer enter a block. -/
def Enters (logger : Logger Byte) : BufferCall format → Prop
  | .getWritePointer wantedSpace => logger.ringBuffer.Overflows wantedSpace
  | _ => False

/-- A block the producer enters holds no unread record. -/
def EntersFree (logger : Logger Byte) (call : BufferCall format) : Prop :=
  logger.Enters call → ∀ record ∈ logger.unread,
    record.pointer.block ≠ logger.ringBuffer.nextBlock logger.ringBuffer.writeBlockIndex

/-- A block the consumer enters is the one the producer is in. -/
def Follows (logger : Logger Byte) : BufferCall format → Prop
  | .canRead | .getReadPointer => logger.ringBuffer.AtEnd →
      logger.ringBuffer.writeBlockIndex =
        logger.ringBuffer.nextBlock logger.ringBuffer.readBlockIndex
  | _ => True

instance decidableProper (logger : Logger Byte) :
    (call : BufferCall format) → Decidable (logger.Proper call)
  | .getWritePointer _ => inferInstanceAs (Decidable (_ ∧ _ ∧ _))
  | .fill _ => inferInstanceAs (Decidable (_ = some _))
  | .forwardWritePointer _ => inferInstanceAs (Decidable (_ = some _))
  | .canRead => inferInstanceAs (Decidable (_ = Consumer.idle))
  | .getReadPointer => inferInstanceAs (Decidable (_ = Consumer.ready))
  | .consume => inferInstanceAs (Decidable (_ = true))
  | .forwardReadPointer _ => inferInstanceAs (Decidable (_ = Consumer.taken _))

instance decidableEnters (logger : Logger Byte) :
    (call : BufferCall format) → Decidable (logger.Enters call)
  | .getWritePointer wantedSpace =>
    inferInstanceAs (Decidable (logger.ringBuffer.Overflows wantedSpace))
  | .fill _ | .forwardWritePointer _ | .canRead | .getReadPointer | .consume
  | .forwardReadPointer _ => isFalse id

instance decidableEntersFree (logger : Logger Byte) (call : BufferCall format) :
    Decidable (logger.EntersFree call) :=
  inferInstanceAs (Decidable (_ → _))

instance decidableFollows (logger : Logger Byte) :
    (call : BufferCall format) → Decidable (logger.Follows call)
  | .canRead | .getReadPointer => inferInstanceAs (Decidable (_ → _))
  | .getWritePointer _ | .fill _ | .forwardWritePointer _ | .consume
  | .forwardReadPointer _ => isTrue trivial

/-! ### What the calls do -/

theorem step_getWritePointer (logger : Logger Byte) (wantedSpace : Nat) :
    step logger (.getWritePointer wantedSpace : BufferCall format) =
      ({ logger with
          ringBuffer := (logger.ringBuffer.getWritePointer wantedSpace).1
          producer := .reserved (logger.ringBuffer.getWritePointer wantedSpace).2 wantedSpace },
        .pointer (logger.ringBuffer.getWritePointer wantedSpace).2) := rfl

theorem step_fill {logger : Logger Byte} {pointer : Pointer} {wantedSpace : Nat}
    (reserved : logger.producer = .reserved pointer wantedSpace) (record : format.Record) :
    step logger (.fill record) =
      ({ logger with
          ringBuffer := logger.ringBuffer.fill pointer record.bytes
          producer := .filled ⟨pointer, record.bytes⟩ }, .none) := by
  rw [step, reserved]

theorem step_forwardWritePointer {logger : Logger Byte} {record : Placed Byte}
    (filled : logger.producer = .filled record) (newWriteOffset : Nat) :
    step logger (.forwardWritePointer newWriteOffset : BufferCall format) =
      ({ logger with
          ringBuffer := logger.ringBuffer.forwardWritePointer newWriteOffset
          producer := .idle
          written := logger.written ++ [record]
          unread := logger.unread ++ [record] }, .none) := by
  rw [step, filled]

theorem step_canRead (logger : Logger Byte) :
    step logger (.canRead : BufferCall format) =
      ({ logger with
          ringBuffer := logger.ringBuffer.checkWrapReadPointer
          consumer := if logger.ringBuffer.canRead.2 then .ready else .idle },
        .readable logger.ringBuffer.canRead.2) := by
  rw [← RingBuffer.canRead_fst]
  rfl

theorem step_getReadPointer (logger : Logger Byte) :
    step logger (.getReadPointer : BufferCall format) =
      ({ logger with
          ringBuffer := logger.ringBuffer.checkWrapReadPointer
          consumer := .pointing logger.ringBuffer.getReadPointer.2 },
        .pointer logger.ringBuffer.getReadPointer.2) := rfl

theorem step_consume {logger : Logger Byte} {pointer : Pointer}
    (pointing : logger.consumer = .pointing pointer) {bytes : List Byte}
    (found : (logger.ringBuffer.bytesFrom pointer).take
      (format.size (logger.ringBuffer.bytesFrom pointer)) = bytes) :
    step logger (.consume : BufferCall format) =
      ({ logger with
          consumer := .taken (format.size (logger.ringBuffer.bytesFrom pointer))
          unread := logger.unread.erase ⟨pointer, bytes⟩
          consumed := logger.consumed ++ [⟨pointer, bytes⟩] }, .record ⟨pointer, bytes⟩) := by
  rw [step, pointing, ← found]

/-! ### Sample runs -/

/-- The calls of `Logger::write_buffer`. -/
def writeBuffer (record : format.Record) : List (BufferCall format) :=
  [.getWritePointer record.bytes.length, .fill record, .forwardWritePointer record.bytes.length]

/-- The calls of `Logger::read_buffer` when there is a record of a size to read. -/
def readBuffer (size : Nat) : List (BufferCall format) :=
  [.canRead, .getReadPointer, .consume, .forwardReadPointer size]

end Logger

/-- A type byte, and as many bytes behind it as it says. -/
def sampleFormat : RecordFormat UInt8 :=
  logFormat 1 UInt8.toNat

/-- A record of two bytes. -/
def sampleRecord (byte : UInt8) : sampleFormat.Record :=
  logRecord 1 [byte] rfl

/-- Two blocks of two bytes. -/
def sampleAllocation : Allocation UInt8 where
  memBlockSize := 2
  blocks := [[0, 0], [0, 0]]
  whole := by decide
  addressable := by decide

end OrderForge
