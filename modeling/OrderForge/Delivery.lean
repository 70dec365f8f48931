/-
This file proves when the log's buffer delivers every record once and in order, and
when it does not. The reader clears the mark of the block it enters. As long as the
producer is still in that block there is no mark to lose, and the records arrive. A
producer that has left the block has marked its end: the reader then clears a mark it
has yet to come to, and runs off the end of the block.
-/

import OrderForge.Following

namespace OrderForge

namespace Logger

variable {Byte : Type} [DecidableEq Byte] {format : RecordFormat Byte}

/-- What a call shows of a buffer that delivers every record once and in order. -/
structure Delivers (call : Transition (Logger Byte) (BufferCall format) (Answer Byte)) :
    Prop where
  consumed_prefix : call.after.consumed <+: call.after.written
  unread_rest : call.after.consumed ++ call.after.unread = call.after.written
  readable_iff : call.input = .canRead → ∃ answer, call.output = .readable answer ∧
    (answer = true ↔ call.before.unread ≠ [])
  oldest : call.input = .getReadPointer → ∃ record rest, call.before.unread = record :: rest ∧
    call.output = .pointer record.pointer ∧
    call.before.ringBuffer.HoldsAt record.pointer record.bytes

theorem Following.delivers {logger : Logger Byte} {number last : Nat}
    (following : Following format logger number last) (laid : Laid logger)
    {call : BufferCall format} (proper : logger.Proper call) (free : logger.EntersFree call)
    (follows : logger.Follows call) : Delivers (Machine.transition Logger.step logger call) := by
  obtain ⟨_, _, next⟩ := following.step laid proper free follows
  refine ⟨⟨_, next.kept.symm⟩, next.kept.symm, ?_, ?_⟩
  · rintro rfl
    obtain ⟨-, readable⟩ := following.canRead laid proper follows
    refine ⟨logger.ringBuffer.canRead.2, ?_, readable⟩
    rw [Machine.transition, step_canRead]
  · rintro rfl
    obtain ⟨record, rest, unread, place⟩ := following.oldest (.inl proper)
    obtain ⟨-, pointer⟩ := following.getReadPointer laid proper
    refine ⟨record, rest, unread, ?_, (following.intact record ?_).1⟩
    · rw [place, ← pointer]
      rfl
    · exact unread ▸ List.mem_cons_self

/-- A run delivers its records when the producer enters no block with an unread record and the
consumer enters a block only while the producer is in it. -/
theorem records_delivered_in_order (allocation : Allocation Byte)
    (several : 2 ≤ allocation.blocks.length) (calls : List (BufferCall format))
    (proper : ∀ call ∈ run (create allocation) calls, call.before.Proper call.input)
    (free : ∀ call ∈ run (create allocation) calls, call.before.EntersFree call.input)
    (follows : ∀ call ∈ run (create allocation) calls, call.before.Follows call.input) :
    ∀ call ∈ run (create allocation) calls, Delivers call := by
  have kept : ∀ call ∈ run (create allocation) calls, call.before.Proper call.input ∧
      call.before.EntersFree call.input ∧ call.before.Follows call.input :=
    fun call member => ⟨proper call member, free call member, follows call member⟩
  have holds := Machine.run_induction step
    (motive := fun past logger => (∀ call ∈ past, Delivers call) ∧ Laid logger ∧
      ∃ number last, Following format logger number last)
    ⟨fun _ none => (by cases none), laid_create allocation several, 0, 0,
      following_create format allocation⟩ (fun past logger call known kept => ?_) calls kept
  · exact holds.1
  · obtain ⟨delivered, laid, number, last, following⟩ := known
    obtain ⟨proper, free, follows⟩ := kept
    exact ⟨List.forall_mem_append.mpr ⟨delivered, List.forall_mem_singleton.mpr
      (following.delivers laid proper free follows)⟩, laid.step proper,
      following.step laid proper free follows⟩

/-- Every record is read before the next one is written, twice round the ring. -/
def sampleClose : List (BufferCall sampleFormat) :=
  [5, 6, 7, 8].flatMap fun byte => writeBuffer (sampleRecord byte) ++ readBuffer 2

theorem sample_delivered :
    (final (create sampleAllocation) sampleClose).consumed.map Placed.bytes =
        [[1, 5], [1, 6], [1, 7], [1, 8]] ∧
      ∀ call ∈ run (create sampleAllocation) sampleClose, Delivers call :=
  ⟨by decide, records_delivered_in_order sampleAllocation (by decide) sampleClose (by decide)
    (by decide) (by decide)⟩

/-- The producer is two blocks ahead: it enters the block of the record that has been read while
the consumer has yet to enter the next one. -/
def sampleLag : List (BufferCall sampleFormat) :=
  writeBuffer (sampleRecord 5) ++ writeBuffer (sampleRecord 6) ++ readBuffer 2 ++
    writeBuffer (sampleRecord 7) ++ readBuffer 2 ++ [.canRead, .getReadPointer]

/-- The consumer clears the mark of the second block, and is pointed behind its end instead of
at the third record. -/
theorem cleared_mark_loses_records :
    (∀ call ∈ run (create sampleAllocation) sampleLag,
      call.before.Proper call.input ∧ call.before.EntersFree call.input) ∧
      ¬ ∀ call ∈ run (create sampleAllocation) sampleLag, Delivers call := by
  refine ⟨by decide, fun delivers => ?_⟩
  obtain ⟨record, rest, unread, pointer, -⟩ :=
    (delivers _ (List.mem_of_getElem? (i := 18) rfl)).oldest rfl
  obtain rfl : (⟨⟨0, 0⟩, [1, 7]⟩ : Placed UInt8) = record := (List.cons.inj unread).1
  cases pointer

end Logger

end OrderForge
