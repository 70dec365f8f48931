/-
This file models the log thread, and settles what is in the log file when the logger
has been stopped. `read_buffer` asks for a record; when there is one it is read,
written to the file and passed by, and when there is none the thread looks whether to
go on. `stop` takes the permission away and waits until the thread has ended.

The thread looks only after it found nothing. So a record that is written between the
two is not read any more when `stop` comes before the look, too; otherwise the thread
reads everything that is left.

The items written are plain data. The log types of the books are, a formatted string is
not: `FormatStringLog::write` assigns to a `std::string` in memory where none was made,
which the language gives no meaning.
-/

import OrderForge.Delivery

namespace OrderForge

/-! ### Log types -/

/-- `LogType`, an enumeration over `uint8_t`. -/
inductive LogType
  | TEST_STRUCT
  | FORMAT_STRING
  | ORDER
  | TRADE
  | LEVEL_UPDATE
  | LAST_TRADE_UPDATE
deriving DecidableEq

def LogType.value : LogType → UInt8
  | TEST_STRUCT => 1
  | FORMAT_STRING => 2
  | ORDER => 10
  | TRADE => 11
  | LEVEL_UPDATE => 20
  | LAST_TRADE_UPDATE => 21

/-- A record with the log type of an item that is plain data, so that its line is a function of its
bytes and of the texts that these point to. -/
structure PlainRecord (format : RecordFormat UInt8) extends format.Record where
  type : LogType
  plain : type ≠ .FORMAT_STRING
  typed : bytes.head? = some type.value

/-! ### The log thread -/

/-- Where `read_buffer` is: in its body or about to ask whether there is a record, about to look
whether to go on, or behind its loop. -/
inductive ReadLoop
  | reads
  | checks
  | ended
deriving DecidableEq

/-- The logger with its thread. `run` is the flag `run_`. -/
structure RunningLogger where
  logger : Logger UInt8
  run : Bool
  loop : ReadLoop
  logFile : List String
  stdOut : List String

/-- A call of the program, or the next call in `read_buffer`. -/
inductive LoggerCall (format : RecordFormat UInt8)
  | getWritePointer (wantedSpace : Nat)
  | fill (record : PlainRecord format)
  | forwardWritePointer (newWriteOffset : Nat)
  | stop
  | readBuffer

/-- What the reading side calls next. -/
def Logger.nextRead {format : RecordFormat UInt8} (logger : Logger UInt8) : BufferCall format :=
  match logger.consumer with
  | .idle => .canRead
  | .ready => .getReadPointer
  | .pointing _ => .consume
  | .taken size => .forwardReadPointer size

namespace RunningLogger

def create (allocation : Allocation UInt8) : RunningLogger where
  logger := Logger.create allocation
  run := true
  loop := .reads
  logFile := []
  stdOut := []

variable {format : RecordFormat UInt8}

/-- The call of the buffer that a call makes. -/
def bufferCall? (running : RunningLogger) : LoggerCall format → Option (BufferCall format)
  | .getWritePointer wantedSpace => some (.getWritePointer wantedSpace)
  | .fill record => some (.fill record.toRecord)
  | .forwardWritePointer newWriteOffset => some (.forwardWritePointer newWriteOffset)
  | .stop => none
  | .readBuffer => if running.loop = .reads then some running.logger.nextRead else none

variable (line : List UInt8 → String) (writeStdOut : Bool)

/-- `Logger::write`, with the line that is made of a record. -/
def write (running : RunningLogger) (record : Placed UInt8) : RunningLogger :=
  { running with
    logFile := running.logFile ++ [line record.bytes]
    stdOut := if writeStdOut then running.stdOut ++ [line record.bytes] else running.stdOut }

/-- What the log thread does with the answer of its call of the buffer. -/
def afterRead (running : RunningLogger) : Answer UInt8 → RunningLogger
  | .readable readable => if readable then running else { running with loop := .checks }
  | .record record => running.write line writeStdOut record
  | .none | .pointer _ => running

/-- One call. -/
def step (running : RunningLogger) :
    LoggerCall format → RunningLogger × Answer UInt8
  | .getWritePointer wantedSpace =>
    let (logger, answer) := running.logger.step (.getWritePointer wantedSpace : BufferCall format)
    ({ running with logger }, answer)
  | .fill record =>
    let (logger, answer) := running.logger.step (.fill record.toRecord)
    ({ running with logger }, answer)
  | .forwardWritePointer newWriteOffset =>
    let (logger, answer) :=
      running.logger.step (.forwardWritePointer newWriteOffset : BufferCall format)
    ({ running with logger }, answer)
  | .stop => ({ running with run := false }, .none)
  | .readBuffer =>
    match running.loop with
    | .reads =>
      let (logger, answer) := running.logger.step (running.logger.nextRead : BufferCall format)
      (afterRead line writeStdOut { running with logger } answer, answer)
    | .checks => ({ running with loop := if running.run then .reads else .ended }, .none)
    | .ended => (running, .none)

/-- The state a run ends in. -/
def final (allocation : Allocation UInt8) (calls : List (LoggerCall format)) :
    RunningLogger :=
  Machine.final (step line writeStdOut) (create allocation) calls

/-- The buffer is called as the buffer asks for: in order, no block with an unread record being
entered, and the reader entering only the block that the producer is in. -/
def Keeps (running : RunningLogger) (call : LoggerCall format) : Prop :=
  ∀ made ∈ running.bufferCall? call, running.logger.Proper made ∧
    running.logger.EntersFree made ∧ running.logger.Follows made

instance (running : RunningLogger) (call : LoggerCall format) :
    Decidable (running.Keeps call) := inferInstanceAs (Decidable (∀ made ∈ _, _))

end RunningLogger

/-! ### What a call reads -/

/-- The record that an answer is. -/
def Answer.record? : Answer UInt8 → Option (Placed UInt8)
  | .record placed => some placed
  | _ => Option.none

namespace Logger

variable {format : RecordFormat UInt8} (logger : Logger UInt8)

/-- What is read in a call is what the call answers. -/
theorem step_consumed (call : BufferCall format) :
    (logger.step call).1.consumed = logger.consumed ++ (logger.step call).2.record?.toList := by
  cases call with
  | fill record => cases producer : logger.producer <;> simp [step, producer, Answer.record?]
  | forwardWritePointer newWriteOffset =>
    cases producer : logger.producer <;> simp [step, producer, Answer.record?]
  | consume => cases consumer : logger.consumer <;> simp [step, consumer, Answer.record?]
  | getWritePointer | canRead | getReadPointer | forwardReadPointer =>
    simp [step, Answer.record?]

/-- What the reading side does leaves alone what has been written. -/
theorem step_nextRead_written :
    (logger.step (logger.nextRead : BufferCall format)).1.written = logger.written := by
  cases consumer : logger.consumer <;> simp [nextRead, step, consumer]

/-- How many calls the reading side makes until it finds nothing to read. -/
def callsLeft (logger : Logger UInt8) : Nat :=
  match logger.consumer with
  | .idle => 4 * logger.unread.length + 1
  | .ready => 4 * logger.unread.length
  | .pointing _ => 4 * logger.unread.length - 1
  | .taken _ => 4 * logger.unread.length + 2

variable {logger}

/-- The reading side finds out that everything is read, or has one call less to make. -/
theorem Following.nextRead {number last : Nat}
    (following : Following format logger number last) (laid : logger.Laid)
    (follows : logger.Follows (logger.nextRead : BufferCall format)) :
    ((logger.step (logger.nextRead : BufferCall format)).2 = .readable false ∧
        (logger.step (logger.nextRead : BufferCall format)).1.consumer = .idle ∧
        (logger.step (logger.nextRead : BufferCall format)).1.unread = [] ∧
        logger.callsLeft = 1) ∨
      ((logger.step (logger.nextRead : BufferCall format)).2 ≠ .readable false ∧
        (logger.step (logger.nextRead : BufferCall format)).1.callsLeft + 1 =
          logger.callsLeft) := by
  unfold Logger.nextRead at follows ⊢
  cases consumer : logger.consumer with
  | idle =>
    rw [consumer] at follows
    obtain ⟨-, readable⟩ := following.canRead laid consumer follows
    rw [step_canRead]
    cases answer : logger.ringBuffer.canRead.2 with
    | false =>
      have nothing : logger.unread = [] := by
        by_contra some
        rw [readable.mpr some] at answer
        cases answer
      exact Or.inl ⟨rfl, rfl, nothing, by simp [callsLeft, consumer, nothing]⟩
    | true => exact Or.inr ⟨nofun, by simp [callsLeft, consumer]⟩
  | ready =>
    obtain ⟨record, rest, unread, -⟩ := following.oldest (.inl consumer)
    refine Or.inr ⟨nofun, ?_⟩
    simp [step_getReadPointer, callsLeft, consumer, unread]
    omega
  | pointing pointer =>
    obtain ⟨record, rest, unread, place⟩ := following.oldest (.inr (by rw [consumer]; rfl))
    obtain rfl : pointer = record.pointer := (following.pointing _ consumer).trans place.symm
    have intact := following.intact record (unread ▸ List.mem_cons_self)
    refine Or.inr ?_
    rw [step_consume consumer intact.take]
    refine ⟨nofun, ?_⟩
    simp [callsLeft, consumer, unread]
    omega
  | taken size => exact Or.inr ⟨nofun, by simp [Logger.step, callsLeft, consumer]⟩

end Logger

namespace RunningLogger

variable {format : RecordFormat UInt8} {line : List UInt8 → String} {writeStdOut : Bool}
  {running : RunningLogger}

theorem afterRead_frame (line : List UInt8 → String) (writeStdOut : Bool)
    (running : RunningLogger) (answer : Answer UInt8) :
    (afterRead line writeStdOut running answer).logger = running.logger ∧
      (afterRead line writeStdOut running answer).run = running.run ∧
      (afterRead line writeStdOut running answer).logFile =
        running.logFile ++ answer.record?.toList.map fun record => line record.bytes := by
  cases answer with
  | readable readable => cases readable <;> simp [afterRead, Answer.record?]
  | none | pointer | record => simp [afterRead, write, Answer.record?]

theorem afterRead_loop (running : RunningLogger) {answer : Answer UInt8}
    (found : answer ≠ .readable false) :
    (afterRead line writeStdOut running answer).loop = running.loop := by
  cases answer with
  | readable readable =>
    cases readable
    · exact absurd rfl found
    · rfl
  | none | pointer | record => rfl

/-- The buffer is in order, the file has the lines of what was read, and a thread outside the body
of its loop reads nothing. -/
structure Sound (format : RecordFormat UInt8) (line : List UInt8 → String)
    (running : RunningLogger) : Prop where
  laid : running.logger.Laid
  following : ∃ number last, Logger.Following format running.logger number last
  file : running.logFile = running.logger.consumed.map fun record => line record.bytes
  idle : running.loop ≠ .reads → running.logger.consumer = .idle

theorem create_sound (format : RecordFormat UInt8) (line : List UInt8 → String)
    (allocation : Allocation UInt8) (several : 2 ≤ allocation.blocks.length) :
    (create allocation).Sound format line where
  laid := Logger.laid_create allocation several
  following := ⟨0, 0, Logger.following_create format allocation⟩
  file := rfl
  idle _ := rfl

/-- How many calls a thread that is to stop makes until it has ended. -/
def callsLeft (running : RunningLogger) : Nat :=
  match running.loop with
  | .reads => running.logger.callsLeft + 1
  | .checks => 1
  | .ended => 0

theorem callsLeft_le (running : RunningLogger) :
    running.callsLeft ≤ 4 * running.logger.unread.length + 3 := by
  unfold callsLeft Logger.callsLeft
  split
  · split <;> omega
  · omega
  · omega

/-- A call of the program leaves the reading side as it is. -/
theorem Sound.writes (sound : running.Sound format line) {made : BufferCall format}
    (proper : running.logger.Proper made) (free : running.logger.EntersFree made)
    (follows : running.logger.Follows made)
    (reader : (running.logger.step made).1.consumer = running.logger.consumer)
    (silent : (running.logger.step made).2.record? = none) :
    Sound format line { running with logger := (running.logger.step made).1 } where
  laid := sound.laid.step proper
  following := by
    obtain ⟨number, last, following⟩ := sound.following
    exact following.step sound.laid proper free follows
  file := by
    rw [Logger.step_consumed, silent, Option.toList_none, List.append_nil]
    exact sound.file
  idle outside := reader.trans (sound.idle outside)

theorem step_readBuffer (reads : running.loop = .reads) :
    step line writeStdOut running (.readBuffer : LoggerCall format) =
      (afterRead line writeStdOut
        { running with
          logger := (running.logger.step (running.logger.nextRead : BufferCall format)).1 }
        (running.logger.step (running.logger.nextRead : BufferCall format)).2,
      (running.logger.step (running.logger.nextRead : BufferCall format)).2) := by
  simp [step, reads]

/-- In the body of its loop the thread writes what it reads, and it leaves the body when everything
is read. -/
theorem Sound.reads (writeStdOut : Bool) (sound : running.Sound format line)
    (reads : running.loop = .reads) (keeps : running.Keeps (.readBuffer : LoggerCall format)) :
    ∃ after, (step line writeStdOut running (.readBuffer : LoggerCall format)).1 = after ∧
      after.Sound format line ∧ after.run = running.run ∧
      after.logger.written = running.logger.written ∧
      ((after.loop = .checks ∧ after.logger.unread = [] ∧ running.logger.callsLeft = 1) ∨
        (after.loop = .reads ∧ after.logger.callsLeft + 1 = running.logger.callsLeft)) := by
  obtain ⟨proper, free, follows⟩ := keeps running.logger.nextRead (by
    rw [bufferCall?, if_pos reads]
    rfl)
  obtain ⟨number, last, following⟩ := sound.following
  have laid := sound.laid.step proper
  have next := following.step sound.laid proper free follows
  have moved := following.nextRead sound.laid follows
  have written := @Logger.step_nextRead_written format running.logger
  have consumed := running.logger.step_consumed (running.logger.nextRead : BufferCall format)
  refine ⟨_, rfl, ?_⟩
  rw [step_readBuffer reads]
  generalize running.logger.step (running.logger.nextRead : BufferCall format) = result
    at laid next moved written consumed ⊢
  obtain ⟨logger, answer⟩ := result
  dsimp only at laid next moved written consumed ⊢
  obtain ⟨loggerEq, runEq, file⟩ := afterRead_frame line writeStdOut { running with logger } answer
  have stays : answer ≠ .readable false →
      (afterRead line writeStdOut { running with logger } answer).loop = .reads := fun found =>
    (afterRead_loop _ found).trans reads
  have lines : running.logFile ++ answer.record?.toList.map (fun record => line record.bytes) =
      logger.consumed.map fun record => line record.bytes := by
    rw [consumed, sound.file, List.map_append]
  refine ⟨⟨?_, ?_, ?_, ?_⟩, runEq, ?_, ?_⟩
  · rwa [loggerEq]
  · rwa [loggerEq]
  · rw [loggerEq, file, lines]
  · rw [loggerEq]
    rcases moved with ⟨-, idle, -, -⟩ | ⟨found, -⟩
    · exact fun _ => idle
    · exact fun outside => absurd (stays found) outside
  · rw [loggerEq, written]
  · rw [loggerEq]
    rcases moved with ⟨rfl, -, nothing, one⟩ | ⟨found, less⟩
    · exact Or.inl ⟨rfl, nothing, one⟩
    · exact Or.inr ⟨stays found, less⟩

theorem Sound.step (writeStdOut : Bool) (sound : running.Sound format line)
    {call : LoggerCall format} (keeps : running.Keeps call) :
    (step line writeStdOut running call).1.Sound format line := by
  cases call with
  | getWritePointer wantedSpace =>
    obtain ⟨proper, free, follows⟩ := keeps _ rfl
    exact sound.writes proper free follows rfl rfl
  | fill record =>
    obtain ⟨proper, free, follows⟩ := keeps _ rfl
    obtain ⟨pointer, reserved⟩ := Producer.space?_eq_some.mp proper
    have stepped := Logger.step_fill reserved record.toRecord
    exact sound.writes proper free follows (by rw [stepped]) (by rw [stepped]; rfl)
  | forwardWritePointer newWriteOffset =>
    obtain ⟨proper, free, follows⟩ := keeps _ rfl
    obtain ⟨record, filled, -⟩ := Option.map_eq_some_iff.mp proper
    rw [Producer.record?_eq_some] at filled
    have stepped := @Logger.step_forwardWritePointer _ _ format _ _ filled newWriteOffset
    exact sound.writes proper free follows (by rw [stepped]) (by rw [stepped]; rfl)
  | stop => exact ⟨sound.laid, sound.following, sound.file, sound.idle⟩
  | readBuffer =>
    cases loop : running.loop with
    | reads =>
      obtain ⟨after, stepped, kept, -⟩ := sound.reads writeStdOut loop keeps
      exact stepped ▸ kept
    | checks =>
      have idle := sound.idle (by rw [loop]; decide)
      rw [RunningLogger.step, loop]
      exact ⟨sound.laid, sound.following, sound.file, fun _ => idle⟩
    | ended =>
      rw [RunningLogger.step, loop]
      exact sound

/-! ### Stopping -/

/-- The calls of a thread that is to stop read everything that is left if it is in its body, and
nothing otherwise. -/
theorem Sound.drains (sound : running.Sound format line) (stopped : running.run = false)
    {count : Nat} (enough : running.callsLeft ≤ count)
    (keeps : ∀ call ∈ Machine.run (RunningLogger.step line writeStdOut) running
      (List.replicate count (.readBuffer : LoggerCall format)), call.before.Keeps call.input) :
    let last := Machine.final (RunningLogger.step line writeStdOut) running
      (List.replicate count (.readBuffer : LoggerCall format))
    last.loop = .ended ∧ last.logger.written = running.logger.written ∧
      last.logFile = (if running.loop = .reads then running.logger.written
        else running.logger.consumed).map fun record => line record.bytes := by
  induction count generalizing running with
  | zero =>
    have ended : running.loop = .ended := by
      cases loop : running.loop <;> simp [callsLeft, loop] at enough
      rfl
    refine ⟨ended, rfl, ?_⟩
    rw [ended]
    exact sound.file
  | succ count inductionHypothesis =>
    rw [List.replicate_succ, Machine.run, List.forall_mem_cons] at keeps
    rw [List.replicate_succ, Machine.final]
    have kept : (RunningLogger.step line writeStdOut running
        (.readBuffer : LoggerCall format)).1.Sound format line := sound.step writeStdOut keeps.1
    cases loop : running.loop with
    | reads =>
      obtain ⟨after, stepped, -, run, written, moved⟩ :=
        sound.reads writeStdOut loop keeps.1
      rw [stepped] at keeps kept ⊢
      obtain ⟨number, last, following⟩ := kept.following
      simp only [callsLeft, loop] at enough
      have less : after.callsLeft ≤ count := by
        rcases moved with ⟨next, -, one⟩ | ⟨next, fewer⟩
        · simp only [callsLeft, next]
          omega
        · simp only [callsLeft, next]
          omega
      obtain ⟨ended, same, file⟩ := inductionHypothesis kept (run.trans stopped) less keeps.2
      refine ⟨ended, same.trans written, file.trans ?_⟩
      rw [if_pos rfl, ← written]
      rcases moved with ⟨next, nothing, -⟩ | ⟨next, -⟩
      · rw [next, if_neg (by decide), following.kept, nothing, List.append_nil]
      · rw [next, if_pos rfl]
    | checks =>
      have stepped : (RunningLogger.step line writeStdOut running
          (.readBuffer : LoggerCall format)).1 = { running with loop := .ended } := by
        simp [RunningLogger.step, loop, stopped]
      rw [stepped] at keeps kept ⊢
      exact inductionHypothesis kept stopped (Nat.zero_le _) keeps.2
    | ended =>
      have stepped : (RunningLogger.step line writeStdOut running
          (.readBuffer : LoggerCall format)).1 = running := by
        simp [RunningLogger.step, loop]
      rw [stepped] at keeps kept ⊢
      have rest := inductionHypothesis kept stopped (by simp [callsLeft, loop]) keeps.2
      rwa [loop] at rest

theorem run_sound (line : List UInt8 → String) (writeStdOut : Bool) (allocation : Allocation UInt8)
    (several : 2 ≤ allocation.blocks.length) (calls : List (LoggerCall format))
    (keeps : ∀ call ∈ Machine.run (RunningLogger.step line writeStdOut) (create allocation) calls,
      call.before.Keeps call.input) :
    (final line writeStdOut allocation calls).Sound format line :=
  Machine.run_induction (RunningLogger.step line writeStdOut)
    (motive := fun _ running => Sound format line running)
    (create_sound format line allocation several)
    (fun _ _ _ sound kept => sound.step writeStdOut kept) calls keeps

/-- The calls of `Logger::write_buffer`. -/
def writeBuffer (record : PlainRecord format) : List (LoggerCall format) :=
  [.getWritePointer record.bytes.length, .fill record, .forwardWritePointer record.bytes.length]

/-- A record of two bytes, the first of which is the type of the test items. -/
def samplePlain (byte : UInt8) : PlainRecord sampleFormat where
  toRecord := sampleRecord byte
  type := .TEST_STRUCT
  plain := by decide
  typed := rfl

/-- The lines of the samples: how many bytes a record has. -/
def sampleLine (bytes : List UInt8) : String := if bytes.length = 2 then "two bytes" else "other"

example : (final sampleLine true sampleAllocation (writeBuffer (samplePlain 5) ++
    .stop :: List.replicate 7 .readBuffer)).logFile = ["two bytes"] := by decide

end RunningLogger

end OrderForge
