/-
This file settles whether ids are unique across runs of the program. A generator is
constructed by the first call of `get_id` in a process, from the local calendar day
of that moment, and never looks at the calendar again. So two runs that start on one
day hand out the same ids; runs of different days keep apart exactly as long as the
one of the earlier day hands out no more ids than the gap between the two days has
room for.
-/

import OrderForge.Machine
import OrderForge.Numbering

namespace OrderForge

/-- A day of the local calendar. -/
structure CalendarDay where
  year : Nat
  month : Nat
  day : Nat
deriving DecidableEq

/-- `COUNTER_SPACE`. -/
def counterSpace : UInt64 := 1000000000

namespace IdGenerator

/-- `IdGenerator::get_current_datetime`: the day as the number `YYYYMMDD`. -/
def getCurrentDatetime (today : CalendarDay) : UInt64 :=
  UInt64.ofNat today.year * 10000 + UInt64.ofNat today.month * 100 + UInt64.ofNat today.day

/-- The constructor. -/
def create (today : CalendarDay) : IdGenerator := ⟨getCurrentDatetime today * counterSpace⟩

end IdGenerator

/-- `get_id<T>`: the first call constructs the generator of `T`. -/
def getId (instance? : Option IdGenerator) (today : CalendarDay) :
    Option IdGenerator × UInt64 :=
  let (id, generator) := (instance?.getD (IdGenerator.create today)).generateId
  (some generator, id)

/-- The ids a process hands out, given the day of every call of `get_id<T>`. -/
def processIds (calls : List CalendarDay) : List UInt64 :=
  (Machine.run getId none calls).map Transition.output

/-! ### One run -/

theorem run_getId (generator : IdGenerator) (calls : List CalendarDay) :
    (Machine.run getId (some generator) calls).map Transition.output =
      generator.ids calls.length := by
  induction calls generalizing generator with
  | nil => rfl
  | cons today later inductionHypothesis =>
    exact congrArg (List.cons _) (inductionHypothesis generator.generateId.2)

/-- A run hands out the ids of the generator of its first day. -/
theorem processIds_cons (today : CalendarDay) (later : List CalendarDay) :
    processIds (today :: later) = (IdGenerator.create today).ids (today :: later).length :=
  congrArg (List.cons _) (run_getId (IdGenerator.create today).generateId.2 later)

/-- Whether the ids of a run end before the ring of 64-bit numbers does. -/
def InRange : List CalendarDay → Prop
  | [] => True
  | today :: later => (IdGenerator.create today).Fits (today :: later).length

theorem inRange_iff (calls : List CalendarDay) :
    InRange calls ↔ (processIds calls).Nodup ∧ 0 ∉ processIds calls := by
  cases calls with
  | nil => exact ⟨fun _ => ⟨List.nodup_nil, List.not_mem_nil⟩, fun _ => trivial⟩
  | cons today later => rw [processIds_cons, ← IdGenerator.fits_iff, InRange]

/-! ### Two runs -/

/-- Whether no id of one run is one of the other, and the ids of each run are pairwise distinct and
not zero. -/
structure UniqueAcross (first second : List CalendarDay) : Prop where
  firstIds : (processIds first).Nodup ∧ 0 ∉ processIds first
  secondIds : (processIds second).Nodup ∧ 0 ∉ processIds second
  disjoint : (processIds first).Disjoint (processIds second)

/-- Whether one of two runs hands out no id, or the one that was seeded lower hands out no more ids
than there are numbers between the seeds. -/
def Apart : List CalendarDay → List CalendarDay → Prop
  | firstDay :: first, secondDay :: second =>
    (IdGenerator.create firstDay).counter.toNat + (firstDay :: first).length ≤
        (IdGenerator.create secondDay).counter.toNat ∨
      (IdGenerator.create secondDay).counter.toNat + (secondDay :: second).length ≤
        (IdGenerator.create firstDay).counter.toNat
  | _, _ => True

/-- Two runs hand out distinct ids exactly when both stay in range and they are apart. -/
theorem ids_unique_across_runs_iff (first second : List CalendarDay) :
    UniqueAcross first second ↔ InRange first ∧ InRange second ∧ Apart first second := by
  have disjoint : InRange first → InRange second →
      ((processIds first).Disjoint (processIds second) ↔ Apart first second) := by
    intro firstFits secondFits
    cases first with
    | nil => exact ⟨fun _ => trivial, fun _ => List.disjoint_nil_left _⟩
    | cons firstDay firstLater =>
      cases second with
      | nil => exact ⟨fun _ => trivial, fun _ => List.disjoint_nil_right _⟩
      | cons secondDay secondLater =>
        rw [processIds_cons, processIds_cons, IdGenerator.Fits.disjoint_iff firstFits secondFits]
        simp [Apart]
  constructor
  · rintro ⟨firstIds, secondIds, apart⟩
    have firstFits := (inRange_iff first).mpr firstIds
    have secondFits := (inRange_iff second).mpr secondIds
    exact ⟨firstFits, secondFits, (disjoint firstFits secondFits).mp apart⟩
  · rintro ⟨firstFits, secondFits, apart⟩
    exact ⟨(inRange_iff first).mp firstFits, (inRange_iff second).mp secondFits,
      (disjoint firstFits secondFits).mpr apart⟩

/-- The program is started again on the same day. -/
theorem restart_repeats_ids : ¬ UniqueAcross [⟨2025, 1, 31⟩] [⟨2025, 1, 31⟩] := fun unique =>
  unique.disjoint (a := 20250131000000001) (by decide) (by decide)

/-! ### Days of four-digit years -/

/-- A day that eight digits can write. -/
structure CalendarDay.Valid (today : CalendarDay) : Prop where
  year : today.year < 10000
  month : today.month < 100
  day : today.day < 100

/-- The number `YYYYMMDD`. -/
def CalendarDay.number (today : CalendarDay) : Nat :=
  today.year * 10000 + today.month * 100 + today.day

theorem create_counter {today : CalendarDay} (valid : today.Valid) :
    (IdGenerator.create today).counter.toNat = today.number * 1000000000 := by
  obtain ⟨year, month, day⟩ := valid
  simp only [IdGenerator.create, IdGenerator.getCurrentDatetime, CalendarDay.number, counterSpace,
    UInt64.toNat_mul, UInt64.toNat_add, UInt64.toNat_ofNat', UInt64.toNat_ofNat]
  omega

theorem number_injective {first second : CalendarDay} (firstValid : first.Valid)
    (secondValid : second.Valid) (same : first.number = second.number) : first = second := by
  obtain ⟨-, firstMonth, firstDay⟩ := firstValid
  obtain ⟨-, secondMonth, secondDay⟩ := secondValid
  cases first
  cases second
  simp only [CalendarDay.number] at same firstMonth firstDay secondMonth secondDay
  simp only [CalendarDay.mk.injEq]
  omega

/-- Runs that are first asked for an id on different days keep apart as long as each hands out at
most `COUNTER_SPACE` ids, whatever the days. -/
theorem ids_unique_across_days {firstDay secondDay : CalendarDay} (firstValid : firstDay.Valid)
    (secondValid : secondDay.Valid) (different : firstDay ≠ secondDay)
    {first second : List CalendarDay} (firstShort : (firstDay :: first).length ≤ 1000000000)
    (secondShort : (secondDay :: second).length ≤ 1000000000) :
    UniqueAcross (firstDay :: first) (secondDay :: second) := by
  have firstCounter := create_counter firstValid
  have secondCounter := create_counter secondValid
  have gap : firstDay.number ≠ secondDay.number := fun same =>
    different (number_injective firstValid secondValid same)
  have bound : ∀ {today : CalendarDay}, today.Valid → today.number < 100000000 := by
    rintro today ⟨year, month, day⟩
    rw [CalendarDay.number]
    omega
  have firstBound := bound firstValid
  have secondBound := bound secondValid
  refine (ids_unique_across_runs_iff _ _).mpr ⟨?_, ?_, ?_⟩
  · rw [InRange, IdGenerator.Fits]
    omega
  · rw [InRange, IdGenerator.Fits]
    omega
  · rw [Apart]
    omega

end OrderForge
