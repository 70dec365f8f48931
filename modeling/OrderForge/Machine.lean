/-
This file is a small library about the runs of a deterministic machine: a step
function that takes a state and an input to the next state and an output. A run
is the list of its transitions, so a property may look at every state passed, at
every input and at everything put out. The two induction rules extend a run at
its end: one carries a property of the whole history, the other an invariant of
the state.
-/

import Mathlib.Data.List.Induction

/-- One step of a machine: the state before, the input, the output, the state after. -/
structure Transition (State Input Output : Type) where
  before : State
  input : Input
  output : Output
  after : State

namespace Machine

variable {State Input Output : Type} (step : State → Input → State × Output)

/-- The transition an input causes in a state. -/
def transition (state : State) (input : Input) : Transition State Input Output :=
  ⟨state, input, (step state input).2, (step state input).1⟩

/-- The state a list of inputs leads to. -/
def final : State → List Input → State
  | state, [] => state
  | state, input :: rest => final (step state input).1 rest

/-- The transitions a list of inputs causes. -/
def run : State → List Input → List (Transition State Input Output)
  | _, [] => []
  | state, input :: rest => transition step state input :: run (step state input).1 rest

theorem final_append (start : State) (first second : List Input) :
    final step start (first ++ second) = final step (final step start first) second := by
  induction first generalizing start with
  | nil => rfl
  | cons input rest inductionHypothesis => exact inductionHypothesis _

theorem run_append (start : State) (first second : List Input) :
    run step start (first ++ second) =
      run step start first ++ run step (final step start first) second := by
  induction first generalizing start with
  | nil => rfl
  | cons input rest inductionHypothesis =>
    exact congrArg (List.cons (transition step start input)) (inductionHypothesis _)

theorem final_concat (start : State) (inputs : List Input) (input : Input) :
    final step start (inputs ++ [input]) = (step (final step start inputs) input).1 :=
  final_append step start inputs [input]

theorem run_concat (start : State) (inputs : List Input) (input : Input) :
    run step start (inputs ++ [input]) =
      run step start inputs ++ [transition step (final step start inputs) input] :=
  run_append step start inputs [input]

/-- A property of the history and the state it leads to holds of every run when it holds at
the start and every allowed transition keeps it. -/
theorem run_induction {motive : List (Transition State Input Output) → State → Prop}
    {allowed : Transition State Input Output → Prop} {start : State} (base : motive [] start)
    (next : ∀ past state input, motive past state → allowed (transition step state input) →
      motive (past ++ [transition step state input]) (step state input).1)
    (inputs : List Input) (all : ∀ call ∈ run step start inputs, allowed call) :
    motive (run step start inputs) (final step start inputs) := by
  induction inputs using List.reverseRecOn with
  | nil => exact base
  | append_singleton inputs input inductionHypothesis =>
    rw [run_concat] at all
    rw [run_concat, final_concat]
    exact next _ _ _
      (inductionHypothesis fun call member => all call (List.mem_append_left _ member))
      (all _ (List.mem_append_right _ (List.mem_singleton_self _)))

/-- A property of the state that every step keeps holds at the end of every run. -/
theorem final_invariant {motive : State → Prop} {start : State} (base : motive start)
    (next : ∀ state input, motive state → motive (step state input).1) (inputs : List Input) :
    motive (final step start inputs) := by
  induction inputs using List.reverseRecOn with
  | nil => exact base
  | append_singleton inputs input inductionHypothesis =>
    rw [final_concat]
    exact next _ _ inductionHypothesis

/-- Two properties of transitions agree along a run when they do in every step from a good state,
and the state stays good as long as they hold. -/
theorem run_iff {motive : State → Prop}
    {allowed keeps leaves : Transition State Input Output → Prop}
    (next : ∀ state input, motive state → allowed (transition step state input) →
      (keeps (transition step state input) ↔ leaves (transition step state input)) ∧
        (leaves (transition step state input) → motive (step state input).1))
    {start : State} (base : motive start) (inputs : List Input)
    (all : ∀ call ∈ run step start inputs, allowed call) :
    (∀ call ∈ run step start inputs, keeps call) ↔
      ∀ call ∈ run step start inputs, leaves call := by
  induction inputs generalizing start with
  | nil =>
    exact iff_of_true (fun _ none => (List.not_mem_nil none).elim)
      fun _ none => (List.not_mem_nil none).elim
  | cons input rest inductionHypothesis =>
    rw [run, List.forall_mem_cons] at all
    obtain ⟨agree, good⟩ := next start input base all.1
    rw [run, List.forall_mem_cons, List.forall_mem_cons, agree]
    exact and_congr_right fun left => inductionHypothesis (good left) all.2

/-- A transition of a run is caused by one of its inputs in the state that the inputs before
it lead to. -/
theorem run_split {start : State} {inputs : List Input}
    {past later : List (Transition State Input Output)} {call : Transition State Input Output}
    (split : run step start inputs = past ++ call :: later) :
    ∃ front input back, inputs = front ++ input :: back ∧ past = run step start front ∧
      call = transition step (final step start front) input := by
  induction inputs generalizing start past with
  | nil => cases past <;> cases split
  | cons input rest inductionHypothesis =>
    cases past with
    | nil =>
      obtain ⟨head, -⟩ := List.cons.inj split
      exact ⟨[], input, rest, rfl, rfl, head.symm⟩
    | cons head past =>
      obtain ⟨headEq, tail⟩ := List.cons.inj split
      obtain ⟨front, other, back, inputsEq, pastEq, callEq⟩ := inductionHypothesis tail
      refine ⟨input :: front, other, back, by rw [inputsEq, List.cons_append], ?_, callEq⟩
      rw [← headEq, pastEq]
      rfl

/-- The inputs of a run are the inputs given. -/
theorem run_inputs (start : State) (inputs : List Input) :
    (run step start inputs).map Transition.input = inputs := by
  induction inputs generalizing start with
  | nil => rfl
  | cons input rest inductionHypothesis =>
    exact congrArg (List.cons input) (inductionHypothesis _)

theorem mem_run {start : State} {inputs : List Input} {call : Transition State Input Output}
    (member : call ∈ run step start inputs) :
    ∃ front back, inputs = front ++ call.input :: back ∧
      call = transition step (final step start front) call.input := by
  obtain ⟨past, later, split⟩ := List.append_of_mem member
  obtain ⟨front, input, back, inputsEq, -, rfl⟩ := run_split step split
  exact ⟨front, back, inputsEq, rfl⟩

/-- Two machines stay related through a run when every allowed input and its translation take
related states to related states and put out a result and its image. -/
theorem run_simulation {State' Input' Output' : Type} {other : State' → Input' → State' × Output'}
    {motive : State → State' → Prop} {allowed : Input → Prop} (translate : Input → Input')
    (image : Output → Output')
    (simulates : ∀ state state' input, motive state state' → allowed input →
      motive (step state input).1 (other state' (translate input)).1 ∧
        (other state' (translate input)).2 = image (step state input).2)
    {inputs : List Input} (all : ∀ input ∈ inputs, allowed input) {start : State}
    {start' : State'} (related : motive start start') :
    motive (final step start inputs) (final other start' (inputs.map translate)) ∧
      (run other start' (inputs.map translate)).map Transition.output =
        (run step start inputs).map fun call => image call.output := by
  induction inputs generalizing start start' with
  | nil => exact ⟨related, rfl⟩
  | cons input rest inductionHypothesis =>
    obtain ⟨head, others⟩ := List.forall_mem_cons.mp all
    obtain ⟨next, output⟩ := simulates start start' input related head
    obtain ⟨last, outputs⟩ := inductionHypothesis others next
    exact ⟨last, congrArg₂ List.cons output outputs⟩

/-- A run looks like a run of another machine exactly when every transition of it does. -/
theorem run_image_iff {State' Output' : Type} {other : State' → Input → State' × Output'}
    (image : State → State') (answer : Output → Output') {start : State} {inputs : List Input} :
    ((run step start inputs).map fun call => (image call.after, answer call.output)) =
        ((run other (image start) inputs).map fun call => (call.after, call.output)) ↔
      ∀ call ∈ run step start inputs,
        other (image call.before) call.input = (image call.after, answer call.output) := by
  induction inputs generalizing start with
  | nil => exact iff_of_true rfl fun _ none => (List.not_mem_nil none).elim
  | cons input rest inductionHypothesis =>
    rw [run, run, List.map_cons, List.map_cons, List.cons.injEq, List.forall_mem_cons,
      ← inductionHypothesis]
    refine and_congr ⟨Eq.symm, Eq.symm⟩ Iff.rfl |>.trans (and_congr_right fun same => ?_)
    have next : (other (image start) input).1 = image (step start input).1 :=
      congrArg Prod.fst same
    rw [next]

/-- Where one machine is a part of another, the calls that are the part's look like a run of the
part alone: the other calls leave it as it is. -/
theorem run_part {Part Input' Output' View : Type} {other : Part → Input' → Part × Output'}
    {motive : State → Part → Prop} {allowed own : Transition State Input Output → Prop}
    [DecidablePred own] (translate : Transition State Input Output → Input')
    (view : Transition State Input Output → View) (view' : Transition Part Input' Output' → View)
    (leaves : ∀ state part input, motive state part → allowed (transition step state input) →
      ¬ own (transition step state input) → motive (step state input).1 part)
    (moves : ∀ state part input, motive state part → allowed (transition step state input) →
      own (transition step state input) →
      motive (step state input).1
          (other part (translate (transition step state input))).1 ∧
        view (transition step state input) =
          view' (transition other part (translate (transition step state input))))
    {start : State} {part : Part} (related : motive start part) {inputs : List Input}
    (all : ∀ call ∈ run step start inputs, allowed call) :
    ((run step start inputs).filter own).map view =
      (run other part (((run step start inputs).filter own).map translate)).map view' := by
  induction inputs generalizing start part with
  | nil => rfl
  | cons input rest inductionHypothesis =>
    rw [run, List.forall_mem_cons] at all
    rw [run]
    by_cases mine : own (transition step start input)
    · obtain ⟨next, same⟩ := moves start part input related all.1 mine
      rw [List.filter_cons_of_pos (by simpa using mine), List.map_cons, List.map_cons, run,
        List.map_cons, same, inductionHypothesis next all.2]
    · rw [List.filter_cons_of_neg (by simpa using mine)]
      exact inductionHypothesis (leaves start part input related all.1 mine) all.2

end Machine
