/-
This file is a small library about runs of a partial step function: a system that
takes one input after the other and may stop at a fault.

`run` folds the step over the inputs, `Along` says that every step of a run meets a
condition on the state before it and its input, and the two rules at the end carry an
invariant over a run and exclude a fault from it.
-/

import Mathlib.Data.List.Basic

namespace Runs

variable {State Input Fault : Type}

/-- Take the inputs in order, up to the first fault. -/
def run (step : State → Input → Except Fault State) : State → List Input → Except Fault State
  | state, [] => .ok state
  | state, input :: rest =>
    match step state input with
    | .error fault => .error fault
    | .ok next => run step next rest

/-- Every step of the run meets a condition on the state before it and its input. -/
def Along (step : State → Input → Except Fault State) (allowed : State → Input → Prop) :
    State → List Input → Prop
  | _, [] => True
  | state, input :: rest =>
    allowed state input ∧
      match step state input with
      | .error _ => True
      | .ok next => Along step allowed next rest

variable {step : State → Input → Except Fault State} {allowed : State → Input → Prop}

theorem along_cons {state : State} {input : Input} {rest : List Input} :
    Along step allowed state (input :: rest) ↔
      allowed state input ∧ ∀ next, step state input = .ok next → Along step allowed next rest := by
  rw [Along]
  refine and_congr_right fun _ => ?_
  cases step state input with
  | error fault => exact ⟨nofun, fun _ => trivial⟩
  | ok next => exact ⟨fun along _ same => Except.ok.inj same ▸ along, fun along => along next rfl⟩

instance [∀ state input, Decidable (allowed state input)] (state : State) (inputs : List Input) :
    Decidable (Along step allowed state inputs) :=
  match inputs with
  | [] => isTrue trivial
  | input :: rest =>
    letI : Decidable (match step state input with
        | .error _ => True
        | .ok next => Along step allowed next rest) :=
      match step state input with
      | .error _ => isTrue trivial
      | .ok next => instDecidableAlong next rest
    inferInstanceAs (Decidable (allowed state input ∧ _))

theorem run_cons_ok {state next : State} {input : Input} (stepped : step state input = .ok next)
    (rest : List Input) : run step state (input :: rest) = run step next rest := by
  rw [run, stepped]

theorem run_cons_error {state : State} {input : Input} {fault : Fault}
    (stepped : step state input = .error fault) (rest : List Input) :
    run step state (input :: rest) = .error fault := by
  rw [run, stepped]

/-- A run that does not fault takes its first step without one. -/
theorem run_cons_split {state last : State} {input : Input} {rest : List Input}
    (ran : run step state (input :: rest) = .ok last) :
    ∃ next, step state input = .ok next ∧ run step next rest = .ok last := by
  cases stepped : step state input with
  | error fault => rw [run_cons_error stepped] at ran; cases ran
  | ok next => exact ⟨next, rfl, by rw [← run_cons_ok stepped, ran]⟩

theorem run_append_split {state last : State} {first second : List Input}
    (ran : run step state (first ++ second) = .ok last) :
    ∃ middle, run step state first = .ok middle ∧ run step middle second = .ok last := by
  induction first generalizing state with
  | nil => exact ⟨state, rfl, ran⟩
  | cons input rest inductionHypothesis =>
    obtain ⟨next, stepped, tail⟩ := run_cons_split ran
    obtain ⟨middle, front, back⟩ := inductionHypothesis tail
    exact ⟨middle, by rw [run_cons_ok stepped, front], back⟩

theorem run_append {state middle : State} {first : List Input}
    (ran : run step state first = .ok middle) (second : List Input) :
    run step state (first ++ second) = run step middle second := by
  induction first generalizing state with
  | nil =>
    cases ran
    rfl
  | cons input rest inductionHypothesis =>
    obtain ⟨next, stepped, tail⟩ := run_cons_split ran
    rw [List.cons_append, run_cons_ok stepped, inductionHypothesis tail]

/-- An invariant that holds at the start and is preserved by every allowed step holds at the
end of a run of allowed steps. -/
theorem run_invariant {motive : State → Prop}
    (preserves : ∀ state input next, motive state → allowed state input →
      step state input = .ok next → motive next)
    {state last : State} {inputs : List Input} (initial : motive state)
    (along : Along step allowed state inputs) (ran : run step state inputs = .ok last) :
    motive last := by
  induction inputs generalizing state with
  | nil => cases ran; exact initial
  | cons input rest inductionHypothesis =>
    obtain ⟨next, stepped, tail⟩ := run_cons_split ran
    obtain ⟨first, later⟩ := along_cons.mp along
    exact inductionHypothesis (preserves state input next initial first stepped)
      (later next stepped) tail

/-- Where an allowed step is one that does not raise the fault, a run raises it exactly when one of
its steps is not allowed. -/
theorem run_ne_error_iff {motive : State → Prop} {fault : Fault}
    (preserves : ∀ state input next, motive state → step state input = .ok next →
      motive next)
    (decides : ∀ state input, motive state →
      (step state input ≠ .error fault ↔ allowed state input))
    {state : State} {inputs : List Input} (initial : motive state) :
    run step state inputs ≠ .error fault ↔ Along step allowed state inputs := by
  induction inputs generalizing state with
  | nil => exact ⟨fun _ => trivial, fun _ ran => nomatch ran⟩
  | cons input rest inductionHypothesis =>
    cases stepped : step state input with
    | error other =>
      rw [run_cons_error stepped, along_cons, ← decides state input initial, stepped]
      exact ⟨fun different => ⟨different, fun next ok => nomatch ok⟩,
        fun both => both.1⟩
    | ok next =>
      rw [run_cons_ok stepped, inductionHypothesis (preserves state input next initial stepped),
        along_cons, ← decides state input initial, stepped]
      refine ⟨fun along => ⟨nofun, fun other ok => ?_⟩, fun both => both.2 next rfl⟩
      rw [← Except.ok.inj ok]
      exact along

/-- Where exactly the allowed steps have a result, exactly the runs of allowed steps have one. -/
theorem run_ok_iff {motive : State → Prop}
    (preserves : ∀ state input next, motive state → step state input = .ok next → motive next)
    (decides : ∀ state input, motive state →
      ((∃ next, step state input = .ok next) ↔ allowed state input))
    {state : State} {inputs : List Input} (initial : motive state) :
    (∃ last, run step state inputs = .ok last) ↔ Along step allowed state inputs := by
  induction inputs generalizing state with
  | nil => exact iff_of_true ⟨state, rfl⟩ trivial
  | cons input rest inductionHypothesis =>
    rw [along_cons, ← decides state input initial]
    constructor
    · rintro ⟨last, ran⟩
      obtain ⟨next, stepped, tail⟩ := run_cons_split ran
      refine ⟨⟨next, stepped⟩, fun other same => ?_⟩
      rw [← Except.ok.inj (stepped.symm.trans same)]
      exact (inductionHypothesis (preserves state input next initial stepped)).mp ⟨last, tail⟩
    · rintro ⟨⟨next, stepped⟩, later⟩
      rw [run_cons_ok stepped]
      exact (inductionHypothesis (preserves state input next initial stepped)).mpr
        (later next stepped)

/-- A fault of a run is a fault of one of its steps. -/
theorem run_fault {motive : State → Prop} {kind : Fault → Prop}
    (preserves : ∀ state input next, motive state → step state input = .ok next → motive next)
    (raises : ∀ state input fault, motive state → step state input = .error fault → kind fault)
    {state : State} {inputs : List Input} {fault : Fault} (initial : motive state)
    (ran : run step state inputs = .error fault) : kind fault := by
  induction inputs generalizing state with
  | nil => cases ran
  | cons input rest inductionHypothesis =>
    cases stepped : step state input with
    | error other =>
      rw [run_cons_error stepped] at ran
      cases ran
      exact raises state input _ initial stepped
    | ok next =>
      rw [run_cons_ok stepped] at ran
      exact inductionHypothesis (preserves state input next initial stepped) ran

/-- A condition on the inputs alone holds along every run of such inputs. -/
theorem along_of_forall {kind : Input → Prop} {inputs : List Input}
    (kinds : ∀ input ∈ inputs, kind input) (state : State) :
    Along step (fun _ input => kind input) state inputs := by
  induction inputs generalizing state with
  | nil => trivial
  | cons input rest inductionHypothesis =>
    obtain ⟨first, later⟩ := List.forall_mem_cons.mp kinds
    exact along_cons.mpr ⟨first, fun next _ => inductionHypothesis later next⟩

theorem Along.and {other : State → Input → Prop} {state : State} {inputs : List Input}
    (first : Along step allowed state inputs) (second : Along step other state inputs) :
    Along step (fun state input => allowed state input ∧ other state input) state inputs := by
  induction inputs generalizing state with
  | nil => trivial
  | cons input rest inductionHypothesis =>
    obtain ⟨here, later⟩ := along_cons.mp first
    obtain ⟨too, also⟩ := along_cons.mp second
    exact along_cons.mpr ⟨⟨here, too⟩, fun next stepped =>
      inductionHypothesis (later next stepped) (also next stepped)⟩

theorem along_append {state : State} {first second : List Input} :
    Along step allowed state (first ++ second) ↔ Along step allowed state first ∧
      ∀ middle, run step state first = .ok middle → Along step allowed middle second := by
  induction first generalizing state with
  | nil =>
    refine ⟨fun along => ⟨trivial, fun middle ran => ?_⟩, fun both => both.2 state rfl⟩
    cases ran
    exact along
  | cons input rest inductionHypothesis =>
    rw [List.cons_append, along_cons, along_cons, and_assoc]
    refine and_congr_right fun _ => ⟨fun later => ⟨fun next stepped =>
      (inductionHypothesis.mp (later next stepped)).1, fun middle ran => ?_⟩,
      fun both next stepped => inductionHypothesis.mpr ⟨both.1 next stepped, fun middle ran => ?_⟩⟩
    · obtain ⟨next, stepped, tail⟩ := run_cons_split ran
      exact (inductionHypothesis.mp (later next stepped)).2 middle tail
    · exact both.2 middle (by rw [run_cons_ok stepped, ran])

/-- A property that a step keeps exactly when it is allowed, and never restores, holds at the end
of a run exactly when it held at the start and all steps were allowed. -/
theorem run_holds_iff {motive good : State → Prop} {eligible : State → Input → Prop}
    (preserves : ∀ state input next, motive state → eligible state input →
      step state input = .ok next → motive next)
    (keeps : ∀ state input next, motive state → eligible state input →
      step state input = .ok next → (good next ↔ good state ∧ allowed state input))
    {state last : State} {inputs : List Input} (initial : motive state)
    (along : Along step eligible state inputs) (ran : run step state inputs = .ok last) :
    good last ↔ good state ∧ Along step allowed state inputs := by
  induction inputs generalizing state with
  | nil =>
    cases ran
    exact (and_iff_left trivial).symm
  | cons input rest inductionHypothesis =>
    obtain ⟨next, stepped, tail⟩ := run_cons_split ran
    obtain ⟨first, later⟩ := along_cons.mp along
    have here := keeps state input next initial first stepped
    rw [inductionHypothesis (preserves state input next initial first stepped)
      (later next stepped) tail, here, along_cons, and_assoc]
    refine and_congr_right fun _ => and_congr_right fun _ => ⟨fun along other same => ?_,
      fun along => along next stepped⟩
    rw [← Except.ok.inj (stepped.symm.trans same)]
    exact along

/-- The fault a result is, if it is one. -/
def faultOf : Except Fault State → Option Fault
  | .error fault => some fault
  | .ok _ => none

theorem eq_error_of_faultOf {result : Except Fault State} {fault : Fault}
    (same : faultOf result = some fault) : result = .error fault := by
  cases result with
  | error other => exact congrArg Except.error (Option.some.inj same)
  | ok state => cases same

/-- A result is a state with a property. Being inductive, it is not unfolded by running. -/
inductive Ends (property : State → Prop) : Except Fault State → Prop
  | intro (state : State) (holds : property state) : Ends property (.ok state)

instance (property : State → Prop) [decidable : DecidablePred property] :
    DecidablePred (Ends property : Except Fault State → Prop)
  | .error _ => isFalse nofun
  | .ok state =>
    match decidable state with
    | isTrue holds => isTrue (.intro state holds)
    | isFalse fails => isFalse fun | .intro _ holds => fails holds

theorem exists_of_ends {property : State → Prop} {result : Except Fault State}
    (ends : Ends property result) : ∃ state, result = .ok state ∧ property state := by
  cases ends with
  | intro state holds => exact ⟨state, rfl, holds⟩

/-- Without a condition on the steps every run qualifies. -/
theorem along_true (state : State) (inputs : List Input) :
    Along step (fun _ _ => True) state inputs :=
  along_of_forall (fun _ _ => trivial) state

/-! ### Two runs -/

/-- Two results are the same fault, or states that are related. -/
inductive Related {First Second : Type} (relates : First → Second → Prop) :
    Except Fault First → Except Fault Second → Prop
  | ok {first : First} {second : Second} (both : relates first second) :
    Related relates (.ok first) (.ok second)
  | error (fault : Fault) : Related relates (.error fault) (.error fault)

section Related

variable {First Second FirstNext SecondNext : Type} {relates : First → Second → Prop}
  {relatesNext : FirstNext → SecondNext → Prop}

theorem Related.map {changeFirst : First → FirstNext} {changeSecond : Second → SecondNext}
    {first : Except Fault First} {second : Except Fault Second}
    (related : Related relates first second)
    (keeps : ∀ one other, relates one other → relatesNext (changeFirst one) (changeSecond other)) :
    Related relatesNext (changeFirst <$> first) (changeSecond <$> second) := by
  cases related with
  | ok both => exact .ok (keeps _ _ both)
  | error fault => exact .error fault

theorem Related.mono {first : Except Fault First} {second : Except Fault Second}
    {weaker : First → Second → Prop} (related : Related relates first second)
    (weakens : ∀ one other, relates one other → weaker one other) :
    Related weaker first second := by
  cases related with
  | ok both => exact .ok (weakens _ _ both)
  | error fault => exact .error fault

/-- What is known of the first result may be added. -/
theorem Related.knowing {first : Except Fault First} {second : Except Fault Second}
    {property : First → Prop} (related : Related relates first second)
    (known : ∀ one, first = .ok one → property one) :
    Related (fun one other => relates one other ∧ property one) first second := by
  cases related with
  | ok both => exact .ok ⟨both, known _ rfl⟩
  | error fault => exact .error fault

theorem Related.split {first : Except Fault First} {second : Except Fault Second}
    (related : Related relates first second) :
    (∃ fault, first = .error fault ∧ second = .error fault) ∨
      ∃ one other, first = .ok one ∧ second = .ok other ∧ relates one other := by
  cases related with
  | ok both => exact Or.inr ⟨_, _, rfl, rfl, both⟩
  | error fault => exact Or.inl ⟨fault, rfl, rfl⟩

/-- Runs from related results. -/
theorem Related.run {stepFirst : First → Input → Except Fault First}
    {stepSecond : Second → Input → Except Fault Second} {first : First} {second : Second}
    {input : Input} {rest : List Input} {relatesLast : First → Second → Prop}
    (stepped : Related relates (stepFirst first input) (stepSecond second input))
    (goes : ∀ one other, stepFirst first input = .ok one → relates one other →
      Related relatesLast (run stepFirst one rest) (run stepSecond other rest)) :
    Related relatesLast (run stepFirst first (input :: rest))
      (run stepSecond second (input :: rest)) := by
  rcases stepped.split with
    ⟨fault, wentFirst, wentSecond⟩ | ⟨one, other, wentFirst, wentSecond, both⟩
  · rw [run_cons_error wentFirst, run_cons_error wentSecond]
    exact .error fault
  · rw [run_cons_ok wentFirst, run_cons_ok wentSecond]
    exact goes one other wentFirst both

/-- Related states that take related steps, as long as the steps are allowed, end related. -/
theorem run_related {stepFirst : First → Input → Except Fault First}
    {stepSecond : Second → Input → Except Fault Second} {allowed : First → Input → Prop}
    (steps : ∀ first second input, relates first second → allowed first input →
      Related relates (stepFirst first input) (stepSecond second input))
    {first : First} {second : Second} {inputs : List Input} (initial : relates first second)
    (along : Along stepFirst allowed first inputs) :
    Related relates (run stepFirst first inputs) (run stepSecond second inputs) := by
  induction inputs generalizing first second with
  | nil => exact .ok initial
  | cons input rest inductionHypothesis =>
    obtain ⟨here, later⟩ := along_cons.mp along
    exact (steps first second input initial here).run fun next other went both =>
      inductionHypothesis both (later next went)

end Related

end Runs
