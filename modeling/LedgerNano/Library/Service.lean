/-
This file is a small library about services, which do one job after the other and give a result of
each.

An ideal service always goes on; a real one may break off. `Refines` says that the real service does
each single job as the ideal one does, between states that stand for each other, and `Refines.serve`
that it does all jobs so. What an ideal service remembers is one state. Where a job sets it to the
same whatever it was (`Resets`), the results after it are those of that job, on any history
(`ideally_resets`).
-/

import Mathlib.Data.List.Basic

namespace Service

variable {State Ideal Job Result Error : Type}

/-- Do the jobs in their order, up to the first that breaks off. -/
def serve (act : Job → State → Except Error (Result × State)) :
    List Job → State → Except Error (List Result × State)
  | [], state => .ok ([], state)
  | job :: later, state =>
    match act job state with
    | .error error => .error error
    | .ok (result, next) => (fun rest => (result :: rest.1, rest.2)) <$> serve act later next

/-- Do the jobs with a service that does not break off. -/
def ideally (ideal : Job → Ideal → Result × Ideal) : List Job → Ideal → List Result × Ideal
  | [], state => ([], state)
  | job :: later, state =>
    let rest := ideally ideal later (ideal job state).2
    ((ideal job state).1 :: rest.1, rest.2)

/-- A service does every job as an ideal one, and keeps to a state that stands for its state. -/
structure Refines (act : Job → State → Except Error (Result × State))
    (ideal : Job → Ideal → Result × Ideal) (stands : Ideal → State → Prop) : Prop where
  does : ∀ job abstract state, stands abstract state → ∃ next,
    act job state = .ok ((ideal job abstract).1, next) ∧ stands (ideal job abstract).2 next

/-- A job after which an ideal service is in one state, whatever it was before. -/
def Resets (ideal : Job → Ideal → Result × Ideal) (job : Job) (left : Ideal) : Prop :=
  ∀ state, (ideal job state).2 = left

variable {act : Job → State → Except Error (Result × State)} {ideal : Job → Ideal → Result × Ideal}
  {stands : Ideal → State → Prop} {abstract : Ideal} {state : State}

/-- What is done job by job is done by any sequence of jobs. -/
theorem Refines.serve (refines : Refines act ideal stands) (jobs : List Job)
    (start : stands abstract state) : ∃ last,
      serve act jobs state = .ok ((ideally ideal jobs abstract).1, last) ∧
        stands (ideally ideal jobs abstract).2 last := by
  induction jobs generalizing abstract state with
  | nil => exact ⟨state, rfl, start⟩
  | cons job later inductionHypothesis =>
    obtain ⟨next, acted, kept⟩ := refines.does job abstract state start
    obtain ⟨last, served, stood⟩ := inductionHypothesis kept
    refine ⟨last, ?_, stood⟩
    rw [Service.serve, acted]
    simp only
    rw [served]
    rfl

theorem ideally_append (first second : List Job) (abstract : Ideal) :
    ideally ideal (first ++ second) abstract =
      ((ideally ideal first abstract).1 ++
        (ideally ideal second (ideally ideal first abstract).2).1,
        (ideally ideal second (ideally ideal first abstract).2).2) := by
  induction first generalizing abstract with
  | nil => rfl
  | cons job later inductionHypothesis =>
    rw [List.cons_append, ideally, inductionHypothesis]
    rfl

theorem length_ideally (jobs : List Job) (abstract : Ideal) :
    (ideally ideal jobs abstract).1.length = jobs.length := by
  induction jobs generalizing abstract with
  | nil => rfl
  | cons job later inductionHypothesis =>
    rw [ideally, List.length_cons, inductionHypothesis, List.length_cons]

/-- Behind a job that resets the state, the results do not tell what came before it. -/
theorem ideally_resets {job : Job} {left : Ideal} (resets : Resets ideal job left)
    (earlier later : List Job) (abstract : Ideal) :
    (ideally ideal (earlier ++ job :: later) abstract).1 =
      (ideally ideal earlier abstract).1 ++
        (ideal job (ideally ideal earlier abstract).2).1 :: (ideally ideal later left).1 := by
  rw [ideally_append, ideally, resets]

end Service
