/-
This file is a small library about computations whose environment makes choices: a computation takes
its choices from the front of a list, may fail, and leaves the rest of the list.

`Takes` says that a computation needs a definite number of choices of one kind. With these its
result does not depend on anything else that was chosen; it fails in one way at the first choice of
another kind, and in another way when the choices run out (`Takes.eq`). The rules follow the
program: `takes_none`, `Takes.next` for a computation that takes a choice, and `Takes.bind`;
`Takes.lt_of_bind` compares a computation with its first part.
-/

import Mathlib.Data.List.Basic

namespace Choices

variable {Choice Error First Second : Type}

/-- A computation that takes choices from the front of a list. -/
abbrev Taking (Choice Error : Type) := StateT (List Choice) (Except Error)

/-- A computation takes as many choices, all of the kind, to its result. -/
structure Takes (kind : Choice → Prop) (refused starved : Error) (count : Nat) (result : First)
    (taking : Taking Choice Error First) : Prop where
  ends : ∀ choices, count ≤ choices.length → (∀ choice ∈ choices.take count, kind choice) →
    taking choices = .ok (result, choices.drop count)
  refuses : ∀ choices, (∃ choice ∈ choices.take count, ¬ kind choice) →
    taking choices = .error refused
  starves : ∀ choices, choices.length < count → (∀ choice ∈ choices, kind choice) →
    taking choices = .error starved

variable {kind : Choice → Prop} {refused starved : Error} {count more : Nat} {result : First}
  {last : Second} {taking later : Taking Choice Error First}
  {following : First → Taking Choice Error Second}

theorem takes_none (ends : ∀ choices, taking choices = .ok (result, choices)) :
    Takes kind refused starved 0 result taking where
  ends choices _ _ := ends choices
  refuses _ some := by
    obtain ⟨_, member, _⟩ := some
    exact absurd member List.not_mem_nil
  starves _ fewer := absurd fewer (Nat.not_lt_zero _)

theorem takes_pure (result : First) :
    Takes kind refused starved 0 result (pure result : Taking Choice Error First) :=
  takes_none fun _ => rfl

/-- A computation that takes a choice of the kind and goes on the same way whichever it was. -/
theorem Takes.next (takes : Takes kind refused starved count result later)
    (starves : taking [] = .error starved)
    (goes : ∀ choice rest, kind choice → taking (choice :: rest) = later rest)
    (refuses : ∀ choice rest, ¬ kind choice → taking (choice :: rest) = .error refused) :
    Takes kind refused starved (count + 1) result taking where
  ends choices enough each := by
    cases choices with
    | nil => exact absurd enough (Nat.not_succ_le_zero _)
    | cons choice rest =>
      obtain ⟨first, others⟩ := List.forall_mem_cons.mp each
      rw [goes choice rest first]
      exact takes.ends rest (Nat.le_of_succ_le_succ enough) others
  refuses choices some := by
    cases choices with
    | nil =>
      obtain ⟨_, member, _⟩ := some
      exact absurd member List.not_mem_nil
    | cons choice rest =>
      by_cases first : kind choice
      · obtain ⟨other, member, unkind⟩ := some
        rcases List.mem_cons.mp member with rfl | inRest
        · exact absurd first unkind
        · rw [goes choice rest first]
          exact takes.refuses rest ⟨other, inRest, unkind⟩
      · exact refuses choice rest first
  starves choices fewer each := by
    cases choices with
    | nil => exact starves
    | cons choice rest =>
      obtain ⟨first, others⟩ := List.forall_mem_cons.mp each
      rw [goes choice rest first]
      exact takes.starves rest (Nat.lt_of_succ_lt_succ fewer) others

theorem bind_of_ok {choices rest : List Choice} (ended : taking choices = .ok (result, rest)) :
    (taking >>= following) choices = following result rest := by
  show Except.bind (taking choices) _ = _
  rw [ended]
  rfl

theorem bind_of_error {choices : List Choice} {error : Error}
    (failed : taking choices = .error error) : (taking >>= following) choices = .error error := by
  show Except.bind (taking choices) _ = _
  rw [failed]
  rfl

/-- The choices of two computations, one after the other, add up. -/
theorem Takes.bind (first : Takes kind refused starved count result taking)
    (second : Takes kind refused starved more last (following result)) :
    Takes kind refused starved (count + more) last (taking >>= following) where
  ends choices enough each := by
    rw [List.take_add] at each
    obtain ⟨early, late⟩ := List.forall_mem_append.mp each
    rw [bind_of_ok (first.ends choices (by omega) early), ← List.drop_drop]
    exact second.ends _ (by rw [List.length_drop]; omega) late
  refuses choices some := by
    by_cases early : ∃ choice ∈ choices.take count, ¬ kind choice
    · exact bind_of_error (first.refuses choices early)
    · have each : ∀ choice ∈ choices.take count, kind choice := fun choice member =>
        Classical.not_not.mp fun unkind => early ⟨choice, member, unkind⟩
      obtain ⟨choice, member, unkind⟩ := some
      rw [List.take_add] at member
      have late := (List.mem_append.mp member).resolve_left fun front => unkind (each choice front)
      have enough : count ≤ choices.length := by
        by_contra fewer
        rw [List.drop_eq_nil_of_le (by omega), List.take_nil] at late
        exact absurd late List.not_mem_nil
      rw [bind_of_ok (first.ends choices enough each)]
      exact second.refuses _ ⟨choice, late, unkind⟩
  starves choices fewer each := by
    by_cases enough : count ≤ choices.length
    · rw [bind_of_ok (first.ends choices enough fun choice member =>
        each choice (List.mem_of_mem_take member))]
      exact second.starves _ (by rw [List.length_drop]; omega) fun choice member =>
        each choice (List.mem_of_mem_drop member)
    · exact bind_of_error (first.starves choices (by omega) each)

/-- A computation that goes on with one more choice needs more choices than its first part. -/
theorem Takes.lt_of_bind (first : Takes kind refused starved count result taking)
    (waits : following result [] = .error starved)
    (whole : Takes kind refused starved more last (taking >>= following)) {choice : Choice}
    (of : kind choice) : count < more := by
  by_contra fewer
  have each : ∀ other ∈ List.replicate more choice, kind other := fun other member =>
    List.eq_of_mem_replicate member ▸ of
  have length : (List.replicate more choice).length = more := List.length_replicate
  have ended := whole.ends (List.replicate more choice) (by omega) fun other member =>
    each other (List.mem_of_mem_take member)
  have failed : (taking >>= following) (List.replicate more choice) = .error starved := by
    by_cases short : more < count
    · exact bind_of_error (first.starves _ (by omega) each)
    · have reached := first.ends (List.replicate more choice) (by omega) fun other member =>
        each other (List.mem_of_mem_take member)
      rw [List.drop_eq_nil_of_le (by omega)] at reached
      rw [bind_of_ok reached, waits]
  rw [failed] at ended
  cases ended

/-- All that such a computation can do. -/
theorem Takes.eq [DecidablePred kind] (takes : Takes kind refused starved count result taking)
    (choices : List Choice) : taking choices =
      if ∃ choice ∈ choices.take count, ¬ kind choice then .error refused
      else if choices.length < count then .error starved
      else .ok (result, choices.drop count) := by
  split
  · rename_i some
    exact takes.refuses choices some
  · rename_i none
    have each : ∀ choice ∈ choices.take count, kind choice := fun choice member =>
      Decidable.not_not.mp fun unkind => none ⟨choice, member, unkind⟩
    split
    · rename_i fewer
      rw [List.take_of_length_le (by omega)] at each
      exact takes.starves choices fewer each
    · rename_i enough
      exact takes.ends choices (by omega) each

end Choices
