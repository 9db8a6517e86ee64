/-
This file is a small library about framing: cutting a stream of items into records whose
sizes are known one at a time, from a state that each record advances.

`consume` takes as many whole records as a list holds. Its two laws are that nothing is
lost (`consume_flatten`) and that a stream may be handed over in pieces, with what one
piece leaves put in front of the next (`consume_append`).
-/

import Mathlib.Data.List.TakeDrop
import Mathlib.Tactic.Ring

namespace Framing

variable {State α : Type}

/-- How a stream is framed: the size of the next record, `0` when there is none, and the
state after it. -/
structure Format (State α : Type) where
  size : State → Nat
  next : State → List α → State

/-- The records taken from a list, the state after them, and the items left. -/
structure Consumed (State α : Type) where
  records : List (List α)
  state : State
  rest : List α

namespace Format

variable (format : Format State α)

/-- A list holds the whole of the next record. -/
def Holds (state : State) (items : List α) : Prop :=
  0 < format.size state ∧ format.size state ≤ items.length

instance (state : State) (items : List α) : Decidable (format.Holds state items) :=
  inferInstanceAs (Decidable (_ ∧ _))

/-- Take whole records as long as there are any. -/
def consume (state : State) (items : List α) : Consumed State α :=
  if format.Holds state items then
    let later := consume (format.next state (items.take (format.size state)))
      (items.drop (format.size state))
    { later with records := items.take (format.size state) :: later.records }
  else
    { records := [], state, rest := items }
termination_by items.length
decreasing_by
  rename_i holds
  obtain ⟨positive, fits⟩ := holds
  rw [List.length_drop]
  omega

/-- Whole records, each of the size that is due. -/
def Frames (state : State) : List (List α) → Prop
  | [] => True
  | record :: later => 0 < format.size state ∧ record.length = format.size state ∧
    Frames (format.next state record) later

theorem consume_stop {state : State} {items : List α} (stop : ¬ format.Holds state items) :
    format.consume state items = { records := [], state, rest := items } := by
  rw [consume, if_neg stop]

/-- A record at the front of the list is taken first. -/
theorem consume_record {state : State} {record : List α} (size : record.length = format.size state)
    (positive : 0 < format.size state) (items : List α) :
    format.consume state (record ++ items) =
      { format.consume (format.next state record) items with
        records := record :: (format.consume (format.next state record) items).records } := by
  have holds : format.Holds state (record ++ items) := by
    refine ⟨positive, ?_⟩
    rw [List.length_append]
    omega
  rw [consume, if_pos holds, ← size, List.take_left, List.drop_left]

/-- Records at the front of the list are taken first. -/
theorem consume_frames {state : State} {records : List (List α)}
    (frames : format.Frames state records) (items : List α) :
    format.consume state (records.flatten ++ items) =
      { format.consume (records.foldl format.next state) items with
        records :=
          records ++ (format.consume (records.foldl format.next state) items).records } := by
  induction records generalizing state with
  | nil => rfl
  | cons record later inductionHypothesis =>
    obtain ⟨positive, size, framed⟩ := frames
    rw [List.flatten_cons, List.append_assoc, format.consume_record size positive,
      inductionHypothesis framed]
    rfl

/-- Records may be framed one part after the other. -/
theorem frames_append {state : State} {first second : List (List α)} :
    format.Frames state (first ++ second) ↔
      format.Frames state first ∧ format.Frames (first.foldl format.next state) second := by
  induction first generalizing state with
  | nil => exact (and_iff_right trivial).symm
  | cons record later inductionHypothesis =>
    simp only [List.cons_append, Frames, inductionHypothesis, List.foldl_cons, and_assoc]

/-- Where a list holds a record, the record and the items after it. -/
theorem split_of_holds {state : State} {items : List α} (holds : format.Holds state items) :
    ∃ record later, items = record ++ later ∧ record.length = format.size state := by
  refine ⟨items.take (format.size state), items.drop (format.size state),
    (List.take_append_drop _ _).symm, ?_⟩
  rw [List.length_take, Nat.min_eq_left holds.2]

/-- Nothing is lost: the records and the rest are the list. -/
theorem consume_flatten (state : State) (items : List α) :
    (format.consume state items).records.flatten ++ (format.consume state items).rest = items := by
  induction state, items using consume.induct format with
  | case1 state items holds inductionHypothesis =>
    rw [consume, if_pos holds]
    simp only [List.flatten_cons, List.append_assoc]
    rw [inductionHypothesis, List.take_append_drop]
  | case2 state items stop =>
    rw [format.consume_stop stop]
    rfl

/-- A relation of the state to the items taken so far, kept by every record, holds at the end. -/
theorem consume_rule {motive : State → List α → Prop} {state : State} {items : List α}
    (start : motive state [])
    (step : ∀ current taken record, motive current taken → 0 < format.size current →
      record.length = format.size current → taken ++ record <+: items →
      motive (format.next current record) (taken ++ record)) :
    motive (format.consume state items).state (format.consume state items).records.flatten := by
  suffices general : ∀ taken, motive state taken →
      (∀ current earlier record, motive current earlier → 0 < format.size current →
        record.length = format.size current → earlier ++ record <+: taken ++ items →
        motive (format.next current record) (earlier ++ record)) →
      motive (format.consume state items).state
        (taken ++ (format.consume state items).records.flatten) by
    exact general [] start step
  clear start step
  induction state, items using consume.induct format with
  | case1 state items holds inductionHypothesis =>
    intro taken before step
    obtain ⟨record, later, same, size⟩ := format.split_of_holds holds
    subst same
    rw [← size, List.take_left, List.drop_left] at inductionHypothesis
    rw [format.consume_record size holds.1]
    simp only [List.flatten_cons]
    rw [← List.append_assoc] at step ⊢
    refine inductionHypothesis (taken ++ record) ?_ step
    exact step state taken record before holds.1 size (List.prefix_append _ _)
  | case2 state items stop =>
    intro taken before _
    rw [format.consume_stop stop]
    simp only [List.flatten_nil, List.append_nil]
    exact before

/-- What is left holds no further record. -/
theorem consume_exhausts (state : State) (items : List α) :
    ¬ format.Holds (format.consume state items).state (format.consume state items).rest := by
  induction state, items using consume.induct format with
  | case1 state items holds inductionHypothesis =>
    rw [consume, if_pos holds]
    exact inductionHypothesis
  | case2 state items stop =>
    rw [format.consume_stop stop]
    exact stop

/-- A stream may be handed over in two pieces. -/
theorem consume_append (state : State) (first second : List α) :
    format.consume state (first ++ second) =
      { format.consume (format.consume state first).state
          ((format.consume state first).rest ++ second) with
        records := (format.consume state first).records ++
          (format.consume (format.consume state first).state
            ((format.consume state first).rest ++ second)).records } := by
  induction state, first using consume.induct format with
  | case1 state items holds inductionHypothesis =>
    obtain ⟨record, later, same, size⟩ := format.split_of_holds holds
    subst same
    rw [← size, List.take_left, List.drop_left] at inductionHypothesis
    rw [List.append_assoc, format.consume_record size holds.1, format.consume_record size holds.1,
      inductionHypothesis]
    rfl
  | case2 state items stop =>
    rw [format.consume_stop stop]
    rfl

end Format

end Framing
