/-
This file is a small library about a place that moves to and fro between two ends, one
step at a time, and turns where it meets one of them.

The turn is a test for equality, so it works only for a place between the ends that does not
leave by one of them: `Inside` is kept by every move (`Inside.move`), and what is inside turns
before it has crossed the whole way (`Inside.exists_turn`). Its moves are a cycle, in which it
comes to every place it can be at (`Inside.reaches`).
-/

import Mathlib.Data.Int.ModEq
import Mathlib.Logic.Function.Iterate
import Mathlib.Tactic.Ring

namespace Bounce

/-- Where it is, and the step it takes next. -/
structure Position where
  place : Int
  way : Int
  deriving DecidableEq

/-- One step, turning at an end. -/
def move (low high : Int) (position : Position) : Position where
  place := position.place + position.way
  way :=
    if position.place + position.way = low ∨ position.place + position.way = high then
      -position.way
    else
      position.way

/-- Between the ends, and at an end on the way back. -/
def Inside (low high : Int) (position : Position) : Prop :=
  position.way = 1 ∧ low ≤ position.place ∧ position.place < high ∨
    position.way = -1 ∧ low < position.place ∧ position.place ≤ high

instance (low high : Int) (position : Position) : Decidable (Inside low high position) :=
  inferInstanceAs (Decidable (_ ∨ _))

section Inside

variable {low high : Int} {position : Position}

theorem Inside.between (inside : Inside low high position) :
    low ≤ position.place ∧ position.place ≤ high := by
  rcases inside with ⟨_, above, below⟩ | ⟨_, above, below⟩
  · exact ⟨above, below.le⟩
  · exact ⟨above.le, below⟩

/-- Away from the ends a step goes on. -/
theorem move_between (notLow : position.place + position.way ≠ low)
    (notHigh : position.place + position.way ≠ high) :
    move low high position = ⟨position.place + position.way, position.way⟩ := by
  rw [move, if_neg (not_or.mpr ⟨notLow, notHigh⟩)]

/-- At an end it turns. -/
theorem move_end (atEnd : position.place + position.way = low ∨
    position.place + position.way = high) :
    move low high position = ⟨position.place + position.way, -position.way⟩ := by
  rw [move, if_pos atEnd]

/-- The way stays a single step. -/
theorem move_way (way : position.way = 1 ∨ position.way = -1) :
    (move low high position).way = 1 ∨ (move low high position).way = -1 := by
  unfold move
  simp only
  split
  · omega
  · exact way

/-- A step stays inside. -/
theorem Inside.move (inside : Inside low high position) :
    Inside low high (move low high position) := by
  by_cases atEnd : position.place + position.way = low ∨ position.place + position.way = high
  · rw [move_end atEnd]
    rcases inside with ⟨way, above, below⟩ | ⟨way, above, below⟩
    · rw [way] at atEnd ⊢
      exact Or.inr ⟨rfl, show low < position.place + 1 by omega,
        show position.place + 1 ≤ high by omega⟩
    · rw [way] at atEnd ⊢
      exact Or.inl ⟨rfl, show low ≤ position.place + -1 by omega,
        show position.place + -1 < high by omega⟩
  · obtain ⟨notLow, notHigh⟩ := not_or.mp atEnd
    rw [move_between notLow notHigh]
    rcases inside with ⟨way, above, below⟩ | ⟨way, above, below⟩
    · rw [way] at notLow notHigh ⊢
      exact Or.inl ⟨rfl, show low ≤ position.place + 1 by omega,
        show position.place + 1 < high by omega⟩
    · rw [way] at notLow notHigh ⊢
      exact Or.inr ⟨rfl, show low < position.place + -1 by omega,
        show position.place + -1 ≤ high by omega⟩

/-- Inside is what is between the ends and still is after the next step. -/
theorem inside_iff (way : position.way = 1 ∨ position.way = -1) :
    Inside low high position ↔ (low ≤ position.place ∧ position.place ≤ high) ∧
      low ≤ (move low high position).place ∧ (move low high position).place ≤ high := by
  constructor
  · intro inside
    exact ⟨inside.between, inside.move.between⟩
  · rintro ⟨⟨above, below⟩, aboveNext, belowNext⟩
    have next : (move low high position).place = position.place + position.way := rfl
    rcases way with forward | back
    · exact Or.inl ⟨forward, above, by omega⟩
    · exact Or.inr ⟨back, by omega, below⟩

/-- As long as no end is met it goes straight on. -/
theorem moves_straight {count : Nat}
    (free : ∀ steps : Nat, 0 < steps → steps ≤ count →
      position.place + steps * position.way ≠ low ∧ position.place + steps * position.way ≠ high) :
    (Bounce.move low high)^[count] position =
      ⟨position.place + count * position.way, position.way⟩ := by
  induction count with
  | zero =>
    rw [Function.iterate_zero_apply, Nat.cast_zero, Int.zero_mul, Int.add_zero]
  | succ count inductionHypothesis =>
    have last := free (count + 1) (Nat.succ_pos count) le_rfl
    have next : position.place + count * position.way + position.way =
        position.place + (count + 1 : Nat) * position.way := by
      push_cast
      ring
    rw [Function.iterate_succ_apply', inductionHypothesis fun steps positive le =>
      free steps positive (Nat.le_succ_of_le le), move_between]
    · rw [next]
    · rw [next]
      exact last.1
    · rw [next]
      exact last.2

/-- What is inside turns back before it has made more steps than lie between the ends. -/
theorem Inside.exists_turn (inside : Inside low high position) :
    ∃ count : Nat, (count : Int) ≤ high - low ∧
      ((Bounce.move low high)^[count] position).way = -position.way := by
  rcases inside with ⟨way, above, below⟩ | ⟨way, above, below⟩
  · obtain ⟨count, distance⟩ := Int.eq_ofNat_of_zero_le
      (show 0 ≤ high - position.place - 1 by omega)
    refine ⟨count + 1, by omega, ?_⟩
    rw [Function.iterate_succ_apply', moves_straight, move_end]
    · rw [way]
      exact Or.inr (show position.place + count * 1 + 1 = high by omega)
    · intro steps positive le
      rw [way]
      omega
  · obtain ⟨count, distance⟩ := Int.eq_ofNat_of_zero_le
      (show 0 ≤ position.place - low - 1 by omega)
    refine ⟨count + 1, by omega, ?_⟩
    rw [Function.iterate_succ_apply', moves_straight, move_end]
    · rw [way]
      exact Or.inl (show position.place + count * -1 + -1 = low by omega)
    · intro steps positive le
      rw [way]
      omega

end Inside

/-! ### The cycle -/

/-- How many steps ago it was at the low end: it goes up for as many steps as lie between the ends,
and down for as many. -/
def phase (low high : Int) (position : Position) : Int :=
  if position.way = 1 then position.place - low else 2 * high - low - position.place

section Cycle

variable {low high : Int} {position target : Position}

theorem Inside.phase_bounds (inside : Inside low high position) :
    0 ≤ phase low high position ∧ phase low high position < 2 * (high - low) := by
  rcases inside with ⟨way, above, below⟩ | ⟨way, above, below⟩
  · rw [phase, if_pos way]
    omega
  · rw [phase, if_neg (by omega)]
    omega

/-- A step is one step further in the cycle. -/
theorem Inside.phase_move (inside : Inside low high position) :
    phase low high (Bounce.move low high position) =
      (phase low high position + 1) % (2 * (high - low)) := by
  obtain ⟨least, most⟩ := inside.phase_bounds
  have next := inside.move.phase_bounds
  rcases inside with ⟨way, above, below⟩ | ⟨way, above, below⟩
  · have same : phase low high position = position.place - low := if_pos way
    rw [same, Int.emod_eq_of_lt (by omega) (by omega)]
    by_cases turns : position.place + position.way = high
    · rw [move_end (Or.inr turns), phase, if_neg (show ¬ -position.way = 1 by omega)]
      show 2 * high - low - (position.place + position.way) = _
      omega
    · rw [move_between (by omega) turns, phase, if_pos way]
      show position.place + position.way - low = _
      omega
  · have same : phase low high position = 2 * high - low - position.place := if_neg (by omega)
    rw [same]
    by_cases turns : position.place + position.way = low
    · have round : 2 * high - low - position.place + 1 = 2 * (high - low) := by omega
      rw [round, Int.emod_self, move_end (Or.inl turns), phase,
        if_pos (show -position.way = 1 by omega)]
      show position.place + position.way - low = 0
      omega
    · rw [Int.emod_eq_of_lt (by omega) (by omega), move_between turns (by omega), phase,
        if_neg (show ¬ position.way = 1 by omega)]
      show 2 * high - low - (position.place + position.way) = _
      omega

/-- What is inside is where the cycle says. -/
theorem Inside.eq_of_phase (inside : Inside low high position) (other : Inside low high target)
    (same : phase low high position = phase low high target) : position = target := by
  obtain ⟨place, way⟩ := position
  obtain ⟨place', way'⟩ := target
  unfold phase at same
  rcases inside with ⟨way, above, below⟩ | ⟨way, above, below⟩
  · rcases other with ⟨way', above', below'⟩ | ⟨way', above', below'⟩
    · rw [if_pos way, if_pos way'] at same
      simp only at way way' same
      rw [way, way', show place = place' by omega]
    · rw [if_pos way, if_neg (by omega)] at same
      simp only at above below above' below' same
      omega
  · rcases other with ⟨way', above', below'⟩ | ⟨way', above', below'⟩
    · rw [if_neg (by omega), if_pos way'] at same
      simp only at above below above' below' same
      omega
    · rw [if_neg (by omega), if_neg (by omega)] at same
      simp only at way way' same
      rw [way, way', show place = place' by omega]

theorem Inside.iterate (inside : Inside low high position) (count : Nat) :
    Inside low high ((Bounce.move low high)^[count] position) := by
  induction count with
  | zero => exact inside
  | succ count inductionHypothesis =>
    rw [Function.iterate_succ_apply']
    exact inductionHypothesis.move

theorem Inside.phase_iterate (inside : Inside low high position) (count : Nat) :
    phase low high ((Bounce.move low high)^[count] position) =
      (phase low high position + count) % (2 * (high - low)) := by
  induction count with
  | zero =>
    rw [Function.iterate_zero_apply, Nat.cast_zero, Int.add_zero,
      Int.emod_eq_of_lt inside.phase_bounds.1 inside.phase_bounds.2]
  | succ count inductionHypothesis =>
    rw [Function.iterate_succ_apply', (inside.iterate count).phase_move, inductionHypothesis,
      Int.emod_add_emod, Int.add_assoc, Nat.cast_succ]

/-- From wherever it is, it comes everywhere inside before the cycle is over. -/
theorem Inside.reaches (inside : Inside low high position) (other : Inside low high target) :
    ∃ count : Nat, (count : Int) < 2 * (high - low) ∧
      (Bounce.move low high)^[count] position = target := by
  obtain ⟨least, most⟩ := inside.phase_bounds
  obtain ⟨least', most'⟩ := other.phase_bounds
  have period : 0 < 2 * (high - low) := by omega
  obtain ⟨count, steps⟩ : ∃ count : Nat,
      (phase low high target - phase low high position) % (2 * (high - low)) = count :=
    Int.eq_ofNat_of_zero_le (Int.emod_nonneg _ period.ne')
  refine ⟨count, ?_, (inside.iterate count).eq_of_phase other ?_⟩
  · rw [← steps]
    exact Int.emod_lt_of_pos _ period
  · rw [inside.phase_iterate, ← steps, Int.add_emod_emod, add_sub_cancel,
      Int.emod_eq_of_lt least' most']

end Cycle

end Bounce
