/-
This file is a small library of positional numerals that are written with the most
significant digit first.

`value` reads a string of digits and `numeral` writes a number without leading zeros.
Reading ignores leading zeros and is injective on strings of one length; writing what was
read drops the leading zeros and nothing else.
-/

import Mathlib.Data.List.TakeWhile
import Mathlib.Data.Nat.Digits.Lemmas

namespace Radix

/-- The number a string of digits denotes. -/
def value (base : Nat) (digits : List Nat) : Nat :=
  Nat.ofDigits base digits.reverse

/-- The digits of a number, none for zero. -/
def numeral (base number : Nat) : List Nat :=
  (Nat.digits base number).reverse

variable {base : Nat} {digits first second : List Nat}

@[simp]
theorem value_nil (base : Nat) : value base [] = 0 := rfl

@[simp]
theorem value_singleton (base digit : Nat) : value base [digit] = digit :=
  Nat.ofDigits_singleton

theorem value_append (base : Nat) (first second : List Nat) :
    value base (first ++ second) = value base first * base ^ second.length + value base second := by
  rw [value, List.reverse_append, Nat.ofDigits_append, List.length_reverse, Nat.add_comm,
    Nat.mul_comm]
  rfl

theorem value_concat (base : Nat) (digits : List Nat) (digit : Nat) :
    value base (digits ++ [digit]) = value base digits * base + digit := by
  rw [value_append, value_singleton, List.length_singleton, Nat.pow_one]

theorem value_cons (base digit : Nat) (digits : List Nat) :
    value base (digit :: digits) = digit * base ^ digits.length + value base digits := by
  rw [← List.singleton_append, value_append, value_singleton]

theorem value_lt (one_lt : 1 < base) (below : ∀ digit ∈ digits, digit < base) :
    value base digits < base ^ digits.length := by
  rw [← List.length_reverse]
  exact Nat.ofDigits_lt_base_pow_length one_lt fun digit member =>
    below digit (List.mem_reverse.mp member)

theorem value_eq_zero (zeros : ∀ digit ∈ digits, digit = 0) : value base digits = 0 := by
  rw [List.eq_replicate_of_mem zeros, value, List.reverse_replicate, Nat.ofDigits_replicate_zero]

/-- Leading zeros do not count. -/
theorem value_dropWhile (base : Nat) (digits : List Nat) :
    value base (digits.dropWhile (· == 0)) = value base digits := by
  conv_rhs => rw [← List.takeWhile_append_dropWhile (p := (· == 0)) (l := digits), value_append]
  rw [value_eq_zero fun digit member => eq_of_beq (List.mem_takeWhile_imp (p := (· == 0)) member),
    Nat.zero_mul, Nat.zero_add]

theorem value_numeral (base number : Nat) : value base (numeral base number) = number := by
  rw [value, numeral, List.reverse_reverse, Nat.ofDigits_digits]

/-- A number is written without leading zeros. -/
theorem ne_zero_of_numeral {number digit : Nat} {rest : List Nat}
    (written : numeral base number = digit :: rest) : digit ≠ 0 := by
  have digits : Nat.digits base number = rest.reverse ++ [digit] := by
    rw [← List.reverse_cons, ← written, numeral, List.reverse_reverse]
  have positive : number ≠ 0 := by
    intro zero
    rw [zero, Nat.digits_zero] at digits
    exact List.append_ne_nil_of_right_ne_nil _ (List.cons_ne_nil _ _) digits.symm
  have last := Nat.getLast_digit_ne_zero base positive
  simp only [digits, List.getLast_concat] at last
  exact last

/-- Writing what was read drops the leading zeros. -/
theorem numeral_value (one_lt : 1 < base) (below : ∀ digit ∈ digits, digit < base) :
    numeral base (value base digits) = digits.dropWhile (· == 0) := by
  rw [← value_dropWhile, value, numeral, Nat.digits_ofDigits base one_lt, List.reverse_reverse]
  · intro digit member
    exact below digit ((List.dropWhile_sublist _).subset (List.mem_reverse.mp member))
  · intro some
    rw [List.getLast_reverse]
    have head := List.head_dropWhile_not (p := (· == 0)) (l := digits)
      (fun none => some (List.reverse_eq_nil_iff.mpr none))
    exact ne_of_beq_false head

/-- Strings of one length are told apart by their values. -/
theorem eq_of_value_eq (one_lt : 1 < base) (length : first.length = second.length)
    (belowFirst : ∀ digit ∈ first, digit < base) (belowSecond : ∀ digit ∈ second, digit < base)
    (same : value base first = value base second) : first = second := by
  refine List.reverse_injective (Nat.ofDigits_inj_of_len_eq one_lt ?_ ?_ ?_ same)
  · rw [List.length_reverse, List.length_reverse, length]
  · exact fun digit member => belowFirst digit (List.mem_reverse.mp member)
  · exact fun digit member => belowSecond digit (List.mem_reverse.mp member)

theorem numeral_lt (one_lt : 1 < base) {number : Nat} :
    ∀ digit ∈ numeral base number, digit < base :=
  fun _ member => Nat.digits_lt_base one_lt (List.mem_reverse.mp member)

theorem length_numeral_le_iff (one_lt : 1 < base) {number count : Nat} :
    (numeral base number).length ≤ count ↔ number < base ^ count := by
  rw [numeral, List.length_reverse, Nat.digits_length_le_iff one_lt]

end Radix
