/-
This file is a small library about square roots modulo an odd prime, as numbers below it.

A number has two roots at most, and they add up to the prime. So one of them is even and the other
is odd, and a root is told by its parity (`eq_of_parity`). This is how a point of a curve
`y² = f(x)` is known by `x` and one bit of `y` (`Point.eq_of_parity`).
-/

import Mathlib.Data.Int.ModEq
import Mathlib.Data.Nat.Prime.Int
import Mathlib.Tactic.Ring

namespace Roots

/-- Roots of one number are equal or opposite. -/
theorem eq_or_add_eq {p first second : Nat} (prime : p.Prime) (smallFirst : first < p)
    (smallSecond : second < p) (same : first ^ 2 ≡ second ^ 2 [MOD p]) :
    first = second ∨ first + second = p ∨ first + second = 0 := by
  have divides : (p : Int) ∣ ((second : Int) - first) * ((second : Int) + first) := by
    have squares := (Nat.modEq_iff_dvd.mp same)
    have factors : ((second : Int) - first) * ((second : Int) + first) =
        ((second ^ 2 : Nat) : Int) - ((first ^ 2 : Nat) : Int) := by
      push_cast
      ring
    rw [factors]
    exact squares
  rcases (Nat.prime_iff_prime_int.mp prime).dvd_or_dvd divides with difference | sum
  · have zero := Int.eq_zero_of_abs_lt_dvd difference (abs_lt.mpr ⟨by omega, by omega⟩)
    exact Or.inl (by omega)
  · obtain ⟨q, sum⟩ : p ∣ second + first := Int.natCast_dvd_natCast.mp (by push_cast; exact sum)
    have few : q < 2 := Nat.lt_of_mul_lt_mul_left (a := p) (by omega)
    rcases Nat.le_one_iff_eq_zero_or_eq_one.mp (Nat.le_of_lt_succ few) with rfl | rfl
    · exact Or.inr (Or.inr (by omega))
    · exact Or.inr (Or.inl (by omega))

/-- Roots of one number with the same parity are equal. -/
theorem eq_of_parity {p first second : Nat} (prime : p.Prime) (odd : p ≠ 2)
    (smallFirst : first < p) (smallSecond : second < p)
    (same : first ^ 2 ≡ second ^ 2 [MOD p]) (parity : first % 2 = second % 2) :
    first = second := by
  have half := prime.eq_two_or_odd.resolve_left odd
  rcases eq_or_add_eq prime smallFirst smallSecond same with equal | opposite | zero
  · exact equal
  · omega
  · omega

/-- Coordinates of a point of the curve `y² = right x` modulo `p`. -/
structure Point (p : Nat) (right : Nat → Nat) (x y : Nat) : Prop where
  small : y < p
  root : y ^ 2 ≡ right x [MOD p]

/-- A point is known by its first coordinate and the parity of the second. -/
theorem Point.eq_of_parity {p x y z : Nat} {right : Nat → Nat} (prime : p.Prime) (odd : p ≠ 2)
    (first : Point p right x y) (second : Point p right x z) (parity : y % 2 = z % 2) : y = z :=
  Roots.eq_of_parity prime odd first.small second.small (first.root.trans second.root.symm) parity

end Roots
