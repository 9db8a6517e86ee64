/-
This file is a small library about ECDSA signatures, and about the public keys they leave open.

A signature `(r, s)` tells of its nonce point only `r`, the first coordinate modulo the order of the
group. The points with that `r` each give a public key (`verifies_iff_exists_recovers`), so a
signature comes with a recovery id: the parity of the second coordinate, and whether the first one
was reduced. With it the public key is the one of the signer, and no other (`Signs.recovers_iff`).
-/

import Mathlib.Algebra.Field.Basic
import Mathlib.Algebra.Module.Basic
import Mathlib.Algebra.GroupWithZero.Action.Basic

namespace Ecdsa

/-- A group of points with a base point. A point other than zero has two coordinates, of which the
second is known by its parity. -/
structure Curve (Group : Type*) [AddCommGroup Group] where
  base : Group
  x : Group → Nat
  odd : Group → Bool
  told : ∀ first second, first ≠ 0 → second ≠ 0 → x first = x second → odd first = odd second →
    first = second

/-- What a signature tells of its nonce point besides `r`: the parity of the second coordinate, and
whether the first one is not below the order. -/
structure RecoveryId where
  odd : Bool
  high : Bool
  deriving DecidableEq

section Signatures

variable {Scalar Group : Type*} [Field Scalar] [AddCommGroup Group] [Module Scalar Group]

namespace Curve

/-- The point `r` and the recovery id are those of. -/
structure Names (curve : Curve Group) (order r : Nat) (id : RecoveryId) (point : Group) :
    Prop where
  ne_zero : point ≠ 0
  x : curve.x point = r + if id.high then order else 0
  odd : curve.odd point = id.odd

/-- `(r, s)` is a signature of the digest with the key, and the recovery id that of its nonce
point. -/
structure Signs (curve : Curve Group) (order : Nat) (digest key : Scalar) (r s : Nat)
    (id : RecoveryId) : Prop where
  nonce : ∃ nonce : Scalar, curve.Names order r id (nonce • curve.base) ∧
    (s : Scalar) * nonce = digest + r * key
  r_ne_zero : (r : Scalar) ≠ 0

/-- The public key is the one a signature with a recovery id is of. -/
def Recovers (curve : Curve Group) (order : Nat) (digest : Scalar) (r s : Nat) (id : RecoveryId)
    (publicKey : Group) : Prop :=
  ∃ point, curve.Names order r id point ∧
    publicKey = (r : Scalar)⁻¹ • ((s : Scalar) • point - digest • curve.base)

/-- The signature without a recovery id is accepted for the public key. -/
def Verifies (curve : Curve Group) (order : Nat) (digest : Scalar) (r s : Nat)
    (publicKey : Group) : Prop :=
  ∃ point, point ≠ 0 ∧ curve.x point % order = r ∧
    (s : Scalar) • point = digest • curve.base + (r : Scalar) • publicKey

variable {curve : Curve Group} {order r s : Nat} {digest key : Scalar} {id : RecoveryId}

theorem Names.unique {first second : Group} (one : curve.Names order r id first)
    (other : curve.Names order r id second) : first = second :=
  curve.told first second one.ne_zero other.ne_zero (one.x.trans other.x.symm)
    (one.odd.trans other.odd.symm)

/-- A recovery id leaves one public key. -/
theorem Recovers.unique {first second : Group} (one : curve.Recovers order digest r s id first)
    (other : curve.Recovers order digest r s id second) : first = second := by
  obtain ⟨point, named, rfl⟩ := one
  obtain ⟨point', named', rfl⟩ := other
  rw [named.unique named']

/-- The public key of the signer is recovered, and no other. -/
theorem Signs.recovers_iff (signs : curve.Signs order digest key r s id) (publicKey : Group) :
    curve.Recovers order digest r s id publicKey ↔ publicKey = key • curve.base := by
  obtain ⟨nonce, named, equation⟩ := signs.nonce
  have own : curve.Recovers order digest r s id (key • curve.base) := by
    refine ⟨nonce • curve.base, named, ?_⟩
    rw [smul_smul, equation, ← sub_smul, add_sub_cancel_left, mul_smul,
      inv_smul_smul₀ signs.r_ne_zero]
  constructor
  · intro recovers
    exact recovers.unique own
  · rintro rfl
    exact own

/-- The recovery ids of a signature give the public keys it is accepted for. -/
theorem verifies_iff_exists_recovers (below : r < order) (nonzero : (r : Scalar) ≠ 0)
    (few : ∀ point, curve.x point < 2 * order) (publicKey : Group) :
    curve.Verifies order digest r s publicKey ↔
      ∃ id, curve.Recovers order digest r s id publicKey := by
  have solved : ∀ point, (s : Scalar) • point = digest • curve.base + (r : Scalar) • publicKey ↔
      publicKey = (r : Scalar)⁻¹ • ((s : Scalar) • point - digest • curve.base) := by
    intro point
    rw [eq_inv_smul_iff₀ nonzero, eq_sub_iff_add_eq', eq_comm]
  constructor
  · rintro ⟨point, some, reduced, equation⟩
    refine ⟨⟨curve.odd point, decide (order ≤ curve.x point)⟩, point, ⟨some, ?_, rfl⟩,
      (solved point).mp equation⟩
    have bound := few point
    by_cases high : order ≤ curve.x point
    · rw [Nat.mod_eq_sub_mod high, Nat.mod_eq_of_lt (by omega)] at reduced
      show curve.x point = r + if decide (order ≤ curve.x point) = true then order else 0
      rw [decide_eq_true high, if_pos rfl, ← reduced, Nat.sub_add_cancel high]
    · rw [Nat.mod_eq_of_lt (not_le.mp high)] at reduced
      show curve.x point = r + if decide (order ≤ curve.x point) = true then order else 0
      rw [decide_eq_false high, if_neg Bool.false_ne_true, Nat.add_zero]
      exact reduced
  · rintro ⟨id, point, named, equation⟩
    refine ⟨point, named.ne_zero, ?_, (solved point).mpr equation⟩
    rw [named.x]
    by_cases high : id.high = true
    · rw [if_pos high, Nat.add_mod_right, Nat.mod_eq_of_lt below]
    · rw [if_neg high, Nat.add_zero, Nat.mod_eq_of_lt below]

end Curve

end Signatures

end Ecdsa
