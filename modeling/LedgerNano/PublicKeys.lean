/-
This file is about the way from a public key to its address: whether an address belongs to one key
only.

`compress_public_key` keeps the first coordinate and the parity of the last byte. For points of a
curve `y² = f(x)` modulo an odd prime that is all (`compressPublicKey_inj`). So the strings
`GET_ADDRESS` returns for two keys are equal only if the keys are, or if one of the three hashes
behind each other collides on what it was given (`address_binds_key_iff`).
-/

import LedgerNano.Binding
import LedgerNano.Encoders
import LedgerNano.Library.Roots

namespace LedgerNano

/-! ### Compressed keys -/

/-- The key is the uncompressed form of a point: the byte 4 and two coordinates of 32 bytes. -/
structure IsPoint (p : Nat) (right : Nat → Nat) (publicKey : Cells Byte 65) : Prop where
  form : publicKey.read 0 1 = [4]
  point : Roots.Point p right (bytesValue (publicKey.read 1 32)) (bytesValue (publicKey.read 33 32))

section Compressed

variable {p : Nat} {right : Nat → Nat} {first second : Cells Byte 65}

theorem bytesValue_append_mod (bytes : Bytes) (last : Byte) :
    bytesValue (bytes ++ [last]) % 2 = last.toNat % 2 := by
  rw [bytesValue, List.map_append, List.map_singleton, Radix.value_concat]
  omega

/-- The parity of the second coordinate is that of the last byte. -/
theorem parity_eq (publicKey : Cells Byte 65) :
    bytesValue (publicKey.read 33 32) % 2 = byteAt publicKey.contents 64 % 2 := by
  have last : publicKey.read 64 1 = [publicKey.contents.getD 64 0] := by
    rw [publicKey.read_succ 64 0 (by decide), Cells.read_zero]
    congr 1
    have inside : 64 < publicKey.contents.length := by
      rw [publicKey.length_contents]
      decide
    rw [List.getD_eq_getElem?_getD, List.getElem?_eq_getElem inside]
    rfl
  rw [publicKey.read_add 33 31 1, last, bytesValue_append_mod]
  rfl

/-- The first byte of the compressed key tells the parity. -/
theorem prefix_eq_iff (one other : Nat) :
    ((if one &&& 1 ≠ 0 then 3 else 2 : Byte) = if other &&& 1 ≠ 0 then 3 else 2) ↔
      one % 2 = other % 2 := by
  rw [Nat.and_one_is_mod, Nat.and_one_is_mod]
  rcases Nat.mod_two_eq_zero_or_one one with even | odd
  · rcases Nat.mod_two_eq_zero_or_one other with even' | odd'
    · rw [even, even']
      exact iff_of_true rfl rfl
    · rw [even, odd']
      exact iff_of_false (by decide) (by decide)
  · rcases Nat.mod_two_eq_zero_or_one other with even' | odd'
    · rw [odd, even']
      exact iff_of_false (by decide) (by decide)
    · rw [odd, odd']
      exact iff_of_true rfl rfl

theorem bytesValue_injective {one other : Bytes} (length : one.length = other.length)
    (same : bytesValue one = bytesValue other) : one = other := by
  have digits := Radix.eq_of_value_eq (by decide : 1 < 256)
    (by rw [List.length_map, List.length_map, length]) toNat_lt_of_mem_map toNat_lt_of_mem_map same
  exact List.map_injective_iff.mpr (fun _ _ => UInt8.toNat_inj.mp) digits

/-- Points of a curve with the same compressed form are equal. -/
theorem compressPublicKey_inj (prime : p.Prime) (odd : p ≠ 2) (pointFirst : IsPoint p right first)
    (pointSecond : IsPoint p right second)
    (same : compressPublicKey first = compressPublicKey second) : first = second := by
  obtain ⟨parity, x⟩ := List.cons.inj same
  rw [prefix_eq_iff, ← parity_eq, ← parity_eq] at parity
  have point := pointSecond.point
  rw [← x] at point
  have y := bytesValue_injective
    (by rw [first.length_read _ _ (by decide), second.length_read _ _ (by decide)])
    (pointFirst.point.eq_of_parity prime odd point parity)
  apply Cells.ext
  rw [← first.read_all, ← second.read_all, first.read_add 0 1 64, second.read_add 0 1 64,
    pointFirst.form, pointSecond.form, first.read_add 1 32 32, second.read_add 1 32 32, x, y]

end Compressed

/-! ### Addresses of keys -/

/-- RIPEMD-160 has the same hash for two strings. -/
def Sdk.CollidesRipemd (sdk : Sdk) (first second : Bytes) : Prop :=
  first ≠ second ∧ sdk.ripemd160 first = sdk.ripemd160 second

/-- One of the three hashes of an address collides on what it is given for two compressed keys. -/
inductive AddressCollides (sdk : Sdk) (first second : Bytes) : Prop
  | key (collides : sdk.Collides first second)
  | hash (collides : sdk.Collides (sdk.sha256 first).contents (sdk.sha256 second).contents)
  | twice (collides : sdk.CollidesRipemd (sdk.sha256 (sdk.sha256 first).contents).contents
      (sdk.sha256 (sdk.sha256 second).contents).contents)

/-- The hash an address is made of. -/
def addressHash (sdk : Sdk) (publicKeyCompressed : Bytes) : Cells Byte 20 :=
  sdk.ripemd160 (sdk.sha256 (sdk.sha256 publicKeyCompressed).contents).contents

theorem addressHash_eq_iff (sdk : Sdk) (first second : Bytes) :
    addressHash sdk first = addressHash sdk second ↔
      first = second ∨ AddressCollides sdk first second := by
  constructor
  · intro same
    by_cases twice : (sdk.sha256 (sdk.sha256 first).contents).contents =
        (sdk.sha256 (sdk.sha256 second).contents).contents
    · rcases eq_or_collides (Cells.ext twice) with hash | collides
      · exact (eq_or_collides (Cells.ext hash)).imp_right AddressCollides.key
      · exact Or.inr (AddressCollides.hash collides)
    · exact Or.inr (AddressCollides.twice ⟨twice, same⟩)
  · rintro (rfl | collides)
    · rfl
    · cases collides with
      | key collides => rw [addressHash, addressHash, collides.2]
      | hash collides => rw [addressHash, addressHash, collides.2]
      | twice collides => exact collides.2

theorem generateAddress_eq_iff (sdk : Sdk) (first second : Cells Byte 65) :
    generateAddress sdk first = generateAddress sdk second ↔
      addressHash sdk (compressPublicKey first) = addressHash sdk (compressPublicKey second) := by
  have lengthFirst := (addressHash sdk (compressPublicKey first)).length_contents
  have lengthSecond := (addressHash sdk (compressPublicKey second)).length_contents
  have records : (addressRecord sdk (addressHash sdk (compressPublicKey first)).contents 0).length =
      (addressRecord sdk (addressHash sdk (compressPublicKey second)).contents 0).length := by
    rw [length_addressRecord sdk _ lengthFirst, length_addressRecord sdk _ lengthSecond]
  have short := length_addressRecord_le sdk (addressHash sdk (compressPublicKey first)).contents 0
    (le_of_eq lengthFirst)
  calc generateAddress sdk first = generateAddress sdk second
      ↔ addressRecord sdk (addressHash sdk (compressPublicKey first)).contents 0 =
          addressRecord sdk (addressHash sdk (compressPublicKey second)).contents 0 :=
        encodeBase58_inj records short
    _ ↔ (addressHash sdk (compressPublicKey first)).contents =
          (addressHash sdk (compressPublicKey second)).contents := by
        rw [addressRecord_inj lengthFirst lengthSecond, and_iff_left rfl]
    _ ↔ _ := ⟨fun same => Cells.ext same, fun same => congrArg Cells.contents same⟩

/-- The strings `GET_ADDRESS` returns for two public keys, points of a curve `y² = f(x)` modulo an
odd prime, are equal exactly if the keys are, or if one of the hashes behind each other collides on
what it is given for the two. -/
theorem address_binds_key_iff (sdk : Sdk) {p : Nat} (prime : p.Prime) (odd : p ≠ 2)
    (right : Nat → Nat) (first second : Cells Byte 65) (pointFirst : IsPoint p right first)
    (pointSecond : IsPoint p right second) :
    generateAddress sdk first = generateAddress sdk second ↔
      first = second ∨
        AddressCollides sdk (compressPublicKey first) (compressPublicKey second) := by
  rw [generateAddress_eq_iff, addressHash_eq_iff]
  refine or_congr_left ⟨compressPublicKey_inj prime odd pointFirst pointSecond, fun same => ?_⟩
  rw [same]

/-- The points with first coordinate 1 of `y² = x³ + 7` modulo 7 have the second coordinate 1
or 6. -/
def samplePoint (y : Byte) : Cells Byte 65 :=
  padded 65 ([4] ++ List.replicate 31 0 ++ [1] ++ List.replicate 31 0 ++ [y])

theorem address_binds_key_iff_sample :
    generateAddress Sdk.plain (samplePoint 1) = generateAddress Sdk.plain (samplePoint 6) ↔
      samplePoint 1 = samplePoint 6 ∨
        AddressCollides Sdk.plain (compressPublicKey (samplePoint 1))
          (compressPublicKey (samplePoint 6)) :=
  address_binds_key_iff Sdk.plain (by decide : Nat.Prime 7) (by decide) (fun x => x ^ 3 + 7) _ _
    ⟨by decide, ⟨by decide, by decide⟩⟩ ⟨by decide, ⟨by decide, by decide⟩⟩

end LedgerNano
