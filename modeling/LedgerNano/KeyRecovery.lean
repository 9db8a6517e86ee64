/-
This file is about what the last byte of a signature is for.

A host knows a public key by the signatures it recovers the key from. The two numbers alone are
accepted for as many as four keys; the byte `sign` appends leaves one of them, that of the private
key (`signature_recovers_iff`). The group of the curve and the SDK are parameters: that the SDK
signs and makes keys in the group, as it documents, is what `Sdk.Follows` says. Where the
conversion drops a byte of a number, there is nothing to recover from; `Sdk.SignsInFull` leaves
these signatures out.
-/

import LedgerNano.Conversion
import LedgerNano.PublicKeys
import LedgerNano.Library.Ecdsa
import Mathlib.Algebra.Field.ZMod

namespace LedgerNano

/-! ### Keys of a group -/

/-- A group of points, and the uncompressed forms they have as public keys. -/
structure KeyGroup (Group : Type*) [AddCommGroup Group] where
  base : Group
  uncompressed : Group → Cells Byte 65
  p : Nat
  right : Nat → Nat
  prime : p.Prime
  odd : p ≠ 2
  point : ∀ member, member ≠ 0 → IsPoint p right (uncompressed member)
  inj : ∀ first second, first ≠ 0 → second ≠ 0 → uncompressed first = uncompressed second →
    first = second
  few : ∀ member, bytesValue ((uncompressed member).read 1 32) < 2 * secp256k1Order

/-- The coordinates of the points are those of the public keys. -/
def KeyGroup.curve {Group : Type*} [AddCommGroup Group] (keys : KeyGroup Group) :
    Ecdsa.Curve Group where
  base := keys.base
  x member := bytesValue ((keys.uncompressed member).read 1 32)
  odd member := decide (byteAt (keys.uncompressed member).contents 64 % 2 = 1)
  told first second some some' sameX sameParity := by
    refine keys.inj first second some some' (compressPublicKey_inj keys.prime keys.odd
      (keys.point first some) (keys.point second some') ?_)
    have parity : byteAt (keys.uncompressed first).contents 64 % 2 =
        byteAt (keys.uncompressed second).contents 64 % 2 := by
      have both := decide_eq_decide.mp sameParity
      omega
    rw [compressPublicKey, compressPublicKey, (prefix_eq_iff _ _).mpr parity,
      bytesValue_injective (by rw [Cells.length_read _ _ _ (by decide),
        Cells.length_read _ _ _ (by decide)]) sameX]

/-! ### The recovery id -/

/-- The recovery id of the `info` flags of the SDK. -/
def eccInfo (info : Nat) : Ecdsa.RecoveryId where
  odd := decide (info &&& eccInfoParityOdd ≠ 0)
  high := decide (info &&& eccInfoXGTn ≠ 0)

/-- The recovery id of the last byte of a signature. -/
def recoveryIdOf (byte : Nat) : Ecdsa.RecoveryId where
  odd := decide (byte % 2 = 1)
  high := decide (2 ≤ byte)

/-- The last byte keeps both flags. -/
theorem recoveryIdOf_recoveryId (info : Nat) : recoveryIdOf (recoveryId info) = eccInfo info := by
  rw [recoveryId, eccInfo]
  by_cases odd : info &&& eccInfoParityOdd ≠ 0
  · by_cases high : info &&& eccInfoXGTn ≠ 0
    · rw [if_pos odd, if_pos high, decide_eq_true odd, decide_eq_true high]
      rfl
    · rw [if_pos odd, if_neg high, decide_eq_true odd, decide_eq_false high]
      rfl
  · by_cases high : info &&& eccInfoXGTn ≠ 0
    · rw [if_neg odd, if_pos high, decide_eq_false odd, decide_eq_true high]
      rfl
    · rw [if_neg odd, if_neg high, decide_eq_false odd, decide_eq_false high]
      rfl

/-- Four bytes have the four recovery ids. -/
theorem exists_recoveryIdOf (id : Ecdsa.RecoveryId) : ∃ byte < 4, recoveryIdOf byte = id := by
  obtain ⟨odd, high⟩ := id
  cases odd <;> cases high
  · exact ⟨0, by decide, rfl⟩
  · exact ⟨2, by decide, rfl⟩
  · exact ⟨1, by decide, rfl⟩
  · exact ⟨3, by decide, rfl⟩

/-! ### What a host recovers -/

section Recovering

variable (Scalar : Type*) {Group : Type*} [Field Scalar] [AddCommGroup Group]
  [Module Scalar Group]

/-- The SDK makes a public key of a private one, and signs with it, in the group: a signature is in
DER, and its `info` flags are those of the nonce point. -/
structure Sdk.Follows (sdk : Sdk) (keys : KeyGroup Group) : Prop where
  generates : ∀ privateKey publicKey, sdk.generatePair privateKey = .ok publicKey →
    (bytesValue privateKey.contents : Scalar) • keys.base ≠ 0 ∧
      publicKey = keys.uncompressed ((bytesValue privateKey.contents : Scalar) • keys.base)
  signs : ∀ privateKey hash tlv info, sdk.ecdsaSign privateKey hash = .ok (tlv, info) →
    ∃ r s, tlv = derSignature r s ∧ (0 < r ∧ r < secp256k1Order) ∧ (0 < s ∧ s < secp256k1Order) ∧
      keys.curve.Signs secp256k1Order (bytesValue hash : Scalar)
        (bytesValue privateKey.contents) r s (eccInfo info)

/-- The public key is recovered from a signature of the hash. -/
def KeyGroup.Recovers (keys : KeyGroup Group) (hash : Bytes)
    (signature publicKey : Cells Byte 65) : Prop :=
  ∃ member, member ≠ 0 ∧ publicKey = keys.uncompressed member ∧
    keys.curve.Recovers secp256k1Order (bytesValue hash : Scalar)
      (bytesValue (signature.read 0 32)) (bytesValue (signature.read 32 32))
      (recoveryIdOf (byteAt signature.contents 64)) member

/-- The first 64 bytes of a signature of the hash are accepted for the public key. -/
def KeyGroup.Accepts (keys : KeyGroup Group) (hash : Bytes)
    (signature publicKey : Cells Byte 65) : Prop :=
  ∃ member, member ≠ 0 ∧ publicKey = keys.uncompressed member ∧
    keys.curve.Verifies secp256k1Order (bytesValue hash : Scalar)
      (bytesValue (signature.read 0 32)) (bytesValue (signature.read 32 32)) member

end Recovering

/-- Both numbers of the SDK's signature have 32 bytes in DER, by the length bytes of the
signature. -/
def Sdk.SignsInFull (sdk : Sdk) (privateKey : Cells Byte 32) (hash : Bytes) : Prop :=
  ∀ tlv info, sdk.ecdsaSign privateKey hash = .ok (tlv, info) →
    byteAt tlv 3 = 32 ∧ byteAt tlv 37 = 32

theorem bytesValue_bytes32 (number : Nat) : bytesValue (bytes32 number) = number := by
  have digits : (magnitude number).map UInt8.toNat = Radix.numeral 256 number := by
    rw [magnitude, List.map_map]
    refine (List.map_congr_left fun digit member => ?_).trans (List.map_id _)
    exact UInt8.toNat_ofNat_of_lt' (Radix.numeral_lt (by decide) digit member)
  have zeros : Radix.value 256
      ((List.replicate (32 - (magnitude number).length) (0 : Byte)).map UInt8.toNat) = 0 := by
    refine Radix.value_eq_zero fun digit member => ?_
    rw [List.map_replicate] at member
    exact List.eq_of_mem_replicate member
  rw [bytesValue, bytes32, List.map_append, Radix.value_append, zeros, digits,
    Radix.value_numeral, Nat.zero_mul, Nat.zero_add]

/-- The length bytes of a signature in DER. -/
theorem byteAt_derSignature {r s : Nat} (shortR : (derContent r).length < 256)
    (shortS : (derContent s).length < 256) :
    byteAt (derSignature r s) 3 = (derContent r).length ∧
      byteAt (derSignature r s) (5 + (derContent r).length) = (derContent s).length := by
  have written : derSignature r s =
      ([0x30, UInt8.ofNat (derInteger r ++ derInteger s).length, 0x02,
        UInt8.ofNat (derContent r).length] ++ derContent r ++ [0x02]) ++
        UInt8.ofNat (derContent s).length :: derContent s := by
    simp only [derSignature, derInteger, List.cons_append, List.nil_append, List.append_assoc]
  have before : ([0x30, UInt8.ofNat (derInteger r ++ derInteger s).length, 0x02,
      UInt8.ofNat (derContent r).length] ++ derContent r ++ [0x02]).length =
        5 + (derContent r).length := by
    simp only [List.length_append, List.length_cons, List.length_nil]
    omega
  refine ⟨UInt8.toNat_ofNat_of_lt' shortR, ?_⟩
  rw [byteAt, written, List.getD_eq_getElem?_getD, List.getElem?_append_right (le_of_eq before),
    before, Nat.sub_self]
  exact UInt8.toNat_ofNat_of_lt' shortS

section Recovered

variable {Scalar Group : Type*} [Field Scalar] [AddCommGroup Group] [Module Scalar Group]
  {keys : KeyGroup Group} {sdk : Sdk} {privateKey : Cells Byte 32} {hash : Bytes}
  {signature publicKey : Cells Byte 65}

/-- A signature in full holds the numbers and the recovery id of an ECDSA signature with the private
key. -/
theorem Sdk.Follows.holds (follows : sdk.Follows Scalar keys)
    (signed : sign sdk privateKey hash = .ok signature)
    (full : sdk.SignsInFull privateKey hash) :
    bytesValue (signature.read 0 32) < secp256k1Order ∧
      keys.curve.Signs secp256k1Order (bytesValue hash : Scalar) (bytesValue privateKey.contents)
        (bytesValue (signature.read 0 32)) (bytesValue (signature.read 32 32))
        (recoveryIdOf (byteAt signature.contents 64)) := by
  cases delivered : sdk.ecdsaSign privateKey hash with
  | error code =>
    rw [sign, delivered] at signed
    cases signed
  | ok answer =>
    obtain ⟨tlv, info⟩ := answer
    obtain ⟨r, s, rfl, ⟨positiveR, belowR⟩, ⟨positiveS, belowS⟩, signs⟩ :=
      follows.signs _ _ _ _ delivered
    have shortR := (length_derContent positiveR belowR).2
    have shortS := (length_derContent positiveS belowS).2
    obtain ⟨sizeR, sizeS⟩ := byteAt_derSignature (lt_of_le_of_lt shortR (by decide))
      (lt_of_le_of_lt shortS (by decide))
    obtain ⟨fullR, fullS⟩ := full _ _ delivered
    rw [sizeR] at fullR
    rw [fullR] at sizeS
    rw [sizeS] at fullS
    obtain ⟨first, second, lengthFirst, lengthSecond, converted, exactR, exactS⟩ :=
      convertSignature_derSignature sdk positiveR belowR positiveS belowS
    obtain ⟨_, same, readR, readS, recovery⟩ :=
      sign_pieces delivered lengthFirst lengthSecond converted
    cases same.symm.trans signed
    rw [readR, readS, recovery, exactR.mpr (le_of_eq fullR.symm),
      exactS.mpr (le_of_eq fullS.symm), bytesValue_bytes32, bytesValue_bytes32,
      recoveryIdOf_recoveryId]
    exact ⟨belowR, signs⟩

/-- The last byte of a signature does not touch its numbers. -/
theorem read_write_last (signature : Cells Byte 65) (byte : Byte) :
    (signature.write 64 [byte]).read 0 32 = signature.read 0 32 ∧
      (signature.write 64 [byte]).read 32 32 = signature.read 32 32 ∧
        byteAt (signature.write 64 [byte]).contents 64 = byte.toNat := by
  have fits : 64 + [byte].length ≤ 65 := le_refl 65
  refine ⟨signature.read_write_before 64 [byte] 0 32 fits (by decide),
    signature.read_write_before 64 [byte] 32 32 fits (by decide), ?_⟩
  have front : (signature.contents.take 64).length = 64 := by
    rw [List.length_take, signature.length_contents]
    rfl
  rw [byteAt, signature.contents_write 64 [byte] fits, List.append_assoc,
    List.getD_eq_getElem?_getD, List.getElem?_append_right (le_of_eq front), front]
  rfl

/-- The public key of the private key is recovered from a signature in full, and no other. -/
theorem Sdk.Follows.recovers_iff (follows : sdk.Follows Scalar keys)
    (generated : sdk.generatePair privateKey = .ok publicKey)
    (signed : sign sdk privateKey hash = .ok signature)
    (full : sdk.SignsInFull privateKey hash) (candidate : Cells Byte 65) :
    keys.Recovers Scalar hash signature candidate ↔ candidate = publicKey := by
  obtain ⟨_, signs⟩ := follows.holds signed full
  obtain ⟨some, rfl⟩ := follows.generates _ _ generated
  constructor
  · rintro ⟨member, _, rfl, recovers⟩
    rw [(signs.recovers_iff member).mp recovers]
    rfl
  · rintro rfl
    exact ⟨_, some, rfl, (signs.recovers_iff _).mpr rfl⟩

/-- Without its last byte a signature is accepted for the keys it recovers with any last byte. -/
theorem Sdk.Follows.accepts_iff (follows : sdk.Follows Scalar keys)
    (signed : sign sdk privateKey hash = .ok signature)
    (full : sdk.SignsInFull privateKey hash) (candidate : Cells Byte 65) :
    keys.Accepts Scalar hash signature candidate ↔ ∃ byte < 4,
      keys.Recovers Scalar hash (signature.write 64 [UInt8.ofNat byte]) candidate := by
  obtain ⟨below, signs⟩ := follows.holds signed full
  have every : ∀ member, keys.curve.Verifies secp256k1Order (bytesValue hash : Scalar)
      (bytesValue (signature.read 0 32)) (bytesValue (signature.read 32 32)) member ↔
      ∃ id, keys.curve.Recovers secp256k1Order (bytesValue hash : Scalar)
        (bytesValue (signature.read 0 32)) (bytesValue (signature.read 32 32)) id member :=
    Ecdsa.Curve.verifies_iff_exists_recovers below signs.r_ne_zero keys.few
  constructor
  · rintro ⟨member, nonzero, rfl, verifies⟩
    obtain ⟨id, recovers⟩ := (every member).mp verifies
    obtain ⟨byte, few, rfl⟩ := exists_recoveryIdOf id
    obtain ⟨first, second, last⟩ := read_write_last signature (UInt8.ofNat byte)
    refine ⟨byte, few, member, nonzero, rfl, ?_⟩
    rw [first, second, last, UInt8.toNat_ofNat_of_lt' (lt_trans few (by decide))]
    exact recovers
  · rintro ⟨byte, _, member, nonzero, rfl, recovers⟩
    obtain ⟨first, second, _⟩ := read_write_last signature (UInt8.ofNat byte)
    rw [first, second] at recovers
    exact ⟨member, nonzero, rfl, (every member).mpr ⟨_, recovers⟩⟩

/-- The 64 bytes of the two numbers are accepted for every public key that one of four last bytes
recovers from them. With the byte that the device appends this is the public key of the private key
it signed with, and no other. -/
theorem signature_recovers_iff (follows : sdk.Follows Scalar keys)
    (generated : sdk.generatePair privateKey = .ok publicKey)
    (signed : sign sdk privateKey hash = .ok signature)
    (full : sdk.SignsInFull privateKey hash) (candidate : Cells Byte 65) :
    (keys.Recovers Scalar hash signature candidate ↔ candidate = publicKey) ∧
      (keys.Accepts Scalar hash signature candidate ↔ ∃ byte < 4,
        keys.Recovers Scalar hash (signature.write 64 [UInt8.ofNat byte]) candidate) :=
  ⟨follows.recovers_iff generated signed full candidate,
    follows.accepts_iff signed full candidate⟩

end Recovered

/-! ### A group of three points -/

/-- The forms of the two points other than zero: the second coordinates are the roots of 1 modulo
7. -/
def threeForm (member : ZMod 3) : Cells Byte 65 :=
  padded 65 ([4, 4] ++ List.replicate 62 0 ++ [if member = 1 then 1 else 6])

theorem three_cases : ∀ member : ZMod 3, member ≠ 0 → member = 1 ∨ member = 2 := by
  decide

/-- A group of three points. -/
def threeGroup : KeyGroup (ZMod 3) where
  base := 1
  uncompressed := threeForm
  p := 7
  right _ := 1
  prime := by decide
  odd := by decide
  point member some := by
    rcases three_cases member some with rfl | rfl
    · exact ⟨by decide +kernel, by decide +kernel, by decide +kernel⟩
    · exact ⟨by decide +kernel, by decide +kernel, by decide +kernel⟩
  inj first second some some' same := by
    have told : threeForm 1 ≠ threeForm 2 := fun same =>
      absurd (congrArg (fun form => byteAt form.contents 64) same) (by decide +kernel)
    rcases three_cases first some with rfl | rfl
    · rcases three_cases second some' with rfl | rfl
      · rfl
      · exact absurd same told
    · rcases three_cases second some' with rfl | rfl
      · exact absurd same.symm told
      · rfl
  few member := by
    revert member
    decide +kernel

/-- An SDK that signs in the group with the base point as nonce point. -/
def Sdk.three : Sdk :=
  { Sdk.plain with
    generatePair := fun privateKey =>
      if (bytesValue privateKey.contents : ZMod 3) = 0 then .error 1
      else .ok (threeForm (bytesValue privateKey.contents))
    ecdsaSign := fun privateKey hash => .ok (derSignature (2 ^ 250)
      (2 ^ 250 + (bytesValue hash + bytesValue privateKey.contents + 2) % 3), 1) }

theorem three_generates {privateKey : Cells Byte 32}
    (some : (bytesValue privateKey.contents : ZMod 3) ≠ 0) :
    Sdk.three.generatePair privateKey = .ok (threeForm (bytesValue privateKey.contents)) := by
  show (if (bytesValue privateKey.contents : ZMod 3) = 0 then Except.error 1
    else Except.ok (threeForm (bytesValue privateKey.contents))) = _
  rw [if_neg some]

theorem three_follows : Sdk.three.Follows (ZMod 3) threeGroup where
  generates privateKey publicKey generated := by
    show _ • (1 : ZMod 3) ≠ 0 ∧ publicKey = threeForm (_ • (1 : ZMod 3))
    rw [smul_eq_mul, mul_one]
    by_cases zero : (bytesValue privateKey.contents : ZMod 3) = 0
    · cases (if_pos zero).symm.trans generated
    · exact ⟨zero, Except.ok.inj (generated.symm.trans (three_generates zero))⟩
  signs privateKey hash tlv info signed := by
    cases signed
    have small : (bytesValue hash + bytesValue privateKey.contents + 2) % 3 < 3 :=
      Nat.mod_lt _ (by decide)
    have large : 2 ^ 250 + 3 < secp256k1Order := by decide
    have one : ((2 ^ 250 : Nat) : ZMod 3) = 1 := by decide +kernel
    refine ⟨_, _, rfl, ⟨by decide, by decide⟩, ⟨by omega, by omega⟩, ⟨1, ⟨?_, ?_, ?_⟩, ?_⟩, ?_⟩
    · exact (by decide : (1 : ZMod 3) • (1 : ZMod 3) ≠ 0)
    · exact (by decide +kernel : bytesValue ((threeForm 1).read 1 32) = 2 ^ 250)
    · exact (by decide +kernel : decide (byteAt (threeForm 1).contents 64 % 2 = 1) = true)
    · rw [Nat.cast_add, ZMod.natCast_mod, one]
      push_cast
      have three : (3 : ZMod 3) = 0 := by decide
      calc (1 + (bytesValue hash + bytesValue privateKey.contents + 2)) * 1
          = (bytesValue hash : ZMod 3) + 1 * bytesValue privateKey.contents + 3 := by ring
        _ = _ := by rw [three, add_zero]
    · rw [one]
      decide

theorem three_signsInFull (privateKey : Cells Byte 32) (hash : Bytes) :
    Sdk.three.SignsInFull privateKey hash := by
  intro tlv info delivered
  cases delivered
  have full : ∀ s < 3, byteAt (derSignature (2 ^ 250) (2 ^ 250 + s)) 3 = 32 ∧
    byteAt (derSignature (2 ^ 250) (2 ^ 250 + s)) 37 = 32 := by decide +kernel
  exact full _ (Nat.mod_lt _ (by decide))

/-- The private key 256 ^ 31 of the group of three points. -/
theorem signature_recovers_iff_sample : ∃ publicKey signature,
    Sdk.three.generatePair (padded 32 [1]) = .ok publicKey ∧
      sign Sdk.three (padded 32 [1]) [] = .ok signature ∧ ∀ candidate,
        (threeGroup.Recovers (ZMod 3) [] signature candidate ↔ candidate = publicKey) ∧
          (threeGroup.Accepts (ZMod 3) [] signature candidate ↔ ∃ byte < 4,
            threeGroup.Recovers (ZMod 3) [] (signature.write 64 [UInt8.ofNat byte]) candidate) := by
  have generated := @three_generates (padded 32 [1]) (by decide +kernel)
  obtain ⟨signature, signed⟩ : ∃ signature, sign Sdk.three (padded 32 [1]) [] = .ok signature :=
    ⟨_, rfl⟩
  exact ⟨_, signature, generated, signed, signature_recovers_iff three_follows generated signed
    (three_signsInFull _ _)⟩

end LedgerNano
