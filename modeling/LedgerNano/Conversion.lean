/-
This file is about the conversion of a signature from the form of the SDK.

The SDK writes the two numbers of a signature in DER, each in as many bytes as it needs.
The conversion copies the 32 bytes that end with the number. That is the number exactly
when it fills them (`copied_iff`); a shorter one brings its own length byte along. The
array the SDK writes to has room for two numbers of 32 bytes.
-/

import LedgerNano.Crypto
import LedgerNano.Library.Radix
import Mathlib.Tactic.Ring

namespace LedgerNano

/-! ### DER -/

/-- The order of the group of `secp256k1`, which bounds both numbers of a signature. -/
def secp256k1Order : Nat :=
  0xFFFFFFFFFFFFFFFFFFFFFFFFFFFFFFFEBAAEDCE6AF48A03BBFD25E8CD0364141

/-- The bytes of a number, the highest first. -/
def magnitude (number : Nat) : Bytes :=
  (Radix.numeral 256 number).map UInt8.ofNat

/-- The value of a DER integer: the bytes of a positive number, behind a zero byte if the top bit of
the first is set. -/
def derContent (number : Nat) : Bytes :=
  if 128 ≤ byteAt (magnitude number) 0 then 0 :: magnitude number else magnitude number

/-- A DER integer. -/
def derInteger (number : Nat) : Bytes :=
  0x02 :: UInt8.ofNat (derContent number).length :: derContent number

/-- The DER encoding of a signature. -/
def derSignature (r s : Nat) : Bytes :=
  0x30 :: UInt8.ofNat (derInteger r ++ derInteger s).length :: (derInteger r ++ derInteger s)

/-- A number in 32 bytes, the highest first. -/
def bytes32 (number : Nat) : Bytes :=
  List.replicate (32 - (magnitude number).length) 0 ++ magnitude number

/-- The bytes of the array `tle_sign_tx`. -/
def tleSignTxLen : Nat := 70

section Der

variable {number : Nat}

theorem length_magnitude_le_iff {count : Nat} :
    (magnitude number).length ≤ count ↔ number < 256 ^ count := by
  rw [magnitude, List.length_map, Radix.length_numeral_le_iff (by decide)]

/-- The top bit of the first byte is set where the number is at least half of what its bytes can
hold. -/
theorem top_bit_iff (positive : 0 < number) : 128 ≤ byteAt (magnitude number) 0 ↔
    128 * 256 ^ ((magnitude number).length - 1) ≤ number := by
  cases digits : Radix.numeral 256 number with
  | nil =>
    have zero := Radix.value_numeral 256 number
    rw [digits, Radix.value_nil] at zero
    omega
  | cons digit rest =>
    have below : ∀ other ∈ digit :: rest, other < 256 := by
      rw [← digits]
      exact Radix.numeral_lt (by decide)
    obtain ⟨first, later⟩ := List.forall_mem_cons.mp below
    have value : number = digit * 256 ^ rest.length + Radix.value 256 rest := by
      rw [← Radix.value_cons, ← digits, Radix.value_numeral]
    have behind := Radix.value_lt (by decide) later
    have byte : byteAt (magnitude number) 0 = digit := by
      rw [magnitude, digits]
      exact UInt8.toNat_ofNat_of_lt' first
    have length : (magnitude number).length - 1 = rest.length := by
      rw [magnitude, digits, List.length_map, List.length_cons, Nat.add_sub_cancel]
    rw [byte, length]
    constructor
    · intro large
      have scaled := Nat.mul_le_mul_right (256 ^ rest.length) large
      omega
    · intro large
      by_contra small
      have scaled := Nat.mul_le_mul_right (256 ^ rest.length) (Nat.succ_le_of_lt (not_le.mp small))
      rw [Nat.succ_mul] at scaled
      omega

theorem length_magnitude_pos (positive : 0 < number) : 0 < (magnitude number).length := by
  by_contra none
  have small := length_magnitude_le_iff.mp (not_lt.mp none)
  rw [Nat.pow_zero] at small
  omega

/-- How many bytes a DER integer needs. -/
theorem length_derContent_le_iff (positive : 0 < number) (count : Nat) :
    (derContent number).length ≤ count + 1 ↔ number < 128 * 256 ^ count := by
  have some := length_magnitude_pos positive
  have top := top_bit_iff positive
  rw [derContent]
  by_cases set : 128 ≤ byteAt (magnitude number) 0
  · rw [if_pos set, List.length_cons]
    have half := top.mp set
    constructor
    · intro short
      have bound := length_magnitude_le_iff.mp (Nat.le_of_succ_le_succ short)
      omega
    · intro small
      have fewer := lt_of_le_of_lt half small
      by_contra long
      have wider : count ≤ (magnitude number).length - 1 := by omega
      have grows := Nat.mul_le_mul_left 128 (Nat.pow_le_pow_right (by decide : 0 < 256) wider)
      omega
  · rw [if_neg set]
    have half := not_le.mp (set ∘ top.mpr)
    constructor
    · intro short
      have narrower : (magnitude number).length - 1 ≤ count := by omega
      have grows := Nat.mul_le_mul_left 128 (Nat.pow_le_pow_right (by decide : 0 < 256) narrower)
      omega
    · intro small
      rw [length_magnitude_le_iff, Nat.pow_succ]
      omega

/-- A number below the order needs at most 33 bytes, and at least one. -/
theorem length_derContent (positive : 0 < number) (below : number < secp256k1Order) :
    1 ≤ (derContent number).length ∧ (derContent number).length ≤ 33 := by
  constructor
  · have some := length_magnitude_pos positive
    rw [derContent]
    split
    · exact Nat.succ_pos _
    · exact some
  · rw [length_derContent_le_iff positive 32]
    exact below.trans (by decide)

theorem length_magnitude_le_content : (magnitude number).length ≤ (derContent number).length := by
  rw [derContent]
  split
  · exact Nat.le_succ _
  · exact le_refl _

/-- The last 32 bytes of a DER integer of 32 bytes or more are the number. -/
theorem drop_derContent (long : 32 ≤ (derContent number).length)
    (short : (derContent number).length ≤ 33) (wide : (magnitude number).length ≤ 32) :
    (derContent number).drop ((derContent number).length - 32) = bytes32 number := by
  rw [derContent] at long short ⊢
  by_cases set : 128 ≤ byteAt (magnitude number) 0
  · rw [if_pos set, List.length_cons] at long short ⊢
    rcases Nat.lt_or_ge (magnitude number).length 32 with fewer | full
    · have exact : (magnitude number).length = 31 := by omega
      rw [bytes32, exact]
      rfl
    · have exact : (magnitude number).length = 32 := by omega
      rw [bytes32, exact]
      rfl
  · rw [if_neg set] at long short ⊢
    have exact : (magnitude number).length = 32 := by omega
    rw [bytes32, exact]
    rfl

end Der

/-! ### The copies -/

section Copies

variable (sdk : Sdk)

theorem tlvBytes_inside (tlv : Bytes) {offset : Nat} (inside : offset + 32 ≤ tlv.length) :
    tlvBytes sdk tlv offset = (tlv.drop offset).take 32 := by
  refine List.ext_getElem? fun index => ?_
  rw [tlvBytes, List.getElem?_map, List.getElem?_take, List.getElem?_drop]
  by_cases within : index < 32
  · rw [List.getElem?_range within, if_pos within, Option.map_some, tlvByte,
      if_pos ⟨by omega, by omega⟩, List.getElem?_eq_getElem (by omega), List.getD_eq_getElem?_getD]
    have place : ((offset : Int) + (index : Int)).toNat = offset + index := by omega
    rw [place, List.getElem?_eq_getElem (by omega)]
    rfl
  · rw [if_neg within, List.getElem?_eq_none (by rw [List.length_range]; omega)]
    rfl

/-- The 32 bytes that end with a DER integer are its number exactly when the integer has 32 bytes or
more: the byte before a shorter one is its length, not a zero. -/
theorem copied_iff {number : Nat} (positive : 0 < number) (below : number < secp256k1Order)
    (before after : Bytes) :
    tlvBytes sdk (before ++ UInt8.ofNat (derContent number).length :: (derContent number ++ after))
        (before.length + 1 + (derContent number).length - 32) = bytes32 number ↔
      32 ≤ (derContent number).length := by
  obtain ⟨some, short⟩ := length_derContent positive below
  have wide : (magnitude number).length ≤ 32 :=
    length_magnitude_le_iff.mpr (below.trans (by decide))
  constructor
  · intro same
    by_contra few
    have fewer : (derContent number).length < 32 := not_le.mp few
    have index := congrArg (fun bytes : Bytes => bytes[31 - (derContent number).length]?) same
    have narrow : (magnitude number).length ≤ (derContent number).length :=
      length_magnitude_le_content
    simp only [tlvBytes, List.getElem?_map] at index
    rw [List.getElem?_range (by omega), Option.map_some, bytes32, List.getElem?_append_left
      (by rw [List.length_replicate]; omega), List.getElem?_replicate, if_pos (by omega),
      Option.some_inj, tlvByte] at index
    have place : (before.length + 1 + (derContent number).length - 32 : Int) +
        ((31 - (derContent number).length : Nat) : Int) = (before.length : Int) := by omega
    rw [place, if_pos ⟨by omega, by
        rw [List.length_append, List.length_cons]
        omega⟩, Int.toNat_natCast, List.getD_eq_getElem?_getD,
      List.getElem?_append_right (le_refl _),
      Nat.sub_self] at index
    have zero := congrArg UInt8.toNat index
    have length : (UInt8.ofNat (derContent number).length).toNat = (derContent number).length :=
      UInt8.toNat_ofNat_of_lt' (show _ < 256 by omega)
    have nothing : (UInt8.ofNat (derContent number).length).toNat = 0 := zero
    omega
  · intro long
    have place : (before.length + 1 + (derContent number).length - 32 : Int) =
        ((before.length + 1 + ((derContent number).length - 32) : Nat) : Int) := by omega
    rw [place, tlvBytes_inside sdk _ (by
      rw [List.length_append, List.length_cons, List.length_append]
      omega)]
    have skip : (before ++ UInt8.ofNat (derContent number).length ::
        (derContent number ++ after)).drop (before.length + 1 + ((derContent number).length - 32)) =
          bytes32 number ++ after := by
      rw [← List.drop_drop, ← List.drop_drop, List.drop_left, List.drop_succ_cons, List.drop_zero,
        List.drop_append_of_le_length (by omega), drop_derContent long short wide]
    rw [skip]
    exact List.take_left' (by
      rw [bytes32, List.length_append, List.length_replicate]
      omega)

end Copies

/-! ### The signature -/

/-- What `sign` is for: the encoding of `(r, s)` fits the array, and the signature is both numbers
in 32 bytes and the recovery id. -/
def SignsExactly (sdk : Sdk) (privateKey : Cells Byte 32) (hash : Bytes) (r s info : Nat) : Prop :=
  (derSignature r s).length ≤ tleSignTxLen ∧
    ∃ signature, sign sdk privateKey hash = .ok signature ∧ signature.read 0 32 = bytes32 r ∧
      signature.read 32 32 = bytes32 s ∧ byteAt signature.contents 64 = recoveryId info

section Signature

variable {sdk : Sdk} {r s : Nat}

theorem length_derSignature (r s : Nat) :
    (derSignature r s).length = 6 + (derContent r).length + (derContent s).length := by
  simp only [derSignature, derInteger, List.length_cons, List.length_append]
  omega

/-- The conversion copies the 32 bytes that end with `r` and those that end with `s`. -/
theorem convertSignature_derSignature (sdk : Sdk) (positiveR : 0 < r)
    (belowR : r < secp256k1Order) (positiveS : 0 < s) (belowS : s < secp256k1Order) :
    ∃ first second : Bytes, first.length = 32 ∧ second.length = 32 ∧
      convertSignatureFromTLVToRS sdk (derSignature r s) = first ++ second ∧
      (first = bytes32 r ↔ 32 ≤ (derContent r).length) ∧
      (second = bytes32 s ↔ 32 ≤ (derContent s).length) := by
  obtain ⟨someR, shortR⟩ := length_derContent positiveR belowR
  obtain ⟨someS, shortS⟩ := length_derContent positiveS belowS
  have total := length_derSignature r s
  -- The encoding, cut before the length byte of either number.
  have splitR : derSignature r s =
      [0x30, UInt8.ofNat (derInteger r ++ derInteger s).length, 0x02] ++
        UInt8.ofNat (derContent r).length :: (derContent r ++ derInteger s) := rfl
  have splitS : derSignature r s =
      ([0x30, UInt8.ofNat (derInteger r ++ derInteger s).length, 0x02,
        UInt8.ofNat (derContent r).length] ++ derContent r ++ [0x02]) ++
        UInt8.ofNat (derContent s).length :: (derContent s ++ []) := by
    simp only [derSignature, derInteger, List.cons_append, List.nil_append, List.append_assoc,
      List.append_nil]
  have sizeR : (tlvByte sdk (derSignature r s) 3).toNat = (derContent r).length := by
    rw [tlvByte, if_pos ⟨by decide, by omega⟩, splitR]
    exact UInt8.toNat_ofNat_of_lt' (show _ < 256 by omega)
  have beforeS : ([0x30, UInt8.ofNat (derInteger r ++ derInteger s).length, 0x02,
      UInt8.ofNat (derContent r).length] ++ derContent r ++ [0x02]).length =
        5 + (derContent r).length := by
    simp only [List.length_append, List.length_cons, List.length_nil]
    omega
  have sizeS : (tlvByte sdk (derSignature r s) (3 + ((derContent r).length : Int) + 2)).toNat =
      (derContent s).length := by
    have place : (3 + ((derContent r).length : Int) + 2).toNat = 5 + (derContent r).length := by
      omega
    rw [tlvByte, if_pos ⟨by omega, by omega⟩, place, splitS, List.getD_eq_getElem?_getD,
      List.getElem?_append_right (by rw [beforeS]), beforeS, Nat.sub_self]
    exact UInt8.toNat_ofNat_of_lt' (show _ < 256 by omega)
  have copiedR := copied_iff sdk positiveR belowR
    [0x30, UInt8.ofNat (derInteger r ++ derInteger s).length, 0x02] (derInteger s)
  have copiedS := copied_iff sdk positiveS belowS
    ([0x30, UInt8.ofNat (derInteger r ++ derInteger s).length, 0x02,
      UInt8.ofNat (derContent r).length] ++ derContent r ++ [0x02]) []
  rw [← splitR] at copiedR
  rw [← splitS, beforeS] at copiedS
  have placeR : (4 + (((derContent r).length : Int) - 32)) =
      (([0x30, UInt8.ofNat (derInteger r ++ derInteger s).length, 0x02] : Bytes).length : Int) + 1 +
        (derContent r).length - 32 := by
    simp only [List.length_cons, List.length_nil]
    omega
  have placeS : (4 + 32 + 2 + (((derContent r).length : Int) - 32) +
      (((derContent s).length : Int) - 32)) =
        ((5 + (derContent r).length : Nat) : Int) + 1 + (derContent s).length - 32 := by
    omega
  refine ⟨_, _, ?_, ?_, ?_, copiedR, copiedS⟩
  · rw [tlvBytes, List.length_map, List.length_range]
  · rw [tlvBytes, List.length_map, List.length_range]
  · simp only [convertSignatureFromTLVToRS]
    rw [sizeR, sizeS, placeR, placeS]

theorem recoveryId_lt (info : Nat) : recoveryId info < 256 := by
  rw [recoveryId]
  split <;> split <;> decide

/-- What `sign` writes, in three pieces. -/
theorem sign_pieces {privateKey : Cells Byte 32} {hash tlv first second : Bytes} {info : Nat}
    (delivers : sdk.ecdsaSign privateKey hash = .ok (tlv, info)) (lengthFirst : first.length = 32)
    (lengthSecond : second.length = 32)
    (converted : convertSignatureFromTLVToRS sdk tlv = first ++ second) :
    ∃ signature, sign sdk privateKey hash = .ok signature ∧ signature.read 0 32 = first ∧
      signature.read 32 32 = second ∧ byteAt signature.contents 64 = recoveryId info := by
  have both : (first ++ second).length = 64 := by
    rw [List.length_append, lengthFirst, lengthSecond]
  obtain ⟨signature, signed, contents⟩ : ∃ signature, sign sdk privateKey hash = .ok signature ∧
      signature.contents = first ++ second ++ [UInt8.ofNat (recoveryId info)] := by
    rw [sign, delivers, ← converted]
    exact ⟨_, rfl, rfl⟩
  refine ⟨signature, signed, ?_, ?_, ?_⟩
  · rw [Cells.read, List.drop_zero, contents, List.append_assoc]
    exact List.take_left' lengthFirst
  · rw [Cells.read, contents, List.append_assoc, List.drop_left' lengthFirst]
    exact List.take_left' lengthSecond
  · rw [byteAt, contents, List.getD_eq_getElem?_getD, List.getElem?_append_right (le_of_eq both),
      both]
    exact UInt8.toNat_ofNat_of_lt' (recoveryId_lt info)

/-- The signature is converted exactly when both numbers have 32 bytes in DER. -/
theorem signature_exact_iff {privateKey : Cells Byte 32} {hash : Bytes} {info : Nat}
    (positiveR : 0 < r) (belowR : r < secp256k1Order) (positiveS : 0 < s)
    (belowS : s < secp256k1Order)
    (delivers : sdk.ecdsaSign privateKey hash = .ok (derSignature r s, info)) :
    SignsExactly sdk privateKey hash r s info ↔
      (2 ^ 247 ≤ r ∧ r < 2 ^ 255) ∧ 2 ^ 247 ≤ s ∧ s < 2 ^ 255 := by
  obtain ⟨first, second, lengthFirst, lengthSecond, converted, exactR, exactS⟩ :=
    convertSignature_derSignature sdk positiveR belowR positiveS belowS
  have exactly : ∀ number, 0 < number →
      (2 ^ 247 ≤ number ∧ number < 2 ^ 255 ↔ (derContent number).length = 32) := by
    intro number positive
    have upper := length_derContent_le_iff positive 31
    have lower := length_derContent_le_iff positive 30
    rw [show 128 * 256 ^ 31 = 2 ^ 255 by decide] at upper
    rw [show 128 * 256 ^ 30 = 2 ^ 247 by decide] at lower
    omega
  rw [exactly r positiveR, exactly s positiveS]
  obtain ⟨signature, signed, readR, readS, recovery⟩ :=
    sign_pieces delivers lengthFirst lengthSecond converted
  have total := length_derSignature r s
  constructor
  · rintro ⟨fits, other, same, valueR, valueS, _⟩
    rw [← Except.ok.inj (signed.symm.trans same)] at valueR valueS
    have longR := exactR.mp (readR.symm.trans valueR)
    have longS := exactS.mp (readS.symm.trans valueS)
    rw [tleSignTxLen] at fits
    omega
  · rintro ⟨sizeR, sizeS⟩
    refine ⟨?_, signature, signed, readR.trans (exactR.mpr (le_of_eq sizeR.symm)),
      readS.trans (exactS.mpr (le_of_eq sizeS.symm)), recovery⟩
    rw [total, sizeR, sizeS, tleSignTxLen]

/-- An SDK that delivers one signature. -/
def Sdk.delivering (r s : Nat) : Sdk :=
  { Sdk.plain with ecdsaSign := fun _ _ => .ok (derSignature r s, 0) }

theorem signature_exact_iff_sample :
    SignsExactly (Sdk.delivering (2 ^ 250) (2 ^ 254)) (Cells.fill 0) [] (2 ^ 250) (2 ^ 254) 0 :=
  (signature_exact_iff (by decide) (by decide) (by decide) (by decide) rfl).mpr
    ⟨⟨by decide, by decide⟩, by decide, by decide⟩

theorem signature_can_be_wrong : ¬ ∀ (sdk : Sdk) (privateKey : Cells Byte 32) (hash : Bytes)
    (r s info : Nat), 0 < r → r < secp256k1Order → 0 < s → s < secp256k1Order →
      sdk.ecdsaSign privateKey hash = .ok (derSignature r s, info) →
        SignsExactly sdk privateKey hash r s info := by
  intro all
  obtain ⟨_, signature, signed, valueR, _⟩ := all (Sdk.delivering (2 ^ 246) (2 ^ 250))
    (Cells.fill 0)
    [] (2 ^ 246) (2 ^ 250) 0 (by decide) (by decide) (by decide) (by decide) rfl
  have wrong : ∀ result, sign (Sdk.delivering (2 ^ 246) (2 ^ 250)) (Cells.fill 0) [] = .ok result →
      result.read 0 32 ≠ bytes32 (2 ^ 246) := by
    intro result same
    cases same
    decide +kernel
  exact wrong signature signed valueR

end Signature

end LedgerNano
