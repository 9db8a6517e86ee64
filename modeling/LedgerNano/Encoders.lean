/-
This file compares the two address encoders of `skycoin_crypto.c`: `generate_address`, which
makes the string `GET_ADDRESS` returns, and `address_to_base58`, which makes the one that is
shown for approval.

Both fill the first 25 bytes of the buffer that receives the string and then convert it in
place (`Record.place`). Whatever the buffers held, the strings are those of the embedding, and
they are equal exactly when the records are (`encoders_agree_iff`).
-/

import LedgerNano.Encoding
import LedgerNano.Moves

namespace LedgerNano

/-! ### The encoders in place -/

/-- `address_to_base58`, on the buffer that receives the string. -/
def addressToBase58InPlace (sdk : Sdk) (address : Cells Byte 21) (result : Cells Byte 36) :
    Except Misuse (Cells Byte 36) :=
  let result := result.write 0 (address.read 1 20)
  let result := result.write 20 (address.read 0 1)
  let checksum := sdk.sha256 (result.read 0 21)
  let result := result.write 21 (checksum.read 0 4)
  Place.bytes <$> encodeBase58InPlace 25 ⟨result, []⟩

/-- `ADDRESS_VERSION`. -/
def addressVersion : Byte := 0

/-- `to_address`, on the buffer that receives the string. -/
def toAddressInPlace (sdk : Sdk) (publicKeyCompressed : Bytes) (result : Cells Byte 36) :
    Except Misuse (Cells Byte 36) :=
  let addressHashResult0 := sdk.sha256 publicKeyCompressed
  let addressHashResult1 := sdk.sha256 addressHashResult0.contents
  let addressRipmdHash := sdk.ripemd160 addressHashResult1.contents
  let result := result.write 0 addressRipmdHash.contents
  let result := result.write 20 [addressVersion]
  let checksum := sdk.sha256 (result.read 0 21)
  let result := result.write 21 (checksum.read 0 4)
  Place.bytes <$> encodeBase58InPlace 25 ⟨result, []⟩

/-- `generate_address`, on the buffer that receives the string. -/
def generateAddressInPlace (sdk : Sdk) (publicKey : Cells Byte 65) (dst : Cells Byte 36) :
    Except Misuse (Cells Byte 36) :=
  toAddressInPlace sdk (compressPublicKey publicKey) dst

/-! ### What they leave in the buffer -/

section Record

variable (sdk : Sdk) (buffer : Cells Byte 36) {hash : Bytes} (version : Byte)

theorem length_addressRecord (length : hash.length = 20) :
    (addressRecord sdk hash version).length = 25 := by
  have checksum := (sdk.sha256 (hash ++ [version])).length_read 0 4 (by decide)
  rw [addressRecord, List.length_append, List.length_append, length, checksum]
  rfl

/-- The hash, the version and the checksum of both, written one after the other. -/
theorem fill_addressRecord (length : hash.length = 20) :
    let versioned := (buffer.write 0 hash).write 20 [version]
    versioned.write 21 ((sdk.sha256 (versioned.read 0 21)).read 0 4) =
      buffer.write 0 (addressRecord sdk hash version) := by
  have total := length_addressRecord sdk version length
  have both : (hash ++ [version]).length = 21 := by
    rw [List.length_append, length]
    rfl
  have first := buffer.write_write_append 0 hash [version] (by omega)
  rw [Nat.zero_add, length] at first
  have front := buffer.read_write_self 0 (hash ++ [version]) (by omega)
  have second := buffer.write_write_append 0 (hash ++ [version])
    ((sdk.sha256 (hash ++ [version])).read 0 4) (by rw [Nat.zero_add]; exact total ▸ by decide)
  rw [both] at front
  rw [Nat.zero_add, both] at second
  intro versioned
  have same : versioned = buffer.write 0 (hash ++ [version]) := first
  rw [same, front, second]
  rfl

/-- The conversion of a record in place leaves its string and a terminating zero. -/
theorem encode_addressRecord (length : hash.length = 20) :
    ∃ memory : Cells Byte 36,
      Place.bytes <$> encodeBase58InPlace 25 ⟨buffer.write 0 (addressRecord sdk hash version), []⟩ =
        .ok memory ∧
      textOf memory = encodeBase58 (addressRecord sdk hash version) := by
  have total := length_addressRecord sdk version length
  have record := buffer.read_write_self 0 (addressRecord sdk hash version) (by omega)
  rw [total] at record
  obtain ⟨after, converted, bytes⟩ :=
    encodeBase58InPlace_eq (buffer.write 0 (addressRecord sdk hash version))
  have short := length_encodeBase58_le (addressRecord sdk hash version) (le_of_eq total)
  rw [record] at bytes
  refine ⟨after.bytes, by rw [converted]; rfl, ?_⟩
  rw [bytes]
  exact textOf_storeText _ _ (by omega) (encodeBase58_ne_zero _)

end Record

section Encoders

variable (sdk : Sdk)

/-- The 21 bytes of an output record are the version and the hash. -/
theorem split_address (address : Cells Byte 21) :
    ∃ version hash, hash.length = 20 ∧ address.contents = version :: hash ∧
      address.read 0 1 = [version] ∧ address.read 1 20 = hash := by
  obtain ⟨contents, length⟩ := address
  match contents, length with
  | version :: hash, length =>
    have twenty : hash.length = 20 := Nat.succ.inj length
    exact ⟨version, hash, twenty, rfl, rfl, List.take_of_length_le (le_of_eq twenty)⟩

/-- The record of an output, from its 21 bytes. -/
theorem addressToBase58_cons {version : Byte} {hash : Bytes} (length : hash.length = 20) :
    addressToBase58 sdk (version :: hash) = encodeBase58 (addressRecord sdk hash version) := by
  have whole : hash.take 20 = hash := List.take_of_length_le (le_of_eq length)
  show encodeBase58 (addressRecord sdk (hash.take 20) version) = _
  rw [whole]

/-- `address_to_base58` leaves the string of the embedding, whatever the buffer held. -/
theorem addressToBase58InPlace_eq (address : Cells Byte 21) (result : Cells Byte 36) :
    ∃ memory, addressToBase58InPlace sdk address result = .ok memory ∧
      textOf memory = addressToBase58 sdk address.contents := by
  obtain ⟨version, hash, length, contents, front, back⟩ := split_address address
  unfold addressToBase58InPlace
  rw [contents, addressToBase58_cons sdk length, front, back]
  simp only
  rw [fill_addressRecord sdk result _ length]
  exact encode_addressRecord sdk result _ length

/-- `generate_address` leaves the string of the embedding, whatever the buffer held. -/
theorem generateAddressInPlace_eq (publicKey : Cells Byte 65) (dst : Cells Byte 36) :
    ∃ memory, generateAddressInPlace sdk publicKey dst = .ok memory ∧
      textOf memory = generateAddress sdk publicKey := by
  unfold generateAddressInPlace toAddressInPlace
  simp only
  rw [fill_addressRecord sdk dst _ (Cells.length_contents _)]
  exact encode_addressRecord sdk dst _ (Cells.length_contents _)

end Encoders

/-! ### When the strings are equal -/

/-- Records tell their hashes and versions. -/
theorem addressRecord_inj {sdk : Sdk} {first second : Bytes} {one other : Byte}
    (lengthFirst : first.length = 20) (lengthSecond : second.length = 20) :
    addressRecord sdk first one = addressRecord sdk second other ↔
      first = second ∧ one = other := by
  constructor
  · intro same
    have versioned : (first ++ [one]).length = (second ++ [other]).length := by
      rw [List.length_append, List.length_append, lengthFirst, lengthSecond]
      rfl
    have front := (List.append_inj same versioned).1
    obtain ⟨hash, version⟩ := List.append_inj front (lengthFirst.trans lengthSecond.symm)
    exact ⟨hash, List.singleton_inj.mp version⟩
  · rintro ⟨rfl, rfl⟩
    rfl

/-- Whatever their buffers held, both encoders leave a string there; the one `GET_ADDRESS` returns
for a key is the one shown for an output exactly when the output's record is the version 0 and
the hash of the compressed key. -/
theorem encoders_agree_iff (sdk : Sdk) (publicKey : Cells Byte 65) (address : Cells Byte 21)
    (dst result : Cells Byte 36) :
    ∃ stored shown, generateAddressInPlace sdk publicKey dst = .ok stored ∧
      addressToBase58InPlace sdk address result = .ok shown ∧
      textOf stored = generateAddress sdk publicKey ∧
      textOf shown = addressToBase58 sdk address.contents ∧
      (textOf stored = textOf shown ↔ address.contents = 0 :: (sdk.ripemd160 (sdk.sha256
        (sdk.sha256 (compressPublicKey publicKey)).contents).contents).contents) := by
  obtain ⟨stored, generated, key⟩ := generateAddressInPlace_eq sdk publicKey dst
  obtain ⟨shown, encoded, output⟩ := addressToBase58InPlace_eq sdk address result
  obtain ⟨version, hash, length, contents, _, _⟩ := split_address address
  refine ⟨stored, shown, generated, encoded, key, output, ?_⟩
  rw [key, output, contents, addressToBase58_cons sdk length, generateAddress, toAddress]
  set keyHash := sdk.ripemd160
    (sdk.sha256 (sdk.sha256 (compressPublicKey publicKey)).contents).contents
  have keyLength : keyHash.contents.length = 20 := keyHash.length_contents
  have sameLength : (addressRecord sdk keyHash.contents 0).length =
      (addressRecord sdk hash version).length := by
    rw [length_addressRecord sdk _ keyLength, length_addressRecord sdk _ length]
  have short := length_addressRecord_le sdk keyHash.contents 0 (le_of_eq keyLength)
  calc encodeBase58 (addressRecord sdk keyHash.contents 0) =
        encodeBase58 (addressRecord sdk hash version)
      ↔ keyHash.contents = hash ∧ 0 = version := by
        rw [encodeBase58_inj sameLength short, addressRecord_inj keyLength length]
    _ ↔ version :: hash = 0 :: keyHash.contents := by
        rw [List.cons.injEq, and_comm, eq_comm, @eq_comm _ keyHash.contents]

end LedgerNano
