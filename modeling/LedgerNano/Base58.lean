/-
This file embeds the address encoders of `skycoin_crypto.c`: the in-place base-58
conversion, and the two functions that build the 25 bytes it is applied to.

`encode_base_58` reads all of its input before it writes its result, so the
embedding takes the input bytes and returns the string without its terminating
zero. The bound that the callers rely on, that an encoded address fits its
36-byte buffer, is proved here.
-/

import LedgerNano.Context

namespace LedgerNano

/-! ### `encode_base_58` -/

/-- `BASE_58_ALPHABET`. -/
def base58Alphabet : Bytes :=
  [49, 50, 51, 52, 53, 54, 55, 56, 57,
    65, 66, 67, 68, 69, 70, 71, 72, 74, 75, 76, 77, 78, 80, 81, 82, 83, 84, 85, 86, 87, 88, 89, 90,
    97, 98, 99, 100, 101, 102, 103, 104, 105, 106, 107, 109, 110, 111, 112, 113, 114, 115, 116, 117,
    118, 119, 120, 121, 122]

/-- The letter of a base-58 digit. -/
def base58Letter (digit : Nat) : Byte :=
  base58Alphabet.getD digit 0

/-- The inner loop, which applies `b58 = b58 * 256 + carry` to the digits. The first argument
is `j + 1`, so that `0` stands for `j == -1`. -/
def addByte : Nat → Nat → Nat → Nat → Cells Nat 35 → Nat × Cells Nat 35
  | 0, _, i, _, b58 => (i, b58)
  | j + 1, carry, i, length, b58 =>
    if carry ≠ 0 ∨ i < length then
      let carry := carry + 256 * (b58.read j 1).headD 0
      addByte j (carry / 58) (i + 1) length (b58.write j [carry % 58])
    else
      (i, b58)

/-- The outer loop: the digits of all bytes, and how many of the digits are in use. -/
def addBytes (size : Nat) : Bytes → Nat → Cells Nat 35 → Nat × Cells Nat 35
  | [], length, b58 => (length, b58)
  | byte :: rest, length, b58 =>
    let added := addByte size byte.toNat 0 length b58
    addBytes size rest added.1 added.2

/-- `encode_base_58`, up to the terminating zero it appends. -/
def encodeBase58 (input : Bytes) : Bytes :=
  let zeroes := (input.takeWhile (· == 0)).length
  let rest := input.drop zeroes
  let size := rest.length * 138 / 100 + 1
  let found := addBytes size rest 0 (Cells.fill 0)
  let digits := ((found.2.read 0 size).drop (size - found.1)).dropWhile (· == 0)
  List.replicate zeroes 49 ++ digits.map base58Letter

/-- The string of a 25-byte address record has at most 35 letters, so that with its
terminating zero it fits the 36 bytes of its buffer. -/
theorem length_encodeBase58_le (input : Bytes) (length : input.length ≤ 25) :
    (encodeBase58 input).length ≤ 35 := by
  have digits : ∀ (found : Cells Nat 35) (size skipped : Nat),
      (((found.read 0 size).drop skipped).dropWhile (· == 0)).length ≤ size := by
    intro found size skipped
    have stripped :=
      (List.dropWhile_sublist (· == 0) (l := (found.read 0 size).drop skipped)).length_le
    have slice := found.length_read_le 0 size
    rw [List.length_drop] at stripped
    omega
  have zeroes : (input.takeWhile (· == 0)).length ≤ input.length :=
    (List.takeWhile_sublist _).length_le
  simp only [encodeBase58, List.length_append, List.length_replicate, List.length_map,
    List.length_drop]
  generalize (input.takeWhile (· == 0)).length = zeroes' at zeroes
  generalize input.drop zeroes' = rest
  refine le_trans (Nat.add_le_add_left (digits _ _ _) _) ?_
  omega

/-! ### The letters of an encoded string -/

/-- The conversion keeps digits below the base. -/
theorem addByte_digits (j carry i length : Nat) (b58 : Cells Nat 35)
    (below : ∀ digit ∈ b58.contents, digit < 58) :
    ∀ digit ∈ (addByte j carry i length b58).2.contents, digit < 58 := by
  induction j generalizing carry i b58 with
  | zero => exact below
  | succ j inductionHypothesis =>
    rw [addByte]
    split
    · refine inductionHypothesis _ _ _ fun digit member => ?_
      rcases b58.mem_of_mem_write j _ member with written | earlier
      · rw [List.mem_singleton.mp written]
        exact Nat.mod_lt _ (by decide)
      · exact below digit earlier
    · exact below

theorem addBytes_digits (size : Nat) (bytes : Bytes) (length : Nat) (b58 : Cells Nat 35)
    (below : ∀ digit ∈ b58.contents, digit < 58) :
    ∀ digit ∈ (addBytes size bytes length b58).2.contents, digit < 58 := by
  induction bytes generalizing length b58 with
  | nil => exact below
  | cons byte rest inductionHypothesis =>
    exact inductionHypothesis _ _ (addByte_digits size byte.toNat 0 length b58 below)

theorem base58Letter_ne_zero (digit : Nat) (below : digit < 58) : base58Letter digit ≠ 0 := by
  have letters : ∀ d : Fin 58, base58Letter d ≠ 0 := by decide
  exact letters ⟨digit, below⟩

/-- An encoded string holds no zero byte, so that its length is that of the C string. -/
theorem encodeBase58_ne_zero (input : Bytes) : ∀ letter ∈ encodeBase58 input, letter ≠ 0 := by
  intro letter member
  have start : ∀ digit ∈ (Cells.fill 0 : Cells Nat 35).contents, digit < 58 := by
    intro digit zero
    rw [List.eq_of_mem_replicate zero]
    decide
  rcases List.mem_append.mp member with front | back
  · rw [List.eq_of_mem_replicate front]
    decide
  · obtain ⟨digit, found, rfl⟩ := List.mem_map.mp back
    have stripped := List.mem_of_mem_drop ((List.dropWhile_sublist (· == 0)).subset found)
    exact base58Letter_ne_zero digit
      (addBytes_digits _ _ 0 _ start digit (Cells.mem_of_mem_read _ _ _ stripped))

/-! ### The two encoders -/

/-- The 25 bytes that are encoded: the 20-byte hash, the version, and the first four bytes
of the checksum of both. -/
def addressRecord (sdk : Sdk) (hash : Bytes) (version : Byte) : Bytes :=
  let versioned := hash ++ [version]
  versioned ++ (sdk.sha256 versioned).read 0 4

/-- `address_to_base58`, for the 21 bytes of an output address. -/
def addressToBase58 (sdk : Sdk) (address : Bytes) : Bytes :=
  encodeBase58 (addressRecord sdk ((address.drop 1).take 20) (address.getD 0 0))

/-- `to_address`. -/
def toAddress (sdk : Sdk) (publicKeyCompressed : Bytes) : Bytes :=
  let once := (sdk.sha256 publicKeyCompressed).contents
  let twice := (sdk.sha256 once).contents
  encodeBase58 (addressRecord sdk (sdk.ripemd160 twice).contents 0)

theorem length_addressRecord_le (sdk : Sdk) (hash : Bytes) (version : Byte)
    (length : hash.length ≤ 20) : (addressRecord sdk hash version).length ≤ 25 := by
  have checksum := (sdk.sha256 (hash ++ [version])).length_read_le 0 4
  simp only [addressRecord, List.length_append, List.length_singleton]
  omega

theorem length_addressToBase58_le (sdk : Sdk) (address : Bytes) :
    (addressToBase58 sdk address).length ≤ 35 := by
  refine length_encodeBase58_le _ (length_addressRecord_le sdk _ _ ?_)
  rw [List.length_take]
  exact Nat.min_le_left _ _

theorem length_toAddress_le (sdk : Sdk) (publicKeyCompressed : Bytes) :
    (toAddress sdk publicKeyCompressed).length ≤ 35 := by
  refine length_encodeBase58_le _ (length_addressRecord_le sdk _ _ ?_)
  rw [(sdk.ripemd160 _).length_contents]

end LedgerNano
