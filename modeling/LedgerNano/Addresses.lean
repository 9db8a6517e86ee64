/-
This file is about the addresses the host's script sends.

The script decodes the base-58 string of an address as a number, prints that in
hexadecimal, and cuts the digits of the version and of the hash out of the text at fixed
places. Leading zeros are not printed, so the places are right exactly when the first
digit of the hash is not a zero (`output_addr_iff`).
-/

import LedgerNano.Encoding

namespace LedgerNano

/-! ### `Output` of `generating_txn.py` -/

/-- `b58.index(c)`, which raises an exception for a letter that is not in the alphabet. -/
def base58Index (c : Byte) : Option Nat :=
  if c ∈ base58Alphabet then some (letterIndex c) else none

/-- `base58decode`. -/
def base58decode (s : Bytes) : Option Nat :=
  s.foldlM (fun result c => (base58Index c).map fun index => result * 58 + index) 0

/-- A hexadecimal digit. -/
def hexLetter (digit : Nat) : Byte :=
  UInt8.ofNat (if digit < 10 then 48 + digit else 87 + digit)

/-- `hex(number)[2:]`. A number above `sys.maxint` is a long one, printed with an `L` behind it. -/
def hexOf (maxint number : Nat) : Bytes :=
  (if number = 0 then [48] else (Radix.numeral 16 number).map hexLetter) ++
    if maxint < number then [76] else []

/-- `addr` of an `Output`, in hexadecimal. -/
def outputAddr (maxint : Nat) (base58addr : Bytes) : Option Bytes :=
  (base58decode base58addr).map fun number =>
    let addr := hexOf maxint number
    (addr.drop 40).take 2 ++ addr.take 40

/-- The two hexadecimal digits of a byte. -/
def nibbles (byte : Byte) : List Nat :=
  [byte.toNat / 16, byte.toNat % 16]

/-- The hexadecimal text of a string of bytes. -/
def hexText (bytes : Bytes) : Bytes :=
  (bytes.flatMap nibbles).map hexLetter

/-! ### Reading the string -/

theorem base58Index_base58Letter {digit : Nat} (below : digit < 58) :
    base58Index (base58Letter digit) = some digit := by
  have letters : ∀ d : Fin 58, base58Index (base58Letter d) = some d.val := by decide
  exact letters ⟨digit, below⟩

/-- The script reads the number a string of letters denotes. -/
theorem base58decode_letters (digits : List Nat) (below : ∀ digit ∈ digits, digit < 58)
    (before : Nat) :
    (digits.map base58Letter).foldlM
        (fun result c => (base58Index c).map fun index => result * 58 + index) before =
      some (before * 58 ^ digits.length + Radix.value 58 digits) := by
  induction digits generalizing before with
  | nil => simp only [List.map_nil, List.foldlM_nil, List.length_nil, Nat.pow_zero, Nat.mul_one,
      Radix.value_nil, Nat.add_zero, pure]
  | cons digit rest inductionHypothesis =>
    obtain ⟨first, later⟩ := List.forall_mem_cons.mp below
    rw [List.map_cons, List.foldlM_cons, base58Index_base58Letter first, Option.map_some]
    refine (inductionHypothesis later _).trans (congrArg some ?_)
    rw [Radix.value_cons, List.length_cons, Nat.pow_succ]
    ring

/-- The string the device makes of an address record is read as the number of the record. -/
theorem base58decode_encodeBase58 (input : Bytes) (short : input.length ≤ 25) :
    base58decode (encodeBase58 input) = some (bytesValue input) := by
  have digits : encodeBase58 input =
      (List.replicate (input.takeWhile (· == 0)).length 0 ++
        Radix.numeral 58 (bytesValue input)).map base58Letter := by
    rw [encodeBase58_eq input short, List.map_append, List.map_replicate]
    rfl
  have below : ∀ digit ∈ List.replicate (input.takeWhile (· == 0)).length 0 ++
      Radix.numeral 58 (bytesValue input), digit < 58 := by
    intro digit member
    rcases List.mem_append.mp member with front | back
    · rw [List.eq_of_mem_replicate front]
      decide
    · exact Radix.numeral_lt (by decide) digit back
  rw [base58decode, digits, base58decode_letters _ below, Nat.zero_mul, Nat.zero_add,
    Radix.value_append, Radix.value_numeral,
    Radix.value_eq_zero fun digit member => List.eq_of_mem_replicate member, Nat.zero_mul,
    Nat.zero_add]

/-! ### Printing the number -/

theorem nibbles_lt {bytes : Bytes} : ∀ digit ∈ bytes.flatMap nibbles, digit < 16 := by
  intro digit member
  obtain ⟨byte, _, inside⟩ := List.mem_flatMap.mp member
  have bound := byte.toNat_lt
  rw [nibbles, List.mem_pair] at inside
  omega

theorem length_nibbles (bytes : Bytes) : (bytes.flatMap nibbles).length = 2 * bytes.length := by
  induction bytes with
  | nil => rfl
  | cons byte rest inductionHypothesis =>
    rw [List.flatMap_cons, List.length_append, inductionHypothesis, List.length_cons]
    show 2 + _ = _
    omega

/-- The hexadecimal digits of some bytes denote the number of the bytes. -/
theorem value_nibbles (bytes : Bytes) : Radix.value 16 (bytes.flatMap nibbles) =
    bytesValue bytes := by
  induction bytes with
  | nil => rfl
  | cons byte rest inductionHypothesis =>
    have pair : Radix.value 16 (nibbles byte) = byte.toNat := by
      rw [nibbles, Radix.value_cons, Radix.value_singleton, List.length_singleton]
      omega
    rw [List.flatMap_cons, Radix.value_append, pair, inductionHypothesis, length_nibbles,
      bytesValue_cons, Nat.pow_mul]

/-- The digits of the number are those of the bytes without leading zeros. -/
theorem numeral_bytesValue (bytes : Bytes) :
    Radix.numeral 16 (bytesValue bytes) = (bytes.flatMap nibbles).dropWhile (· == 0) := by
  rw [← value_nibbles, Radix.numeral_value (by decide) nibbles_lt]

theorem hexLetter_inj {first second : Nat} (belowFirst : first < 16) (belowSecond : second < 16)
    (same : hexLetter first = hexLetter second) : first = second := by
  have letters : ∀ one other : Fin 16, hexLetter one = hexLetter other → one = other := by decide
  exact Fin.ext_iff.mp (letters ⟨first, belowFirst⟩ ⟨second, belowSecond⟩ same)

/-! ### The addresses -/

section Addresses

variable (sdk : Sdk) (maxint : Nat)

/-- The record of a 21-byte address: its hash, its version and a checksum of four bytes. -/
theorem addressRecord_of_address (version : Byte) (hash : Bytes) (length : hash.length = 20) :
    ∃ checksum : Bytes, checksum.length = 4 ∧
      addressToBase58 sdk (version :: hash) = encodeBase58 (hash ++ [version] ++ checksum) := by
  refine ⟨(sdk.sha256 (hash ++ [version])).read 0 4, Cells.length_read _ 0 4 (by decide), ?_⟩
  have whole : ((version :: hash).drop 1).take 20 = hash := List.take_of_length_le (le_of_eq length)
  rw [addressToBase58, whole]
  rfl

/-- What the script cuts out of the number of a record. -/
theorem outputAddr_addressToBase58 (version : Byte) (hash : Bytes) (length : hash.length = 20) :
    ∃ record : Bytes, record.length = 25 ∧ hash ++ [version] <+: record ∧
      outputAddr maxint (addressToBase58 sdk (version :: hash)) =
        some (((hexOf maxint (bytesValue record)).drop 40).take 2 ++
          (hexOf maxint (bytesValue record)).take 40) := by
  obtain ⟨checksum, four, string⟩ := addressRecord_of_address sdk version hash length
  have total : (hash ++ [version] ++ checksum).length = 25 := by
    rw [List.length_append, List.length_append, length, List.length_singleton, four]
  refine ⟨hash ++ [version] ++ checksum, total, List.prefix_append _ _, ?_⟩
  rw [outputAddr, string, base58decode_encodeBase58 _ (le_of_eq total)]
  rfl

end Addresses

theorem hexText_append (first second : Bytes) :
    hexText (first ++ second) = hexText first ++ hexText second := by
  rw [hexText, List.flatMap_append, List.map_append, hexText, hexText]

theorem length_hexText (bytes : Bytes) : (hexText bytes).length = 2 * bytes.length := by
  rw [hexText, List.length_map, length_nibbles]

/-- A number whose first byte has a first digit is printed with all digits of its bytes. -/
theorem hexOf_of_large (maxint : Nat) {first : Byte} (large : 16 ≤ first.toNat) (rest : Bytes) :
    ∃ more, hexOf maxint (bytesValue (first :: rest)) = hexText (first :: rest) ++ more := by
  have leading : ((first.toNat / 16 == 0) = true) → False := fun zero => by
    have none := eq_of_beq zero
    omega
  have digits : Radix.numeral 16 (bytesValue (first :: rest)) =
    (first :: rest).flatMap nibbles := by
    rw [numeral_bytesValue, List.flatMap_cons]
    exact List.dropWhile_cons_of_neg leading
  have positive : bytesValue (first :: rest) ≠ 0 := by
    intro zero
    have none := congrArg List.length digits
    rw [zero, length_nibbles, List.length_cons] at none
    exact absurd none (by rw [Radix.numeral, Nat.digits_zero]; simp)
  exact ⟨_, by rw [hexOf, if_neg positive, digits]; rfl⟩

/-- A printed number does not begin with a zero, unless it is one. -/
theorem head_hexOf (maxint : Nat) {number : Nat} (long : 3 ≤ (hexOf maxint number).length) :
    (hexOf maxint number).head? ≠ some (hexLetter 0) := by
  by_cases zero : number = 0
  · rw [zero, hexOf, if_pos rfl, List.length_append] at long
    split at long <;> simp only [List.length_cons, List.length_nil] at long <;> omega
  · rw [hexOf, if_neg zero]
    cases digits : Radix.numeral 16 number with
    | nil =>
      have none := Radix.value_numeral 16 number
      rw [digits, Radix.value_nil] at none
      exact absurd none.symm zero
    | cons digit rest =>
      intro head
      have below : digit < 16 :=
        Radix.numeral_lt (by decide) digit (by rw [digits]; exact List.mem_cons_self)
      have none := hexLetter_inj below (by decide) (Option.some.inj head)
      exact Radix.ne_zero_of_numeral digits none

/-- The script's `addr` of an address is its own 21 bytes in hexadecimal exactly when the first
digit of the hash is not a zero. -/
theorem output_addr_iff (sdk : Sdk) (maxint : Nat) (address : Cells Byte 21) :
    outputAddr maxint (addressToBase58 sdk address.contents) = some (hexText address.contents) ↔
      16 ≤ byteAt address.contents 1 := by
  obtain ⟨contents, length⟩ := address
  match contents, length with
  | version :: first :: tail, length =>
    simp only at length ⊢
    have hashLength : (first :: tail).length = 20 := Nat.succ.inj length
    obtain ⟨record, total, ⟨more, split⟩, addr⟩ :=
      outputAddr_addressToBase58 sdk maxint version (first :: tail) hashLength
    have hashText : (hexText (first :: tail)).length = 40 := by rw [length_hexText, hashLength]
    have text : hexText (version :: first :: tail) = hexText [version] ++ hexText (first :: tail) :=
      hexText_append [version] (first :: tail)
    rw [addr, text, Option.some_inj]
    show _ ↔ 16 ≤ first.toNat
    constructor
    · intro same
      by_contra small
      have lengths := congrArg List.length same
      rw [List.length_append, List.length_append, hashText, length_hexText, List.length_take,
        List.length_take, List.length_drop, List.length_singleton] at lengths
      have cut : (((hexOf maxint (bytesValue record)).drop 40).take 2).length =
          (hexText [version]).length := by
        rw [length_hexText, List.length_take, List.length_drop, List.length_singleton]
        omega
      have front := (List.append_inj same cut).2
      have head : ((hexOf maxint (bytesValue record)).take 40).head? = some (hexLetter 0) := by
        rw [front, hexText, List.flatMap_cons, nibbles, Nat.div_eq_of_lt (not_le.mp small)]
        rfl
      rw [List.head?_take, if_neg (by decide)] at head
      exact head_hexOf maxint (by omega) head
    · intro large
      obtain ⟨behind, printed⟩ := hexOf_of_large maxint large (tail ++ [version] ++ more)
      have whole : record = first :: (tail ++ [version] ++ more) := by
        rw [← split]
        rfl
      have pieces : hexText (first :: (tail ++ [version] ++ more)) =
          hexText (first :: tail) ++ (hexText [version] ++ hexText more) := by
        rw [← hexText_append, ← hexText_append, ← List.append_assoc]
        rfl
      rw [whole, printed, pieces, List.append_assoc, List.drop_left' hashText,
        List.take_left' hashText, List.append_assoc, List.take_left' (by rw [length_hexText]; rfl)]

/-- An address whose hash begins with the byte 1. -/
def smallAddress : Cells Byte 21 :=
  ⟨(List.range 21).map UInt8.ofNat, rfl⟩

theorem output_addr_can_differ : ¬ ∀ (sdk : Sdk) (maxint : Nat) (address : Cells Byte 21),
    outputAddr maxint (addressToBase58 sdk address.contents) = some (hexText address.contents) := by
  intro all
  have same := all Sdk.plain (2 ^ 63 - 1) smallAddress
  revert same
  decide +kernel

end LedgerNano
