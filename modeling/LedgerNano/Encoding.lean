/-
This file is about `encode_base_58` as its callers run it: in place, on the 25 bytes of an
address record at the start of the 36 bytes that receive the string.

The inner loop keeps the number its digits denote (`addByte_spec`), so the outer one ends
with the digits of the whole input, and the string is read back by `base58Value`. Every index
and every order of reads and writes is checked in `encodeBase58InPlace`, which agrees with the
embedding the other files use.
-/

import LedgerNano.Base58
import LedgerNano.Library.Radix
import Mathlib.Tactic.Ring

namespace LedgerNano

/-! ### The number the digits denote -/

/-- A digit of `b58`. -/
def digitAt (b58 : Cells Nat 35) (k : Nat) : Nat :=
  b58.contents.getD k 0

/-- The number the first digits denote. -/
def prefixValue (b58 : Cells Nat 35) (count : Nat) : Nat :=
  Radix.value 58 (b58.contents.take count)

theorem digitAt_write {j : Nat} (inside : j < 35) (b58 : Cells Nat 35) (digit k : Nat) :
    digitAt (b58.write j [digit]) k = if k = j then digit else digitAt b58 k :=
  b58.getD_write_one inside digit 0 k

theorem prefixValue_succ (b58 : Cells Nat 35) {count : Nat} (inside : count < 35) :
    prefixValue b58 (count + 1) = prefixValue b58 count * 58 + digitAt b58 count := by
  have bound : count < b58.contents.length := by
    rw [b58.length_contents]
    exact inside
  rw [prefixValue, List.take_succ_eq_append_getElem bound, Radix.value_concat, digitAt,
    List.getD_eq_getElem?_getD, List.getElem?_eq_getElem bound]
  rfl

/-- The value depends on the digits alone. -/
theorem prefixValue_congr {first second : Cells Nat 35} {count : Nat} (inside : count ≤ 35)
    (same : ∀ k, k < count → digitAt first k = digitAt second k) :
    prefixValue first count = prefixValue second count := by
  induction count with
  | zero => rfl
  | succ count inductionHypothesis =>
    rw [prefixValue_succ first inside, prefixValue_succ second inside,
      inductionHypothesis (Nat.le_of_succ_le inside)
        fun k less => same k (Nat.lt_succ_of_lt less),
      same count (Nat.lt_succ_self count)]

theorem prefixValue_eq_zero {b58 : Cells Nat 35} {count : Nat} (inside : count ≤ 35)
    (zeros : ∀ k, k < count → digitAt b58 k = 0) : prefixValue b58 count = 0 := by
  induction count with
  | zero => rfl
  | succ count inductionHypothesis =>
    rw [prefixValue_succ b58 inside, zeros count (Nat.lt_succ_self count),
      inductionHypothesis (Nat.le_of_succ_le inside)
        fun k less => zeros k (Nat.lt_succ_of_lt less)]

/-! ### The inner loop -/

/-- What the conversion must not do. -/
inductive Misuse
  /-- `b58`, the alphabet or the buffer was indexed outside its bounds. -/
  | outside
  /-- A byte of the buffer was read after it had been written. -/
  | overwritten
  /-- The guard `j != -1` ended the inner loop with a carry left. -/
  | carryLost
  deriving DecidableEq

/-- The inner loop with its checks; the first number is `j + 1`. -/
def applyByte : Nat → Nat → Nat → Nat → Cells Nat 35 → Except Misuse (Nat × Cells Nat 35)
  | 0, carry, i, _, b58 => if carry = 0 then .ok (i, b58) else .error .carryLost
  | j + 1, carry, i, length, b58 =>
    if carry ≠ 0 ∨ i < length then
      if j < 35 then
        let carry := carry + 256 * digitAt b58 j
        applyByte j (carry / 58) (i + 1) length (b58.write j [carry % 58])
      else
        .error .outside
    else
      .ok (i, b58)

/-- What the inner loop leaves when it has `count` digits to go: they denote 256 times what they
did and the carry, the other digits are unchanged, and those before the used ones are zero. -/
structure Added (size count carry : Nat) (before : Cells Nat 35) (after : Nat × Cells Nat 35) :
    Prop where
  value : prefixValue after.2 count = 256 * prefixValue before count + carry
  others : ∀ k, count ≤ k → digitAt after.2 k = digitAt before k
  used : after.1 ≤ size
  leading : ∀ k, k + after.1 < size → digitAt after.2 k = 0

/-- The induction is on the digits to go; the bound says that the carry fits them, so that the
guard `j != -1` ends the loop with no carry left. -/
theorem addByte_spec {size length : Nat} (inside : size ≤ 35) (count carry i : Nat)
    (b58 : Cells Nat 35) (place : i + count = size)
    (leading : ∀ k, k < count → k + length < size → digitAt b58 k = 0)
    (room : 256 * prefixValue b58 count + carry < 58 ^ count) :
    applyByte count carry i length b58 = .ok (addByte count carry i length b58) ∧
      Added size count carry b58 (addByte count carry i length b58) := by
  induction count generalizing carry i b58 with
  | zero =>
    have none : carry = 0 := by
      rw [Nat.pow_zero] at room
      omega
    subst none
    rw [applyByte, if_pos rfl, addByte]
    exact ⟨rfl, rfl, fun _ _ => rfl, by dsimp only; omega,
      fun k less => by dsimp only at less; omega⟩
  | succ j inductionHypothesis =>
    rw [applyByte, addByte]
    by_cases more : carry ≠ 0 ∨ i < length
    · have below : j < 35 := by omega
      rw [if_pos more, if_pos more, if_pos below, Cells.headD_read_one, ← digitAt]
      set sum := carry + 256 * digitAt b58 j with sumIs
      have kept : ∀ k, k < j → digitAt (b58.write j [sum % 58]) k = digitAt b58 k := by
        intro k less
        rw [digitAt_write below, if_neg (Nat.ne_of_lt less)]
      have same : prefixValue (b58.write j [sum % 58]) j = prefixValue b58 j :=
        prefixValue_congr (by omega) kept
      have split := prefixValue_succ b58 below
      obtain ⟨checked, added⟩ := inductionHypothesis (sum / 58) (i + 1) (b58.write j [sum % 58])
        (by omega) (fun k less used => by rw [kept k less]; exact leading k (by omega) used)
        (by rw [same]; rw [split, Nat.pow_succ] at room; omega)
      have last : digitAt (addByte j (sum / 58) (i + 1) length (b58.write j [sum % 58])).2 j =
          sum % 58 := by
        rw [added.others j (le_refl j), digitAt_write below, if_pos rfl]
      refine ⟨checked, ?_, fun k more => ?_, added.used, added.leading⟩
      · rw [prefixValue_succ _ below, added.value, last, same, split]
        omega
      · rw [added.others k (by omega), digitAt_write below, if_neg (by omega)]
    · rw [if_neg more, if_neg more]
      have none : carry = 0 := by omega
      have zero : prefixValue b58 (j + 1) = 0 :=
        prefixValue_eq_zero (by omega) fun k less => leading k less (by omega)
      exact ⟨rfl, by rw [zero, none], fun _ _ => rfl, by dsimp only; omega,
        fun k less => leading k (by dsimp only at less; omega) (by dsimp only at less; omega)⟩

/-! ### The outer loop -/

/-- The number a string of bytes denotes, the most significant byte first. -/
def bytesValue (bytes : Bytes) : Nat :=
  Radix.value 256 (bytes.map UInt8.toNat)

theorem bytesValue_cons (byte : Byte) (bytes : Bytes) :
    bytesValue (byte :: bytes) = byte.toNat * 256 ^ bytes.length + bytesValue bytes := by
  rw [bytesValue, List.map_cons, Radix.value_cons, List.length_map]
  rfl

theorem toNat_lt_of_mem_map {bytes : Bytes} : ∀ digit ∈ bytes.map UInt8.toNat, digit < 256 := by
  intro digit member
  obtain ⟨byte, _, rfl⟩ := List.mem_map.mp member
  exact byte.toNat_lt

theorem bytesValue_lt (bytes : Bytes) : bytesValue bytes < 256 ^ bytes.length := by
  have below := Radix.value_lt (by decide) (@toNat_lt_of_mem_map bytes)
  rw [List.length_map] at below
  exact below

/-- Leading zero bytes do not count. -/
theorem bytesValue_dropWhile (bytes : Bytes) :
    bytesValue (bytes.dropWhile (· == 0)) = bytesValue bytes := by
  have zero : (fun byte : Byte => byte == 0) = (fun digit : Nat => digit == 0) ∘ UInt8.toNat := by
    funext byte
    rw [Function.comp_apply, Bool.eq_iff_iff, beq_iff_eq, beq_iff_eq, ← UInt8.toNat_inj]
    rfl
  rw [bytesValue, zero, ← List.dropWhile_map, Radix.value_dropWhile, bytesValue]

/-- What the outer loop leaves: all its bytes in the digits, those before the used ones zero. -/
structure Converted (size value : Nat) (after : Nat × Cells Nat 35) : Prop where
  value : prefixValue after.2 size = value
  used : after.1 ≤ size
  leading : ∀ k, k + after.1 < size → digitAt after.2 k = 0

/-- One more byte. -/
theorem Converted.next {size value length : Nat} {b58 : Cells Nat 35} (inside : size ≤ 35)
    (before : Converted size value (length, b58)) (byte : Byte)
    (room : 256 * value + byte.toNat < 58 ^ size) :
    applyByte size byte.toNat 0 length b58 = .ok (addByte size byte.toNat 0 length b58) ∧
      Converted size (256 * value + byte.toNat) (addByte size byte.toNat 0 length b58) := by
  have stands : prefixValue b58 size = value := before.value
  obtain ⟨checked, added⟩ := @addByte_spec size length inside size byte.toNat 0 b58
    (Nat.zero_add size) (fun k _ used => before.leading k used) (by rw [stands]; exact room)
  exact ⟨checked, by rw [added.value, stands], added.used, added.leading⟩

theorem value_cons_bytes (value : Nat) (byte : Byte) (rest : Bytes) :
    value * 256 ^ (byte :: rest).length + bytesValue (byte :: rest) =
      (256 * value + byte.toNat) * 256 ^ rest.length + bytesValue rest := by
  rw [bytesValue_cons, List.length_cons, Nat.pow_succ]
  ring

/-- What fits with bytes behind it fits without them. -/
theorem room_of_bytes {value bound : Nat} {rest : Bytes}
    (room : value * 256 ^ rest.length + bytesValue rest < bound) : value < bound := by
  have grows := Nat.le_mul_of_pos_right value (Nat.pow_pos (n := rest.length) (by decide : 0 < 256))
  omega

/-- The digits so far always denote the bytes so far. -/
theorem addBytes_spec {size : Nat} (inside : size ≤ 35) (bytes : Bytes) (length : Nat)
    (b58 : Cells Nat 35) {value : Nat} (before : Converted size value (length, b58))
    (room : value * 256 ^ bytes.length + bytesValue bytes < 58 ^ size) :
    Converted size (value * 256 ^ bytes.length + bytesValue bytes)
      (addBytes size bytes length b58) := by
  induction bytes generalizing length b58 value with
  | nil =>
    rw [List.length_nil, Nat.pow_zero, Nat.mul_one]
    exact before
  | cons byte rest inductionHypothesis =>
    rw [value_cons_bytes] at room ⊢
    obtain ⟨_, added⟩ := before.next inside byte (room_of_bytes room)
    exact inductionHypothesis _ _ added room

/-- The estimate of the size is never too small. -/
theorem size_suffices (count : Nat) : 256 ^ count < 58 ^ (count * 138 / 100 + 1) := by
  refine lt_of_pow_lt_pow_left₀ 100 (Nat.zero_le _) ?_
  calc
    (256 ^ count) ^ 100 = (256 ^ 100) ^ count := by rw [← Nat.pow_mul, ← Nat.pow_mul, Nat.mul_comm]
    _ ≤ (58 ^ 138) ^ count := Nat.pow_le_pow_left (by decide) count
    _ = 58 ^ (138 * count) := by rw [← Nat.pow_mul]
    _ < 58 ^ ((count * 138 / 100 + 1) * 100) := Nat.pow_lt_pow_right (by decide) (by omega)
    _ = (58 ^ (count * 138 / 100 + 1)) ^ 100 := by rw [← Nat.pow_mul]

/-! ### The string -/

theorem mem_fill_zero_lt : ∀ digit ∈ (Cells.fill 0 : Cells Nat 35).contents, digit < 58 := by
  intro digit member
  rw [List.eq_of_mem_replicate member]
  decide

/-- Before the first byte. -/
theorem converted_start {size : Nat} (inside : size ≤ 35) :
    Converted size 0 (0, Cells.fill 0) := by
  have zeros : ∀ k, digitAt (Cells.fill 0) k = 0 := by
    intro k
    rw [digitAt, Cells.fill, List.getD_eq_getElem?_getD, List.getElem?_replicate]
    split <;> rfl
  exact ⟨prefixValue_eq_zero inside fun k _ => zeros k, Nat.zero_le _, fun k _ => zeros k⟩

theorem room_start (rest : Bytes) :
    0 * 256 ^ rest.length + bytesValue rest < 58 ^ (rest.length * 138 / 100 + 1) := by
  rw [Nat.zero_mul, Nat.zero_add]
  exact (bytesValue_lt rest).trans (size_suffices rest.length)

/-- The bytes behind the leading zeros, in as many digits as the estimate gives. -/
theorem addBytes_converts (rest : Bytes) (short : rest.length ≤ 25) :
    Converted (rest.length * 138 / 100 + 1) (bytesValue rest)
      (addBytes (rest.length * 138 / 100 + 1) rest 0 (Cells.fill 0)) := by
  have converted := addBytes_spec (by omega) rest 0 _ (converted_start (by omega)) (room_start rest)
  rw [Nat.zero_mul, Nat.zero_add] at converted
  exact converted

/-- Digits known to be zero may be skipped before the leading zeros are dropped. -/
theorem dropWhile_drop {digits : List Nat} {count : Nat}
    (zeros : ∀ k, k < count → digits.getD k 0 = 0) :
    (digits.drop count).dropWhile (· == 0) = digits.dropWhile (· == 0) := by
  induction count generalizing digits with
  | zero => rfl
  | succ count inductionHypothesis =>
    cases digits with
    | nil => rfl
    | cons digit rest =>
      have first : digit = 0 := zeros 0 (Nat.succ_pos count)
      rw [List.drop_succ_cons, first, inductionHypothesis fun k less =>
        zeros (k + 1) (Nat.succ_lt_succ less)]
      rfl

theorem drop_takeWhile {α : Type} (kept : α → Bool) (items : List α) :
    items.drop (items.takeWhile kept).length = items.dropWhile kept :=
  calc items.drop (items.takeWhile kept).length
      = (items.takeWhile kept ++ items.dropWhile kept).drop (items.takeWhile kept).length := by
        rw [List.takeWhile_append_dropWhile]
    _ = items.dropWhile kept := List.drop_left

/-- The string is a `1` for each leading zero byte and then the base-58 digits of the number. -/
theorem encodeBase58_eq (input : Bytes) (short : input.length ≤ 25) :
    encodeBase58 input = List.replicate (input.takeWhile (· == 0)).length 49 ++
      (Radix.numeral 58 (bytesValue input)).map base58Letter := by
  have split := drop_takeWhile (fun byte : Byte => byte == 0) input
  have shorter : (input.dropWhile (· == 0)).length ≤ 25 :=
    le_trans (List.dropWhile_sublist _).length_le short
  simp only [encodeBase58, split]
  set size := (input.dropWhile (· == 0)).length * 138 / 100 + 1 with sizeIs
  have converted := addBytes_converts _ shorter
  rw [← sizeIs] at converted
  set found := addBytes size (input.dropWhile (· == 0)) 0 (Cells.fill 0) with foundIs
  have digits : found.2.read 0 size = found.2.contents.take size := by
    rw [Cells.read, List.drop_zero]
  have below : ∀ digit ∈ found.2.contents.take size, digit < 58 := fun digit member =>
    addBytes_digits size _ 0 (Cells.fill 0) mem_fill_zero_lt digit (List.mem_of_mem_take member)
  have leading : ∀ k, k < size - found.1 → (found.2.contents.take size).getD k 0 = 0 := by
    intro k less
    rw [List.getD_eq_getElem?_getD, List.getElem?_take_of_lt (by omega),
      ← List.getD_eq_getElem?_getD]
    exact converted.leading k (by omega)
  rw [digits, dropWhile_drop leading, ← Radix.numeral_value (by decide) below]
  have value : Radix.value 58 (found.2.contents.take size) = bytesValue input :=
    converted.value.trans (bytesValue_dropWhile input)
  rw [value]

/-! ### Reading a string back -/

/-- The place of a letter in the alphabet. -/
def letterIndex (letter : Byte) : Nat :=
  base58Alphabet.idxOf letter

/-- The number a base-58 string denotes. -/
def base58Value (text : Bytes) : Nat :=
  Radix.value 58 (text.map letterIndex)

theorem letterIndex_base58Letter {digit : Nat} (below : digit < 58) :
    letterIndex (base58Letter digit) = digit := by
  have letters : ∀ d : Fin 58, letterIndex (base58Letter d) = d := by decide
  exact letters ⟨digit, below⟩

/-- The string denotes the number of its bytes. -/
theorem base58Value_encodeBase58 (input : Bytes) (short : input.length ≤ 25) :
    base58Value (encodeBase58 input) = bytesValue input := by
  have ones : ∀ digit ∈ (List.replicate (input.takeWhile (· == 0)).length 49).map letterIndex,
      digit = 0 := by
    intro digit member
    obtain ⟨letter, inside, rfl⟩ := List.mem_map.mp member
    rw [List.eq_of_mem_replicate inside]
    rfl
  have digits : ((Radix.numeral 58 (bytesValue input)).map base58Letter).map letterIndex =
      Radix.numeral 58 (bytesValue input) := by
    rw [List.map_map]
    refine (List.map_congr_left fun digit member => ?_).trans (List.map_id _)
    exact letterIndex_base58Letter (Radix.numeral_lt (by decide) digit member)
  rw [base58Value, encodeBase58_eq input short, List.map_append, Radix.value_append,
    Radix.value_eq_zero ones, Nat.zero_mul, Nat.zero_add, digits, Radix.value_numeral]

/-- Strings of one length are told apart by their encodings. -/
theorem encodeBase58_inj {first second : Bytes} (length : first.length = second.length)
    (short : first.length ≤ 25) : encodeBase58 first = encodeBase58 second ↔ first = second := by
  refine ⟨fun same => ?_, fun same => congrArg encodeBase58 same⟩
  have values : bytesValue first = bytesValue second := by
    rw [← base58Value_encodeBase58 first short, same,
      base58Value_encodeBase58 second (length ▸ short)]
  have digits := Radix.eq_of_value_eq (by decide)
    (by rw [List.length_map, List.length_map, length]) toNat_lt_of_mem_map
    toNat_lt_of_mem_map values
  exact List.map_injective_iff.mpr (fun _ _ => UInt8.toNat_inj.mp) digits

/-! ### The conversion in place -/

/-- The buffer of a caller, which holds the input and receives the string, and the places that were
written. -/
structure Place where
  bytes : Cells Byte 36
  written : List Nat

namespace Place

/-- `*pbegin`. -/
def read (place : Place) (index : Nat) : Except Misuse Byte :=
  if index ∈ place.written then
    .error .overwritten
  else if inside : index < 36 then
    .ok (place.bytes.get index inside)
  else
    .error .outside

/-- `result[index] = value`. -/
def write (place : Place) (index : Nat) (value : Byte) : Except Misuse Place :=
  if index < 36 then
    .ok { bytes := place.bytes.write index [value], written := index :: place.written }
  else
    .error .outside

/-- The first loop, which counts the leading zeros; the first number is `pend - pbegin`. -/
def skipZeroes (place : Place) : Nat → Nat → Except Misuse Nat
  | 0, pbegin => .ok pbegin
  | left + 1, pbegin =>
    match place.read pbegin with
    | .error misuse => .error misuse
    | .ok byte => if byte = 0 then place.skipZeroes left (pbegin + 1) else .ok pbegin

end Place

/-- The outer loop; the second number is `pend - pbegin`. -/
def Place.applyBytes (place : Place) (size : Nat) :
    Nat → Nat → Nat → Cells Nat 35 → Except Misuse (Nat × Cells Nat 35)
  | 0, _, length, b58 => .ok (length, b58)
  | left + 1, pbegin, length, b58 =>
    match place.read pbegin with
    | .error misuse => .error misuse
    | .ok byte =>
      match applyByte size byte.toNat 0 length b58 with
      | .error misuse => .error misuse
      | .ok added => place.applyBytes size left (pbegin + 1) added.1 added.2

/-- The loop over the leading zeros of the digits; the first number is `size - j`. -/
def skipDigits (b58 : Cells Nat 35) : Nat → Nat → Except Misuse Nat
  | 0, j => .ok j
  | left + 1, j =>
    if j < 35 then
      if digitAt b58 j = 0 then skipDigits b58 left (j + 1) else .ok j
    else
      .error .outside

/-- The loop that writes the leading ones; the first number is `zeroes - i`. -/
def writeOnes : Nat → Nat → Place → Except Misuse Place
  | 0, _, place => .ok place
  | left + 1, i, place =>
    match place.write i 49 with
    | .error misuse => .error misuse
    | .ok place => writeOnes left (i + 1) place

/-- The loop that writes the digits; the first number is `size - j`. -/
def writeDigits (b58 : Cells Nat 35) : Nat → Nat → Nat → Place → Except Misuse (Nat × Place)
  | 0, _, i, place => .ok (i, place)
  | left + 1, j, i, place =>
    if j < 35 ∧ digitAt b58 j < 58 then
      match place.write i (base58Letter (digitAt b58 j)) with
      | .error misuse => .error misuse
      | .ok place => writeDigits b58 left (j + 1) (i + 1) place
    else
      .error .outside

/-- `encode_base_58(result, len, result)`. -/
def encodeBase58InPlace (len : Nat) (place : Place) : Except Misuse Place := do
  let zeroes ← place.skipZeroes len 0
  let size := (len - zeroes) * 138 / 100 + 1
  let found ← place.applyBytes size (len - zeroes) zeroes 0 (Cells.fill 0)
  let j ← skipDigits found.2 found.1 (size - found.1)
  let place ← writeOnes zeroes 0 place
  let ended ← writeDigits found.2 (size - j) j zeroes place
  ended.2.write ended.1 0

section InPlace

variable {memory : Cells Byte 36}

/-- Nothing is written before everything is read. -/
theorem Place.read_unwritten {index : Nat} (inside : index < 36) :
    Place.read ⟨memory, []⟩ index = .ok (memory.get index inside) := by
  rw [Place.read, if_neg List.not_mem_nil, dif_pos inside]

theorem skipZeroes_eq (left pbegin : Nat) (inside : pbegin + left ≤ 36) :
    Place.skipZeroes ⟨memory, []⟩ left pbegin =
      .ok (pbegin + ((memory.read pbegin left).takeWhile (· == 0)).length) := by
  induction left generalizing pbegin with
  | zero =>
    rw [Place.skipZeroes, Cells.read_zero]
    rfl
  | succ left inductionHypothesis =>
    have here : pbegin < 36 := by omega
    rw [Place.skipZeroes, Place.read_unwritten here, memory.read_succ _ _ here,
      List.takeWhile_cons]
    simp only [beq_iff_eq]
    by_cases zero : memory.get pbegin here = 0
    · rw [if_pos zero, if_pos zero, inductionHypothesis _ (by omega), List.length_cons]
      congr 1
      omega
    · rw [if_neg zero, if_neg zero]
      rfl

/-- The checks of the outer loop change nothing. -/
theorem applyBytes_eq {size : Nat} (inside : size ≤ 35) (left pbegin length : Nat)
    (b58 : Cells Nat 35) {value : Nat} (within : pbegin + left ≤ 36)
    (before : Converted size value (length, b58))
    (room : value * 256 ^ (memory.read pbegin left).length + bytesValue (memory.read pbegin left) <
      58 ^ size) :
    Place.applyBytes ⟨memory, []⟩ size left pbegin length b58 =
      .ok (addBytes size (memory.read pbegin left) length b58) := by
  induction left generalizing pbegin length b58 value with
  | zero =>
    rw [Place.applyBytes, Cells.read_zero]
    rfl
  | succ left inductionHypothesis =>
    have here : pbegin < 36 := by omega
    rw [memory.read_succ _ _ here] at room ⊢
    rw [value_cons_bytes] at room
    obtain ⟨checked, added⟩ := before.next inside (memory.get pbegin here) (room_of_bytes room)
    rw [Place.applyBytes, Place.read_unwritten here]
    simp only [checked]
    exact inductionHypothesis (pbegin + 1) _ _ (by omega) added room

theorem read_digits (b58 : Cells Nat 35) (j left : Nat) (inside : j < 35) :
    b58.read j (left + 1) = digitAt b58 j :: b58.read (j + 1) left := by
  rw [b58.read_succ _ _ inside, digitAt, List.getD_eq_getElem?_getD,
    List.getElem?_eq_getElem (lt_of_lt_of_eq inside b58.length_contents.symm)]
  rfl

theorem skipDigits_eq (b58 : Cells Nat 35) (left j : Nat) (inside : j + left ≤ 35) :
    skipDigits b58 left j = .ok (j + ((b58.read j left).takeWhile (· == 0)).length) := by
  induction left generalizing j with
  | zero =>
    rw [skipDigits, Cells.read_zero]
    rfl
  | succ left inductionHypothesis =>
    have here : j < 35 := by omega
    rw [skipDigits, if_pos here, read_digits b58 j left here, List.takeWhile_cons]
    simp only [beq_iff_eq]
    by_cases zero : digitAt b58 j = 0
    · rw [if_pos zero, if_pos zero, inductionHypothesis _ (by omega), List.length_cons]
      congr 1
      omega
    · rw [if_neg zero, if_neg zero]
      rfl

theorem Place.write_inside (place : Place) {index : Nat} (inside : index < 36) (value : Byte) :
    place.write index value =
      .ok { bytes := place.bytes.write index [value], written := index :: place.written } := by
  rw [Place.write, if_pos inside]

theorem writeOnes_eq (left i : Nat) (place : Place) (inside : i + left ≤ 36) :
    ∃ written, writeOnes left i place =
      .ok { bytes := place.bytes.write i (List.replicate left 49), written } := by
  induction left generalizing i place with
  | zero => exact ⟨place.written, by rw [writeOnes, List.replicate_zero, Cells.write_nil]⟩
  | succ left inductionHypothesis =>
    obtain ⟨written, wrote⟩ := inductionHypothesis (i + 1)
      { bytes := place.bytes.write i [49], written := i :: place.written } (by omega)
    refine ⟨written, ?_⟩
    rw [writeOnes, place.write_inside (by omega)]
    simp only [wrote]
    have joined := place.bytes.write_write_append i [49] (List.replicate left 49) (by
      rw [List.length_append, List.length_replicate, List.length_singleton]
      omega)
    rw [List.length_singleton] at joined
    rw [joined, List.replicate_succ]
    rfl

theorem writeDigits_eq (b58 : Cells Nat 35) (below : ∀ k, k < 35 → digitAt b58 k < 58)
    (left j i : Nat) (place : Place) (digits : j + left ≤ 35) (inside : i + left ≤ 36) :
    ∃ written, writeDigits b58 left j i place = .ok (i + left,
      { bytes := place.bytes.write i ((b58.read j left).map base58Letter), written }) := by
  induction left generalizing j i place with
  | zero =>
    refine ⟨place.written, ?_⟩
    rw [writeDigits, Cells.read_zero, List.map_nil, Cells.write_nil]
    rfl
  | succ left inductionHypothesis =>
    have here : j < 35 := by omega
    obtain ⟨written, wrote⟩ := inductionHypothesis (j + 1) (i + 1)
      { bytes := place.bytes.write i [base58Letter (digitAt b58 j)], written := i :: place.written }
      (by omega) (by omega)
    refine ⟨written, ?_⟩
    rw [writeDigits, if_pos ⟨here, below j here⟩, place.write_inside (by omega)]
    simp only [wrote]
    have joined := place.bytes.write_write_append i [base58Letter (digitAt b58 j)]
      ((b58.read (j + 1) left).map base58Letter) (by
        rw [List.length_append, List.length_map, List.length_singleton,
          b58.length_read _ _ (by omega)]
        omega)
    rw [List.length_singleton] at joined
    rw [joined, read_digits b58 j left here, List.map_cons, Nat.add_right_comm, Nat.add_assoc]
    rfl

end InPlace

/-- The conversion in place does nothing it must not, and leaves the string and its zero. -/
theorem encodeBase58InPlace_eq (memory : Cells Byte 36) :
    ∃ after, encodeBase58InPlace 25 ⟨memory, []⟩ = .ok after ∧
      after.bytes = memory.write 0 (encodeBase58 (memory.read 0 25) ++ [0]) := by
  have length : (memory.read 0 25).length = 25 := memory.length_read 0 25 (by decide)
  have fits := length_encodeBase58_le (memory.read 0 25) (le_of_eq length)
  set zeroes := ((memory.read 0 25).takeWhile (· == 0)).length with zeroesIs
  have few : zeroes ≤ 25 := le_trans (List.takeWhile_sublist _).length_le (le_of_eq length)
  have rest : (memory.read 0 25).drop zeroes = memory.read zeroes (25 - zeroes) := by
    rw [Cells.drop_read, Nat.zero_add]
  have restLength : (memory.read zeroes (25 - zeroes)).length = 25 - zeroes :=
    memory.length_read _ _ (by omega)
  have room := room_start (memory.read zeroes (25 - zeroes))
  have converted := addBytes_converts (memory.read zeroes (25 - zeroes)) (by omega)
  rw [restLength] at converted
  set size := (25 - zeroes) * 138 / 100 + 1 with sizeIs
  have small : size ≤ 35 := by omega
  set found := addBytes size (memory.read zeroes (25 - zeroes)) 0 (Cells.fill 0) with foundIs
  have used := converted.used
  have applied : Place.applyBytes ⟨memory, []⟩ size (25 - zeroes) zeroes 0 (Cells.fill 0) =
      .ok found := applyBytes_eq small _ _ _ _ (by omega) (converted_start small)
        (by rw [restLength] at room ⊢; exact room)
  have skipped := skipDigits_eq found.2 found.1 (size - found.1) (by omega)
  set zeros := ((found.2.read (size - found.1) found.1).takeWhile (· == 0)).length with zerosIs
  have inner : zeros ≤ found.1 :=
    le_trans (List.takeWhile_sublist _).length_le (found.2.length_read_le _ _)
  have string : encodeBase58 (memory.read 0 25) = List.replicate zeroes 49 ++
      (found.2.read (size - found.1 + zeros) (found.1 - zeros)).map base58Letter := by
    simp only [encodeBase58, ← zeroesIs, rest, restLength, ← sizeIs, ← foundIs]
    rw [Cells.drop_read, Nat.zero_add, show size - (size - found.1) = found.1 by omega,
      ← drop_takeWhile, ← zerosIs, Cells.drop_read]
  have below : ∀ k, k < 35 → digitAt found.2 k < 58 := by
    intro k inside
    have place : k < found.2.contents.length := lt_of_lt_of_eq inside found.2.length_contents.symm
    rw [digitAt, List.getD_eq_getElem?_getD, List.getElem?_eq_getElem place]
    exact addBytes_digits size (memory.read zeroes (25 - zeroes)) 0 (Cells.fill 0) mem_fill_zero_lt
      _ (List.getElem_mem place)
  have letters := congrArg List.length string
  rw [List.length_append, List.length_replicate, List.length_map,
    found.2.length_read _ _ (by omega)] at letters
  obtain ⟨ones, wroteOnes⟩ := writeOnes_eq zeroes 0 ⟨memory, []⟩ (by omega)
  obtain ⟨digits, wroteDigits⟩ := writeDigits_eq found.2 below (found.1 - zeros)
    (size - found.1 + zeros) zeroes
    { bytes := memory.write 0 (List.replicate zeroes 49), written := ones } (by omega) (by omega)
  set text := (found.2.read (size - found.1 + zeros) (found.1 - zeros)).map base58Letter with textIs
  have textLength : text.length = found.1 - zeros := by
    rw [textIs, List.length_map, found.2.length_read _ _ (by omega)]
  refine ⟨⟨((memory.write 0 (List.replicate zeroes 49)).write zeroes text).write
    (zeroes + (found.1 - zeros)) [0], (zeroes + (found.1 - zeros)) :: digits⟩, ?_, ?_⟩
  · have remaining : size - (size - found.1 + zeros) = found.1 - zeros := by omega
    rw [encodeBase58InPlace, skipZeroes_eq 25 0 (by decide), Nat.zero_add, ← zeroesIs]
    simp only [bind, Except.bind]
    rw [← sizeIs, applied]
    simp only
    rw [skipped]
    simp only
    rw [wroteOnes]
    simp only
    rw [remaining, wroteDigits]
    exact Place.write_inside _ (by omega) 0
  · have front := memory.write_write_append 0 (List.replicate zeroes 49) text
      (by rw [List.length_append, List.length_replicate, textLength]; omega)
    rw [List.length_replicate, Nat.zero_add] at front
    have whole := memory.write_write_append 0 (List.replicate zeroes 49 ++ text) [0]
      (by rw [List.length_append, List.length_append, List.length_replicate, textLength,
        List.length_singleton]; omega)
    rw [List.length_append, List.length_replicate, textLength, Nat.zero_add] at whole
    rw [string, front, whole]

/-! ### The result -/

/-- Base-58 encoding is correct. In place, on any 25 bytes, the conversion stays within its arrays,
reads no byte it has written, and loses no carry; it leaves a `1` for each leading zero byte, the
base-58 digits of the number of the bytes without leading zeros, and a zero, all within the 36
bytes; and other bytes give another string. -/
theorem base58_encoding_correct (memory : Cells Byte 36) :
    (∃ after, encodeBase58InPlace 25 ⟨memory, []⟩ = .ok after ∧
      after.bytes = memory.write 0 (encodeBase58 (memory.read 0 25) ++ [0])) ∧
    (encodeBase58 (memory.read 0 25) ++ [0]).length ≤ 36 ∧
    encodeBase58 (memory.read 0 25) =
      List.replicate ((memory.read 0 25).takeWhile (· == 0)).length 49 ++
        (Radix.numeral 58 (bytesValue (memory.read 0 25))).map base58Letter ∧
    ∀ other : Cells Byte 36, encodeBase58 (other.read 0 25) = encodeBase58 (memory.read 0 25) ↔
      other.read 0 25 = memory.read 0 25 := by
  have length : ∀ block : Cells Byte 36, (block.read 0 25).length = 25 := fun block =>
    block.length_read 0 25 (by decide)
  refine ⟨encodeBase58InPlace_eq memory, ?_, encodeBase58_eq _ (le_of_eq (length memory)), ?_⟩
  · have letters := length_encodeBase58_le (memory.read 0 25) (le_of_eq (length memory))
    rw [List.length_append, List.length_singleton]
    omega
  · exact fun other =>
      encodeBase58_inj ((length other).trans (length memory).symm) (le_of_eq (length other))

end LedgerNano
