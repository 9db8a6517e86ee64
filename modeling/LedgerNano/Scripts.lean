/-
This file embeds the texts of the host's scripts. `generating_txn.py`, `sign_transaction.py` and
`adpu_call.py` write numbers, transactions and requests as hexadecimal digits, and
`bytearray.fromhex` turns a request into bytes as it is sent.

A text is the list of its letters. `Reads` says which bytes a text of digits stands for: it is
kept when texts are put behind each other or cut at even places, which is all the scripts do with
them. The main result is about `to_le`: the text it makes of a number is that of the little-endian
bytes exactly when the number fits them and is no long integer of Python (`to_le_exact_iff`).
-/

import LedgerNano.Addresses
import LedgerNano.Host

namespace LedgerNano

/-! ### Reading digits -/

/-- The value of a digit in `bytearray.fromhex`. -/
def hexDigit (letter : Byte) : Option Nat :=
  if 48 ≤ letter.toNat ∧ letter.toNat ≤ 57 then some (letter.toNat - 48)
  else if 97 ≤ letter.toNat ∧ letter.toNat ≤ 102 then some (letter.toNat - 87)
  else if 65 ≤ letter.toNat ∧ letter.toNat ≤ 70 then some (letter.toNat - 55)
  else none

/-- The byte of two digits. -/
def hexByteOf (first second : Byte) : Option Byte :=
  match hexDigit first, hexDigit second with
  | some high, some low => some (UInt8.ofNat (16 * high + low))
  | _, _ => none

/-- `binascii.a2b_hex`: pairs of digits, and nothing else. -/
def a2bHex : Bytes → Option Bytes
  | [] => some []
  | [_] => none
  | first :: second :: rest =>
    match hexByteOf first second, a2bHex rest with
    | some byte, some bytes => some (byte :: bytes)
    | _, _ => none

/-- `bytearray.fromhex`, which passes over spaces between the pairs. -/
def fromHex : Bytes → Option Bytes
  | [] => some []
  | [letter] => if letter = 32 then some [] else none
  | first :: second :: rest =>
    if first = 32 then
      fromHex (second :: rest)
    else
      match hexByteOf first second, fromHex rest with
      | some byte, some bytes => some (byte :: bytes)
      | _, _ => none

/-- A text of hexadecimal digits and the bytes it stands for. -/
def Reads (text bytes : Bytes) : Prop := a2bHex text = some bytes

section Reading

variable {text first second : Bytes} {bytes firstBytes secondBytes : Bytes}

theorem reads_nil : Reads [] [] := rfl

theorem reads_cons {high low byte : Byte} (pair : hexByteOf high low = some byte)
    (reads : Reads text bytes) : Reads (high :: low :: text) (byte :: bytes) := by
  unfold Reads at reads ⊢
  rw [a2bHex, pair, reads]

/-- The first two digits of a text are those of the first byte. -/
theorem Reads.split (reads : Reads text bytes) : text = [] ∧ bytes = [] ∨
    ∃ high low byte text' bytes', text = high :: low :: text' ∧ bytes = byte :: bytes' ∧
      hexByteOf high low = some byte ∧ Reads text' bytes' := by
  unfold Reads at reads
  match text with
  | [] => exact Or.inl ⟨rfl, (Option.some.inj reads).symm⟩
  | [_] => cases reads
  | high :: low :: rest =>
    rw [a2bHex] at reads
    split at reads
    · rename_i byte later pair rest
      exact Or.inr ⟨high, low, byte, _, later, rfl, (Option.some.inj reads).symm, pair, rest⟩
    · cases reads

theorem Reads.length (reads : Reads text bytes) : text.length = 2 * bytes.length := by
  induction bytes generalizing text with
  | nil =>
    rcases reads.split with ⟨rfl, _⟩ | ⟨_, _, _, _, _, _, none, _⟩
    · rfl
    · cases none
  | cons byte bytes inductionHypothesis =>
    rcases reads.split with ⟨_, none⟩ | ⟨high, low, _, rest, _, rfl, same, _, later⟩
    · cases none
    · obtain ⟨rfl, rfl⟩ := List.cons.inj same
      rw [List.length_cons, List.length_cons, List.length_cons, inductionHypothesis later]
      rfl

theorem Reads.append (one : Reads first firstBytes) (other : Reads second secondBytes) :
    Reads (first ++ second) (firstBytes ++ secondBytes) := by
  induction firstBytes generalizing first with
  | nil =>
    rcases one.split with ⟨rfl, _⟩ | ⟨_, _, _, _, _, _, none, _⟩
    · exact other
    · cases none
  | cons byte bytes inductionHypothesis =>
    rcases one.split with ⟨_, none⟩ | ⟨high, low, _, rest, _, rfl, same, pair, later⟩
    · cases none
    · obtain ⟨rfl, rfl⟩ := List.cons.inj same
      exact reads_cons pair (inductionHypothesis later)

theorem Reads.flatten {texts : List Bytes} {pieces : List Bytes}
    (each : List.Forall₂ Reads texts pieces) : Reads texts.flatten pieces.flatten := by
  induction each with
  | nil => exact reads_nil
  | cons head _ inductionHypothesis => exact head.append inductionHypothesis

/-- A text may be cut behind any pair of digits. -/
theorem Reads.take (reads : Reads text bytes) (count : Nat) :
    Reads (text.take (2 * count)) (bytes.take count) := by
  induction count generalizing text bytes with
  | zero => exact reads_nil
  | succ count inductionHypothesis =>
    rcases reads.split with ⟨rfl, rfl⟩ | ⟨high, low, byte, rest, bytes, rfl, rfl, pair, later⟩
    · exact reads_nil
    · exact reads_cons pair (inductionHypothesis later)

theorem Reads.drop (reads : Reads text bytes) (count : Nat) :
    Reads (text.drop (2 * count)) (bytes.drop count) := by
  induction count generalizing text bytes with
  | zero => exact reads
  | succ count inductionHypothesis =>
    rcases reads.split with ⟨rfl, rfl⟩ | ⟨high, low, byte, rest, bytes, rfl, rfl, pair, later⟩
    · exact reads_nil
    · exact inductionHypothesis later

theorem hexDigit_hexLetter {digit : Nat} (below : digit < 16) :
    hexDigit (hexLetter digit) = some digit := by
  have letters : ∀ d : Fin 16, hexDigit (hexLetter d) = some d.val := by decide
  exact letters ⟨digit, below⟩

theorem hexByteOf_nibbles (byte : Byte) :
    hexByteOf (hexLetter (byte.toNat / 16)) (hexLetter (byte.toNat % 16)) = some byte := by
  have bound := byte.toNat_lt
  have whole : 16 * (byte.toNat / 16) + byte.toNat % 16 = byte.toNat := by omega
  rw [hexByteOf, hexDigit_hexLetter (by omega), hexDigit_hexLetter (by omega)]
  simp only
  rw [whole, UInt8.ofNat_toNat]

/-- What `binascii.hexlify` writes is read back. -/
theorem reads_hexText (bytes : Bytes) : Reads (hexText bytes) bytes := by
  induction bytes with
  | nil => exact reads_nil
  | cons byte bytes inductionHypothesis =>
    exact reads_cons (hexByteOf_nibbles byte) inductionHypothesis

/-- A text of digits holds no space, and is read by `bytearray.fromhex` as well. -/
theorem Reads.fromHex (reads : Reads text bytes) : fromHex text = some bytes := by
  induction bytes generalizing text with
  | nil =>
    rcases reads.split with ⟨rfl, _⟩ | ⟨_, _, _, _, _, _, none, _⟩
    · rfl
    · cases none
  | cons byte bytes inductionHypothesis =>
    rcases reads.split with ⟨_, none⟩ | ⟨high, low, _, rest, _, rfl, same, pair, later⟩
    · cases none
    · obtain ⟨rfl, rfl⟩ := List.cons.inj same
      have digit : high ≠ 32 := by
        rintro rfl
        cases pair
      rw [LedgerNano.fromHex, if_neg digit, pair, inductionHypothesis later]

end Reading

/-! ### `to_le` -/

/-- `[hx[i:i+2] for i in range(0, len(hx), 2)]`. -/
def pairsOf : Bytes → List Bytes
  | [] => []
  | [digit] => [[digit]]
  | first :: second :: rest => [first, second] :: pairsOf rest

/-- `to_le`. -/
def toLe (maxint num byteNumber : Nat) : Bytes :=
  let hx := hexOf maxint num
  let hx := (if hx.length % 2 = 1 then [48] else []) ++ hx
  let hx := (pairsOf hx).reverse.flatten
  hx ++ List.replicate (byteNumber * 2 - hx.length) 48

/-- The bytes of a number without leading zeros, the lowest first; zero has one. -/
def digitBytes (num : Nat) : Bytes :=
  if num = 0 then [0] else (Nat.digits 256 num).map UInt8.ofNat

/-- The number that little-endian bytes denote. -/
def leValue (bytes : Bytes) : Nat := Nat.ofDigits 256 (bytes.map UInt8.toNat)

section LittleEndian

theorem pairsOf_hexText (bytes : Bytes) :
    pairsOf (hexText bytes) = bytes.map fun byte => hexText [byte] := by
  induction bytes with
  | nil => rfl
  | cons byte bytes inductionHypothesis =>
    rw [List.map_cons, ← inductionHypothesis]
    rfl

theorem hexText_flatten (pieces : List Bytes) :
    (pieces.map hexText).flatten = hexText pieces.flatten := by
  induction pieces with
  | nil => rfl
  | cons piece pieces inductionHypothesis =>
    rw [List.map_cons, List.flatten_cons, List.flatten_cons, inductionHypothesis, hexText_append]

/-- Turning the pairs of digits round turns the bytes round. -/
theorem reversed_hexText (bytes : Bytes) :
    (pairsOf (hexText bytes)).reverse.flatten = hexText bytes.reverse := by
  have singles : (bytes.reverse.map fun byte => [byte]).flatten = bytes.reverse := by
    rw [← List.flatMap_def, List.flatMap_singleton']
  rw [pairsOf_hexText, ← List.map_reverse]
  refine Eq.trans ?_ (congrArg hexText singles)
  rw [← hexText_flatten, List.map_map]
  rfl

theorem hexText_zeros (count : Nat) :
    hexText (List.replicate count 0) = List.replicate (count * 2) 48 := by
  induction count with
  | zero => rfl
  | succ count inductionHypothesis =>
    rw [List.replicate_succ, ← List.singleton_append, hexText_append, inductionHypothesis,
      Nat.succ_mul, Nat.add_comm, List.replicate_add]
    rfl

theorem toNat_digits (num : Nat) :
    ((Nat.digits 256 num).map UInt8.ofNat).map UInt8.toNat = Nat.digits 256 num := by
  rw [List.map_map]
  refine (List.map_congr_left fun digit member => ?_).trans (List.map_id _)
  exact UInt8.toNat_ofNat_of_lt (Nat.digits_lt_base (by decide) member)

theorem hexOf_short {maxint num : Nat} (short : num ≤ maxint) : hexOf maxint num =
    if num = 0 then [48] else (Radix.numeral 16 num).map hexLetter := by
  rw [hexOf, if_neg (not_lt.mpr short), List.append_nil]

/-- The printed digits of a number, with a zero in front of an odd number of them, are those of its
bytes. -/
theorem hexOf_padded {maxint num : Nat} (short : num ≤ maxint) :
    (if (hexOf maxint num).length % 2 = 1 then [48] else []) ++ hexOf maxint num =
      hexText (digitBytes num).reverse := by
  rw [hexOf_short short, digitBytes]
  by_cases zero : num = 0
  · rw [if_pos zero, if_pos zero]
    rfl
  rw [if_neg zero, if_neg zero, ← List.map_reverse]
  have value : bytesValue ((Radix.numeral 256 num).map UInt8.ofNat) = num := by
    have digits : ((Radix.numeral 256 num).map UInt8.ofNat).map UInt8.toNat =
        Radix.numeral 256 num := by
      rw [Radix.numeral, List.map_reverse, List.map_reverse, toNat_digits]
    rw [bytesValue, digits, Radix.value_numeral]
  have printed := numeral_bytesValue ((Radix.numeral 256 num).map UInt8.ofNat)
  rw [value] at printed
  rw [printed]
  show _ = hexText ((Radix.numeral 256 num).map UInt8.ofNat)
  cases written : Radix.numeral 256 num with
  | nil =>
    have none := Radix.value_numeral 256 num
    rw [written, Radix.value_nil] at none
    exact absurd none.symm zero
  | cons digit rest =>
    have nonzero := Radix.ne_zero_of_numeral written
    have below : digit < 256 :=
      Radix.numeral_lt (by decide) digit (by rw [written]; exact List.mem_cons_self)
    have first : (UInt8.ofNat digit).toNat = digit := UInt8.toNat_ofNat_of_lt below
    have even := length_nibbles (rest.map UInt8.ofNat)
    rw [List.map_cons, List.flatMap_cons, nibbles, first, hexText, List.flatMap_cons, nibbles,
      first]
    by_cases small : digit < 16
    · -- The first digit of the first byte is a zero, which is not printed.
      have high : digit / 16 = 0 := Nat.div_eq_of_lt small
      have low : ¬ ((digit % 16 == 0) = true) := by
        rw [Nat.mod_eq_of_lt small, beq_iff_eq]
        exact nonzero
      rw [high, List.cons_append, List.dropWhile_cons_of_pos rfl, List.singleton_append,
        List.dropWhile_cons, if_neg low, if_pos (by rw [List.length_map, List.length_cons]; omega)]
      rfl
    · have high : ¬ ((digit / 16 == 0) = true) := by
        rw [beq_iff_eq]
        omega
      rw [List.cons_append, List.dropWhile_cons, if_neg high, if_neg (by
        rw [List.length_map, List.length_cons, List.singleton_append, List.length_cons]
        omega)]
      rfl

/-- `to_le` writes the bytes of a number, the lowest first, and zeros behind them. -/
theorem toLe_eq {maxint num : Nat} (short : num ≤ maxint) (byteNumber : Nat) :
    toLe maxint num byteNumber =
      hexText (digitBytes num ++ List.replicate (byteNumber - (digitBytes num).length) 0) := by
  have fill : byteNumber * 2 - (hexText (digitBytes num)).length =
      (byteNumber - (digitBytes num).length) * 2 := by
    rw [length_hexText]
    omega
  rw [toLe, hexOf_padded short, reversed_hexText, List.reverse_reverse, fill, hexText_append,
    hexText_zeros]

theorem leValue_append_zeros (bytes : Bytes) (count : Nat) :
    leValue (bytes ++ List.replicate count 0) = leValue bytes := by
  rw [leValue, List.map_append, List.map_replicate]
  exact Nat.ofDigits_append_replicate_zero _

theorem leValue_digitBytes (num : Nat) : leValue (digitBytes num) = num := by
  rw [digitBytes]
  by_cases zero : num = 0
  · rw [if_pos zero, zero]
    rfl
  · rw [if_neg zero, leValue, toNat_digits, Nat.ofDigits_digits]

theorem leValue_lt (bytes : Bytes) : leValue bytes < 256 ^ bytes.length := by
  have below := Nat.ofDigits_lt_base_pow_length (b := 256) (by decide) (@toNat_lt_of_mem_map bytes)
  rw [List.length_map] at below
  exact below

theorem length_digitBytes_le {num byteNumber : Nat} (some : 0 < byteNumber)
    (fits : num < 256 ^ byteNumber) : (digitBytes num).length ≤ byteNumber := by
  rw [digitBytes]
  by_cases zero : num = 0
  · rw [if_pos zero]
    exact some
  · rw [if_neg zero, List.length_map]
    exact (Nat.digits_length_le_iff (by decide) num).mpr fits

/-- Bytes of one length are told apart by the numbers they denote. -/
theorem eq_of_leValue_eq {first second : Bytes} (length : first.length = second.length)
    (same : leValue first = leValue second) : first = second := by
  have bytes : ∀ one : Bytes, (one.map UInt8.toNat).map UInt8.ofNat = one := fun one => by
    rw [List.map_map]
    exact (List.map_congr_left fun byte _ => UInt8.ofNat_toNat).trans (List.map_id _)
  have digits := Nat.ofDigits_inj_of_len_eq (b := 256) (by decide)
    (by rw [List.length_map, List.length_map, length]) (@toNat_lt_of_mem_map first)
    (@toNat_lt_of_mem_map second) same
  rw [← bytes first, digits, bytes]

theorem leValue_cons (byte : Byte) (rest : Bytes) :
    leValue (byte :: rest) = byte.toNat + 256 * leValue rest :=
  Nat.ofDigits_cons

theorem leValue_append (first second : Bytes) :
    leValue (first ++ second) = leValue first + 256 ^ first.length * leValue second := by
  rw [leValue, List.map_append, Nat.ofDigits_append, List.length_map]
  rfl

theorem leValue_le32 {value : Nat} (bound : value < 2 ^ 32) : leValue (le32 value) = value := by
  simp only [le32, leValue_cons, UInt8.toNat_ofNat']
  show _ = _
  have none : leValue [] = 0 := rfl
  rw [none]
  omega

theorem leValue_le64 {value : Nat} (bound : value < 2 ^ 64) : leValue (le64 value) = value := by
  have low : le32 value = le32 (value % 2 ^ 32) := by
    refine eq_of_leValue_eq rfl ?_
    simp only [le32, leValue_cons, UInt8.toNat_ofNat']
    omega
  rw [le64, leValue_append, low, leValue_le32 (Nat.mod_lt _ (by decide)), leValue_le32 (by omega),
    length_le32]
  omega

/-- `to_le` writes a number that fits as the given bytes that denote it. -/
theorem toLe_eq_hexText {maxint num byteNumber : Nat} {bytes : Bytes} (short : num ≤ maxint)
    (some : 0 < byteNumber) (length : bytes.length = byteNumber) (value : leValue bytes = num) :
    toLe maxint num byteNumber = hexText bytes := by
  have fits : num < 256 ^ byteNumber := by
    rw [← value, ← length]
    exact leValue_lt bytes
  have few := length_digitBytes_le some fits
  rw [toLe_eq short]
  refine congrArg hexText (eq_of_leValue_eq ?_ ?_)
  · rw [List.length_append, List.length_replicate, length]
    omega
  · rw [leValue_append_zeros, leValue_digitBytes, value]

/-- A text is read only if its letters are digits. -/
theorem Reads.ne_of_mem {text bytes : Bytes} (reads : Reads text bytes) {letter : Byte}
    (member : letter ∈ text) : hexDigit letter ≠ none := by
  induction bytes generalizing text with
  | nil =>
    rcases reads.split with ⟨rfl, _⟩ | ⟨_, _, _, _, _, _, none, _⟩
    · cases member
    · cases none
  | cons byte bytes inductionHypothesis =>
    rcases reads.split with ⟨_, none⟩ | ⟨high, low, _, rest, _, rfl, same, pair, later⟩
    · cases none
    · obtain ⟨rfl, rfl⟩ := List.cons.inj same
      intro none
      rcases List.mem_cons.mp member with rfl | member
      · rw [hexByteOf, none] at pair
        cases pair
      rcases List.mem_cons.mp member with rfl | member
      · rw [hexByteOf, none] at pair
        cases first : hexDigit high with
        | none =>
          rw [first] at pair
          cases pair
        | some digit =>
          rw [first] at pair
          cases pair
      · exact inductionHypothesis later member none

theorem flatten_pairsOf (text : Bytes) : (pairsOf text).flatten = text := by
  induction text using pairsOf.induct with
  | case1 => rfl
  | case2 => rfl
  | case3 first second rest inductionHypothesis =>
    rw [pairsOf, List.flatten_cons, inductionHypothesis]
    rfl

/-- Every letter of the printed number stands in the text of `to_le`. -/
theorem mem_toLe {maxint num : Nat} (byteNumber : Nat) {letter : Byte}
    (member : letter ∈ hexOf maxint num) : letter ∈ toLe maxint num byteNumber := by
  refine List.mem_append_left _ ?_
  rw [List.mem_flatten]
  simp only [List.mem_reverse]
  rw [← List.mem_flatten, flatten_pairsOf]
  exact List.mem_append_right _ member

/-- The text of `to_le` stands for the number of bytes asked for, and these denote the number,
exactly when the number fits and is not printed with an `L`. -/
theorem to_le_exact_iff (maxint num byteNumber : Nat) (some : 0 < byteNumber) :
    (∃ bytes, Reads (toLe maxint num byteNumber) bytes ∧ bytes.length = byteNumber ∧
      leValue bytes = num) ↔ num < 256 ^ byteNumber ∧ num ≤ maxint := by
  constructor
  · rintro ⟨bytes, reads, length, value⟩
    refine ⟨?_, not_lt.mp fun long => ?_⟩
    · rw [← length, ← value]
      exact leValue_lt bytes
    · have suffix : (76 : Byte) ∈ hexOf maxint num := by
        rw [hexOf, if_pos long]
        exact List.mem_append_right _ (List.mem_singleton.mpr rfl)
      exact reads.ne_of_mem (mem_toLe byteNumber suffix) rfl
  · rintro ⟨fits, short⟩
    have few := length_digitBytes_le some fits
    refine ⟨_, ?_, ?_, (leValue_append_zeros _ (byteNumber - (digitBytes num).length)).trans
      (leValue_digitBytes num)⟩
    · rw [toLe_eq short]
      exact reads_hexText _
    · rw [List.length_append, List.length_replicate]
      omega

/-- Three hundred fits four bytes. -/
theorem to_le_exact_iff_sample : ∃ bytes, Reads (toLe (2 ^ 63 - 1) 300 4) bytes ∧
    bytes.length = 4 ∧ leValue bytes = 300 :=
  (to_le_exact_iff (2 ^ 63 - 1) 300 4 (by decide)).mpr ⟨by decide, by decide⟩

end LittleEndian

end LedgerNano
