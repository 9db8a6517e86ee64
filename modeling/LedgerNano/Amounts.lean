/-
This file is about the amount on the screen.

The coins of an output go through an `int` and through a print that keeps 15 characters.
The text always denotes some amount or begins with a sign (`amountText_eq`); it is the
output's own exactly when the whole part fits an `int` and the characters that were cut
off are zeros (`amount_shown_iff`).
-/

import LedgerNano.Moves
import LedgerNano.Library.Radix
import Mathlib.Data.Rat.Cast.Order
import Mathlib.Tactic.FieldSimp

namespace LedgerNano

/-! ### Decimal numerals -/

/-- A decimal digit. -/
def IsDigit (letter : Byte) : Prop :=
  48 ≤ letter.toNat ∧ letter.toNat ≤ 57

/-- The number some digits denote. -/
def decimalValue (text : Bytes) : Nat :=
  Radix.value 10 (text.map fun letter => letter.toNat - 48)

/-- A text is a decimal numeral without zeros at the end of its fraction, and denotes a number. -/
structure Denotes (text : Bytes) (amount : ℚ) : Prop where
  numeral : ∃ whole fraction : Bytes, text = whole ++ 46 :: fraction ∧ whole ≠ [] ∧
    (∀ letter ∈ whole, IsDigit letter) ∧ (∀ letter ∈ fraction, IsDigit letter) ∧
    fraction.getLast? ≠ some 48 ∧
      (decimalValue whole : ℚ) + decimalValue fraction / 10 ^ fraction.length = amount

section Digits

theorem digitChar_toNat : ∀ digit, digit < 10 → (Nat.digitChar digit).toNat = 48 + digit := by
  decide

/-- The last digit of a number stands behind the others. -/
theorem decimalDigits_eq (value : Nat) : decimalDigits value =
    (if value < 10 then [] else decimalDigits (value / 10)) ++ [UInt8.ofNat (48 + value % 10)] := by
  rw [decimalDigits, Nat.toDigits_eq_if (by decide)]
  by_cases single : value < 10
  · rw [if_pos single, if_pos single, List.map_singleton, digitChar_toNat value single,
      Nat.mod_eq_of_lt single]
    rfl
  · rw [if_neg single, if_neg single, List.map_append, List.map_singleton,
      digitChar_toNat _ (Nat.mod_lt value (by decide))]
    rfl

theorem toNat_digit {digit : Nat} (below : digit < 10) :
    (UInt8.ofNat (48 + digit)).toNat = 48 + digit :=
  UInt8.toNat_ofNat_of_lt' (show _ < 256 by omega)

theorem decimalDigits_isDigit (value : Nat) : ∀ letter ∈ decimalDigits value, IsDigit letter := by
  induction value using Nat.strongRecOn with
  | ind value inductionHypothesis =>
    rw [decimalDigits_eq]
    intro letter member
    rcases List.mem_append.mp member with front | last
    · by_cases single : value < 10
      · rw [if_pos single] at front
        exact absurd front List.not_mem_nil
      · rw [if_neg single] at front
        exact inductionHypothesis (value / 10) (by omega) letter front
    · have bound := Nat.mod_lt value (by decide : 0 < 10)
      rw [List.mem_singleton.mp last, IsDigit, toNat_digit bound]
      omega

theorem decimalValue_append (first second : Bytes) : decimalValue (first ++ second) =
    decimalValue first * 10 ^ second.length + decimalValue second := by
  rw [decimalValue, List.map_append, Radix.value_append, List.length_map]
  rfl

theorem decimalValue_decimalDigits (value : Nat) : decimalValue (decimalDigits value) = value := by
  induction value using Nat.strongRecOn with
  | ind value inductionHypothesis =>
    have last : decimalValue [UInt8.ofNat (48 + value % 10)] = value % 10 := by
      rw [decimalValue, List.map_singleton, Radix.value_singleton,
        toNat_digit (Nat.mod_lt value (by decide)), Nat.add_sub_cancel_left]
    rw [decimalDigits_eq, decimalValue_append, last, List.length_singleton]
    by_cases single : value < 10
    · rw [if_pos single]
      show 0 * _ + _ = _
      omega
    · rw [if_neg single, inductionHypothesis (value / 10) (by omega)]
      omega

theorem length_decimalDigits_le_iff {value count : Nat} (positive : 0 < count) :
    (decimalDigits value).length ≤ count ↔ value < 10 ^ count := by
  rw [decimalDigits, List.length_map, Nat.length_toDigits_le_iff (by decide) positive]

theorem decimalDigits_ne_nil (value : Nat) : decimalDigits value ≠ [] := by
  rw [decimalDigits_eq]
  exact List.append_ne_nil_of_right_ne_nil _ (List.cons_ne_nil _ _)

theorem decimalValue_lt {text : Bytes} (digits : ∀ letter ∈ text, IsDigit letter) :
    decimalValue text < 10 ^ text.length := by
  have small : ∀ digit ∈ text.map fun letter => letter.toNat - 48, digit < 10 := by
    intro digit member
    obtain ⟨letter, inside, rfl⟩ := List.mem_map.mp member
    obtain ⟨_, upper⟩ := digits letter inside
    omega
  have below := Radix.value_lt (by decide) small
  rw [List.length_map] at below
  exact below

theorem decimalValue_zeros (count : Nat) : decimalValue (List.replicate count 48) = 0 := by
  refine Radix.value_eq_zero fun digit member => ?_
  rw [List.map_replicate] at member
  exact List.eq_of_mem_replicate member

/-- `%06d` prints six digits of a number that has no more. -/
theorem formatPadded_spec {value : Nat} (small : value < 10 ^ 6) :
    (formatPadded value).length = 6 ∧ (∀ letter ∈ formatPadded value, IsDigit letter) ∧
      decimalValue (formatPadded value) = value := by
  have short := (length_decimalDigits_le_iff (by decide)).mpr small
  refine ⟨?_, fun letter member => ?_, ?_⟩
  · rw [formatPadded, List.length_append, List.length_replicate]
    omega
  · rcases List.mem_append.mp member with front | back
    · rw [List.eq_of_mem_replicate front]
      exact ⟨by decide, by decide⟩
    · exact decimalDigits_isDigit value letter back
  · rw [formatPadded, decimalValue_append, decimalValue_zeros, decimalValue_decimalDigits,
      Nat.zero_mul, Nat.zero_add]

end Digits

/-! ### Cutting and stripping -/

section Stripping

/-- Stripping stops at a letter that is none of those stripped. -/
theorem rdropWhile_append_cons {strip : Byte → Bool} (front back : Bytes) {letter : Byte}
    (stop : ¬ strip letter = true) : (front ++ letter :: back).rdropWhile strip =
      front ++ letter :: back.rdropWhile strip := by
  induction back using List.reverseRecOn with
  | nil =>
    rw [List.rdropWhile_nil]
    exact List.rdropWhile_concat_neg strip front letter stop
  | append_singleton back last inductionHypothesis =>
    rw [← List.cons_append, ← List.append_assoc]
    by_cases stripped : strip last = true
    · rw [List.rdropWhile_concat_pos strip _ last stripped,
        List.rdropWhile_concat_pos strip _ last stripped, inductionHypothesis]
    · rw [List.rdropWhile_concat_neg strip _ last stripped,
        List.rdropWhile_concat_neg strip _ last stripped, List.append_assoc]
      rfl

/-- Zeros at the end of a fraction do not count. -/
theorem stripped_value (fraction : Bytes) :
    (decimalValue (fraction.rdropWhile (· == 48)) : ℚ) /
        10 ^ (fraction.rdropWhile (· == 48)).length =
      decimalValue fraction / 10 ^ fraction.length := by
  induction fraction using List.reverseRecOn with
  | nil => rw [List.rdropWhile_nil]
  | append_singleton front last inductionHypothesis =>
    by_cases zero : (last == 48) = true
    · have value : decimalValue (front ++ [last]) = decimalValue front * 10 := by
        rw [decimalValue_append, eq_of_beq zero]
        rfl
      rw [List.rdropWhile_concat_pos _ _ last zero, inductionHypothesis, value, List.length_append,
        List.length_singleton, pow_succ]
      push_cast
      field_simp
    · rw [List.rdropWhile_concat_neg _ _ last zero]

theorem getLast?_rdropWhile (fraction : Bytes) :
    (fraction.rdropWhile (· == 48)).getLast? ≠ some 48 := by
  intro last
  cases stripped : fraction.rdropWhile (· == 48) with
  | nil =>
    rw [stripped] at last
    cases last
  | cons letter rest =>
    have some : fraction.rdropWhile (· == 48) ≠ [] := by
      rw [stripped]
      exact List.cons_ne_nil _ _
    rw [List.getLast?_eq_some_getLast some, Option.some_inj] at last
    exact List.rdropWhile_last_not _ _ some (beq_iff_eq.mpr last)

end Stripping

/-! ### The printed amount -/

section Printed

theorem toInt32_bounds (value : Nat) : -2 ^ 31 ≤ toInt32 value ∧ toInt32 value < 2 ^ 31 :=
  ⟨Int.le_bmod (by decide), Int.bmod_lt (by decide)⟩

theorem toInt32_eq_iff (value : Nat) : toInt32 value = value ↔ value < 2 ^ 31 := by
  obtain ⟨_, upper⟩ := toInt32_bounds value
  constructor
  · intro same
    omega
  · intro small
    exact Int.bmod_eq_of_le (by omega) (by omega)

/-- The whole part has at most eleven characters. -/
theorem length_formatInt (value : Nat) : (formatInt (toInt32 value)).length ≤ 11 := by
  obtain ⟨lower, upper⟩ := toInt32_bounds value
  have bound : (toInt32 value).natAbs < 10 ^ 10 := by omega
  have digits := (length_decimalDigits_le_iff (by decide)).mpr bound
  rw [formatInt]
  split
  · rw [List.length_cons]
    omega
  · omega

/-- The text is the whole part, a point, and what is left of the fraction. -/
theorem amountText_eq (output : TxnOutput) : amountText output =
    formatInt (toInt32 (output.coinNum / skyCoins)) ++ 46 ::
      ((formatPadded (output.coinNum % skyCoins)).take
        (14 - (formatInt (toInt32 (output.coinNum / skyCoins))).length)).rdropWhile (· == 48) := by
  have short := length_formatInt (output.coinNum / skyCoins)
  rw [amountText, sprintf, screenMaxChars, List.append_assoc, List.take_append,
    List.take_of_length_le (by omega), List.singleton_append]
  have room : 16 - 1 - (formatInt (toInt32 (output.coinNum / skyCoins))).length =
      (14 - (formatInt (toInt32 (output.coinNum / skyCoins))).length) + 1 := by omega
  rw [room, List.take_succ_cons]
  exact rdropWhile_append_cons _ _ (by decide)

/-- What the kept digits of a fraction are worth. -/
theorem kept_value {coins : Nat} (small : coins < 10 ^ 6) {length : Nat} (fits : length ≤ 14) :
    (decimalValue ((formatPadded coins).take (14 - length)) : ℚ) /
        10 ^ ((formatPadded coins).take (14 - length)).length =
      ((coins / 10 ^ (length - 8) * 10 ^ (length - 8) : Nat) : ℚ) / 10 ^ 6 := by
  obtain ⟨six, digits, value⟩ := formatPadded_spec small
  set kept := (formatPadded coins).take (14 - length) with keptIs
  set cut := (formatPadded coins).drop (14 - length) with cutIs
  have keptLength : kept.length + (length - 8) = 6 := by
    rw [keptIs, List.length_take, six]
    omega
  have cutLength : cut.length = length - 8 := by
    rw [cutIs, List.length_drop, six]
    omega
  have whole : decimalValue kept * 10 ^ (length - 8) + decimalValue cut = coins := by
    rw [← cutLength, ← decimalValue_append, List.take_append_drop, value]
  have below : decimalValue cut < 10 ^ (length - 8) := by
    rw [← cutLength]
    exact decimalValue_lt fun letter member => digits letter (List.mem_of_mem_drop member)
  have quotient : coins / 10 ^ (length - 8) = decimalValue kept := by
    rw [← whole, Nat.mul_comm, Nat.mul_add_div (Nat.pow_pos (by decide)), Nat.div_eq_of_lt below,
      Nat.add_zero]
  have split : (10 : ℚ) ^ 6 = 10 ^ kept.length * 10 ^ (length - 8) := by
    rw [← pow_add, keptLength]
  rw [quotient, split]
  push_cast
  field_simp

theorem isDigit_ne_point {text : Bytes} (digits : ∀ letter ∈ text, IsDigit letter) :
    (46 : Byte) ∉ text := by
  intro member
  have digit := (digits 46 member).1
  revert digit
  decide

/-- A text with a point denotes what its two parts are worth. -/
theorem denotes_iff {whole fraction : Bytes} {amount : ℚ} (some : whole ≠ [])
    (digits : ∀ letter ∈ whole, IsDigit letter) (behind : ∀ letter ∈ fraction, IsDigit letter)
    (stripped : fraction.getLast? ≠ Option.some 48) :
    Denotes (whole ++ 46 :: fraction) amount ↔
      (decimalValue whole : ℚ) + decimalValue fraction / 10 ^ fraction.length = amount := by
  constructor
  · rintro ⟨first, second, same, _, firstDigits, _, _, value⟩
    obtain ⟨rfl, _, rfl⟩ := (List.append_cons_inj_of_notMem (isDigit_ne_point digits)
      (isDigit_ne_point behind)).mp same
    exact value
  · intro value
    exact ⟨whole, fraction, rfl, some, digits, behind, stripped, value⟩

/-- A text that begins with a sign denotes nothing. -/
theorem not_denotes_of_sign {rest : Bytes} {amount : ℚ} : ¬ Denotes (45 :: rest) amount := by
  rintro ⟨whole, fraction, same, some, digits, _⟩
  cases whole with
  | nil => exact some rfl
  | cons letter later =>
    rw [List.cons_append] at same
    have sign := (digits letter List.mem_cons_self).1
    rw [← (List.cons.inj same).1] at sign
    revert sign
    decide

end Printed

/-! ### The amount on the screen -/

/-- The string in `transactionContext.amount` after `prepare_output_approval`. -/
def Device.shownAmount (sdk : Sdk) (device : Device) : Bytes :=
  textOf (prepareOutputApproval sdk device).transactionContext.amount

/-- The coins of the output that is shown. -/
def Device.coins (device : Device) : Nat :=
  device.signTxnContext.txn.curOutput.coinNum

/-- The whole part fits an `int`, and what the print cuts off is zero: of a whole part of nine
digits the last digit of the fraction, of one of ten the last two. -/
def AmountFits (coins : Nat) : Prop :=
  coins < 2 ^ 31 * skyCoins ∧ (10 ^ 14 ≤ coins → 10 ∣ coins) ∧ (10 ^ 15 ≤ coins → 100 ∣ coins)

instance (coins : Nat) : Decidable (AmountFits coins) :=
  inferInstanceAs (Decidable (_ ∧ _))

section Shown

variable {output : TxnOutput}

/-- The fraction that is kept holds digits only. -/
theorem fraction_isDigit (coins length : Nat) :
    ∀ letter ∈ ((formatPadded (coins % skyCoins)).take length).rdropWhile (· == 48),
      IsDigit letter := by
  obtain ⟨_, digits, _⟩ := formatPadded_spec (Nat.mod_lt coins (by decide : 0 < skyCoins))
  intro letter member
  exact digits letter (List.mem_of_mem_take ((List.rdropWhile_prefix _ _).subset member))

/-- A whole part that is printed without a sign. -/
theorem denotes_printed_iff {shown coins : Nat} (small : shown < 2 ^ 31) (amount : ℚ) :
    Denotes (decimalDigits shown ++ 46 :: ((formatPadded (coins % skyCoins)).take
        (14 - (decimalDigits shown).length)).rdropWhile (· == 48)) amount ↔
      ((shown * skyCoins + coins % skyCoins / 10 ^ ((decimalDigits shown).length - 8) *
        10 ^ ((decimalDigits shown).length - 8) : Nat) : ℚ) / skyCoins = amount := by
  have short : (decimalDigits shown).length ≤ 10 :=
    (length_decimalDigits_le_iff (by decide)).mpr (by omega)
  have modulus : coins % skyCoins < 10 ^ 6 := Nat.mod_lt coins (by decide)
  rw [denotes_iff (decimalDigits_ne_nil shown) (decimalDigits_isDigit shown)
    (fraction_isDigit coins _) (getLast?_rdropWhile _), stripped_value,
    kept_value modulus (by omega), decimalValue_decimalDigits]
  have million : (skyCoins : ℚ) = 10 ^ 6 := by norm_num [skyCoins]
  rw [Nat.cast_add, Nat.cast_mul shown, million, add_div,
    mul_div_cancel_right₀ _ (by norm_num : (10 : ℚ) ^ 6 ≠ 0)]

/-- How many digits a whole part has that fits an `int`. -/
theorem length_decimalDigits_cases {shown : Nat} (small : shown < 2 ^ 31) :
    shown < 10 ^ 8 ∧ (decimalDigits shown).length - 8 = 0 ∨
      10 ^ 8 ≤ shown ∧ shown < 10 ^ 9 ∧ (decimalDigits shown).length - 8 = 1 ∨
        10 ^ 9 ≤ shown ∧ (decimalDigits shown).length - 8 = 2 := by
  have eight := @length_decimalDigits_le_iff shown 8 (by decide)
  have nine := @length_decimalDigits_le_iff shown 9 (by decide)
  have ten := (@length_decimalDigits_le_iff shown 10 (by decide)).mpr
    (by omega)
  omega

/-- The printed amount is the output's own exactly when it fits. -/
theorem denotes_amountText_iff (output : TxnOutput) :
    Denotes (amountText output) ((output.coinNum : ℚ) / skyCoins) ↔ AmountFits output.coinNum := by
  set coins := output.coinNum with coinsIs
  set whole := coins / skyCoins with wholeIs
  obtain ⟨lower, upper⟩ := toInt32_bounds whole
  have fits := toInt32_eq_iff whole
  have million : skyCoins = 1000000 := rfl
  rw [amountText_eq, formatInt]
  by_cases negative : toInt32 whole < 0
  · rw [if_pos negative, List.cons_append]
    refine iff_of_false not_denotes_of_sign fun within => ?_
    have bound := within.1
    rw [million] at bound wholeIs
    omega
  · rw [if_neg negative]
    have small : (toInt32 whole).natAbs < 2 ^ 31 := by omega
    rw [denotes_printed_iff small, div_left_inj' (by norm_num [skyCoins]), Nat.cast_inj, AmountFits]
    rw [million] at wholeIs ⊢
    rcases length_decimalDigits_cases small with ⟨digits, zeros⟩ | ⟨_, digits, zeros⟩ |
      ⟨digits, zeros⟩ <;> rw [zeros] <;> omega

/-- The text on the screen is the printed amount. -/
theorem shownAmount_eq (sdk : Sdk) (device : Device) :
    device.shownAmount sdk = amountText device.signTxnContext.txn.curOutput := by
  have length := length_amountText device.signTxnContext.txn.curOutput
  rw [Device.shownAmount, prepareOutputApproval_amount]
  refine textOf_storeText _ _ (by omega) fun letter member zero => ?_
  subst zero
  have digit : ¬ IsDigit 0 := fun digit => absurd digit.1 (by decide)
  rw [amountText_eq] at member
  rcases List.mem_append.mp member with front | back
  · rw [formatInt] at front
    split at front
    · rcases List.mem_cons.mp front with sign | later
      · cases sign
      · exact digit (decimalDigits_isDigit _ 0 later)
    · exact digit (decimalDigits_isDigit _ 0 front)
  · rcases List.mem_cons.mp back with point | later
    · cases point
    · exact digit (fraction_isDigit _ _ 0 later)

/-- A text denotes one number. -/
theorem Denotes.unique {text : Bytes} {first second : ℚ} (one : Denotes text first)
    (other : Denotes text second) : first = second := by
  obtain ⟨whole, fraction, rfl, some, digits, behind, stripped, value⟩ := one
  rw [← value]
  exact (denotes_iff some digits behind stripped).mp other

end Shown

/-- The amount shown is the amount sent exactly when it fits; and amounts that fit are shown alike
only if they are the same. -/
theorem amount_shown_iff (sdk : Sdk) (device : Device) :
    (Denotes (device.shownAmount sdk) ((device.coins : ℚ) / skyCoins) ↔ AmountFits device.coins) ∧
      ∀ other : Device, AmountFits device.coins ∧ AmountFits other.coins →
        (device.shownAmount sdk = other.shownAmount sdk ↔ device.coins = other.coins) := by
  have shown : ∀ any : Device,
      Denotes (any.shownAmount sdk) ((any.coins : ℚ) / skyCoins) ↔ AmountFits any.coins := by
    intro any
    rw [shownAmount_eq]
    exact denotes_amountText_iff any.signTxnContext.txn.curOutput
  refine ⟨shown device, fun other ⟨fits, fitsOther⟩ => ⟨fun same => ?_, fun same => ?_⟩⟩
  · have mine := (shown device).mpr fits
    rw [same] at mine
    have values := mine.unique ((shown other).mpr fitsOther)
    rwa [div_left_inj' (by norm_num [skyCoins]), Nat.cast_inj] at values
  · rw [shownAmount_eq, shownAmount_eq]
    show amountText _ = amountText _
    have coins : device.signTxnContext.txn.curOutput.coinNum =
      other.signTxnContext.txn.curOutput.coinNum := same
    rw [amountText, amountText, coins]

/-- An output of 2 ^ 32 SKY. -/
def largeOutput : Bytes :=
  List.replicate 21 0 ++ [0, 0, 0, 0, 0x40, 0x42, 0x0F, 0] ++ List.replicate 8 0

/-- A device that has read it. -/
def largeOutputDevice : Device :=
  { Device.boot with signTxnContext.txn.curOutput := TxnOutput.ofBytes largeOutput }

theorem amount_can_be_shown_wrong : ¬ ∀ (sdk : Sdk) (device : Device) (bytes : Bytes),
    bytes.length = 37 → device.signTxnContext.txn.curOutput = TxnOutput.ofBytes bytes →
      Denotes (device.shownAmount sdk) ((device.coins : ℚ) / skyCoins) := by
  intro all
  have shown := all Sdk.plain largeOutputDevice largeOutput rfl rfl
  rw [shownAmount_eq] at shown
  have text : amountText largeOutputDevice.signTxnContext.txn.curOutput = [48] ++ 46 :: [] := by
    decide
  rw [text, denotes_iff (by decide) (fun letter member => by
    rw [List.mem_singleton.mp member]; exact ⟨by decide, by decide⟩) (fun letter member =>
      absurd member List.not_mem_nil) (by decide)] at shown
  have coins : largeOutputDevice.coins = 4294967296000000 := by decide
  have whole : decimalValue [48] = 0 := by decide
  have fraction : decimalValue [] = 0 := rfl
  rw [coins, whole, fraction] at shown
  norm_num [skyCoins] at shown

end LedgerNano
