/-
This file is about the addresses a user types into the host's script, and those he sees.

`Output` of the script takes a base-58 text apart without a look at its checksum, and sends the
version and the hash; the device computes a checksum of its own and shows the text with that one. So
the device shows what was typed exactly when this is an address, with the right checksum
(`typed_addresses_are_shown_iff`). A mistyped text is paid as well, under another text on the
screen.
-/

import LedgerNano.Encoders
import LedgerNano.Overlooked

namespace LedgerNano

/-! ### Texts and numbers -/

theorem base58Letter_letterIndex {letter : Byte} (inside : letter ∈ base58Alphabet) :
    base58Letter (letterIndex letter) = letter ∧ letterIndex letter < 58 ∧
      (letterIndex letter = 0 → letter = 49) := by
  have letters : ∀ letter ∈ base58Alphabet, base58Letter (letterIndex letter) = letter ∧
      letterIndex letter < 58 ∧ (letterIndex letter = 0 → letter = 49) := by decide +kernel
  exact letters letter inside

/-- What the script decodes holds letters of the alphabet only. -/
theorem letters_of_decode {text : Bytes} {before number : Nat}
    (decoded : text.foldlM (fun result c => (base58Index c).map fun index =>
      result * 58 + index) before = some number) : ∀ letter ∈ text, letter ∈ base58Alphabet := by
  induction text generalizing before with
  | nil => exact fun _ member => absurd member List.not_mem_nil
  | cons letter rest inductionHypothesis =>
    rw [List.foldlM_cons, base58Index] at decoded
    by_cases inside : letter ∈ base58Alphabet
    · rw [if_pos inside] at decoded
      exact List.forall_mem_cons.mpr ⟨inside, inductionHypothesis decoded⟩
    · rw [if_neg inside] at decoded
      cases decoded

/-- A text without leading ones is the numeral of the number it is decoded to. -/
theorem text_of_decode {text : Bytes} {number : Nat} (decoded : base58decode text = some number)
    (plain : text.head? ≠ some 49) : text = (Radix.numeral 58 number).map base58Letter := by
  have letters := letters_of_decode decoded
  have below : ∀ digit ∈ text.map letterIndex, digit < 58 := by
    intro digit member
    obtain ⟨letter, inside, rfl⟩ := List.mem_map.mp member
    exact (base58Letter_letterIndex (letters letter inside)).2.1
  have spelt : (text.map letterIndex).map base58Letter = text := by
    rw [List.map_map]
    refine (List.map_congr_left fun letter inside => ?_).trans (List.map_id _)
    exact (base58Letter_letterIndex (letters letter inside)).1
  have value : number = Radix.value 58 (text.map letterIndex) := by
    have read := base58decode_letters (text.map letterIndex) below 0
    rw [spelt, Nat.zero_mul, Nat.zero_add] at read
    exact Option.some.inj (decoded.symm.trans read)
  have leading : (text.map letterIndex).dropWhile (· == 0) = text.map letterIndex := by
    cases text with
    | nil => rfl
    | cons letter rest =>
      refine List.dropWhile_cons_of_neg fun zero => plain (congrArg some ?_)
      exact (base58Letter_letterIndex (letters letter List.mem_cons_self)).2.2 (eq_of_beq zero)
  rw [value, Radix.numeral_value (by decide) below, leading, spelt]

/-- A numeral does not begin with a one, the letter of the digit zero. -/
theorem head_numeral (number : Nat) :
    ((Radix.numeral 58 number).map base58Letter).head? ≠ some 49 := by
  cases digits : Radix.numeral 58 number with
  | nil => exact Option.some_ne_none 49 ∘ Eq.symm
  | cons digit rest =>
    intro one
    have below : digit < 58 :=
      Radix.numeral_lt (by decide) digit (by rw [digits]; exact List.mem_cons_self)
    have same : letterIndex (base58Letter digit) = letterIndex 49 :=
      congrArg letterIndex (Option.some.inj one)
    rw [letterIndex_base58Letter below] at same
    exact Radix.ne_zero_of_numeral digits same

/-- The string of bytes that do not begin with a zero has no leading ones. -/
theorem encodeBase58_large {first : Byte} {rest : Bytes} (large : 16 ≤ first.toNat)
    (short : (first :: rest).length ≤ 25) : encodeBase58 (first :: rest) =
      (Radix.numeral 58 (bytesValue (first :: rest))).map base58Letter := by
  have positive : ¬ (first == 0) = true := by
    intro zero
    rw [eq_of_beq zero] at large
    exact absurd large (by decide)
  have none : (first :: rest).takeWhile (· == 0) = [] := List.takeWhile_cons_of_neg positive
  rw [encodeBase58_eq _ short, none]
  rfl

/-! ### Addresses -/

/-- A text is the address of a record: 25 bytes in base 58, of which the last four are the checksum
of the others. -/
structure IsAddress (sdk : Sdk) (text record : Bytes) : Prop where
  length : record.length = 25
  large : 16 ≤ byteAt record 0
  value : base58decode text = some (bytesValue record)
  plain : text.head? ≠ some 49
  checksum : record.drop 21 = (sdk.sha256 (record.take 21)).read 0 4

section Shown

variable {sdk : Sdk} {maxint : Nat} {text addr hash record : Bytes} {version : Byte}

theorem outputAddr_of_decode {number : Nat} (decoded : base58decode text = some number) :
    outputAddr maxint text = some (((hexOf maxint number).drop 40).take 2 ++
      (hexOf maxint number).take 40) := by
  rw [outputAddr, decoded]
  rfl

/-- What the script cuts out of a number of fifty hexadecimal digits. -/
theorem outputAddr_of_value {first : Byte} {tail behind : Bytes} (large : 16 ≤ first.toNat)
    (twenty : (first :: tail).length = 20)
    (value : base58decode text = some (bytesValue (first :: tail ++ [version] ++ behind))) :
    outputAddr maxint text = some (hexText (version :: first :: tail)) := by
  obtain ⟨more, printed⟩ := hexOf_of_large maxint large (tail ++ [version] ++ behind)
  have hashText : (hexText (first :: tail)).length = 40 := by rw [length_hexText, twenty]
  have pieces : hexText (first :: (tail ++ [version] ++ behind)) =
      hexText (first :: tail) ++ (hexText [version] ++ hexText behind) := by
    rw [← hexText_append, ← hexText_append, ← List.append_assoc]
    rfl
  have whole : first :: tail ++ [version] ++ behind = first :: (tail ++ [version] ++ behind) := rfl
  have joined : hexText (version :: first :: tail) = hexText [version] ++ hexText (first :: tail) :=
    hexText_append [version] (first :: tail)
  rw [outputAddr_of_decode value, whole, printed, pieces, List.append_assoc,
    List.drop_left' hashText, List.take_left' hashText, List.append_assoc,
    List.take_left' (by rw [length_hexText]; rfl), joined]

theorem hexDigit_small {letter : Byte} {digit : Nat} (read : hexDigit letter = some digit) :
    digit < 16 ∧ (digit = 0 → letter = 48) := by
  unfold hexDigit at read
  split at read
  · cases read
    exact ⟨by omega, fun zero => UInt8.toNat_inj.mp (show letter.toNat = 48 by omega)⟩
  · split at read
    · cases read
      exact ⟨by omega, fun zero => by omega⟩
    · split at read
      · cases read
        exact ⟨by omega, fun zero => by omega⟩
      · cases read

/-- A byte whose first digit is not a zero. -/
theorem hexByteOf_large {high low byte : Byte} (notZero : high ≠ 48)
    (pair : hexByteOf high low = some byte) : 16 ≤ byte.toNat := by
  unfold hexByteOf at pair
  cases first : hexDigit high with
  | none =>
    rw [first] at pair
    cases pair
  | some one =>
    cases second : hexDigit low with
    | none =>
      rw [first, second] at pair
      cases pair
    | some other =>
      rw [first, second] at pair
      cases pair
      obtain ⟨boundOne, zero⟩ := hexDigit_small first
      have boundOther := (hexDigit_small second).1
      have positive : one ≠ 0 := fun none => notZero (zero none)
      rw [UInt8.toNat_ofNat_of_lt' (show 16 * one + other < 256 by omega)]
      omega

/-- A hash that the script cuts out does not begin with a zero digit. -/
theorem large_of_reads (made : outputAddr maxint text = some addr) (twenty : hash.length = 20)
    (reads : Reads addr (version :: hash)) : 16 ≤ byteAt hash 0 := by
  cases decoded : base58decode text with
  | none =>
    rw [outputAddr, decoded] at made
    cases made
  | some number =>
    have cut := Option.some.inj (made.symm.trans (outputAddr_of_decode decoded))
    have length := reads.length
    rw [cut, List.length_append, List.length_take, List.length_drop, List.length_take,
      List.length_cons, twenty] at length
    have head : (hexOf maxint number).head? ≠ some (hexLetter 0) := head_hexOf maxint (by omega)
    have front : (((hexOf maxint number).drop 40).take 2).length = 2 * 1 := by
      rw [List.length_take, List.length_drop]
      omega
    have rest := reads.drop 1
    rw [cut, List.drop_left' front] at rest
    rcases rest.split with ⟨none, _⟩ | ⟨high, low, byte, letters, bytes, split, same, pair, _⟩
    · have empty := congrArg List.length none
      rw [List.length_take, List.length_nil] at empty
      omega
    · have notZero : high ≠ 48 := by
        intro zero
        have begins : ((hexOf maxint number).take 40).head? = some high := by rw [split]; rfl
        rw [List.head?_take, if_neg (by decide), zero] at begins
        exact head begins
      have large := hexByteOf_large notZero pair
      have whole : hash = byte :: bytes := same
      rw [whole]
      exact large

/-- The record of an address: its hash, its version and the checksum of both. -/
theorem IsAddress.split (address : IsAddress sdk text record) :
    ∃ first tail, ∃ version : Byte, (first :: tail).length = 20 ∧ 16 ≤ first.toNat ∧
      record = addressRecord sdk (first :: tail) version := by
  have cut := List.take_append_drop 20 record
  have front : (record.take 20).length = 20 := by rw [List.length_take, address.length]; rfl
  have back : (record.drop 20).length = 5 := by rw [List.length_drop, address.length]
  have large := address.large
  have checksum := address.checksum
  cases hash : record.take 20 with
  | nil =>
    rw [hash] at front
    cases front
  | cons first tail =>
    cases rest : record.drop 20 with
    | nil =>
      rw [rest] at back
      cases back
    | cons version behind =>
      rw [hash] at front cut
      rw [rest] at cut
      have whole : record = (first :: tail ++ [version]) ++ behind := by
        rw [← cut, List.append_assoc]
        rfl
      have versioned : (first :: tail ++ [version]).length = 21 := by
        rw [List.length_append, front]
        rfl
      rw [whole, List.drop_left' versioned, List.take_left' versioned] at checksum
      rw [whole] at large ⊢
      exact ⟨first, tail, version, front, large, by rw [addressRecord, ← checksum]⟩

/-- The device shows the text an address was typed as exactly when it is one. -/
theorem shown_iff (made : outputAddr maxint text = some addr) (twenty : hash.length = 20)
    (reads : Reads addr (version :: hash)) :
    addressToBase58 sdk (version :: hash) = text ↔ ∃ record, IsAddress sdk text record := by
  have large := large_of_reads made twenty reads
  rw [addressToBase58_cons sdk twenty]
  constructor
  · intro same
    cases hash with
    | nil => cases twenty
    | cons first tail =>
      have versioned : (first :: tail ++ [version]).length = 21 := by
        rw [List.length_append, twenty]
        rfl
      have length : (addressRecord sdk (first :: tail) version).length = 25 := by
        rw [addressRecord, List.length_append, versioned, Cells.length_read _ 0 4 (by decide)]
      refine ⟨addressRecord sdk (first :: tail) version, length, large, ?_, ?_, ?_⟩
      · rw [← same]
        exact base58decode_encodeBase58 _ (le_of_eq length)
      · have plain := encodeBase58_large large (le_of_eq length)
        rw [← same]
        exact fun one => head_numeral _ ((congrArg List.head? plain).symm.trans one)
      · rw [addressRecord, List.drop_left' versioned, List.take_left' versioned]
  · rintro ⟨record, address⟩
    obtain ⟨first, tail, other, length, big, rfl⟩ := address.split
    have cut : outputAddr maxint text = some (hexText (other :: first :: tail)) :=
      outputAddr_of_value big length address.value
    rw [made, Option.some_inj] at cut
    rw [cut] at reads
    have same : version :: hash = other :: first :: tail :=
      Option.some.inj (reads.symm.trans (reads_hexText _))
    obtain ⟨rfl, rfl⟩ := List.cons.inj same
    rw [text_of_decode address.value address.plain]
    exact encodeBase58_large big (le_of_eq address.length)

/-- The text the device shows for an output of the script. -/
theorem addressText_record (sdk : Sdk) (output : HostOutput) :
    addressText sdk output.record = addressToBase58 sdk output.addr.contents := by
  have address : output.record.address = output.addr.contents := by
    show output.serialized.take 21 = _
    rw [HostOutput.serialized, List.append_assoc]
    exact List.take_left' output.addr.length_contents
  rw [addressText, address]

theorem typed_shown_iff {output : HostOutput} (made : outputAddr maxint text = some addr)
    (reads : Reads addr output.addr.contents) :
    addressText sdk output.record = text ↔ ∃ record, IsAddress sdk text record := by
  have length := output.addr.length_contents
  rw [addressText_record]
  cases contents : output.addr.contents with
  | nil =>
    rw [contents] at length
    cases length
  | cons version hash =>
    rw [contents] at length reads
    exact shown_iff made (Nat.succ.inj length) reads

end Shown

/-- The user of the script sees, for the outputs that are shown to him, the texts he typed as their
addresses exactly when all of these are addresses. -/
theorem typed_addresses_are_shown_iff (sdk : Sdk) (delivers : sdk.Delivers) (maxint : Nat)
    (inputs : List HostInput) (typed : List (Bytes × HostOutput))
    (read : ∀ output ∈ typed, ∃ addr, outputAddr maxint output.1 = some addr ∧
      Reads addr output.2.addr.contents)
    (someInputs : 1 ≤ inputs.length) (fewInputs : inputs.length ≤ 20)
    (someOutputs : 1 ≤ typed.length) (fewOutputs : typed.length ≤ 255) (device : Device)
    (closed : device.signTxnContext.initialized = false) (fuel : Nat)
    (enough : (serializedTransaction inputs (typed.map Prod.snd)).length + 300 ≤ fuel) :
    ∃ result after,
      sendTxn sdk fuel (serializedTransaction inputs (typed.map Prod.snd)) device =
        .ok (result, after) ∧
      ((preparedIn after.log).map (addressText sdk) = (typed.map Prod.fst).drop
          (if FirstOverlooked inputs.length typed.length then 1 else 0) ↔
        ∀ text ∈ (typed.map Prod.fst).drop
          (if FirstOverlooked inputs.length typed.length then 1 else 0),
            ∃ record, IsAddress sdk text record) := by
  have length : (typed.map Prod.snd).length = typed.length := List.length_map _
  rw [← length] at someOutputs fewOutputs
  obtain ⟨result, after, sent, passed, unpassed⟩ := sendTxn_prepares delivers someInputs fewInputs
    someOutputs fewOutputs closed enough
  rw [passesFrom_serialized someInputs fewInputs someOutputs fewOutputs, length] at passed unpassed
  have shows : ∀ skipped,
      preparedIn after.log = ((typed.map Prod.snd).map HostOutput.record).drop skipped →
        ((preparedIn after.log).map (addressText sdk) = (typed.map Prod.fst).drop skipped ↔
          ∀ text ∈ (typed.map Prod.fst).drop skipped, ∃ record, IsAddress sdk text record) := by
    intro skipped prepared
    rw [prepared, List.map_map, ← List.map_drop, ← List.map_drop, List.map_map, List.map_inj_left,
      List.forall_mem_map]
    refine forall₂_congr fun output member => ?_
    obtain ⟨addr, made, reads⟩ := read output (List.mem_of_mem_drop member)
    exact typed_shown_iff made reads
  refine ⟨result, after, sent, ?_⟩
  by_cases overlooked : FirstOverlooked inputs.length typed.length
  · rw [if_pos overlooked]
    exact shows 1 (passed overlooked)
  · rw [if_neg overlooked]
    exact shows 0 (unpassed overlooked)

/-- An output to a hash of twenty bytes, and the text of its address. -/
def typedOutput : HostOutput :=
  { sampleHostOutput with addr := ⟨0 :: List.replicate 20 200, rfl⟩ }

def typedText : Bytes := addressToBase58 Sdk.plain typedOutput.addr.contents

/-- Two outputs to it are shown as they were typed. -/
theorem typed_addresses_are_shown_iff_sample : ∃ result after,
    sendTxn Sdk.plain 500 (serializedTransaction [sampleHostInput] [typedOutput, typedOutput])
        Device.boot = .ok (result, after) ∧
      (preparedIn after.log).map (addressText Sdk.plain) = [typedText, typedText] := by
  have text : typedText = encodeBase58 (addressRecord Sdk.plain (List.replicate 20 200) 0) :=
    addressToBase58_cons Sdk.plain rfl
  have made : outputAddr (2 ^ 63 - 1) typedText = some (hexText typedOutput.addr.contents) :=
    outputAddr_of_value (by decide : 16 ≤ (200 : Byte).toNat)
      (rfl : (200 :: List.replicate 19 200).length = 20)
      ((congrArg base58decode text).trans (base58decode_encodeBase58 _ (by decide)))
  obtain ⟨result, after, sent, shown⟩ := typed_addresses_are_shown_iff Sdk.plain
    ⟨fun _ => ⟨_, rfl⟩, fun _ _ => ⟨_, rfl⟩⟩ (2 ^ 63 - 1) [sampleHostInput]
    [(typedText, typedOutput), (typedText, typedOutput)]
    (fun output member => ⟨_, by
      rcases List.mem_pair.mp member with rfl | rfl <;> exact ⟨made, reads_hexText _⟩⟩)
    (by decide) (by decide) (by decide) (by decide) Device.boot rfl 500 (by decide)
  have all : ¬ FirstOverlooked [sampleHostInput].length
      [(typedText, typedOutput), (typedText, typedOutput)].length := by decide
  have address : ∃ record, IsAddress Sdk.plain typedText record :=
    (shown_iff made rfl (reads_hexText _)).mp rfl
  rw [if_neg all, List.drop_zero, List.map_cons, List.map_cons, List.map_nil] at shown
  refine ⟨result, after, sent, shown.mpr fun text member => ?_⟩
  have same : text = typedText := (List.mem_pair.mp member).elim id id
  rw [same]
  exact address

end LedgerNano
