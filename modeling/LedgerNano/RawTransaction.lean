/-
This file embeds `createRawTransaction` of `generating_txn.py`, and proves what the text it
returns is.

The script serializes the inputs and outputs, has the device sign them, and puts the inner hash
and the signatures in front of them, without the address indices. The text is that of a
transaction whose first four bytes count its bytes and whose inner hash is that of its own last
part (`raw_transaction_is_signed`), and it can be read in one way only (`raw_text_determines`).
-/

import LedgerNano.Requests

namespace LedgerNano

/-! ### `createRawTransaction` -/

/-- `Input`, with the digits of `uxId`. -/
structure ScriptInput where
  uxId : Bytes
  addressIndex : Nat

/-- `Output`, with the digits of `addr`. -/
structure ScriptOutput where
  addr : Bytes
  amount : Nat
  fee : Nat

def ScriptInput.serialized (maxint : Nat) (input : ScriptInput) : Bytes :=
  input.uxId ++ toLe maxint input.addressIndex 4

def ScriptOutput.serialized (maxint : Nat) (output : ScriptOutput) : Bytes :=
  output.addr ++ toLe maxint output.amount 8 ++ toLe maxint output.fee 8

/-- What `createRawTransaction` makes of the result of `send_txn`. -/
def rawText (maxint : Nat) (innerHash : Bytes) (sigs : List Bytes) (inputs : List ScriptInput)
    (outputs : List ScriptOutput) : Bytes :=
  let inputNum := toLe maxint inputs.length 4
  let outputNum := toLe maxint outputs.length 4
  let txnInOut := inputNum ++ (inputs.map ScriptInput.uxId).flatten ++ outputNum ++
    (outputs.map (ScriptOutput.serialized maxint)).flatten
  let txn := [48, 48] ++ innerHash ++ inputNum ++ sigs.flatten ++ txnInOut
  toLe maxint (txn.length / 2 + 4) 4 ++ txn

/-- `createRawTransaction`. -/
def createRawTransaction (sdk : Sdk) (maxint fuel : Nat) (inputs : List ScriptInput)
    (outputs : List ScriptOutput) (device : Device) : Except ScriptError (Bytes × Device) :=
  let txnInOut := toLe maxint inputs.length 4 ++
    (inputs.map (ScriptInput.serialized maxint)).flatten ++ toLe maxint outputs.length 4 ++
      (outputs.map (ScriptOutput.serialized maxint)).flatten
  match sendTxnText sdk maxint fuel txnInOut device with
  | .error error => .error error
  | .ok ((innerHash, sigs), device) =>
    .ok (rawText maxint innerHash sigs inputs outputs, device)

/-! ### The bytes of a raw transaction -/

/-- A signed transaction. -/
structure RawTransaction where
  innerHash : Cells Byte 32
  sigs : List (Cells Byte 65)
  ins : List (Cells Byte 32)
  outs : List HostOutput

namespace RawTransaction

/-- What the inner hash is about. -/
def body (transaction : RawTransaction) : Bytes :=
  le32 transaction.ins.length ++ (transaction.ins.map Cells.contents).flatten ++
    le32 transaction.outs.length ++ (transaction.outs.map HostOutput.serialized).flatten

/-- All but the length in front. -/
def unsized (transaction : RawTransaction) : Bytes :=
  [0] ++ transaction.innerHash.contents ++ le32 transaction.sigs.length ++
    (transaction.sigs.map Cells.contents).flatten ++ transaction.body

def encoded (transaction : RawTransaction) : Bytes :=
  le32 (transaction.unsized.length + 4) ++ transaction.unsized

end RawTransaction

/-- A text the script has for an input, and the input. -/
structure ScriptInput.Denotes (maxint : Nat) (text : ScriptInput) (input : HostInput) : Prop where
  uxId : Reads text.uxId input.uxId.contents
  addressIndex : text.addressIndex = input.addressIndex
  short : input.addressIndex ≤ maxint

structure ScriptOutput.Denotes (maxint : Nat) (text : ScriptOutput) (output : HostOutput) :
    Prop where
  addr : Reads text.addr output.addr.contents
  amount : text.amount = output.amount
  fee : text.fee = output.fee
  shortAmount : output.amount ≤ maxint
  shortFee : output.fee ≤ maxint

section Texts

variable {maxint : Nat} {texts : List ScriptInput} {inputs : List HostInput}
  {outTexts : List ScriptOutput} {outputs : List HostOutput}

theorem reads_toLe_four {value : Nat} (short : value ≤ maxint) (small : value < 2 ^ 32) :
    Reads (toLe maxint value 4) (le32 value) := by
  rw [toLe_eq_hexText short (by decide) (length_le32 value) (leValue_le32 small)]
  exact reads_hexText _

theorem reads_toLe_eight {value : Nat} (short : value ≤ maxint) (small : value < 2 ^ 64) :
    Reads (toLe maxint value 8) (le64 value) := by
  have length : (le64 value).length = 8 := rfl
  rw [toLe_eq_hexText short (by decide) length (leValue_le64 small)]
  exact reads_hexText _

theorem ScriptInput.Denotes.serialized {text : ScriptInput} {input : HostInput}
    (denotes : text.Denotes maxint input) : Reads (text.serialized maxint) input.serialized := by
  rw [ScriptInput.serialized, denotes.addressIndex]
  exact denotes.uxId.append (reads_toLe_four denotes.short input.small)

theorem ScriptOutput.Denotes.serialized {text : ScriptOutput} {output : HostOutput}
    (denotes : text.Denotes maxint output) : Reads (text.serialized maxint) output.serialized := by
  rw [ScriptOutput.serialized, denotes.amount, denotes.fee]
  exact (denotes.addr.append (reads_toLe_eight denotes.shortAmount output.smallAmount)).append
    (reads_toLe_eight denotes.shortFee output.smallFee)

/-- The texts of all inputs stand for all inputs, whatever is taken of each. -/
theorem reads_map {α β : Type} {Denotes : α → β → Prop} {write : α → Bytes} {bytes : β → Bytes}
    {first : List α} {second : List β} (each : List.Forall₂ Denotes first second)
    (reads : ∀ text value, Denotes text value → Reads (write text) (bytes value)) :
    Reads (first.map write).flatten (second.map bytes).flatten := by
  refine Reads.flatten ?_
  induction each with
  | nil => exact List.Forall₂.nil
  | cons head _ inductionHypothesis => exact List.Forall₂.cons (reads _ _ head) inductionHypothesis

/-- The text that is sent. -/
theorem reads_serialized (denoteIns : List.Forall₂ (ScriptInput.Denotes maxint) texts inputs)
    (denoteOuts : List.Forall₂ (ScriptOutput.Denotes maxint) outTexts outputs)
    (fewInputs : inputs.length ≤ 20) (fewOutputs : outputs.length ≤ 255)
    (wide : 2 ^ 31 - 1 ≤ maxint) :
    Reads (toLe maxint texts.length 4 ++ (texts.map (ScriptInput.serialized maxint)).flatten ++
      toLe maxint outTexts.length 4 ++
        (outTexts.map (ScriptOutput.serialized maxint)).flatten)
      (serializedTransaction inputs outputs) := by
  rw [denoteIns.length_eq, denoteOuts.length_eq]
  exact (((reads_toLe_four (by omega) (by omega)).append
    (reads_map denoteIns fun _ _ denotes => denotes.serialized)).append
      (reads_toLe_four (by omega) (by omega))).append
        (reads_map denoteOuts fun _ _ denotes => denotes.serialized)

end Texts

/-! ### The exchange -/

section Signed

variable {sdk : Sdk} {inputs : List HostInput} {outputs : List HostOutput} {device : Device}

/-- The transaction of a hash, signatures, inputs and outputs. -/
def assembled (innerHash : Cells Byte 32) (signatures : List (Cells Byte 65))
    (inputs : List HostInput) (outputs : List HostOutput) : RawTransaction where
  innerHash := innerHash
  sigs := signatures
  ins := inputs.map HostInput.uxId
  outs := outputs

theorem body_assembled (innerHash : Cells Byte 32) (signatures : List (Cells Byte 65)) :
    (assembled innerHash signatures inputs outputs).body = hashedTransaction inputs outputs := by
  rw [RawTransaction.body, assembled, hashedTransaction, List.length_map, List.map_map]
  rfl

/-- The script gets the hash and the signatures from a device without a session, and leaves it
without one. -/
theorem sendTxn_signs (delivers : sdk.Delivers) (someInputs : 1 ≤ inputs.length)
    (fewInputs : inputs.length ≤ 20) (someOutputs : 1 ≤ outputs.length)
    (fewOutputs : outputs.length ≤ 255) (closed : device.signTxnContext.initialized = false)
    {fuel : Nat} (enough : (serializedTransaction inputs outputs).length + 300 ≤ fuel) :
    ∃ signatures after,
      sendTxn sdk fuel (serializedTransaction inputs outputs) device =
        .ok (((sdk.sha256 (hashedTransaction inputs outputs)).contents,
          signatures.map Cells.contents), after) ∧
      inputs.mapM (HostInput.signature sdk device.getPublicKeyContext.bip44Path
        (sdk.sha256 (hashedTransaction inputs outputs)).contents) = .ok signatures ∧
      after.getPublicKeyContext.bip44Path = device.getPublicKeyContext.bip44Path ∧
      after.signTxnContext.initialized = false := by
  obtain ⟨signatures, signs⟩ := delivers.signatures device.getPublicKeyContext.bip44Path
    (sdk.sha256 (hashedTransaction inputs outputs)).contents inputs
  have sends := sends_serialized someInputs fewInputs someOutputs fewOutputs
  obtain ⟨read, chunks, waits, exchanged⟩ := sendChunks_sends sends closed enough
  rw [(parseWhole_serialized someInputs fewInputs fewOutputs).1] at waits
  have many : 22 ≤ fuel := by omega
  have path := exchanged.path
  rw [← path] at signs ⊢
  obtain ⟨after, fetched, owes, later⟩ :=
    fetchRest_gets waits someInputs fewInputs someOutputs fewOutputs signs many
  have hash := (sdk.sha256 (hashedTransaction inputs outputs)).length_contents
  have declared : u4LE (serializedTransaction inputs outputs) 0 = inputs.length :=
    u4LE_serialized fewInputs
  have ended : after.signTxnContext.initialized = false :=
    Bool.eq_false_iff.mpr fun session => owes.left.session.mp session rfl
  refine ⟨signatures, after, ?_, signs, later.path, ended⟩
  rw [sendTxn, chunks, declared]
  show fetchRest sdk fuel _ 1 fuel [] read >>= _ = _
  rw [fetched]
  show Except.ok _ = _
  rw [List.take_left' hash, List.drop_left' hash, splitSigs_signatureBytes]

end Signed

/-! ### What `createRawTransaction` returns -/

section Raw

variable {sdk : Sdk} {maxint : Nat} {texts : List ScriptInput} {inputs : List HostInput}
  {outTexts : List ScriptOutput} {outputs : List HostOutput} {signatures : List (Cells Byte 65)}

theorem length_flatten_contents {size : Nat} (blocks : List (Cells Byte size)) :
    (blocks.map Cells.contents).flatten.length = size * blocks.length := by
  induction blocks with
  | nil => rfl
  | cons block blocks inductionHypothesis =>
    rw [List.map_cons, List.flatten_cons, List.length_append, block.length_contents,
      inductionHypothesis, List.length_cons]
    ring

theorem length_serializedOutputs (outputs : List HostOutput) :
    (outputs.map HostOutput.serialized).flatten.length = 37 * outputs.length := by
  induction outputs with
  | nil => rfl
  | cons output later inductionHypothesis =>
    rw [List.map_cons, List.flatten_cons, List.length_append, output.length_serialized,
      inductionHypothesis, List.length_cons]
    omega

theorem length_serializedTransaction (inputs : List HostInput) (outputs : List HostOutput) :
    (serializedTransaction inputs outputs).length =
      8 + 36 * inputs.length + 37 * outputs.length := by
  simp only [serializedTransaction, List.length_append, length_le32, length_serializedInputs,
    length_serializedOutputs]
  omega

theorem RawTransaction.length_unsized (transaction : RawTransaction) :
    transaction.unsized.length = 45 + 65 * transaction.sigs.length + 32 * transaction.ins.length +
      37 * transaction.outs.length := by
  simp only [unsized, body, List.length_append, List.length_singleton, length_le32,
    transaction.innerHash.length_contents, length_flatten_contents, length_serializedOutputs]
  ring

theorem length_unsized_assembled (innerHash : Cells Byte 32) (signatures : List (Cells Byte 65))
    (inputs : List HostInput) (outputs : List HostOutput) :
    (assembled innerHash signatures inputs outputs).unsized.length =
      45 + 65 * signatures.length + 32 * inputs.length + 37 * outputs.length := by
  rw [RawTransaction.length_unsized, assembled, List.length_map]

/-- The first four bytes of a transaction that is not too long are its length. -/
theorem RawTransaction.u4LE_encoded (transaction : RawTransaction)
    (few : transaction.unsized.length + 4 < 2 ^ 32) :
    u4LE transaction.encoded 0 = transaction.encoded.length := by
  rw [encoded, u4LE_le32 _ few, List.length_append, length_le32, Nat.add_comm]

/-- The text of the result stands for the transaction with the hash and the signatures given. -/
theorem reads_rawText (denoteIns : List.Forall₂ (ScriptInput.Denotes maxint) texts inputs)
    (denoteOuts : List.Forall₂ (ScriptOutput.Denotes maxint) outTexts outputs)
    (wide : 2 ^ 31 - 1 ≤ maxint) (count : signatures.length = inputs.length)
    (innerHash : Cells Byte 32)
    (few : (assembled innerHash signatures inputs outputs).unsized.length + 4 < 2 ^ 31) :
    Reads (rawText maxint (hexText innerHash.contents)
      ((signatures.map Cells.contents).map hexText) texts outTexts)
      (assembled innerHash signatures inputs outputs).encoded := by
  have size := length_unsized_assembled innerHash signatures inputs outputs
  have inNum : Reads (toLe maxint texts.length 4) (le32 inputs.length) := by
    rw [denoteIns.length_eq]
    exact reads_toLe_four (by omega) (by omega)
  have outNum : Reads (toLe maxint outTexts.length 4) (le32 outputs.length) := by
    rw [denoteOuts.length_eq]
    exact reads_toLe_four (by omega) (by omega)
  have sigs : Reads ((signatures.map Cells.contents).map hexText).flatten
      (signatures.map Cells.contents).flatten := by
    rw [hexText_flatten]
    exact reads_hexText _
  have body : Reads (toLe maxint texts.length 4 ++ (texts.map ScriptInput.uxId).flatten ++
      toLe maxint outTexts.length 4 ++
        (outTexts.map (ScriptOutput.serialized maxint)).flatten)
      (assembled innerHash signatures inputs outputs).body := by
    rw [body_assembled]
    exact ((inNum.append (reads_map denoteIns fun _ _ denotes => denotes.uxId)).append
      outNum).append (reads_map denoteOuts fun _ _ denotes => denotes.serialized)
  have unsized : Reads ([48, 48] ++ hexText innerHash.contents ++ toLe maxint texts.length 4 ++
        ((signatures.map Cells.contents).map hexText).flatten ++
          (toLe maxint texts.length 4 ++ (texts.map ScriptInput.uxId).flatten ++
            toLe maxint outTexts.length 4 ++
              (outTexts.map (ScriptOutput.serialized maxint)).flatten))
      (assembled innerHash signatures inputs outputs).unsized := by
    rw [← count] at inNum
    exact ((((reads_hexText [0]).append (reads_hexText _)).append inNum).append sigs).append body
  rw [rawText, unsized.length, Nat.mul_div_cancel_left _ (by decide)]
  exact (reads_toLe_four (by omega) (by omega)).append unsized

/-! ### Reading a raw transaction -/

theorem eq_of_le32_eq {first second : Nat} (smallFirst : first < 2 ^ 32)
    (smallSecond : second < 2 ^ 32) (same : le32 first = le32 second) : first = second := by
  rw [← leValue_le32 smallFirst, same, leValue_le32 smallSecond]

theorem eq_of_le64_eq {first second : Nat} (smallFirst : first < 2 ^ 64)
    (smallSecond : second < 2 ^ 64) (same : le64 first = le64 second) : first = second := by
  rw [← leValue_le64 smallFirst, same, leValue_le64 smallSecond]

/-- The bytes of an output determine it. -/
theorem HostOutput.serialized_injective : Function.Injective HostOutput.serialized := by
  intro first second same
  have amounts : (le64 first.amount).length = (le64 second.amount).length := rfl
  rw [serialized, serialized, List.append_assoc, List.append_assoc] at same
  obtain ⟨addr, rest⟩ := List.append_inj same
    (first.addr.length_contents.trans second.addr.length_contents.symm)
  obtain ⟨amount, fee⟩ := List.append_inj rest amounts
  have sameAmount := eq_of_le64_eq first.smallAmount second.smallAmount amount
  have sameFee := eq_of_le64_eq first.smallFee second.smallFee fee
  have sameAddr := Cells.ext addr
  cases first
  cases second
  cases sameAmount
  cases sameFee
  cases sameAddr
  rfl

/-- Pieces of one size are told apart by what they are put together to. -/
theorem eq_of_flatten_eq {α : Type} {bytes : α → Bytes} {size : Nat}
    (injective : Function.Injective bytes) (sized : ∀ value, (bytes value).length = size)
    {first second : List α} (count : first.length = second.length)
    (same : (first.map bytes).flatten = (second.map bytes).flatten) : first = second := by
  refine List.map_injective_iff.mpr injective ((List.eq_iff_flatten_eq).mpr ⟨same, ?_⟩)
  have lengths : ∀ values : List α,
      (values.map bytes).map List.length = List.replicate values.length size := by
    intro values
    rw [List.map_map, List.eq_replicate_iff, List.length_map]
    refine ⟨rfl, fun length member => ?_⟩
    obtain ⟨value, _, rfl⟩ := List.mem_map.mp member
    exact sized value
  rw [lengths, lengths, count]

theorem contents_injective {size : Nat} :
    Function.Injective (Cells.contents : Cells Byte size → Bytes) :=
  fun _ _ same => Cells.ext same

/-- The bytes of a transaction that is not too long determine it. -/
theorem RawTransaction.eq_of_encoded_eq {first second : RawTransaction}
    (fewFirst : first.unsized.length + 4 < 2 ^ 31) (fewSecond : second.unsized.length + 4 < 2 ^ 31)
    (same : first.encoded = second.encoded) : first = second := by
  have sizeFirst := first.length_unsized
  have sizeSecond := second.length_unsized
  rw [encoded, encoded] at same
  have pieces := (List.append_inj same rfl).2
  simp only [unsized, body, List.append_assoc] at pieces
  obtain ⟨hash, pieces⟩ := List.append_inj (List.append_inj pieces rfl).2
    (first.innerHash.length_contents.trans second.innerHash.length_contents.symm)
  obtain ⟨sigNum, pieces⟩ := List.append_inj pieces rfl
  have sigCount := eq_of_le32_eq (by omega) (by omega) sigNum
  obtain ⟨sigs, pieces⟩ := List.append_inj pieces (by
    rw [length_flatten_contents, length_flatten_contents, sigCount])
  obtain ⟨inNum, pieces⟩ := List.append_inj pieces rfl
  have inCount := eq_of_le32_eq (by omega) (by omega) inNum
  obtain ⟨ins, pieces⟩ := List.append_inj pieces (by
    rw [length_flatten_contents, length_flatten_contents, inCount])
  obtain ⟨outNum, outs⟩ := List.append_inj pieces rfl
  have outCount := eq_of_le32_eq (by omega) (by omega) outNum
  have sameSigs := eq_of_flatten_eq contents_injective Cells.length_contents sigCount sigs
  have sameIns := eq_of_flatten_eq contents_injective Cells.length_contents inCount ins
  have sameOuts := eq_of_flatten_eq HostOutput.serialized_injective HostOutput.length_serialized
    outCount outs
  have sameHash := Cells.ext hash
  cases first
  cases second
  cases sameHash
  cases sameSigs
  cases sameIns
  cases sameOuts
  rfl

end Raw

/-- What `createRawTransaction` returns on a device without a session, and what it leaves there. -/
theorem createRawTransaction_signs {sdk : Sdk} (delivers : sdk.Delivers) {maxint : Nat}
    (wide : 2 ^ 31 - 1 ≤ maxint) {texts : List ScriptInput} {inputs : List HostInput}
    (denoteIns : List.Forall₂ (ScriptInput.Denotes maxint) texts inputs)
    {outTexts : List ScriptOutput} {outputs : List HostOutput}
    (denoteOuts : List.Forall₂ (ScriptOutput.Denotes maxint) outTexts outputs)
    (someInputs : 1 ≤ inputs.length) (fewInputs : inputs.length ≤ 20)
    (someOutputs : 1 ≤ outputs.length) (fewOutputs : outputs.length ≤ 255) {device : Device}
    (closed : device.signTxnContext.initialized = false) {fuel : Nat}
    (enough : (serializedTransaction inputs outputs).length + 300 ≤ fuel) :
    ∃ signatures after,
      createRawTransaction sdk maxint fuel texts outTexts device =
        .ok (rawText maxint (hexText (sdk.sha256 (hashedTransaction inputs outputs)).contents)
          ((signatures.map Cells.contents).map hexText) texts outTexts, after) ∧
      inputs.mapM (HostInput.signature sdk device.getPublicKeyContext.bip44Path
        (sdk.sha256 (hashedTransaction inputs outputs)).contents) = .ok signatures ∧
      sendTxn sdk fuel (serializedTransaction inputs outputs) device =
        .ok (((sdk.sha256 (hashedTransaction inputs outputs)).contents,
          signatures.map Cells.contents), after) ∧
      after.getPublicKeyContext.bip44Path = device.getPublicKeyContext.bip44Path ∧
      after.signTxnContext.initialized = false := by
  obtain ⟨signatures, after, sent, signs, left⟩ := sendTxn_signs delivers someInputs fewInputs
    someOutputs fewOutputs closed enough
  have read := reads_serialized denoteIns denoteOuts fewInputs fewOutputs wide
  have long : 4 ≤ (serializedTransaction inputs outputs).length := by
    simp only [serializedTransaction, List.length_append, length_le32]
    omega
  have scripted := sendTxnText_eq sdk fuel (le_trans (by decide) wide) read long device
  rw [sent] at scripted
  refine ⟨signatures, after, ?_, signs, sent, left⟩
  rw [createRawTransaction, scripted]
  rfl

/-- `createRawTransaction` ends on a device without a session, with the digits of a transaction:
it begins with its own length, its inner hash is that of the inputs and outputs at its end, and it
has the signatures of the inputs in their order. -/
theorem raw_transaction_is_signed (sdk : Sdk) (delivers : sdk.Delivers) (maxint : Nat)
    (wide : 2 ^ 31 - 1 ≤ maxint) (texts : List ScriptInput) (inputs : List HostInput)
    (denoteIns : List.Forall₂ (ScriptInput.Denotes maxint) texts inputs)
    (outTexts : List ScriptOutput) (outputs : List HostOutput)
    (denoteOuts : List.Forall₂ (ScriptOutput.Denotes maxint) outTexts outputs)
    (someInputs : 1 ≤ inputs.length) (fewInputs : inputs.length ≤ 20)
    (someOutputs : 1 ≤ outputs.length) (fewOutputs : outputs.length ≤ 255) (device : Device)
    (closed : device.signTxnContext.initialized = false) (fuel : Nat)
    (enough : (serializedTransaction inputs outputs).length + 300 ≤ fuel) :
    ∃ (raw : Bytes) (after : Device) (transaction : RawTransaction),
      createRawTransaction sdk maxint fuel texts outTexts device = .ok (raw, after) ∧
      Reads raw transaction.encoded ∧
      u4LE transaction.encoded 0 = transaction.encoded.length ∧
      transaction.innerHash = sdk.sha256 transaction.body ∧
      transaction.ins = inputs.map HostInput.uxId ∧ transaction.outs = outputs ∧
      inputs.mapM (HostInput.signature sdk device.getPublicKeyContext.bip44Path
        transaction.innerHash.contents) = .ok transaction.sigs ∧
      after.getPublicKeyContext.bip44Path = device.getPublicKeyContext.bip44Path ∧
      after.signTxnContext.initialized = false := by
  obtain ⟨signatures, after, created, signs, _, path, ended⟩ := createRawTransaction_signs delivers
    wide denoteIns denoteOuts someInputs fewInputs someOutputs fewOutputs closed enough
  have count : signatures.length = inputs.length := length_mapM signs
  have size := length_unsized_assembled (sdk.sha256 (hashedTransaction inputs outputs)) signatures
    inputs outputs
  have whole := reads_rawText denoteIns denoteOuts wide count
    (sdk.sha256 (hashedTransaction inputs outputs)) (by omega)
  refine ⟨_, after, assembled (sdk.sha256 (hashedTransaction inputs outputs)) signatures inputs
    outputs, created, whole, ?_, ?_, rfl, rfl, signs, path, ended⟩
  · exact RawTransaction.u4LE_encoded _ (by omega)
  · rw [body_assembled]
    rfl

/-- The digits of an input. -/
def HostInput.toScript (input : HostInput) : ScriptInput where
  uxId := hexText input.uxId.contents
  addressIndex := input.addressIndex

def HostOutput.toScript (output : HostOutput) : ScriptOutput where
  addr := hexText output.addr.contents
  amount := output.amount
  fee := output.fee

theorem HostInput.denotes_toScript {maxint : Nat} {inputs : List HostInput}
    (short : ∀ input ∈ inputs, input.addressIndex ≤ maxint) :
    List.Forall₂ (ScriptInput.Denotes maxint) (inputs.map HostInput.toScript) inputs := by
  rw [List.forall₂_map_left_iff, List.forall₂_same]
  exact fun input member => ⟨reads_hexText _, rfl, short input member⟩

theorem HostOutput.denotes_toScript {maxint : Nat} {outputs : List HostOutput}
    (short : ∀ output ∈ outputs, output.amount ≤ maxint ∧ output.fee ≤ maxint) :
    List.Forall₂ (ScriptOutput.Denotes maxint) (outputs.map HostOutput.toScript) outputs := by
  rw [List.forall₂_map_left_iff, List.forall₂_same]
  exact fun output member =>
    ⟨reads_hexText _, rfl, rfl, (short output member).1, (short output member).2⟩

/-- Two inputs and three outputs. -/
theorem raw_transaction_is_signed_sample :
    ∃ (raw : Bytes) (after : Device) (transaction : RawTransaction),
      createRawTransaction Sdk.plain (2 ^ 63 - 1) 1000
        ((List.replicate 2 sampleHostInput).map HostInput.toScript)
        ((List.replicate 3 sampleHostOutput).map HostOutput.toScript) Device.boot =
          .ok (raw, after) ∧
      Reads raw transaction.encoded ∧
      u4LE transaction.encoded 0 = transaction.encoded.length ∧
      transaction.innerHash = Sdk.plain.sha256 transaction.body ∧
      transaction.ins = (List.replicate 2 sampleHostInput).map HostInput.uxId ∧
      transaction.outs = List.replicate 3 sampleHostOutput ∧
      (List.replicate 2 sampleHostInput).mapM (HostInput.signature Sdk.plain
        Device.boot.getPublicKeyContext.bip44Path transaction.innerHash.contents) =
          .ok transaction.sigs ∧
      after.getPublicKeyContext.bip44Path = Device.boot.getPublicKeyContext.bip44Path ∧
      after.signTxnContext.initialized = false :=
  raw_transaction_is_signed Sdk.plain ⟨fun _ => ⟨_, rfl⟩, fun _ _ => ⟨_, rfl⟩⟩ (2 ^ 63 - 1)
    (by decide) _ _ (HostInput.denotes_toScript (by decide)) _ _
    (HostOutput.denotes_toScript (by decide)) (by decide) (by decide) (by decide) (by decide)
    Device.boot rfl 1000 (by decide +kernel)

/-- The same unspent output, owned by another address. -/
def HostInput.ownedBy (input : HostInput) (owner : Fin 8) : HostInput where
  uxId := input.uxId
  addressIndex := owner
  small := owner.isLt.trans (by decide)

/-- What `rawText` may be given: digits of everything, and not too much of it. -/
structure RawArguments (maxint : Nat) where
  innerHash : Cells Byte 32
  signatures : List (Cells Byte 65)
  texts : List ScriptInput
  inputs : List HostInput
  outTexts : List ScriptOutput
  outputs : List HostOutput
  denoteIns : List.Forall₂ (ScriptInput.Denotes maxint) texts inputs
  denoteOuts : List.Forall₂ (ScriptOutput.Denotes maxint) outTexts outputs
  wide : 2 ^ 31 - 1 ≤ maxint
  count : signatures.length = inputs.length
  few : (assembled innerHash signatures inputs outputs).unsized.length + 4 < 2 ^ 31

def RawArguments.text {maxint : Nat} (arguments : RawArguments maxint) : Bytes :=
  rawText maxint (hexText arguments.innerHash.contents)
    ((arguments.signatures.map Cells.contents).map hexText) arguments.texts arguments.outTexts

/-- Two raw transactions are sent as the same bytes exactly when their hashes, their signatures,
the ids of their inputs and their outputs are the same. -/
theorem raw_text_determines {maxint : Nat} (first second : RawArguments maxint) :
    fromHex first.text = fromHex second.text ↔
      first.innerHash = second.innerHash ∧ first.signatures = second.signatures ∧
        first.inputs.map HostInput.uxId = second.inputs.map HostInput.uxId ∧
          first.outputs = second.outputs := by
  have reads : ∀ arguments : RawArguments maxint, fromHex arguments.text =
      some (assembled arguments.innerHash arguments.signatures arguments.inputs
        arguments.outputs).encoded := fun arguments =>
    (reads_rawText arguments.denoteIns arguments.denoteOuts arguments.wide arguments.count
      arguments.innerHash arguments.few).fromHex
  rw [reads first, reads second, Option.some_inj]
  constructor
  · intro same
    have whole := RawTransaction.eq_of_encoded_eq first.few second.few same
    exact ⟨congrArg RawTransaction.innerHash whole, congrArg RawTransaction.sigs whole,
      congrArg RawTransaction.ins whole, congrArg RawTransaction.outs whole⟩
  · rintro ⟨hash, sigs, ins, outs⟩
    rw [assembled, assembled, hash, sigs, ins, outs]

/-- The arguments of a transaction of two inputs that are owned by the same address, and three
outputs. -/
def sampleArguments (innerHash : Cells Byte 32) (owner : Fin 8) : RawArguments (2 ^ 63 - 1) where
  innerHash := innerHash
  signatures := List.replicate 2 (Cells.fill 5)
  texts := (List.replicate 2 (sampleHostInput.ownedBy owner)).map HostInput.toScript
  inputs := List.replicate 2 (sampleHostInput.ownedBy owner)
  outTexts := (List.replicate 3 sampleHostOutput).map HostOutput.toScript
  outputs := List.replicate 3 sampleHostOutput
  denoteIns := HostInput.denotes_toScript fun input member => by
    rw [List.eq_of_mem_replicate member]
    exact le_trans (Nat.le_of_lt owner.isLt) (by decide)
  denoteOuts := HostOutput.denotes_toScript (by decide)
  wide := by decide
  count := rfl
  few := by
    rw [length_unsized_assembled, List.length_replicate, List.length_replicate,
      List.length_replicate]
    decide

/-- Another inner hash changes the bytes. Another owner of the inputs does not: their address
indices are not among the bytes. -/
theorem raw_text_determines_sample :
    fromHex (sampleArguments (Cells.fill 0) 3).text ≠
        fromHex (sampleArguments (Cells.fill 1) 3).text ∧
      (sampleArguments (Cells.fill 0) 3).inputs ≠ (sampleArguments (Cells.fill 0) 5).inputs ∧
        fromHex (sampleArguments (Cells.fill 0) 3).text =
          fromHex (sampleArguments (Cells.fill 0) 5).text := by
  refine ⟨fun same => ?_, ?_, ?_⟩
  · have hashes := ((raw_text_determines (sampleArguments (Cells.fill 0) 3)
      (sampleArguments (Cells.fill 1) 3)).mp same).1
    exact absurd (congrArg Cells.contents hashes) (by decide)
  · intro same
    exact absurd (congrArg (List.map HostInput.addressIndex) same) (by decide)
  · exact (raw_text_determines (sampleArguments (Cells.fill 0) 3)
      (sampleArguments (Cells.fill 0) 5)).mpr ⟨rfl, rfl, rfl, rfl⟩

end LedgerNano
