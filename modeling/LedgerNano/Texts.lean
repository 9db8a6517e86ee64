/-
This file is about the strings the screens show, over whole runs.

Only `prepare_output_approval` and `handleGetAddress` store strings; everything else keeps them
(`KeepsTexts`). An encoded address has 25 to 35 letters, so in every state a device reaches, the
address of the menu has at least the 24 of `No address generated yet`, and the address of an
output is a whole one, or empty as long as no output has been prepared (`SoundTexts.step`).
-/

import LedgerNano.Encoders
import LedgerNano.Twins

namespace LedgerNano

/-! ### The length of an encoded address -/

/-- A string is not shorter than the bytes it is made of. -/
theorem length_encodeBase58_ge (input : Bytes) (short : input.length ≤ 25) :
    input.length ≤ (encodeBase58 input).length := by
  set zero : Byte → Bool := (· == 0) with zeroIs
  have split := congrArg List.length (@List.takeWhile_append_dropWhile _ zero input)
  have leading := List.head?_dropWhile_not zero input
  rw [List.length_append] at split
  rw [encodeBase58_eq input short, List.length_append, List.length_replicate, List.length_map,
    ← bytesValue_dropWhile, ← zeroIs]
  cases rest : input.dropWhile zero with
  | nil =>
    rw [rest, List.length_nil] at split
    omega
  | cons byte tail =>
    rw [rest, List.length_cons] at split
    rw [rest] at leading
    have positive : 0 < byte.toNat := by
      refine Nat.pos_of_ne_zero fun none => ?_
      have same : byte = 0 := UInt8.toNat_inj.mp none
      rw [same] at leading
      cases leading
    have large : 58 ^ tail.length ≤ bytesValue (byte :: tail) :=
      calc 58 ^ tail.length ≤ 256 ^ tail.length := Nat.pow_le_pow_left (by decide) _
        _ ≤ byte.toNat * 256 ^ tail.length := Nat.le_mul_of_pos_left _ positive
        _ ≤ bytesValue (byte :: tail) := by
          rw [bytesValue_cons]
          exact Nat.le_add_right _ _
    have digits : ¬ (Radix.numeral 58 (bytesValue (byte :: tail))).length ≤ tail.length := by
      rw [Radix.length_numeral_le_iff (by decide)]
      exact not_lt.mpr large
    omega

/-- The string of a record has 25 letters or more. -/
theorem length_encoded_ge (sdk : Sdk) {hash : Bytes} (version : Byte) (length : hash.length = 20) :
    25 ≤ (encodeBase58 (addressRecord sdk hash version)).length := by
  have total := length_addressRecord sdk version length
  rw [← total]
  exact length_encodeBase58_ge _ (le_of_eq total)

theorem length_generateAddress_ge (sdk : Sdk) (publicKey : Cells Byte 65) :
    25 ≤ (generateAddress sdk publicKey).length :=
  length_encoded_ge sdk 0 (Cells.length_contents _)

theorem length_addressText_ge (sdk : Sdk) {output : TxnOutput}
    (length : output.address.length = 21) : 25 ≤ (addressText sdk output).length := by
  refine length_encoded_ge sdk _ ?_
  rw [List.length_take, List.length_drop, length]
  rfl

/-! ### What the parser keeps -/

/-- The output record is the same, or a new one of 21 address bytes. -/
def KeepsOutput (before after : SignTxnContext) : Prop :=
  after.txn.curOutput = before.txn.curOutput ∨ after.txn.curOutput.address.length = 21

theorem KeepsOutput.trans {first second third : SignTxnContext} (one : KeepsOutput first second)
    (other : KeepsOutput second third) : KeepsOutput first third := by
  rcases other with same | whole
  · rcases one with earlier | whole
    · exact Or.inl (same.trans earlier)
    · exact Or.inr (same ▸ whole)
  · exact Or.inr whole

/-- The strings are the same, and the output record is kept. -/
structure KeepsTexts (before after : Device) : Prop where
  texts : after.transactionContext = before.transactionContext
  address : after.getPublicKeyContext.address = before.getPublicKeyContext.address
  output : KeepsOutput before.signTxnContext after.signTxnContext

theorem KeepsTexts.refl (device : Device) : KeepsTexts device device :=
  ⟨rfl, rfl, Or.inl rfl⟩

theorem KeepsTexts.trans {first second third : Device} (one : KeepsTexts first second)
    (other : KeepsTexts second third) : KeepsTexts first third :=
  ⟨other.texts.trans one.texts, other.address.trans one.address, one.output.trans other.output⟩

section Reading

variable {apduBuffer : Cells Byte 260} {ctx : SignTxnContext} {reading : Reading} {sdk : Sdk}

theorem saveAndThrow_keepsOutput {element : Option Bytes} {code : Nat}
    (read : saveAndThrow apduBuffer element code ctx = .ok reading) :
    KeepsOutput ctx reading.ctx := by
  rw [saveAndThrow_ok read]
  exact Or.inl rfl

theorem txnStartIn_keepsOutput (read : txnStartIn apduBuffer ctx = .ok reading) :
    KeepsOutput ctx reading.ctx := by
  unfold txnStartIn at read
  split at read
  · exact saveAndThrow_keepsOutput read
  · obtain ⟨filled, fill, rest⟩ := bind_ok read
    cases readDataToBuffer_ok fill
    cases rest
    exact Or.inl rfl

theorem txnIn_keepsOutput (read : txnIn apduBuffer ctx = .ok reading) :
    KeepsOutput ctx reading.ctx := by
  unfold txnIn at read
  split at read
  · exact saveAndThrow_keepsOutput read
  · obtain ⟨filled, fill, rest⟩ := bind_ok read
    cases readDataToBuffer_ok fill
    split at rest
    · cases rest
      unfold takeInput
      simp only
      split <;> exact Or.inl rfl
    · cases rest

theorem txnStartOut_keepsOutput (read : txnStartOut apduBuffer ctx = .ok reading) :
    KeepsOutput ctx reading.ctx := by
  unfold txnStartOut at read
  split at read
  · exact saveAndThrow_keepsOutput read
  · obtain ⟨filled, fill, rest⟩ := bind_ok read
    cases readDataToBuffer_ok fill
    cases rest
    exact Or.inl rfl

theorem length_takeOutput_address (ctx : SignTxnContext) :
    (takeOutput sdk ctx).txn.curOutput.address.length = 21 := by
  have record : ((ctx.buffer.read 0 37).take 21).length = 21 := by
    rw [List.length_take, ctx.buffer.length_read 0 37 (by decide)]
    rfl
  unfold takeOutput
  simp only
  split <;> exact record

theorem txnOut_keepsOutput (read : txnOut sdk apduBuffer ctx = .ok reading) :
    KeepsOutput ctx reading.ctx := by
  unfold txnOut at read
  split at read
  · cases read
    exact Or.inl rfl
  split at read
  · exact saveAndThrow_keepsOutput read
  · obtain ⟨filled, fill, rest⟩ := bind_ok read
    have taken := @length_takeOutput_address sdk filled
    simp only at rest
    split at rest
    · rw [saveAndThrow_ok rest]
      exact Or.inr taken
    · cases rest
      exact Or.inr taken

end Reading

section Parser

variable {sdk : Sdk} {device after : Device} {code : Option Nat}

theorem keepsTexts_of_adopted {read : Except Fault Reading}
    (took : device.adopt <$> read = .ok (code, after))
    (keeps : ∀ reading, read = .ok reading → KeepsOutput device.signTxnContext reading.ctx) :
    KeepsTexts device after := by
  obtain ⟨reading, same, both⟩ := map_ok took
  have kept := keeps reading same
  have result : after = (device.adopt reading).2 := congrArg Prod.snd both
  rw [result]
  unfold Device.adopt Device.logElement
  cases reading.element <;> exact ⟨rfl, rfl, kept⟩

theorem signInputs_keepsTexts (remaining : Nat) {i : Nat} {device : Device}
    (went : signInputs sdk remaining i device = .ok (code, after)) : KeepsTexts device after := by
  induction remaining generalizing i device with
  | zero =>
    cases went
    exact KeepsTexts.refl _
  | succ remaining inductionHypothesis =>
    by_cases inside : i < maxInputs
    · rw [signInputs_succ sdk remaining device inside] at went
      split at went
      · cases went
        exact ⟨rfl, rfl, Or.inl rfl⟩
      · have rest := inductionHypothesis went
        exact ⟨rest.texts, rest.address, rest.output⟩
    · rw [signInputs, dif_neg inside] at went
      cases went

theorem retSigs_keepsTexts (turns : Nat) {device : Device}
    (went : retSigs turns device = .ok (code, after)) : KeepsTexts device after := by
  induction turns generalizing device with
  | zero => cases went
  | succ turns inductionHypothesis =>
    rw [retSigs] at went
    simp only at went
    split at went
    · cases went
      exact ⟨rfl, rfl, Or.inl rfl⟩
    split at went
    · cases went
      exact KeepsTexts.refl _
    split at went
    · have rest := inductionHypothesis went
      exact ⟨rest.texts, rest.address, rest.output⟩
    · cases went

theorem computeSigs_keepsTexts (went : computeSigs sdk device = .ok (code, after)) :
    KeepsTexts device after := by
  unfold computeSigs at went
  simp only at went
  split at went
  · cases went
  · rename_i signed
    cases went
    have looped := signInputs_keepsTexts _ signed
    exact ⟨looped.texts, looped.address, looped.output⟩
  · rename_i signed
    have looped := signInputs_keepsTexts _ signed
    have returned := retSigs_keepsTexts 4 went
    exact ⟨returned.texts.trans looped.texts, returned.address.trans looped.address,
      looped.output.trans returned.output⟩

theorem txnNextElemPass_keepsTexts (went : txnNextElemPass sdk device = .ok (code, after)) :
    KeepsTexts device after := by
  rw [txnNextElemPass] at went
  cases state : device.signTxnContext.txnState with
  | startIn =>
    simp only [state] at went
    exact keepsTexts_of_adopted went fun _ => txnStartIn_keepsOutput
  | txnIn =>
    simp only [state] at went
    exact keepsTexts_of_adopted went fun _ => txnIn_keepsOutput
  | startOut =>
    simp only [state] at went
    exact keepsTexts_of_adopted went fun _ => txnStartOut_keepsOutput
  | txnOut =>
    simp only [state] at went
    exact keepsTexts_of_adopted went fun _ => txnOut_keepsOutput
  | computeSigs =>
    simp only [state] at went
    exact computeSigs_keepsTexts went
  | retSigs =>
    simp only [state] at went
    exact retSigs_keepsTexts 4 went

/-- A call of the parser keeps the strings. -/
theorem txnNextElem_keepsTexts {code : Nat} (went : txnNextElem sdk device = .ok (code, after)) :
    KeepsTexts device after :=
  txnNextElem_keeps (motive := KeepsTexts device)
    (fun _ _ kept passed => kept.trans (txnNextElemPass_keepsTexts passed))
    (KeepsTexts.refl device) went

end Parser

/-! ### Strings that are whole -/

/-- The strings of a device are whole: the output record is one of 21 address bytes, its string is
an encoded address, or empty as long as there is none, the amount is terminated, and the address
of the menu is as long as the text it begins with, at least. -/
structure SoundTexts (device : Device) : Prop where
  output : device.signTxnContext.txn.curOutput.address.length = 21
  outAddress : textOf device.transactionContext.outAddress = [] ∨
    25 ≤ (textOf device.transactionContext.outAddress).length
  outAddressEnds : 0 ∈ device.transactionContext.outAddress.contents
  amount : 0 ∈ device.transactionContext.amount.contents
  address : 24 ≤ (textOf device.getPublicKeyContext.address).length
  addressEnds : 0 ∈ device.getPublicKeyContext.address.contents

section Sound

variable {sdk : Sdk} {device after : Device}

theorem SoundTexts.keep (sound : SoundTexts device) (keeps : KeepsTexts device after) :
    SoundTexts after where
  output := by
    rcases keeps.output with same | whole
    · rw [same]
      exact sound.output
    · exact whole
  outAddress := keeps.texts ▸ sound.outAddress
  outAddressEnds := keeps.texts ▸ sound.outAddressEnds
  amount := keeps.texts ▸ sound.amount
  address := keeps.address ▸ sound.address
  addressEnds := keeps.address ▸ sound.addressEnds

theorem mem_storeText {size : Nat} (array : Cells Byte size) (text : Bytes)
    (fits : text.length < size) : 0 ∈ (storeText array text).contents := by
  have stored := read_storeText array text fits
  refine Cells.mem_of_mem_read _ 0 (text.length + 1) ?_
  rw [stored]
  exact List.mem_append_right _ List.mem_cons_self

/-- A new address of the menu. -/
theorem SoundTexts.addressStored (sound : SoundTexts device) (publicKey : Cells Byte 65)
    (texts : after.transactionContext = device.transactionContext)
    (address : after.getPublicKeyContext.address =
      storeText device.getPublicKeyContext.address (generateAddress sdk publicKey))
    (output : after.signTxnContext = device.signTxnContext) : SoundTexts after where
  output := output ▸ sound.output
  outAddress := texts ▸ sound.outAddress
  outAddressEnds := texts ▸ sound.outAddressEnds
  amount := texts ▸ sound.amount
  address := by
    have short : (generateAddress sdk publicKey).length ≤ 35 := length_toAddress_le sdk _
    have long := length_generateAddress_ge sdk publicKey
    rw [address, textOf_storeText _ _ (Nat.lt_succ_of_le short) (encodeBase58_ne_zero _)]
    omega
  addressEnds := by
    rw [address]
    exact mem_storeText _ _ (Nat.lt_succ_of_le (length_toAddress_le sdk _))

/-- `prepare_output_approval` stores the strings of the output record. -/
theorem SoundTexts.prepared (sound : SoundTexts device) :
    SoundTexts (prepareOutputApproval sdk device) where
  output := by
    rw [prepareOutputApproval_signTxnContext]
    exact sound.output
  outAddress := by
    have short := length_addressText sdk device.signTxnContext.txn.curOutput
    rw [prepareOutputApproval_outAddress,
      textOf_storeText _ _ (Nat.lt_succ_of_le short) (encodeBase58_ne_zero _)]
    exact Or.inr (length_addressText_ge sdk sound.output)
  outAddressEnds := by
    rw [prepareOutputApproval_outAddress]
    exact mem_storeText _ _ (Nat.lt_succ_of_le (length_addressText sdk _))
  amount := by
    rw [prepareOutputApproval_amount]
    exact mem_storeText _ _ (Nat.lt_succ_of_le (length_amountText _))
  address := by
    rw [prepareOutputApproval_getPublicKeyContext]
    exact sound.address
  addressEnds := by
    rw [prepareOutputApproval_getPublicKeyContext]
    exact sound.addressEnds

/-! ### Steps and runs -/

/-- An answer leaves the strings alone. -/
theorem answer_keepsTexts (device : Device) (payload : Bytes) :
    KeepsTexts device (device.answer payload) :=
  ⟨rfl, rfl, Or.inl rfl⟩

theorem reply_keepsTexts (device : Device) (code tx : Nat) :
    KeepsTexts device (device.reply code tx) :=
  ⟨rfl, rfl, Or.inl rfl⟩

/-- The instructions other than the signing one: `handleGetAddress` stores an address, and the
others no string. -/
theorem SoundTexts.query (sound : SoundTexts device) {instruction : Instruction}
    (query : instruction ≠ .signTransaction) {code : Option Nat}
    (went : runHandler sdk instruction device = .ok (code, after)) : SoundTexts after := by
  obtain ⟨derived, begun, _⟩ := deriveRequested_eq sdk device
  have kept : SoundTexts (device.used
      { device.getPublicKeyContext with bip44Path := device.requestedPath.2 } derived) :=
    sound.keep ⟨rfl, rfl, Or.inl rfl⟩
  generalize device.used
    { device.getPublicKeyContext with bip44Path := device.requestedPath.2 } derived = used
    at begun kept
  cases instruction with
  | signTransaction => exact absurd rfl query
  | getVersion =>
    cases went
    exact sound.keep (answer_keepsTexts device _)
  | getPublicKey =>
    simp only [runHandler, handleGetPublicKey, begun] at went
    cases requested : device.requestedKeys sdk with
    | error thrown =>
      simp only [requested] at went
      cases went
      exact kept
    | ok keys =>
      simp only [requested] at went
      cases went
      exact kept.keep (answer_keepsTexts used _)
  | getSignedPublicKey =>
    simp only [runHandler, handleGetSignedPublicKey, begun] at went
    cases requested : device.requestedKeys sdk with
    | error thrown =>
      simp only [requested] at went
      cases went
      exact kept
    | ok keys =>
      simp only [requested] at went
      cases signed : sign sdk keys.1 (sdk.sha256 keys.2.contents).contents with
      | error thrown =>
        simp only [signed] at went
        cases went
        exact kept
      | ok signature =>
        simp only [signed] at went
        cases went
        exact kept.keep (answer_keepsTexts used _)
  | getAddress =>
    simp only [runHandler, handleGetAddress, begun] at went
    cases requested : device.requestedKeys sdk with
    | error thrown =>
      simp only [requested] at went
      cases went
      exact kept
    | ok keys =>
      simp only [requested] at went
      cases went
      exact kept.addressStored keys.2 rfl rfl rfl

/-- A command for another instruction than the signing one. -/
theorem SoundTexts.answered (sound : SoundTexts device) {apdu : Apdu}
    (other : ¬ device.AsksToSign apdu) (went : step sdk device (.apdu apdu) = .ok after) :
    SoundTexts after := by
  have received : SoundTexts (device.receive apdu) := sound.keep ⟨rfl, rfl, Or.inl rfl⟩
  rw [step, skyMainTurn] at went
  have dispatched : ∀ result, dispatch sdk apdu.bytes.length (device.receive apdu) = .ok result →
      SoundTexts result.2 := by
    intro result ran
    unfold dispatch at ran
    split at ran
    · cases ran
      exact received
    rename_i nonempty
    split at ran
    · cases ran
      exact received
    rename_i cla
    split at ran
    · cases ran
      exact received
    · rename_i instruction found
      refine received.query (fun sign => other ?_) ran
      rw [sign] at found
      exact ⟨nonempty, not_not.mp cla, (lookupHandler_sign _).mp found⟩
  cases ran : dispatch sdk apdu.bytes.length (device.receive apdu) with
  | error fault =>
    simp only [ran] at went
    cases went
  | ok result =>
    have stored := dispatched result ran
    obtain ⟨thrown, called⟩ := result
    simp only [ran] at went
    cases thrown with
    | none =>
      cases went
      exact stored.keep ⟨rfl, rfl, Or.inl rfl⟩
    | some code =>
      obtain ⟨replied, sent, rfl⟩ := map_ok went
      rw [ioExchangeWithCode_eq] at sent
      split at sent
      · cases sent
        exact stored.keep ⟨rfl, rfl, Or.inl rfl⟩
      · cases sent

theorem CommandResult.soundTexts {code : Nat} (goes : CommandResult sdk device code after)
    (sound : SoundTexts device) : SoundTexts after := by
  cases goes with
  | failed thrown result =>
    rw [result]
    exact sound.keep ⟨rfl, rfl, Or.inl rfl⟩
  | approve thrown result =>
    have prepared := @SoundTexts.prepared sdk _ sound
    rw [result]
    exact prepared.keep ⟨rfl, rfl, Or.inl rfl⟩
  | finished thrown fits result =>
    rw [result]
    exact sound.keep ⟨rfl, rfl, Or.inl rfl⟩
  | more other fits result =>
    rw [result]
    exact sound.keep ⟨rfl, rfl, Or.inl rfl⟩

theorem PressResult.soundTexts {code : Nat} (goes : PressResult sdk device code after)
    (sound : SoundTexts device) : SoundTexts after := by
  cases goes with
  | more thrown fits result =>
    rw [result]
    exact sound.keep ⟨rfl, rfl, Or.inl rfl⟩
  | approve thrown result =>
    rw [result]
    exact sound.prepared
  | last thrown fits result =>
    have prepared := @SoundTexts.prepared sdk _ sound
    rw [result]
    exact prepared.keep (reply_keepsTexts _ _ _)
  | ready thrown fits result =>
    rw [result]
    exact sound.keep ⟨rfl, rfl, Or.inl rfl⟩
  | failed thrown result =>
    rw [result]
    exact sound.keep ⟨rfl, rfl, Or.inl rfl⟩
  | silent other result =>
    rw [result]
    exact sound

theorem pressed_keepsTexts (device : Device) : KeepsTexts device device.pressed := by
  unfold Device.pressed startSession
  split <;> exact ⟨rfl, rfl, Or.inl rfl⟩

/-- The strings stay whole with every input. -/
theorem SoundTexts.step (sound : SoundTexts device) {input : Input}
    (went : step sdk device input = .ok after) : SoundTexts after := by
  have move := step_move sdk device input
  rw [went] at move
  cases move with
  | answered apdu command other =>
    rw [command] at went
    exact sound.answered other went
  | opened apdu command asked closed first result =>
    cases result
    exact sound.keep ⟨rfl, rfl, Or.inl rfl⟩
  | refused apdu command asked wrong result =>
    cases result
    exact sound.keep ⟨rfl, rfl, Or.inl rfl⟩
  | waits apdu command asked session later state result =>
    cases result
    exact sound.keep ⟨rfl, rfl, Or.inl rfl⟩
  | resumed apdu command asked session later state result =>
    obtain ⟨code, called, answered, call, goes, rfl⟩ := resumeByCommand_result result.symm
    have loaded : SoundTexts (device.loaded apdu) := sound.keep ⟨rfl, rfl, Or.inl rfl⟩
    have replied := goes.soundTexts (loaded.keep (txnNextElem_keepsTexts call))
    exact replied.keep ⟨rfl, rfl, Or.inl rfl⟩
  | cancelled press screen result =>
    cases result
    exact sound.keep ⟨rfl, rfl, Or.inl rfl⟩
  | pressed button press right screen result =>
    obtain ⟨code, called, call, goes⟩ := resumeByPress_result result.symm
    have pressed := sound.keep (pressed_keepsTexts device)
    exact goes.soundTexts (pressed.keep (txnNextElem_keepsTexts call))
  | shows screen elsewhere other result =>
    cases result
    exact sound.keep ⟨rfl, rfl, Or.inl rfl⟩

/-- At start-up no output is shown, and no address stored. -/
theorem soundTexts_boot : SoundTexts Device.boot where
  output := rfl
  outAddress := Or.inl rfl
  outAddressEnds := List.mem_replicate.mpr ⟨by decide, rfl⟩
  amount := List.mem_replicate.mpr ⟨by decide, rfl⟩
  address := by decide +kernel
  addressEnds := by decide +kernel

end Sound

end LedgerNano
