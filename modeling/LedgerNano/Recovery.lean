/-
This file is about `send_txn` on a device in any state: one that an earlier script left in the
middle of a session, or whose user rejected a transaction.

A session that is open makes the device refuse the first chunk, and the refusal ends it. So the
script has to be started twice at most (`second_attempt_signs`).
-/

import LedgerNano.RawTransaction

namespace LedgerNano

/-- The script ends with the inner hash of the transaction and the signatures of its inputs by the
keys below the stored path. It leaves the path, and no session. -/
def Obtains (sdk : Sdk) (fuel : Nat) (inputs : List HostInput) (outputs : List HostOutput)
    (device : Device) : Prop :=
  ∃ signatures after,
    sendTxn sdk fuel (serializedTransaction inputs outputs) device =
      .ok (((sdk.sha256 (hashedTransaction inputs outputs)).contents,
        signatures.map Cells.contents), after) ∧
    inputs.mapM (HostInput.signature sdk device.getPublicKeyContext.bip44Path
      (sdk.sha256 (hashedTransaction inputs outputs)).contents) = .ok signatures ∧
    after.getPublicKeyContext.bip44Path = device.getPublicKeyContext.bip44Path ∧
    after.signTxnContext.initialized = false

/-- The device after it refused a command for the signing handler. -/
def Device.refusing (device : Device) (apdu : Apdu) : Device :=
  showMessage (device.loaded apdu).endSession.replyError

section Refusal

variable {sdk : Sdk} {device : Device}

/-- A reply with the status of an error raises an exception in the script. -/
theorem awaitReply_refused (sdk : Sdk) (turns : Nat) {status : Bytes} {past : List Event}
    (length : status.length = 2) (error : ¬ Accepts status)
    (log : device.log = .reply status :: past) :
    awaitReply sdk (turns + 1) device = .error (.refused status) := by
  rw [awaitReply, log, answerTo_reply]
  simp only
  rw [responseOf, length, Nat.sub_self, List.drop_zero, if_neg error]
  rfl

/-- A first chunk in the middle of a session. -/
theorem step_refuses (session : device.signTxnContext.initialized = true) {data : Bytes}
    (fits : data.length ≤ 254) :
    step sdk device (.apdu (ledgerApdu 0 data fits)) =
      .ok (device.refusing (ledgerApdu 0 data fits)) := by
  obtain ⟨asked, first, _⟩ := ledgerApdu_asks device 0 data fits
  have wrong : device.p1 (ledgerApdu 0 data fits) ≠ 1 := by
    rw [first]
    decide
  rw [step_signs sdk asked, if_pos session, if_neg wrong]
  rfl

/-- The script of a transaction ends at its first chunk in the middle of a session. -/
theorem sendTxn_refused (session : device.signTxnContext.initialized = true) {txn : Bytes}
    (some : 0 < txn.length) (turns : Nat) :
    sendTxn sdk (turns + 1) txn device = .error (.refused (statusBytes 0x6B0)) := by
  have chunks : sendChunks sdk (turns + 1) txn (turns + 1) 0 0 [] device =
      .error (.refused (statusBytes 0x6B0)) := by
    have log : (device.refusing (ledgerApdu 0 (chunkOf txn 0) (length_chunkOf txn 0))).log =
      .reply (statusBytes 0x6B0) :: .command (ledgerApdu 0 (chunkOf txn 0)
        (length_chunkOf txn 0)).bytes :: device.log := rfl
    rw [sendChunks, if_pos (by rw [Nat.mul_zero]; exact some), sendToLedger, step_refuses session]
    simp only
    rw [awaitReply_refused sdk turns rfl (by decide) log]
  rw [sendTxn, chunks]
  rfl

end Refusal

/-- Whatever the state of the device: without a session the script obtains the signatures. In the
middle of one the device answers its first chunk with the error status, shows nothing of the
transaction and signs nothing, and from then on the script obtains them. -/
theorem second_attempt_signs (sdk : Sdk) (delivers : sdk.Delivers) (inputs : List HostInput)
    (outputs : List HostOutput) (someInputs : 1 ≤ inputs.length) (fewInputs : inputs.length ≤ 20)
    (someOutputs : 1 ≤ outputs.length) (fewOutputs : outputs.length ≤ 255) (device : Device)
    (fuel : Nat) (enough : (serializedTransaction inputs outputs).length + 300 ≤ fuel) :
    if device.signTxnContext.initialized = true then
      sendTxn sdk fuel (serializedTransaction inputs outputs) device =
          .error (.refused (statusBytes 0x6B0)) ∧
        ∃ apdu after, apdu = ledgerApdu 0 (chunkOf (serializedTransaction inputs outputs) 0)
            (length_chunkOf _ 0) ∧
          step sdk device (.apdu apdu) = .ok after ∧
          after.log = .reply (statusBytes 0x6B0) :: .command apdu.bytes :: device.log ∧
          after.transactionContext = device.transactionContext ∧
          Obtains sdk fuel inputs outputs after
    else
      Obtains sdk fuel inputs outputs device := by
  have obtains : ∀ start : Device, start.signTxnContext.initialized = false →
      Obtains sdk fuel inputs outputs start := fun start closed =>
    sendTxn_signs delivers someInputs fewInputs someOutputs fewOutputs closed enough
  by_cases session : device.signTxnContext.initialized = true
  · rw [if_pos session]
    have some : 0 < (serializedTransaction inputs outputs).length := by
      simp only [serializedTransaction, List.length_append, length_le32]
      omega
    obtain ⟨turns, rfl⟩ : ∃ turns, fuel = turns + 1 := ⟨fuel - 1, by omega⟩
    exact ⟨sendTxn_refused session some turns, _, _, rfl, step_refuses session _, rfl, rfl,
      obtains _ rfl⟩
  · rw [if_neg session]
    exact obtains device (Bool.eq_false_of_not_eq_true session)

/-- A device whose session is open and has read nothing. -/
def openedDevice : Device := Device.boot.pressed

/-- One input and one output, on a device that was left in the middle of a session. -/
theorem second_attempt_signs_sample :
    sendTxn Sdk.plain 500 (serializedTransaction [sampleHostInput] [sampleHostOutput])
        openedDevice = .error (.refused (statusBytes 0x6B0)) ∧
      ∃ apdu after, apdu = ledgerApdu 0
          (chunkOf (serializedTransaction [sampleHostInput] [sampleHostOutput]) 0)
            (length_chunkOf _ 0) ∧
        step Sdk.plain openedDevice (.apdu apdu) = .ok after ∧
        after.log = .reply (statusBytes 0x6B0) :: .command apdu.bytes :: openedDevice.log ∧
        after.transactionContext = openedDevice.transactionContext ∧
        Obtains Sdk.plain 500 [sampleHostInput] [sampleHostOutput] after := by
  have attempts := second_attempt_signs Sdk.plain ⟨fun _ => ⟨_, rfl⟩, fun _ _ => ⟨_, rfl⟩⟩
    [sampleHostInput] [sampleHostOutput] (by decide) (by decide) (by decide) (by decide)
    openedDevice 500 (by decide)
  rw [if_pos (by decide)] at attempts
  exact attempts

end LedgerNano
