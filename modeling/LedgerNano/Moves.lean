/-
This file says once what an input can do to the device.

`runHandler_answers` and `step_answers` are about the instructions that answer at once: what they
put on the transport buffer, and what they leave alone. `Move` lists the ways a step can go, and
`step_move` says that every step goes one of them; what later files prove about runs they
prove by cases on it.
-/

import LedgerNano.Handlers

namespace LedgerNano

/-! ### Replies -/

theorem map_ok {Error First Second : Type} {change : First → Second} {result : Except Error First}
    {value : Second} (mapped : change <$> result = .ok value) :
    ∃ first, result = .ok first ∧ value = change first := by
  cases result with
  | error fault => cases mapped
  | ok first => exact ⟨first, rfl, (Except.ok.inj mapped).symm⟩

theorem bind_ok {Error First Second : Type} {first : Except Error First}
    {next : First → Except Error Second} {result : Second} (went : bind first next = .ok result) :
    ∃ middle, first = .ok middle ∧ next middle = .ok result := by
  cases first with
  | error fault => cases went
  | ok middle => exact ⟨middle, rfl, went⟩

/-- The device after an answer was sent: the bytes before `tx`, then the status. -/
def Device.reply (device : Device) (code tx : Nat) : Device :=
  { device with apduBuffer := device.apduBuffer.write tx (statusBytes code) }.record
    (.reply (device.apduBuffer.read 0 tx ++ statusBytes code))

theorem ioExchangeWithCode_eq (code tx : Nat) (device : Device) :
    ioExchangeWithCode code tx device =
      if tx + 2 ≤ apduBufferLen then .ok (device.reply code tx) else .error .apduBuffer := by
  unfold ioExchangeWithCode
  split
  · rename_i fits
    have written := device.apduBuffer.read_write_prefix tx (statusBytes code) fits
    rw [Device.reply, ← written]
    rfl
  · rfl

/-- The device after `io_async_exchange_ok`. -/
def Device.replyOk (device : Device) : Device :=
  device.reply insRetSuccess device.tx

/-- An answer is sent where there is room for its status. -/
theorem ioAsyncExchangeOk_eq {device : Device} (fits : device.tx + 2 ≤ apduBufferLen) :
    ioAsyncExchangeOk device = .ok device.replyOk := by
  rw [ioAsyncExchangeOk, ioExchangeWithCode_eq, if_pos fits, Device.replyOk]

theorem replyOk_of_ok {device after : Device} (answered : ioAsyncExchangeOk device = .ok after) :
    device.tx + 2 ≤ apduBufferLen ∧ after = device.replyOk := by
  rw [ioAsyncExchangeOk, ioExchangeWithCode_eq] at answered
  by_cases fits : device.tx + 2 ≤ apduBufferLen
  · rw [if_pos fits] at answered
    exact ⟨fits, (Except.ok.inj answered).symm⟩
  · rw [if_neg fits] at answered
    cases answered

/-- The error answer of the signing handlers. -/
def Device.replyError (device : Device) : Device :=
  device.reply 0x6B0 0

theorem ioAsyncExchangeError_eq (device : Device) :
    ioAsyncExchangeError device = .ok device.replyError := by
  rw [ioAsyncExchangeError, ioExchangeWithCode_eq, if_pos (by decide)]
  rfl

/-! ### What the small steps leave -/

section Small

variable (device : Device) (code tx : Nat) (event : Event)

@[simp] theorem record_signTxnContext :
    (device.record event).signTxnContext = device.signTxnContext := rfl

@[simp] theorem reply_log : (device.reply code tx).log =
    .reply (device.apduBuffer.read 0 tx ++ statusBytes code) :: device.log := rfl

@[simp] theorem replyOk_log : device.replyOk.log =
    .reply (device.apduBuffer.read 0 device.tx ++ statusBytes insRetSuccess) :: device.log := rfl

@[simp] theorem replyOk_signTxnContext :
    device.replyOk.signTxnContext = device.signTxnContext := rfl

@[simp] theorem replyOk_tx : device.replyOk.tx = device.tx := rfl

@[simp] theorem replyError_log :
    device.replyError.log = .reply (statusBytes 0x6B0) :: device.log := rfl

@[simp] theorem resetTx_log : device.resetTx.log = device.log := rfl

@[simp] theorem resetTx_signTxnContext :
    device.resetTx.signTxnContext = device.signTxnContext := rfl

@[simp] theorem goToTransactionScreen_log : (goToTransactionScreen device).log = device.log := rfl

@[simp] theorem goToTransactionScreen_signTxnContext :
    (goToTransactionScreen device).signTxnContext = device.signTxnContext := rfl

@[simp] theorem replyOk_transactionContext :
    device.replyOk.transactionContext = device.transactionContext := rfl

@[simp] theorem resetTx_transactionContext :
    device.resetTx.transactionContext = device.transactionContext := rfl

@[simp] theorem goToTransactionScreen_transactionContext :
    (goToTransactionScreen device).transactionContext = device.transactionContext := rfl

@[simp] theorem showMessage_log : (showMessage device).log = device.log := rfl

@[simp] theorem endSession_log : device.endSession.log = device.log := rfl

@[simp] theorem answerInnerHash_log : device.answerInnerHash.log = device.log := rfl

@[simp] theorem answerInnerHash_signTxnContext : device.answerInnerHash.signTxnContext =
    { device.signTxnContext with txnState := .computeSigs } := rfl

end Small

/-! ### The instructions that answer at once -/

/-- The command's path is checked and stored: the code thrown, if any, and the stored path. -/
def Device.requestedPath (device : Device) : Option Nat × Cells Nat 5 :=
  getBip44Path (device.apduBuffer.read 5 20) device.getPublicKeyContext.bip44Path

/-- The keys of the command's path. -/
def Device.requestedKeys (sdk : Sdk) (device : Device) :
    Except Nat (Cells Byte 32 × Cells Byte 65) :=
  match device.requestedPath with
  | (some code, _) => .error code
  | (none, path) => deriveKeypair sdk path.contents

/-- What an instruction other than the signing one answers with, or the code it throws instead. -/
def Device.payload (sdk : Sdk) (device : Device) : Instruction → Except Nat Bytes
  | .getVersion => .ok [1, 0, 0]
  | .getPublicKey => do
    let keys ← device.requestedKeys sdk
    pure keys.2.contents
  | .getSignedPublicKey => do
    let keys ← device.requestedKeys sdk
    let signature ← sign sdk keys.1 (sdk.sha256 keys.2.contents).contents
    pure signature.contents
  | .getAddress => do
    let keys ← device.requestedKeys sdk
    pure (generateAddress sdk keys.2)
  | .signTransaction => .ok []

/-- The code and the payload of an outcome: what is thrown instead of a payload comes alone. -/
def answerOf : Except Nat Bytes → Nat × Bytes
  | .ok payload => (insRetSuccess, payload)
  | .error code => (code, [])

/-- The device after such an instruction but for its payload: it may have stored a path or an
address, and derived a key. -/
def Device.used (device : Device) (context : GetPublicKeyContext) (derived : List (List Nat)) :
    Device :=
  { device with
    getPublicKeyContext := context
    log := derived.map Event.derive ++ device.log }

/-- The paths such an instruction derives and the path it leaves stored. -/
structure PathUse (device : Device) (context : GetPublicKeyContext) (derived : List (List Nat)) :
    Prop where
  derivations : ∀ path ∈ derived, device.requestedPath.1 = none ∧
    path = device.requestedPath.2.contents
  stored : context.bip44Path = device.getPublicKeyContext.bip44Path ∧ derived = [] ∨
    context.bip44Path = device.requestedPath.2

theorem textOf_storeText {size : Nat} (array : Cells Byte size) (text : Bytes)
    (fits : text.length < size) (letters : ∀ letter ∈ text, letter ≠ 0) :
    textOf (storeText array text) = text := by
  have stored := (storeText array text).contents.take_append_drop (text.length + 1)
  have front := read_storeText array text fits
  rw [Cells.read, List.drop_zero] at front
  have each : ∀ letter ∈ text, (letter != 0) = true := fun letter member =>
    bne_iff_ne.mpr (letters letter member)
  rw [textOf, ← stored, front, List.append_assoc,
    List.takeWhile_append_of_pos each, List.singleton_append, List.takeWhile_cons]
  simp only [bne_self_eq_false, Bool.false_eq_true, if_false, List.append_nil]

theorem answer_nil (device : Device) : device.answer [] = device := by
  rw [Device.answer, Cells.write_nil]
  rfl

/-- What the three path queries begin with. -/
theorem deriveRequested_eq (sdk : Sdk) (device : Device) :
    ∃ derived, deriveRequested sdk 5 device = (device.requestedKeys sdk, device.used
        { device.getPublicKeyContext with bip44Path := device.requestedPath.2 } derived) ∧
      ∀ path ∈ derived, device.requestedPath.1 = none ∧
        path = device.requestedPath.2.contents := by
  unfold deriveRequested Device.requestedKeys
  rw [← Device.requestedPath]
  simp only
  cases requested : device.requestedPath with
  | mk thrown path =>
    cases thrown with
    | some code => exact ⟨[], rfl, fun _ member => absurd member List.not_mem_nil⟩
    | none => exact ⟨[path.contents], rfl, fun other member => ⟨rfl, List.mem_singleton.mp member⟩⟩

/-- An instruction that answers at once: its outcome is the payload, and it uses no path but the
command's. -/
theorem runHandler_answers (sdk : Sdk) (device : Device) (instruction : Instruction)
    (query : instruction ≠ .signTransaction) :
    ∃ context derived, runHandler sdk instruction device =
        .ok (some (answerOf (device.payload sdk instruction)).1,
          (device.used context derived).answer (answerOf (device.payload sdk instruction)).2) ∧
      PathUse device context derived := by
  obtain ⟨derived, begun, derivations⟩ := deriveRequested_eq sdk device
  have use : PathUse device
      { device.getPublicKeyContext with bip44Path := device.requestedPath.2 } derived :=
    ⟨derivations, Or.inr rfl⟩
  cases instruction with
  | signTransaction => exact absurd rfl query
  | getVersion =>
    exact ⟨device.getPublicKeyContext, [], rfl, fun _ member => absurd member List.not_mem_nil,
      Or.inl ⟨rfl, rfl⟩⟩
  | getPublicKey =>
    refine ⟨_, derived, ?_, use⟩
    simp only [runHandler, handleGetPublicKey, begun, Device.payload]
    cases device.requestedKeys sdk with
    | error code =>
      simp only [bind, Except.bind, answerOf]
      rw [answer_nil]
    | ok keys => rfl
  | getSignedPublicKey =>
    refine ⟨_, derived, ?_, use⟩
    simp only [runHandler, handleGetSignedPublicKey, begun, Device.payload]
    cases device.requestedKeys sdk with
    | error code =>
      simp only [bind, Except.bind, answerOf]
      rw [answer_nil]
    | ok keys =>
      simp only [bind, Except.bind, pure, Except.pure]
      cases sign sdk keys.1 (sdk.sha256 keys.2.contents).contents with
      | error code =>
        simp only [answerOf]
        rw [answer_nil]
      | ok signature => rfl
  | getAddress =>
    simp only [runHandler, handleGetAddress, begun, Device.payload]
    cases device.requestedKeys sdk with
    | error code =>
      refine ⟨_, derived, ?_, use⟩
      simp only [bind, Except.bind, answerOf]
      rw [answer_nil]
    | ok keys =>
      have text := textOf_storeText device.getPublicKeyContext.address
        (generateAddress sdk keys.2) (Nat.lt_succ_of_le (length_toAddress_le sdk _))
        (encodeBase58_ne_zero _)
      refine ⟨⟨device.requestedPath.2, storeText device.getPublicKeyContext.address
        (generateAddress sdk keys.2)⟩, derived, ?_, derivations, Or.inr rfl⟩
      simp only [bind, Except.bind, pure, Except.pure, answerOf, Device.used]
      rw [text]

/-! ### What follows a call of the parser -/

/-- The ways `handleSignTxn` goes on after the parser. -/
inductive CommandResult (sdk : Sdk) (device : Device) (code : Nat) (after : Device) : Prop
  | failed (thrown : code = txnError)
      (result : after = showMessage device.endSession.replyError)
  | approve (thrown : code = txnApproveOut)
      (result : after = goToTransactionScreen (prepareOutputApproval sdk device))
  | finished (thrown : code = txnFinished) (fits : device.tx + 2 ≤ apduBufferLen)
      (result : after = showMessage device.endSession.replyOk)
  | more (other : code ≠ txnError ∧ code ≠ txnApproveOut ∧ code ≠ txnFinished)
      (fits : device.tx + 2 ≤ apduBufferLen) (result : after = device.replyOk)

/-- The ways `transaction_screen_button` goes on after the parser. -/
inductive PressResult (sdk : Sdk) (device : Device) (code : Nat) (after : Device) : Prop
  | more (thrown : code = txnPartial) (fits : device.tx + 2 ≤ apduBufferLen)
      (result : after = device.replyOk)
  | approve (thrown : code = txnApproveOut) (result : after = prepareOutputApproval sdk device)
  | last (thrown : code = txnPartialOut) (fits : device.tx + 2 ≤ apduBufferLen)
      (result : after = (prepareOutputApproval sdk device).replyOk)
  | ready (thrown : code = txnReady)
      (fits : device.tx + sha256HashLen + 2 ≤ apduBufferLen)
      (result : after = device.answerInnerHash.replyOk)
  | failed (thrown : code = txnError) (result : after = device.endSession.replyError)
  | silent (other : code ≠ txnPartial ∧ code ≠ txnApproveOut ∧ code ≠ txnPartialOut ∧
        code ≠ txnReady ∧ code ≠ txnError)
      (result : after = device)

theorem handleSignTxnResult_result {sdk : Sdk} {device after : Device} {code : Nat}
    (went : handleSignTxnResult sdk code device = .ok after) :
    CommandResult sdk device code after := by
  unfold handleSignTxnResult at went
  by_cases error : code = txnError
  · rw [if_pos error, ioAsyncExchangeError_eq] at went
    cases went
    exact CommandResult.failed error rfl
  rw [if_neg error] at went
  by_cases approve : code = TxnState.txnOut.value
  · rw [if_pos approve] at went
    cases went
    exact CommandResult.approve approve rfl
  rw [if_neg approve] at went
  by_cases partly : code = txnPartial
  · rw [if_pos partly] at went
    obtain ⟨fits, result⟩ := replyOk_of_ok went
    exact CommandResult.more ⟨error, approve, by rw [partly]; decide⟩ fits result
  rw [if_neg partly] at went
  by_cases finished : code = txnFinished
  · rw [if_pos finished] at went
    obtain ⟨answered, sent, rfl⟩ := map_ok went
    obtain ⟨fits, rfl⟩ := replyOk_of_ok sent
    exact CommandResult.finished finished fits rfl
  · rw [if_neg finished] at went
    obtain ⟨fits, result⟩ := replyOk_of_ok went
    exact CommandResult.more ⟨error, approve, finished⟩ fits result

theorem transactionScreenResult_result {sdk : Sdk} {device after : Device} {code : Nat}
    (went : transactionScreenResult sdk code device = .ok after) :
    PressResult sdk device code after := by
  unfold transactionScreenResult at went
  by_cases partly : code = txnPartial
  · rw [if_pos partly] at went
    obtain ⟨fits, result⟩ := replyOk_of_ok went
    exact PressResult.more partly fits result
  rw [if_neg partly] at went
  by_cases approve : code = TxnState.txnOut.value
  · rw [if_pos approve] at went
    cases went
    exact PressResult.approve approve rfl
  rw [if_neg approve] at went
  by_cases last : code = txnPartialOut
  · rw [if_pos last] at went
    obtain ⟨fits, result⟩ := replyOk_of_ok went
    rw [prepareOutputApproval_tx] at fits
    exact PressResult.last last fits result
  rw [if_neg last] at went
  by_cases ready : code = txnReady
  · rw [if_pos ready] at went
    obtain ⟨fits, result⟩ := replyOk_of_ok went
    exact PressResult.ready ready fits result
  rw [if_neg ready] at went
  by_cases error : code = txnError
  · rw [if_pos error, ioAsyncExchangeError_eq] at went
    cases went
    exact PressResult.failed error rfl
  · rw [if_neg error] at went
    cases went
    exact PressResult.silent ⟨partly, approve, last, ready, error⟩ rfl

theorem CommandResult.of_partial {sdk : Sdk} {device after : Device} {code : Nat}
    (goes : CommandResult sdk device code after) (thrown : code = txnPartial) :
    after = device.replyOk := by
  subst thrown
  cases goes with
  | more other fits result => exact result
  | failed thrown => exact absurd thrown (by decide)
  | approve thrown => exact absurd thrown (by decide)
  | finished thrown => exact absurd thrown (by decide)

theorem CommandResult.of_finished {sdk : Sdk} {device after : Device} {code : Nat}
    (goes : CommandResult sdk device code after) (thrown : code = txnFinished) :
    after = showMessage device.endSession.replyOk := by
  subst thrown
  cases goes with
  | finished thrown fits result => exact result
  | more other => exact absurd rfl other.2.2
  | failed thrown => exact absurd thrown (by decide)
  | approve thrown => exact absurd thrown (by decide)

theorem PressResult.of_partial {sdk : Sdk} {device after : Device} {code : Nat}
    (goes : PressResult sdk device code after) (thrown : code = txnPartial) :
    after = device.replyOk := by
  subst thrown
  cases goes with
  | more thrown fits result => exact result
  | approve thrown => exact absurd thrown (by decide)
  | last thrown => exact absurd thrown (by decide)
  | ready thrown => exact absurd thrown (by decide)
  | failed thrown => exact absurd thrown (by decide)
  | silent other => exact absurd rfl other.1

theorem PressResult.of_ready {sdk : Sdk} {device after : Device} {code : Nat}
    (goes : PressResult sdk device code after) (thrown : code = txnReady) :
    after = device.answerInnerHash.replyOk := by
  subst thrown
  cases goes with
  | ready thrown fits result => exact result
  | more thrown => exact absurd thrown (by decide)
  | approve thrown => exact absurd thrown (by decide)
  | last thrown => exact absurd thrown (by decide)
  | failed thrown => exact absurd thrown (by decide)
  | silent other => exact absurd rfl other.2.2.2.1

/-- A press changes the parser's state for the inner hash only. -/
theorem PressResult.txnState_eq {sdk : Sdk} {device after : Device} {code : Nat}
    (goes : PressResult sdk device code after) (other : code ≠ txnReady) :
    after.signTxnContext.txnState = device.signTxnContext.txnState := by
  cases goes with
  | ready thrown => exact absurd thrown other
  | more thrown fits result => rw [result, replyOk_signTxnContext]
  | approve thrown result => rw [result, prepareOutputApproval_signTxnContext]
  | last thrown fits result =>
    rw [result, replyOk_signTxnContext, prepareOutputApproval_signTxnContext]
  | failed thrown result =>
    rw [result]
    rfl
  | silent other result => rw [result]

theorem PressResult.of_finished {sdk : Sdk} {device after : Device} {code : Nat}
    (goes : PressResult sdk device code after) (thrown : code = txnFinished) : after = device := by
  subst thrown
  cases goes with
  | silent other result => exact result
  | more thrown => exact absurd thrown (by decide)
  | approve thrown => exact absurd thrown (by decide)
  | last thrown => exact absurd thrown (by decide)
  | ready thrown => exact absurd thrown (by decide)
  | failed thrown => exact absurd thrown (by decide)

/-- Of the parser's context going on after a command changes only whether a session is open. -/
theorem CommandResult.frames {sdk : Sdk} {device after : Device} {code : Nat}
    (goes : CommandResult sdk device code after) : after.signTxnContext =
      { device.signTxnContext with initialized := after.signTxnContext.initialized } := by
  cases goes with
  | failed thrown result =>
    subst result
    rfl
  | approve thrown result =>
    subst result
    rw [goToTransactionScreen_signTxnContext, prepareOutputApproval_signTxnContext]
  | finished thrown fits result =>
    subst result
    rfl
  | more other fits result =>
    subst result
    rfl

/-- Going on after a press changes the state as well. -/
theorem PressResult.frames {sdk : Sdk} {device after : Device} {code : Nat}
    (goes : PressResult sdk device code after) : after.signTxnContext =
      { device.signTxnContext with
        initialized := after.signTxnContext.initialized
        txnState := after.signTxnContext.txnState } := by
  cases goes with
  | more thrown fits result =>
    subst result
    rfl
  | approve thrown result =>
    subst result
    rw [prepareOutputApproval_signTxnContext]
  | last thrown fits result =>
    subst result
    rw [replyOk_signTxnContext, prepareOutputApproval_signTxnContext]
  | ready thrown fits result =>
    subst result
    rfl
  | failed thrown result =>
    subst result
    rfl
  | silent other result =>
    subst result
    rfl

/-- What every pass of the parser keeps, a call keeps. -/
theorem txnNextElem_keeps {sdk : Sdk} {motive : Device → Prop}
    (passes : ∀ device result, motive device → txnNextElemPass sdk device = .ok result →
      motive result.2)
    {device called : Device} {code : Nat} (initial : motive device)
    (went : txnNextElem sdk device = .ok (code, called)) : motive called := by
  unfold txnNextElem at went
  generalize device.signTxnContext.dataLength + 1 = count at went
  induction count generalizing device with
  | zero => cases went
  | succ count inductionHypothesis =>
    rw [txnNextElemLoop] at went
    cases passed : txnNextElemPass sdk device with
    | error fault =>
      rw [passed] at went
      cases went
    | ok result =>
      obtain ⟨thrown, next⟩ := result
      have kept := passes device _ initial passed
      rw [passed] at went
      cases thrown with
      | some thrown =>
        cases went
        exact kept
      | none => exact inductionHypothesis kept went

/-- The parser is resumed by a command. -/
def resumeByCommand (sdk : Sdk) (device : Device) : Except Fault Device :=
  match txnNextElem sdk device with
  | .error fault => .error fault
  | .ok (code, device) => Device.resetTx <$> handleSignTxnResult sdk code device

/-- The parser is resumed by a press. -/
def resumeByPress (sdk : Sdk) (device : Device) : Except Fault Device :=
  match txnNextElem sdk device with
  | .error fault => .error fault
  | .ok (code, device) => transactionScreenResult sdk code device

theorem resumeByCommand_result {sdk : Sdk} {device after : Device}
    (resumed : resumeByCommand sdk device = .ok after) :
    ∃ code called answered, txnNextElem sdk device = .ok (code, called) ∧
      CommandResult sdk called code answered ∧ after = answered.resetTx := by
  unfold resumeByCommand at resumed
  cases same : txnNextElem sdk device with
  | error fault =>
    rw [same] at resumed
    cases resumed
  | ok result =>
    obtain ⟨code, called⟩ := result
    rw [same] at resumed
    obtain ⟨answered, went, rfl⟩ := map_ok resumed
    exact ⟨code, called, answered, rfl, handleSignTxnResult_result went, rfl⟩

theorem resumeByPress_result {sdk : Sdk} {device after : Device}
    (resumed : resumeByPress sdk device = .ok after) :
    ∃ code called, txnNextElem sdk device = .ok (code, called) ∧
      PressResult sdk called code after := by
  unfold resumeByPress at resumed
  cases same : txnNextElem sdk device with
  | error fault =>
    rw [same] at resumed
    cases resumed
  | ok result =>
    obtain ⟨code, called⟩ := result
    rw [same] at resumed
    exact ⟨code, called, rfl, transactionScreenResult_result resumed⟩

/-! ### The ways a step can go -/

/-- The bytes of the buffer when a command has arrived. Behind a short command stand old ones. -/
def Device.header (device : Device) (apdu : Apdu) (index : Nat) : Nat :=
  byteAt (device.receive apdu).apduBuffer.contents index

theorem header_eq (device : Device) (apdu : Apdu) (index : Nat)
    (inside : index < apdu.bytes.length) :
    device.header apdu index = byteAt apdu.bytes index := by
  show byteAt (device.apduBuffer.write 0 apdu.bytes).contents index = _
  rw [Cells.contents_write _ _ _ (by rw [Nat.zero_add]; exact apdu.fits), List.take_zero,
    List.nil_append, byteAt, byteAt, List.getD_eq_getElem?_getD, List.getD_eq_getElem?_getD,
    List.getElem?_append_left inside]

/-- The command is one for `handleSignTxn`. -/
def Device.AsksToSign (device : Device) (apdu : Apdu) : Prop :=
  apdu.bytes.length ≠ 0 ∧ device.header apdu 0 = 0x80 ∧ device.header apdu 1 = 0x10

instance (device : Device) (apdu : Apdu) : Decidable (device.AsksToSign apdu) :=
  inferInstanceAs (Decidable (_ ∧ _))

/-- `P1` of a command. -/
def Device.p1 (device : Device) (apdu : Apdu) : Nat :=
  device.header apdu 2

/-- The device with the data of a signing command stored. -/
def Device.loaded (device : Device) (apdu : Apdu) : Device :=
  (device.receive apdu).load 5 (device.header apdu 4)

/-- The command `INS_SIGN_TRANSACTION` with its data. -/
def signApdu (p1 : Byte) (data : Bytes) (fits : data.length ≤ 255) : Apdu where
  bytes := [0x80, 0x10, p1, 0, UInt8.ofNat data.length] ++ data
  fits := by
    rw [List.length_append]
    exact Nat.add_le_add_left fits 5

theorem empty_fits : ([] : Bytes).length ≤ 255 :=
  Nat.zero_le _

theorem asksToSign_signApdu (device : Device) (p1 : Byte) (data : Bytes)
    (fits : data.length ≤ 255) :
    device.AsksToSign (signApdu p1 data fits) ∧ device.p1 (signApdu p1 data fits) = p1.toNat := by
  have length : (signApdu p1 data fits).bytes.length = 5 + data.length := List.length_append
  refine ⟨⟨by omega, ?_, ?_⟩, ?_⟩
  · rw [header_eq _ _ _ (by omega)]
    rfl
  · rw [header_eq _ _ _ (by omega)]
    rfl
  · rw [Device.p1, header_eq _ _ _ (by omega)]
    rfl

/-- The outcome of a command for another instruction, or for none. -/
def Device.outcome (sdk : Sdk) (device : Device) (apdu : Apdu) : Except Nat Bytes :=
  if apdu.bytes.length = 0 then
    .error 0x6982
  else if device.header apdu 0 ≠ 0x80 then
    .error 0x6E00
  else
    match lookupHandler (device.header apdu 1) with
    | none => .error 0x6D00
    | some instruction => (device.receive apdu).payload sdk instruction

/-- The session a right press leads to. -/
def Device.pressed (device : Device) : Device :=
  startSession (device.record (.rightPress device.transactionContext))

section Pressed

variable {device : Device}

/-- An open session goes on with a press. -/
theorem pressed_going (session : device.signTxnContext.initialized = true) :
    device.pressed = device.record (.rightPress device.transactionContext) :=
  if_pos session

theorem pressed_initialized (device : Device) :
    device.pressed.signTxnContext.initialized = true := by
  unfold Device.pressed startSession
  split
  · assumption
  · rfl

/-- A press leaves the keys and the words of the path alone until the parser is called. -/
theorem pressed_keys (device : Device) :
    device.pressed.getPublicKeyContext = device.getPublicKeyContext := by
  unfold Device.pressed startSession
  split <;> rfl

theorem pressed_screen (device : Device) : device.pressed.screen = device.screen := by
  unfold Device.pressed startSession
  split <;> rfl

theorem pressed_tx (device : Device) : device.pressed.tx = device.tx := by
  unfold Device.pressed startSession
  split <;> rfl

end Pressed

/-- The device on which an input calls the parser, if it does: a signing command in an open session
that is not at its outputs, or a right press on the transaction screen. -/
def Device.resumedBy (device : Device) : Input → Option Device
  | .apdu apdu =>
    if device.AsksToSign apdu ∧ device.signTxnContext.initialized = true ∧ device.p1 apdu = 1 ∧
        device.signTxnContext.txnState.resumedByCommand = true then
      some (device.loaded apdu)
    else
      none
  | .button button =>
    if button ≠ .left ∧ device.screen = .transaction then some device.pressed else none
  | .addressScreen => none

theorem resumedBy_command {device : Device} {apdu : Apdu} (asked : device.AsksToSign apdu)
    (session : device.signTxnContext.initialized = true) (later : device.p1 apdu = 1)
    (state : device.signTxnContext.txnState.resumedByCommand = true) :
    device.resumedBy (.apdu apdu) = some (device.loaded apdu) :=
  if_pos ⟨asked, session, later, state⟩

theorem resumedBy_press {device : Device} {button : Button} (right : button ≠ .left)
    (screen : device.screen = .transaction) :
    device.resumedBy (.button button) = some device.pressed :=
  if_pos ⟨right, screen⟩

/-- The ways a step can go, with its result. -/
inductive Move (sdk : Sdk) (device : Device) (input : Input) (result : Except Fault Device) : Prop
  | answered (apdu : Apdu) (command : input = .apdu apdu) (other : ¬ device.AsksToSign apdu)
      (context : GetPublicKeyContext) (derived : List (List Nat))
      (use : PathUse (device.receive apdu) context derived)
      (went : result = sendStatus (answerOf (device.outcome sdk apdu)).1
        (((device.receive apdu).used context derived).answer
          (answerOf (device.outcome sdk apdu)).2))
  | opened (apdu : Apdu) (command : input = .apdu apdu) (asked : device.AsksToSign apdu)
      (closed : device.signTxnContext.initialized = false) (first : device.p1 apdu = 0)
      (went : result = .ok (goToTransactionScreen (device.loaded apdu)))
  | refused (apdu : Apdu) (command : input = .apdu apdu) (asked : device.AsksToSign apdu)
      (wrong : device.p1 apdu ≠ (if device.signTxnContext.initialized then 1 else 0))
      (went : result = .ok (showMessage (device.loaded apdu).endSession.replyError))
  | waits (apdu : Apdu) (command : input = .apdu apdu) (asked : device.AsksToSign apdu)
      (session : device.signTxnContext.initialized = true) (later : device.p1 apdu = 1)
      (state : device.signTxnContext.txnState.resumedByCommand = false)
      (went : result = .ok (goToTransactionScreen (device.loaded apdu)))
  | resumed (apdu : Apdu) (command : input = .apdu apdu) (asked : device.AsksToSign apdu)
      (session : device.signTxnContext.initialized = true) (later : device.p1 apdu = 1)
      (state : device.signTxnContext.txnState.resumedByCommand = true)
      (went : result = resumeByCommand sdk (device.loaded apdu))
  | cancelled (press : input = .button .left) (screen : device.screen = .transaction)
      (went : result = .ok (uiIdle (device.record .leftPress).replyError))
  | pressed (button : Button) (press : input = .button button) (right : button ≠ .left)
      (screen : device.screen = .transaction) (went : result = resumeByPress sdk device.pressed)
  | shows (screen : Screen)
      (elsewhere : input = .addressScreen ∨
        ∃ button, input = .button button ∧ device.screen ≠ .transaction)
      (other : screen = device.screen ∨ screen ≠ .transaction)
      (went : result = .ok { device with screen })

theorem lookupHandler_sign (ins : Nat) :
    lookupHandler ins = some .signTransaction ↔ ins = 0x10 := by
  unfold lookupHandler
  constructor
  · intro found
    split at found <;> try cases found
    split at found <;> try cases found
    split at found <;> try cases found
    split at found <;> try cases found
    split at found
    · assumption
    · cases found
  · intro same
    subst same
    rfl

/-- A command for another instruction than the signing one. -/
theorem dispatch_answers (sdk : Sdk) (device : Device) (apdu : Apdu)
    (other : ¬ device.AsksToSign apdu) :
    ∃ context derived, dispatch sdk apdu.bytes.length (device.receive apdu) =
        .ok (some (answerOf (device.outcome sdk apdu)).1,
          ((device.receive apdu).used context derived).answer
            (answerOf (device.outcome sdk apdu)).2) ∧
      PathUse (device.receive apdu) context derived := by
  have untouched : ∀ code, ∃ context derived,
      (.ok (some code, device.receive apdu) : Except Fault (Option Nat × Device)) =
        .ok (some (answerOf (.error code)).1,
          ((device.receive apdu).used context derived).answer (answerOf (.error code)).2) ∧
      PathUse (device.receive apdu) context derived := by
    intro code
    refine ⟨(device.receive apdu).getPublicKeyContext, [], ?_,
      fun _ member => absurd member List.not_mem_nil, Or.inl ⟨rfl, rfl⟩⟩
    simp only [answerOf]
    rw [answer_nil]
    rfl
  unfold dispatch Device.outcome Device.header
  by_cases empty : apdu.bytes.length = 0
  · rw [if_pos empty, if_pos empty]
    exact untouched 0x6982
  rw [if_neg empty, if_neg empty]
  by_cases cla : byteAt (device.receive apdu).apduBuffer.contents 0 ≠ 0x80
  · rw [if_pos cla, if_pos cla]
    exact untouched 0x6E00
  rw [if_neg cla, if_neg cla]
  cases found : lookupHandler (byteAt (device.receive apdu).apduBuffer.contents 1) with
  | none => exact untouched 0x6D00
  | some instruction =>
    refine runHandler_answers sdk (device.receive apdu) instruction fun sign => other ?_
    rw [sign] at found
    exact ⟨empty, not_not.mp cla, (lookupHandler_sign _).mp found⟩

/-- A command for the signing instruction. -/
theorem dispatch_signs (sdk : Sdk) (device : Device) (apdu : Apdu)
    (asked : device.AsksToSign apdu) :
    dispatch sdk apdu.bytes.length (device.receive apdu) = (fun device => (none, device)) <$>
      handleSignTxn sdk (device.p1 apdu) 5 (device.header apdu 4) (device.receive apdu) := by
  obtain ⟨nonempty, cla, ins⟩ := asked
  have found : lookupHandler (byteAt (device.receive apdu).apduBuffer.contents 1) =
      some .signTransaction := (lookupHandler_sign _).mpr ins
  unfold Device.header at cla
  rw [dispatch, if_neg nonempty, if_neg (not_not.mpr cla), found]
  rfl

/-- What a signing command is answered with, once the loop of `sky_main` is back. -/
theorem skyMainTurn_signs (sdk : Sdk) (device : Device) (apdu : Apdu)
    (asked : device.AsksToSign apdu) :
    skyMainTurn sdk apdu device = Device.resetTx <$>
      handleSignTxn sdk (device.p1 apdu) 5 (device.header apdu 4) (device.receive apdu) := by
  rw [skyMainTurn, dispatch_signs sdk device apdu asked]
  cases handleSignTxn sdk (device.p1 apdu) 5 (device.header apdu 4) (device.receive apdu) with
  | error fault => rfl
  | ok after => rfl

/-- The ways of a signing command. -/
theorem step_signs (sdk : Sdk) {device : Device} {apdu : Apdu} (asked : device.AsksToSign apdu) :
    step sdk device (.apdu apdu) =
      if device.signTxnContext.initialized = true then
        if device.p1 apdu = 1 then
          if device.signTxnContext.txnState.resumedByCommand = true then
            resumeByCommand sdk (device.loaded apdu)
          else
            .ok (goToTransactionScreen (device.loaded apdu))
        else
          .ok (showMessage (device.loaded apdu).endSession.replyError)
      else
        if device.p1 apdu = 0 then
          .ok (goToTransactionScreen (device.loaded apdu))
        else
          .ok (showMessage (device.loaded apdu).endSession.replyError) := by
  have same : (device.receive apdu).load 5 (device.header apdu 4) = device.loaded apdu := rfl
  have session : (device.loaded apdu).signTxnContext.initialized =
      device.signTxnContext.initialized := rfl
  have state : (device.loaded apdu).signTxnContext.txnState =
      device.signTxnContext.txnState := rfl
  rw [step, skyMainTurn_signs sdk device apdu asked]
  unfold handleSignTxn
  rw [same]
  simp only [session, state]
  rw [ioAsyncExchangeError_eq]
  cases device.signTxnContext.initialized with
  | false =>
    rw [if_neg Bool.false_ne_true]
    by_cases first : device.p1 apdu = 0
    · rw [if_pos ⟨Bool.false_ne_true, first⟩, if_pos first]
      rfl
    · rw [if_neg fun both => first both.2, if_neg fun both => Bool.false_ne_true both.1,
        if_neg first]
      rfl
  | true =>
    rw [if_neg fun both => both.1 rfl, if_pos rfl]
    by_cases later : device.p1 apdu = 1
    · rw [if_pos ⟨rfl, later⟩, if_pos later]
      split
      · rw [resumeByCommand]
        cases txnNextElem sdk (device.loaded apdu) <;> rfl
      · rfl
    · rw [if_neg fun both => later both.2, if_neg later]
      rfl

/-- The way of any other command. -/
theorem step_answers (sdk : Sdk) {device : Device} {apdu : Apdu}
    (other : ¬ device.AsksToSign apdu) :
    ∃ context derived, step sdk device (.apdu apdu) =
        sendStatus (answerOf (device.outcome sdk apdu)).1
          (((device.receive apdu).used context derived).answer
            (answerOf (device.outcome sdk apdu)).2) ∧
      PathUse (device.receive apdu) context derived := by
  obtain ⟨context, derived, answered, use⟩ := dispatch_answers sdk device apdu other
  exact ⟨context, derived, by rw [step, skyMainTurn, answered], use⟩

theorem step_leftPress (sdk : Sdk) {device : Device} (screen : device.screen = .transaction) :
    step sdk device (.button .left) = .ok (uiIdle (device.record .leftPress).replyError) := by
  rw [step, pressButton, screen]
  simp only [transactionScreenButton]
  rw [ioAsyncExchangeError_eq]
  rfl

theorem step_rightPress (sdk : Sdk) {device : Device} {button : Button}
    (screen : device.screen = .transaction) (right : button ≠ .left) :
    step sdk device (.button button) = resumeByPress sdk device.pressed := by
  rw [step, pressButton, screen]
  cases button with
  | left => exact absurd rfl right
  | right => rfl
  | both => rfl

theorem step_apdu_move (sdk : Sdk) (device : Device) (apdu : Apdu) :
    Move sdk device (.apdu apdu) (step sdk device (.apdu apdu)) := by
  by_cases asked : device.AsksToSign apdu
  · rw [step_signs sdk asked]
    split
    · rename_i session
      split
      · rename_i later
        split
        · rename_i state
          exact Move.resumed apdu rfl asked session later state rfl
        · rename_i state
          exact Move.waits apdu rfl asked session later (Bool.eq_false_of_not_eq_true state) rfl
      · rename_i wrong
        exact Move.refused apdu rfl asked (by rw [if_pos session]; exact wrong) rfl
    · rename_i session
      split
      · rename_i first
        exact Move.opened apdu rfl asked (Bool.eq_false_of_not_eq_true session) first rfl
      · rename_i wrong
        exact Move.refused apdu rfl asked (by rw [if_neg session]; exact wrong) rfl
  · obtain ⟨context, derived, answered, use⟩ := step_answers sdk asked
    exact Move.answered apdu rfl asked context derived use answered

/-- Every step goes one of the ways of `Move`. -/
theorem step_move (sdk : Sdk) (device : Device) (input : Input) :
    Move sdk device input (step sdk device input) := by
  cases input with
  | apdu apdu => exact step_apdu_move sdk device apdu
  | button button =>
    cases screen : device.screen with
    | transaction =>
      by_cases left : button = .left
      · subst left
        exact Move.cancelled rfl screen (step_leftPress sdk screen)
      · exact Move.pressed button rfl left screen (step_rightPress sdk screen left)
    | menu =>
      have elsewhere : device.screen ≠ .transaction := by rw [screen]; decide
      refine Move.shows device.screen (Or.inr ⟨button, rfl, elsewhere⟩) (Or.inl rfl) ?_
      show step sdk device (.button button) = .ok device
      rw [step, pressButton, screen]
    | infoText =>
      have elsewhere : device.screen ≠ .transaction := by rw [screen]; decide
      refine Move.shows .menu (Or.inr ⟨button, rfl, elsewhere⟩) (Or.inr (by decide)) ?_
      rw [step, pressButton, screen]
      rfl
    | address =>
      have elsewhere : device.screen ≠ .transaction := by rw [screen]; decide
      by_cases left : button = .left
      · refine Move.shows .menu (Or.inr ⟨button, rfl, elsewhere⟩) (Or.inr (by decide)) ?_
        rw [step, pressButton, screen]
        simp only
        rw [if_pos left]
      · refine Move.shows device.screen (Or.inr ⟨button, rfl, elsewhere⟩) (Or.inl rfl) ?_
        show step sdk device (.button button) = .ok device
        rw [step, pressButton, screen]
        simp only
        rw [if_neg left]
  | addressScreen =>
    rw [step]
    split
    · exact Move.shows .address (Or.inl rfl) (Or.inr (by decide)) rfl
    · exact Move.shows device.screen (Or.inl rfl) (Or.inl rfl) rfl

end LedgerNano
