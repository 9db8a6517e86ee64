/-
This file embeds `apdu_handlers.c`, the button handler of `newTransaction.c`, and the
loop of `main.c` around them, one input of the outside world at a time.

The device waits inside `io_exchange`. A command makes `sky_main` leave it, run the handler
and come back, and the answer to a handler that threw is sent as the loop comes back; a
button press runs inside it and answers, if it does, by itself.
-/

import LedgerNano.Library.Runs
import LedgerNano.Screens

namespace LedgerNano

/-! ### Answers -/

def insRetSuccess : Nat := 0x9000

/-- The two bytes of a status. -/
def statusBytes (code : Nat) : Bytes :=
  [UInt8.ofNat (code >>> 8), UInt8.ofNat (code &&& 0xFF)]

/-- `io_exchange_with_code`. -/
def ioExchangeWithCode (code tx : Nat) (device : Device) : Except Fault Device :=
  if tx + 2 ≤ apduBufferLen then
    let apduBuffer := device.apduBuffer.write tx (statusBytes code)
    .ok ({ device with apduBuffer }.record (.reply (apduBuffer.read 0 (tx + 2))))
  else
    .error .apduBuffer

/-- `io_async_exchange_ok`. -/
def ioAsyncExchangeOk (device : Device) : Except Fault Device :=
  ioExchangeWithCode insRetSuccess device.tx device

/-- `io_async_exchange_error`. -/
def ioAsyncExchangeError (device : Device) : Except Fault Device :=
  ioExchangeWithCode 0x6B0 0 device

/-! ### The queries -/

/-- `APPVERSION`. -/
def appVersion : Bytes := [49, 46, 48, 46, 48]

/-- Put the payload of a query on the transport buffer. -/
def Device.answer (device : Device) (payload : Bytes) : Device :=
  { device with
    apduBuffer := device.apduBuffer.write 0 payload
    tx := device.tx + payload.length }

/-- `handleGetVersion`. -/
def handleGetVersion (device : Device) : Nat × Device :=
  (insRetSuccess, device.answer
    [appVersion.getD 0 0 - 48, appVersion.getD 2 0 - 48, appVersion.getD 4 0 - 48])

/-- What the three path queries begin with: `get_bip44_path` on the data and `derive_keypair`
on the stored path. -/
def deriveRequested (sdk : Sdk) (dataBuffer : Nat) (device : Device) :
    Except Nat (Cells Byte 32 × Cells Byte 65) × Device :=
  let path := getBip44Path (device.apduBuffer.read dataBuffer 20)
    device.getPublicKeyContext.bip44Path
  let device := { device with getPublicKeyContext.bip44Path := path.2 }
  match path.1 with
  | some code => (.error code, device)
  | none => (deriveKeypair sdk path.2.contents, device.record (.derive path.2.contents))

/-- `handleGetPublicKey`. -/
def handleGetPublicKey (sdk : Sdk) (dataBuffer : Nat) (device : Device) : Nat × Device :=
  match deriveRequested sdk dataBuffer device with
  | (.error code, device) => (code, device)
  | (.ok (_, publicKey), device) => (insRetSuccess, device.answer publicKey.contents)

/-- `handleGetSignedPublicKey`. -/
def handleGetSignedPublicKey (sdk : Sdk) (dataBuffer : Nat) (device : Device) : Nat × Device :=
  match deriveRequested sdk dataBuffer device with
  | (.error code, device) => (code, device)
  | (.ok (privateKey, publicKey), device) =>
    match sign sdk privateKey (sdk.sha256 publicKey.contents).contents with
    | .error code => (code, device)
    | .ok signature => (insRetSuccess, device.answer signature.contents)

/-- `handleGetAddress`. -/
def handleGetAddress (sdk : Sdk) (dataBuffer : Nat) (device : Device) : Nat × Device :=
  match deriveRequested sdk dataBuffer device with
  | (.error code, device) => (code, device)
  | (.ok (_, publicKey), device) =>
    let address :=
      storeText device.getPublicKeyContext.address (generateAddress sdk publicKey)
    (insRetSuccess,
      { device with getPublicKeyContext.address := address }.answer (textOf address))

/-! ### `handleSignTxn` -/

/-- `go_to_transaction_screen`, and every other `UX_DISPLAY(transaction_screen, …)`. -/
def goToTransactionScreen (device : Device) : Device :=
  { device with screen := .transaction }

/-- `show_message`. -/
def showMessage (device : Device) : Device :=
  { device with screen := .infoText }

/-- `ui_idle`. -/
def uiIdle (device : Device) : Device :=
  { device with screen := .menu }

/-- `ctx->initialized = false`. -/
def Device.endSession (device : Device) : Device :=
  { device with signTxnContext.initialized := false }

/-- The numbers of `txn_state_t`. -/
def TxnState.value : TxnState → Nat
  | .startIn => 0
  | .txnIn => 1
  | .startOut => 2
  | .txnOut => 3
  | .computeSigs => 4
  | .retSigs => 5

/-- The states in which a command resumes the parser at once. -/
def TxnState.resumedByCommand (state : TxnState) : Bool :=
  state.value < TxnState.startOut.value || state == .retSigs || state == .computeSigs

/-- The `switch` of `handleSignTxn` on the parser's result. The label `TXN_OUT` has the value of
`TXN_APPROVE_OUT`. -/
def handleSignTxnResult (sdk : Sdk) (code : Nat) (device : Device) : Except Fault Device :=
  if code = txnError then
    showMessage <$> ioAsyncExchangeError device.endSession
  else if code = TxnState.txnOut.value then
    .ok (goToTransactionScreen (prepareOutputApproval sdk device))
  else if code = txnPartial then
    ioAsyncExchangeOk device
  else if code = txnFinished then
    showMessage <$> ioAsyncExchangeOk device.endSession
  else
    ioAsyncExchangeOk device

/-- What `handleSignTxn` stores first: the place of the data in the command, and `*tx = 0`. -/
def Device.load (device : Device) (dataBuffer dataLength : Nat) : Device :=
  { device with
    signTxnContext.dataBuffer := dataBuffer
    signTxnContext.dataLength := dataLength
    tx := 0 }

/-- `handleSignTxn`. -/
def handleSignTxn (sdk : Sdk) (p1 dataBuffer dataLength : Nat) (device : Device) :
    Except Fault Device :=
  let device := device.load dataBuffer dataLength
  if ¬ device.signTxnContext.initialized ∧ p1 = 0 then
    .ok (goToTransactionScreen device)
  else if device.signTxnContext.initialized ∧ p1 = 1 then
    if device.signTxnContext.txnState.resumedByCommand then
      match txnNextElem sdk device with
      | .error fault => .error fault
      | .ok (code, device) => handleSignTxnResult sdk code device
    else
      .ok (goToTransactionScreen device)
  else
    showMessage <$> ioAsyncExchangeError device.endSession

/-! ### `transaction_screen_button` -/

/-- The buttons released: the left one, the right one or both. -/
inductive Button
  | left
  | right
  | both
  deriving DecidableEq

/-- The initialization of a session by the first right press. -/
def startSession (device : Device) : Device :=
  if device.signTxnContext.initialized then
    device
  else
    { device with
      signTxnContext.hash := []
      signTxnContext.txnState := .startIn
      signTxnContext.initialized := true
      signTxnContext.offset := 0 }.record .sessionStart

/-- `*ctx->tx += SHA256_HASH_LEN` after the inner hash was copied to the transport buffer. -/
def Device.answerInnerHash (device : Device) : Device :=
  { device with
    apduBuffer := device.apduBuffer.write 0 device.signTxnContext.txn.innerHash.contents
    tx := device.tx + sha256HashLen
    signTxnContext.txnState := .computeSigs }

/-- The `switch` of `transaction_screen_button` on the parser's result. -/
def transactionScreenResult (sdk : Sdk) (code : Nat) (device : Device) : Except Fault Device :=
  if code = txnPartial then
    ioAsyncExchangeOk device
  else if code = TxnState.txnOut.value then
    .ok (prepareOutputApproval sdk device)
  else if code = txnPartialOut then
    ioAsyncExchangeOk (prepareOutputApproval sdk device)
  else if code = txnReady then
    ioAsyncExchangeOk device.answerInnerHash
  else if code = txnError then
    ioAsyncExchangeError device.endSession
  else
    .ok device

/-- `transaction_screen_button`. -/
def transactionScreenButton (sdk : Sdk) (device : Device) : Button → Except Fault Device
  | .left => uiIdle <$> ioAsyncExchangeError (device.record .leftPress)
  | .right | .both =>
    match txnNextElem sdk
        (startSession (device.record (.rightPress device.transactionContext))) with
    | .error fault => .error fault
    | .ok (code, device) => transactionScreenResult sdk code device

/-! ### `sky_main` -/

/-- A command as the transport delivers it. -/
structure Apdu where
  bytes : Bytes
  fits : bytes.length ≤ apduBufferLen

inductive Instruction
  | getVersion
  | getAddress
  | getPublicKey
  | getSignedPublicKey
  | signTransaction
  deriving DecidableEq

/-- `lookupHandler`. -/
def lookupHandler (ins : Nat) : Option Instruction :=
  if ins = 0x01 then some .getVersion
  else if ins = 0x04 then some .getPublicKey
  else if ins = 0x08 then some .getSignedPublicKey
  else if ins = 0x02 then some .getAddress
  else if ins = 0x10 then some .signTransaction
  else none

/-- The handler an instruction runs: the code it throws, or none when it returns with
`IO_ASYNCH_REPLY` set. -/
def runHandler (sdk : Sdk) (instruction : Instruction) (device : Device) :
    Except Fault (Option Nat × Device) :=
  let threw (result : Nat × Device) : Except Fault (Option Nat × Device) :=
    .ok (some result.1, result.2)
  match instruction with
  | .getVersion => threw (handleGetVersion device)
  | .getAddress => threw (handleGetAddress sdk 5 device)
  | .getPublicKey => threw (handleGetPublicKey sdk 5 device)
  | .getSignedPublicKey => threw (handleGetSignedPublicKey sdk 5 device)
  | .signTransaction =>
    (fun device => (none, device)) <$> handleSignTxn sdk (byteAt device.apduBuffer.contents 2) 5
      (byteAt device.apduBuffer.contents 4) device

/-- The body of the `TRY` of `sky_main`, after `io_exchange` returned `rx`. -/
def dispatch (sdk : Sdk) (rx : Nat) (device : Device) : Except Fault (Option Nat × Device) :=
  if rx = 0 then
    .ok (some 0x6982, device)
  else if byteAt device.apduBuffer.contents 0 ≠ 0x80 then
    .ok (some 0x6E00, device)
  else
    match lookupHandler (byteAt device.apduBuffer.contents 1) with
    | none => .ok (some 0x6D00, device)
    | some instruction => runHandler sdk instruction device

/-- The status of an exception that reaches `sky_main`. -/
def exceptionStatus (e : Nat) : Nat :=
  if e &&& 0xF000 = 0x6000 ∨ e &&& 0xF000 = insRetSuccess then e else 0x6800 ||| (e &&& 0x7FF)

/-- `tx = 0`, as the loop comes back to `io_exchange`. -/
def Device.resetTx (device : Device) : Device :=
  { device with tx := 0 }

/-- The `CATCH_OTHER` of `sky_main` and the return to `io_exchange`, which sends the answer. -/
def sendStatus (e : Nat) (device : Device) : Except Fault Device :=
  Device.resetTx <$> ioExchangeWithCode (exceptionStatus e) device.tx device

/-- `io_exchange` returns with a command in the transport buffer. -/
def Device.receive (device : Device) (apdu : Apdu) : Device :=
  { device with apduBuffer := device.apduBuffer.write 0 apdu.bytes }.record (.command apdu.bytes)

/-- One turn of the loop of `sky_main`, from the arrival of a command. -/
def skyMainTurn (sdk : Sdk) (apdu : Apdu) (device : Device) : Except Fault Device :=
  let device := device.receive apdu
  match dispatch sdk apdu.bytes.length device with
  | .error fault => .error fault
  | .ok (some e, device) => sendStatus e device
  | .ok (none, device) => .ok device.resetTx

/-! ### The device and its runs -/

/-- What can happen to the device: a command, a released button, or the choice of the
address screen in the menu. -/
inductive Input
  | apdu (apdu : Apdu)
  | button (button : Button)
  | addressScreen

/-- The effect of a released button on the screen that is shown. -/
def pressButton (sdk : Sdk) (button : Button) (device : Device) : Except Fault Device :=
  match device.screen with
  | .transaction => transactionScreenButton sdk device button
  | .infoText => .ok (uiIdle device)
  | .address => .ok (if button = .left then { device with screen := .menu } else device)
  | .menu => .ok device

/-- One input. -/
def step (sdk : Sdk) (device : Device) : Input → Except Fault Device
  | .apdu apdu => skyMainTurn sdk apdu device
  | .button button => pressButton sdk button device
  | .addressScreen =>
    .ok (if device.screen = .menu then { device with screen := .address } else device)

/-- A run of the device. -/
def run (sdk : Sdk) : Device → List Input → Except Fault Device :=
  Runs.run (step sdk)

/-- `No address generated yet`, the address shown before one was asked for. -/
def noAddressText : Bytes :=
  [78, 111, 32, 97, 100, 100, 114, 101, 115, 115, 32, 103, 101, 110, 101, 114, 97, 116, 101, 100,
    32, 121, 101, 116]

/-- The device when `sky_main` first waits for a command: static memory is zero. -/
def Device.boot : Device where
  getPublicKeyContext :=
    { bip44Path := Cells.fill 0, address := storeText (Cells.fill 0) noAddressText }
  transactionContext :=
    { currentOutputDisplay := Cells.fill 0, outAddress := Cells.fill 0, amount := Cells.fill 0 }
  signTxnContext :=
    { initialized := false
      hash := []
      txnState := .startIn
      txn :=
        { innerHash := Cells.fill 0
          inNum := 0
          sigInput := Cells.fill (Cells.fill 0)
          outNum := 0
          curOutput := { address := List.replicate 21 0, coinNum := 0, hourNum := 0 } }
      buffer := Cells.fill 0
      offset := 0
      currObj := 0
      dataBuffer := 0
      dataLength := 0 }
  apduBuffer := Cells.fill 0
  tx := 0
  screen := .menu
  log := []

end LedgerNano
