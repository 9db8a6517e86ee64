/-
This file says what the device and the scripts are for, as a whole: a wallet. It remembers one path.
A script asks for something made of the keys of a path, or has a transaction signed with the keys
below the path that was sent last.

The scripts do any sequence of such jobs on the device as this wallet does them
(`device_is_wallet`), with paths that are refused, and with exceptions the SDK raises as it makes a
public key. The wallet is not quite the one a user has in mind: a refused path changes the one it
remembers. After a path that is accepted nothing of the history is left (`history_is_forgotten`).
-/

import LedgerNano.Library.Service
import LedgerNano.Ownership

namespace LedgerNano

open Service

/-! ### The wallet -/

/-- The one path a wallet remembers. -/
structure Wallet where
  path : Cells Nat 5

/-- `bip44_path` of a script: digits of twenty bytes. -/
structure Request where
  text : Bytes
  data : Bytes
  reads : Reads text data
  length : data.length = 20

/-- What a script has signed: the texts of inputs and outputs, and what they denote. -/
structure Payment (maxint : Nat) where
  texts : List ScriptInput
  inputs : List HostInput
  denoteIns : List.Forall₂ (ScriptInput.Denotes maxint) texts inputs
  outTexts : List ScriptOutput
  outputs : List HostOutput
  denoteOuts : List.Forall₂ (ScriptOutput.Denotes maxint) outTexts outputs
  someInputs : 1 ≤ inputs.length
  fewInputs : inputs.length ≤ 20
  someOutputs : 1 ≤ outputs.length
  fewOutputs : outputs.length ≤ 255

/-- What a user has the scripts do. -/
inductive Job (maxint : Nat)
  | ask (script : QueryScript) (request : Request)
  | pay (payment : Payment maxint)

/-- What a script prints at its end: a response or a transaction, or the status in the exception it
ends with. -/
inductive Printed
  | response (bytes : Bytes)
  | exception (status : Bytes)
  deriving DecidableEq

/-- A code and a payload, as a script prints them. -/
def printOf (answer : Nat × Bytes) : Printed :=
  if Accepts (statusBytes (exceptionStatus answer.1)) then .response answer.2
  else .exception (statusBytes (exceptionStatus answer.1))

theorem printOf_success (payload : Bytes) : printOf (insRetSuccess, payload) = .response payload :=
  if_pos (show Accepts (statusBytes (exceptionStatus insRetSuccess)) by decide)

theorem printOf_refused : printOf (insRetWrongData, []) =
    .exception (statusBytes insRetWrongData) :=
  if_neg (by decide)

/-- What a script gets of the keys of a path, if there are any. -/
def QueryScript.madeOf (sdk : Sdk) (keys : Except Nat (Cells Byte 32 × Cells Byte 65)) :
    QueryScript → Except Nat Bytes
  | .getVersion => .ok [1, 0, 0]
  | .getAddress => do
    let keys ← keys
    pure (generateAddress sdk keys.2)
  | .getPublicKey => do
    let keys ← keys
    pure keys.2.contents
  | .getSignedPublicKey => do
    let keys ← keys
    let signature ← sign sdk keys.1 (sdk.sha256 keys.2.contents).contents
    pure signature.contents

/-- A wallet is asked for something: a path is remembered and used, or it is refused and the words
stored until then replace those of the path. -/
def Wallet.ask (sdk : Sdk) (script : QueryScript) (data : Bytes) (wallet : Wallet) :
    Printed × Wallet :=
  if script = .getVersion then
    (.response [1, 0, 0], wallet)
  else if ValidPath (pathWords data) then
    (printOf (answerOf (script.madeOf sdk (deriveKeypair sdk (pathWords data)))), ⟨pathCells data⟩)
  else
    (.exception (statusBytes insRetWrongData), ⟨wallet.path.write 0 (storedWords data)⟩)

/-- The signatures an SDK that does not fail makes of the inputs. -/
noncomputable def Sdk.Delivers.signed {sdk : Sdk} (delivers : sdk.Delivers) (path : Cells Nat 5)
    (innerHash : Bytes) (inputs : List HostInput) : List (Cells Byte 65) :=
  Classical.choose (delivers.signatures path innerHash inputs)

theorem Sdk.Delivers.signs_signed {sdk : Sdk} (delivers : sdk.Delivers) (path : Cells Nat 5)
    (innerHash : Bytes) (inputs : List HostInput) :
    inputs.mapM (HostInput.signature sdk path innerHash) =
      .ok (delivers.signed path innerHash inputs) :=
  Classical.choose_spec (delivers.signatures path innerHash inputs)

/-- A wallet signs with the keys below its path, and keeps it. -/
noncomputable def Wallet.pay {sdk : Sdk} (delivers : sdk.Delivers) {maxint : Nat}
    (payment : Payment maxint) (wallet : Wallet) : Printed × Wallet :=
  let innerHash := sdk.sha256 (hashedTransaction payment.inputs payment.outputs)
  let signatures := delivers.signed wallet.path innerHash.contents payment.inputs
  (.response (rawText maxint (hexText innerHash.contents)
    ((signatures.map Cells.contents).map hexText) payment.texts payment.outTexts), wallet)

/-- What a wallet does. -/
noncomputable def Job.onWallet {sdk : Sdk} (delivers : sdk.Delivers) {maxint : Nat} :
    Job maxint → Wallet → Printed × Wallet
  | .ask script request => Wallet.ask sdk script request.data
  | .pay payment => Wallet.pay delivers payment

/-! ### The scripts -/

/-- `dongle.exchange` at the end of a script: the response is printed, or the exception ends the
script, with its status. Either way the device is left as it is. -/
def awaitPrint (sdk : Sdk) : Nat → Device → Except Mishap (Printed × Device)
  | 0, _ => .error .endless
  | turns + 1, device =>
    match answerTo device.log with
    | some reply =>
      match responseOf reply with
      | .ok response => .ok (.response response, device)
      | .error (.refused status) => .ok (.exception status, device)
      | .error mishap => .error mishap
    | none =>
      if device.screen = .transaction then
        match step sdk device (.button .right) with
        | .error fault => .error (.fault fault)
        | .ok device => awaitPrint sdk turns device
      else
        .error .silent

/-- `dongle.exchange` of the request, at the end of a script. -/
def exchangePrint (sdk : Sdk) (turns : Nat) (bytes : Bytes) (device : Device) :
    Except ScriptError (Printed × Device) :=
  if fits : bytes.length ≤ apduBufferLen then
    match step sdk device (.apdu ⟨bytes, fits⟩) with
    | .error fault => .error (.mishap (.fault fault))
    | .ok device => asScript (awaitPrint sdk turns device)
  else
    .error .tooLong

/-- A script that asks for something, with what it prints. -/
def QueryScript.print (sdk : Sdk) (maxint turns : Nat) (bip44Path : Bytes) (script : QueryScript)
    (device : Device) : Except ScriptError (Printed × Device) :=
  match requestText maxint script.ins.toNat 0 0 bip44Path script.le.toNat with
  | none => .error .valueError
  | some req =>
    match fromHex req with
    | none => .error .valueError
    | some bytes => exchangePrint sdk turns bytes device

/-- What the scripts do with the device. -/
def Job.onDevice (sdk : Sdk) (maxint fuel : Nat) :
    Job maxint → Device → Except ScriptError (Printed × Device)
  | .ask script request => script.print sdk maxint fuel request.text
  | .pay payment => fun device =>
    (fun raw => (.response raw.1, raw.2)) <$>
      createRawTransaction sdk maxint fuel payment.texts payment.outTexts device

/-- A device that waits for a command with no session open, with the path of a wallet. -/
structure Stands (wallet : Wallet) (device : Device) : Prop where
  ready : device.tx = 0
  closed : device.signTxnContext.initialized = false
  path : device.getPublicKeyContext.bip44Path = wallet.path

/-! ### Asking -/

section Asking

variable {sdk : Sdk} {device after : Device} {script : QueryScript} {data : Bytes}

/-- The exception is raised instead of being printed, and the device is not looked at any more. -/
def raising {Error : Type} (raised : Mishap → Error) :
    Except Error (Printed × Device) → Except Error (Bytes × Device)
  | .error error => .error error
  | .ok (.response response, after) => .ok (response, after)
  | .ok (.exception status, _) => .error (raised (.refused status))

theorem awaitReply_of_print (turns : Nat) :
    awaitReply sdk turns device = raising id (awaitPrint sdk turns device) := by
  induction turns generalizing device with
  | zero => rfl
  | succ turns inductionHypothesis =>
    rw [awaitReply, awaitPrint]
    cases answerTo device.log with
    | some reply =>
      simp only
      cases responseOf reply with
      | ok response => rfl
      | error mishap => cases mishap <;> rfl
    | none =>
      simp only
      by_cases screen : device.screen = .transaction
      · rw [if_pos screen, if_pos screen]
        cases step sdk device (.button .right) with
        | error fault => rfl
        | ok pressed => exact inductionHypothesis
      · rw [if_neg screen, if_neg screen]
        rfl

/-- A script with what it prints is the same script. -/
theorem call_of_print (maxint turns : Nat) (text : Bytes) :
    script.call sdk maxint turns text device =
      raising ScriptError.mishap (script.print sdk maxint turns text device) := by
  rw [call_eq, sendToLedgerText, QueryScript.print]
  cases requestText maxint script.ins.toNat 0 0 text script.le.toNat with
  | none => rfl
  | some req =>
    simp only
    cases fromHex req with
    | none => rfl
    | some bytes =>
      simp only
      rw [exchange, exchangePrint]
      by_cases fits : bytes.length ≤ apduBufferLen
      · rw [dif_pos fits, dif_pos fits]
        cases step sdk device (.apdu ⟨bytes, fits⟩) with
        | error fault => rfl
        | ok answered =>
          simp only
          rw [awaitReply_of_print]
          cases awaitPrint sdk turns answered with
          | error mishap => rfl
          | ok printed =>
            obtain ⟨printed, after⟩ := printed
            cases printed <;> rfl
      · rw [dif_neg fits, dif_neg fits]
        rfl

/-- A reply that is there is printed. -/
theorem awaitPrint_answered (sdk : Sdk) (turns : Nat) {answer : Nat × Bytes} {past : List Event}
    (log : device.log = .reply (answer.2 ++ statusBytes (exceptionStatus answer.1)) :: past) :
    awaitPrint sdk (turns + 1) device = .ok (printOf answer, device) := by
  have status : (answer.2 ++ statusBytes (exceptionStatus answer.1)).length - 2 =
      answer.2.length := by
    rw [List.length_append]
    rfl
  rw [awaitPrint, log, answerTo_reply]
  simp only
  rw [responseOf, status, List.drop_left, List.take_left, printOf]
  by_cases accepts : Accepts (statusBytes (exceptionStatus answer.1))
  · rw [if_pos accepts, if_pos accepts]
  · rw [if_neg accepts, if_neg accepts]

/-- The keys of a request are those of its path, if it is accepted. -/
theorem requestedKeys_of_data (sent : device.apduBuffer.read 5 20 = data) :
    device.requestedKeys sdk =
      if ValidPath (pathWords data) then deriveKeypair sdk (pathWords data)
      else .error insRetWrongData := by
  rw [Device.requestedKeys, Device.requestedPath, sent]
  by_cases valid : ValidPath (pathWords data)
  · rw [if_pos valid, getBip44Path_valid valid]
    rfl
  · have thrown := @getBip44Path_refuses data device.getPublicKeyContext.bip44Path valid
    rw [if_neg valid]
    cases requested : getBip44Path data device.getPublicKeyContext.bip44Path with
    | mk code path =>
      rw [requested] at thrown
      rw [show code = some insRetWrongData from thrown]

theorem payload_script : device.payload sdk script.instruction =
    script.madeOf sdk (device.requestedKeys sdk) := by
  cases script <;> rfl

/-- A path query stores what `get_bip44_path` leaves, whatever it ends with. -/
theorem runHandler_stores {instruction : Instruction} {code : Option Nat}
    (signs : instruction ≠ .signTransaction) (version : instruction ≠ .getVersion)
    (handled : runHandler sdk instruction device = .ok (code, after)) :
    after.getPublicKeyContext.bip44Path = device.requestedPath.2 := by
  obtain ⟨derived, begun, _⟩ := deriveRequested_eq sdk device
  cases instruction with
  | signTransaction => exact absurd rfl signs
  | getVersion => exact absurd rfl version
  | getPublicKey =>
    rw [runHandler, handleGetPublicKey, begun] at handled
    cases keys : device.requestedKeys sdk with
    | error thrown =>
      rw [keys] at handled
      cases handled
      rfl
    | ok pair =>
      rw [keys] at handled
      cases handled
      rfl
  | getSignedPublicKey =>
    rw [runHandler, handleGetSignedPublicKey, begun] at handled
    cases keys : device.requestedKeys sdk with
    | error thrown =>
      rw [keys] at handled
      cases handled
      rfl
    | ok pair =>
      rw [keys] at handled
      simp only at handled
      cases signed : sign sdk pair.1 (sdk.sha256 pair.2.contents).contents with
      | error thrown =>
        rw [signed] at handled
        cases handled
        rfl
      | ok signature =>
        rw [signed] at handled
        cases handled
        rfl
  | getAddress =>
    rw [runHandler, handleGetAddress, begun] at handled
    cases keys : device.requestedKeys sdk with
    | error thrown =>
      rw [keys] at handled
      cases handled
      rfl
    | ok pair =>
      rw [keys] at handled
      cases handled
      rfl

variable {maxint : Nat} {wallet : Wallet}

/-- What a handler answers to a request, and the path it leaves, are those of the wallet. -/
theorem runHandler_asks (sent : device.apduBuffer.read 5 20 = data)
    (path : device.getPublicKeyContext.bip44Path = wallet.path) :
    ∃ (answer : Nat × Bytes) (used : Device), runHandler sdk script.instruction device =
        .ok (some answer.1, used.answer answer.2) ∧
      printOf answer = (wallet.ask sdk script data).1 ∧ answer.2.length ≤ pkLen ∧
      used.tx = device.tx ∧ used.signTxnContext = device.signTxnContext ∧
      used.getPublicKeyContext.bip44Path = (wallet.ask sdk script data).2.path := by
  have query : script.instruction ≠ .signTransaction := by cases script <;> decide
  obtain ⟨context, derived, handled, _⟩ := runHandler_answers sdk device script.instruction query
  have short : (answerOf (device.payload sdk script.instruction)).2.length ≤ pkLen := by
    cases paid : device.payload sdk script.instruction with
    | error code => exact Nat.zero_le _
    | ok payload => exact length_payload_le _ paid
  refine ⟨answerOf (device.payload sdk script.instruction), device.used context derived, handled,
    ?_, short, rfl, rfl, ?_⟩
  · rw [payload_script, requestedKeys_of_data sent, Wallet.ask]
    by_cases version : script = .getVersion
    · rw [if_pos version, version]
      exact printOf_success [1, 0, 0]
    · rw [if_neg version]
      by_cases valid : ValidPath (pathWords data)
      · rw [if_pos valid, if_pos valid]
      · rw [if_neg valid, if_neg valid]
        cases script with
        | getVersion => exact absurd rfl version
        | getAddress => exact printOf_refused
        | getPublicKey => exact printOf_refused
        | getSignedPublicKey => exact printOf_refused
  · rw [Wallet.ask]
    by_cases version : script = .getVersion
    · rw [if_pos version, ← path]
      subst version
      exact congrArg (fun result => result.2.getPublicKeyContext.bip44Path)
        (Except.ok.inj handled).symm
    · have other : script.instruction ≠ .getVersion := by
        intro same
        cases script with
        | getVersion => exact version rfl
        | getAddress => cases same
        | getPublicKey => cases same
        | getSignedPublicKey => cases same
      rw [if_neg version]
      refine (runHandler_stores query other handled).trans ?_
      rw [Device.requestedPath, sent, path]
      by_cases valid : ValidPath (pathWords data)
      · rw [if_pos valid, getBip44Path_valid valid]
      · rw [if_neg valid, getBip44Path_path]

/-- The scripts that ask do with the device what they do with its wallet. -/
theorem print_asks (stands : Stands wallet device) (wide : 255 ≤ maxint) (turns : Nat)
    (script : QueryScript) (request : Request) :
    ∃ after, script.print sdk maxint (turns + 1) request.text device =
        .ok ((wallet.ask sdk script request.data).1, after) ∧
      Stands (wallet.ask sdk script request.data).2 after := by
  have length := request.length
  obtain ⟨req, written, read⟩ :=
    requestText_reads wide request.reads (by rw [length]; decide) script.ins 0 0 script.le
  have sent : requestText maxint script.ins.toNat 0 0 request.text script.le.toNat = some req :=
    written
  obtain ⟨answer, used, handled, printed, short, tx, session, path⟩ :=
    @runHandler_asks sdk (device.receive (script.apdu request.data length)) script request.data
      wallet (read_apdu script length) stands.path
  have ready : used.tx = 0 := tx.trans stands.ready
  have long : 2 ≤ (script.apdu request.data length).bytes.length := Nat.le_add_left 2 _
  obtain ⟨past, stepped, log⟩ :=
    step_answered long rfl (lookupHandler_ins script) handled ready short
  have room : ([0x80, script.ins, 0, 0, UInt8.ofNat request.data.length] ++ request.data ++
    [script.le]).length ≤ apduBufferLen := (script.apdu request.data length).fits
  have answered : step sdk device (.apdu ⟨_, room⟩) = _ := stepped
  refine ⟨((used.answer answer.2).reply (exceptionStatus answer.1) answer.2.length).resetTx, ?_,
    rfl, (congrArg SignTxnContext.initialized session).trans stands.closed, path⟩
  rw [QueryScript.print, sent]
  simp only
  rw [read.fromHex]
  simp only
  rw [exchangePrint, dif_pos room, answered]
  simp only
  rw [awaitPrint_answered sdk turns log, printed]
  rfl

end Asking

/-! ### Paying -/

section Ready

variable {sdk : Sdk} {inputs : List HostInput} {outputs : List HostOutput} {device after : Device}
  {signatures : List SigInput} {given : Nat}

/-- A command that gets signatures is answered at once, and leaves `tx` at zero. -/
theorem sendToLedger_ready (owes : Owes sdk signatures given device)
    (owed : given < signatures.length) {turns : Nat} {response : Bytes}
    (sent : sendToLedger sdk (turns + 1) 1 [] (Nat.zero_le _) device = .ok (response, after)) :
    after.tx = 0 := by
  obtain ⟨asked, second, _⟩ := ledgerApdu_asks device 1 [] (Nat.zero_le _)
  have later : device.p1 (ledgerApdu 1 [] (Nat.zero_le _)) = 1 := second
  obtain ⟨answered, stepped, _⟩ := owes.command owed asked later
  obtain ⟨_, _, _, log⟩ := command_fetches owes.invariant owes.left.signing
    (by rw [owes.left.counted]; exact le_of_lt owed) (owes.left.session.mpr (ne_of_lt owed)) asked
    later stepped
  rw [sendToLedger, stepped] at sent
  cases (awaitReply_answered sdk turns log).symm.trans sent
  exact command_tx stepped

theorem fetchRest_ready (fuel turns : Nat) (owes : Owes sdk signatures given device)
    (bound : given ≤ signatures.length) (ready : given = signatures.length → device.tx = 0)
    {ret response : Bytes} (fetched : ret.length = 32 + 65 * given)
    (went : fetchRest sdk (fuel + 1) (32 + signatures.length * 65) 1 turns ret device =
      .ok (response, after)) : after.tx = 0 := by
  induction turns generalizing given device ret with
  | zero => cases went
  | succ turns inductionHypothesis =>
    rw [fetchRest] at went
    by_cases all : given = signatures.length
    · rw [if_neg (by omega)] at went
      cases went
      exact ready all
    · obtain ⟨next, answered, owesNext, _⟩ := send_forSignatures owes (by omega) fuel
      rw [if_pos (by omega), answered] at went
      have inside : given + min (signatures.length - given) 3 ≤ signatures.length := by omega
      refine inductionHypothesis owesNext inside
        (fun _ => sendToLedger_ready owes (by omega) answered) ?_ went
      rw [List.length_append, fetched, length_signatureBytes inside, sigLen]
      omega

/-- `send_txn` leaves the device ready for the next command. -/
theorem sendTxn_ready (delivers : sdk.Delivers) (someInputs : 1 ≤ inputs.length)
    (fewInputs : inputs.length ≤ 20) (someOutputs : 1 ≤ outputs.length)
    (fewOutputs : outputs.length ≤ 255) (closed : device.signTxnContext.initialized = false)
    {fuel : Nat} (enough : (serializedTransaction inputs outputs).length + 300 ≤ fuel)
    {result : Bytes × List Bytes}
    (sent : sendTxn sdk fuel (serializedTransaction inputs outputs) device = .ok (result, after)) :
    after.tx = 0 := by
  obtain ⟨read, chunks, waits, _⟩ :=
    sendChunks_sends (sends_serialized someInputs fewInputs someOutputs fewOutputs) closed enough
  rw [(parseWhole_serialized someInputs fewInputs fewOutputs).1] at waits
  obtain ⟨signatures, signs⟩ := delivers.signatures read.getPublicKeyContext.bip44Path
    (sdk.sha256 (hashedTransaction inputs outputs)).contents inputs
  have count : signatures.length = inputs.length := length_mapM signs
  obtain ⟨turns, rfl⟩ : ∃ turns, fuel = turns + 2 := ⟨fuel - 2, by omega⟩
  obtain ⟨next, answered, owes, _⟩ :=
    send_forHash waits fewInputs someInputs someOutputs fewOutputs signs turns
  have declared : u4LE (serializedTransaction inputs outputs) 0 = inputs.length :=
    u4LE_serialized fewInputs
  rw [sendTxn] at sent
  obtain ⟨_, chunked, rest⟩ := bind_ok sent
  cases chunks.symm.trans chunked
  obtain ⟨⟨response, last⟩, fetched, same⟩ := bind_ok rest
  cases same
  rw [declared, fetchRest, if_pos (by rw [List.length_nil]; omega), answered, ← count] at fetched
  refine fetchRest_ready (turns + 1) (turns + 1) owes (Nat.zero_le _) (fun none => ?_) ?_ fetched
  · omega
  · exact (sdk.sha256 (hashedTransaction inputs outputs)).length_contents

end Ready

section Serving

variable {sdk : Sdk} {maxint fuel : Nat} {wallet : Wallet} {device : Device}

/-- The longest transaction has 20 inputs and 255 outputs. -/
theorem Payment.length_serialized (payment : Payment maxint) :
    (serializedTransaction payment.inputs payment.outputs).length ≤ 10163 := by
  have few := payment.fewInputs
  have fewOutputs := payment.fewOutputs
  rw [length_serializedTransaction]
  omega

/-- The script that has a transaction signed does with the device what it does with its wallet. -/
theorem create_pays (delivers : sdk.Delivers) (stands : Stands wallet device)
    (wide : 2 ^ 31 - 1 ≤ maxint) (enough : 10463 ≤ fuel) (payment : Payment maxint) :
    ∃ after, createRawTransaction sdk maxint fuel payment.texts payment.outTexts device =
        .ok (rawText maxint (hexText
            (sdk.sha256 (hashedTransaction payment.inputs payment.outputs)).contents)
          (((delivers.signed wallet.path (sdk.sha256 (hashedTransaction payment.inputs
            payment.outputs)).contents payment.inputs).map Cells.contents).map hexText)
              payment.texts payment.outTexts, after) ∧
      Stands wallet after := by
  have long : (serializedTransaction payment.inputs payment.outputs).length + 300 ≤ fuel :=
    le_trans (Nat.add_le_add_right payment.length_serialized 300) enough
  obtain ⟨signatures, after, created, signs, sent, path, closed⟩ := createRawTransaction_signs
    delivers wide payment.denoteIns payment.denoteOuts payment.someInputs payment.fewInputs
    payment.someOutputs payment.fewOutputs stands.closed long
  have ready := sendTxn_ready delivers payment.someInputs payment.fewInputs payment.someOutputs
    payment.fewOutputs stands.closed long sent
  rw [stands.path, delivers.signs_signed] at signs
  cases signs
  exact ⟨after, created, ready, closed, path.trans stands.path⟩

/-- On a device that stands for a wallet every job goes as on the wallet. -/
theorem wallet_refines (delivers : sdk.Delivers) (wide : 2 ^ 31 - 1 ≤ maxint)
    (enough : 10463 ≤ fuel) :
    Refines (Job.onDevice sdk maxint fuel) (Job.onWallet delivers) Stands where
  does job wallet device stands := by
    cases job with
    | ask script request =>
      obtain ⟨turns, rfl⟩ : ∃ turns, fuel = turns + 1 := ⟨fuel - 1, by omega⟩
      exact print_asks stands (le_trans (by decide) wide) turns script request
    | pay payment =>
      obtain ⟨after, created, kept⟩ := create_pays delivers stands wide enough payment
      refine ⟨after, ?_, kept⟩
      show (fun raw => (Printed.response raw.1, raw.2)) <$> createRawTransaction sdk maxint fuel
        payment.texts payment.outTexts device = _
      rw [created]
      rfl

end Serving

/-! ### Any jobs -/

/-- On a device that waits for a command with no session open, the scripts do any sequence of jobs
as a wallet with the stored path does them, and leave a device on which they go on so. -/
theorem device_is_wallet (sdk : Sdk) (delivers : sdk.Delivers) (maxint : Nat)
    (wide : 2 ^ 31 - 1 ≤ maxint) (fuel : Nat) (enough : 10463 ≤ fuel) (device : Device)
    (ready : device.tx = 0) (closed : device.signTxnContext.initialized = false)
    (jobs : List (Job maxint)) :
    ∃ after, serve (Job.onDevice sdk maxint fuel) jobs device =
        .ok ((ideally (Job.onWallet delivers) jobs ⟨device.getPublicKeyContext.bip44Path⟩).1,
          after) ∧
      Stands (ideally (Job.onWallet delivers) jobs ⟨device.getPublicKeyContext.bip44Path⟩).2
        after :=
  (wallet_refines delivers wide enough).serve jobs ⟨ready, closed, rfl⟩

/-- The request with a path that is refused behind its last word. -/
def refusedRequest : Request := ⟨hexText refusedPath, refusedPath, reads_hexText _, rfl⟩

def samplePayment : Payment (2 ^ 63 - 1) where
  texts := [sampleHostInput.toScript]
  inputs := [sampleHostInput]
  denoteIns := @HostInput.denotes_toScript _ [sampleHostInput] (by decide)
  outTexts := [sampleHostOutput.toScript]
  outputs := [sampleHostOutput]
  denoteOuts := @HostOutput.denotes_toScript _ [sampleHostOutput] (by decide)
  someInputs := le_refl 1
  fewInputs := by decide
  someOutputs := le_refl 1
  fewOutputs := by decide

/-- A path that is refused, and a transaction: it is signed below the words of that path. -/
theorem device_is_wallet_sample : ∃ raw after,
    serve (Job.onDevice Sdk.plain (2 ^ 63 - 1) 10463)
        [.ask .getPublicKey refusedRequest, .pay samplePayment] Device.boot =
      .ok ([.exception [0x6A, 0x80], .response raw], after) ∧
    after.getPublicKeyContext.bip44Path.contents = pathWords refusedPath := by
  obtain ⟨after, served, stands⟩ := device_is_wallet Sdk.plain
    ⟨fun _ => ⟨_, rfl⟩, fun _ _ => ⟨_, rfl⟩⟩ (2 ^ 63 - 1) (by decide) 10463 (le_refl _)
    Device.boot rfl rfl [.ask .getPublicKey refusedRequest, .pay samplePayment]
  have refused : ¬ ValidPath (pathWords refusedPath) := by decide
  have asked : ∀ wallet : Wallet, wallet.ask Sdk.plain .getPublicKey refusedPath =
      (.exception (statusBytes insRetWrongData), ⟨wallet.path.write 0 (storedWords refusedPath)⟩) :=
    fun wallet => by rw [Wallet.ask, if_neg (by decide), if_neg refused]
  have first : ∀ delivers : Sdk.plain.Delivers, ∀ wallet : Wallet,
      Job.onWallet delivers (.ask .getPublicKey refusedRequest : Job (2 ^ 63 - 1)) wallet =
        wallet.ask Sdk.plain .getPublicKey refusedPath := fun _ _ => rfl
  rw [ideally, first, asked] at served stands
  refine ⟨_, after, served, ?_⟩
  rw [stands.path]
  decide +kernel

/-- After a script sent a path that is accepted, what it and all later ones print does not depend
on the device, nor on anything that was done with it before. -/
theorem history_is_forgotten (sdk : Sdk) (delivers : sdk.Delivers) (maxint : Nat)
    (wide : 2 ^ 31 - 1 ≤ maxint) (fuel : Nat) (enough : 10463 ≤ fuel) (script : QueryScript)
    (asks : script ≠ .getVersion) (request : Request)
    (valid : ValidPath (pathWords request.data)) (later : List (Job maxint)) :
    ∃ results, ∀ (device : Device), device.tx = 0 →
      device.signTxnContext.initialized = false → ∀ earlier : List (Job maxint),
        ∃ before after, before.length = earlier.length ∧
          serve (Job.onDevice sdk maxint fuel) (earlier ++ .ask script request :: later) device =
            .ok (before ++ results, after) := by
  have asked : ∀ wallet : Wallet, wallet.ask sdk script request.data =
      (printOf (answerOf (script.madeOf sdk (deriveKeypair sdk (pathWords request.data)))),
        ⟨pathCells request.data⟩) := fun wallet => by
    rw [Wallet.ask, if_neg asks, if_pos valid]
  have resets : Resets (Job.onWallet delivers) (.ask script request : Job maxint)
      ⟨pathCells request.data⟩ := fun wallet => congrArg Prod.snd (asked wallet)
  have prints : ∀ wallet, (Job.onWallet delivers (.ask script request : Job maxint) wallet).1 =
      printOf (answerOf (script.madeOf sdk (deriveKeypair sdk (pathWords request.data)))) :=
    fun wallet => congrArg Prod.fst (asked wallet)
  refine ⟨printOf (answerOf (script.madeOf sdk (deriveKeypair sdk (pathWords request.data)))) ::
    (ideally (Job.onWallet delivers) later ⟨pathCells request.data⟩).1,
      fun device ready closed earlier => ?_⟩
  have refines : Refines (Job.onDevice sdk maxint fuel) (Job.onWallet delivers) Stands :=
    wallet_refines delivers wide enough
  have stands : Stands ⟨device.getPublicKeyContext.bip44Path⟩ device := ⟨ready, closed, rfl⟩
  obtain ⟨after, served, _⟩ := refines.serve (earlier ++ .ask script request :: later) stands
  rw [ideally_resets resets, prints] at served
  exact ⟨_, after, length_ideally earlier _, served⟩

def acceptedRequest : Request := ⟨bip44PathText, bip44PathBytes, reads_bip44Path, rfl⟩

/-- A refused path and a transaction, or nothing, before an accepted path and a transaction. -/
theorem history_is_forgotten_sample : ∃ before results after other, before.length = 2 ∧
    serve (Job.onDevice Sdk.plain (2 ^ 63 - 1) 10463)
        ([.ask .getAddress refusedRequest, .pay samplePayment] ++
          [.ask .getPublicKey acceptedRequest, .pay samplePayment]) Device.boot =
      .ok (before ++ results, after) ∧
    serve (Job.onDevice Sdk.plain (2 ^ 63 - 1) 10463)
        [.ask .getPublicKey acceptedRequest, .pay samplePayment] Device.boot =
      .ok (results, other) := by
  obtain ⟨results, all⟩ := history_is_forgotten Sdk.plain
    ⟨fun _ => ⟨_, rfl⟩, fun _ _ => ⟨_, rfl⟩⟩ (2 ^ 63 - 1) (by decide) 10463 (le_refl _)
    .getPublicKey (by decide) acceptedRequest validPath_bip44Path [.pay samplePayment]
  obtain ⟨before, after, two, served⟩ :=
    all Device.boot rfl rfl [.ask .getAddress refusedRequest, .pay samplePayment]
  obtain ⟨nothing, other, none, afresh⟩ := all Device.boot rfl rfl []
  rw [List.eq_nil_of_length_eq_zero none] at afresh
  exact ⟨before, results, after, other, two, served, afresh⟩

end LedgerNano
