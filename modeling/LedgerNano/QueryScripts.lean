/-
This file embeds the scripts that ask the device for something at once, and follows any number of
them after each other.

They differ in one number of the request. Each is answered as the request arrives
(`call_answers`): with the version, or with what the keys of the path are made into. Between them
the scripts leave no trace in a session, and in the stored path only their own (`Queried`), so what
they print belongs to one pair of keys (`scripts_agree`).
-/

import LedgerNano.Queries
import LedgerNano.Recovery
import LedgerNano.Validation

namespace LedgerNano

/-! ### The scripts -/

/-- `bip44_path`, the example in `adpu_call.py`. -/
def bip44PathText : Bytes :=
  [56, 48, 48, 48, 48, 48, 50, 67] ++ [56, 48, 48, 48, 48, 48, 48, 48] ++
    [56, 48, 48, 48, 48, 48, 48, 48] ++ [48, 48, 48, 48, 48, 48, 48, 48] ++
      [48, 48, 48, 48, 48, 48, 48, 57]

/-- `send_to_ledger_with_bip44`, for any `bip44_path`. -/
def sendToLedgerWithBip44 (sdk : Sdk) (maxint turns : Nat) (bip44Path : Bytes)
    (ins p1 p2 le : Nat) (device : Device) : Except ScriptError (Bytes × Device) :=
  sendToLedgerText sdk maxint turns ins p1 p2 bip44Path le device

/-- The scripts that ask for something at once. -/
inductive QueryScript
  | getVersion
  | getAddress
  | getPublicKey
  | getSignedPublicKey
  deriving DecidableEq

/-- What `get_version.py`, `get_address.py`, `get_public_key.py` and `get_signed_public_key.py`
get to print. -/
def QueryScript.call (sdk : Sdk) (maxint turns : Nat) (bip44Path : Bytes) :
    QueryScript → Device → Except ScriptError (Bytes × Device)
  | .getVersion => sendToLedgerWithBip44 sdk maxint turns bip44Path 0x01 0 0 3
  | .getAddress => sendToLedgerWithBip44 sdk maxint turns bip44Path 0x02 0 0 20
  | .getPublicKey => sendToLedgerWithBip44 sdk maxint turns bip44Path 0x04 0 0 32
  | .getSignedPublicKey => sendToLedgerWithBip44 sdk maxint turns bip44Path 0x08 0 0 32

/-- Scripts after each other, and what each got. -/
def callScripts (sdk : Sdk) (maxint turns : Nat) (bip44Path : Bytes) :
    List QueryScript → Device → Except ScriptError (List Bytes × Device)
  | [], device => .ok ([], device)
  | script :: later, device =>
    match script.call sdk maxint turns bip44Path device with
    | .error error => .error error
    | .ok (response, device) =>
      (fun rest => (response :: rest.1, rest.2)) <$>
        callScripts sdk maxint turns bip44Path later device

/-! ### What belongs to a path -/

/-- The keys of a path, and the signature of the public one with the private one. -/
structure Account (sdk : Sdk) (path : List Nat) where
  privateKey : Cells Byte 32
  publicKey : Cells Byte 65
  signature : Cells Byte 65
  derives : deriveKeypair sdk path = .ok (privateKey, publicKey)
  signs : sign sdk privateKey (sdk.sha256 publicKey.contents).contents = .ok signature

/-- What a script gets of an account. -/
def Account.answer {sdk : Sdk} {path : List Nat} (account : Account sdk path) :
    QueryScript → Bytes
  | .getVersion => [1, 0, 0]
  | .getAddress => generateAddress sdk account.publicKey
  | .getPublicKey => account.publicKey.contents
  | .getSignedPublicKey => account.signature.contents

/-- The words of path data, as they are stored. -/
def pathCells (data : Bytes) : Cells Nat 5 := ⟨pathWords data, length_pathWords data⟩

/-- What scripts leave of a device: the session and the screen, a path if one of them has sent it
to the check, and an address if one was asked for. -/
structure Queried {sdk : Sdk} {data : Bytes} (account : Account sdk (pathWords data))
    (scripts : List QueryScript) (before after : Device) : Prop where
  ready : after.tx = 0
  session : after.signTxnContext = before.signTxnContext
  texts : after.transactionContext = before.transactionContext
  screen : after.screen = before.screen
  path : after.getPublicKeyContext.bip44Path =
    if ∀ script ∈ scripts, script = .getVersion then before.getPublicKeyContext.bip44Path
    else pathCells data
  address : textOf after.getPublicKeyContext.address =
    if .getAddress ∈ scripts then generateAddress sdk account.publicKey
    else textOf before.getPublicKeyContext.address

section Queries

variable {sdk : Sdk} {data : Bytes} {account : Account sdk (pathWords data)}
  {scripts later : List QueryScript} {before middle after : Device}

theorem Queried.refl (ready : before.tx = 0) : Queried account [] before before where
  ready := ready
  session := rfl
  texts := rfl
  screen := rfl
  path := (if_pos (List.forall_mem_nil _)).symm
  address := (if_neg List.not_mem_nil).symm

theorem Queried.trans (first : Queried account scripts before middle)
    (second : Queried account later middle after) :
    Queried account (scripts ++ later) before after where
  ready := second.ready
  session := second.session.trans first.session
  texts := second.texts.trans first.texts
  screen := second.screen.trans first.screen
  path := by
    rw [second.path, first.path]
    simp only [List.forall_mem_append]
    by_cases versions : ∀ script ∈ later, script = .getVersion
    · rw [if_pos versions]
      simp only [and_iff_left versions]
    · rw [if_neg versions, if_neg fun both => versions both.2]
  address := by
    rw [second.address, first.address]
    simp only [List.mem_append]
    by_cases asked : QueryScript.getAddress ∈ later
    · rw [if_pos asked, if_pos (Or.inr asked)]
    · rw [if_neg asked]
      simp only [or_iff_left asked]

end Queries

/-! ### One script -/

section Call

variable {sdk : Sdk} {data : Bytes} {device : Device}

/-- A command whose handler throws a code is answered at once, with its status. -/
theorem step_answered {apdu : Apdu} {instruction : Instruction} {used : Device} {code : Nat}
    {payload : Bytes} (long : 2 ≤ apdu.bytes.length) (cla : byteAt apdu.bytes 0 = 0x80)
    (found : lookupHandler (byteAt apdu.bytes 1) = some instruction)
    (handled : runHandler sdk instruction (device.receive apdu) =
      .ok (some code, used.answer payload))
    (ready : used.tx = 0) (short : payload.length ≤ pkLen) :
    ∃ past, step sdk device (.apdu apdu) =
        .ok ((used.answer payload).reply (exceptionStatus code) payload.length).resetTx ∧
      ((used.answer payload).reply (exceptionStatus code) payload.length).resetTx.log =
        .reply (payload ++ statusBytes (exceptionStatus code)) :: past := by
  have few : payload.length ≤ 65 := short
  have first : byteAt (device.receive apdu).apduBuffer.contents 0 = 0x80 :=
    (header_eq device apdu 0 (by omega)).trans cla
  have second : byteAt (device.receive apdu).apduBuffer.contents 1 = byteAt apdu.bytes 1 :=
    header_eq device apdu 1 (by omega)
  have tx : (used.answer payload).tx = payload.length := by
    show used.tx + payload.length = _
    rw [ready, Nat.zero_add]
  have written := used.apduBuffer.read_write_prefix 0 payload (by omega)
  rw [Nat.zero_add, Cells.read_zero, List.nil_append] at written
  refine ⟨used.log, ?_, ?_⟩
  · rw [step, skyMainTurn, dispatch, if_neg (by omega), if_neg (not_not.mpr first), second, found]
    simp only
    rw [handled]
    show sendStatus code (used.answer payload) = _
    rw [sendStatus, tx, ioExchangeWithCode_eq, if_pos (by
      show payload.length + 2 ≤ 260
      omega)]
    rfl
  · rw [resetTx_log, reply_log]
    exact congrArg
      (fun bytes => Event.reply (bytes ++ statusBytes (exceptionStatus code)) :: used.log) written

/-- The device with a valid path stored and derived. -/
def Device.deriving (device : Device) (data : Bytes) : Device :=
  { device with getPublicKeyContext.bip44Path := pathCells data }.record (.derive (pathWords data))

theorem getBip44Path_valid (valid : ValidPath (pathWords data)) (path : Cells Nat 5) :
    getBip44Path data path = (none, pathCells data) := by
  refine Prod.ext ((getBip44Path_accepts_iff data path).mpr valid) ?_
  rw [getBip44Path_path, storedWords_of_passes (passesLoop_of_validPath valid)]
  exact Cells.ext (contents_write_pathWords data path)

theorem deriveRequested_valid (account : Account sdk (pathWords data))
    (valid : ValidPath (pathWords data)) (sent : device.apduBuffer.read 5 20 = data) :
    deriveRequested sdk 5 device =
      (.ok (account.privateKey, account.publicKey), device.deriving data) := by
  rw [deriveRequested, sent, getBip44Path_valid valid]
  exact congrArg (fun keys => (keys, device.deriving data)) account.derives

/-- The instruction a script asks for, as the byte of the request. -/
def QueryScript.ins : QueryScript → Byte
  | .getVersion => 0x01
  | .getAddress => 0x02
  | .getPublicKey => 0x04
  | .getSignedPublicKey => 0x08

/-- The number of bytes a script says it expects. -/
def QueryScript.le : QueryScript → Byte
  | .getVersion => 3
  | .getAddress => 20
  | .getPublicKey => 32
  | .getSignedPublicKey => 32

def QueryScript.instruction : QueryScript → Instruction
  | .getVersion => .getVersion
  | .getAddress => .getAddress
  | .getPublicKey => .getPublicKey
  | .getSignedPublicKey => .getSignedPublicKey

theorem lookupHandler_ins (script : QueryScript) :
    lookupHandler script.ins.toNat = some script.instruction := by
  cases script <;> rfl

theorem length_answer (account : Account sdk (pathWords data)) (script : QueryScript) :
    (account.answer script).length ≤ pkLen := by
  cases script with
  | getVersion => exact (by decide : 3 ≤ 65)
  | getAddress => exact le_trans (length_toAddress_le sdk _) (by decide)
  | getPublicKey => exact le_of_eq account.publicKey.length_contents
  | getSignedPublicKey => exact le_of_eq account.signature.length_contents

/-- A handler answers from the account of its path, and leaves what a script does. -/
theorem runHandler_account (account : Account sdk (pathWords data))
    (valid : ValidPath (pathWords data)) (sent : device.apduBuffer.read 5 20 = data)
    (ready : device.tx = 0) (script : QueryScript) :
    ∃ used, runHandler sdk script.instruction device =
        .ok (some insRetSuccess, used.answer (account.answer script)) ∧
      Queried account [script] device used := by
  have derived := deriveRequested_valid account valid sent
  cases script with
  | getVersion =>
    refine ⟨device, rfl, ready, rfl, rfl, rfl, ?_, ?_⟩
    · rw [if_pos (by decide)]
    · rw [if_neg (by decide)]
  | getAddress =>
    have text := textOf_storeText device.getPublicKeyContext.address
      (generateAddress sdk account.publicKey) (Nat.lt_succ_of_le (length_toAddress_le sdk _))
      (encodeBase58_ne_zero _)
    refine ⟨{ device.deriving data with
      getPublicKeyContext.address := storeText device.getPublicKeyContext.address
        (generateAddress sdk account.publicKey) }, ?_, ready, rfl, rfl, rfl, ?_, ?_⟩
    · show Except.ok (some (handleGetAddress sdk 5 device).1, (handleGetAddress sdk 5 device).2) = _
      rw [handleGetAddress, derived]
      simp only
      rw [show (device.deriving data).getPublicKeyContext.address =
        device.getPublicKeyContext.address from rfl, text]
      rfl
    · rw [if_neg (by decide)]
      rfl
    · rw [if_pos (by decide)]
      exact text
  | getPublicKey =>
    refine ⟨device.deriving data, ?_, ready, rfl, rfl, rfl, ?_, ?_⟩
    · show Except.ok
          (some (handleGetPublicKey sdk 5 device).1, (handleGetPublicKey sdk 5 device).2) = _
      rw [handleGetPublicKey, derived]
      rfl
    · rw [if_neg (by decide)]
      rfl
    · rw [if_neg (by decide)]
      rfl
  | getSignedPublicKey =>
    refine ⟨device.deriving data, ?_, ready, rfl, rfl, rfl, ?_, ?_⟩
    · show Except.ok (some (handleGetSignedPublicKey sdk 5 device).1,
        (handleGetSignedPublicKey sdk 5 device).2) = _
      rw [handleGetSignedPublicKey, derived]
      simp only
      rw [account.signs]
      rfl
    · rw [if_neg (by decide)]
      rfl
    · rw [if_neg (by decide)]
      rfl

theorem call_eq (maxint turns : Nat) (bip44Path : Bytes) (script : QueryScript) (device : Device) :
    script.call sdk maxint turns bip44Path device =
      sendToLedgerText sdk maxint turns script.ins.toNat 0 0 bip44Path script.le.toNat device := by
  cases script <;> rfl

/-- The command a script sends. -/
def QueryScript.apdu (script : QueryScript) (data : Bytes) (length : data.length = 20) : Apdu where
  bytes := [0x80, script.ins, 0, 0, UInt8.ofNat data.length] ++ data ++ [script.le]
  fits := by
    rw [List.length_append, List.length_append, length]
    exact (by decide : 26 ≤ 260)

/-- The path of the request lies where the handlers read it. -/
theorem read_apdu (script : QueryScript) (length : data.length = 20) :
    (device.receive (script.apdu data length)).apduBuffer.read 5 20 = data := by
  have size : (script.apdu data length).bytes.length = 26 := by
    show ([0x80, script.ins, 0, 0, UInt8.ofNat data.length] ++ data ++ [script.le]).length = 26
    rw [List.length_append, List.length_append, length]
    rfl
  have whole := device.apduBuffer.read_write_self 0 (script.apdu data length).bytes
    (by rw [Nat.zero_add]; exact (script.apdu data length).fits)
  rw [size] at whole
  show (device.apduBuffer.write 0 (script.apdu data length).bytes).read 5 20 = data
  rw [← Nat.zero_add 5, ← Cells.take_read _ _ (26 - 5) _ (by decide), ← Cells.drop_read, whole]
  exact List.take_left' length

variable {text : Bytes} {maxint turns : Nat}

/-- Each script is answered from the account of the path. -/
theorem call_answers (account : Account sdk (pathWords data)) (valid : ValidPath (pathWords data))
    (wide : 255 ≤ maxint) (reads : Reads text data) (length : data.length = 20)
    (ready : device.tx = 0) (script : QueryScript) :
    ∃ after, script.call sdk maxint (turns + 1) text device =
        .ok (account.answer script, after) ∧ Queried account [script] device after := by
  obtain ⟨req, written, read⟩ :=
    requestText_reads wide reads (by rw [length]; decide) script.ins 0 0 script.le
  have sent : requestText maxint script.ins.toNat 0 0 text script.le.toNat = some req := written
  have path : (device.receive (script.apdu data length)).apduBuffer.read 5 20 = data :=
    read_apdu script length
  obtain ⟨used, handled, queried⟩ := runHandler_account account valid path ready script
  have long : 2 ≤ (script.apdu data length).bytes.length := Nat.le_add_left 2 _
  obtain ⟨past, stepped, log⟩ := step_answered long rfl (lookupHandler_ins script) handled
    queried.ready (length_answer account script)
  have room : ([0x80, script.ins, 0, 0, UInt8.ofNat data.length] ++ data ++ [script.le]).length ≤
    apduBufferLen := (script.apdu data length).fits
  refine ⟨((used.answer (account.answer script)).reply insRetSuccess
    (account.answer script).length).resetTx, ?_, ⟨rfl, queried.session, queried.texts,
      queried.screen, queried.path, queried.address⟩⟩
  rw [call_eq, sendToLedgerText, sent]
  simp only
  rw [read.fromHex]
  simp only
  have answered : step sdk device (.apdu ⟨_, room⟩) = _ := stepped
  rw [exchange, dif_pos room, answered]
  simp only
  rw [awaitReply_answered sdk turns log]
  rfl

end Call

/-! ### Scripts after each other -/

/-- Scripts after each other are answered from one account. -/
theorem callScripts_answers {sdk : Sdk} {text data : Bytes} (reads : Reads text data)
    (length : data.length = 20) (valid : ValidPath (pathWords data))
    (account : Account sdk (pathWords data)) {maxint : Nat} (wide : 255 ≤ maxint) (turns : Nat)
    {device : Device} (ready : device.tx = 0) (scripts : List QueryScript) :
    ∃ after, callScripts sdk maxint (turns + 1) text scripts device =
        .ok (scripts.map account.answer, after) ∧ Queried account scripts device after := by
  induction scripts generalizing device with
  | nil => exact ⟨device, rfl, Queried.refl ready⟩
  | cons script later inductionHypothesis =>
    obtain ⟨middle, called, first⟩ := call_answers account valid wide reads length ready script
    obtain ⟨after, rest, second⟩ := inductionHypothesis first.ready
    refine ⟨after, ?_, first.trans second⟩
    rw [callScripts, called]
    simp only
    rw [rest]
    rfl

/-- Whatever was sent and pressed before, if the newest input was a command: any of the scripts, any
number of times and in any order, with a path the device accepts, get what belongs to one pair of
keys, those of the path. They leave the session, the texts and the screen as they were, the path of
the requests if one of them was more than `get_version.py`, and the address if it was asked for. -/
theorem scripts_agree {sdk : Sdk} {text data : Bytes} (reads : Reads text data)
    (length : data.length = 20) (valid : ValidPath (pathWords data))
    (account : Account sdk (pathWords data)) {maxint : Nat} (wide : 255 ≤ maxint) (turns : Nat)
    {commands : List Input} {device : Device} (ran : run sdk Device.boot commands = .ok device)
    (newest : ∀ input ∈ commands.getLast?, ∃ apdu, input = .apdu apdu)
    (scripts : List QueryScript) :
    ∃ after, callScripts sdk maxint (turns + 1) text scripts device =
        .ok (scripts.map account.answer, after) ∧ Queried account scripts device after :=
  callScripts_answers reads length valid account wide turns (commands_tx ran newest) scripts

/-- The bytes of `bip44_path`. -/
def bip44PathBytes : Bytes :=
  [0x80, 0, 0, 0x2C] ++ [0x80, 0, 0, 0] ++ [0x80, 0, 0, 0] ++ [0, 0, 0, 0] ++ [0, 0, 0, 9]

theorem reads_bip44Path : Reads bip44PathText bip44PathBytes := by
  show a2bHex bip44PathText = some bip44PathBytes
  decide +kernel

theorem validPath_bip44Path : ValidPath (pathWords bip44PathBytes) := by
  decide +kernel

/-- All scripts, with the path they have, on a device that was asked for its version. -/
theorem scripts_agree_sample : ∃ (device after : Device)
    (account : Account Sdk.plain (pathWords bip44PathBytes)),
    run Sdk.plain Device.boot [.apdu versionApdu] = .ok device ∧
      callScripts Sdk.plain 255 1 bip44PathText
          [.getVersion, .getAddress, .getPublicKey, .getSignedPublicKey] device =
        .ok ([[1, 0, 0], generateAddress Sdk.plain account.publicKey, account.publicKey.contents,
          account.signature.contents], after) := by
  obtain ⟨signature, signs⟩ : ∃ signature,
      sign Sdk.plain (padded 32 ((pathWords bip44PathBytes).map UInt8.ofNat)) (Sdk.plain.sha256
        (padded 65 (padded 32 ((pathWords bip44PathBytes).map UInt8.ofNat)).contents).contents
          ).contents = .ok signature := ⟨_, rfl⟩
  have opens : Runs.Ends (fun device : Device => device.tx = 0)
      (run Sdk.plain Device.boot [.apdu versionApdu]) := by decide +kernel
  obtain ⟨device, ran, _⟩ := Runs.exists_of_ends opens
  obtain ⟨after, called, _⟩ := scripts_agree reads_bip44Path rfl validPath_bip44Path
    ⟨_, _, signature, rfl, signs⟩ (le_refl 255) 0 ran
    (fun input member => ⟨versionApdu, (Option.some_inj.mp member).symm⟩)
    [.getVersion, .getAddress, .getPublicKey, .getSignedPublicKey]
  exact ⟨device, after, _, ran, called⟩

end LedgerNano
