/-
This file proves that the host's script gets the inner hash and the signatures.

Once the device has read the transaction, an empty command and a press give the inner hash
(`send_forHash`), and each further command gives the next signatures, at most three
(`send_forSignatures`). `send_txn_gets_signatures` puts them behind the chunks: `send_txn`
ends, with the inner hash and the signatures of the inputs in their order.
-/

import LedgerNano.Client

namespace LedgerNano

/-! ### What the device signs -/

/-- What the inner hash of a transaction covers. -/
def hashedTransaction (inputs : List HostInput) (outputs : List HostOutput) : Bytes :=
  le32 inputs.length ++ (inputs.map fun input => input.uxId.contents).flatten ++
    le32 outputs.length ++ (outputs.map HostOutput.serialized).flatten

/-- The signature of an input: the key is that of the stored path with the input's address index,
and the message is the hash of the inner hash and the input. -/
def HostInput.signature (sdk : Sdk) (path : Cells Nat 5) (innerHash : Bytes) (input : HostInput) :
    Except Nat (Cells Byte 65) := do
  let privateKey ← derivePrivateKey sdk (path.read 0 4 ++ [input.addressIndex])
  sign sdk privateKey (sdk.sha256 (innerHash ++ input.uxId.contents)).contents

/-- The derivation of a key and its signature do not fail. -/
structure Sdk.Delivers (sdk : Sdk) : Prop where
  derives : ∀ path, ∃ privateKey, sdk.deriveNode path = .ok privateKey
  signs : ∀ privateKey hash, ∃ signed, sdk.ecdsaSign privateKey hash = .ok signed

section Slots

variable {sdk : Sdk} {inputs : List HostInput} {outputs : List HostOutput} {device : Device}

theorem take_serialized (input : HostInput) :
    input.serialized.take 32 = input.uxId.contents :=
  List.take_left' input.uxId.length_contents

theorem hashed_readTransaction (inputs : List HostInput) (outputs : List HostOutput) :
    (readTransaction inputs outputs).hashed = hashedTransaction inputs outputs := by
  have ids : (inputs.map HostInput.serialized).map (List.take 32) =
      inputs.map fun input => input.uxId.contents := by
    rw [List.map_map]
    exact List.map_congr_left fun input _ => take_serialized input
  rw [readTransaction, Progress.hashed, ids, hashedTransaction]

/-- The signature of a slot that holds an input is the signature of the input. -/
theorem attempt_eq (sdk : Sdk) (device : Device) {slot : SigInput} {input : HostInput}
    (holds : slot.input = input.serialized) : device.attempt sdk slot =
      input.signature sdk device.getPublicKeyContext.bip44Path
        device.signTxnContext.txn.innerHash.contents := by
  have index : u4LE slot.input 32 = input.addressIndex := by
    have place := u4LE_middle input.uxId.contents (length_le32 input.addressIndex) []
    rw [input.uxId.length_contents] at place
    rw [holds, HostInput.serialized, ← List.append_nil (_ ++ le32 _), place,
      ← List.append_nil (le32 _), u4LE_le32 _ input.small]
  have path : (inputPath device.getPublicKeyContext.bip44Path slot).contents =
      device.getPublicKeyContext.bip44Path.read 0 4 ++ [input.addressIndex] := by
    rw [inputPath, index, Cells.contents_write _ _ _ (le_refl 5), List.drop_eq_nil_of_le]
    · rw [List.append_nil]
      rfl
    · exact le_of_eq (Cells.length_contents _)
  have id : slot.input.take sha256HashLen = input.uxId.contents := by
    rw [holds]
    exact take_serialized input
  rw [Device.attempt, signInput, path, id]
  rfl

theorem signing_eq (slots : List SigInput) (inputs : List HostInput)
    (holds : slots.map SigInput.input = inputs.map HostInput.serialized) :
    slots.mapM (device.attempt sdk) =
      inputs.mapM (HostInput.signature sdk device.getPublicKeyContext.bip44Path
        device.signTxnContext.txn.innerHash.contents) := by
  induction slots generalizing inputs with
  | nil =>
    rw [List.map_nil, eq_comm, List.map_eq_nil_iff] at holds
    rw [holds]
    rfl
  | cons slot slots inductionHypothesis =>
    cases inputs with
    | nil => cases holds
    | cons input inputs =>
      obtain ⟨first, later⟩ := List.cons.inj holds
      rw [List.mapM_cons, List.mapM_cons, attempt_eq sdk device first, inductionHypothesis _ later]

/-- An SDK that does not fail signs all inputs. -/
theorem Sdk.Delivers.signatures (delivers : sdk.Delivers) (path : Cells Nat 5) (innerHash : Bytes)
    (inputs : List HostInput) :
    ∃ signatures, inputs.mapM (HostInput.signature sdk path innerHash) = .ok signatures := by
  induction inputs with
  | nil => exact ⟨[], rfl⟩
  | cons input inputs inductionHypothesis =>
    obtain ⟨signatures, later⟩ := inductionHypothesis
    obtain ⟨privateKey, derived⟩ := delivers.derives (path.read 0 4 ++ [input.addressIndex])
    obtain ⟨signed, signs⟩ := delivers.signs privateKey
      (sdk.sha256 (innerHash ++ input.uxId.contents)).contents
    cases first : input.signature sdk path innerHash with
    | error code =>
      rw [HostInput.signature, derivePrivateKey, derived] at first
      change sign sdk privateKey _ = _ at first
      rw [sign, signs] at first
      cases first
    | ok signature =>
      refine ⟨signature :: signatures, ?_⟩
      rw [List.mapM_cons, first, later]
      rfl

end Slots

/-! ### The inner hash -/

/-- The device returns these signatures, and has returned some of them. -/
structure Owes (sdk : Sdk) (signatures : List SigInput) (given : Nat) (device : Device) : Prop where
  invariant : SessionInvariant sdk device
  left : Left sdk signatures given device

section Hash

variable {sdk : Sdk} {inputs : List HostInput} {outputs : List HostOutput}
  {signatures : List SigInput} {device : Device}

/-- A context that has read a transaction signs its inputs. -/
theorem ReadyFor.table {ctx : SignTxnContext}
    (ready : ReadyFor sdk (readTransaction inputs outputs) ctx) (few : inputs.length ≤ maxInputs) :
    (ctx.txn.sigInput.read 0 ctx.txn.inNum).map SigInput.input =
      inputs.map HostInput.serialized := by
  have declared := ready.signsFor.declared
  obtain ⟨_, before, tracks, rfl⟩ := ready
  have stores := tracks.stores
  have length : (readTransaction inputs outputs).inputs.length = inputs.length :=
    List.length_map _
  have slots := stores.read (by rw [length]; exact few)
  rw [declared]
  exact slots

/-- With the inner hash sent, all signatures are owed. -/
theorem ReadyFor.owes (ready : ReadyFor sdk (readTransaction inputs outputs) device.signTxnContext)
    (loaded : device.signTxnContext.Loaded)
    (log : progressOf device.log = readTransaction inputs outputs)
    (session : device.signTxnContext.initialized = true) (few : inputs.length ≤ 20)
    (some : 1 ≤ inputs.length)
    (signs : inputs.mapM (HostInput.signature sdk device.getPublicKeyContext.bip44Path
      device.signTxnContext.txn.innerHash.contents) = .ok signatures) :
    Owes sdk signatures 0 device.answerInnerHash.replyOk := by
  have signsFor := ready.signsFor
  have declared : device.signTxnContext.txn.inNum = signatures.length := by
    rw [length_mapM signs]
    exact signsFor.declared.trans (List.length_map _)
  have slots := ready.table few
  have signing : device.answerInnerHash.replyOk.signing sdk = .ok signatures := by
    rw [← signs]
    exact signing_eq _ inputs slots
  have given : device.answerInnerHash.replyOk.given = 0 := given_computeSigs rfl
  refine ⟨⟨loaded, fun _ => Or.inr ?_⟩, ⟨declared, Or.inl ⟨rfl, signing⟩⟩, given, ?_⟩
  · rw [replyOk_log]
    show SignsFor sdk (progressOf device.log) _
    rw [log]
    exact signsFor.compute
  · rw [length_mapM signs]
    exact iff_of_true session (by omega)

/-- The parser finds the transaction read. -/
theorem Waits.finds (waits : Waits sdk (readTransaction inputs outputs) [] device)
    (loaded : device.signTxnContext.Loaded) (few : outputs.length ≤ 255) :
    ∃ ctx, txnNextElem sdk device = .ok (txnReady, device.readBy [] ctx) ∧
      ReadyFor sdk (readTransaction inputs outputs) ctx ∧ ctx.Loaded ∧ ctx.initialized = true := by
  have finished : (readTransaction inputs outputs).Finished := by
    show (outputs.map HostOutput.serialized).length % 2 ^ 8 = outputs.length
    rw [List.length_map, Nat.mod_eq_of_lt (by omega)]
  have reads := txnNextElem_reads waits.tracks loaded
  rw [Progress.call, if_pos finished] at reads
  obtain ⟨ctx, looped, called, _⟩ := reads
  exact ⟨ctx, looped, called.reached, called.loaded, called.initialized.trans waits.session⟩

/-- The inner hash goes to the host from the start of the transport buffer. -/
theorem answerInnerHash_sent (device : Device) (zero : device.tx = 0) :
    ioAsyncExchangeOk device.answerInnerHash = .ok device.answerInnerHash.replyOk ∧
      device.answerInnerHash.replyOk.log =
        .reply (device.signTxnContext.txn.innerHash.contents ++ statusBytes insRetSuccess) ::
          device.log := by
  have fits : device.answerInnerHash.tx + 2 ≤ apduBufferLen := by
    show device.tx + 32 + 2 ≤ 260
    rw [zero]
    decide
  have written := device.apduBuffer.read_write_self 0 device.signTxnContext.txn.innerHash.contents
    (by rw [Cells.length_contents]; decide)
  rw [Cells.length_contents] at written
  have bytes : device.answerInnerHash.apduBuffer.read 0 device.answerInnerHash.tx =
      device.signTxnContext.txn.innerHash.contents := by
    show (device.apduBuffer.write 0 _).read 0 (device.tx + 32) = _
    rw [zero]
    exact written
  refine ⟨ioAsyncExchangeOk_eq fits, ?_⟩
  rw [replyOk_log, bytes]
  rfl

/-- An empty command and a press give the inner hash. -/
theorem send_forHash (waits : Waits sdk (readTransaction inputs outputs) [] device)
    (fewInputs : inputs.length ≤ 20) (someInputs : 1 ≤ inputs.length)
    (someOutputs : 1 ≤ outputs.length) (fewOutputs : outputs.length ≤ 255)
    (signs : inputs.mapM (HostInput.signature sdk device.getPublicKeyContext.bip44Path
      (sdk.sha256 (hashedTransaction inputs outputs)).contents) = .ok signatures) (turns : Nat) :
    ∃ after, sendToLedger sdk (turns + 2) 1 [] (Nat.zero_le _) device =
        .ok ((sdk.sha256 (hashedTransaction inputs outputs)).contents, after) ∧
      Owes sdk signatures 0 after ∧ Exchanged device after := by
  obtain ⟨asked, later, _⟩ := ledgerApdu_asks device 1 [] (Nat.zero_le _)
  set apdu := ledgerApdu 1 [] (Nat.zero_le _)
  set shown := goToTransactionScreen (device.loaded apdu)
  have second : device.p1 apdu = 1 := later
  have reading : device.signTxnContext.txnState = .txnOut := waits.tracks.state
  have answered : step sdk device (.apdu apdu) = .ok shown := by
    rw [step_signs sdk asked, if_pos waits.session, if_pos second, reading, if_neg (by decide)]
  have going : shown.pressed = shown.record (.rightPress shown.transactionContext) :=
    pressed_going waits.session
  have waiting : Waits sdk (readTransaction inputs outputs) []
      (shown.record (.rightPress shown.transactionContext)) :=
    ⟨waits.tracks.load _ _, waits.staged, waits.session, waits.log⟩
  obtain ⟨ctx, looped, ready, loaded, session⟩ :=
    waiting.finds (loaded_loaded device apdu) fewOutputs
  have some : (readTransaction inputs outputs).outputs ≠ [] := by
    intro none
    have zero := congrArg List.length none
    rw [readTransaction, Progress.outputs, List.length_map, List.length_nil] at zero
    omega
  have hash : ctx.txn.innerHash = sdk.sha256 (hashedTransaction inputs outputs) := by
    rw [ready.signsFor.hash some, hashed_readTransaction]
  set reader := (shown.record (.rightPress shown.transactionContext)).readBy [] ctx
  obtain ⟨sends, sent⟩ := answerInnerHash_sent reader rfl
  have pressed : step sdk shown (.button .right) = .ok reader.answerInnerHash.replyOk := by
    rw [step_rightPress sdk rfl (by decide), resumeByPress, going, looped]
    exact sends
  have contents : reader.signTxnContext.txn.innerHash.contents =
      (sdk.sha256 (hashedTransaction inputs outputs)).contents := congrArg Cells.contents hash
  rw [← contents] at signs ⊢
  refine ⟨reader.answerInnerHash.replyOk, ?_, ?_, rfl, ?_⟩
  · have asks : answerTo shown.log = none := rfl
    have screen : shown.screen = .transaction := rfl
    rw [sendToLedger, answered]
    show awaitReply sdk (turns + 2) shown = _
    rw [awaitReply, asks]
    simp only
    rw [if_pos screen, pressed]
    exact awaitReply_answered sdk turns sent
  · exact ready.owes loaded waits.log session fewInputs someInputs signs
  · rw [sent]
    have longer : Logs.Extends Event.Modest device.log reader.log :=
      ((Logs.Extends.refl device.log).cons trivial).cons trivial
    exact longer.cons (modest_reply (by rw [Cells.length_contents]; decide) _)

end Hash

/-! ### The signatures -/

section Fetch

variable {sdk : Sdk} {signatures : List SigInput} {given : Nat} {device : Device}

/-- A call that returns signatures leaves the stored path as it was. -/
theorem Resumed.keepsKeys {progress : Progress} {code : Nat} {called : Device}
    (resumes : Resumed sdk progress device code called)
    (signing : Signing sdk signatures device) :
    called.getPublicKeyContext = device.getPublicKeyContext := by
  have batch : ∀ {signed : Device},
      (signed.returned signed.batch).afterBatch = (some code, called) →
      called.getPublicKeyContext = signed.getPublicKeyContext := by
    intro signed returned
    rcases Device.afterBatch_cases returned with ⟨_, _, rfl⟩ | ⟨_, _, rfl⟩
    · rfl
    · rfl
  cases resumes with
  | read call ctx tracks calls reads thrown result =>
    subst result
    rfl
  | computed signs state computes =>
    cases computes with
    | raised path table counter derived signed result =>
      have raised : device.signing sdk = .error code := signed.raised code rfl
      rw [signing.signing state] at raised
      cases raised
    | finished others derived signed each derivations result returned =>
      have kept := batch returned
      rw [kept, result]
      rfl
  | returned signs state returns => exact batch returns

/-- A command in the middle of the signatures is answered. -/
theorem Owes.command (owes : Owes sdk signatures given device) (owed : given < signatures.length)
    {apdu : Apdu} (asked : device.AsksToSign apdu) (later : device.p1 apdu = 1) :
    ∃ after, step sdk device (.apdu apdu) = .ok after ∧
      after.getPublicKeyContext = device.getPublicKeyContext := by
  obtain ⟨invariant, signing, _, session⟩ := owes
  have going : device.signTxnContext.initialized = true := session.mpr (ne_of_lt owed)
  have before := invariant.load apdu
  obtain ⟨ready, _⟩ := signing.loaded apdu
  rw [step_signs sdk asked, if_pos going, if_pos later, if_pos signing.resumedByCommand,
    resumeByCommand]
  rcases txnNextElem_resumes (before.session going) before.loaded with
    ⟨code, called, looped, resumes⟩ | ⟨_, tracks, _⟩
  · have keys := resumes.keepsKeys ready
    obtain ⟨_, _, tx, _, _, ended⟩ := resumes.gives ready
    have room : sigLen * (device.loaded apdu).gift ≤ 255 := room_le (device.loaded apdu)
    have fits : called.tx + 2 ≤ apduBufferLen := by
      have start : (device.loaded apdu).tx = 0 := rfl
      rw [tx, start, Nat.zero_add]
      exact le_trans (Nat.add_le_add_right room 2) (by decide)
    rw [looped]
    simp only
    rcases ended with ⟨_, rfl, _⟩ | ⟨_, rfl, _⟩
    · have sent : ioAsyncExchangeOk called.endSession = .ok called.endSession.replyOk :=
        ioAsyncExchangeOk_eq fits
      rw [handleSignTxnResult, if_neg (by decide), if_neg (by decide), if_neg (by decide),
        if_pos rfl, sent]
      exact ⟨_, rfl, keys⟩
    · rw [handleSignTxnResult, if_neg (by decide), if_neg (by decide), if_pos rfl,
        ioAsyncExchangeOk_eq fits]
      exact ⟨_, rfl, keys⟩
  · exact absurd tracks (ready.not_tracks _)

/-- An empty command gives the next signatures, at most three. -/
theorem send_forSignatures (owes : Owes sdk signatures given device)
    (owed : given < signatures.length) (turns : Nat) :
    ∃ after, sendToLedger sdk (turns + 1) 1 [] (Nat.zero_le _) device =
        .ok (signatureBytes signatures given (min (signatures.length - given) 3), after) ∧
      Owes sdk signatures (given + min (signatures.length - given) 3) after ∧
        Exchanged device after := by
  obtain ⟨asked, second, _⟩ := ledgerApdu_asks device 1 [] (Nat.zero_le _)
  set apdu := ledgerApdu 1 [] (Nat.zero_le _)
  have later : device.p1 apdu = 1 := second
  obtain ⟨after, stepped, keys⟩ := owes.command owed asked later
  obtain ⟨invariant, signing, counted, session⟩ := owes
  have going : device.signTxnContext.initialized = true := session.mpr (ne_of_lt owed)
  have gift : (device.loaded apdu).gift = min (signatures.length - given) 3 := by
    have total : (device.loaded apdu).signTxnContext.txn.inNum = signatures.length :=
      signing.declared
    have same : (device.loaded apdu).given = given := counted
    have empty : (device.loaded apdu).tx = 0 := rfl
    rw [Device.gift, total, same, empty, sigLen]
  obtain ⟨left, events, unspoken, log⟩ := command_fetches invariant signing
    (by rw [counted]; exact le_of_lt owed) going asked later stepped
  rw [counted, gift] at left log
  have inside : given + min (signatures.length - given) 3 ≤ signatures.length := by omega
  have short := length_signatureBytes inside
  rw [sigLen] at short
  refine ⟨after, ?_, ⟨step_session invariant stepped, left⟩, ?_, ?_⟩
  · rw [sendToLedger, stepped]
    exact awaitReply_answered sdk turns log
  · rw [keys]
  · rw [log]
    refine Logs.Extends.cons ?_ (modest_reply (by omega) _)
    refine Logs.Extends.append ((Logs.Extends.refl device.log).cons trivial) ?_
    exact fun event member => (unspoken event member).modest

/-- The loop that asks for the signatures. The induction is on the number of turns, enough for the
signatures that are left. -/
theorem fetchRest_fetches (fuel : Nat) {innerHash : Bytes} (length : innerHash.length = 32)
    (turns : Nat) (owes : Owes sdk signatures given device) (bound : given ≤ signatures.length)
    (enough : signatures.length ≤ given + turns) :
    ∃ after, fetchRest sdk (fuel + 1) (32 + signatures.length * 65) 1 (turns + 1)
        (innerHash ++ signatureBytes signatures 0 given) device =
          .ok (innerHash ++ signatureBytes signatures 0 signatures.length, after) ∧
      Owes sdk signatures signatures.length after ∧ Exchanged device after := by
  have fetched : (innerHash ++ signatureBytes signatures 0 given).length = 32 + 65 * given := by
    rw [List.length_append, length, length_signatureBytes (by omega), sigLen]
  induction turns generalizing given device with
  | zero =>
    have all : given = signatures.length := by omega
    subst all
    rw [fetchRest, if_neg (by omega)]
    exact ⟨device, rfl, owes, Exchanged.refl device⟩
  | succ turns inductionHypothesis =>
    by_cases all : given = signatures.length
    · subst all
      rw [fetchRest, if_neg (by omega)]
      exact ⟨device, rfl, owes, Exchanged.refl device⟩
    · obtain ⟨next, answered, owesNext, exchanged⟩ := send_forSignatures owes (by omega) fuel
      have inside : given + min (signatures.length - given) 3 ≤ signatures.length := by omega
      obtain ⟨after, went, done, later⟩ := inductionHypothesis owesNext inside (by omega) (by
        rw [List.length_append, length, length_signatureBytes (by omega), sigLen])
      rw [fetchRest, if_pos (by omega), answered]
      simp only
      rw [List.append_assoc, signatureBytes_append]
      exact ⟨after, went, done, exchanged.trans later⟩

/-- The pieces the script cuts. -/
theorem splitSigs_flatten (pieces : List Bytes) (each : ∀ piece ∈ pieces, piece.length = 65) :
    splitSigs pieces.flatten = pieces := by
  induction pieces with
  | nil =>
    rw [List.flatten_nil, splitSigs]
    rfl
  | cons piece pieces inductionHypothesis =>
    obtain ⟨length, later⟩ := List.forall_mem_cons.mp each
    rw [List.flatten_cons, splitSigs, if_pos (by rw [List.length_append]; omega),
      List.take_left' length, List.drop_left' length, inductionHypothesis later]

theorem splitSigs_signatureBytes (signatures : List SigInput) :
    splitSigs (signatureBytes signatures 0 signatures.length) =
      signatures.map Cells.contents := by
  have whole : signatures.map SigInput.signature = signatures.map Cells.contents :=
    List.map_congr_left fun signature _ => signature.read_all
  rw [signatureBytes, List.drop_zero, List.take_length, splitSigs_flatten, whole]
  intro piece member
  obtain ⟨signature, _, rfl⟩ := List.mem_map.mp member
  exact length_signature signature

end Fetch

/-! ### `send_txn` -/

/-- The device takes a command with `p1 = 0` and shows the transaction screen for it. -/
def Device.TakesFirst (sdk : Sdk) (device : Device) : Prop :=
  ∀ data fits, step sdk device (.apdu (ledgerApdu 0 data fits)) =
    .ok (goToTransactionScreen (device.loaded (ledgerApdu 0 data fits)))

theorem takesFirst_of_closed (sdk : Sdk) {device : Device}
    (closed : device.signTxnContext.initialized = false) : device.TakesFirst sdk := by
  intro data fits
  obtain ⟨asked, first, _⟩ := ledgerApdu_asks device 0 data fits
  have zero : device.p1 (ledgerApdu 0 data fits) = 0 := first
  rw [step_signs sdk asked, if_neg (by rw [closed]; exact Bool.false_ne_true), if_pos zero]

section Transaction

variable {sdk : Sdk} {inputs : List HostInput} {outputs : List HostOutput}

theorem sends_serialized (someInputs : 1 ≤ inputs.length) (fewInputs : inputs.length ≤ 20)
    (someOutputs : 1 ≤ outputs.length) (fewOutputs : outputs.length ≤ 255) :
    Sends (serializedTransaction inputs outputs) := by
  obtain ⟨state, rest⟩ := parseWhole_serialized someInputs fewInputs fewOutputs
  refine ⟨declares_serialized someInputs fewInputs someOutputs fewOutputs, ?_, rest⟩
  rw [state]
  exact List.length_map _

/-- The first turn of the second loop gets the inner hash, the others the signatures. -/
theorem fetchRest_gets {device : Device} {signatures : List SigInput}
    (waits : Waits sdk (readTransaction inputs outputs) [] device)
    (someInputs : 1 ≤ inputs.length) (fewInputs : inputs.length ≤ 20)
    (someOutputs : 1 ≤ outputs.length) (fewOutputs : outputs.length ≤ 255)
    (signs : inputs.mapM (HostInput.signature sdk device.getPublicKeyContext.bip44Path
      (sdk.sha256 (hashedTransaction inputs outputs)).contents) = .ok signatures)
    {fuel : Nat} (enough : 22 ≤ fuel) :
    ∃ after, fetchRest sdk fuel (32 + inputs.length * 65) 1 fuel [] device =
        .ok ((sdk.sha256 (hashedTransaction inputs outputs)).contents ++
          signatureBytes signatures 0 signatures.length, after) ∧
      Owes sdk signatures signatures.length after ∧ Exchanged device after := by
  have count : signatures.length = inputs.length := length_mapM signs
  obtain ⟨turns, rfl⟩ : ∃ turns, fuel = turns + 2 := ⟨fuel - 2, by omega⟩
  obtain ⟨next, answered, owes, exchanged⟩ :=
    send_forHash waits fewInputs someInputs someOutputs fewOutputs signs turns
  obtain ⟨after, went, done, later⟩ := fetchRest_fetches (turns + 1)
    (sdk.sha256 (hashedTransaction inputs outputs)).length_contents turns owes (Nat.zero_le _)
    (by omega)
  have none : signatureBytes signatures 0 0 = [] := by
    rw [signatureBytes, List.take_zero]
    rfl
  rw [count, none, List.append_nil] at went
  rw [fetchRest, if_pos (by rw [List.length_nil]; omega), answered]
  simp only
  rw [List.nil_append, count]
  exact ⟨after, went, count ▸ done, exchanged.trans later⟩

end Transaction

/-- `send_txn` ends, with the inner hash and the signatures of the inputs in their order. Meanwhile
no reply is longer than 255 bytes and the status, and afterwards the stored path is as before and
no session is open. -/
theorem send_txn_gets_signatures (sdk : Sdk) (delivers : sdk.Delivers) (inputs : List HostInput)
    (outputs : List HostOutput) (someInputs : 1 ≤ inputs.length) (fewInputs : inputs.length ≤ 20)
    (someOutputs : 1 ≤ outputs.length) (fewOutputs : outputs.length ≤ 255) (device : Device)
    (closed : device.signTxnContext.initialized = false) (fuel : Nat)
    (enough : (serializedTransaction inputs outputs).length + 300 ≤ fuel) :
    ∃ signatures after,
      sendTxn sdk fuel (serializedTransaction inputs outputs) device =
        .ok (((sdk.sha256 (hashedTransaction inputs outputs)).contents,
          signatures.map Cells.contents), after) ∧
      inputs.mapM (HostInput.signature sdk device.getPublicKeyContext.bip44Path
        (sdk.sha256 (hashedTransaction inputs outputs)).contents) = .ok signatures ∧
      Exchanged device after ∧ after.signTxnContext.initialized = false ∧ after.TakesFirst sdk := by
  obtain ⟨signatures, signs⟩ := delivers.signatures device.getPublicKeyContext.bip44Path
    (sdk.sha256 (hashedTransaction inputs outputs)).contents inputs
  have sends := sends_serialized someInputs fewInputs someOutputs fewOutputs
  obtain ⟨read, chunks, waits, exchanged⟩ := sendChunks_sends sends closed enough
  rw [(parseWhole_serialized someInputs fewInputs fewOutputs).1] at waits
  rw [← exchanged.path] at signs ⊢
  have many : 22 ≤ fuel := by omega
  obtain ⟨after, fetched, owes, later⟩ :=
    fetchRest_gets waits someInputs fewInputs someOutputs fewOutputs signs many
  have ended : after.signTxnContext.initialized = false :=
    Bool.eq_false_iff.mpr fun session => owes.left.session.mp session rfl
  have hash := (sdk.sha256 (hashedTransaction inputs outputs)).length_contents
  refine ⟨signatures, after, ?_, signs, exchanged.trans later, ended,
    takesFirst_of_closed sdk ended⟩
  have declared : u4LE (serializedTransaction inputs outputs) 0 = inputs.length :=
    u4LE_serialized fewInputs
  rw [sendTxn, chunks, declared]
  show fetchRest sdk fuel _ 1 fuel [] read >>= _ = _
  rw [fetched]
  show Except.ok _ = _
  rw [List.take_left' hash, List.drop_left' hash, splitSigs_signatureBytes]

/-- An input, and an output of one coin, as the script has them. -/
def sampleHostInput : HostInput where
  uxId := Cells.fill 7
  addressIndex := 3
  small := by decide

def sampleHostOutput : HostOutput where
  addr := Cells.fill 9
  amount := 1000000
  fee := 1
  smallAmount := by decide
  smallFee := by decide

/-- Four inputs and nine outputs: two chunks, and two commands for the signatures. -/
theorem send_txn_gets_signatures_sample : ∃ signatures after,
    sendTxn Sdk.plain 1000 (serializedTransaction (List.replicate 4 sampleHostInput)
      (List.replicate 9 sampleHostOutput)) Device.boot =
        .ok (((Sdk.plain.sha256 (hashedTransaction (List.replicate 4 sampleHostInput)
          (List.replicate 9 sampleHostOutput))).contents, signatures.map Cells.contents), after) ∧
      (List.replicate 4 sampleHostInput).mapM (HostInput.signature Sdk.plain
        Device.boot.getPublicKeyContext.bip44Path (Sdk.plain.sha256 (hashedTransaction
          (List.replicate 4 sampleHostInput) (List.replicate 9 sampleHostOutput))).contents) =
        .ok signatures ∧
      Exchanged Device.boot after ∧ after.signTxnContext.initialized = false ∧
        after.TakesFirst Sdk.plain :=
  send_txn_gets_signatures Sdk.plain ⟨fun _ => ⟨_, rfl⟩, fun _ _ => ⟨_, rfl⟩⟩ _ _ (by decide)
    (by decide) (by decide) (by decide) Device.boot rfl 1000 (by decide +kernel)

end LedgerNano
