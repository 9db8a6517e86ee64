/-
This file proves that the host's script and the device get a transaction signed.

A transaction as the script serializes it is parsed to its end (`parseWhole_serialized`).
Each chunk of 254 bytes is answered, after as many presses as it completes outputs, with
an empty payload and leaves the parser where the whole string has it (`Waits`); then one
press returns the inner hash, and each further command three signatures more.
-/

import LedgerNano.Delivery
import LedgerNano.Host
import LedgerNano.Stream

namespace LedgerNano

/-! ### The serialized transaction -/

theorem HostInput.length_serialized (input : HostInput) : input.serialized.length = 36 := by
  rw [serialized, List.length_append, input.uxId.length_contents, length_le32]

theorem HostOutput.length_serialized (output : HostOutput) : output.serialized.length = 37 := by
  simp only [serialized, le64, List.length_append, output.addr.length_contents, length_le32]

section Serialized

variable {inputs : List HostInput} {outputs : List HostOutput}

/-- The elements of a transaction. -/
def serializedElements (inputs : List HostInput) (outputs : List HostOutput) : List Bytes :=
  le32 inputs.length :: inputs.map HostInput.serialized ++
    le32 outputs.length :: outputs.map HostOutput.serialized

/-- The device has read a whole transaction. -/
def readTransaction (inputs : List HostInput) (outputs : List HostOutput) : Progress :=
  .txnOut inputs.length (inputs.map HostInput.serialized) outputs.length
    (outputs.map HostOutput.serialized)

theorem frames_serialized (someInputs : 1 ≤ inputs.length) (fewInputs : inputs.length ≤ 20)
    (fewOutputs : outputs.length ≤ 255) :
    Progress.format.Frames .startIn (serializedElements inputs outputs) ∧
      (serializedElements inputs outputs).foldl Progress.format.next .startIn =
        readTransaction inputs outputs := by
  have sizesIn : ∀ input ∈ inputs.map HostInput.serialized, input.length = 36 := by
    intro bytes member
    obtain ⟨input, _, rfl⟩ := List.mem_map.mp member
    exact input.length_serialized
  have sizesOut : ∀ output ∈ outputs.map HostOutput.serialized, output.length = 37 := by
    intro bytes member
    obtain ⟨output, _, rfl⟩ := List.mem_map.mp member
    exact output.length_serialized
  have some : inputs.map HostInput.serialized ≠ [] := by
    intro none
    have zero := congrArg List.length none
    rw [List.length_map, List.length_nil] at zero
    omega
  have first : Progress.format.next .startIn (le32 inputs.length) = .txnIn inputs.length [] := by
    show Progress.txnIn (u4LE (le32 inputs.length) 0) [] = _
    rw [← List.append_nil (le32 inputs.length), u4LE_le32 _ (by omega)]
  have second : Progress.format.next
      (.startOut inputs.length (inputs.map HostInput.serialized)) (le32 outputs.length) =
        .txnOut inputs.length (inputs.map HostInput.serialized) outputs.length [] := by
    show Progress.txnOut _ _ (u4LE (le32 outputs.length) 0) [] = _
    rw [← List.append_nil (le32 outputs.length), u4LE_le32 _ (by omega)]
  obtain ⟨framesIn, endIn⟩ := Progress.frames_inputs [] (inputs.map HostInput.serialized) sizesIn
    some (by rw [List.length_nil, Nat.zero_add, List.length_map])
  obtain ⟨framesOut, endOut⟩ := Progress.frames_outputs [] (outputs.map HostOutput.serialized)
    sizesOut (by rw [List.length_nil, Nat.zero_add, List.length_map])
  rw [serializedElements, List.cons_append]
  refine ⟨⟨Nat.succ_pos _, rfl, ?_⟩, ?_⟩
  · rw [first, Progress.format.frames_append, endIn]
    refine ⟨framesIn, Nat.succ_pos _, rfl, ?_⟩
    rw [List.nil_append, second]
    exact framesOut
  · rw [List.foldl_cons, List.foldl_append, first, endIn, List.foldl_cons, List.nil_append, second,
      endOut]
    rfl

/-- The serialized transaction is parsed to its end. -/
theorem parseWhole_serialized (someInputs : 1 ≤ inputs.length) (fewInputs : inputs.length ≤ 20)
    (fewOutputs : outputs.length ≤ 255) :
    (parseWhole (serializedTransaction inputs outputs)).state = readTransaction inputs outputs ∧
      (parseWhole (serializedTransaction inputs outputs)).rest = [] := by
  obtain ⟨frames, ends⟩ := frames_serialized someInputs fewInputs fewOutputs
  have elements : serializedTransaction inputs outputs =
      (serializedElements inputs outputs).flatten ++ [] := by
    simp only [serializedTransaction, serializedElements, List.flatten_append, List.flatten_cons,
      List.append_assoc, List.append_nil, List.cons_append]
  have complete : (readTransaction inputs outputs).Complete := List.length_map _
  rw [parseWhole, elements, Progress.format.consume_frames frames, ends,
    Progress.consume_complete complete]
  exact ⟨rfl, rfl⟩

theorem length_serializedInputs (inputs : List HostInput) :
    (inputs.map HostInput.serialized).flatten.length = 36 * inputs.length := by
  induction inputs with
  | nil => rfl
  | cons input later inductionHypothesis =>
    rw [List.map_cons, List.flatten_cons, List.length_append, input.length_serialized,
      inductionHypothesis, List.length_cons]
    omega

theorem u4LE_serialized (few : inputs.length ≤ 20) :
    u4LE (serializedTransaction inputs outputs) 0 = inputs.length := by
  simp only [serializedTransaction, List.append_assoc]
  exact u4LE_le32 _ (by omega) _

theorem declares_serialized (someInputs : 1 ≤ inputs.length) (fewInputs : inputs.length ≤ 20)
    (someOutputs : 1 ≤ outputs.length) (fewOutputs : outputs.length ≤ 255) :
    Declares (serializedTransaction inputs outputs) := by
  have size := length_serializedInputs inputs
  have place : 4 + 36 * inputs.length =
      (le32 inputs.length ++ (inputs.map HostInput.serialized).flatten).length := by
    rw [List.length_append, length_le32, size]
  have declaredOut : u4LE (serializedTransaction inputs outputs) (4 + 36 * inputs.length) =
      outputs.length := by
    rw [place, serializedTransaction, u4LE_middle _ (length_le32 _),
      ← List.append_nil (le32 outputs.length), u4LE_le32 _ (by omega)]
  rw [Declares, u4LE_serialized fewInputs, declaredOut]
  exact ⟨fun _ => ⟨someInputs, fewInputs⟩, fun _ => ⟨someOutputs, fewOutputs⟩⟩

end Serialized

/-! ### One chunk -/

/-- The event is no reply of more than 255 bytes and the status. -/
def Event.Modest : Event → Prop
  | .reply bytes => bytes.length ≤ 257
  | _ => True

/-- What an exchange with the host leaves of a device: the path, and a longer log without a long
reply. -/
structure Exchanged (before after : Device) : Prop where
  path : after.getPublicKeyContext.bip44Path = before.getPublicKeyContext.bip44Path
  log : Logs.Extends Event.Modest before.log after.log

/-- The device waits for the next chunk, with this progress and these bytes staged. -/
structure Waits (sdk : Sdk) (progress : Progress) (staged : Bytes) (device : Device) : Prop where
  tracks : Tracks sdk progress device.signTxnContext
  staged : device.signTxnContext.staged = staged
  session : device.signTxnContext.initialized = true
  log : progressOf device.log = progress

/-- The staged bytes and a chunk are read to the progress `target`, and the bytes `left` remain. -/
structure Leads (progress : Progress) (staged chunk : Bytes) (target : Progress) (left : Bytes) :
    Prop where
  sound : progress.Sound (staged ++ chunk)
  incomplete : ¬ progress.Complete
  begins : staged = [] ∨ ¬ progress.Short staged.length chunk.length
  state : (Progress.format.consume progress (staged ++ chunk)).state = target
  rest : (Progress.format.consume progress (staged ++ chunk)).rest = left

/-- The next call of the parser reads on. -/
structure Feeds (sdk : Sdk) (progress target : Progress) (left : Bytes) (device : Device) :
    Prop where
  waits : Waits sdk progress device.signTxnContext.staged device
  loaded : device.signTxnContext.Loaded
  tx : device.tx = 0
  leads : Leads progress device.signTxnContext.staged
    (device.signTxnContext.pending device.apduBuffer) target left

/-- The bytes the parser has at hand. -/
def Device.atHand (device : Device) : Nat :=
  (device.signTxnContext.staged ++ device.signTxnContext.pending device.apduBuffer).length

theorem Event.Unspoken.modest {event : Event} (unspoken : event.Unspoken) : event.Modest := by
  cases event with
  | reply => exact absurd unspoken id
  | _ => trivial

theorem modest_reply {payload : Bytes} (short : payload.length ≤ 255) (code : Nat) :
    (Event.reply (payload ++ statusBytes code)).Modest := by
  have status : (statusBytes code).length = 2 := rfl
  show (payload ++ statusBytes code).length ≤ 257
  rw [List.length_append, status]
  exact Nat.add_le_add_right short 2

theorem extends_modest {past log : List Event} (longer : Logs.Extends Event.Unspoken past log) :
    Logs.Extends Event.Modest past log := by
  obtain ⟨events, same, each⟩ := longer
  exact ⟨events, same, fun event member => (each event member).modest⟩

theorem Exchanged.refl (device : Device) : Exchanged device device :=
  ⟨rfl, Logs.Extends.refl _⟩

theorem Exchanged.trans {first second third : Device} (one : Exchanged first second)
    (other : Exchanged second third) : Exchanged first third :=
  ⟨other.path.trans one.path, one.log.trans other.log⟩

section Exchange

variable {sdk : Sdk} {progress target reached : Progress} {left : Bytes} {device called : Device}

/-- Only the context, the transport buffer, `tx` and the session's progress matter. -/
theorem Feeds.congr (feeds : Feeds sdk progress target left device)
    (context : called.signTxnContext = device.signTxnContext)
    (buffer : called.apduBuffer = device.apduBuffer) (tx : called.tx = device.tx)
    (log : progressOf called.log = progressOf device.log) :
    Feeds sdk progress target left called := by
  obtain ⟨⟨tracks, _, session, same⟩, loaded, zero, sound, incomplete, begins, state, rest⟩ := feeds
  rw [← context] at tracks session loaded sound begins state rest
  rw [← buffer] at sound begins state rest
  exact ⟨⟨tracks, rfl, session, log.trans same⟩, loaded, tx.trans zero, sound, incomplete, begins,
    state, rest⟩

/-- The device after a call that reads on. -/
structure ReadOn (device called : Device) : Prop where
  path : called.getPublicKeyContext = device.getPublicKeyContext
  log : Logs.Extends Event.Unspoken device.log called.log
  tx : called.tx = device.tx
  screen : called.screen = device.screen

/-- A call ends with the chunk, or with an output that the user has to approve first. -/
theorem Feeds.call (feeds : Feeds sdk progress target left device)
    (ends : target.Complete → left = []) :
    ∃ code called, txnNextElem sdk device = .ok (code, called) ∧ ReadOn device called ∧
      ((code = txnPartial ∨ code = txnPartialOut) ∧ Waits sdk target left called ∨
        code = txnApproveOut ∧ ∃ reached, Feeds sdk reached target left called ∧
          called.atHand < device.atHand) := by
  obtain ⟨⟨tracks, _, session, same⟩, loaded, zero, sound, incomplete, begins, state, rest⟩ := feeds
  obtain ⟨call, calls, outcome⟩ := Progress.call_outcome progress device.signTxnContext.staged
    (device.signTxnContext.pending device.apduBuffer) sound
  have reads := txnNextElem_reads tracks loaded
  rw [calls] at reads
  obtain ⟨after, looped, reached, _⟩ := reads
  have log : progressOf (device.readBy call.records after).log = call.progress := by
    show progressOf ((call.records.map Event.element).reverse ++ device.log) = _
    rw [progressOf_elements, same, ← Progress.call_progress calls]
  have readOn : ReadOn device (device.readBy call.records after) := by
    have longer : Logs.Extends Event.Unspoken device.log
        ((call.records.map Event.element).reverse ++ device.log) :=
      (Logs.Extends.refl device.log).reverse_map Event.element (fun _ => trivial) call.records
    exact ⟨rfl, longer, rfl, rfl⟩
  refine ⟨call.code, _, looped, readOn, ?_⟩
  have going := reached.initialized.trans session
  have staged := reached.staged
  have pending := reached.pending
  cases outcome with
  | ready complete => exact absurd complete incomplete
  | short _ brief =>
    have empty : device.signTxnContext.staged = [] := begins.resolve_right (not_not.mpr brief)
    rw [empty, List.nil_append,
      Progress.consume_short (Progress.pending_lt_of_short brief)] at state rest
    subst state rest
    exact Or.inl ⟨Or.inl rfl, reached.reached, staged, going, log⟩
  | waits _ enough unfinished samePlace whole =>
    rw [whole] at state rest
    subst state rest
    exact Or.inl ⟨Or.inl rfl, reached.reached, staged, going, log⟩
  | lastOutput _ enough takes few =>
    have short := few.trans_eq (Progress.elementSize_output takes.reading).symm
    rw [takes.whole, Progress.consume_short short] at state rest
    subst state rest
    exact Or.inl ⟨Or.inr rfl, reached.reached, staged, going, log⟩
  | @output _ enough records last later takes many =>
    rw [takes.whole] at state rest
    have incompleteNext : ¬ last.Complete := by
      intro complete
      rw [Progress.consume_complete complete] at state rest
      subst state rest
      have none : later = [] := ends complete
      rw [none] at many
      exact absurd many (by decide)
    have atHand : after.staged ++ after.pending device.apduBuffer = later :=
      (congrArg₂ (· ++ ·) staged pending).trans (List.nil_append _)
    refine Or.inr ⟨rfl, last, ⟨⟨reached.reached, rfl, going, log⟩, reached.loaded, zero, ?_,
      incompleteNext, Or.inl staged, ?_, ?_⟩, ?_⟩
    · show last.Sound (after.staged ++ after.pending device.apduBuffer)
      rw [atHand]
      exact takes.sound
    · show (Progress.format.consume last
        (after.staged ++ after.pending device.apduBuffer)).state = _
      rw [atHand]
      exact state
    · show (Progress.format.consume last
        (after.staged ++ after.pending device.apduBuffer)).rest = _
      rw [atHand]
      exact rest
    · show (after.staged ++ after.pending device.apduBuffer).length < _
      rw [atHand]
      exact takes.shorter

theorem answerTo_ignores : Logs.Ignores Event.Unspoken answerTo := by
  intro event past unspoken
  cases event with
  | command => exact absurd unspoken id
  | reply => exact absurd unspoken id
  | _ => rfl

/-- A reply with the status of success gives its payload to the host. -/
theorem awaitReply_answered (sdk : Sdk) (turns : Nat) {payload : Bytes} {past : List Event}
    (log : device.log = .reply (payload ++ statusBytes insRetSuccess) :: past) :
    awaitReply sdk (turns + 1) device = .ok (payload, device) := by
  have status : (payload ++ statusBytes insRetSuccess).length - 2 = payload.length := by
    rw [List.length_append]
    rfl
  rw [awaitReply, log, answerTo_reply]
  simp only
  rw [responseOf, status, List.drop_left, if_pos accepts_success, List.take_left]
  rfl

/-- At the end of a chunk the handler answers a command with the bare success. -/
theorem handleSignTxnResult_ended (sdk : Sdk) {code : Nat}
    (ended : code = txnPartial ∨ code = txnPartialOut) :
    handleSignTxnResult sdk code called = ioAsyncExchangeOk called := by
  rcases ended with rfl | rfl
  · rw [handleSignTxnResult, if_neg (by decide), if_neg (by decide), if_pos rfl]
  · rw [handleSignTxnResult, if_neg (by decide), if_neg (by decide), if_neg (by decide),
      if_neg (by decide)]

/-- The bare success that ends a chunk. -/
theorem Waits.reply (waits : Waits sdk progress left called) (zero : called.tx = 0) :
    Waits sdk progress left called.replyOk ∧
      called.replyOk.log = .reply ([] ++ statusBytes insRetSuccess) :: called.log := by
  refine ⟨⟨waits.tracks, waits.staged, waits.session, waits.log⟩, ?_⟩
  rw [replyOk_log, zero, Cells.read_zero]

theorem Waits.prepared (waits : Waits sdk progress left called) :
    Waits sdk progress left (prepareOutputApproval sdk called) := by
  have context := prepareOutputApproval_signTxnContext sdk called
  refine ⟨?_, ?_, ?_, ?_⟩
  · rw [context]
    exact waits.tracks
  · rw [context]
    exact waits.staged
  · rw [context]
    exact waits.session
  · rw [prepareOutputApproval_log]
    exact waits.log

/-- What is read next after a press, where an open session has the same bytes at hand. -/
theorem Feeds.pressed (feeds : Feeds sdk progress target left called) (device : Device)
    (context : device.signTxnContext = called.signTxnContext)
    (buffer : device.apduBuffer = called.apduBuffer) (tx : device.tx = called.tx)
    (log : progressOf device.log = progressOf called.log) :
    Feeds sdk progress target left device.pressed ∧ device.pressed.atHand = called.atHand := by
  have session : device.signTxnContext.initialized = true := by
    rw [context]
    exact feeds.waits.session
  rw [pressed_going session]
  refine ⟨feeds.congr context buffer tx log, ?_⟩
  show (device.signTxnContext.staged ++ device.signTxnContext.pending device.apduBuffer).length = _
  rw [context, buffer]
  rfl

/-- An output on the screen does not change what is read next. -/
theorem Feeds.prepared (feeds : Feeds sdk progress target left called) :
    Feeds sdk progress target left (prepareOutputApproval sdk called).pressed ∧
      (prepareOutputApproval sdk called).pressed.atHand = called.atHand := by
  refine feeds.pressed _ (prepareOutputApproval_signTxnContext sdk called)
    (prepareOutputApproval_apduBuffer sdk called) (prepareOutputApproval_tx sdk called) ?_
  rw [prepareOutputApproval_log]
  rfl

/-- A call of the parser after a press, up to what it leaves for the user or the host. -/
theorem ReadOn.pressed (readOn : ReadOn device.pressed called) :
    Logs.Extends Event.Unspoken device.log called.log ∧
      called.getPublicKeyContext = device.getPublicKeyContext ∧ called.screen = device.screen :=
  ⟨(pressed_unspoken device).trans readOn.log, readOn.path.trans (pressed_keys device),
    readOn.screen.trans (pressed_screen device)⟩

/-- The bare success ends an exchange. -/
theorem Waits.answers (waits : Waits sdk target left called) (zero : called.tx = 0)
    (log : Logs.Extends Event.Unspoken device.log called.log)
    (path : called.getPublicKeyContext = device.getPublicKeyContext) (turns : Nat) :
    ioAsyncExchangeOk called = .ok called.replyOk ∧
      awaitReply sdk (turns + 1) called.replyOk = .ok ([], called.replyOk) ∧
        Waits sdk target left called.replyOk ∧ Exchanged device called.replyOk := by
  obtain ⟨waiting, replied⟩ := waits.reply zero
  refine ⟨ioAsyncExchangeOk_eq (by rw [zero]; decide), awaitReply_answered sdk turns replied,
    waiting, congrArg GetPublicKeyContext.bip44Path path, ?_⟩
  rw [replied]
  exact (extends_modest log).cons (modest_reply (Nat.zero_le _) _)

/-- Presses read the chunk to its end: the induction is on the turns, and each press but the last
approves an output of the bytes at hand. -/
theorem awaitReply_feeds (turns : Nat) (device : Device) (progress : Progress)
    (feeds : Feeds sdk progress target left device.pressed) (ends : target.Complete → left = [])
    (asks : answerTo device.log = none) (screen : device.screen = .transaction)
    (fuel : device.pressed.atHand + 1 < turns) :
    ∃ after, awaitReply sdk turns device = .ok ([], after) ∧ Waits sdk target left after ∧
      Exchanged device after := by
  induction turns generalizing device progress with
  | zero => exact absurd fuel (Nat.not_lt_zero _)
  | succ turns inductionHypothesis =>
    obtain ⟨turns, rfl⟩ : ∃ fewer, turns = fewer + 1 := ⟨turns - 1, by omega⟩
    obtain ⟨code, called, looped, readOn, outcome⟩ := feeds.call ends
    obtain ⟨log, path, shown⟩ := readOn.pressed
    have zero : called.tx = 0 := readOn.tx.trans feeds.tx
    have stepped : step sdk device (.button .right) = transactionScreenResult sdk code called := by
      rw [step_rightPress sdk screen (by decide), resumeByPress, looped]
    rw [awaitReply, asks]
    simp only
    rw [if_pos screen, stepped]
    rcases outcome with ⟨rfl | rfl, waits⟩ | ⟨rfl, reached, next, shorter⟩
    · obtain ⟨sent, answered, waiting, exchanged⟩ := waits.answers zero log path turns
      rw [transactionScreenResult, if_pos rfl, sent]
      exact ⟨_, answered, waiting, exchanged⟩
    · have prepared : Logs.Extends Event.Unspoken device.log
          (prepareOutputApproval sdk called).log := by
        rw [prepareOutputApproval_log]
        exact log.cons trivial
      obtain ⟨sent, answered, waiting, exchanged⟩ := waits.prepared.answers
        ((prepareOutputApproval_tx sdk called).trans zero) prepared
        ((prepareOutputApproval_getPublicKeyContext sdk called).trans path) turns
      rw [transactionScreenResult, if_neg (by decide), if_neg (by decide), if_pos rfl, sent]
      exact ⟨_, answered, waiting, exchanged⟩
    · have prepared : Logs.Extends Event.Unspoken device.log
          (prepareOutputApproval sdk called).log := by
        rw [prepareOutputApproval_log]
        exact log.cons trivial
      obtain ⟨feedsNext, atHand⟩ := next.prepared
      obtain ⟨after, answered, waits, exchanged⟩ := inductionHypothesis
        (prepareOutputApproval sdk called) reached feedsNext
        ((answerTo_ignores.of_extends prepared).trans asks)
        ((prepareOutputApproval_screen sdk called).trans (shown.trans screen))
        (by rw [atHand]; omega)
      have approve : txnApproveOut = TxnState.txnOut.value := rfl
      rw [transactionScreenResult, if_neg (by decide), if_pos approve]
      refine ⟨after, answered, waits, Exchanged.trans ⟨?_, extends_modest prepared⟩ exchanged⟩
      rw [prepareOutputApproval_getPublicKeyContext, path]

/-- After a command came to an output, presses read the chunk to its end. -/
theorem Feeds.approved {shown : Device} {output : TxnOutput}
    (feeds : Feeds sdk progress target left called) (ends : target.Complete → left = [])
    (context : shown.signTxnContext = called.signTxnContext)
    (buffer : shown.apduBuffer = called.apduBuffer)
    (log : shown.log = .prepared output :: called.log)
    (path : shown.getPublicKeyContext = device.getPublicKeyContext)
    (longer : Logs.Extends Event.Unspoken device.log called.log) (asks : answerTo device.log = none)
    (turns : Nat) (fuel : called.atHand + 1 < turns) :
    ∃ after, awaitReply sdk turns (goToTransactionScreen shown).resetTx = .ok ([], after) ∧
      Waits sdk target left after ∧ Exchanged device after := by
  have shownLog : Logs.Extends Event.Unspoken device.log shown.log := by
    rw [log]
    exact longer.cons trivial
  obtain ⟨next, same⟩ := feeds.pressed (goToTransactionScreen shown).resetTx context buffer
    feeds.tx.symm (by rw [resetTx_log, goToTransactionScreen_log, log, progressOf_prepared])
  obtain ⟨after, answered, waits, exchanged⟩ := awaitReply_feeds turns
    (goToTransactionScreen shown).resetTx progress next ends
    ((answerTo_ignores.of_extends shownLog).trans asks) rfl (by rw [same]; exact fuel)
  refine ⟨after, answered, waits, Exchanged.trans ⟨?_, ?_⟩ exchanged⟩
  · exact congrArg GetPublicKeyContext.bip44Path path
  · exact extends_modest shownLog

/-! ### One command -/

/-- A command of the script is one for the signing handler, with its data behind the header. -/
theorem ledgerApdu_asks (device : Device) (p1 : Byte) (data : Bytes) (fits : data.length ≤ 254) :
    device.AsksToSign (ledgerApdu p1 data fits) ∧ device.p1 (ledgerApdu p1 data fits) = p1.toNat ∧
      (device.loaded (ledgerApdu p1 data fits)).signTxnContext.pending
        (device.loaded (ledgerApdu p1 data fits)).apduBuffer = data := by
  have length : (ledgerApdu p1 data fits).bytes.length = 6 + data.length := by
    simp only [ledgerApdu, List.length_append, List.length_cons, List.length_nil]
    omega
  have declared : device.header (ledgerApdu p1 data fits) 4 = data.length := by
    rw [header_eq _ _ _ (by omega)]
    show (UInt8.ofNat data.length).toNat = data.length
    rw [UInt8.toNat_ofNat', Nat.mod_eq_of_lt (by omega)]
  refine ⟨⟨by omega, ?_, ?_⟩, ?_, ?_⟩
  · rw [header_eq _ _ _ (by omega)]
    rfl
  · rw [header_eq _ _ _ (by omega)]
    rfl
  · rw [Device.p1, header_eq _ _ _ (by omega)]
    rfl
  · have whole := device.apduBuffer.read_write_self 0 (ledgerApdu p1 data fits).bytes
      (by rw [Nat.zero_add]; exact (ledgerApdu p1 data fits).fits)
    rw [length] at whole
    show (device.apduBuffer.write 0 (ledgerApdu p1 data fits).bytes).read 5
      (device.header (ledgerApdu p1 data fits) 4) = data
    rw [declared, ← Nat.zero_add 5, ← Cells.take_read _ _ (6 + data.length - 5) _ (by omega),
      ← Cells.drop_read, whole]
    exact List.take_left' rfl

/-- The data of a command is read next. -/
theorem Waits.feeds {staged data : Bytes} (waits : Waits sdk progress staged device)
    (fits : data.length ≤ 254) (p1 : Byte) (leads : Leads progress staged data target left) :
    Feeds sdk progress target left (device.loaded (ledgerApdu p1 data fits)) := by
  have pending := (ledgerApdu_asks device p1 data fits).2.2
  have same : (device.loaded (ledgerApdu p1 data fits)).signTxnContext.staged = staged :=
    waits.staged
  refine ⟨⟨waits.tracks.load _ _, rfl, waits.session, waits.log⟩, loaded_loaded device _, rfl, ?_⟩
  rw [pending, same]
  exact leads

/-- A further chunk: the parser is resumed by the command or by the press that follows it. -/
theorem send_next {staged data : Bytes} (waits : Waits sdk progress staged device)
    (fits : data.length ≤ 254) (leads : Leads progress staged data target left)
    (ends : target.Complete → left = []) (turns : Nat)
    (fuel : (staged ++ data).length + 1 < turns) :
    ∃ after, sendToLedger sdk turns 1 data fits device = .ok ([], after) ∧
      Waits sdk target left after ∧ Exchanged device after := by
  obtain ⟨asked, later, pending⟩ := ledgerApdu_asks device 1 data fits
  have feeds := waits.feeds fits 1 leads
  have atHand : (device.loaded (ledgerApdu 1 data fits)).atHand = (staged ++ data).length := by
    have same : (device.loaded (ledgerApdu 1 data fits)).signTxnContext.staged = staged :=
      waits.staged
    rw [Device.atHand, pending, same]
  have received : Exchanged device (device.loaded (ledgerApdu 1 data fits)) :=
    ⟨rfl, (Logs.Extends.refl device.log).cons trivial⟩
  obtain ⟨turns, rfl⟩ : ∃ fewer, turns = fewer + 1 := ⟨turns - 1, by omega⟩
  have second : device.p1 (ledgerApdu 1 data fits) = 1 := later
  rw [sendToLedger, step_signs sdk asked, if_pos waits.session, if_pos second]
  by_cases state : device.signTxnContext.txnState.resumedByCommand = true
  · rw [if_pos state]
    obtain ⟨code, called, looped, readOn, outcome⟩ := feeds.call ends
    have zero : called.tx = 0 := readOn.tx.trans feeds.tx
    have log : Logs.Extends Event.Unspoken (device.loaded (ledgerApdu 1 data fits)).log
      called.log := readOn.log
    have path := readOn.path
    rw [resumeByCommand, looped]
    simp only
    rcases outcome with ⟨ended, next⟩ | ⟨rfl, reached, next, shorter⟩
    · obtain ⟨sent, _, waiting, exchanged⟩ := next.answers zero log path turns
      rw [handleSignTxnResult_ended sdk ended, sent]
      refine ⟨called.replyOk.resetTx, awaitReply_answered sdk turns (next.reply zero).2,
        ⟨waiting.tracks, waiting.staged, waiting.session, waiting.log⟩, received.trans ?_⟩
      exact ⟨exchanged.path, exchanged.log⟩
    · have approve : txnApproveOut = TxnState.txnOut.value := rfl
      rw [handleSignTxnResult, if_neg (by decide), if_pos approve]
      obtain ⟨after, answered, waiting, exchanged⟩ := next.approved ends
        (prepareOutputApproval_signTxnContext sdk called)
        (prepareOutputApproval_apduBuffer sdk called) (prepareOutputApproval_log sdk called)
        ((prepareOutputApproval_getPublicKeyContext sdk called).trans path) log rfl (turns + 1)
        (by omega)
      exact ⟨after, answered, waiting, received.trans exchanged⟩
  · rw [if_neg state]
    obtain ⟨feedsNext, same⟩ := feeds.pressed
      (goToTransactionScreen (device.loaded (ledgerApdu 1 data fits))) rfl rfl rfl rfl
    obtain ⟨after, answered, next, exchanged⟩ := awaitReply_feeds (turns + 1)
      (goToTransactionScreen (device.loaded (ledgerApdu 1 data fits))) progress feedsNext ends rfl
      rfl (by omega)
    exact ⟨after, answered, next, received.trans ⟨exchanged.path, exchanged.log⟩⟩

/-- The first chunk: the user opens the session, and the chunk is read from its start. -/
theorem send_first {data : Bytes} (closed : device.signTxnContext.initialized = false)
    (fits : data.length ≤ 254) (leads : Leads .startIn [] data target left)
    (ends : target.Complete → left = []) (turns : Nat) (fuel : data.length + 1 < turns) :
    ∃ after, sendToLedger sdk turns 0 data fits device = .ok ([], after) ∧
      Waits sdk target left after ∧ Exchanged device after := by
  obtain ⟨asked, first, pending⟩ := ledgerApdu_asks device 0 data fits
  have none : ¬ device.signTxnContext.initialized = true := by
    rw [closed]
    exact Bool.false_ne_true
  have received : Exchanged device
      (goToTransactionScreen (device.loaded (ledgerApdu 0 data fits))) :=
    ⟨rfl, (Logs.Extends.refl device.log).cons trivial⟩
  have zero : device.p1 (ledgerApdu 0 data fits) = 0 := first
  have opened : Feeds sdk .startIn target left
      (goToTransactionScreen (device.loaded (ledgerApdu 0 data fits))).pressed ∧
        (goToTransactionScreen (device.loaded (ledgerApdu 0 data fits))).pressed.atHand =
          data.length := by
    unfold Device.pressed startSession
    rw [if_neg (by rw [record_signTxnContext]; exact none)]
    refine ⟨⟨⟨tracks_start rfl rfl rfl, rfl, rfl, rfl⟩, loaded_loaded device _, rfl, ?_⟩, ?_⟩
    · show Leads .startIn (Cells.read _ 0 0)
        ((device.loaded (ledgerApdu 0 data fits)).signTxnContext.pending
          (device.loaded (ledgerApdu 0 data fits)).apduBuffer) target left
      rw [Cells.read_zero, pending]
      exact leads
    · show (Cells.read _ 0 0 ++ (device.loaded (ledgerApdu 0 data fits)).signTxnContext.pending
        (device.loaded (ledgerApdu 0 data fits)).apduBuffer).length = data.length
      rw [Cells.read_zero, pending]
      rfl
  obtain ⟨after, answered, waits, exchanged⟩ := awaitReply_feeds turns
    (goToTransactionScreen (device.loaded (ledgerApdu 0 data fits))) .startIn opened.1 ends rfl rfl
    (by rw [opened.2]; exact fuel)
  rw [sendToLedger, step_signs sdk asked, if_neg none, if_pos zero]
  exact ⟨after, answered, waits, received.trans exchanged⟩

end Exchange

/-! ### All chunks -/

/-- A transaction the script sends, as the device will have read it. -/
structure Sends (txn : Bytes) : Prop where
  declares : Declares txn
  complete : (parseWhole txn).state.Complete
  rest : (parseWhole txn).rest = []

section Chunks

variable {before chunk after txn : Bytes}

theorem Progress.not_short_of_long {progress : Progress} {staged pending : Nat}
    (long : 37 ≤ pending) : ¬ progress.Short staged pending := by
  cases progress <;> simp only [Progress.Short, Progress.elementSize] <;> omega

/-- The bytes of a short chunk do not reach the end of the element, except those of an output
count that the staged bytes complete. -/
theorem Progress.short_cases {progress : Progress} {staged pending : Nat}
    (short : progress.Short staged pending) :
    staged + pending < progress.elementSize ∨ progress.state = .startOut ∧ pending < 4 := by
  cases progress with
  | startOut => exact Or.inr ⟨rfl, short⟩
  | startIn => exact Or.inl short
  | txnIn => exact Or.inl short
  | txnOut => exact Or.inl short

theorem Progress.eq_startOut {progress : Progress} (state : progress.state = .startOut) :
    ∃ inNum inputs, progress = .startOut inNum inputs := by
  cases progress with
  | startOut inNum inputs => exact ⟨inNum, inputs, rfl⟩
  | startIn => cases state
  | txnIn => cases state
  | txnOut => cases state

/-- The last chunk is not short: outputs follow their count. -/
theorem not_short_of_ends (sends : Sends (before ++ chunk)) (some : chunk ≠ []) :
    ¬ (parseWhole before).state.Short (parseWhole before).rest.length chunk.length := by
  intro short
  have whole := parseWhole_append before chunk
  have sound := sound_chunk sends.declares (List.prefix_refl (before ++ chunk))
  have rest := sends.rest
  have complete := sends.complete
  rw [whole] at rest complete
  by_cases total : (parseWhole before).rest.length + chunk.length <
      (parseWhole before).state.elementSize
  · rw [Progress.consume_short (by rw [List.length_append]; exact total)] at rest
    exact some (List.append_eq_nil_iff.mp rest).2
  obtain ⟨state, few⟩ := (Progress.short_cases short).resolve_left total
  have incomplete : ¬ (parseWhole before).state.Complete := by
    intro done
    rw [Progress.consume_complete done] at rest
    exact some (List.append_eq_nil_iff.mp rest).2
  have staged := rest_parseWhole_lt incomplete
  obtain ⟨inNum, inputs, reading⟩ := Progress.eq_startOut state
  rw [reading] at total incomplete staged sound complete
  have size : (Progress.startOut inNum inputs).elementSize = 4 := rfl
  rw [size] at total staged
  set items := (parseWhole before).rest ++ chunk
  have long : items.length = (parseWhole before).rest.length + chunk.length := List.length_append
  have length : (items.take 4).length = (Progress.startOut inNum inputs).elementSize := by
    rw [List.length_take, size]
    omega
  rw [← List.take_append_drop 4 items] at sound complete
  have next := (sound.next incomplete length).fair
  -- Behind the count there are too few bytes for an output, and one is declared at least.
  have few : (items.drop 4).length <
      ((Progress.startOut inNum inputs).next (items.take 4)).elementSize := by
    show _ < 37
    rw [List.length_drop]
    omega
  rw [Progress.consume_element incomplete length, Progress.consume_short few] at complete
  have none : 0 = u4LE (items.take 4) 0 := complete
  have declared : 1 ≤ u4LE (items.take 4) 0 := next.1
  omega

/-- A chunk of 254 bytes or the last one is read on from where the bytes before it end. -/
theorem Sends.leads (sends : Sends (before ++ chunk ++ after))
    (size : chunk.length = 254 ∨ after = []) (some : chunk ≠ []) :
    Leads (parseWhole before).state (parseWhole before).rest chunk
        (parseWhole (before ++ chunk)).state (parseWhole (before ++ chunk)).rest ∧
      ((parseWhole (before ++ chunk)).state.Complete →
        (parseWhole (before ++ chunk)).rest = []) := by
  have sound := sound_chunk sends.declares (List.prefix_append (before ++ chunk) after)
  have incomplete : ¬ (parseWhole before).state.Complete := by
    intro complete
    have rest := rest_parseWhole_complete complete (chunk ++ after)
    rw [← List.append_assoc, sends.rest] at rest
    exact some (List.append_eq_nil_iff.mp (List.append_eq_nil_iff.mp rest.symm).2).1
  have whole := parseWhole_append before chunk
  refine ⟨⟨sound, incomplete, ?_, by rw [whole], by rw [whole]⟩, ?_⟩
  · rcases size with long | rfl
    · exact Or.inr (Progress.not_short_of_long (by omega))
    · by_cases empty : (parseWhole before).rest = []
      · exact Or.inl empty
      · rw [List.append_nil] at sends
        exact Or.inr (not_short_of_ends sends some)
  · intro complete
    have rest := rest_parseWhole_complete complete after
    rw [sends.rest] at rest
    exact (List.append_eq_nil_iff.mp rest.symm).1

end Chunks

section Loop

variable {sdk : Sdk} {txn : Bytes} {device : Device}

/-- What the chunks before the `i`-th leave of the parser. -/
def Device.SentTo (sdk : Sdk) (txn : Bytes) (i : Nat) (device : Device) : Prop :=
  Waits sdk (parseWhole (txn.take (254 * i))).state (parseWhole (txn.take (254 * i))).rest device

theorem take_chunkOf (txn : Bytes) (i : Nat) :
    txn.take (254 * i) ++ chunkOf txn i = txn.take (254 * (i + 1)) := by
  rw [chunkOf, Nat.mul_succ, List.take_add]

/-- Every chunk of the script is read on from where the one before it ends. -/
theorem Sends.chunk (sends : Sends txn) {i : Nat} (more : 254 * i < txn.length) :
    Leads (parseWhole (txn.take (254 * i))).state (parseWhole (txn.take (254 * i))).rest
        (chunkOf txn i) (parseWhole (txn.take (254 * (i + 1)))).state
        (parseWhole (txn.take (254 * (i + 1)))).rest ∧
      ((parseWhole (txn.take (254 * (i + 1)))).state.Complete →
        (parseWhole (txn.take (254 * (i + 1)))).rest = []) := by
  have length : (chunkOf txn i).length = min 254 (txn.length - 254 * i) := by
    rw [chunkOf, List.length_take, List.length_drop]
  have some : chunkOf txn i ≠ [] := by
    intro none
    rw [none, List.length_nil] at length
    omega
  have whole : txn.take (254 * i) ++ chunkOf txn i ++ txn.drop (254 * (i + 1)) = txn := by
    rw [take_chunkOf, List.take_append_drop]
  rw [← whole] at sends
  rw [← take_chunkOf]
  refine sends.leads ?_ some
  by_cases full : 254 * (i + 1) ≤ txn.length
  · exact Or.inl (by omega)
  · exact Or.inr (List.drop_eq_nil_of_le (by omega))

/-- The bytes staged before a chunk are fewer than an element. -/
theorem Sends.staged_le (sends : Sends txn) {i : Nat} (more : 254 * i < txn.length) :
    (parseWhole (txn.take (254 * i))).rest.length ≤ 37 := by
  have staged := rest_parseWhole_lt (sends.chunk more).1.incomplete
  exact le_trans (le_of_lt staged) (Progress.elementSize_le _)

/-- The loop over the chunks behind the first one. The induction is on the number of turns, enough
for the bytes that are left. -/
theorem sendChunks_reads (sends : Sends txn) {fuel : Nat} (enough : 300 ≤ fuel) (turns : Nat)
    {i : Nat} (sent : device.SentTo sdk txn i) (few : txn.length ≤ 254 * i + 254 * turns) :
    ∃ after, sendChunks sdk fuel txn (turns + 1) i 1 [] device = .ok (1, [], after) ∧
      Waits sdk (parseWhole txn).state [] after ∧ Exchanged device after := by
  induction turns generalizing i device with
  | zero =>
    rw [Device.SentTo, List.take_of_length_le (by omega), sends.rest] at sent
    rw [sendChunks, if_neg (by omega)]
    exact ⟨device, rfl, sent, Exchanged.refl device⟩
  | succ turns inductionHypothesis =>
    rw [sendChunks]
    by_cases more : 254 * i < txn.length
    · obtain ⟨leads, ends⟩ := sends.chunk more
      have short := length_chunkOf txn i
      have staged := sends.staged_le more
      obtain ⟨next, answered, waits, exchanged⟩ := send_next sent short leads ends fuel
        (by rw [List.length_append]; omega)
      obtain ⟨after, went, ready, later⟩ := inductionHypothesis waits (by omega)
      rw [if_pos more, answered]
      exact ⟨after, went, ready, exchanged.trans later⟩
    · rw [Device.SentTo, List.take_of_length_le (by omega), sends.rest] at sent
      rw [if_neg more]
      exact ⟨device, rfl, sent, Exchanged.refl device⟩

/-- All chunks are sent and read. -/
theorem sendChunks_sends (sends : Sends txn) (closed : device.signTxnContext.initialized = false)
    {fuel : Nat} (enough : txn.length + 300 ≤ fuel) :
    ∃ after, sendChunks sdk fuel txn fuel 0 0 [] device = .ok (1, [], after) ∧
      Waits sdk (parseWhole txn).state [] after ∧ Exchanged device after := by
  have some : 0 < txn.length := by
    by_contra none
    have complete := sends.complete
    rw [List.eq_nil_of_length_eq_zero (Nat.eq_zero_of_not_pos none), parseWhole_nil] at complete
    exact complete
  obtain ⟨leads, ends⟩ := sends.chunk (i := 0) some
  rw [Nat.mul_zero, List.take_zero, parseWhole_nil] at leads
  have short := length_chunkOf txn 0
  obtain ⟨turns, rfl⟩ : ∃ turns, fuel = turns + 1 + 1 := ⟨fuel - 2, by omega⟩
  obtain ⟨next, answered, waits, exchanged⟩ := send_first closed short leads ends
    (turns + 1 + 1) (by omega)
  have many : 300 ≤ turns + 1 + 1 := by omega
  obtain ⟨after, went, ready, later⟩ := sendChunks_reads sends many turns waits (by omega)
  rw [sendChunks, if_pos (by omega), answered]
  exact ⟨after, went, ready, exchanged.trans later⟩

end Loop

end LedgerNano
