/-
This file is about the instructions that answer at once, and what precedes their answers
in the transport buffer.

Such an answer begins at `tx`. A command leaves `tx` at zero (`command_tx`), but a press
on the transaction screen runs after that, and one that gives the host its inner hash or
signatures advances `tx` behind the back of the loop (`press_tx_iff`). So an answer is
exactly its payload if and only if no press since the last command gave anything
(`query_framed_iff`).
-/

import LedgerNano.Session

namespace LedgerNano

/-- The input is no command. -/
def Input.Waits (input : Input) : Prop :=
  ∀ apdu, input ≠ .apdu apdu

/-! ### What advances `tx` -/

/-- A call of the parser has something to give to the host: the inner hash once all outputs are
read, the signatures after that. An exception of the SDK passes for the parser's own code. -/
def Device.Gives (sdk : Sdk) (device : Device) : Prop :=
  match device.signTxnContext.txnState with
  | .retSigs => True
  | .computeSigs =>
    match device.signing sdk with
    | .ok _ => True
    | .error code => code = txnReady
  | _ => device.reading = some txnReady

section Advance

variable {sdk : Sdk} {device called after : Device} {code : Nat}

theorem command_tx {apdu : Apdu} (stepped : step sdk device (.apdu apdu) = .ok after) :
    after.tx = 0 := by
  rw [step, skyMainTurn] at stepped
  cases went : dispatch sdk apdu.bytes.length (device.receive apdu) with
  | error fault =>
    simp only [went] at stepped
    cases stepped
  | ok result =>
    obtain ⟨thrown, ready⟩ := result
    simp only [went] at stepped
    cases thrown with
    | none =>
      cases stepped
      rfl
    | some exception =>
      obtain ⟨result, _⟩ := sendStatus_ok stepped
      rw [result]
      rfl

theorem afterBatch_tx (ended : device.afterBatch = (some code, after)) : after.tx = device.tx := by
  rcases Device.afterBatch_cases ended with ⟨_, _, rfl⟩ | ⟨_, _, rfl⟩
  · rfl
  · rfl

/-- Signatures that are owed take room in the reply. -/
theorem returned_tx_pos
    (owed : device.signTxnContext.currObj < device.signTxnContext.txn.inNum) :
    0 < (device.returned device.batch).tx := by
  show 0 < device.tx + 65 * min (device.signTxnContext.txn.inNum - device.signTxnContext.currObj)
    ((255 - device.tx) / 65)
  omega

/-- A call leaves `tx` at zero and does not end with `TXN_READY` exactly when it found `tx` at zero
and has nothing to give. -/
theorem Resumed.tx_iff (resumes : Resumed sdk (progressOf device.log) device code called) :
    (called.tx = 0 ∧ code ≠ txnReady) ↔ device.tx = 0 ∧ ¬ device.Gives sdk := by
  cases resumes with
  | read call ctx tracks calls reads thrown result =>
    subst thrown result
    have gives : device.Gives sdk ↔ call.code = txnReady := by
      unfold Device.Gives Device.reading
      rw [tracks.state, calls]
      cases progressOf device.log <;> exact Option.some_inj
    rw [gives]
    exact Iff.rfl
  | computed signs state computes =>
    cases computes with
    | raised path table counter derived signed result =>
      subst result
      have raised : device.signing sdk = .error code := signed.raised code rfl
      have gives : device.Gives sdk ↔ code = txnReady := by
        rw [Device.Gives, state]
        simp only [raised]
      rw [gives]
      exact Iff.rfl
    | finished signatures derived signed each derivations result returned =>
      have owed : signed.signTxnContext.currObj < signed.signTxnContext.txn.inNum := by
        rw [result]
        exact signs.positive
      have positive := returned_tx_pos owed
      rw [← afterBatch_tx returned] at positive
      have all : device.signing sdk = .ok signatures := each
      have gives : device.Gives sdk := by
        rw [Device.Gives, state]
        simp only [all]
      exact iff_of_false (fun both => absurd both.1 (Nat.ne_of_gt positive))
        fun both => both.2 gives
  | returned signs state returns =>
    have gives : device.Gives sdk := by
      rw [Device.Gives, state]
      trivial
    have positive := returned_tx_pos (signs.owed state)
    rw [← afterBatch_tx returns] at positive
    exact iff_of_false (fun both => absurd both.1 (Nat.ne_of_gt positive))
      fun both => both.2 gives

/-- After the parser a press advances `tx` where it answers with the inner hash. -/
theorem PressResult.tx_iff (goes : PressResult sdk called code after) :
    after.tx = 0 ↔ called.tx = 0 ∧ code ≠ txnReady := by
  cases goes with
  | more thrown fits result =>
    subst result thrown
    exact (and_iff_left (by decide)).symm
  | approve thrown result =>
    subst result thrown
    rw [prepareOutputApproval_tx]
    exact (and_iff_left (by decide)).symm
  | last thrown fits result =>
    subst result thrown
    rw [replyOk_tx, prepareOutputApproval_tx]
    exact (and_iff_left (by decide)).symm
  | ready thrown fits result =>
    subst result thrown
    exact iff_of_false (Nat.succ_ne_zero _) fun both => both.2 rfl
  | failed thrown result =>
    subst result thrown
    exact (and_iff_left (by decide)).symm
  | silent other result =>
    subst result
    exact (and_iff_left other.2.2.2.1).symm

/-- An input other than a command leaves `tx` at zero exactly when it found it there and gives
nothing to the host. -/
theorem press_tx_iff {input : Input} (invariant : SessionInvariant sdk device)
    (stepped : step sdk device input = .ok after) (waits : input.Waits) :
    after.tx = 0 ↔ device.tx = 0 ∧ ∀ called ∈ device.resumedBy input, ¬ called.Gives sdk := by
  have idle : device.resumedBy input = none → after.tx = device.tx →
      (after.tx = 0 ↔ device.tx = 0 ∧ ∀ called ∈ device.resumedBy input, ¬ called.Gives sdk) := by
    intro none same
    rw [none, same]
    exact (and_iff_left fun _ member => absurd member (Option.not_mem_none _)).symm
  cases step_stepped invariant stepped with
  | answered apdu command => exact absurd command (waits apdu)
  | opened apdu command => exact absurd command (waits apdu)
  | refused apdu command => exact absurd command (waits apdu)
  | waits apdu command => exact absurd command (waits apdu)
  | resumed apdu command => exact absurd command (waits apdu)
  | cancelled press screen result =>
    subst press result
    exact idle rfl rfl
  | pressed button press right screen code called resumes goes =>
    subst press
    have resumed : device.resumedBy (.button button) = some device.pressed :=
      if_pos ⟨right, screen⟩
    rw [goes.tx_iff, resumes.tx_iff, pressed_tx, resumed]
    simp only [Option.mem_some_iff, forall_eq']
  | shows screen elsewhere other result =>
    subst result
    refine idle ?_ rfl
    rcases elsewhere with rfl | ⟨button, rfl, elsewhere⟩
    · rfl
    · exact if_neg fun both => elsewhere both.2

end Advance

/-! ### Exactly framed answers -/

/-- The command gets an answer, which is its payload and the two bytes of its status, built
inside the transport buffer. -/
def ExactlyFramed (sdk : Sdk) (device : Device) (apdu : Apdu) : Prop :=
  (answerOf (device.outcome sdk apdu)).2.length + 2 ≤ apduBufferLen ∧
  ∃ (after : Device) (derived : List (List Nat)), step sdk device (.apdu apdu) = .ok after ∧
    after.log = .reply ((answerOf (device.outcome sdk apdu)).2 ++
        statusBytes (exceptionStatus (answerOf (device.outcome sdk apdu)).1)) ::
      (derived.map Event.derive ++ .command apdu.bytes :: device.log)

section Framing

variable {sdk : Sdk} {device : Device}

/-- No payload is longer than a public key. -/
theorem length_payload_le (instruction : Instruction) {payload : Bytes}
    (paid : device.payload sdk instruction = .ok payload) : payload.length ≤ pkLen := by
  cases instruction with
  | getVersion =>
    cases paid
    decide
  | signTransaction =>
    cases paid
    decide
  | getPublicKey =>
    simp only [Device.payload] at paid
    cases keys : device.requestedKeys sdk with
    | error code =>
      rw [keys] at paid
      cases paid
    | ok pair =>
      rw [keys] at paid
      cases paid
      exact le_of_eq pair.2.length_contents
  | getSignedPublicKey =>
    simp only [Device.payload] at paid
    cases keys : device.requestedKeys sdk with
    | error code =>
      rw [keys] at paid
      cases paid
    | ok pair =>
      rw [keys] at paid
      simp only [bind, Except.bind] at paid
      cases signed : sign sdk pair.1 (sdk.sha256 pair.2.contents).contents with
      | error code =>
        rw [signed] at paid
        cases paid
      | ok signature =>
        rw [signed] at paid
        cases paid
        exact le_of_eq signature.length_contents
  | getAddress =>
    simp only [Device.payload] at paid
    cases keys : device.requestedKeys sdk with
    | error code =>
      rw [keys] at paid
      cases paid
    | ok pair =>
      rw [keys] at paid
      cases paid
      exact le_trans (length_toAddress_le sdk _) (by decide)

theorem length_answer_le (apdu : Apdu) :
    (answerOf (device.outcome sdk apdu)).2.length ≤ pkLen := by
  cases outcome : device.outcome sdk apdu with
  | error code => exact Nat.zero_le _
  | ok payload =>
    unfold Device.outcome at outcome
    split at outcome
    · cases outcome
    split at outcome
    · cases outcome
    split at outcome
    · cases outcome
    · exact length_payload_le _ outcome

/-- An answer is exactly framed if and only if its handler starts with `tx` at zero. -/
theorem exactlyFramed_iff {apdu : Apdu} (query : ¬ device.AsksToSign apdu) :
    ExactlyFramed sdk device apdu ↔ device.tx = 0 := by
  have length : (answerOf (device.outcome sdk apdu)).2.length ≤ 65 := length_answer_le apdu
  obtain ⟨context, derived, went, _⟩ := step_answers sdk query
  set payload := (answerOf (device.outcome sdk apdu)).2 with payloadIs
  set ready := ((device.receive apdu).used context derived).answer payload with readyIs
  have tx : ready.tx = device.tx + payload.length := rfl
  have log : ready.log = derived.map Event.derive ++ .command apdu.bytes :: device.log := rfl
  have written := (device.receive apdu).apduBuffer.read_write_prefix 0 payload (by omega)
  rw [Nat.zero_add, Cells.read_zero, List.nil_append] at written
  constructor
  · rintro ⟨_, after, others, stepped, framed⟩
    obtain ⟨rfl, fits⟩ := sendStatus_ok (went.symm.trans stepped)
    rw [resetTx_log, reply_log] at framed
    have same := congrArg List.length (Event.reply.inj (List.cons.inj framed).1)
    rw [List.length_append, List.length_append, ← payloadIs,
      Cells.length_read _ _ _ (by rw [Nat.zero_add]; exact le_trans (Nat.le_add_right _ 2) fits),
      tx] at same
    omega
  · intro zero
    refine ⟨le_trans (Nat.add_le_add_right length 2) (by decide), (ready.reply
      (exceptionStatus (answerOf (device.outcome sdk apdu)).1) ready.tx).resetTx, derived, ?_, ?_⟩
    · rw [went, sendStatus, ioExchangeWithCode_eq, if_pos]
      · rfl
      · show ready.tx + 2 ≤ 260
        omega
    · rw [resetTx_log, reply_log, log, tx, zero, Nat.zero_add, readyIs]
      exact congrArg (fun bytes => Event.reply (bytes ++ _) :: _) written

/-- The commands before the presses leave `tx` at zero. -/
theorem commands_tx {commands : List Input} (ran : run sdk Device.boot commands = .ok device)
    (newest : ∀ input ∈ commands.getLast?, ∃ apdu, input = .apdu apdu) : device.tx = 0 := by
  rcases List.eq_nil_or_concat' commands with rfl | ⟨earlier, last, rfl⟩
  · cases ran
    rfl
  · obtain ⟨apdu, rfl⟩ := newest last (by rw [List.getLast?_append]; rfl)
    obtain ⟨before, _, final⟩ := Runs.run_append_split ran
    obtain ⟨after, stepped, same⟩ := Runs.run_cons_split final
    cases same
    exact command_tx stepped

/-- In every run, a command that is no signing one is answered with exactly its payload and status
if and only if no press since the last command before it gave the host anything. -/
theorem query_framed_iff {commands presses : List Input} {start : Device}
    (ran : run sdk Device.boot commands = .ok start)
    (newest : ∀ input ∈ commands.getLast?, ∃ apdu, input = .apdu apdu)
    (went : run sdk start presses = .ok device)
    (waits : ∀ input ∈ presses, input.Waits) {apdu : Apdu}
    (query : ¬ device.AsksToSign apdu) :
    ExactlyFramed sdk device apdu ↔ Runs.Along (step sdk) (fun device input =>
      ∀ called ∈ device.resumedBy input, ¬ called.Gives sdk) start presses := by
  have along := Runs.run_holds_iff (motive := SessionInvariant sdk)
    (fun _ _ _ invariant _ stepped => step_session invariant stepped)
    (fun _ _ _ invariant waits stepped => press_tx_iff invariant stepped waits)
    (run_session ran) (Runs.along_of_forall waits start) went
  rw [exactlyFramed_iff query, along]
  exact and_iff_right (commands_tx ran newest)

end Framing

/-- `GET_VERSION`. -/
def versionApdu : Apdu where
  bytes := [0x80, 0x01, 0, 0, 0]
  fits := by decide

/-- A transaction that is cancelled at once, and the question for the version. -/
theorem query_framed_iff_sample : ∃ start device : Device,
    run Sdk.plain Device.boot (sampleSession.take 1) = .ok start ∧
      run Sdk.plain start [.button .left] = .ok device ∧
        ExactlyFramed Sdk.plain device versionApdu := by
  have opens : Runs.Ends (fun start : Device => Runs.Ends
      (fun device : Device => ¬ device.AsksToSign versionApdu)
      (run Sdk.plain start [.button .left]))
      (run Sdk.plain Device.boot (sampleSession.take 1)) := by decide +kernel
  obtain ⟨start, ran, left⟩ := Runs.exists_of_ends opens
  obtain ⟨device, went, query⟩ := Runs.exists_of_ends left
  refine ⟨start, device, ran, went, (query_framed_iff ran ?_ went ?_ query).mpr ?_⟩
  · intro input member
    cases member
    exact ⟨_, rfl⟩
  · intro input member apdu same
    cases List.mem_singleton.mp member
    cases same
  · refine Runs.along_cons.mpr ⟨fun called member => ?_, fun _ _ => trivial⟩
    rw [Device.resumedBy, if_neg fun both => both.1 rfl] at member
    exact absurd member (Option.not_mem_none _)

/-- After the inner hash was returned, the version comes with most of the inner hash behind it. -/
theorem query_can_be_misframed : ¬ ∀ (sdk : Sdk) (inputs : List Input) (device : Device)
    (apdu : Apdu), run sdk Device.boot inputs = .ok device → ¬ device.AsksToSign apdu →
      ExactlyFramed sdk device apdu := by
  have ends : Runs.Ends (fun device : Device =>
      device.tx ≠ 0 ∧ ¬ device.AsksToSign versionApdu)
      (run Sdk.plain Device.boot (sampleSession.take 3)) := by decide +kernel
  obtain ⟨device, ran, advanced, query⟩ := Runs.exists_of_ends ends
  intro all
  exact advanced ((exactlyFramed_iff query).mp (all Sdk.plain _ device versionApdu ran query))

end LedgerNano
