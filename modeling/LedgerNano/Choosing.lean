/-
This file is about the user in front of the device while `send_txn` runs.

The script waits for every reply, and the device lets it wait for presses. In `Host.lean` the user
of the script presses the right button whenever the transaction screen is shown; here he presses
what he likes. Where the script of the user who agrees ends, the script of any other user takes a
definite number of presses, and ends in the same way if none of them is a left one
(`sendTxn_takes`). This number is a matter of the transaction and the device, and it is larger than
the number of outputs; what the presses are decides whether the script gets anything at all
(`script_signs_iff_approved`).
-/

import LedgerNano.Consent
import LedgerNano.RawTransaction
import LedgerNano.Library.Choices

namespace LedgerNano

open Choices

/-! ### The script with any user -/

/-- `dongle.exchange` waits for the reply. Meanwhile the user presses buttons, one after the
other. -/
def awaitReplyBy (sdk : Sdk) (device : Device) (presses : List Button) :
    Except Mishap ((Bytes × Device) × List Button) :=
  match answerTo device.log with
  | some reply => (fun response => ((response, device), presses)) <$> responseOf reply
  | none =>
    match presses with
    | [] => .error .silent
    | button :: rest =>
      match step sdk device (.button button) with
      | .error fault => .error (.fault fault)
      | .ok device => awaitReplyBy sdk device rest

/-- `send_to_ledger` with `ins=0x10`. -/
def sendToLedgerBy (sdk : Sdk) (p1 : Byte) (data : Bytes) (fits : data.length ≤ 254)
    (device : Device) : Taking Button Mishap (Bytes × Device) := fun presses =>
  match step sdk device (.apdu (ledgerApdu p1 data fits)) with
  | .error fault => .error (.fault fault)
  | .ok device => awaitReplyBy sdk device presses

/-- The first loop of `send_txn`. -/
def sendChunksBy (sdk : Sdk) (txn : Bytes) :
    Nat → Nat → Byte → Bytes → Device → Taking Button Mishap (Byte × Bytes × Device)
  | 0, _, _, _, _ => throw .endless
  | turns + 1, i, p1, ret, device =>
    if 254 * i < txn.length then do
      let (ret, device) ← sendToLedgerBy sdk p1 (chunkOf txn i) (length_chunkOf txn i) device
      sendChunksBy sdk txn turns (i + 1) 1 ret device
    else
      pure (p1, ret, device)

/-- The commands of the second loop have no data. -/
theorem no_data_fits : ([] : Bytes).length ≤ 254 := Nat.zero_le _

/-- The second loop of `send_txn`. -/
def fetchRestBy (sdk : Sdk) (wanted : Nat) (p1 : Byte) :
    Nat → Bytes → Device → Taking Button Mishap (Bytes × Device)
  | 0, _, _ => throw .endless
  | turns + 1, ret, device =>
    if ret.length < wanted then do
      let (more, device) ← sendToLedgerBy sdk p1 [] no_data_fits device
      fetchRestBy sdk wanted p1 turns (ret ++ more) device
    else
      pure (ret, device)

/-- `send_txn`. -/
def sendTxnBy (sdk : Sdk) (fuel : Nat) (txn : Bytes) (device : Device) :
    Taking Button Mishap ((Bytes × List Bytes) × Device) := do
  let (p1, ret, device) ← sendChunksBy sdk txn fuel 0 0 [] device
  let (ret, device) ← fetchRestBy sdk (32 + u4LE txn 0 * 65) p1 fuel ret device
  pure ((ret.take 32, splitSigs (ret.drop 32)), device)

/-- The script takes as many presses, none of them on the left button: that one ends it with the
error status, and without presses it waits on. -/
def TakesPresses {Result : Type} (count : Nat) (result : Result)
    (taking : Taking Button Mishap Result) : Prop :=
  Takes (· ≠ Button.left) (.refused (statusBytes 0x6B0)) .silent count result taking

/-! ### Presses and outputs -/

/-- A device whose session, if there is one, was paid for with so many presses. -/
structure Billed (sdk : Sdk) (presses : Nat) (device : Device) : Prop where
  session : SessionInvariant sdk device
  paid : device.signTxnContext.initialized = true → Paid device.signTxnContext device.log
  billed : device.signTxnContext.initialized = true → pressesOf device.log ≤ presses

theorem pressesOf_ignores_passive : Logs.Ignores Event.Passive pressesOf :=
  fun _ past passive => (passive.ignored past).1

section Bills

variable {sdk : Sdk} {device after : Device} {presses : Nat}

/-- A command neither opens a session nor presses anything. -/
theorem Stepped.command_presses {apdu : Apdu} (stepped : Stepped sdk device (.apdu apdu) after)
    (session : after.signTxnContext.initialized = true) :
    device.signTxnContext.initialized = true ∧ pressesOf after.log = pressesOf device.log := by
  have received : ∀ bytes : Bytes,
      Logs.Extends Event.Passive device.log (.command bytes :: device.log) :=
    fun _ => (Logs.Extends.refl device.log).cons trivial
  cases stepped with
  | answered apdu command other context derived ready use payload fits result =>
    subst result payload
    exact ⟨session, pressesOf_ignores_passive.of_extends
      (((received apdu.bytes).map Event.derive (fun _ => trivial) derived).cons trivial)⟩
  | opened apdu command asked closed first result =>
    subst result
    exact absurd (closed.symm.trans session) Bool.false_ne_true
  | refused apdu command asked wrong result =>
    subst result
    cases session
  | waits apdu command asked opened later state result =>
    subst result
    exact ⟨opened, rfl⟩
  | resumed apdu command asked opened later state code called answered resumes goes result =>
    subst result
    refine ⟨opened, ?_⟩
    rw [resetTx_log, pressesOf_ignores_passive.of_extends (passive_of_handler goes.extends),
      resumes.pressesOf]
    rfl
  | cancelled press => cases press
  | pressed button press => cases press
  | shows screen elsewhere other result =>
    subst result
    exact ⟨session, rfl⟩

/-- A right press is one press more, or the first of a session. -/
theorem Stepped.press_presses (stepped : Stepped sdk device (.button .right) after)
    (billed : device.signTxnContext.initialized = true → pressesOf device.log ≤ presses)
    (session : after.signTxnContext.initialized = true) : pressesOf after.log ≤ presses + 1 := by
  cases stepped with
  | answered apdu command => cases command
  | opened apdu command => cases command
  | refused apdu command => cases command
  | waits apdu command => cases command
  | resumed apdu command => cases command
  | cancelled press => cases press
  | pressed button press right screen code called resumes goes =>
    rw [pressesOf_ignores_passive.of_extends (passive_of_handler goes.extends),
      resumes.pressesOf]
    by_cases opened : device.signTxnContext.initialized = true
    · rw [pressed_going opened]
      exact Nat.succ_le_succ (billed opened)
    · unfold Device.pressed startSession
      rw [record_signTxnContext, if_neg opened]
      exact Nat.le_add_left 1 presses
  | shows screen elsewhere other result =>
    subst result
    exact (billed session).trans (Nat.le_succ presses)

theorem Billed.command {apdu : Apdu} (billed : Billed sdk presses device)
    (went : step sdk device (.apdu apdu) = .ok after) : Billed sdk presses after := by
  have stepped := step_stepped billed.session went
  refine ⟨step_session billed.session went, (keeps_paid sdk).step billed.paid stepped, ?_⟩
  intro session
  obtain ⟨opened, same⟩ := stepped.command_presses session
  rw [same]
  exact billed.billed opened

theorem Billed.press (billed : Billed sdk presses device)
    (went : step sdk device (.button .right) = .ok after) : Billed sdk (presses + 1) after := by
  have stepped := step_stepped billed.session went
  exact ⟨step_session billed.session went, (keeps_paid sdk).step billed.paid stepped,
    stepped.press_presses billed.billed⟩

end Bills

/-! ### The presses the script takes -/

section Taken

variable {sdk : Sdk} {device next after : Device} {response : Bytes}

theorem awaitReplyBy_answered {reply : Bytes} (answered : answerTo device.log = some reply)
    (presses : List Button) : awaitReplyBy sdk device presses =
      (fun response => ((response, device), presses)) <$> responseOf reply := by
  unfold awaitReplyBy
  rw [answered]

theorem awaitReplyBy_none (waiting : answerTo device.log = none) :
    awaitReplyBy sdk device [] = .error .silent := by
  unfold awaitReplyBy
  rw [waiting]

theorem awaitReplyBy_cons (waiting : answerTo device.log = none) {button : Button}
    (went : step sdk device (.button button) = .ok next) (rest : List Button) :
    awaitReplyBy sdk device (button :: rest) = awaitReplyBy sdk next rest := by
  rw [awaitReplyBy, waiting]
  simp only [went]

/-- A left press is answered with the error status, which the dongle raises. -/
theorem awaitReplyBy_left (waiting : answerTo device.log = none)
    (screen : device.screen = .transaction) (rest : List Button) :
    awaitReplyBy sdk device (.left :: rest) = .error (.refused (statusBytes 0x6B0)) := by
  have answered : answerTo (uiIdle (device.record .leftPress).replyError).log =
      some (statusBytes 0x6B0) := rfl
  rw [awaitReplyBy_cons waiting (step_leftPress sdk screen), awaitReplyBy_answered answered]
  rfl

/-- Where the user who agrees gets a response, there is a number of presses that gets it. -/
theorem awaitReply_takes (turns : Nat)
    (went : awaitReply sdk turns device = .ok (response, after)) :
    ∃ count, TakesPresses count (response, after) (awaitReplyBy sdk device) ∧
      ∀ presses, Billed sdk presses device → Billed sdk (presses + count) after := by
  induction turns generalizing device with
  | zero => cases went
  | succ turns inductionHypothesis =>
    rw [awaitReply] at went
    cases answered : answerTo device.log with
    | some reply =>
      rw [answered] at went
      simp only at went
      cases given : responseOf reply with
      | error mishap =>
        rw [given] at went
        cases went
      | ok answer =>
        rw [given] at went
        cases went
        refine ⟨0, takes_none fun choices => ?_, fun _ billed => billed⟩
        rw [awaitReplyBy_answered answered, given]
        rfl
    | none =>
      rw [answered] at went
      simp only at went
      by_cases screen : device.screen = .transaction
      · cases stepped : step sdk device (.button .right) with
        | error fault =>
          rw [if_pos screen, stepped] at went
          cases went
        | ok next =>
          rw [if_pos screen, stepped] at went
          obtain ⟨count, takes, bills⟩ := inductionHypothesis went
          refine ⟨count + 1, takes.next (awaitReplyBy_none answered) ?_ ?_, ?_⟩
          · intro button rest right
            refine awaitReplyBy_cons answered ?_ rest
            rw [step_rightPress sdk screen right, ← stepped,
              step_rightPress sdk screen (by decide)]
          · intro button rest left
            rw [Decidable.not_not.mp left]
            exact awaitReplyBy_left answered screen rest
          · intro presses billed
            have later := bills _ (billed.press stepped)
            rwa [Nat.add_assoc, Nat.add_comm 1] at later
      · rw [if_neg screen] at went
        cases went

theorem sendToLedgerBy_eq {p1 : Byte} {data : Bytes} {fits : data.length ≤ 254}
    (stepped : step sdk device (.apdu (ledgerApdu p1 data fits)) = .ok next) :
    sendToLedgerBy sdk p1 data fits device = awaitReplyBy sdk next := by
  funext presses
  rw [sendToLedgerBy]
  simp only [stepped]

theorem sendToLedger_takes {turns : Nat} {p1 : Byte} {data : Bytes} {fits : data.length ≤ 254}
    (went : sendToLedger sdk turns p1 data fits device = .ok (response, after)) :
    ∃ next count, step sdk device (.apdu (ledgerApdu p1 data fits)) = .ok next ∧
      TakesPresses count (response, after) (sendToLedgerBy sdk p1 data fits device) ∧
        ∀ presses, Billed sdk presses next → Billed sdk (presses + count) after := by
  rw [sendToLedger] at went
  cases stepped : step sdk device (.apdu (ledgerApdu p1 data fits)) with
  | error fault =>
    rw [stepped] at went
    cases went
  | ok next =>
    rw [stepped] at went
    obtain ⟨count, takes, bills⟩ := awaitReply_takes turns went
    rw [sendToLedgerBy_eq stepped]
    exact ⟨next, count, rfl, takes, bills⟩

variable {fuel : Nat} {txn ret : Bytes} {p1 : Byte}

theorem sendChunks_takes (turns : Nat) {i : Nat} {first : Byte}
    (went : sendChunks sdk fuel txn turns i first ret device = .ok (p1, response, after)) :
    ∃ count, TakesPresses count (p1, response, after)
        (sendChunksBy sdk txn turns i first ret device) ∧
      ∀ presses, Billed sdk presses device → Billed sdk (presses + count) after := by
  induction turns generalizing i first ret device with
  | zero => cases went
  | succ turns inductionHypothesis =>
    rw [sendChunks] at went
    rw [sendChunksBy]
    by_cases more : 254 * i < txn.length
    · rw [if_pos more] at went ⊢
      cases sent : sendToLedger sdk fuel first (chunkOf txn i) (length_chunkOf txn i) device with
      | error mishap =>
        rw [sent] at went
        cases went
      | ok given =>
        rw [sent] at went
        obtain ⟨next, early, stepped, takes, bills⟩ := sendToLedger_takes sent
        obtain ⟨late, later, others⟩ := inductionHypothesis went
        refine ⟨early + late, takes.bind later, fun presses billed => ?_⟩
        rw [← Nat.add_assoc]
        exact others _ (bills _ (billed.command stepped))
    · rw [if_neg more] at went ⊢
      cases went
      exact ⟨0, takes_pure _, fun _ billed => billed⟩

theorem fetchRest_takes {wanted : Nat} (turns : Nat)
    (went : fetchRest sdk fuel wanted p1 turns ret device = .ok (response, after)) :
    ∃ count, TakesPresses count (response, after)
      (fetchRestBy sdk wanted p1 turns ret device) := by
  induction turns generalizing ret device with
  | zero => cases went
  | succ turns inductionHypothesis =>
    rw [fetchRest] at went
    rw [fetchRestBy]
    by_cases more : ret.length < wanted
    · rw [if_pos more] at went ⊢
      cases sent : sendToLedger sdk fuel p1 [] (Nat.zero_le _) device with
      | error mishap =>
        rw [sent] at went
        cases went
      | ok given =>
        rw [sent] at went
        obtain ⟨_, early, _, takes, _⟩ := sendToLedger_takes sent
        obtain ⟨late, later⟩ := inductionHypothesis went
        exact ⟨early + late, takes.bind later⟩
    · rw [if_neg more] at went ⊢
      cases went
      exact ⟨0, takes_pure _⟩

/-- Where the script of the user who agrees ends, that of any user takes as many presses, to the
same end. -/
theorem sendTxn_takes {result : Bytes × List Bytes}
    (went : sendTxn sdk fuel txn device = .ok (result, after)) :
    ∃ count, TakesPresses count (result, after) (sendTxnBy sdk fuel txn device) := by
  rw [sendTxn] at went
  obtain ⟨⟨p1, ret, read⟩, chunks, rest⟩ := bind_ok went
  obtain ⟨⟨response, last⟩, fetched, same⟩ := bind_ok rest
  cases same
  obtain ⟨early, takes, _⟩ := sendChunks_takes fuel chunks
  obtain ⟨late, fetches⟩ := fetchRest_takes fuel fetched
  refine ⟨early + (late + 0), ?_⟩
  rw [sendTxnBy]
  exact takes.bind (fetches.bind (takes_pure _))

end Taken

/-! ### The script and its user -/

section Script

variable {sdk : Sdk} {inputs : List HostInput} {outputs : List HostOutput} {device : Device}

/-- The loop over the chunks takes a press for each output. -/
theorem chunks_take (someInputs : 1 ≤ inputs.length) (fewInputs : inputs.length ≤ 20)
    (someOutputs : 1 ≤ outputs.length) (fewOutputs : outputs.length ≤ 255)
    (closed : device.signTxnContext.initialized = false) {fuel : Nat}
    (enough : (serializedTransaction inputs outputs).length + 300 ≤ fuel) :
    ∃ read count, outputs.length ≤ count ∧
      sendChunks sdk fuel (serializedTransaction inputs outputs) fuel 0 0 [] device =
        .ok (1, [], read) ∧
      TakesPresses count ((1 : Byte), ([] : Bytes), read)
        (sendChunksBy sdk (serializedTransaction inputs outputs) fuel 0 0 [] device) ∧
      Waits sdk (readTransaction inputs outputs) [] read ∧
      read.getPublicKeyContext.bip44Path = device.getPublicKeyContext.bip44Path := by
  have sends := sends_serialized someInputs fewInputs someOutputs fewOutputs
  obtain ⟨read, chunks, waits, exchanged⟩ := @sendChunks_sends sdk _ device sends closed fuel enough
  rw [(parseWhole_serialized someInputs fewInputs fewOutputs).1] at waits
  obtain ⟨turns, rfl⟩ : ∃ turns, fuel = turns + 1 := ⟨fuel - 1, by omega⟩
  have first : 254 * 0 < (serializedTransaction inputs outputs).length := by
    rw [serializedTransaction, List.length_append, List.length_append, List.length_append,
      length_le32]
    omega
  have went := chunks
  rw [sendChunks, if_pos first] at went
  cases sent : sendToLedger sdk (turns + 1) 0 (chunkOf (serializedTransaction inputs outputs) 0)
      (length_chunkOf _ 0) device with
  | error mishap =>
    rw [sent] at went
    cases went
  | ok given =>
    rw [sent] at went
    obtain ⟨next, early, stepped, takes, bills⟩ := sendToLedger_takes sent
    obtain ⟨late, later, others⟩ := sendChunks_takes turns went
    rw [takesFirst_of_closed sdk closed] at stepped
    cases stepped
    set shown := goToTransactionScreen (device.loaded (ledgerApdu 0 _ (length_chunkOf _ 0)))
    have none : ¬ shown.signTxnContext.initialized = true := fun session =>
      Bool.false_ne_true (closed.symm.trans session)
    have start : Billed sdk 0 shown :=
      ⟨⟨loaded_loaded device _, fun session => absurd session none⟩,
        fun session => absurd session none, fun session => absurd session none⟩
    have billed := others _ (bills _ start)
    have presses := billed.billed waits.session
    have paid := (billed.paid waits.session).1
    have length : (readTransaction inputs outputs).outputs.length = outputs.length :=
      List.length_map _
    rw [waits.log, length] at paid
    refine ⟨read, early + late, by omega, chunks, ?_, waits, exchanged.path⟩
    rw [sendChunksBy, if_pos first]
    exact takes.bind later

/-- The inner hash takes a press. -/
theorem fetch_waits {read : Device} {fuel : Nat}
    (waits : Waits sdk (readTransaction inputs outputs) [] read) :
    fetchRestBy sdk (32 + inputs.length * 65) 1 (fuel + 1) [] read [] = .error .silent := by
  obtain ⟨asked, later, _⟩ := ledgerApdu_asks read 1 [] (Nat.zero_le _)
  have second : read.p1 (ledgerApdu 1 [] (Nat.zero_le _)) = 1 := later
  have reading : read.signTxnContext.txnState = .txnOut := waits.tracks.state
  have stepped : step sdk read (.apdu (ledgerApdu 1 [] (Nat.zero_le _))) =
      .ok (goToTransactionScreen (read.loaded (ledgerApdu 1 [] (Nat.zero_le _)))) := by
    rw [step_signs sdk asked, if_pos waits.session, if_pos second, reading, if_neg (by decide)]
  have silent : sendToLedgerBy sdk 1 [] (Nat.zero_le _) read [] = .error .silent := by
    rw [sendToLedgerBy_eq stepped]
    exact awaitReplyBy_none rfl
  rw [fetchRestBy, if_pos (by rw [List.length_nil]; omega)]
  exact bind_of_error silent

end Script

end LedgerNano
