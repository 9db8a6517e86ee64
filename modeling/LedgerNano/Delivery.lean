/-
This file is about the way of the signatures to the host.

A call of the parser in a signing state puts the next signatures in the transport buffer,
as many as it has room for (`Resumed.gives`), whoever called it. A command sends them as
its reply. A press sends them to no command, or to nobody. `signatures_delivered_iff` says that the
replies to the commands make up all the signatures exactly when no press took any.
-/

import LedgerNano.Replies

namespace LedgerNano

/-! ### Signatures in the transport buffer -/

/-- The number of signatures a session has put in the transport buffer so far. -/
def Device.given (device : Device) : Nat :=
  if device.signTxnContext.txnState = .retSigs then device.signTxnContext.currObj else 0

/-- A session that returns these signatures one after the other. -/
structure Signing (sdk : Sdk) (signatures : List SigInput) (device : Device) : Prop where
  declared : device.signTxnContext.txn.inNum = signatures.length
  phase : (device.signTxnContext.txnState = .computeSigs ∧ device.signing sdk = .ok signatures) ∨
    (device.signTxnContext.txnState = .retSigs ∧
      device.signTxnContext.txn.sigInput.read 0 signatures.length = signatures)

/-- The number of signatures a call of the parser puts in the transport buffer. -/
def Device.gift (device : Device) : Nat :=
  min (device.signTxnContext.txn.inNum - device.given) ((255 - device.tx) / sigLen)

/-- The bytes of some of the signatures. -/
def signatureBytes (signatures : List SigInput) (start count : Nat) : Bytes :=
  (((signatures.drop start).take count).map SigInput.signature).flatten

/-- What a call of the parser does in a signing session: it puts the next signatures behind `tx`,
and ends the session with the last one. -/
structure Gave (sdk : Sdk) (signatures : List SigInput) (device : Device) (code : Nat)
    (called : Device) : Prop where
  signing : Signing sdk signatures called
  given : called.given = device.given + device.gift
  tx : called.tx = device.tx + sigLen * device.gift
  written : called.apduBuffer = device.apduBuffer.write device.tx
    (signatureBytes signatures device.given device.gift)
  screen : called.screen = device.screen
  ended : device.given + device.gift = signatures.length ∧ code = txnFinished ∧
      called.signTxnContext.initialized = false ∨
    device.given + device.gift ≠ signatures.length ∧ code = txnPartial ∧
      called.signTxnContext.initialized = device.signTxnContext.initialized

section Giving

variable {sdk : Sdk} {signatures : List SigInput} {device called after : Device} {code : Nat}

theorem given_retSigs (state : device.signTxnContext.txnState = .retSigs) :
    device.given = device.signTxnContext.currObj :=
  if_pos state

theorem given_computeSigs (state : device.signTxnContext.txnState = .computeSigs) :
    device.given = 0 :=
  if_neg (by rw [state]; decide)

theorem gift_retSigs (state : device.signTxnContext.txnState = .retSigs) :
    device.gift = device.batch := by
  rw [Device.gift, given_retSigs state, Device.batch]

/-- A batch from a table that holds the signatures. -/
theorem gave_of_batch (state : device.signTxnContext.txnState = .retSigs)
    (declared : device.signTxnContext.txn.inNum = signatures.length)
    (table : device.signTxnContext.txn.sigInput.read 0 signatures.length = signatures)
    (ended : (device.returned device.batch).afterBatch = (some code, after)) :
    Gave sdk signatures device code after := by
  have given := given_retSigs state
  have gift := gift_retSigs state
  have batch := batch_le_owed device
  rw [declared] at batch
  have slots : device.signTxnContext.txn.sigInput.read device.signTxnContext.currObj device.batch =
      (signatures.drop device.given).take device.batch := by
    rw [given, ← table, Cells.drop_read, Nat.zero_add, Cells.take_read _ _ _ _ batch]
  have signing : Signing sdk signatures (device.returned device.batch) :=
    ⟨declared, Or.inr ⟨state, table⟩⟩
  have counted : (device.returned device.batch).given = device.given + device.gift := by
    rw [given, gift]
    exact given_retSigs state
  have written : (device.returned device.batch).apduBuffer = device.apduBuffer.write device.tx
      (signatureBytes signatures device.given device.gift) := by
    rw [signatureBytes, gift, ← slots]
    rfl
  have tx : (device.returned device.batch).tx = device.tx + sigLen * device.gift := by
    rw [gift]
    rfl
  have counter : (device.returned device.batch).signTxnContext.currObj =
      device.given + device.gift := by
    rw [given, gift]
    rfl
  rcases Device.afterBatch_cases ended with ⟨all, thrown, rfl⟩ | ⟨more, thrown, rfl⟩
  · rw [counter] at all
    exact ⟨⟨declared, Or.inr ⟨state, table⟩⟩, counted, tx, written, rfl,
      Or.inl ⟨all.trans declared, thrown, rfl⟩⟩
  · rw [counter] at more
    refine ⟨signing, counted, tx, written, rfl, Or.inr ⟨fun all => more ?_, thrown, rfl⟩⟩
    exact all.trans declared.symm

/-- A signing session does not read. -/
theorem Signing.not_tracks (signing : Signing sdk signatures device) (progress : Progress) :
    ¬ Tracks sdk progress device.signTxnContext := by
  intro tracks
  rcases signing.phase with ⟨state, _⟩ | ⟨state, _⟩
  · exact progress.state_reading.1 (tracks.state.symm.trans state)
  · exact progress.state_reading.2 (tracks.state.symm.trans state)

theorem Signing.signing (signing : Signing sdk signatures device)
    (state : device.signTxnContext.txnState = .computeSigs) :
    device.signing sdk = .ok signatures := by
  rcases signing.phase with ⟨_, all⟩ | ⟨other, _⟩
  · exact all
  · exact TxnState.noConfusion (state.symm.trans other)

theorem Signing.resumedByCommand (signing : Signing sdk signatures device) :
    device.signTxnContext.txnState.resumedByCommand = true := by
  rcases signing.phase with ⟨state, _⟩ | ⟨state, _⟩
  all_goals
    rw [state]
    rfl

/-- A call of the parser in a signing session puts the next signatures in the transport buffer. -/
theorem Resumed.gives {progress : Progress} (resumes : Resumed sdk progress device code called)
    (signing : Signing sdk signatures device) : Gave sdk signatures device code called := by
  cases resumes with
  | read call ctx tracks calls reads thrown result =>
    exact absurd tracks (signing.not_tracks progress)
  | computed signs state computes =>
    have all := signing.signing state
    cases computes with
    | raised path table counter derived signed result =>
      have raised : device.signing sdk = .error code := signed.raised code rfl
      rw [raised] at all
      cases all
    | finished others derived signed each derivations result returned =>
      cases Except.ok.inj (each.symm.trans all)
      have fits : 0 + signatures.length ≤ maxInputs := by
        rw [Nat.zero_add, ← signing.declared]
        exact signs.inside
      have gave : Gave sdk signatures signed code called := by
        refine gave_of_batch ?_ ?_ ?_ returned
        · rw [result]
          rfl
        · rw [result]
          exact signing.declared
        · rw [result]
          exact Cells.read_write_self _ 0 signatures fits
      have given : signed.given = device.given := by
        rw [given_computeSigs state, given_retSigs (by rw [result]; rfl), result]
        rfl
      have gift : signed.gift = device.gift := by
        rw [Device.gift, Device.gift, given, result]
        rfl
      obtain ⟨left, counted, tx, written, screen, ended⟩ := gave
      rw [given, gift] at counted written ended
      rw [gift] at tx
      subst result
      exact ⟨left, counted, tx, written, screen, ended⟩
  | returned signs state returns =>
    rcases signing.phase with ⟨other, _⟩ | ⟨_, table⟩
    · rw [state] at other
      cases other
    · exact gave_of_batch state signing.declared table returns

theorem length_signatureBytes {start count : Nat} (inside : start + count ≤ signatures.length) :
    (signatureBytes signatures start count).length = sigLen * count := by
  have each : ∀ bytes ∈ ((signatures.drop start).take count).map SigInput.signature,
      bytes.length = sigLen := by
    intro bytes member
    obtain ⟨slot, _, rfl⟩ := List.mem_map.mp member
    exact length_signature slot
  rw [signatureBytes, List.length_flatten, List.map_congr_left each, List.map_const',
    List.sum_replicate_nat, List.length_map, List.length_take, List.length_drop, Nat.mul_comm]
  congr 1
  omega

theorem gift_inside (signing : Signing sdk signatures device)
    (bound : device.given ≤ signatures.length) :
    device.given + device.gift ≤ signatures.length := by
  have gift : device.gift ≤ device.signTxnContext.txn.inNum - device.given := Nat.min_le_left _ _
  rw [signing.declared] at gift
  omega

theorem room_le (device : Device) : sigLen * device.gift ≤ 255 - device.tx := by
  have room : device.gift ≤ (255 - device.tx) / sigLen := Nat.min_le_right _ _
  simp only [sigLen] at room ⊢
  omega

theorem Signing.pressed (signing : Signing sdk signatures device)
    (session : device.signTxnContext.initialized = true) : Signing sdk signatures device.pressed ∧
      device.pressed.given = device.given ∧ device.pressed.gift = device.gift ∧
        device.pressed.signTxnContext.initialized = true := by
  rw [pressed_going session]
  exact ⟨⟨signing.declared, signing.phase⟩, rfl, rfl, session⟩

theorem Signing.loaded (signing : Signing sdk signatures device) (apdu : Apdu) :
    Signing sdk signatures (device.loaded apdu) ∧ (device.loaded apdu).given = device.given :=
  ⟨⟨signing.declared, signing.phase⟩, rfl⟩

/-- What a signing session has become: it is over with the last signature. -/
structure Left (sdk : Sdk) (signatures : List SigInput) (given : Nat) (after : Device) : Prop where
  signing : Signing sdk signatures after
  counted : after.given = given
  session : after.signTxnContext.initialized = true ↔ given ≠ signatures.length

/-- A command gets the next signatures, and nothing else. -/
theorem command_fetches {apdu : Apdu} (invariant : SessionInvariant sdk device)
    (signing : Signing sdk signatures device) (bound : device.given ≤ signatures.length)
    (session : device.signTxnContext.initialized = true) (asked : device.AsksToSign apdu)
    (later : device.p1 apdu = 1) (stepped : step sdk device (.apdu apdu) = .ok after) :
    Left sdk signatures (device.given + (device.loaded apdu).gift) after ∧
      ∃ events, (∀ event ∈ events, event.Unspoken) ∧ after.log =
        .reply (signatureBytes signatures device.given (device.loaded apdu).gift ++
          statusBytes insRetSuccess) :: (events ++ .command apdu.bytes :: device.log) := by
  obtain ⟨code, called, answered, resumes, goes, rfl⟩ :=
    (step_stepped invariant stepped).ofCommand asked session later signing.resumedByCommand
  obtain ⟨ready, same⟩ := signing.loaded apdu
  obtain ⟨left, counted, tx, written, screen, ended⟩ := resumes.gives ready
  rw [same] at counted written ended
  obtain ⟨events, log, unspoken⟩ := resumes.unspoken
  have inside := gift_inside ready (le_of_eq_of_le same bound)
  rw [same] at inside
  have length := length_signatureBytes inside
  have room : sigLen * (device.loaded apdu).gift ≤ 255 := room_le (device.loaded apdu)
  have payload : called.apduBuffer.read 0 called.tx =
      signatureBytes signatures device.given (device.loaded apdu).gift := by
    have start : (device.loaded apdu).tx = 0 := rfl
    rw [tx, written, start, Nat.zero_add, ← length]
    refine Cells.read_write_self _ 0 _ ?_
    rw [length, Nat.zero_add]
    exact le_trans room (by decide)
  rcases ended with ⟨all, thrown, closed⟩ | ⟨more, thrown, going⟩
  · rw [goes.of_finished thrown]
    refine ⟨⟨⟨left.declared, left.phase⟩, counted, ?_⟩, events, unspoken, ?_⟩
    · exact ⟨fun session => absurd session Bool.false_ne_true, fun more => absurd all more⟩
    · rw [resetTx_log, showMessage_log, replyOk_log, endSession_log, log]
      exact congrArg (fun bytes => Event.reply (bytes ++ _) :: _) payload
  · rw [goes.of_partial thrown]
    refine ⟨⟨⟨left.declared, left.phase⟩, counted, ?_⟩, events, unspoken, ?_⟩
    · exact ⟨fun _ => more, fun _ => going.trans session⟩
    · rw [resetTx_log, replyOk_log, payload, log]
      rfl

/-- A press takes the next signatures to no command. -/
theorem press_takes {button : Button} (invariant : SessionInvariant sdk device)
    (signing : Signing sdk signatures device)
    (session : device.signTxnContext.initialized = true) (right : button ≠ .left)
    (screen : device.screen = .transaction)
    (stepped : step sdk device (.button button) = .ok after) :
    Left sdk signatures (device.given + device.gift) after ∧
      ∃ events, (∀ event ∈ events, event.Unspoken) ∧ (after.log = events ++ device.log ∨
        ∃ bytes, after.log = .reply bytes :: (events ++ device.log)) := by
  obtain ⟨code, called, resumes, goes⟩ := (step_stepped invariant stepped).ofPress right screen
  obtain ⟨ready, sameGiven, sameGift, sameSession⟩ := signing.pressed session
  obtain ⟨left, counted, tx, written, shown, ended⟩ := resumes.gives ready
  rw [sameGiven, sameGift] at counted ended
  obtain ⟨events, log, unspoken⟩ := (pressed_unspoken device).trans resumes.unspoken
  rcases ended with ⟨all, thrown, closed⟩ | ⟨more, thrown, going⟩
  · rw [goes.of_finished thrown]
    refine ⟨⟨left, counted, ?_⟩, events, unspoken, Or.inl log⟩
    rw [closed]
    exact ⟨fun session => absurd session Bool.false_ne_true, fun more => absurd all more⟩
  · rw [goes.of_partial thrown]
    refine ⟨⟨⟨left.declared, left.phase⟩, counted, ?_⟩, events, unspoken, Or.inr ?_⟩
    · exact ⟨fun _ => more, fun _ => going.trans sameSession⟩
    · rw [replyOk_log, log]
      exact ⟨_, rfl⟩

theorem gift_eq_zero_iff (signing : Signing sdk signatures device)
    (owed : device.given < signatures.length) : device.gift = 0 ↔ 255 < device.tx + sigLen := by
  rw [Device.gift, signing.declared]
  simp only [sigLen]
  omega

end Giving

/-! ### The replies of a session -/

/-- The payloads of the replies that answer a command, one after the other. -/
def answers : List Event → Bytes :=
  Logs.read [] fun
    | .reply bytes => some fun past payloads =>
      payloads ++ if waiting past then bytes.take (bytes.length - 2) else []
    | _ => none

/-- What a device logged after another one. -/
def Device.since (start device : Device) : List Event :=
  device.log.take (device.log.length - start.log.length)

/-- Until the session ends, the host sends commands with `p1 = 1` and the user presses the right
button on the transaction screen. -/
def GoesOn (device : Device) (input : Input) : Prop :=
  device.signTxnContext.initialized = true ∧
    match input with
    | .apdu apdu => device.AsksToSign apdu ∧ device.p1 apdu = 1
    | .button button => button ≠ .left ∧ device.screen = .transaction
    | .addressScreen => False

instance (device : Device) : ∀ input, Decidable (GoesOn device input)
  | .apdu _ => inferInstanceAs (Decidable (_ ∧ _ ∧ _))
  | .button _ => inferInstanceAs (Decidable (_ ∧ _ ∧ _))
  | .addressScreen => isFalse And.right

/-- The input is a command, or there is no room for a signature in the transport buffer. -/
def TakesNone (device : Device) : Input → Prop
  | .apdu _ => True
  | _ => 255 < device.tx + sigLen

section Replies

variable {sdk : Sdk} {signatures : List SigInput} {start device after : Device}

theorem since_eq {newer : List Event} (log : device.log = newer ++ start.log) :
    start.since device = newer := by
  rw [Device.since, log, List.length_append, Nat.add_sub_cancel, List.take_left]

theorem since_self (start : Device) : start.since start = [] :=
  since_eq rfl

theorem answers_ignores : Logs.Ignores Event.Unspoken answers := by
  intro event past unspoken
  cases event with
  | reply => exact absurd unspoken id
  | _ => rfl

theorem answers_reply_waiting {payload : Bytes} {past : List Event} (waits : waiting past = true) :
    answers (.reply (payload ++ statusBytes insRetSuccess) :: past) = answers past ++ payload := by
  have status : (statusBytes insRetSuccess).length = 2 := rfl
  show answers past ++ (if waiting past then _ else _) = _
  rw [if_pos waits, List.length_append, status, Nat.add_sub_cancel, List.take_left]

theorem answers_reply_unasked {bytes : Bytes} {past : List Event} (idle : waiting past = false) :
    answers (.reply bytes :: past) = answers past := by
  show answers past ++ (if waiting past then _ else _) = _
  rw [if_neg (by rw [idle]; exact Bool.false_ne_true), List.append_nil]

/-- A session on its way to its last signature. What its commands got so far is what the session
gave, or less. -/
structure Delivers (sdk : Sdk) (signatures : List SigInput) (start device : Device) : Prop where
  invariant : SessionInvariant sdk device
  left : Left sdk signatures device.given device
  bound : device.given ≤ signatures.length
  log : device.log = start.since device ++ start.log
  idle : waiting (start.since device) = false
  atMost : (answers (start.since device)).length ≤ sigLen * device.given
  all : (answers (start.since device)).length = sigLen * device.given →
    answers (start.since device) = signatureBytes signatures 0 device.given

theorem signatureBytes_append (first second : Nat) :
    signatureBytes signatures 0 first ++ signatureBytes signatures first second =
      signatureBytes signatures 0 (first + second) := by
  rw [signatureBytes, signatureBytes, signatureBytes, List.drop_zero, ← List.flatten_append,
    ← List.map_append, List.take_add]

/-- A command gets all that is given. -/
theorem Delivers.command {apdu : Apdu} (delivers : Delivers sdk signatures start device)
    (session : device.signTxnContext.initialized = true) (asked : device.AsksToSign apdu)
    (later : device.p1 apdu = 1) (stepped : step sdk device (.apdu apdu) = .ok after) :
    Delivers sdk signatures start after ∧
      ((answers (start.since after)).length = sigLen * after.given ↔
        (answers (start.since device)).length = sigLen * device.given) := by
  obtain ⟨left, events, unspoken, log⟩ := command_fetches delivers.invariant delivers.left.signing
    delivers.bound session asked later stepped
  set count := (device.loaded apdu).gift with countIs
  have inside : device.given + count ≤ signatures.length :=
    gift_inside (delivers.left.signing.loaded apdu).1 delivers.bound
  have waits : waiting (events ++ .command apdu.bytes :: start.since device) = true :=
    waiting_of_extends ⟨events, rfl, unspoken⟩
  have newer : start.since after = .reply (signatureBytes signatures device.given count ++
      statusBytes insRetSuccess) :: (events ++ .command apdu.bytes :: start.since device) := by
    refine since_eq ?_
    rw [log, List.cons_append, List.append_assoc, List.cons_append, ← delivers.log]
  have collected : answers (start.since after) =
      answers (start.since device) ++ signatureBytes signatures device.given count := by
    rw [newer, answers_reply_waiting waits, answers_ignores.append unspoken]
    rfl
  have length : (answers (start.since after)).length =
      (answers (start.since device)).length + sigLen * count := by
    rw [collected, List.length_append, length_signatureBytes inside]
  have atMost := delivers.atMost
  have same : (answers (start.since after)).length = sigLen * after.given ↔
      (answers (start.since device)).length = sigLen * device.given := by
    rw [length, left.counted, Nat.mul_add]
    omega
  refine ⟨⟨step_session delivers.invariant stepped, ⟨left.signing, rfl, ?_⟩, ?_, ?_, ?_, ?_, ?_⟩,
    same⟩
  · rw [left.counted]
    exact left.session
  · rw [left.counted]
    exact inside
  · rw [newer, log, List.cons_append, List.append_assoc, List.cons_append, ← delivers.log]
  · rw [newer]
    rfl
  · rw [length, left.counted, Nat.mul_add]
    omega
  · intro all
    rw [collected, delivers.all (same.mp all), left.counted, signatureBytes_append]

/-- A press gives to no command. -/
theorem Delivers.press {button : Button} (delivers : Delivers sdk signatures start device)
    (session : device.signTxnContext.initialized = true) (right : button ≠ .left)
    (screen : device.screen = .transaction)
    (stepped : step sdk device (.button button) = .ok after) :
    Delivers sdk signatures start after ∧
      ((answers (start.since after)).length = sigLen * after.given ↔
        (answers (start.since device)).length = sigLen * device.given ∧
          255 < device.tx + sigLen) := by
  have signing := delivers.left.signing
  obtain ⟨left, events, unspoken, log⟩ :=
    press_takes delivers.invariant signing session right screen stepped
  have inside := gift_inside signing delivers.bound
  have owed : device.given < signatures.length :=
    lt_of_le_of_ne delivers.bound (delivers.left.session.mp session)
  have idle : waiting (events ++ start.since device) = false := by
    rw [waiting_of_extends ⟨events, rfl, unspoken⟩]
    exact delivers.idle
  have newer : after.log = start.since after ++ start.log ∧
      waiting (start.since after) = false ∧
        answers (start.since after) = answers (start.since device) := by
    rcases log with log | ⟨bytes, log⟩
    · have same : start.since after = events ++ start.since device := by
        refine since_eq ?_
        rw [log, List.append_assoc, ← delivers.log]
      rw [same]
      exact ⟨by rw [log, List.append_assoc, ← delivers.log], idle, answers_ignores.append unspoken⟩
    · have same : start.since after = .reply bytes :: (events ++ start.since device) := by
        refine since_eq ?_
        rw [log, List.cons_append, List.append_assoc, ← delivers.log]
      rw [same]
      refine ⟨by rw [log, List.cons_append, List.append_assoc, ← delivers.log], rfl, ?_⟩
      rw [answers_reply_unasked idle, answers_ignores.append unspoken]
  obtain ⟨newerLog, newerIdle, collected⟩ := newer
  have atMost := delivers.atMost
  have none := gift_eq_zero_iff signing owed
  have same : (answers (start.since after)).length = sigLen * after.given ↔
      (answers (start.since device)).length = sigLen * device.given ∧ 255 < device.tx + sigLen := by
    rw [collected, left.counted, ← none, Nat.mul_add]
    simp only [sigLen] at atMost ⊢
    omega
  refine ⟨⟨step_session delivers.invariant stepped, ⟨left.signing, rfl, ?_⟩, ?_, newerLog,
    newerIdle, ?_, ?_⟩, same⟩
  · rw [left.counted]
    exact left.session
  · rw [left.counted]
    exact inside
  · rw [collected, left.counted, Nat.mul_add]
    omega
  · intro all
    obtain ⟨before, full⟩ := same.mp all
    rw [collected, delivers.all before, left.counted, none.mpr full, Nat.add_zero]

/-- Each step goes on with the delivery. The commands got all that is given after it where they got
all before and the input takes none. -/
theorem Delivers.keeps {input : Input} (delivers : Delivers sdk signatures start device)
    (goesOn : GoesOn device input) (stepped : step sdk device input = .ok after) :
    Delivers sdk signatures start after ∧
      ((answers (start.since after)).length = sigLen * after.given ↔
        (answers (start.since device)).length = sigLen * device.given ∧
          TakesNone device input) := by
  obtain ⟨session, goes⟩ := goesOn
  cases input with
  | addressScreen => exact absurd goes id
  | apdu apdu =>
    obtain ⟨next, same⟩ := delivers.command session goes.1 goes.2 stepped
    exact ⟨next, same.trans (and_iff_left trivial).symm⟩
  | button button => exact delivers.press session goes.1 goes.2 stepped

/-! ### The start of the delivery -/

/-- A right press takes the session from reading to signing: the inner hash is returned. -/
structure ReturnsHash (sdk : Sdk) (button : Button) (before start : Device) : Prop where
  right : button ≠ .left
  screen : before.screen = .transaction
  reading : before.pressed.signTxnContext.txnState ≠ .computeSigs ∧
    before.pressed.signTxnContext.txnState ≠ .retSigs
  stepped : step sdk before (.button button) = .ok start
  signs : start.signTxnContext.txnState = .computeSigs

/-- The session that returned its inner hash is open, and ready to give its first signature. -/
theorem ReturnsHash.delivers {button : Button} {before : Device}
    (returns : ReturnsHash sdk button before start) (invariant : SessionInvariant sdk before)
    (signs : start.signing sdk = .ok signatures) :
    start.signTxnContext.initialized = true ∧ Delivers sdk signatures start start := by
  obtain ⟨code, called, resumes, goes⟩ :=
    (step_stepped invariant returns.stepped).ofPress returns.right returns.screen
  have after := step_session invariant returns.stepped
  have session : start.signTxnContext.initialized = true := by
    cases resumes with
    | computed signs state => exact absurd state returns.reading.1
    | returned signs state => exact absurd state returns.reading.2
    | read call ctx tracks calls reads thrown result =>
      subst thrown result
      have reached := reads.reached
      by_cases ready : call.code = txnReady
      · rw [goes.of_ready ready]
        exact reads.initialized.trans (pressed_initialized before)
      · rw [if_neg ready] at reached
        have state := (goes.txnState_eq ready).symm.trans returns.signs
        have same : ctx.txnState = .computeSigs := state
        exact absurd (reached.state.symm.trans same) call.progress.state_reading.1
  have signsFor : SignsFor sdk (progressOf start.log) start.signTxnContext := by
    rcases after.session session with tracks | signsFor
    · exact absurd (tracks.state.symm.trans returns.signs) (progressOf start.log).state_reading.1
    · exact signsFor
  have declared : start.signTxnContext.txn.inNum = signatures.length := by
    rw [length_mapM signs, Cells.length_read _ _ _ (by rw [Nat.zero_add]; exact signsFor.inside)]
  have given := given_computeSigs returns.signs
  refine ⟨session, after, ⟨⟨declared, Or.inl ⟨returns.signs, signs⟩⟩, rfl, ?_⟩, ?_, ?_, ?_, ?_, ?_⟩
  · rw [given, ← declared]
    exact ⟨fun _ => Nat.ne_of_lt signsFor.positive, fun _ => session⟩
  · rw [given]
    exact Nat.zero_le _
  · rw [since_self]
    rfl
  · rw [since_self]
    rfl
  · rw [since_self]
    exact Nat.zero_le _
  · intro _
    rw [since_self, given]
    rfl

/-- The commands got every signature given so far, once and in order, and all of them if the session
is over. -/
def Delivered (signatures : List SigInput) (start device : Device) : Prop :=
  answers (start.since device) = signatureBytes signatures 0 device.given ∧
    (device.signTxnContext.initialized = false →
      answers (start.since device) = (signatures.map SigInput.signature).flatten)

theorem Delivers.delivered_length (delivers : Delivers sdk signatures start device) :
    Delivered signatures start device ↔
      (answers (start.since device)).length = sigLen * device.given := by
  constructor
  · rintro ⟨all, _⟩
    rw [all]
    exact length_signatureBytes (by rw [Nat.zero_add]; exact delivers.bound)
  · intro length
    have all := delivers.all length
    refine ⟨all, fun closed => ?_⟩
    have last : device.given = signatures.length := by
      by_contra more
      exact absurd (closed.symm.trans (delivers.left.session.mpr more)) Bool.false_ne_true
    rw [all, last, signatureBytes, List.drop_zero, List.take_length]

/-- A run keeps the delivery complete exactly when no input takes a signature. -/
theorem Delivers.run_iff {inputs : List Input} (initial : Delivers sdk signatures start start)
    (none : start.given = 0) (goesOn : Runs.Along (step sdk) GoesOn start inputs)
    (went : run sdk start inputs = .ok device) :
    Delivered signatures start device ↔
      Runs.Along (step sdk) TakesNone start inputs := by
  have delivers : Delivers sdk signatures start device :=
    Runs.run_invariant (fun _ _ _ delivers goesOn stepped => (delivers.keeps goesOn stepped).1)
      initial goesOn went
  have along : (answers (start.since device)).length = sigLen * device.given ↔
      (answers (start.since start)).length = sigLen * start.given ∧
        Runs.Along (step sdk) TakesNone start inputs :=
    Runs.run_holds_iff (fun _ _ _ delivers goesOn stepped => (delivers.keeps goesOn stepped).1)
      (fun _ _ _ delivers goesOn stepped => (delivers.keeps goesOn stepped).2) initial goesOn went
  rw [delivers.delivered_length, along]
  refine and_iff_right ?_
  rw [since_self, none]
  rfl

/-- From the inner hash on, the replies to the commands are exactly the signatures in order if and
only if no press takes a signature. -/
theorem signatures_delivered_iff {earlier inputs : List Input} {before : Device} {button : Button}
    (ran : run sdk Device.boot earlier = .ok before)
    (returns : ReturnsHash sdk button before start) (signs : start.signing sdk = .ok signatures)
    (goesOn : Runs.Along (step sdk) GoesOn start inputs)
    (went : run sdk start inputs = .ok device) :
    Delivered signatures start device ↔ Runs.Along (step sdk) TakesNone start inputs :=
  (returns.delivers (run_session ran) signs).2.run_iff (given_computeSigs returns.signs) goesOn went

end Replies

/-- The session returns its inner hash with the fourth input of `timedSession`, and goes on with
another input. -/
theorem timedSession_returnsHash (input : Input)
    (allowed : input = .apdu (signApdu 1 [] (by decide)) ∨
    input = .button .right) : ∃ before start device : Device, ∃ signatures : List SigInput,
    run Sdk.plain Device.boot (timedSession.take 3) = .ok before ∧
      ReturnsHash Sdk.plain .right before start ∧ start.signing Sdk.plain = .ok signatures ∧
        Runs.Along (step Sdk.plain) GoesOn start [input] ∧
          run Sdk.plain start [input] = .ok device ∧ start.tx = 32 := by
  have ends : Runs.Ends (fun before : Device => before.screen = .transaction ∧
      (before.pressed.signTxnContext.txnState ≠ .computeSigs ∧
        before.pressed.signTxnContext.txnState ≠ .retSigs) ∧
      Runs.Ends (fun start : Device => start.signTxnContext.txnState = .computeSigs ∧
        Runs.Ends (fun _ => True) (start.signing Sdk.plain) ∧
          Runs.Along (step Sdk.plain) GoesOn start [input] ∧
            Runs.Ends (fun _ => True) (run Sdk.plain start [input]) ∧ start.tx = 32)
        (step Sdk.plain before (.button .right)))
      (run Sdk.plain Device.boot (timedSession.take 3)) := by
    rcases allowed with rfl | rfl
    · decide +kernel
    · decide +kernel
  obtain ⟨before, ran, screen, reading, ready⟩ := Runs.exists_of_ends ends
  obtain ⟨start, stepped, signs, signed, goesOn, went, tx⟩ := Runs.exists_of_ends ready
  obtain ⟨signatures, all, _⟩ := Runs.exists_of_ends signed
  obtain ⟨device, last, _⟩ := Runs.exists_of_ends went
  exact ⟨before, start, device, signatures, ran, ⟨by decide, screen, reading, stepped, signs⟩, all,
    goesOn, last, tx⟩

/-- The signature is fetched by a command. -/
theorem signatures_delivered_iff_sample : ∃ start device : Device, ∃ signatures : List SigInput,
    start.signing Sdk.plain = .ok signatures ∧
      run Sdk.plain start [.apdu (signApdu 1 [] (by decide))] = .ok device ∧
        Delivered signatures start device := by
  obtain ⟨before, start, device, signatures, ran, returns, signs, goesOn, went, _⟩ :=
    timedSession_returnsHash (.apdu (signApdu 1 [] (by decide))) (Or.inl rfl)
  exact ⟨start, device, signatures, signs, went,
    (signatures_delivered_iff ran returns signs goesOn went).mpr
      (Runs.along_cons.mpr ⟨trivial, fun _ _ => trivial⟩)⟩

/-- A press after the inner hash takes the signature, and no command gets it. -/
theorem signature_can_be_lost : ¬ ∀ (sdk : Sdk) (earlier inputs : List Input) (button : Button)
    (before start device : Device) (signatures : List SigInput),
    run sdk Device.boot earlier = .ok before → ReturnsHash sdk button before start →
      start.signing sdk = .ok signatures → Runs.Along (step sdk) GoesOn start inputs →
        run sdk start inputs = .ok device → Delivered signatures start device := by
  obtain ⟨before, start, device, signatures, ran, returns, signs, goesOn, went, tx⟩ :=
    timedSession_returnsHash (.button .right) (Or.inr rfl)
  intro all
  have delivered := all Sdk.plain _ _ _ before start device signatures ran returns signs goesOn went
  have initial := (returns.delivers (run_session ran) signs).2
  have room := Runs.along_cons.mp
    ((initial.run_iff (given_computeSigs returns.signs) goesOn went).mp delivered)
  have full : 255 < start.tx + sigLen := room.1
  rw [tx] at full
  exact absurd full (by decide)

end LedgerNano
