/-
This file is about an exception of the SDK while the inputs are signed: what it leaves
behind.

`signInputs_fails` says where the loop stops: the path is that of the input at which it
failed, and the slots before it hold signatures. `failure_contained_iff` says when the
handlers clean up after it: they end the session for one code only, that of their own
`TXN_ERROR`, and none of them puts the path back.
-/

import LedgerNano.Delivery

namespace LedgerNano

/-! ### Failing at an input -/

/-- The SDK raises an exception at an input, and none at the inputs before it. -/
structure FailsAt (sdk : Sdk) (called : Device) (i code : Nat) : Prop where
  declared : i < called.signTxnContext.txn.inNum
  inside : i < maxInputs
  earlier : ∃ signatures,
    (called.signTxnContext.txn.sigInput.read 0 i).mapM (called.attempt sdk) = .ok signatures
  raises : called.attempt sdk (called.signTxnContext.txn.sigInput.get i inside) = .error code

/-- The failure is contained: no answer reports success, the address index of the path is as
before, and the session is over, so that the next call of the parser begins a new one. -/
structure Contained (before after : Device) : Prop where
  unanswered : ∀ bytes, .reply bytes ∈ before.since after → ¬ statusBytes insRetSuccess <:+ bytes
  restored : pathWord after.getPublicKeyContext.bip44Path 4 =
    pathWord before.getPublicKeyContext.bip44Path 4
  closed : after.signTxnContext.initialized = false
  restarts : ∀ input called, after.resumedBy input = some called →
    called.signTxnContext.txnState = .startIn

section Loop

variable {sdk : Sdk}

theorem pathWord_inputPath (path : Cells Nat 5) (slot : SigInput) :
    pathWord (inputPath path slot) 4 = u4LE slot.input 32 := by
  have last : (inputPath path slot).read 4 1 = [u4LE slot.input 32] :=
    path.read_write_self 4 _ (le_refl 5)
  rw [pathWord, last]
  rfl

/-- The loop over the inputs stops where the SDK raises an exception. The induction is on the
number of inputs signed before. -/
theorem signInputs_fails (device : Device) (count remaining : Nat) {i code : Nat}
    {signatures : List SigInput} (inside : i + count < maxInputs)
    (earlier : (device.signTxnContext.txn.sigInput.read i count).mapM (device.attempt sdk) =
      .ok signatures)
    (raises : device.attempt sdk (device.signTxnContext.txn.sigInput.get (i + count) inside) =
      .error code) :
    ∃ table counter derived, signInputs sdk (count + remaining + 1) i device =
      .ok (some code, device.signedBy (inputPath device.getPublicKeyContext.bip44Path
        (device.signTxnContext.txn.sigInput.get (i + count) inside)) table counter derived) := by
  induction count generalizing i device signatures with
  | zero =>
    have here : i < maxInputs := inside
    have failed : device.attempt sdk (device.signTxnContext.txn.sigInput.get i here) =
        .error code := raises
    rw [Nat.zero_add, signInputs_succ sdk remaining device here, failed]
    exact ⟨_, _, _, rfl⟩
  | succ count inductionHypothesis =>
    have here : i < maxInputs := by omega
    set slot := device.signTxnContext.txn.sigInput.get i here with slotIs
    set path := inputPath device.getPublicKeyContext.bip44Path slot with pathIs
    have samePath : path.read 0 4 = device.getPublicKeyContext.bip44Path.read 0 4 :=
      read_inputPath _ slot
    rw [Cells.read_succ _ _ _ here, List.mapM_cons] at earlier
    cases first : device.attempt sdk slot with
    | error other =>
      rw [← slotIs, first] at earlier
      cases earlier
    | ok signature =>
      rw [← slotIs, first] at earlier
      obtain ⟨more, later⟩ : ∃ more, (device.signTxnContext.txn.sigInput.read (i + 1) count).mapM
          (device.attempt sdk) = .ok more := by
        cases later : (device.signTxnContext.txn.sigInput.read (i + 1) count).mapM
            (device.attempt sdk) with
        | error other =>
          simp only [later, bind, Except.bind] at earlier
          cases earlier
        | ok more => exact ⟨more, rfl⟩
      set next := device.signedBy path (device.signTxnContext.txn.sigInput.set i signature)
        ((device.signTxnContext.currObj + 1) % 2 ^ 8) [path.contents] with nextIs
      have attempt : next.attempt sdk = device.attempt sdk := attempt_signedBy sdk samePath _ _ _
      have slots : next.signTxnContext.txn.sigInput.read (i + 1) count =
          device.signTxnContext.txn.sigInput.read (i + 1) count := read_set_after _ here signature
      have place : i + 1 + count < maxInputs := by omega
      have slotIn : next.signTxnContext.txn.sigInput.get (i + 1 + count) place =
          device.signTxnContext.txn.sigInput.get (i + (count + 1)) inside := by
        have other := Cells.get_set_other device.signTxnContext.txn.sigInput i (i + 1 + count)
          signature place (by omega)
        rw [nextIs]
        refine other.trans ?_
        congr 1
        omega
      obtain ⟨table, counter, derived, looped⟩ :=
        inductionHypothesis next (i := i + 1) place
          (by rw [slots, attempt]; exact later) (by rw [slotIn, attempt]; exact raises)
      refine ⟨table, counter, derived ++ [path.contents], ?_⟩
      have turns : count + 1 + remaining + 1 = (count + remaining + 1) + 1 := by omega
      rw [turns, signInputs_succ sdk _ device here, ← slotIs, ← pathIs, first]
      simp only
      have samePaths : inputPath next.getPublicKeyContext.bip44Path
          (device.signTxnContext.txn.sigInput.get (i + (count + 1)) inside) =
            inputPath device.getPublicKeyContext.bip44Path
              (device.signTxnContext.txn.sigInput.get (i + (count + 1)) inside) :=
        inputPath_congr samePath _
      rw [slotIn, samePaths, nextIs, Device.signedBy_signedBy] at looped
      exact looped

/-- A call of the parser at such an input: the exception's code is its result, and the path stays
that of the input. -/
theorem FailsAt.thrown {called : Device} {i code : Nat} (fails : FailsAt sdk called i code)
    (signs : called.signTxnContext.txnState = .computeSigs) :
    ∃ table counter derived, txnNextElem sdk called = .ok (code, called.startSigning.signedBy
      (inputPath called.getPublicKeyContext.bip44Path
        (called.signTxnContext.txn.sigInput.get i fails.inside)) table counter derived) := by
  obtain ⟨signatures, earlier⟩ := fails.earlier
  have inside : 0 + i < maxInputs := by
    rw [Nat.zero_add]
    exact fails.inside
  have slot : called.signTxnContext.txn.sigInput.get (0 + i) inside =
      called.signTxnContext.txn.sigInput.get i fails.inside := by
    congr 1
    exact Nat.zero_add i
  obtain ⟨table, counter, derived, looped⟩ :=
    signInputs_fails called.startSigning i
      (called.signTxnContext.txn.inNum - i - 1) inside earlier
      ((congrArg (called.attempt sdk) slot).trans fails.raises)
  have count : i + (called.signTxnContext.txn.inNum - i - 1) + 1 =
      called.signTxnContext.txn.inNum := by
    have declared := fails.declared
    omega
  have path : inputPath called.startSigning.getPublicKeyContext.bip44Path
      (called.startSigning.signTxnContext.txn.sigInput.get (0 + i) inside) =
        inputPath called.getPublicKeyContext.bip44Path
          (called.signTxnContext.txn.sigInput.get i fails.inside) :=
    congrArg (inputPath called.getPublicKeyContext.bip44Path) slot
  rw [count, path] at looped
  refine ⟨table, counter, derived, txnNextElem_of_pass ?_⟩
  rw [txnNextElemPass, signs]
  simp only
  unfold computeSigs
  simp only
  rw [← Device.startSigning, looped]

end Loop

/-! ### What the handlers make of it -/

/-- The event is no reply. -/
def Event.Mute : Event → Prop
  | .reply _ => False
  | _ => True

section Handlers

variable {sdk : Sdk} {before device called left after : Device} {i code : Nat}

/-- The next call of the parser, when no session is open, begins a new one. -/
theorem restarts_of_closed {input : Input} (closed : device.signTxnContext.initialized = false)
    (calls : device.resumedBy input = some called) :
    called.signTxnContext.txnState = .startIn := by
  have closed : ¬ device.signTxnContext.initialized = true := by
    rw [closed]
    exact Bool.false_ne_true
  cases input with
  | addressScreen => cases calls
  | apdu apdu =>
    rw [Device.resumedBy] at calls
    split at calls
    · rename_i resumed
      exact absurd resumed.2.1 closed
    · cases calls
  | button button =>
    rw [Device.resumedBy] at calls
    split at calls
    · cases calls
      unfold Device.pressed startSession
      rw [if_neg (by rw [record_signTxnContext]; exact closed)]
      rfl
    · cases calls

/-- The handlers' own way with an error. -/
theorem contained_of_error (mute : Logs.Extends Event.Mute before.log left.log)
    (log : after.log = .reply (statusBytes 0x6B0) :: left.log)
    (restored : pathWord after.getPublicKeyContext.bip44Path 4 =
      pathWord before.getPublicKeyContext.bip44Path 4)
    (closed : after.signTxnContext.initialized = false) : Contained before after := by
  obtain ⟨events, same, each⟩ := mute
  have since : before.since after = .reply (statusBytes 0x6B0) :: events :=
    since_eq (by rw [log, same, List.cons_append])
  refine ⟨fun bytes member => ?_, restored, closed, fun input called => restarts_of_closed closed⟩
  rw [since] at member
  rcases List.mem_cons.mp member with replied | earlier
  · cases replied
    decide
  · exact absurd (each _ earlier) id

/-- An answer that reports success. -/
theorem not_contained_of_ok {payload : Bytes} (longer : ∃ events, left.log = events ++ before.log)
    (log : after.log = .reply (payload ++ statusBytes insRetSuccess) :: left.log) :
    ¬ Contained before after := by
  obtain ⟨events, same⟩ := longer
  have since : before.since after =
      .reply (payload ++ statusBytes insRetSuccess) :: events :=
    since_eq (by rw [log, same, List.cons_append])
  intro contained
  refine contained.unanswered (payload ++ statusBytes insRetSuccess) ?_ (List.suffix_append _ _)
  rw [since]
  exact List.mem_cons_self

/-- The loop over the inputs sends no reply. -/
theorem signedBy_mute (path : Cells Nat 5) (table : Cells SigInput maxInputs) (counter : Nat)
    (derived : List (List Nat)) (mute : Logs.Extends Event.Mute before.log called.log) :
    Logs.Extends Event.Mute before.log
      (called.startSigning.signedBy path table counter derived).log := by
  have begun : Logs.Extends Event.Mute before.log called.startSigning.log := mute.cons trivial
  exact begun.map Event.derive (fun _ => trivial) derived

theorem resumedBy_mute {input : Input} (calls : device.resumedBy input = some called) :
    Logs.Extends Event.Mute device.log called.log := by
  obtain ⟨events, same, each⟩ := resumedBy_extends calls
  refine ⟨events, same, fun event member => ?_⟩
  have kind := each event member
  cases event with
  | reply => exact absurd kind id
  | _ => trivial

/-- A command ends the session for `TXN_ERROR`, and for `TXN_FINISHED` with success. -/
theorem CommandResult.contained_iff (goes : CommandResult sdk left code after)
    (session : left.signTxnContext.initialized = true)
    (mute : Logs.Extends Event.Mute before.log left.log) :
    Contained before after.resetTx ↔ code = txnError ∧
      pathWord left.getPublicKeyContext.bip44Path 4 =
        pathWord before.getPublicKeyContext.bip44Path 4 := by
  cases goes with
  | failed thrown result =>
    subst result
    refine ⟨fun contained => ⟨thrown, contained.restored⟩, fun ⟨_, restored⟩ => ?_⟩
    exact contained_of_error mute rfl restored rfl
  | approve thrown result =>
    subst result
    refine iff_of_false (fun contained => ?_) fun both => ?_
    · have closed := contained.closed
      rw [resetTx_signTxnContext, goToTransactionScreen_signTxnContext,
        prepareOutputApproval_signTxnContext, session] at closed
      exact Bool.false_ne_true closed.symm
    · rw [thrown] at both
      exact absurd both.1 (by decide)
  | finished thrown fits result =>
    subst result
    obtain ⟨events, same, _⟩ := mute
    refine iff_of_false ?_ fun both => ?_
    · exact not_contained_of_ok ⟨events, same⟩ rfl
    · rw [thrown] at both
      exact absurd both.1 (by decide)
  | more other fits result =>
    subst result
    refine iff_of_false (fun contained => ?_) fun both => other.1 both.1
    exact Bool.false_ne_true (contained.closed.symm.trans session)

/-- A press ends the session for `TXN_ERROR` only. -/
theorem PressResult.contained_iff (goes : PressResult sdk left code after)
    (session : left.signTxnContext.initialized = true)
    (mute : Logs.Extends Event.Mute before.log left.log) :
    Contained before after ↔ code = txnError ∧
      pathWord left.getPublicKeyContext.bip44Path 4 =
        pathWord before.getPublicKeyContext.bip44Path 4 := by
  have still : after.signTxnContext.initialized = true → code ≠ txnError →
      (Contained before after ↔ code = txnError ∧
        pathWord left.getPublicKeyContext.bip44Path 4 =
          pathWord before.getPublicKeyContext.bip44Path 4) := fun going other =>
    iff_of_false (fun contained => Bool.false_ne_true (contained.closed.symm.trans going))
      fun both => other both.1
  cases goes with
  | more thrown fits result =>
    subst result
    exact still session (by rw [thrown]; decide)
  | approve thrown result =>
    subst result
    refine still ?_ (by rw [thrown]; decide)
    rw [prepareOutputApproval_signTxnContext]
    exact session
  | last thrown fits result =>
    subst result
    refine still ?_ (by rw [thrown]; decide)
    rw [replyOk_signTxnContext, prepareOutputApproval_signTxnContext]
    exact session
  | ready thrown fits result =>
    subst result
    exact still session (by rw [thrown]; decide)
  | failed thrown result =>
    subst result
    refine ⟨fun contained => ⟨thrown, contained.restored⟩, fun ⟨_, restored⟩ => ?_⟩
    exact contained_of_error mute rfl restored rfl
  | silent other result =>
    subst result
    exact still session other.2.2.2.2

/-- A failure of the SDK while the inputs are signed is contained if and only if its code is that of
`TXN_ERROR` and the input's address index is the last word of the stored path already. -/
theorem failure_contained_iff {input : Input} (calls : device.resumedBy input = some called)
    (signs : called.signTxnContext.txnState = .computeSigs) (fails : FailsAt sdk called i code) :
    (∃ after, step sdk device input = .ok after ∧ Contained device after) ↔
      code = txnError ∧
        u4LE (called.signTxnContext.txn.sigInput.get i fails.inside).input 32 =
          pathWord device.getPublicKeyContext.bip44Path 4 := by
  obtain ⟨table, counter, derived, thrown⟩ := fails.thrown signs
  set slot := called.signTxnContext.txn.sigInput.get i fails.inside with slotIs
  set left := called.startSigning.signedBy
    (inputPath called.getPublicKeyContext.bip44Path slot) table counter derived with leftIs
  have mute : Logs.Extends Event.Mute device.log left.log :=
    signedBy_mute _ table counter derived (resumedBy_mute calls)
  have word : pathWord left.getPublicKeyContext.bip44Path 4 = u4LE slot.input 32 :=
    pathWord_inputPath _ slot
  rw [← word]
  cases input with
  | addressScreen => cases calls
  | apdu apdu =>
    rw [Device.resumedBy] at calls
    split at calls
    · rename_i resumed
      cases calls
      obtain ⟨asked, session, later, state⟩ := resumed
      have went : step sdk device (.apdu apdu) =
          Device.resetTx <$> handleSignTxnResult sdk code left := by
        rw [step_signs sdk asked, if_pos session, if_pos later, if_pos state, resumeByCommand,
          thrown]
      rw [went]
      constructor
      · rintro ⟨after, stepped, contained⟩
        obtain ⟨answered, result, rfl⟩ := map_ok stepped
        exact ((handleSignTxnResult_result result).contained_iff session mute).mp contained
      · rintro ⟨error, restored⟩
        have result : handleSignTxnResult sdk code left =
            .ok (showMessage left.endSession.replyError) := by
          rw [handleSignTxnResult, if_pos error, ioAsyncExchangeError_eq]
          rfl
        exact ⟨_, by rw [result]; rfl,
          ((handleSignTxnResult_result result).contained_iff session mute).mpr ⟨error, restored⟩⟩
    · cases calls
  | button button =>
    rw [Device.resumedBy] at calls
    split at calls
    · rename_i resumed
      cases calls
      obtain ⟨right, screen⟩ := resumed
      have session : left.signTxnContext.initialized = true := pressed_initialized device
      have went : step sdk device (.button button) = transactionScreenResult sdk code left := by
        rw [step_rightPress sdk screen right, resumeByPress, thrown]
      rw [went]
      constructor
      · rintro ⟨after, stepped, contained⟩
        exact ((transactionScreenResult_result stepped).contained_iff session mute).mp contained
      · rintro ⟨error, restored⟩
        have result : transactionScreenResult sdk code left =
            .ok left.endSession.replyError := by
          rw [transactionScreenResult, error]
          exact ioAsyncExchangeError_eq left.endSession
        exact ⟨_, result,
          ((transactionScreenResult_result result).contained_iff session mute).mpr
            ⟨error, restored⟩⟩
    · cases calls

end Handlers

/-- An SDK without a seed: no key can be derived. -/
def Sdk.seedless (code : Nat) : Sdk :=
  { Sdk.plain with deriveNode := fun _ => .error code }

/-- Without a seed the first input fails. -/
theorem seedless_fails (code : Nat) {called : Device}
    (declared : called.signTxnContext.txn.inNum = 1) :
    FailsAt (Sdk.seedless code) called 0 code where
  declared := by
    rw [declared]
    exact Nat.one_pos
  inside := by decide
  earlier := ⟨[], by rw [Cells.read_zero]; rfl⟩
  raises := rfl

/-- The sample session up to its inner hash, with an SDK that raises the code of `TXN_ERROR`. -/
theorem failure_contained_iff_sample : ∃ device after : Device,
    run (Sdk.seedless txnError) Device.boot (timedSession.take 4) = .ok device ∧
      step (Sdk.seedless txnError) device (.apdu (signApdu 1 [] (by decide))) = .ok after ∧
        Contained device after := by
  have ends : Runs.Ends (fun device : Device => device.signTxnContext.initialized = true ∧
      device.signTxnContext.txnState = .computeSigs ∧ device.signTxnContext.txn.inNum = 1 ∧
      u4LE (device.signTxnContext.txn.sigInput.get 0 (by decide)).input 32 =
        pathWord device.getPublicKeyContext.bip44Path 4)
      (run (Sdk.seedless txnError) Device.boot (timedSession.take 4)) := by decide +kernel
  obtain ⟨device, ran, session, state, declared, index⟩ := Runs.exists_of_ends ends
  obtain ⟨asked, later⟩ := asksToSign_signApdu device 1 [] (by decide)
  have calls : device.resumedBy (.apdu (signApdu 1 [] (by decide))) = some (device.loaded _) :=
    resumedBy_command asked session later (by rw [state]; rfl)
  have fails : FailsAt (Sdk.seedless txnError)
      (device.loaded (signApdu 1 [] (by decide))) 0 txnError := seedless_fails txnError declared
  obtain ⟨after, stepped, contained⟩ :=
    (failure_contained_iff calls state fails).mpr ⟨rfl, index⟩
  exact ⟨device, after, ran, stepped, contained⟩

/-- The sample session with an SDK that raises `0x6F00` at the first input: the answer is a success,
and the session goes on. -/
theorem failure_can_spread : ¬ ∀ (sdk : Sdk) (inputs : List Input) (device called : Device)
    (input : Input) (i code : Nat), run sdk Device.boot inputs = .ok device →
      device.resumedBy input = some called →
        called.signTxnContext.txnState = .computeSigs → code ≠ 0 → FailsAt sdk called i code →
          ∃ after, step sdk device input = .ok after ∧ Contained device after := by
  have ends : Runs.Ends (fun device : Device => device.signTxnContext.initialized = true ∧
      device.signTxnContext.txnState = .computeSigs ∧ device.signTxnContext.txn.inNum = 1)
      (run (Sdk.seedless 0x6F00) Device.boot (timedSession.take 4)) := by decide +kernel
  obtain ⟨device, ran, session, state, declared⟩ := Runs.exists_of_ends ends
  obtain ⟨asked, p1⟩ := asksToSign_signApdu device 1 [] (by decide)
  have later : device.p1 (signApdu 1 [] (by decide)) = 1 := p1
  have resumes : device.signTxnContext.txnState.resumedByCommand = true := by
    rw [state]
    rfl
  have fails : FailsAt (Sdk.seedless 0x6F00)
      (device.loaded (signApdu 1 [] (by decide))) 0 0x6F00 := seedless_fails 0x6F00 declared
  intro all
  obtain ⟨after, stepped, contained⟩ := all (Sdk.seedless 0x6F00) _ device _ _ 0 0x6F00 ran
    (resumedBy_command asked session later resumes) state (by decide) fails
  obtain ⟨table, counter, derived, thrown⟩ := fails.thrown state
  rw [step_signs _ asked, if_pos session, if_pos later, if_pos resumes, resumeByCommand,
    thrown] at stepped
  obtain ⟨answered, result, rfl⟩ := map_ok stepped
  have error := (((handleSignTxnResult_result result).contained_iff session
    (signedBy_mute _ table counter derived (resumedBy_mute
      (resumedBy_command asked session later resumes)))).mp contained).1
  exact absurd error (by decide)

end LedgerNano
