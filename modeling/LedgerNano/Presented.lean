/-
This file is about which outputs of a session come to the screen, and in which order.

Every output that is read is prepared before the next one is read, with one exception: the first
output of a session, when the chunk of a command passes over it. So the outputs prepared in a
session are those it has read, in their order and once each, or all of these but the first
(`outputs_come_in_order`). The SDK must not raise exceptions here: one that is raised with the code
of `TXN_OUT` while the device signs makes it prepare the last output again.
-/

import LedgerNano.Consent
import LedgerNano.Shown

namespace LedgerNano

/-! ### The outputs of a session -/

/-- The outputs that were prepared in the session a log ends with. -/
def preparedIn : List Event → List TxnOutput :=
  Logs.read [] fun
    | .sessionStart => some fun _ _ => []
    | .prepared output => some fun _ outputs => outputs ++ [output]
    | _ => none

/-- The outputs that were read in it. -/
def outputsIn (log : List Event) : List TxnOutput :=
  (progressOf log).outputs.map TxnOutput.ofBytes

/-- The outputs that were read were prepared in their order, without some of the first. -/
def Skips (skipped : Nat) (log : List Event) : Prop :=
  skipped ≤ (outputsIn log).length ∧ preparedIn log = (outputsIn log).drop skipped

theorem preparedIn_ignores : Logs.Ignores Event.Quiet preparedIn := by
  refine Logs.ignores_read fun event quiet => ?_
  cases event with
  | sessionStart => exact absurd quiet id
  | element => exact absurd quiet id
  | prepared => exact absurd quiet id
  | _ => rfl

theorem preparedIn_elements (records : List Bytes) (past : List Event) :
    preparedIn ((records.map Event.element).reverse ++ past) = preparedIn past :=
  Logs.read_reverse_map (fun _ => rfl) records past

section Skipping

variable {sdk : Sdk} {device called after : Device} {code skipped : Nat} {past log : List Event}

theorem Skips.quiet (skips : Skips skipped past) (longer : Logs.Extends Event.Quiet past log) :
    Skips skipped log := by
  have outputs : outputsIn log = outputsIn past := by
    rw [outputsIn, progressOf_ignores.of_extends longer, outputsIn]
  have prepared : preparedIn log = preparedIn past := preparedIn_ignores.of_extends longer
  rw [Skips, outputs, prepared]
  exact skips

theorem skips_sessionStart (past : List Event) : Skips 0 (.sessionStart :: past) :=
  ⟨Nat.zero_le _, rfl⟩

/-- One more output is read and prepared. -/
theorem Skips.prepared {output : TxnOutput} (skips : Skips skipped past)
    (outputs : outputsIn log = outputsIn past ++ [output])
    (prepared : preparedIn log = preparedIn past ++ [output]) : Skips skipped log := by
  obtain ⟨few, same⟩ := skips
  refine ⟨?_, ?_⟩
  · rw [outputs, List.length_append]
    exact few.trans (Nat.le_add_right _ _)
  · rw [outputs, prepared, same, List.drop_append_of_le_length few]

/-! ### What the parser hands over -/

/-- What a call of the parser leaves to prepare: nothing new, or one output. -/
inductive Handed (past : List Event) (code : Nat) (called : Device) : Prop
  | none (code : code ≠ txnPartialOut ∧ code ≠ txnApproveOut)
      (outputs : outputsIn called.log = outputsIn past)
      (prepared : preparedIn called.log = preparedIn past)
  | one (code : code = txnPartialOut ∨ code = txnApproveOut)
      (outputs : outputsIn called.log = outputsIn past ++ [called.signTxnContext.txn.curOutput])
      (prepared : preparedIn called.log = preparedIn past)

theorem Handed.skips_none (skips : Skips skipped past)
    (outputs : outputsIn called.log = outputsIn past)
    (prepared : preparedIn called.log = preparedIn past) : Skips skipped called.log := by
  rw [Skips, outputs, prepared]
  exact skips

theorem handed_signed (ended : code = txnFinished ∨ code = txnPartial)
    (longer : Logs.Extends Event.Quiet past called.log) : Handed past code called := by
  refine Handed.none ?_ ?_ (preparedIn_ignores.of_extends longer)
  · rcases ended with rfl | rfl <;> decide
  · rw [outputsIn, progressOf_ignores.of_extends longer, outputsIn]

theorem Resumed.handed (delivers : sdk.Delivers)
    (resumes : Resumed sdk (progressOf device.log) device code called) :
    Handed device.log code called := by
  cases resumes with
  | read call ctx tracks calls reached thrown result =>
    subst thrown result
    have log : progressOf (device.readBy call.records ctx).log = call.progress := by
      rw [Progress.call_progress calls]
      exact progressOf_elements call.records device.log
    have prepared : preparedIn (device.readBy call.records ctx).log = preparedIn device.log :=
      preparedIn_elements call.records device.log
    cases Progress.call_takes calls with
    | none code same waits =>
      refine Handed.none ?_ ?_ prepared
      · rcases code with ready | short
        · rw [ready]
          decide
        · rw [short]
          decide
      · rw [outputsIn, log, same, outputsIn]
    | one code output taken =>
      have outputs : call.progress.outputs ≠ [] := by
        rw [taken]
        exact List.append_ne_nil_of_right_ne_nil _ (List.cons_ne_nil _ _)
      have notReady : call.code ≠ txnReady := by
        rcases code with same | same <;> rw [same] <;> decide
      have after := reached.reached
      rw [if_neg notReady] at after
      have current : ctx.txn.curOutput = TxnOutput.ofBytes output := by
        have agrees := after.agrees
        cases progress : call.progress with
        | txnOut inNum inputs outNum read =>
          rw [progress] at agrees taken
          exact agrees.2.2.2 _ _ taken
        | _ =>
          rw [progress] at outputs
          exact absurd rfl outputs
      refine Handed.one code ?_ prepared
      rw [outputsIn, log, taken, List.map_append, outputsIn]
      exact congrArg (fun last => _ ++ [last]) current.symm
  | computed signs state computes =>
    cases computes with
    | raised path table counter derived signed result =>
      exact absurd (signed.raised code rfl) (delivers.mapM_ne_error device _ code)
    | finished signatures derived signed each derivations result returned =>
      have longer : Logs.Extends Event.Quiet device.log called.log := by
        rw [afterBatch_log returned]
        subst result
        exact ((Logs.Extends.refl device.log).cons trivial).map Event.derive (fun _ => trivial)
          derived
      refine handed_signed ?_ longer
      rcases Device.afterBatch_cases returned with ⟨_, ended, _⟩ | ⟨_, ended, _⟩
      · exact Or.inl ended
      · exact Or.inr ended
  | returned signs state returns =>
    have longer : Logs.Extends Event.Quiet device.log called.log := by
      rw [afterBatch_log returns]
      exact Logs.Extends.refl device.log
    refine handed_signed ?_ longer
    rcases Device.afterBatch_cases returns with ⟨_, ended, _⟩ | ⟨_, ended, _⟩
    · exact Or.inl ended
    · exact Or.inr ended

/-- What is prepared after a call of the parser. -/
theorem Handed.approve (handed : Handed past code called) (skips : Skips skipped past)
    (thrown : code = txnApproveOut ∨ code = txnPartialOut) :
    Skips skipped (prepareOutputApproval sdk called).log := by
  rw [prepareOutputApproval_log]
  cases handed with
  | none other =>
    rcases thrown with same | same
    · exact absurd same other.2
    · exact absurd same other.1
  | one code outputs prepared =>
    refine skips.prepared outputs ?_
    show preparedIn called.log ++ [_] = _
    rw [prepared]

/-- The handler of a command prepares the output it is handed, unless it is the last one of the
chunk: then it passes over it. -/
theorem CommandResult.skips (goes : CommandResult sdk called code after)
    (handed : Handed past code called) (skips : Skips skipped past)
    (early : outputsIn past = [] ∨ code ≠ txnPartialOut) :
    Skips (if code = txnPartialOut then 1 else skipped) after.log := by
  by_cases passed : code = txnPartialOut
  · rw [if_pos passed]
    have none := early.resolve_right (not_not.mpr passed)
    cases handed with
    | none other => exact absurd passed other.1
    | one _ outputs prepared =>
      have empty : preparedIn past = [] := by rw [skips.2, none, List.drop_nil]
      have left : Skips 1 called.log := by
        rw [Skips, outputs, prepared, empty, none]
        exact ⟨le_rfl, rfl⟩
      cases goes with
      | failed thrown => exact absurd (passed.symm.trans thrown) (by decide)
      | approve thrown => exact absurd (passed.symm.trans thrown) (by decide)
      | finished thrown => exact absurd (passed.symm.trans thrown) (by decide)
      | more other fits result =>
        subst result
        exact left.quiet ((Logs.Extends.refl called.log).cons trivial)
  · rw [if_neg passed]
    have left : code ≠ txnApproveOut → Skips skipped called.log := by
      intro other
      cases handed with
      | none _ outputs prepared => exact Handed.skips_none skips outputs prepared
      | one code => exact absurd (code.resolve_left passed) other
    cases goes with
    | failed thrown result =>
      subst result
      exact (left (by rw [thrown]; decide)).quiet ((Logs.Extends.refl called.log).cons trivial)
    | approve thrown result =>
      subst result
      rw [goToTransactionScreen_log]
      exact handed.approve skips (Or.inl thrown)
    | finished thrown fits result =>
      subst result
      exact (left (by rw [thrown]; decide)).quiet ((Logs.Extends.refl called.log).cons trivial)
    | more other fits result =>
      subst result
      exact (left other.2.1).quiet ((Logs.Extends.refl called.log).cons trivial)

/-- The button's handler prepares every output it is handed. -/
theorem PressResult.skips (goes : PressResult sdk called code after)
    (handed : Handed past code called) (skips : Skips skipped past) :
    Skips skipped after.log := by
  have left : code ≠ txnPartialOut → code ≠ txnApproveOut → Skips skipped called.log := by
    intro notLast notOut
    cases handed with
    | none _ outputs prepared => exact Handed.skips_none skips outputs prepared
    | one code => exact absurd code (not_or.mpr ⟨notLast, notOut⟩)
  have replied : Logs.Extends Event.Quiet called.log called.replyOk.log := by
    rw [replyOk_log]
    exact (Logs.Extends.refl called.log).cons trivial
  cases goes with
  | more thrown fits result =>
    subst result
    exact (left (by rw [thrown]; decide) (by rw [thrown]; decide)).quiet replied
  | approve thrown result =>
    subst result
    exact handed.approve skips (Or.inl thrown)
  | last thrown fits result =>
    subst result
    have shown := @Handed.approve sdk _ _ _ _ handed skips (Or.inr thrown)
    refine shown.quiet ?_
    rw [replyOk_log]
    exact (Logs.Extends.refl _).cons trivial
  | ready thrown fits result =>
    subst result
    refine (left (by rw [thrown]; decide) (by rw [thrown]; decide)).quiet ?_
    rw [replyOk_log, answerInnerHash_log]
    exact (Logs.Extends.refl _).cons trivial
  | failed thrown result =>
    subst result
    refine (left (by rw [thrown]; decide) (by rw [thrown]; decide)).quiet ?_
    rw [replyError_log]
    exact (Logs.Extends.refl _).cons trivial
  | silent other result =>
    subst result
    exact left other.2.2.1 other.2.1

/-! ### Commands that pass over an output -/

/-- A command hands its handler the last output of the chunk exactly when its bytes end behind the
first output. -/
theorem Resumed.partialOut_iff (delivers : sdk.Delivers)
    (resumes : Resumed sdk (progressOf device.log) device code called)
    (byCommand : device.signTxnContext.txnState.resumedByCommand = true) :
    (code = txnPartialOut ↔ device.PassesOutput) ∧
      (outputsIn device.log = [] ∨ code ≠ txnPartialOut) := by
  have signing : device.signTxnContext.txnState = .computeSigs ∨
      device.signTxnContext.txnState = .retSigs → ¬ device.PassesOutput := by
    intro state
    unfold Device.PassesOutput
    simp only
    rcases state with same | same <;> rw [same] <;> exact not_endsAfterFirstOutput_none
  cases resumes with
  | read call ctx tracks calls reached thrown result =>
    subst thrown
    rw [tracks.state] at byCommand
    have none : (progressOf device.log).outputs = [] ∧
        (progressOf device.log).state ≠ .txnOut ∧ (progressOf device.log).state ≠ .startOut := by
      cases progress : progressOf device.log with
      | startIn => exact ⟨rfl, TxnState.noConfusion, TxnState.noConfusion⟩
      | txnIn => exact ⟨rfl, TxnState.noConfusion, TxnState.noConfusion⟩
      | startOut =>
        rw [progress] at byCommand
        cases byCommand
      | txnOut =>
        rw [progress] at byCommand
        cases byCommand
    obtain ⟨outputs, before, other⟩ := none
    have fewer : (progressOf device.log).FewerThanDeclared := by
      have agrees := tracks.agrees
      cases progress : progressOf device.log with
      | txnIn =>
        rw [progress] at agrees
        exact agrees.2.2.2
      | _ => trivial
    refine ⟨?_, Or.inl (by rw [outputsIn, outputs, List.map_nil])⟩
    rw [passesOutput_iff tracks before]
    exact Progress.call_partialOut_iff calls fewer outputs fun same => absurd same other
  | computed signs state computes =>
    cases computes with
    | raised path table counter derived signed result =>
      exact absurd (signed.raised code rfl) (delivers.mapM_ne_error device _ code)
    | finished signatures derived signed each derivations result returned =>
      have notLast : code ≠ txnPartialOut := by
        rcases Device.afterBatch_cases returned with ⟨_, ended, _⟩ | ⟨_, ended, _⟩ <;>
          rw [ended] <;> decide
      exact ⟨iff_of_false notLast (signing (Or.inl state)), Or.inr notLast⟩
  | returned signs state returns =>
    have notLast : code ≠ txnPartialOut := by
      rcases Device.afterBatch_cases returns with ⟨_, ended, _⟩ | ⟨_, ended, _⟩ <;> rw [ended] <;>
        decide
    exact ⟨iff_of_false notLast (signing (Or.inr state)), Or.inr notLast⟩

/-- A command that does not resume the parser passes over nothing. -/
theorem showsOutputs_of_idle {apdu : Apdu}
    (idle : ¬ (device.AsksToSign apdu ∧ device.signTxnContext.initialized = true ∧
      device.p1 apdu = 1 ∧ device.signTxnContext.txnState.resumedByCommand = true)) :
    ShowsOutputs device (.apdu apdu) := by
  intro resumed member
  rw [Device.resumedBy, if_neg idle] at member
  exact absurd member (Option.not_mem_none resumed)

theorem showsOutputs_iff {apdu : Apdu} (asked : device.AsksToSign apdu)
    (session : device.signTxnContext.initialized = true) (later : device.p1 apdu = 1)
    (state : device.signTxnContext.txnState.resumedByCommand = true) :
    ShowsOutputs device (.apdu apdu) ↔ ¬ (device.loaded apdu).PassesOutput := by
  unfold ShowsOutputs
  simp only [resumedBy_command asked session later state, Option.mem_some_iff, forall_eq']

/-- An input prepares what it reads, or passes over the first output. A press that opens a session
starts over. -/
theorem step_skips (delivers : sdk.Delivers) (invariant : SessionInvariant sdk device)
    {input : Input} (skips : Skips skipped device.log)
    (stepped : step sdk device input = .ok after) :
    Skips (if ShowsOutputs device input then skipped else 1) after.log ∨
      device.signTxnContext.initialized = false ∧ Skips 0 after.log := by
  have same : Logs.Extends Event.Quiet device.log device.log := Logs.Extends.refl device.log
  cases step_stepped invariant stepped with
  | answered apdu command other context derived ready use payload fits result =>
    subst command
    rw [if_pos (showsOutputs_of_idle fun resumes => other resumes.1)]
    refine Or.inl (skips.quiet ?_)
    subst result payload
    have received : Logs.Extends Event.Quiet device.log (.command apdu.bytes :: device.log) :=
      same.cons trivial
    exact (received.map Event.derive (fun _ => trivial) derived).cons trivial
  | opened apdu command asked closed first result =>
    subst command result
    rw [if_pos (showsOutputs_of_idle fun resumes =>
      absurd (closed.symm.trans resumes.2.1) Bool.false_ne_true)]
    exact Or.inl (skips.quiet (same.cons trivial))
  | refused apdu command asked wrong result =>
    subst command result
    refine Or.inl ?_
    rw [if_pos (showsOutputs_of_idle fun resumes => wrong (by
      rw [if_pos resumes.2.1]
      exact resumes.2.2.1))]
    exact skips.quiet
      ((same.cons (show (Event.command apdu.bytes).Quiet from trivial)).cons trivial)
  | waits apdu command asked session later state result =>
    subst command result
    rw [if_pos (showsOutputs_of_idle fun resumes =>
      absurd (state.symm.trans resumes.2.2.2) Bool.false_ne_true)]
    exact Or.inl (skips.quiet (same.cons trivial))
  | resumed apdu command asked session later state code called answered resumes goes result =>
    subst command result
    have loaded : Skips skipped (device.loaded apdu).log := skips.quiet (same.cons trivial)
    obtain ⟨passes, early⟩ := resumes.partialOut_iff delivers state
    have went := goes.skips (resumes.handed delivers) loaded early
    refine Or.inl ?_
    rw [resetTx_log, if_congr (showsOutputs_iff asked session later state) rfl rfl, ite_not,
      ← if_congr passes rfl rfl]
    exact went
  | cancelled press screen result =>
    subst press result
    exact Or.inl (skips.quiet ((same.cons (show Event.leftPress.Quiet from trivial)).cons trivial))
  | pressed button press right screen code called resumes goes =>
    subst press
    have handed := resumes.handed delivers
    by_cases session : device.signTxnContext.initialized = true
    · refine Or.inl (goes.skips handed ?_)
      rw [pressed_going session]
      exact skips.quiet (same.cons trivial)
    · refine Or.inr ⟨Bool.eq_false_of_not_eq_true session, goes.skips handed ?_⟩
      unfold Device.pressed startSession
      rw [record_signTxnContext, if_neg session]
      exact skips_sessionStart _
  | shows screen elsewhere other result =>
    subst result
    rcases elsewhere with none | ⟨button, press, _⟩
    · subst none
      exact Or.inl skips
    · subst press
      exact Or.inl skips

end Skipping

/-- In every run, with an SDK that raises no exception, the outputs prepared in a session are those
it has read, in their order and once each, or all of these but the first; and if no command's chunk
passes over an output, they are all. -/
theorem outputs_come_in_order {sdk : Sdk} {inputs : List Input} {device : Device}
    (delivers : sdk.Delivers) (ran : run sdk Device.boot inputs = .ok device) :
    (∃ skipped ≤ 1, preparedIn device.log = (outputsIn device.log).drop skipped) ∧
      (Runs.Along (step sdk) ShowsOutputs Device.boot inputs →
        preparedIn device.log = outputsIn device.log) := by
  have initial : SessionInvariant sdk Device.boot ∧ Skips 0 Device.boot.log :=
    ⟨session_boot sdk, Nat.zero_le _, rfl⟩
  constructor
  · have skips : SessionInvariant sdk device ∧ ∃ skipped ≤ 1, Skips skipped device.log :=
      Runs.run_invariant (motive := fun reached : Device =>
          SessionInvariant sdk reached ∧ ∃ skipped ≤ 1, Skips skipped reached.log)
        (fun before input after invariant _ stepped => ?_)
        ⟨initial.1, 0, Nat.zero_le _, initial.2⟩ (Runs.along_true Device.boot inputs) ran
    · obtain ⟨skipped, few, _, same⟩ := skips.2
      exact ⟨skipped, few, same⟩
    · obtain ⟨session, skipped, few, skips⟩ := invariant
      refine ⟨step_session session stepped, ?_⟩
      rcases step_skips delivers session skips stepped with next | ⟨_, next⟩
      · refine ⟨_, ?_, next⟩
        split
        · exact few
        · exact le_rfl
      · exact ⟨0, Nat.zero_le _, next⟩
  · intro shows
    have skips : SessionInvariant sdk device ∧ Skips 0 device.log :=
      Runs.run_invariant (motive := fun reached : Device =>
          SessionInvariant sdk reached ∧ Skips 0 reached.log)
        (fun before input after invariant allowed stepped => ?_) initial shows ran
    · exact skips.2.2
    · refine ⟨step_session invariant.1 stepped, ?_⟩
      rcases step_skips delivers invariant.1 invariant.2 stepped with next | ⟨_, next⟩
      · rw [if_pos allowed] at next
        exact next
      · exact next

/-- The output of a session is prepared. -/
theorem outputs_come_in_order_sample : ∃ device,
    run Sdk.plain Device.boot sampleSession = .ok device ∧ (outputsIn device.log).length = 1 ∧
      (∃ skipped ≤ 1, preparedIn device.log = (outputsIn device.log).drop skipped) ∧
        preparedIn device.log = outputsIn device.log := by
  have ends : Runs.Ends (fun device : Device => (outputsIn device.log).length = 1)
      (run Sdk.plain Device.boot sampleSession) := by decide +kernel
  have shows : Runs.Along (step Sdk.plain) ShowsOutputs Device.boot sampleSession := by
    decide +kernel
  obtain ⟨device, ran, one⟩ := Runs.exists_of_ends ends
  obtain ⟨few, all⟩ := outputs_come_in_order ⟨fun _ => ⟨_, rfl⟩, fun _ _ => ⟨_, rfl⟩⟩ ran
  exact ⟨device, ran, one, few, all shows⟩

end LedgerNano
