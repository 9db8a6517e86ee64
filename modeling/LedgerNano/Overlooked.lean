/-
This file is about the outputs a user of the host's script gets to see.

The script cuts a transaction into chunks of 254 bytes and knows nothing of its elements. A command
reads on as long as inputs are due, so the one whose chunk ends with the inputs also reads the first
output, and passes over it where the chunk holds no second one. Where the chunks end follows from
the numbers of inputs and outputs alone, and so does whether the user ever sees the first output
(`script_overlooks_iff`).
-/

import LedgerNano.Counts
import LedgerNano.Presented
import LedgerNano.Recovery

namespace LedgerNano

/-! ### What a session has shown -/

/-- Some of the first outputs were not prepared, and a transaction that was read to its end is the
one that was read. -/
structure Presents (skipped : Nat) (progress : Progress) (log : List Event) : Prop where
  skips : Skips skipped log
  same : progress.Finished → progressOf log = progress

theorem progressOf_ignores_passive : Logs.Ignores Event.Passive progressOf :=
  fun _ past passive => (passive.ignored past).2.2

section Presses

variable {sdk : Sdk} {device called after : Device} {code skipped : Nat} {progress : Progress}
  {past log : List Event}

theorem Presents.quiet (presents : Presents skipped progress past)
    (longer : Logs.Extends Event.Quiet past log) : Presents skipped progress log where
  skips := presents.skips.quiet longer
  same finished := (progressOf_ignores.of_extends longer).trans (presents.same finished)

/-- A call of the parser takes nothing of a transaction that is read to its end. -/
theorem Resumed.keepsFinished (resumes : Resumed sdk (progressOf device.log) device code called)
    (same : progress.Finished → progressOf device.log = progress) (finished : progress.Finished) :
    progressOf called.log = progress := by
  have before := same finished
  cases resumes with
  | read call ctx tracks calls reached thrown result =>
    subst result
    rw [before, Progress.call, if_pos finished] at calls
    cases calls
    exact before
  | computed signs state computes =>
    cases computes with
    | raised path table counter derived signed result =>
      subst result
      exact (progressOf_derive derived _).trans before
    | finished signatures derived signed each derivations result returned =>
      rw [afterBatch_log returned]
      subst result
      exact (progressOf_derive derived _).trans before
  | returned signs state returns =>
    rw [afterBatch_log returns]
    exact before

/-- What a call of the parser that reads ends with. -/
theorem Resumed.readsOn (resumes : Resumed sdk progress device code called)
    (reading : device.signTxnContext.txnState ≠ .computeSigs ∧
      device.signTxnContext.txnState ≠ .retSigs) :
    (code = txnReady ∨ code = txnPartial ∨ code = txnPartialOut ∨ code = txnApproveOut) ∧
      called.signTxnContext.initialized = device.signTxnContext.initialized ∧
        Logs.Extends Event.Unspoken device.log called.log ∧
          (code ≠ txnReady → called.signTxnContext.txnState ≠ .computeSigs ∧
            called.signTxnContext.txnState ≠ .retSigs) := by
  cases resumes with
  | read call ctx tracks calls reached thrown result =>
    subst thrown result
    refine ⟨?_, reached.initialized,
      (Logs.Extends.refl device.log).reverse_map Event.element (fun _ => trivial) call.records,
      fun notReady => ?_⟩
    · cases Progress.call_takes calls with
      | none code same waits =>
        rcases code with same | same
        · exact Or.inl same
        · exact Or.inr (Or.inl same)
      | one code output taken => exact Or.inr (Or.inr code)
    · have after := reached.reached
      rw [if_neg notReady] at after
      show ctx.txnState ≠ _ ∧ ctx.txnState ≠ _
      rw [after.state]
      exact call.progress.state_reading
  | computed signs state computes => exact absurd state reading.1
  | returned signs state returns => exact absurd state reading.2

/-- A reply that is there ends the waiting. -/
theorem awaitReply_replied {turns : Nat} {reply response : Bytes}
    (replied : answerTo device.log = some reply)
    (went : awaitReply sdk turns device = .ok (response, after)) : after = device := by
  cases turns with
  | zero => cases went
  | succ turns =>
    rw [awaitReply, replied] at went
    simp only at went
    obtain ⟨_, _, same⟩ := map_ok went
    exact congrArg Prod.snd same

/-- The presses while the script waits show every output that is read meanwhile. The induction is
on the turns. -/
theorem awaitReply_presents (delivers : sdk.Delivers) (turns : Nat) {device : Device}
    {response : Bytes} (invariant : SessionInvariant sdk device)
    (reading : device.pressed.signTxnContext.txnState ≠ .computeSigs ∧
      device.pressed.signTxnContext.txnState ≠ .retSigs)
    (presents : Presents skipped progress device.pressed.log)
    (asks : answerTo device.log = none)
    (went : awaitReply sdk turns device = .ok (response, after)) :
    SessionInvariant sdk after ∧ Presents skipped progress after.log := by
  induction turns generalizing device with
  | zero => cases went
  | succ turns inductionHypothesis =>
    rw [awaitReply, asks] at went
    simp only at went
    by_cases screen : device.screen = .transaction
    · rw [if_pos screen] at went
      cases stepped : step sdk device (.button .right) with
      | error fault =>
        rw [stepped] at went
        cases went
      | ok next =>
        rw [stepped] at went
        simp only at went
        have sound := step_session invariant stepped
        obtain ⟨code, called, resumes, goes⟩ :=
          (step_stepped invariant stepped).ofPress (by decide) screen
        obtain ⟨codes, session, unspoken, still⟩ := resumes.readsOn reading
        have shown : Presents skipped progress next.log := by
          refine ⟨goes.skips (resumes.handed delivers) presents.skips, fun finished => ?_⟩
          rw [progressOf_ignores_passive.of_extends (passive_of_handler goes.extends)]
          exact resumes.keepsFinished presents.same finished
        have ended : ∀ reply, answerTo next.log = some reply →
            SessionInvariant sdk after ∧ Presents skipped progress after.log := by
          intro reply replied
          rw [awaitReply_replied replied went]
          exact ⟨sound, shown⟩
        cases goes with
        | more thrown fits result =>
          subst result
          exact ended _ rfl
        | approve thrown result =>
          subst result
          have going : (prepareOutputApproval sdk called).signTxnContext.initialized = true := by
            rw [prepareOutputApproval_signTxnContext, session]
            exact pressed_initialized device
          refine inductionHypothesis sound ?_ ?_ ?_ went
          · rw [pressed_going going, record_signTxnContext, prepareOutputApproval_signTxnContext]
            exact still (by rw [thrown]; decide)
          · rw [pressed_going going]
            exact shown.quiet ((Logs.Extends.refl _).cons trivial)
          · have longer : Logs.Extends Event.Unspoken device.log
                (prepareOutputApproval sdk called).log := by
              rw [prepareOutputApproval_log]
              exact ((pressed_unspoken device).trans unspoken).cons trivial
            exact (answerTo_ignores.of_extends longer).trans asks
        | last thrown fits result =>
          subst result
          exact ended _ rfl
        | ready thrown fits result =>
          subst result
          exact ended _ rfl
        | failed thrown result =>
          subst result
          exact ended _ rfl
        | silent other result =>
          rcases codes with same | same | same | same
          · exact absurd same other.2.2.2.1
          · exact absurd same other.1
          · exact absurd same other.2.2.1
          · exact absurd same other.2.1
    · rw [if_neg screen] at went
      cases went

/-! ### A command of the script -/

/-- Only a call that reads hands over an output. -/
theorem Resumed.reading_of_approve (delivers : sdk.Delivers)
    (resumes : Resumed sdk progress device code called) (approve : code = txnApproveOut) :
    device.signTxnContext.txnState ≠ .computeSigs ∧ device.signTxnContext.txnState ≠ .retSigs := by
  have given : ∀ {signed : Device}, signed.afterBatch ≠ (some code, called) := by
    intro signed returned
    rcases Device.afterBatch_cases returned with ⟨_, ended, _⟩ | ⟨_, ended, _⟩
    · exact absurd (approve.symm.trans ended) (by decide)
    · exact absurd (approve.symm.trans ended) (by decide)
  cases resumes with
  | read call ctx tracks calls reached thrown result =>
    rw [tracks.state]
    exact progress.state_reading
  | computed signs state computes =>
    cases computes with
    | raised path table counter derived signed result =>
      exact absurd (signed.raised code rfl) (delivers.mapM_ne_error device _ code)
    | finished signatures derived signed each derivations result returned =>
      exact absurd returned given
  | returned signs state returns => exact absurd returns given

/-- After a command that resumed the parser, the presses until the answer show every output. -/
theorem CommandResult.presents {turns : Nat} {answered : Device} {response : Bytes}
    (goes : CommandResult sdk called code answered) (delivers : sdk.Delivers)
    (resumes : Resumed sdk progress device code called)
    (session : device.signTxnContext.initialized = true) (asks : answerTo device.log = none)
    (sound : SessionInvariant sdk answered.resetTx) {reached : Progress}
    (presents : Presents skipped reached answered.resetTx.log)
    (went : awaitReply sdk turns answered.resetTx = .ok (response, after)) :
    SessionInvariant sdk after ∧ Presents skipped reached after.log := by
  have ended : ∀ reply, answerTo answered.resetTx.log = some reply →
      SessionInvariant sdk after ∧ Presents skipped reached after.log := by
    intro reply replied
    rw [awaitReply_replied replied went]
    exact ⟨sound, presents⟩
  cases goes with
  | failed thrown result =>
    subst result
    exact ended _ rfl
  | approve thrown result =>
    subst result
    obtain ⟨_, kept, unspoken, still⟩ :=
      resumes.readsOn (resumes.reading_of_approve delivers thrown)
    have context : (goToTransactionScreen
        (prepareOutputApproval sdk called)).resetTx.signTxnContext = called.signTxnContext := by
      rw [resetTx_signTxnContext, goToTransactionScreen_signTxnContext,
        prepareOutputApproval_signTxnContext]
    have going : (goToTransactionScreen
        (prepareOutputApproval sdk called)).resetTx.signTxnContext.initialized = true := by
      rw [context, kept]
      exact session
    refine awaitReply_presents delivers turns sound ?_ ?_ ?_ went
    · rw [pressed_going going, record_signTxnContext, context]
      exact still (by rw [thrown]; decide)
    · rw [pressed_going going]
      exact presents.quiet ((Logs.Extends.refl _).cons trivial)
    · have longer : Logs.Extends Event.Unspoken device.log
          (goToTransactionScreen (prepareOutputApproval sdk called)).resetTx.log := by
        rw [resetTx_log, goToTransactionScreen_log, prepareOutputApproval_log]
        exact unspoken.cons trivial
      exact (answerTo_ignores.of_extends longer).trans asks
  | finished thrown fits result =>
    subst result
    exact ended _ rfl
  | more other fits result =>
    subst result
    exact ended _ rfl

/-- A further command of the script shows what is read until it is answered, unless its own chunk
passes over an output. -/
theorem sendToLedger_presents (delivers : sdk.Delivers) {turns : Nat} {data response : Bytes}
    {fits : data.length ≤ 254} (invariant : SessionInvariant sdk device)
    (presents : Presents skipped progress device.log)
    (went : sendToLedger sdk turns 1 data fits device = .ok (response, after)) :
    SessionInvariant sdk after ∧
      Presents (if ShowsOutputs device (.apdu (ledgerApdu 1 data fits)) then skipped else 1)
        progress after.log := by
  obtain ⟨asked, later, _⟩ := ledgerApdu_asks device 1 data fits
  have second : device.p1 (ledgerApdu 1 data fits) = 1 := later
  have loaded : Logs.Extends Event.Quiet device.log
      (device.loaded (ledgerApdu 1 data fits)).log := (Logs.Extends.refl device.log).cons trivial
  rw [sendToLedger] at went
  cases stepped : step sdk device (.apdu (ledgerApdu 1 data fits)) with
  | error fault =>
    rw [stepped] at went
    cases went
  | ok next =>
    rw [stepped] at went
    simp only at went
    have sound := step_session invariant stepped
    have moved := stepped
    rw [step_signs sdk asked] at moved
    by_cases session : device.signTxnContext.initialized = true
    · have skips := (step_skips delivers invariant presents.skips stepped).resolve_right
        fun restarts => Bool.false_ne_true (restarts.1.symm.trans session)
      by_cases state : device.signTxnContext.txnState.resumedByCommand = true
      · obtain ⟨code, called, answered, resumes, goes, result⟩ :=
          (step_stepped invariant stepped).ofCommand asked session second state
        subst result
        refine goes.presents delivers resumes session rfl sound ⟨skips, fun finished => ?_⟩ went
        rw [resetTx_log, progressOf_ignores_passive.of_extends (passive_of_handler goes.extends)]
        exact resumes.keepsFinished (presents.quiet loaded).same finished
      · rw [if_pos session, if_pos second, if_neg state] at moved
        cases moved
        refine awaitReply_presents delivers turns sound ?_ ?_ rfl went
        · have going : (goToTransactionScreen
              (device.loaded (ledgerApdu 1 data fits))).signTxnContext.initialized = true := session
          rw [pressed_going going]
          constructor
          · intro same
            exact state (by rw [show device.signTxnContext.txnState = .computeSigs from same]; rfl)
          · intro same
            exact state (by rw [show device.signTxnContext.txnState = .retSigs from same]; rfl)
        · have going : (goToTransactionScreen
              (device.loaded (ledgerApdu 1 data fits))).signTxnContext.initialized = true := session
          rw [pressed_going going]
          refine Presents.quiet ⟨skips, fun finished => ?_⟩ ((Logs.Extends.refl _).cons trivial)
          exact (presents.quiet loaded).same finished
    · rw [if_neg session, if_neg (by rw [second]; decide)] at moved
      cases moved
      cases turns with
      | zero => cases went
      | succ turns =>
        have log :
            (showMessage (device.loaded (ledgerApdu 1 data fits)).endSession.replyError).log =
              .reply (statusBytes 0x6B0) :: (device.loaded (ledgerApdu 1 data fits)).log := rfl
        have refused := awaitReply_refused sdk turns rfl (by decide) log
        cases refused.symm.trans went

/-- An empty command passes over nothing. -/
theorem showsOutputs_empty (invariant : SessionInvariant sdk device) :
    ShowsOutputs device (.apdu (ledgerApdu 1 [] (Nat.zero_le _))) := by
  obtain ⟨asked, later, pending⟩ := ledgerApdu_asks device 1 [] (Nat.zero_le _)
  by_cases session : device.signTxnContext.initialized = true
  · by_cases state : device.signTxnContext.txnState.resumedByCommand = true
    · refine (showsOutputs_iff asked session later state).mpr ?_
      unfold Device.PassesOutput
      simp only
      rw [pending, List.append_nil]
      rcases invariant.session session with tracks | signs
      · refine not_endsAfterFirstOutput ?_
        have staged : device.signTxnContext.staged.length ≤ device.signTxnContext.offset :=
          List.length_take_le _ _
        have offset := tracks.offset
        have size := Progress.elementSize_le (progressOf device.log)
        show device.signTxnContext.staged.length < 41
        omega
      · have none : bytesToOutputs device.signTxnContext.txnState device.signTxnContext.txn.inNum
            device.signTxnContext.currObj device.signTxnContext.staged = none := by
          rcases signs.state with same | ⟨same, _⟩ <;> rw [same] <;> rfl
        show ¬ EndsAfterFirstOutput (bytesToOutputs device.signTxnContext.txnState
          device.signTxnContext.txn.inNum device.signTxnContext.currObj
          device.signTxnContext.staged) _
        rw [none]
        exact not_endsAfterFirstOutput_none
    · exact showsOutputs_of_idle fun resumes => state resumes.2.2.2
  · exact showsOutputs_of_idle fun resumes => session resumes.2.1

/-- The second loop of the script shows nothing more. -/
theorem fetchRest_presents (delivers : sdk.Delivers) {fuel wanted : Nat} (turns : Nat)
    {device : Device} {ret response : Bytes} (invariant : SessionInvariant sdk device)
    (presents : Presents skipped progress device.log)
    (went : fetchRest sdk fuel wanted 1 turns ret device = .ok (response, after)) :
    Presents skipped progress after.log := by
  induction turns generalizing device ret with
  | zero => cases went
  | succ turns inductionHypothesis =>
    rw [fetchRest] at went
    by_cases more : ret.length < wanted
    · rw [if_pos more] at went
      cases sent : sendToLedger sdk fuel 1 [] (Nat.zero_le _) device with
      | error mishap =>
        rw [sent] at went
        cases went
      | ok result =>
        obtain ⟨given, next⟩ := result
        rw [sent] at went
        obtain ⟨sound, shown⟩ := sendToLedger_presents delivers invariant presents sent
        rw [if_pos (showsOutputs_empty invariant)] at shown
        exact inductionHypothesis sound shown went
    · rw [if_neg more] at went
      cases went
      exact presents

end Presses

/-! ### The chunks of a transaction -/

/-- The command with the chunk at this place passes over an output. -/
def PassesAt (txn : Bytes) (i : Nat) : Prop :=
  (parseWhole (txn.take (254 * i))).state.state.resumedByCommand = true ∧
    (parseWhole (txn.take (254 * i))).state.PassesOutput
      ((parseWhole (txn.take (254 * i))).rest ++ chunkOf txn i)

section Chunks

variable {sdk : Sdk} {txn : Bytes} {device after : Device} {skipped : Nat} {progress : Progress}

theorem Device.SentTo.shows_iff {i : Nat} (sent : device.SentTo sdk txn i) :
    ShowsOutputs device (.apdu (ledgerApdu 1 (chunkOf txn i) (length_chunkOf txn i))) ↔
      ¬ PassesAt txn i := by
  obtain ⟨asked, later, pending⟩ := ledgerApdu_asks device 1 (chunkOf txn i) (length_chunkOf txn i)
  have state := sent.tracks.state
  by_cases byCommand : device.signTxnContext.txnState.resumedByCommand = true
  · rw [showsOutputs_iff asked sent.session later byCommand]
    have before : (parseWhole (txn.take (254 * i))).state.state ≠ .txnOut := by
      intro same
      rw [state, same] at byCommand
      cases byCommand
    have tracks : Tracks sdk (parseWhole (txn.take (254 * i))).state
        (device.loaded (ledgerApdu 1 (chunkOf txn i) (length_chunkOf txn i))).signTxnContext :=
      sent.tracks.load _ _
    rw [passesOutput_iff tracks before, pending]
    have staged : (device.loaded (ledgerApdu 1 (chunkOf txn i)
        (length_chunkOf txn i))).signTxnContext.staged =
          (parseWhole (txn.take (254 * i))).rest := sent.staged
    rw [staged, PassesAt, ← state]
    exact not_congr (and_iff_right byCommand).symm
  · refine iff_of_true (showsOutputs_of_idle fun resumes => byCommand resumes.2.2.2) ?_
    rw [PassesAt, ← state]
    exact fun passes => byCommand passes.1

/-- Among the chunks from a place on there is one whose command passes over an output. -/
def PassesFrom (txn : Bytes) (i : Nat) : Prop :=
  ∃ j, i ≤ j ∧ 254 * j < txn.length ∧ PassesAt txn j

theorem passesFrom_iff {i : Nat} (more : 254 * i < txn.length) :
    PassesFrom txn i ↔ PassesAt txn i ∨ PassesFrom txn (i + 1) := by
  constructor
  · rintro ⟨j, le, inside, passes⟩
    by_cases same : j = i
    · exact Or.inl (same ▸ passes)
    · exact Or.inr ⟨j, by omega, inside, passes⟩
  · rintro (passes | ⟨j, le, inside, passes⟩)
    · exact ⟨i, le_rfl, more, passes⟩
    · exact ⟨j, by omega, inside, passes⟩

/-- What the loop over the chunks behind the first one shows. The induction is on the turns. -/
theorem sendChunks_presents (delivers : sdk.Delivers) (sends : Sends txn) {fuel : Nat}
    (enough : 300 ≤ fuel) (turns : Nat) {i : Nat} {device : Device} {skipped : Nat} {p1 : Byte}
    {ret response : Bytes} (sent : device.SentTo sdk txn i)
    (invariant : SessionInvariant sdk device) (presents : Presents skipped progress device.log)
    (went : sendChunks sdk fuel txn turns i 1 ret device = .ok (p1, response, after)) :
    SessionInvariant sdk after ∧ (PassesFrom txn i → Presents 1 progress after.log) ∧
      (¬ PassesFrom txn i → Presents skipped progress after.log) := by
  induction turns generalizing i device ret skipped with
  | zero => cases went
  | succ turns inductionHypothesis =>
    rw [sendChunks] at went
    by_cases more : 254 * i < txn.length
    · obtain ⟨leads, ends⟩ := sends.chunk more
      have staged := sends.staged_le more
      have short := length_chunkOf txn i
      obtain ⟨next, answered, waits, _⟩ := send_next sent short leads ends fuel
        (by rw [List.length_append]; omega)
      rw [if_pos more, answered] at went
      simp only at went
      obtain ⟨sound, shown⟩ := sendToLedger_presents delivers invariant presents answered
      rw [passesFrom_iff more]
      by_cases passes : PassesAt txn i
      · rw [if_neg (mt sent.shows_iff.mp (not_not.mpr passes))] at shown
        obtain ⟨last, passed, unpassed⟩ := inductionHypothesis waits sound shown went
        refine ⟨last, fun _ => ?_, fun none => absurd (Or.inl passes) none⟩
        by_cases later : PassesFrom txn (i + 1)
        · exact passed later
        · exact unpassed later
      · rw [if_pos (sent.shows_iff.mpr passes)] at shown
        obtain ⟨last, passed, unpassed⟩ := inductionHypothesis waits sound shown went
        exact ⟨last, fun some => passed (some.resolve_left passes),
          fun none => unpassed fun later => none (Or.inr later)⟩
    · rw [if_neg more] at went
      cases went
      refine ⟨invariant, fun passes => ?_, fun _ => presents⟩
      obtain ⟨j, le, inside, _⟩ := passes
      omega

/-- What the loop over all chunks shows: the first one is read by presses. -/
theorem sendChunks_skips (delivers : sdk.Delivers) (sends : Sends txn) {fuel : Nat} {p1 : Byte}
    {response : Bytes} (closed : device.signTxnContext.initialized = false)
    (enough : txn.length + 300 ≤ fuel)
    (went : sendChunks sdk fuel txn fuel 0 0 [] device = .ok (p1, response, after)) :
    SessionInvariant sdk after ∧ (PassesFrom txn 1 → Skips 1 after.log) ∧
      (¬ PassesFrom txn 1 → Skips 0 after.log) := by
  have some : 0 < txn.length := by
    by_contra none
    have complete := sends.complete
    rw [List.eq_nil_of_length_eq_zero (Nat.eq_zero_of_not_pos none), parseWhole_nil] at complete
    exact complete
  have first : 254 * 0 < txn.length := by
    rw [Nat.mul_zero]
    exact some
  obtain ⟨leads, ends⟩ := sends.chunk first
  rw [Nat.mul_zero, List.take_zero, parseWhole_nil] at leads
  have short := length_chunkOf txn 0
  obtain ⟨turns, rfl⟩ : ∃ turns, fuel = turns + 1 := ⟨fuel - 1, by omega⟩
  obtain ⟨next, answered, waits, _⟩ := send_first closed short leads ends (turns + 1) (by omega)
  rw [sendChunks, if_pos first, answered] at went
  simp only at went
  rw [sendToLedger, takesFirst_of_closed sdk closed] at answered
  simp only at answered
  set shown := goToTransactionScreen (device.loaded (ledgerApdu 0 (chunkOf txn 0) short))
  have invariant : SessionInvariant sdk shown :=
    ⟨loaded_loaded device _, fun session => absurd (closed.symm.trans session) Bool.false_ne_true⟩
  have none : ¬ shown.signTxnContext.initialized = true := by
    intro session
    exact Bool.false_ne_true (closed.symm.trans session)
  have started : shown.pressed.signTxnContext.txnState = .startIn ∧
      Skips 0 shown.pressed.log := by
    unfold Device.pressed startSession
    rw [record_signTxnContext, if_neg none]
    exact ⟨rfl, skips_sessionStart _⟩
  have begins : Presents 0 .startIn shown.pressed.log :=
    ⟨started.2, fun finished => absurd finished id⟩
  obtain ⟨sound, presents⟩ := awaitReply_presents delivers (turns + 1) invariant
    (by rw [started.1]; decide) begins rfl answered
  obtain ⟨last, passed, unpassed⟩ := sendChunks_presents delivers sends (by omega) turns waits sound
    presents went
  exact ⟨last, fun passes => (passed passes).skips, fun none => (unpassed none).skips⟩

end Chunks

/-! ### Where the chunks of a transaction end -/

namespace Progress

/-- Inputs are due. -/
def Early : Progress → Bytes → Prop
  | startIn, bytes => 0 < u4LE bytes 0
  | txnIn inNum inputs, _ => inputs.length < inNum
  | _, _ => False

/-- The bytes up to the count of the outputs. -/
def toOutputs : Progress → Bytes → Nat
  | startIn, bytes => 4 + 36 * u4LE bytes 0
  | txnIn inNum inputs, _ => 36 * (inNum - inputs.length)
  | _, _ => 0

section Early

variable {progress : Progress} {bytes : Bytes}

theorem Early.resumed (early : progress.Early bytes) :
    progress.state.resumedByCommand = true := by
  cases progress with
  | startIn => rfl
  | txnIn => rfl
  | startOut => exact absurd early id
  | txnOut => exact absurd early id

theorem Early.elementSize_le (early : progress.Early bytes) :
    progress.elementSize ≤ progress.toOutputs bytes := by
  cases progress with
  | startIn => exact Nat.le_add_right 4 _
  | txnIn inNum inputs =>
    have due : inputs.length < inNum := early
    show 36 ≤ 36 * (inNum - inputs.length)
    omega
  | startOut => exact absurd early id
  | txnOut => exact absurd early id

theorem Early.incomplete (early : progress.Early bytes) : ¬ progress.Complete := by
  cases progress with
  | txnOut => exact absurd early id
  | _ => exact id

/-- An element of the inputs leaves the rest of them due. -/
theorem Early.next (early : progress.Early bytes) (enough : progress.elementSize ≤ bytes.length) :
    let later := progress.next (bytes.take progress.elementSize)
    let rest := bytes.drop progress.elementSize
    progress.toOutputs bytes = progress.elementSize + later.toOutputs rest ∧
      (later.PassesOutput rest ↔ progress.PassesOutput bytes) ∧
        (later.Early rest ∨ ¬ later.state.resumedByCommand = true ∧ later.toOutputs rest = 0) := by
  intro later rest
  cases progress with
  | startIn =>
    have declared : later = txnIn (u4LE bytes 0) [] := congrArg (txnIn · []) (u4LE_take bytes)
    refine ⟨?_, passesOutput_startIn enough, Or.inl ?_⟩
    · rw [declared]
      rfl
    · rw [declared]
      exact early
  | txnIn inNum inputs =>
    have due : inputs.length < inNum := early
    have passes := (passesOutput_txnIn (Or.inr due) (bytes.take 36) enough).2
    have length : (inputs ++ [bytes.take 36]).length = inputs.length + 1 := List.length_append
    by_cases last : (inputs ++ [bytes.take 36]).length = inNum
    · have taken : later = startOut inNum (inputs ++ [bytes.take 36]) := if_pos last
      refine ⟨?_, passes, Or.inr ?_⟩
      · rw [taken]
        show 36 * (inNum - inputs.length) = 36 + 0
        omega
      · rw [taken]
        exact ⟨Bool.false_ne_true, rfl⟩
    · have taken : later = txnIn inNum (inputs ++ [bytes.take 36]) := if_neg last
      refine ⟨?_, passes, Or.inl ?_⟩
      · rw [taken]
        show 36 * (inNum - inputs.length) = 36 + 36 * (inNum - (inputs ++ [bytes.take 36]).length)
        omega
      · rw [taken]
        show (inputs ++ [bytes.take 36]).length < inNum
        omega
  | startOut => exact absurd early id
  | txnOut => exact absurd early id

end Early

/-- Once the count of the outputs is due no command resumes the parser. -/
theorem late_consume {progress : Progress} (late : ¬ progress.state.resumedByCommand = true)
    (items : Bytes) : ¬ (format.consume progress items).state.state.resumedByCommand = true := by
  refine format.consume_rule (motive := fun reached _ =>
    ¬ reached.state.resumedByCommand = true) late ?_
  intro reached taken record before _ _ _ resumed
  cases reached with
  | startIn => exact before rfl
  | txnIn => exact before rfl
  | startOut => exact Bool.false_ne_true resumed
  | txnOut => exact Bool.false_ne_true resumed

/-- As long as the bytes end among the inputs, a command resumes the parser, and it passes over an
output exactly when it would with all bytes at once. Behind the inputs no command resumes it. -/
theorem consume_early (progress : Progress) (items more : Bytes)
    (early : progress.Early (items ++ more)) :
    (items.length < progress.toOutputs (items ++ more) →
      (format.consume progress items).state.state.resumedByCommand = true ∧
        ((format.consume progress items).state.PassesOutput
            ((format.consume progress items).rest ++ more) ↔
          progress.PassesOutput (items ++ more))) ∧
      (progress.toOutputs (items ++ more) ≤ items.length →
        ¬ (format.consume progress items).state.state.resumedByCommand = true) := by
  induction progress, items using Framing.Format.consume.induct format with
  | case1 progress items holds inductionHypothesis =>
    have size := size_of_incomplete early.incomplete
    have enough : progress.elementSize ≤ items.length := size ▸ holds.2
    obtain ⟨place, passes, later⟩ := early.next
      (enough.trans (by rw [List.length_append]; exact Nat.le_add_right _ _))
    rw [List.take_append_of_le_length enough, List.drop_append_of_le_length enough]
      at place passes later
    have length : (items.drop progress.elementSize).length =
        items.length - progress.elementSize := List.length_drop
    have step : format.next = Progress.next := rfl
    rw [Framing.Format.consume, if_pos holds]
    simp only [size, step] at inductionHypothesis ⊢
    rw [place, ← passes]
    rcases later with due | ⟨late, none⟩
    · obtain ⟨among, behind⟩ := inductionHypothesis due
      exact ⟨fun short => among (by omega), fun long => behind (by omega)⟩
    · refine ⟨fun short => ?_, fun _ => late_consume late _⟩
      omega
  | case2 progress items stop =>
    have size := size_of_incomplete early.incomplete
    have least := early.elementSize_le
    have positive := progress.elementSize_pos
    have short : items.length < progress.elementSize := by
      by_contra long
      exact stop ⟨by omega, by omega⟩
    rw [format.consume_stop stop]
    exact ⟨fun _ => ⟨early.resumed, Iff.rfl⟩, fun long => by omega⟩

end Progress

section Serialized

variable {inputs : List HostInput} {outputs : List HostOutput}

theorem u4LE_drop {bytes : Bytes} {place : Nat} (inside : place ≤ bytes.length) :
    u4LE (bytes.drop place) 0 = u4LE bytes place := by
  have split := u4LE_append (bytes.take place) (bytes.drop place)
  rw [List.take_append_drop, List.length_take, Nat.min_eq_left inside] at split
  exact split.symm

/-- A command passes over an output where its chunk begins among the inputs and ends after the
first output, but before the second one does. -/
theorem passesAt_serialized (someInputs : 1 ≤ inputs.length) (fewInputs : inputs.length ≤ 20)
    (someOutputs : 1 ≤ outputs.length) (fewOutputs : outputs.length ≤ 255) (i : Nat) :
    PassesAt (serializedTransaction inputs outputs) i ↔
      254 * i < 4 + 36 * inputs.length ∧
        45 + 36 * inputs.length ≤
            min (254 * (i + 1)) (8 + 36 * inputs.length + 37 * outputs.length) ∧
          min (254 * (i + 1)) (8 + 36 * inputs.length + 37 * outputs.length) <
            82 + 36 * inputs.length := by
  set txn := serializedTransaction inputs outputs with txnIs
  have total : txn.length = 8 + 36 * inputs.length + 37 * outputs.length :=
    length_serializedTransaction inputs outputs
  have declared : u4LE txn 0 = inputs.length := u4LE_serialized fewInputs
  have front : txn.take (254 * i) ++ chunkOf txn i = txn.take (254 * (i + 1)) := take_chunkOf txn i
  have length : (txn.take (254 * (i + 1))).length =
      min (254 * (i + 1)) (8 + 36 * inputs.length + 37 * outputs.length) := by
    rw [List.length_take, total]
  have count : u4LE (txn.take (254 * (i + 1))) 0 = inputs.length := by
    rw [← declared, u4LE_prefix (List.take_prefix (254 * (i + 1)) txn) (by rw [length]; omega)]
  have early : Progress.startIn.Early (txn.take (254 * i) ++ chunkOf txn i) := by
    show 0 < u4LE (txn.take (254 * i) ++ chunkOf txn i) 0
    rw [front, count]
    exact someInputs
  obtain ⟨among, behind⟩ :=
    Progress.consume_early .startIn (txn.take (254 * i)) (chunkOf txn i) early
  have place : Progress.startIn.toOutputs (txn.take (254 * i) ++ chunkOf txn i) =
      4 + 36 * inputs.length := by
    show 4 + 36 * u4LE (txn.take (254 * i) ++ chunkOf txn i) 0 = _
    rw [front, count]
  rw [place, front] at among
  rw [place] at behind
  have begins : (txn.take (254 * i)).length = min (254 * i) txn.length := List.length_take
  by_cases within : 254 * i < 4 + 36 * inputs.length
  · obtain ⟨resumed, passes⟩ := among (by omega)
    rw [PassesAt, parseWhole, and_iff_right resumed, and_iff_right within]
    refine passes.trans ?_
    show EndsAfterFirstOutput (if 0 < u4LE (txn.take (254 * (i + 1))) 0 then
      some (4 + 36 * u4LE (txn.take (254 * (i + 1))) 0) else none) _ ↔ _
    rw [count, if_pos (show 0 < inputs.length from someInputs)]
    simp only [EndsAfterFirstOutput, Option.mem_some_iff, exists_eq_left', length]
    constructor
    · rintro ⟨first, second, _⟩
      exact ⟨by omega, by omega⟩
    · rintro ⟨first, second⟩
      refine ⟨by omega, by omega, ?_⟩
      have some := (declares_serialized someInputs fewInputs someOutputs fewOutputs).2
      rw [← txnIs, declared] at some
      have outNum := (some (by omega)).1
      have whole : u4LE txn (4 + 36 * inputs.length) =
          u4LE (txn.take (254 * (i + 1))) (4 + 36 * inputs.length) :=
        u4LE_prefix (List.take_prefix (254 * (i + 1)) txn) (by rw [length]; omega)
      rw [whole] at outNum
      rw [u4LE_drop (by rw [length]; omega)]
      exact Nat.pos_iff_ne_zero.mp outNum
  · exact iff_of_false (fun passes => behind (by omega) passes.1) fun both => within both.1

/-- The numbers of inputs and outputs at which a later chunk begins among the inputs and ends right
behind the first output. -/
def FirstOverlooked (inputs outputs : Nat) : Prop :=
  inputs = 12 ∨ inputs = 19 ∨
    outputs = 1 ∧ (7 ≤ inputs ∧ inputs ≤ 11 ∨ 15 ≤ inputs ∧ inputs ≤ 18)

instance (inputs outputs : Nat) : Decidable (FirstOverlooked inputs outputs) :=
  inferInstanceAs (Decidable (_ ∨ _ ∨ _))

theorem passesFrom_serialized (someInputs : 1 ≤ inputs.length) (fewInputs : inputs.length ≤ 20)
    (someOutputs : 1 ≤ outputs.length) (fewOutputs : outputs.length ≤ 255) :
    PassesFrom (serializedTransaction inputs outputs) 1 ↔
      FirstOverlooked inputs.length outputs.length := by
  have passes := passesAt_serialized someInputs fewInputs someOutputs fewOutputs
  constructor
  · rintro ⟨i, later, _, here⟩
    have place := (passes i).mp here
    rw [FirstOverlooked]
    obtain rfl | rfl : i = 1 ∨ i = 2 := by omega
    · omega
    · omega
  · intro overlooked
    rw [FirstOverlooked] at overlooked
    by_cases second : inputs.length ≤ 12
    · refine ⟨1, le_rfl, ?_, (passes 1).mpr ?_⟩
      · rw [length_serializedTransaction]
        omega
      · omega
    · refine ⟨2, by omega, ?_, (passes 2).mpr ?_⟩
      · rw [length_serializedTransaction]
        omega
      · omega

end Serialized

/-- The record the device makes of an output of the script. -/
def HostOutput.record (output : HostOutput) : TxnOutput := TxnOutput.ofBytes output.serialized

/-- The script ends, and has shown its user the outputs in their order and once each: all of them,
or all but the first where a later chunk passes over that one. -/
theorem sendTxn_prepares {sdk : Sdk} {device : Device} (delivers : sdk.Delivers)
    {inputs : List HostInput} {outputs : List HostOutput} (someInputs : 1 ≤ inputs.length)
    (fewInputs : inputs.length ≤ 20) (someOutputs : 1 ≤ outputs.length)
    (fewOutputs : outputs.length ≤ 255) (closed : device.signTxnContext.initialized = false)
    {fuel : Nat} (enough : (serializedTransaction inputs outputs).length + 300 ≤ fuel) :
    ∃ result after, sendTxn sdk fuel (serializedTransaction inputs outputs) device =
        .ok (result, after) ∧
      (PassesFrom (serializedTransaction inputs outputs) 1 →
        preparedIn after.log = (outputs.map HostOutput.record).drop 1) ∧
      (¬ PassesFrom (serializedTransaction inputs outputs) 1 →
        preparedIn after.log = outputs.map HostOutput.record) := by
  have sends := sends_serialized someInputs fewInputs someOutputs fewOutputs
  obtain ⟨read, chunks, waits, _⟩ := @sendChunks_sends sdk _ device sends closed fuel enough
  obtain ⟨invariant, passed, unpassed⟩ := sendChunks_skips delivers sends closed enough chunks
  rw [(parseWhole_serialized someInputs fewInputs fewOutputs).1] at waits
  have finished : (readTransaction inputs outputs).Finished := by
    show (outputs.map HostOutput.serialized).length % 2 ^ 8 = outputs.length
    rw [List.length_map]
    omega
  obtain ⟨signatures, after, sent, _⟩ := sendTxn_signs delivers someInputs fewInputs someOutputs
    fewOutputs closed enough
  refine ⟨_, after, sent, ?_⟩
  rw [sendTxn] at sent
  obtain ⟨_, chunked, rest⟩ := bind_ok sent
  cases chunks.symm.trans chunked
  obtain ⟨⟨response, last⟩, fetched, same⟩ := bind_ok rest
  have ends : last = after := congrArg Prod.snd (Except.ok.inj same)
  subst ends
  have shows : ∀ skipped, Skips skipped read.log →
      preparedIn last.log = (outputs.map HostOutput.record).drop skipped := by
    intro skipped skips
    have presents : Presents skipped (readTransaction inputs outputs) read.log :=
      ⟨skips, fun _ => waits.log⟩
    have shown := fetchRest_presents delivers fuel invariant presents fetched
    have records : outputsIn last.log = outputs.map HostOutput.record := by
      rw [outputsIn, shown.same finished]
      show (outputs.map HostOutput.serialized).map TxnOutput.ofBytes = _
      rw [List.map_map]
      rfl
    rw [shown.skips.2, records]
  exact ⟨fun passes => shows 1 (passed passes), fun none => shows 0 (unpassed none)⟩

/-- The script shows its user the outputs in their order and once each, all of them or all but the
first; and which of the two is a matter of their number and that of the inputs alone. -/
theorem script_overlooks_iff (sdk : Sdk) (delivers : sdk.Delivers) (inputs : List HostInput)
    (outputs : List HostOutput) (someInputs : 1 ≤ inputs.length) (fewInputs : inputs.length ≤ 20)
    (someOutputs : 1 ≤ outputs.length) (fewOutputs : outputs.length ≤ 255) (device : Device)
    (closed : device.signTxnContext.initialized = false) (fuel : Nat)
    (enough : (serializedTransaction inputs outputs).length + 300 ≤ fuel) :
    ∃ result after, sendTxn sdk fuel (serializedTransaction inputs outputs) device =
        .ok (result, after) ∧
      preparedIn after.log = (outputs.map HostOutput.record).drop
        (if FirstOverlooked inputs.length outputs.length then 1 else 0) := by
  obtain ⟨result, after, sent, passed, unpassed⟩ := sendTxn_prepares delivers someInputs fewInputs
    someOutputs fewOutputs closed enough
  rw [passesFrom_serialized someInputs fewInputs someOutputs fewOutputs] at passed unpassed
  refine ⟨result, after, sent, ?_⟩
  by_cases overlooked : FirstOverlooked inputs.length outputs.length
  · rw [if_pos overlooked]
    exact passed overlooked
  · rw [if_neg overlooked]
    exact unpassed overlooked

/-- Of nine outputs behind twelve inputs the user sees eight. -/
theorem script_overlooks_iff_sample : ∃ result after,
    sendTxn Sdk.plain 1200 (serializedTransaction (List.replicate 12 sampleHostInput)
      (List.replicate 9 sampleHostOutput)) Device.boot = .ok (result, after) ∧
        preparedIn after.log = (List.replicate 8 sampleHostOutput).map HostOutput.record := by
  obtain ⟨result, after, sent, shown⟩ := script_overlooks_iff Sdk.plain
    ⟨fun _ => ⟨_, rfl⟩, fun _ _ => ⟨_, rfl⟩⟩ (List.replicate 12 sampleHostInput)
    (List.replicate 9 sampleHostOutput) (by decide) (by decide) (by decide) (by decide)
    Device.boot rfl 1200 (by rw [length_serializedTransaction]; decide)
  exact ⟨result, after, sent, shown⟩

end LedgerNano
