/-
This file pairs replies with commands: whether each reply is sent while a command waits for
one.

The command handler replies to the command it was called for. The button handler does not
know whether there is one. `RepliesInTurn` is what a press must find, so that it replies to a
command or not at all; `step_oneReply_iff` says so of one input, and `one_reply_iff` that a run
pairs its replies with its commands exactly when all of its presses find that.
-/

import LedgerNano.Traces

namespace LedgerNano

/-! ### Replies in turn -/

/-- A reply is sent while the newest command waits for one. -/
def AnswersCommand : Event → List Event → Prop
  | .reply _, past => waiting past = true
  | _, _ => True

instance : ∀ (event : Event) (past : List Event), Decidable (AnswersCommand event past)
  | .reply _, past => inferInstanceAs (Decidable (waiting past = true))
  | .command _, _ | .leftPress, _ | .rightPress _, _ | .sessionStart, _ | .element _, _
  | .prepared _, _ | .computeSigs _, _ | .derive _, _ => isTrue trivial

/-- Every reply of the log answers a command, and no command is answered twice. -/
def OneReply (log : List Event) : Prop :=
  Logs.Always AnswersCommand log

instance (log : List Event) : Decidable (OneReply log) :=
  inferInstanceAs (Decidable (Logs.Always AnswersCommand log))

/-- The codes to which `transaction_screen_button` replies. -/
def pressReplies (code : Nat) : Prop :=
  code = txnPartial ∨ code = txnPartialOut ∨ code = txnReady ∨ code = txnError

instance (code : Nat) : Decidable (pressReplies code) :=
  inferInstanceAs (Decidable (_ ∨ _))

/-- A press has no reply to send: the parser stops at an output with another one behind it, at the
last signature, or at an exception of the SDK that is none of the parser's codes. -/
def Device.Silent (sdk : Sdk) (called : Device) : Prop :=
  let ctx := called.signTxnContext
  match ctx.txnState with
  | .computeSigs =>
    match called.signing sdk with
    | .ok _ => ctx.txn.inNum ≤ (255 - called.tx) / sigLen
    | .error code => ¬ pressReplies code
  | .retSigs => ctx.txn.inNum - ctx.currObj ≤ (255 - called.tx) / sigLen
  | _ => called.reading = some txnApproveOut

/-- A press on the transaction screen comes while a command waits for a reply, or it is a right one
that has no reply to send. -/
def RepliesInTurn (sdk : Sdk) (device : Device) : Input → Prop
  | .button button => device.screen = .transaction →
      waiting device.log = true ∨ button ≠ .left ∧ device.pressed.Silent sdk
  | _ => True

section Steps

variable {sdk : Sdk} {device called after : Device} {code : Nat}

theorem oneReply_reply {bytes : Bytes} {log : List Event} :
    OneReply (.reply bytes :: log) ↔ OneReply log ∧ waiting log = true :=
  and_comm

theorem oneReply_extends {past log : List Event}
    (longer : Logs.Extends Event.Unspoken past log) : OneReply log ↔ OneReply past := by
  obtain ⟨events, rfl, each⟩ := longer
  refine Logs.always_append_iff fun event member earlier => ?_
  have unspoken := each event member
  cases event with
  | reply => exact absurd unspoken id
  | _ => trivial

theorem oneReply_command {bytes : Bytes} {log : List Event} :
    OneReply (.command bytes :: log) ↔ OneReply log :=
  and_iff_right trivial

/-- The end of a batch is the last one where the reply has room for all that is owed. -/
theorem afterBatch_silent_iff
    (bound : device.signTxnContext.currObj ≤ device.signTxnContext.txn.inNum)
    (ended : (device.returned device.batch).afterBatch = (some code, after)) :
    ¬ pressReplies code ↔
      device.signTxnContext.txn.inNum - device.signTxnContext.currObj ≤
        (255 - device.tx) / sigLen := by
  have counter : (device.returned device.batch).signTxnContext.currObj =
      device.signTxnContext.currObj + min
        (device.signTxnContext.txn.inNum - device.signTxnContext.currObj)
        ((255 - device.tx) / sigLen) := rfl
  have declared : (device.returned device.batch).signTxnContext.txn.inNum =
      device.signTxnContext.txn.inNum := rfl
  rcases Device.afterBatch_cases ended with ⟨all, rfl, _⟩ | ⟨more, rfl, _⟩
  · rw [counter, declared] at all
    exact iff_of_true (by decide) (by omega)
  · rw [counter, declared] at more
    exact iff_of_false (fun silent => silent (by decide)) (by omega)

/-- The parser ends a press without a code to reply to exactly where the press is silent. -/
theorem Resumed.silent_iff (resumes : Resumed sdk (progressOf device.log) device code called) :
    ¬ pressReplies code ↔ device.Silent sdk := by
  cases resumes with
  | read call ctx tracks calls reads thrown result =>
    subst thrown
    have silent : device.Silent sdk ↔ call.code = txnApproveOut := by
      unfold Device.Silent Device.reading
      rw [calls]
      simp only [tracks.state]
      cases progressOf device.log <;> exact Option.some_inj
    rw [silent]
    have takes := Progress.call_takes calls
    cases takes with
    | none codes same waits =>
      rcases codes with ready | partly
      · rw [ready]
        decide
      · rw [partly]
        decide
    | one codes output taken =>
      rcases codes with last | approve
      · rw [last]
        decide
      · rw [approve]
        decide
  | computed signs state computes =>
    unfold Device.Silent
    simp only [state]
    cases computes with
    | raised path table counter derived signed result =>
      have raised : device.signing sdk = .error code := signed.raised code rfl
      simp only [raised]
    | finished signatures derived signed each derivations result returned =>
      have all : device.signing sdk = .ok signatures := each
      simp only [all]
      subst result
      exact afterBatch_silent_iff (Nat.zero_le _) returned
  | returned signs state returns =>
    unfold Device.Silent
    simp only [state]
    exact afterBatch_silent_iff (Nat.le_of_lt (signs.owed state)) returns

/-- What follows the parser in a press replies in turn exactly where a command waits or there is no
reply to send. -/
theorem PressResult.oneReply_iff (goes : PressResult sdk called code after) :
    OneReply after.log ↔ OneReply called.log ∧
      (waiting called.log = true ∨ ¬ pressReplies code) := by
  have prepared : ∀ output, Logs.Extends Event.Unspoken called.log
      (.prepared output :: called.log) := fun _ => (Logs.Extends.refl _).cons trivial
  have replies : pressReplies code →
      ((waiting called.log = true ∨ ¬ pressReplies code) ↔ waiting called.log = true) :=
    fun replies => or_iff_left (not_not.mpr replies)
  cases goes with
  | more thrown fits result =>
    subst result
    rw [replies (Or.inl thrown), replyOk_log, oneReply_reply]
  | approve thrown result =>
    subst result
    rw [prepareOutputApproval_log, oneReply_extends (prepared _)]
    exact (and_iff_left (Or.inr (by rw [thrown]; decide))).symm
  | last thrown fits result =>
    subst result
    rw [replies (Or.inr (Or.inl thrown)), replyOk_log, prepareOutputApproval_log, oneReply_reply,
      oneReply_extends (prepared _), waiting_of_extends (prepared _)]
  | ready thrown fits result =>
    subst result
    rw [replies (Or.inr (Or.inr (Or.inl thrown))), replyOk_log, oneReply_reply,
      answerInnerHash_log]
  | failed thrown result =>
    subst result
    rw [replies (Or.inr (Or.inr (Or.inr thrown))), replyError_log, oneReply_reply,
      endSession_log]
  | silent other result =>
    subst result
    obtain ⟨notPartial, _, notLast, notReady, notError⟩ := other
    refine (and_iff_left (Or.inr ?_)).symm
    rintro (thrown | thrown | thrown | thrown)
    · exact notPartial thrown
    · exact notLast thrown
    · exact notReady thrown
    · exact notError thrown

/-- A command that waits is replied to, if at all. -/
theorem CommandResult.oneReply_iff (goes : CommandResult sdk called code after)
    (waits : waiting called.log = true) : OneReply after.log ↔ OneReply called.log := by
  cases goes with
  | failed thrown result =>
    subst result
    exact oneReply_reply.trans (and_iff_left waits)
  | approve thrown result =>
    subst result
    rw [goToTransactionScreen_log, prepareOutputApproval_log]
    exact oneReply_extends ((Logs.Extends.refl _).cons trivial)
  | finished thrown fits result =>
    subst result
    exact oneReply_reply.trans (and_iff_left waits)
  | more other fits result =>
    subst result
    exact oneReply_reply.trans (and_iff_left waits)

/-- A step replies in turn exactly where its input does. -/
theorem step_oneReply_iff {input : Input} (invariant : SessionInvariant sdk device)
    (stepped : step sdk device input = .ok after) :
    OneReply after.log ↔ OneReply device.log ∧ RepliesInTurn sdk device input := by
  have received : ∀ apdu : Apdu, OneReply (.command apdu.bytes :: device.log) ↔
      OneReply device.log := fun apdu => oneReply_command
  cases step_stepped invariant stepped with
  | answered apdu command other context derived ready use payload fits result =>
    subst command result payload
    have longer : Logs.Extends Event.Unspoken (.command apdu.bytes :: device.log)
        (derived.map Event.derive ++ .command apdu.bytes :: device.log) :=
      (Logs.Extends.refl _).map Event.derive (fun _ => trivial) derived
    rw [resetTx_log, reply_log]
    refine (oneReply_reply.trans (and_iff_left ?_)).trans ?_
    · exact waiting_of_extends longer
    · exact (oneReply_extends longer).trans ((received apdu).trans (and_iff_left trivial).symm)
  | opened apdu command asked closed first result =>
    subst command result
    exact (received apdu).trans (and_iff_left trivial).symm
  | refused apdu command asked wrong result =>
    subst command result
    exact (oneReply_reply.trans (and_iff_left rfl)).trans
      ((received apdu).trans (and_iff_left trivial).symm)
  | waits apdu command asked session later state result =>
    subst command result
    exact (received apdu).trans (and_iff_left trivial).symm
  | resumed apdu command asked session later state code called answered resumes goes result =>
    subst command result
    have longer : Logs.Extends Event.Unspoken (.command apdu.bytes :: device.log) called.log :=
      resumes.unspoken
    rw [resetTx_log, goes.oneReply_iff (waiting_of_extends longer), oneReply_extends longer]
    exact (received apdu).trans (and_iff_left trivial).symm
  | cancelled press screen result =>
    subst press result
    refine oneReply_reply.trans (and_congr (and_iff_right trivial) ?_)
    exact ⟨fun waits _ => Or.inl waits, fun turn => (turn screen).resolve_right fun right =>
      right.1 rfl⟩
  | pressed button press right screen code called resumes goes =>
    subst press
    have longer := (pressed_unspoken device).trans resumes.unspoken
    rw [goes.oneReply_iff, oneReply_extends longer, waiting_of_extends longer, resumes.silent_iff]
    refine and_congr_right fun _ => ⟨fun turn _ => turn.imp_right fun silent => ⟨right, silent⟩,
      fun turn => (turn screen).imp_right And.right⟩
  | shows screen elsewhere other result =>
    subst result
    refine (and_iff_left ?_).symm
    rcases elsewhere with rfl | ⟨button, rfl, elsewhere⟩
    · trivial
    · exact fun screen => absurd screen elsewhere

end Steps

/-- A run pairs its replies with its commands if and only if every press on the transaction screen
comes while a command waits for a reply, or has no reply to send. -/
theorem one_reply_iff {sdk : Sdk} {inputs : List Input} {device : Device}
    (ran : run sdk Device.boot inputs = .ok device) :
    OneReply device.log ↔ Runs.Along (step sdk) (RepliesInTurn sdk) Device.boot inputs := by
  have along : OneReply device.log ↔ OneReply Device.boot.log ∧
      Runs.Along (step sdk) (RepliesInTurn sdk) Device.boot inputs :=
    Runs.run_holds_iff (fun _ _ _ invariant _ stepped => step_session invariant stepped)
      (fun _ _ _ invariant _ stepped => step_oneReply_iff invariant stepped)
      (session_boot sdk) (Runs.along_true _ _) ran
  exact along.trans (and_iff_right trivial)

/-- The session of one input and one output, with a host that waits for each reply and a user who
presses when a command waits. -/
def timedSession : List Input :=
  [.apdu (signApdu 0 (le32 1 ++ sampleInput ++ le32 1 ++ sampleOutput) sample_fits),
    .button .right, .apdu (signApdu 1 [] empty_fits), .button .right,
    .apdu (signApdu 1 [] empty_fits)]

/-- In this session all presses are in turn. -/
theorem one_reply_iff_sample : ∃ device : Device,
    run Sdk.plain Device.boot timedSession = .ok device ∧
      Runs.Along (step Sdk.plain) (RepliesInTurn Sdk.plain) Device.boot timedSession := by
  have ends : Runs.Ends (fun device : Device => OneReply device.log)
      (run Sdk.plain Device.boot timedSession) := by decide +kernel
  obtain ⟨device, ran, paired⟩ := Runs.exists_of_ends ends
  exact ⟨device, ran, (one_reply_iff ran).mp paired⟩

/-- Two right presses in a row: the second one sends the inner hash to no command. -/
theorem reply_can_be_unasked : ¬ ∀ (sdk : Sdk) (inputs : List Input) (device : Device),
    Runs.Along (step sdk) HostWaits Device.boot inputs →
      run sdk Device.boot inputs = .ok device → OneReply device.log := by
  have waits : Runs.Along (step Sdk.plain) HostWaits Device.boot (sampleSession.take 3) := by
    decide +kernel
  have ends : Runs.Ends (fun device : Device => ¬ OneReply device.log)
      (run Sdk.plain Device.boot (sampleSession.take 3)) := by decide +kernel
  obtain ⟨device, ran, unasked⟩ := Runs.exists_of_ends ends
  exact fun all => unasked (all Sdk.plain _ device waits ran)

end LedgerNano
