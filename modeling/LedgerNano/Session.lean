/-
This file follows a signing session through a run.

The log tells how far a session has got (`progressOf`). While a session is open its
context is in one of two phases: it has read exactly those elements (`Tracks`), or it
has read all of them and is signing (`SignsFor`). `step_session` keeps this over every
input, `txnNextElem_resumes` says what a call of the parser does in each phase.
-/

import LedgerNano.Library.Logs
import LedgerNano.Moves
import LedgerNano.Refinement
import LedgerNano.Signatures

namespace LedgerNano

/-! ### The log of a session -/

/-- How far the last session of a log has got. -/
def progressOf : List Event → Progress :=
  Logs.read .startIn fun
    | .sessionStart => some fun _ _ => .startIn
    | .element bytes => some fun _ progress => progress.next bytes
    | _ => none

/-- The elements of the last session of a log, in their order. -/
def elementsOf : List Event → List Bytes :=
  Logs.read [] fun
    | .sessionStart => some fun _ _ => []
    | .element bytes => some fun _ elements => elements ++ [bytes]
    | _ => none

theorem progressOf_element (bytes : Bytes) (past : List Event) :
    progressOf (.element bytes :: past) = (progressOf past).next bytes := rfl

theorem progressOf_prepared (output : TxnOutput) (past : List Event) :
    progressOf (.prepared output :: past) = progressOf past := rfl

theorem progressOf_reply (bytes : Bytes) (past : List Event) :
    progressOf (.reply bytes :: past) = progressOf past := rfl

/-- Taking elements is taking them one after the other. -/
theorem progressOf_elements (records : List Bytes) (past : List Event) :
    progressOf ((records.map Event.element).reverse ++ past) =
      records.foldl Progress.next (progressOf past) :=
  Logs.read_reverse_fold (fun _ => rfl) records past

theorem progressOf_derive (derived : List (List Nat)) (past : List Event) :
    progressOf (derived.map Event.derive ++ past) = progressOf past :=
  Logs.read_map (fun _ => rfl) derived past

theorem elementsOf_elements (records : List Bytes) (past : List Event) :
    elementsOf ((records.map Event.element).reverse ++ past) = elementsOf past ++ records := by
  have folds : elementsOf ((records.map Event.element).reverse ++ past) =
      records.foldl (fun elements record => elements ++ [record]) (elementsOf past) :=
    Logs.read_reverse_fold (fun _ => rfl) records past
  rw [folds, List.foldl_append_eq_append, ← List.flatMap_def, List.flatMap_singleton']

theorem elementsOf_derive (derived : List (List Nat)) (past : List Event) :
    elementsOf (derived.map Event.derive ++ past) = elementsOf past :=
  Logs.read_map (fun _ => rfl) derived past

/-! ### The two phases -/

/-- All inputs and outputs that were declared have been read. -/
def Progress.Whole (progress : Progress) : Prop :=
  progress = .txnOut progress.inputs.length progress.inputs progress.outputs.length progress.outputs

/-- A context in a signing state, with all elements of the progress read. -/
structure SignsFor (sdk : Sdk) (progress : Progress) (ctx : SignTxnContext) : Prop where
  state : ctx.txnState = .computeSigs ∨
    ctx.txnState = .retSigs ∧ ctx.currObj < ctx.txn.inNum
  whole : progress.Whole
  declared : ctx.txn.inNum = progress.inputs.length
  positive : 0 < ctx.txn.inNum
  inside : ctx.txn.inNum ≤ maxInputs
  small : ctx.currObj < 2 ^ 8
  hash : progress.outputs ≠ [] → ctx.txn.innerHash = sdk.sha256 progress.hashed

/-- A context of an open session. -/
def InSession (sdk : Sdk) (progress : Progress) (ctx : SignTxnContext) : Prop :=
  Tracks sdk progress ctx ∨ SignsFor sdk progress ctx

/-- What every run keeps. -/
structure SessionInvariant (sdk : Sdk) (device : Device) : Prop where
  loaded : device.signTxnContext.Loaded
  session : device.signTxnContext.initialized = true →
    InSession sdk (progressOf device.log) device.signTxnContext

section Phases

variable {sdk : Sdk} {progress : Progress} {ctx : SignTxnContext}

/-- Once the last output is read the session signs. -/
theorem ReadyFor.signsFor (ready : ReadyFor sdk progress ctx) : SignsFor sdk progress ctx := by
  obtain ⟨finished, before, tracks, rfl⟩ := ready
  cases progress with
  | startIn => exact absurd finished id
  | txnIn => exact absurd finished id
  | startOut => exact absurd finished id
  | txnOut inNum inputs outNum outputs =>
    obtain ⟨⟨declared, all, positive, inside⟩, ⟨outDeclared, counter, bound⟩, hash, _⟩ :=
      tracks.agrees
    have last : outputs.length % 2 ^ 8 = outNum := finished
    have small : outNum < 2 ^ 8 := last ▸ Nat.mod_lt _ (by decide)
    have few := bound small
    refine ⟨Or.inl rfl, ?_, declared.trans all.symm, ?_, ?_, Nat.two_pow_pos 8, ?_⟩
    · have read : outNum = outputs.length := by omega
      show Progress.txnOut inNum inputs outNum outputs =
        .txnOut inputs.length inputs outputs.length outputs
      rw [read, all]
    · exact lt_of_lt_of_eq positive declared.symm
    · exact le_of_eq_of_le declared inside
    · intro some
      rw [← tracks.hash]
      exact hash some (counter.trans last)

theorem SignsFor.compute (signs : SignsFor sdk progress ctx) :
    SignsFor sdk progress { ctx with txnState := .computeSigs } :=
  ⟨Or.inl rfl, signs.whole, signs.declared, signs.positive, signs.inside, signs.small,
    signs.hash⟩

theorem Tracks.load (tracks : Tracks sdk progress ctx) (dataBuffer dataLength : Nat) :
    Tracks sdk progress { ctx with dataBuffer, dataLength } where
  state := tracks.state
  hash := tracks.hash
  offset := tracks.offset
  stores := tracks.stores
  sizes := tracks.sizes
  agrees := by
    have agrees := tracks.agrees
    cases progress <;> exact agrees

theorem InSession.load (session : InSession sdk progress ctx) (dataBuffer dataLength : Nat) :
    InSession sdk progress { ctx with dataBuffer, dataLength } := by
  rcases session with tracks | signs
  · exact Or.inl (tracks.load dataBuffer dataLength)
  · exact Or.inr ⟨signs.state, signs.whole, signs.declared, signs.positive, signs.inside,
      signs.small, signs.hash⟩

/-- A fresh session has read nothing. -/
theorem tracks_start (state : ctx.txnState = .startIn) (hash : ctx.hash = [])
    (offset : ctx.offset = 0) : Tracks sdk .startIn ctx where
  state := state
  hash := hash
  offset := by
    rw [offset]
    exact Progress.elementSize_pos _
  stores := fun i _ bound => absurd bound (Nat.not_lt_zero i)
  sizes := fun input member => absurd member List.not_mem_nil
  agrees := trivial

end Phases

/-! ### A call of the parser in a session -/

/-- What a call of the parser does, by phase: it reads, it begins to sign, or it returns the next
signatures. -/
inductive Resumed (sdk : Sdk) (progress : Progress) (device : Device) (code : Nat)
    (after : Device) : Prop
  | read (call : Progress.Call) (ctx : SignTxnContext)
      (tracks : Tracks sdk progress device.signTxnContext)
      (calls : progress.call device.signTxnContext.staged
        (device.signTxnContext.pending device.apduBuffer) = some call)
      (called : Called sdk device.apduBuffer call device.signTxnContext.initialized ctx)
      (thrown : code = call.code) (result : after = device.readBy call.records ctx)
      (keepsHash : call.KeepsHash device.signTxnContext ctx)
  | computed (signs : SignsFor sdk progress device.signTxnContext)
      (state : device.signTxnContext.txnState = .computeSigs)
      (computes : Computed sdk device code after)
  | returned (signs : SignsFor sdk progress device.signTxnContext)
      (state : device.signTxnContext.txnState = .retSigs)
      (returns : (device.returned device.batch).afterBatch = (some code, after))

/-- In a session a call of the parser either stores an input past its table, or does what
`Resumed` says. -/
theorem txnNextElem_resumes {sdk : Sdk} {progress : Progress} {device : Device}
    (session : InSession sdk progress device.signTxnContext)
    (loaded : device.signTxnContext.Loaded) :
    (∃ code after, txnNextElem sdk device = .ok (code, after) ∧
      Resumed sdk progress device code after) ∨
    (txnNextElem sdk device = .error .inputTable ∧ Tracks sdk progress device.signTxnContext ∧
      progress.call device.signTxnContext.staged
        (device.signTxnContext.pending device.apduBuffer) = none) := by
  rcases session with tracks | signs
  · have reads := txnNextElem_reads tracks loaded
    cases calls : progress.call device.signTxnContext.staged
        (device.signTxnContext.pending device.apduBuffer) with
    | none =>
      rw [calls] at reads
      exact Or.inr ⟨reads, tracks, rfl⟩
    | some call =>
      rw [calls] at reads
      obtain ⟨ctx, looped, called, keepsHash⟩ := reads
      exact Or.inl ⟨_, _, looped, Resumed.read call ctx tracks calls called rfl rfl keepsHash⟩
  · rcases signs.state with compute | ⟨give, bound⟩
    · obtain ⟨code, after, looped, computes⟩ :=
        txnNextElem_computes sdk device compute signs.inside signs.small
      exact Or.inl ⟨code, after, looped, Resumed.computed signs compute computes⟩
    · obtain ⟨code, after, looped, returns⟩ :=
        txnNextElem_returns sdk device give (Nat.le_of_lt bound) signs.inside
      exact Or.inl ⟨code, after, looped, Resumed.returned signs give returns⟩

/-- The signatures of the inputs in the table, or the first exception the SDK raises at one. -/
def Device.signing (sdk : Sdk) (device : Device) : Except Nat (List SigInput) :=
  (device.signTxnContext.txn.sigInput.read 0 device.signTxnContext.txn.inNum).mapM
    (device.attempt sdk)

/-- What a call of the parser that reads ends with. -/
def Device.reading (device : Device) : Option Nat :=
  ((progressOf device.log).call device.signTxnContext.staged
    (device.signTxnContext.pending device.apduBuffer)).map Progress.Call.code

/-! ### A step of a session -/

section Stepping

variable {sdk : Sdk} {device after : Device}

/-- A right press opens a session or goes on with the open one. -/
theorem SessionInvariant.pressed (invariant : SessionInvariant sdk device) :
    device.pressed.signTxnContext.Loaded ∧
      InSession sdk (progressOf device.pressed.log) device.pressed.signTxnContext := by
  unfold Device.pressed startSession
  by_cases session :
    (device.record (.rightPress device.transactionContext)).signTxnContext.initialized
  · rw [if_pos session]
    exact ⟨invariant.loaded, invariant.session session⟩
  · rw [if_neg session]
    exact ⟨invariant.loaded, Or.inl (tracks_start rfl rfl rfl)⟩

/-- The data of a command lies in the transport buffer. -/
theorem loaded_loaded (device : Device) (apdu : Apdu) :
    (device.loaded apdu).signTxnContext.Loaded := by
  have bound : device.header apdu 4 < 2 ^ 8 := byteAt_lt _ _
  show 5 + device.header apdu 4 ≤ 260
  omega

theorem SessionInvariant.load (invariant : SessionInvariant sdk device) (apdu : Apdu) :
    SessionInvariant sdk (device.loaded apdu) :=
  ⟨loaded_loaded device apdu, fun session => (invariant.session session).load _ _⟩

theorem sendStatus_ok {e : Nat} (sent : sendStatus e device = .ok after) :
    after = (device.reply (exceptionStatus e) device.tx).resetTx ∧
      device.tx + 2 ≤ apduBufferLen := by
  rw [sendStatus, ioExchangeWithCode_eq] at sent
  by_cases fits : device.tx + 2 ≤ apduBufferLen
  · rw [if_pos fits] at sent
    exact ⟨(Except.ok.inj sent).symm, fits⟩
  · rw [if_neg fits] at sent
    cases sent

/-- What an input does to a device that keeps the invariant, when nothing goes wrong in C. -/
inductive Stepped (sdk : Sdk) (device : Device) (input : Input) (after : Device) : Prop
  | answered (apdu : Apdu) (command : input = .apdu apdu) (other : ¬ device.AsksToSign apdu)
      (context : GetPublicKeyContext) (derived : List (List Nat)) (ready : Device)
      (use : PathUse (device.receive apdu) context derived)
      (payload : ready = ((device.receive apdu).used context derived).answer
        (answerOf (device.outcome sdk apdu)).2)
      (fits : ready.tx + 2 ≤ apduBufferLen)
      (result : after = (ready.reply
        (exceptionStatus (answerOf (device.outcome sdk apdu)).1) ready.tx).resetTx)
  | opened (apdu : Apdu) (command : input = .apdu apdu) (asked : device.AsksToSign apdu)
      (closed : device.signTxnContext.initialized = false) (first : device.p1 apdu = 0)
      (result : after = goToTransactionScreen (device.loaded apdu))
  | refused (apdu : Apdu) (command : input = .apdu apdu) (asked : device.AsksToSign apdu)
      (wrong : device.p1 apdu ≠ (if device.signTxnContext.initialized then 1 else 0))
      (result : after = showMessage (device.loaded apdu).endSession.replyError)
  | waits (apdu : Apdu) (command : input = .apdu apdu) (asked : device.AsksToSign apdu)
      (session : device.signTxnContext.initialized = true) (later : device.p1 apdu = 1)
      (state : device.signTxnContext.txnState.resumedByCommand = false)
      (result : after = goToTransactionScreen (device.loaded apdu))
  | resumed (apdu : Apdu) (command : input = .apdu apdu) (asked : device.AsksToSign apdu)
      (session : device.signTxnContext.initialized = true) (later : device.p1 apdu = 1)
      (state : device.signTxnContext.txnState.resumedByCommand = true)
      (code : Nat) (called answered : Device)
      (resumes : Resumed sdk (progressOf (device.loaded apdu).log) (device.loaded apdu) code called)
      (goes : CommandResult sdk called code answered) (result : after = answered.resetTx)
  | cancelled (press : input = .button .left) (screen : device.screen = .transaction)
      (result : after = uiIdle (device.record .leftPress).replyError)
  | pressed (button : Button) (press : input = .button button) (right : button ≠ .left)
      (screen : device.screen = .transaction) (code : Nat) (called : Device)
      (resumes : Resumed sdk (progressOf device.pressed.log) device.pressed code called)
      (goes : PressResult sdk called code after)
  | shows (screen : Screen)
      (elsewhere : input = .addressScreen ∨
        ∃ button, input = .button button ∧ device.screen ≠ .transaction)
      (other : screen = device.screen ∨ screen ≠ .transaction)
      (result : after = { device with screen })

theorem Stepped.ofCommand {apdu : Apdu} (went : Stepped sdk device (.apdu apdu) after)
    (asked : device.AsksToSign apdu) (session : device.signTxnContext.initialized = true)
    (later : device.p1 apdu = 1)
    (state : device.signTxnContext.txnState.resumedByCommand = true) :
    ∃ code called answered,
      Resumed sdk (progressOf (device.loaded apdu).log) (device.loaded apdu) code called ∧
        CommandResult sdk called code answered ∧ after = answered.resetTx := by
  cases went with
  | answered other command notAsked =>
    cases command
    exact absurd asked notAsked
  | opened other command _ closed => exact absurd (session.symm.trans closed) (by decide)
  | refused other command _ wrong =>
    cases command
    rw [session] at wrong
    exact absurd later wrong
  | waits other command _ _ _ outputs => exact absurd (state.symm.trans outputs) (by decide)
  | resumed other command _ _ _ _ code called answered resumes goes result =>
    cases command
    exact ⟨code, called, answered, resumes, goes, result⟩
  | cancelled press => cases press
  | pressed button press => cases press
  | shows screen elsewhere =>
    rcases elsewhere with press | ⟨button, press, _⟩
    · cases press
    · cases press

theorem Stepped.ofPress {button : Button} (went : Stepped sdk device (.button button) after)
    (right : button ≠ .left) (screen : device.screen = .transaction) :
    ∃ code called, Resumed sdk (progressOf device.pressed.log) device.pressed code called ∧
      PressResult sdk called code after := by
  cases went with
  | answered apdu command => cases command
  | opened apdu command => cases command
  | refused apdu command => cases command
  | waits apdu command => cases command
  | resumed apdu command => cases command
  | cancelled press =>
    cases press
    exact absurd rfl right
  | pressed other press _ _ code called resumes goes => exact ⟨code, called, resumes, goes⟩
  | shows shown elsewhere =>
    rcases elsewhere with press | ⟨other, press, elsewhere⟩
    · cases press
    · exact absurd screen elsewhere

/-- A step either calls the parser, on the device `resumedBy` names, or it does not. -/
theorem Stepped.resumedBy {input : Input} (went : Stepped sdk device input after) :
    device.resumedBy input = none ∨ ∃ start code called,
      device.resumedBy input = some start ∧ Resumed sdk (progressOf start.log) start code called ∧
        ((∃ answered, CommandResult sdk called code answered ∧ after = answered.resetTx) ∨
          PressResult sdk called code after) := by
  cases went with
  | answered apdu command other =>
    subst command
    exact Or.inl (if_neg fun all => other all.1)
  | opened apdu command asked closed first result =>
    subst command
    refine Or.inl (if_neg fun all => ?_)
    exact absurd (closed.symm.trans all.2.1) Bool.false_ne_true
  | refused apdu command asked wrong result =>
    subst command
    refine Or.inl (if_neg fun all => wrong ?_)
    rw [all.2.1]
    exact all.2.2.1
  | waits apdu command asked session later state result =>
    subst command
    refine Or.inl (if_neg fun all => ?_)
    exact absurd (state.symm.trans all.2.2.2) Bool.false_ne_true
  | resumed apdu command asked session later state code called answered resumes goes result =>
    subst command
    exact Or.inr ⟨_, code, called, resumedBy_command asked session later state, resumes,
      Or.inl ⟨answered, goes, result⟩⟩
  | cancelled press screen result =>
    subst press
    exact Or.inl (by rw [Device.resumedBy, if_neg fun both => both.1 rfl])
  | pressed button press right screen code called resumes goes =>
    subst press
    exact Or.inr ⟨_, code, called, resumedBy_press right screen, resumes, Or.inr goes⟩
  | shows screen elsewhere other result =>
    rcases elsewhere with rfl | ⟨button, rfl, elsewhere⟩
    · exact Or.inl rfl
    · exact Or.inl (if_neg fun both => elsewhere both.2)

/-- A call of the parser that went well. -/
theorem resumes_of_ok {progress : Progress} {code : Nat} {called : Device}
    (session : InSession sdk progress device.signTxnContext)
    (loaded : device.signTxnContext.Loaded) (looped : txnNextElem sdk device = .ok (code, called)) :
    Resumed sdk progress device code called := by
  rcases txnNextElem_resumes session loaded with ⟨_, _, same, resumes⟩ | ⟨fault, _⟩
  · rw [looped] at same
    cases same
    exact resumes
  · rw [looped] at fault
    cases fault

theorem step_stepped {input : Input} (invariant : SessionInvariant sdk device)
    (stepped : step sdk device input = .ok after) : Stepped sdk device input after := by
  have move := step_move sdk device input
  rw [stepped] at move
  cases move with
  | answered apdu command other context derived use went =>
    obtain ⟨result, fits⟩ := sendStatus_ok went.symm
    exact Stepped.answered apdu command other context derived _ use rfl fits result
  | opened apdu command asked closed first went =>
    exact Stepped.opened apdu command asked closed first (Except.ok.inj went)
  | refused apdu command asked wrong went =>
    exact Stepped.refused apdu command asked wrong (Except.ok.inj went)
  | waits apdu command asked session later state went =>
    exact Stepped.waits apdu command asked session later state (Except.ok.inj went)
  | resumed apdu command asked session later state went =>
    obtain ⟨code, called, answered, looped, goes, result⟩ := resumeByCommand_result went.symm
    have before := invariant.load apdu
    exact Stepped.resumed apdu command asked session later state code called answered
      (resumes_of_ok (before.session session) before.loaded looped) goes result
  | cancelled press screen went =>
    exact Stepped.cancelled press screen (Except.ok.inj went)
  | pressed button press right screen went =>
    obtain ⟨code, called, looped, goes⟩ := resumeByPress_result went.symm
    obtain ⟨loaded, session⟩ := invariant.pressed
    exact Stepped.pressed button press right screen code called
      (resumes_of_ok session loaded looped) goes
  | shows screen elsewhere other went =>
    exact Stepped.shows screen elsewhere other (Except.ok.inj went)

end Stepping

/-! ### Every input keeps the session -/

section Steps

variable {sdk : Sdk} {device after : Device} {code : Nat}

theorem Device.afterBatch_cases {device after : Device} {code : Nat}
    (ended : device.afterBatch = (some code, after)) :
    (device.signTxnContext.currObj = device.signTxnContext.txn.inNum ∧ code = txnFinished ∧
        after = device.endSession) ∨
      (device.signTxnContext.currObj ≠ device.signTxnContext.txn.inNum ∧ code = txnPartial ∧
        after = device) := by
  unfold Device.afterBatch at ended
  by_cases all : device.signTxnContext.currObj = device.signTxnContext.txn.inNum
  · rw [if_pos all] at ended
    cases ended
    exact Or.inl ⟨all, rfl, rfl⟩
  · rw [if_neg all] at ended
    cases ended
    exact Or.inr ⟨all, rfl, rfl⟩

theorem SignsFor.owed {progress : Progress} {ctx : SignTxnContext}
    (signs : SignsFor sdk progress ctx) (state : ctx.txnState = .retSigs) :
    ctx.currObj < ctx.txn.inNum := by
  rcases signs.state with compute | ⟨_, owed⟩
  · rw [compute] at state
    cases state
  · exact owed

/-- A batch holds no more signatures than are left. -/
theorem batch_le_owed (device : Device) :
    device.batch ≤ device.signTxnContext.txn.inNum - device.signTxnContext.currObj :=
  Nat.min_le_left _ _

/-- A session that returned signatures, but not the last one. -/
theorem SignsFor.returned {progress : Progress}
    (signs : SignsFor sdk progress device.signTxnContext)
    (state : device.signTxnContext.txnState = .retSigs)
    (more : (device.returned device.batch).signTxnContext.currObj ≠
      device.signTxnContext.txn.inNum) :
    SignsFor sdk progress (device.returned device.batch).signTxnContext := by
  have owed := signs.owed state
  have batch := batch_le_owed device
  have inside : device.signTxnContext.txn.inNum ≤ 20 := signs.inside
  have counter : (device.returned device.batch).signTxnContext.currObj =
    device.signTxnContext.currObj + device.batch := rfl
  rw [counter] at more
  refine ⟨Or.inr ⟨state, ?_⟩, signs.whole, signs.declared, signs.positive, signs.inside, ?_,
    signs.hash⟩
  · show device.signTxnContext.currObj + device.batch < device.signTxnContext.txn.inNum
    omega
  · rw [counter]
    omega

/-- The phase a call of the parser leaves. The code `TXN_READY` is thrown in the signing phase
only. -/
structure LeftBy (sdk : Sdk) (code : Nat) (device : Device) : Prop where
  loaded : device.signTxnContext.Loaded
  session : device.signTxnContext.initialized = true →
    InSession sdk (progressOf device.log) device.signTxnContext
  signs : device.signTxnContext.initialized = true → code = txnReady →
    SignsFor sdk (progressOf device.log) device.signTxnContext

/-- Returning signatures keeps a signing session. -/
theorem leftBy_afterBatch (device : Device) (loaded : device.signTxnContext.Loaded)
    (signs : SignsFor sdk (progressOf device.log) device.signTxnContext)
    (state : device.signTxnContext.txnState = .retSigs)
    (ended : (device.returned device.batch).afterBatch = (some code, after)) :
    LeftBy sdk code after := by
  rcases Device.afterBatch_cases ended with ⟨_, rfl, rfl⟩ | ⟨more, rfl, rfl⟩
  · exact ⟨loaded, fun session => absurd session Bool.false_ne_true,
      fun session => absurd session Bool.false_ne_true⟩
  · have left := signs.returned state more
    exact ⟨loaded, fun _ => Or.inr left, fun _ _ => left⟩

theorem Resumed.leftBy (resumed : Resumed sdk (progressOf device.log) device code after)
    (loaded : device.signTxnContext.Loaded) : LeftBy sdk code after := by
  cases resumed with
  | read call ctx tracks calls called thrown result =>
    subst thrown result
    have log : progressOf (device.readBy call.records ctx).log = call.progress := by
      rw [Progress.call_progress calls]
      exact progressOf_elements call.records device.log
    have reached := called.reached
    by_cases ready : call.code = txnReady
    · rw [if_pos ready] at reached
      exact ⟨called.loaded, fun _ => Or.inr (log ▸ reached.signsFor),
        fun _ _ => log ▸ reached.signsFor⟩
    · rw [if_neg ready] at reached
      exact ⟨called.loaded, fun _ => Or.inl (log ▸ reached), fun _ same => absurd same ready⟩
  | computed signs state computes =>
    cases computes with
    | raised path table counter derived signed result =>
      subst result
      have log : progressOf (device.startSigning.signedBy path table counter derived).log =
          progressOf device.log := progressOf_derive derived _
      have left : SignsFor sdk (progressOf device.log)
          (device.startSigning.signedBy path table counter derived).signTxnContext :=
        ⟨Or.inl state, signs.whole, signs.declared, signs.positive, signs.inside, signed.small,
          signs.hash⟩
      exact ⟨loaded, fun _ => Or.inr (log ▸ left), fun _ _ => log ▸ left⟩
    | finished signatures derived signed each derivations result returned =>
      subst result
      set signed := device.signed (device.signTxnContext.txn.sigInput.write 0 signatures) derived
      have log : progressOf signed.log = progressOf device.log := progressOf_derive derived _
      have left : SignsFor sdk (progressOf signed.log) signed.signTxnContext := by
        rw [log]
        exact ⟨Or.inr ⟨rfl, signs.positive⟩, signs.whole, signs.declared, signs.positive,
          signs.inside, Nat.two_pow_pos 8, signs.hash⟩
      exact leftBy_afterBatch signed loaded left rfl returned
  | returned signs state returns => exact leftBy_afterBatch device loaded signs state returns

theorem LeftBy.keep (left : LeftBy sdk code device)
    (ctx : after.signTxnContext = device.signTxnContext)
    (log : progressOf after.log = progressOf device.log) : SessionInvariant sdk after where
  loaded := ctx ▸ left.loaded
  session := by
    rw [ctx, log]
    exact left.session

theorem SessionInvariant.keep (invariant : SessionInvariant sdk device)
    (ctx : after.signTxnContext = device.signTxnContext)
    (log : progressOf after.log = progressOf device.log) : SessionInvariant sdk after where
  loaded := ctx ▸ invariant.loaded
  session := by
    rw [ctx, log]
    exact invariant.session

/-- A closed session needs no more than a chunk inside the transport buffer. -/
theorem SessionInvariant.closed (loaded : after.signTxnContext.Loaded)
    (closed : after.signTxnContext.initialized = false) : SessionInvariant sdk after where
  loaded := loaded
  session := fun session => absurd (session.symm.trans closed) (by decide)

/-- Going on after a command keeps the session. -/
theorem CommandResult.keeps {answered : Device} (went : CommandResult sdk device code answered)
    (left : LeftBy sdk code device) : SessionInvariant sdk answered.resetTx := by
  cases went with
  | failed thrown result =>
    subst result
    exact SessionInvariant.closed left.loaded rfl
  | approve thrown result =>
    subst result
    refine left.keep ?_ ?_
    · rw [resetTx_signTxnContext, goToTransactionScreen_signTxnContext,
        prepareOutputApproval_signTxnContext]
    · rw [resetTx_log, goToTransactionScreen_log, prepareOutputApproval_log,
        progressOf_prepared]
  | finished thrown fits result =>
    subst result
    exact SessionInvariant.closed left.loaded rfl
  | more other fits result =>
    subst result
    exact left.keep rfl rfl

/-- Going on after a press keeps the session. -/
theorem PressResult.keeps (went : PressResult sdk device code after)
    (left : LeftBy sdk code device) : SessionInvariant sdk after := by
  cases went with
  | more thrown fits result =>
    subst result
    exact left.keep rfl rfl
  | approve thrown result =>
    subst result
    refine left.keep ?_ ?_
    · rw [prepareOutputApproval_signTxnContext]
    · rw [prepareOutputApproval_log, progressOf_prepared]
  | last thrown fits result =>
    subst result
    refine left.keep ?_ ?_
    · rw [replyOk_signTxnContext, prepareOutputApproval_signTxnContext]
    · rw [replyOk_log, progressOf_reply, prepareOutputApproval_log, progressOf_prepared]
  | ready thrown fits result =>
    subst result
    constructor
    · exact left.loaded
    · rw [replyOk_signTxnContext, answerInnerHash_signTxnContext, replyOk_log, progressOf_reply,
        answerInnerHash_log]
      exact fun session => Or.inr (left.signs session thrown).compute
  | failed thrown result =>
    subst result
    exact SessionInvariant.closed left.loaded rfl
  | silent other result =>
    subst result
    exact left.keep rfl rfl

/-- Every input keeps the session. -/
theorem step_session {input : Input} (invariant : SessionInvariant sdk device)
    (stepped : step sdk device input = .ok after) : SessionInvariant sdk after := by
  cases step_stepped invariant stepped with
  | answered apdu command other context derived ready use payload fits result =>
    subst result payload
    exact invariant.keep rfl (progressOf_derive derived _)
  | opened apdu command asked closed first result =>
    subst result
    exact (invariant.load apdu).keep rfl rfl
  | refused apdu command asked wrong result =>
    subst result
    exact SessionInvariant.closed (loaded_loaded device apdu) rfl
  | waits apdu command asked session later state result =>
    subst result
    exact (invariant.load apdu).keep rfl rfl
  | resumed apdu command asked session later state code called answered resumes goes result =>
    subst result
    exact goes.keeps (resumes.leftBy (invariant.load apdu).loaded)
  | cancelled press screen result =>
    subst result
    exact invariant.keep rfl rfl
  | pressed button press right screen code called resumes goes =>
    exact goes.keeps (resumes.leftBy invariant.pressed.1)
  | shows screen elsewhere other result =>
    subst result
    exact invariant.keep rfl rfl

theorem session_boot (sdk : Sdk) : SessionInvariant sdk Device.boot where
  loaded := Nat.zero_le _
  session := fun session => absurd session Bool.false_ne_true

/-- Every run from the start keeps the session. -/
theorem run_session {inputs : List Input} (ran : run sdk Device.boot inputs = .ok after) :
    SessionInvariant sdk after :=
  Runs.run_invariant (fun _ _ _ invariant _ stepped => step_session invariant stepped)
    (session_boot sdk) (Runs.along_true _ _) ran

end Steps

/-! ### A session to run examples with -/

/-- An input, and an output of one coin. -/
def sampleInput : Bytes := List.replicate 32 7 ++ le32 0

def sampleOutput : Bytes :=
  [0] ++ List.replicate 20 9 ++ le32 1000000 ++ le32 0 ++ List.replicate 8 0

theorem sample_fits : (le32 1 ++ sampleInput ++ le32 1 ++ sampleOutput).length ≤ 255 := by
  decide

/-- A session with one input and one output, from its first command to its signature. -/
def sampleSession : List Input :=
  [.apdu (signApdu 0 (le32 1 ++ sampleInput ++ le32 1 ++ sampleOutput) sample_fits),
    .button .right, .button .right, .apdu (signApdu 1 [] empty_fits)]

end LedgerNano
