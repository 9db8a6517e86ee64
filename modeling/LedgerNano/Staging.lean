/-
This file is about the staging buffer: whether its two helpers, which check nothing, are
called within their bounds, and whether the loop around them ends.

`Helpers` makes the helpers a parameter of the parser. With `Helpers.checked`, which stop at
a call out of bounds, each pass does what it does with the helpers of the source as long as
fewer bytes are staged than the element of the state has (`pass_checked`), and a pass keeps
that (`pass_offsetFits`). `staging_safe` follows it over all runs.
-/

import LedgerNano.InputTable
import LedgerNano.Traces

namespace LedgerNano

/-! ### The parser over its helpers -/

/-- `save_data_to_buffer` and `read_data_to_buffer`. -/
structure Helpers where
  save : Cells Byte 260 → SignTxnContext → Except Fault SignTxnContext
  read : Cells Byte 260 → Nat → SignTxnContext → Except Fault SignTxnContext

/-- Helpers that stop at a call out of bounds: a save of more than 36 bytes, and a read that moves
no byte, moves more bytes than the chunk has, or leaves the buffer. -/
def Helpers.checked : Helpers where
  save apduBuffer ctx :=
    if ctx.dataLength ≤ 36 then .ok (ctx.save apduBuffer) else .error .stagingBuffer
  read apduBuffer bufferSize ctx :=
    let count := bufferSize - ctx.offset
    if 1 ≤ count ∧ count ≤ ctx.dataLength ∧ ctx.offset + count ≤ 37 then
      .ok (ctx.fill apduBuffer bufferSize)
    else
      .error .stagingBuffer

namespace Helpers

variable (helpers : Helpers) (sdk : Sdk) (apduBuffer : Cells Byte 260)

/-- `saveAndThrow` with these helpers. -/
def saveAndThrow (element : Option Bytes) (code : Nat) (ctx : SignTxnContext) :
    Except Fault Reading := do
  let ctx ← helpers.save apduBuffer ctx
  pure { ctx, element, thrown := some code }

/-- `txnStartIn` with these helpers. -/
def txnStartIn (ctx : SignTxnContext) : Except Fault Reading :=
  if ctx.offset + ctx.dataLength < 4 then
    helpers.saveAndThrow apduBuffer none txnPartial ctx
  else do
    let ctx ← helpers.read apduBuffer 4 ctx
    pure { ctx := takeInNum ctx, element := some (ctx.buffer.read 0 4), thrown := none }

/-- `txnIn` with these helpers. -/
def txnIn (ctx : SignTxnContext) : Except Fault Reading :=
  if ctx.offset + ctx.dataLength < 36 then
    helpers.saveAndThrow apduBuffer none txnPartial ctx
  else do
    let ctx ← helpers.read apduBuffer 36 ctx
    if inside : ctx.currObj < maxInputs then
      pure { ctx := takeInput ctx inside, element := some (ctx.buffer.read 0 36), thrown := none }
    else
      .error .inputTable

/-- `txnStartOut` with these helpers. -/
def txnStartOut (ctx : SignTxnContext) : Except Fault Reading :=
  if ctx.dataLength < 4 then
    helpers.saveAndThrow apduBuffer none txnPartial ctx
  else do
    let ctx ← helpers.read apduBuffer 4 ctx
    pure { ctx := takeOutNum ctx, element := some (ctx.buffer.read 0 4), thrown := none }

/-- `txnOut` with these helpers. -/
def txnOut (ctx : SignTxnContext) : Except Fault Reading :=
  if ctx.currObj = ctx.txn.outNum then
    let ctx := { ctx with txnState := .computeSigs, currObj := 0 }
    .ok { ctx, element := none, thrown := some txnReady }
  else if ctx.offset + ctx.dataLength < 37 then
    helpers.saveAndThrow apduBuffer none txnPartial ctx
  else do
    let ctx ← helpers.read apduBuffer 37 ctx
    let output := ctx.buffer.read 0 37
    let ctx := takeOutput sdk ctx
    if ctx.offset + ctx.dataLength < 37 ∧ ctx.txnState ≠ .computeSigs then
      helpers.saveAndThrow apduBuffer (some output) txnPartialOut ctx
    else
      pure { ctx, element := some output, thrown := some txnApproveOut }

/-- `txnNextElemPass` with these helpers. -/
def txnNextElemPass (device : Device) : Except Fault (Option Nat × Device) :=
  let ctx := device.signTxnContext
  match ctx.txnState with
  | .startIn => device.adopt <$> helpers.txnStartIn device.apduBuffer ctx
  | .txnIn => device.adopt <$> helpers.txnIn device.apduBuffer ctx
  | .startOut => device.adopt <$> helpers.txnStartOut device.apduBuffer ctx
  | .txnOut => device.adopt <$> helpers.txnOut sdk device.apduBuffer ctx
  | .computeSigs => computeSigs sdk device
  | .retSigs => retSigs 4 device

end Helpers

/-! ### What is staged -/

/-- The size of the element a state reads. -/
def TxnState.elementSize : TxnState → Option Nat
  | .startIn => some 4
  | .txnIn => some 36
  | .startOut => some 4
  | .txnOut => some 37
  | .computeSigs => none
  | .retSigs => none

/-- In a reading state fewer bytes are staged than its element has. -/
def SignTxnContext.OffsetFits (ctx : SignTxnContext) : Prop :=
  ∀ size, ctx.txnState.elementSize = some size → ctx.offset < size

section Bounds

variable {sdk : Sdk} {apduBuffer : Cells Byte 260} {ctx : SignTxnContext} {size : Nat}

theorem checked_save (short : ctx.dataLength ≤ 36) :
    Helpers.checked.save apduBuffer ctx = saveDataToBuffer apduBuffer ctx := by
  rw [saveDataToBuffer, if_pos (le_trans short (by decide))]
  exact if_pos short

theorem checked_read (offset : ctx.offset < size) (room : size ≤ 37)
    (enough : size - ctx.offset ≤ ctx.dataLength) :
    Helpers.checked.read apduBuffer size ctx = readDataToBuffer apduBuffer size ctx := by
  rw [readDataToBuffer, if_pos ⟨le_of_lt offset, room⟩]
  exact if_pos ⟨by omega, enough, by omega⟩

theorem checked_saveAndThrow (short : ctx.dataLength ≤ 36) (element : Option Bytes) (code : Nat) :
    Helpers.checked.saveAndThrow apduBuffer element code ctx =
      saveAndThrow apduBuffer element code ctx := by
  rw [Helpers.saveAndThrow, checked_save short]
  rfl

theorem checked_txnStartIn (offset : ctx.offset < 4) :
    Helpers.checked.txnStartIn apduBuffer ctx = txnStartIn apduBuffer ctx := by
  unfold Helpers.txnStartIn txnStartIn
  split
  · exact checked_saveAndThrow (by omega) _ _
  · rw [checked_read offset (by decide) (by omega)]

theorem checked_txnIn (offset : ctx.offset < 36) :
    Helpers.checked.txnIn apduBuffer ctx = txnIn apduBuffer ctx := by
  unfold Helpers.txnIn txnIn
  split
  · exact checked_saveAndThrow (by omega) _ _
  · rw [checked_read offset (by decide) (by omega)]

theorem checked_txnStartOut (offset : ctx.offset < 4) :
    Helpers.checked.txnStartOut apduBuffer ctx = txnStartOut apduBuffer ctx := by
  unfold Helpers.txnStartOut txnStartOut
  split
  · exact checked_saveAndThrow (by omega) _ _
  · rw [checked_read offset (by decide) (by omega)]

theorem checked_txnOut (offset : ctx.offset < 37) :
    Helpers.checked.txnOut sdk apduBuffer ctx = txnOut sdk apduBuffer ctx := by
  unfold Helpers.txnOut txnOut
  split
  · rfl
  split
  · exact checked_saveAndThrow (by omega) _ _
  · rw [checked_read offset (by decide) (by omega), readDataToBuffer_eq (le_of_lt offset)
      (by decide)]
    simp only [bind, Except.bind]
    split
    · rename_i short
      exact checked_saveAndThrow (by omega) _ _
    · rfl

/-- Where the staged bytes fit the state, a pass makes no call out of bounds. -/
theorem pass_checked {device : Device} (fits : device.signTxnContext.OffsetFits) :
    Helpers.checked.txnNextElemPass sdk device = txnNextElemPass sdk device := by
  unfold Helpers.txnNextElemPass txnNextElemPass
  cases state : device.signTxnContext.txnState with
  | startIn =>
    simp only [state, checked_txnStartIn (fits 4 (by rw [state]; rfl))]
  | txnIn =>
    simp only [state, checked_txnIn (fits 36 (by rw [state]; rfl))]
  | startOut =>
    simp only [state, checked_txnStartOut (fits 4 (by rw [state]; rfl))]
  | txnOut =>
    simp only [state, checked_txnOut (fits 37 (by rw [state]; rfl))]
  | computeSigs => simp only [state]
  | retSigs => simp only [state]

/-! ### Passes and calls -/

theorem offsetFits_zero (zero : ctx.offset = 0) : ctx.OffsetFits := by
  intro size reads
  rw [zero]
  cases state : ctx.txnState with
  | startIn => rw [state] at reads; cases reads; decide
  | txnIn => rw [state] at reads; cases reads; decide
  | startOut => rw [state] at reads; cases reads; decide
  | txnOut => rw [state] at reads; cases reads; decide
  | computeSigs => rw [state] at reads; cases reads
  | retSigs => rw [state] at reads; cases reads

/-- A pass that does not throw leaves nothing staged. -/
theorem pass_offsetFits {device after : Device} (fits : device.signTxnContext.OffsetFits)
    (went : txnNextElemPass sdk device = .ok (none, after)) :
    after.signTxnContext.OffsetFits := by
  have adopted : ∀ {result : Except Fault Reading}, device.adopt <$> result = .ok (none, after) →
      (∀ reading, result = .ok reading → reading.thrown = none → reading.ctx.offset = 0) →
      after.signTxnContext.OffsetFits := by
    intro result took zero
    obtain ⟨reading, read, same⟩ := map_ok took
    have thrown : reading.thrown = none := (congrArg Prod.fst same).symm
    have left : after = (device.adopt reading).2 := congrArg Prod.snd same
    have ctx : after.signTxnContext = reading.ctx := by
      rw [left]
      unfold Device.adopt Device.logElement
      cases reading.element <;> rfl
    rw [ctx]
    exact offsetFits_zero (zero reading read thrown)
  unfold txnNextElemPass at went
  cases state : device.signTxnContext.txnState with
  | startIn =>
    have offset : device.signTxnContext.offset < 4 := fits 4 (by rw [state]; rfl)
    simp only [state] at went
    refine adopted went fun reading read none => ?_
    by_cases short : device.signTxnContext.offset + device.signTxnContext.dataLength < 4
    · rw [txnStartIn_short short] at read
      cases read
      cases none
    · rw [txnStartIn_takes (le_of_lt offset) short] at read
      cases read
      rfl
  | txnIn =>
    have offset : device.signTxnContext.offset < 36 := fits 36 (by rw [state]; rfl)
    simp only [state] at went
    refine adopted went fun reading read none => ?_
    by_cases short : device.signTxnContext.offset + device.signTxnContext.dataLength < 36
    · rw [txnIn_short short] at read
      cases read
      cases none
    by_cases inside : device.signTxnContext.currObj < maxInputs
    · rw [txnIn_takes (le_of_lt offset) short inside] at read
      cases read
      exact (takeInput_frame _ _).1
    · rw [txnIn_overruns (le_of_lt offset) short (not_lt.mp inside)] at read
      cases read
  | startOut =>
    have offset : device.signTxnContext.offset < 4 := fits 4 (by rw [state]; rfl)
    simp only [state] at went
    refine adopted went fun reading read none => ?_
    by_cases short : device.signTxnContext.dataLength < 4
    · rw [txnStartOut_short short] at read
      cases read
      cases none
    · rw [txnStartOut_takes (le_of_lt offset) short] at read
      cases read
      rfl
  | txnOut =>
    have offset : device.signTxnContext.offset < 37 := fits 37 (by rw [state]; rfl)
    simp only [state] at went
    refine adopted went fun reading read none => ?_
    by_cases last : device.signTxnContext.currObj = device.signTxnContext.txn.outNum
    · rw [txnOut_ready last] at read
      cases read
      cases none
    by_cases short : device.signTxnContext.offset + device.signTxnContext.dataLength < 37
    · rw [txnOut_short last short] at read
      cases read
      cases none
    · rw [txnOut_takes state (le_of_lt offset) last short] at read
      split at read <;> cases read <;> cases none
  | computeSigs =>
    simp only [state] at went
    exact absurd rfl (computeSigs_throws went)
  | retSigs =>
    simp only [state] at went
    exact absurd rfl (retSigs_throws 4 went)

/-- The devices at which the loop of a call begins a pass. -/
inductive LoopHead (sdk : Sdk) (called : Device) : Device → Prop
  | start : LoopHead sdk called called
  | again {head after : Device} (earlier : LoopHead sdk called head)
      (went : txnNextElemPass sdk head = .ok (none, after)) : LoopHead sdk called after

/-- A call of the parser ends, with a code, and none of its passes calls a helper out of bounds. -/
structure CallSafe (sdk : Sdk) (called : Device) : Prop where
  ends : ∃ code after, txnNextElem sdk called = .ok (code, after)
  offsets : ∀ head, LoopHead sdk called head → head.signTxnContext.OffsetFits
  passes : ∀ head, LoopHead sdk called head → ∃ result,
    txnNextElemPass sdk head = .ok result ∧
      Helpers.checked.txnNextElemPass sdk head = .ok result

theorem LoopHead.offsetFits {called head : Device} (fits : called.signTxnContext.OffsetFits)
    (reached : LoopHead sdk called head) : head.signTxnContext.OffsetFits := by
  induction reached with
  | start => exact fits
  | again earlier went inductionHypothesis => exact pass_offsetFits inductionHypothesis went

/-- What is left of the loop at a head ends as the call does. -/
theorem LoopHead.loop {called head : Device} {result : Nat × Device}
    (ends : txnNextElem sdk called = .ok result) (reached : LoopHead sdk called head) :
    ∃ passes, txnNextElemLoop sdk passes head = .ok result := by
  induction reached with
  | start => exact ⟨_, ends⟩
  | again earlier went inductionHypothesis =>
    obtain ⟨passes, looped⟩ := inductionHypothesis
    cases passes with
    | zero => cases looped
    | succ passes =>
      rw [txnNextElemLoop, went] at looped
      exact ⟨passes, looped⟩

theorem callSafe_of_ends {called : Device} (fits : called.signTxnContext.OffsetFits)
    (ends : ∃ code after, txnNextElem sdk called = .ok (code, after)) : CallSafe sdk called := by
  refine ⟨ends, fun head reached => reached.offsetFits fits, fun head reached => ?_⟩
  obtain ⟨code, after, ended⟩ := ends
  obtain ⟨passes, looped⟩ := reached.loop ended
  rw [pass_checked (reached.offsetFits fits)]
  cases passes with
  | zero => cases looped
  | succ passes =>
    rw [txnNextElemLoop] at looped
    cases went : txnNextElemPass sdk head with
    | error fault =>
      rw [went] at looped
      cases looped
    | ok result => exact ⟨result, rfl, rfl⟩

end Bounds

/-! ### Runs -/

/-- An input count that was parsed fits the table. -/
def ParsesFittingCount : Event → List Event → Prop
  | .element bytes, past =>
    (progressOf past).state = .startIn → CountFits (u4LE bytes 0)
  | _, _ => True

instance : ∀ (event : Event) (past : List Event), Decidable (ParsesFittingCount event past)
  | .element _, _ => inferInstanceAs (Decidable (_ → CountFits _))
  | .command _, _ | .reply _, _ | .leftPress, _ | .rightPress _, _ | .sessionStart, _
  | .prepared _, _ | .computeSigs _, _ | .derive _, _ => isTrue trivial

/-- Each input count parsed so far is between 1 and 20. -/
def CountsFit (log : List Event) : Prop :=
  Logs.Always ParsesFittingCount log

instance (log : List Event) : Decidable (CountsFit log) :=
  inferInstanceAs (Decidable (Logs.Always ParsesFittingCount log))

section Runs

variable {sdk : Sdk} {device called after : Device}

/-- The count of the session that is open fits. -/
theorem countFits_of_log {log : List Event} (counts : CountsFit log) {inNum : Nat}
    {inputs : List Bytes} (reading : progressOf log = .txnIn inNum inputs) : CountFits inNum := by
  induction log generalizing inputs with
  | nil => cases reading
  | cons event past inductionHypothesis =>
    obtain ⟨first, later⟩ := Logs.always_cons.mp counts
    cases event with
    | sessionStart => cases reading
    | element bytes =>
      rw [progressOf_element] at reading
      cases before : progressOf past with
      | startIn =>
        rw [before] at reading
        cases reading
        exact first (by rw [before]; rfl)
      | txnIn declared earlier =>
        rw [before, Progress.next] at reading
        split at reading
        · cases reading
        · cases reading
          exact inductionHypothesis later before
      | startOut => rw [before] at reading; cases reading
      | txnOut => rw [before] at reading; cases reading
    | _ => exact inductionHypothesis later reading

theorem Progress.elementSize_state (progress : Progress) :
    progress.state.elementSize = some progress.elementSize := by
  cases progress <;> rfl

theorem Tracks.offsetFits {progress : Progress} {ctx : SignTxnContext}
    (tracks : Tracks sdk progress ctx) : ctx.OffsetFits := by
  intro size reads
  rw [tracks.state, progress.elementSize_state] at reads
  cases reads
  exact tracks.offset

theorem offsetFits_of_signing {ctx : SignTxnContext}
    (signing : ctx.txnState = .computeSigs ∨ ctx.txnState = .retSigs) : ctx.OffsetFits := by
  intro size reads
  rcases signing with state | state <;> rw [state] at reads <;> cases reads

theorem afterBatch_state {code : Nat} (ended : device.afterBatch = (some code, after)) :
    after.signTxnContext.txnState = device.signTxnContext.txnState := by
  rcases Device.afterBatch_cases ended with ⟨_, _, rfl⟩ | ⟨_, _, rfl⟩ <;> rfl

/-- What a call leaves staged fits its state. -/
theorem Resumed.offsetFits {progress : Progress} {code : Nat}
    (resumes : Resumed sdk progress device code called) : called.signTxnContext.OffsetFits := by
  cases resumes with
  | read call ctx tracks calls reads thrown result =>
    subst result
    have reached := reads.reached
    split at reached
    · obtain ⟨_, before, _, same⟩ := reached
      exact offsetFits_of_signing (Or.inl (congrArg SignTxnContext.txnState same))
    · exact reached.offsetFits
  | computed signs state computes =>
    cases computes with
    | raised path table counter derived signed result =>
      subst result
      exact offsetFits_of_signing (Or.inl state)
    | finished signatures derived signed each derivations result returned =>
      subst result
      exact offsetFits_of_signing (Or.inr (afterBatch_state returned))
  | returned signs state returns =>
    exact offsetFits_of_signing (Or.inr ((afterBatch_state returns).trans state))

/-- Only the state and the number of staged bytes count. -/
theorem SignTxnContext.OffsetFits.congr {ctx other : SignTxnContext} (fits : ctx.OffsetFits)
    (state : other.txnState = ctx.txnState) (offset : other.offset = ctx.offset) :
    other.OffsetFits := by
  intro size reads
  rw [offset]
  exact fits size (by rw [← state]; exact reads)

theorem CommandResult.offsetFits {code : Nat} (goes : CommandResult sdk called code after)
    (fits : called.signTxnContext.OffsetFits) : after.signTxnContext.OffsetFits :=
  fits.congr (by rw [goes.frames]) (by rw [goes.frames])

theorem PressResult.offsetFits {code : Nat} (goes : PressResult sdk called code after)
    (fits : called.signTxnContext.OffsetFits) : after.signTxnContext.OffsetFits := by
  by_cases ready : code = txnReady
  · rw [goes.of_ready ready]
    exact offsetFits_of_signing (Or.inl rfl)
  · exact fits.congr (goes.txnState_eq ready) (by rw [goes.frames])

/-- Every input keeps the staged bytes fitting the state, in a session and without one. -/
theorem step_offsetFits {input : Input} (invariant : SessionInvariant sdk device)
    (fits : device.signTxnContext.OffsetFits) (stepped : step sdk device input = .ok after) :
    after.signTxnContext.OffsetFits := by
  cases step_stepped invariant stepped with
  | answered apdu command other context derived ready use payload room result =>
    subst result payload
    exact fits
  | opened apdu command asked closed first result =>
    subst result
    exact fits.congr rfl rfl
  | refused apdu command asked wrong result =>
    subst result
    exact fits.congr rfl rfl
  | waits apdu command asked session later state result =>
    subst result
    exact fits.congr rfl rfl
  | resumed apdu command asked session later state code called answered resumes goes result =>
    subst result
    exact goes.offsetFits resumes.offsetFits
  | cancelled press screen result =>
    subst result
    exact fits
  | pressed button press right screen code called resumes goes =>
    exact goes.offsetFits resumes.offsetFits
  | shows screen elsewhere other result =>
    subst result
    exact fits

/-- What is staged when the parser is called. -/
theorem resumedBy_offsetFits {input : Input} (fits : device.signTxnContext.OffsetFits)
    (calls : device.resumedBy input = some called) : called.signTxnContext.OffsetFits := by
  cases input with
  | addressScreen => cases calls
  | apdu apdu =>
    rw [Device.resumedBy] at calls
    split at calls
    · cases calls
      exact fits.congr rfl rfl
    · cases calls
  | button button =>
    rw [Device.resumedBy] at calls
    split at calls
    · cases calls
      unfold Device.pressed startSession
      split
      · exact fits
      · exact offsetFits_zero rfl
    · cases calls

/-- A call under counts that fit ends. -/
theorem resumedBy_ends {input : Input} (invariant : SessionInvariant sdk device)
    (counts : CountsFit device.log) (calls : device.resumedBy input = some called) :
    ∃ code after, txnNextElem sdk called = .ok (code, after) := by
  have countsCalled : CountsFit called.log := by
    obtain ⟨events, same, each⟩ := resumedBy_extends calls
    rw [CountsFit, same]
    refine (Logs.always_append_iff fun event member past => ?_).mpr counts
    have kind := each event member
    cases event with
    | element => exact absurd kind id
    | _ => trivial
  obtain ⟨loaded, session⟩ : called.signTxnContext.Loaded ∧
      InSession sdk (progressOf called.log) called.signTxnContext := by
    cases input with
    | addressScreen => cases calls
    | apdu apdu =>
      rw [Device.resumedBy] at calls
      split at calls
      · rename_i resumed
        cases calls
        have before := invariant.load apdu
        exact ⟨before.loaded, before.session resumed.2.1⟩
      · cases calls
    | button button =>
      rw [Device.resumedBy] at calls
      split at calls
      · cases calls
        exact invariant.pressed
      · cases calls
  rcases txnNextElem_resumes session loaded with ⟨code, after, looped, _⟩ | ⟨_, tracks, none⟩
  · exact ⟨code, after, looped⟩
  · obtain ⟨state, misfits, _⟩ := (call_overruns_iff tracks loaded).mp none
    rw [tracks.state] at state
    have agrees := tracks.agrees
    cases reading : progressOf called.log with
    | txnIn inNum inputs =>
      rw [reading] at agrees
      rw [agrees.1] at misfits
      exact absurd (countFits_of_log countsCalled reading) misfits
    | startIn => rw [reading] at state; cases state
    | startOut => rw [reading] at state; cases state
    | txnOut => rw [reading] at state; cases state

theorem run_offsetFits {inputs : List Input} (ran : run sdk Device.boot inputs = .ok device) :
    device.signTxnContext.OffsetFits := by
  have both : SessionInvariant sdk device ∧ device.signTxnContext.OffsetFits :=
    Runs.run_invariant (motive := fun device =>
        SessionInvariant sdk device ∧ device.signTxnContext.OffsetFits)
      (fun _ _ _ before _ stepped =>
        ⟨step_session before.1 stepped, step_offsetFits before.1 before.2 stepped⟩)
      ⟨session_boot sdk, offsetFits_zero rfl⟩ (Runs.along_true _ _) ran
  exact both.2

/-- In every run whose parsed input counts are between 1 and 20 the staged bytes fit the state, and
every call of the parser ends without a call of its helpers out of bounds. -/
theorem staging_safe {inputs : List Input} (ran : run sdk Device.boot inputs = .ok device)
    (counts : CountsFit device.log) : device.signTxnContext.OffsetFits ∧
      ∀ input called, device.resumedBy input = some called → CallSafe sdk called := by
  have fits := run_offsetFits ran
  refine ⟨fits, fun input called calls => ?_⟩
  exact callSafe_of_ends (resumedBy_offsetFits fits calls)
    (resumedBy_ends (run_session ran) counts calls)

end Runs

/-- The sample session, where it has read its input count. -/
theorem staging_safe_sample : ∃ device : Device,
    run Sdk.plain Device.boot (sampleSession.take 2) = .ok device ∧
      device.signTxnContext.OffsetFits ∧
      ∀ input called, device.resumedBy input = some called → CallSafe Sdk.plain called := by
  have ends : Runs.Ends (fun device : Device => CountsFit device.log)
      (run Sdk.plain Device.boot (sampleSession.take 2)) := by decide +kernel
  obtain ⟨device, ran, counts⟩ := Runs.exists_of_ends ends
  exact ⟨device, ran, staging_safe ran counts⟩

end LedgerNano
