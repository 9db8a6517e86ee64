/-
This file is about the table of inputs: when a store leaves its `MAX_INPUTS` slots.

The count a transaction declares is compared with the counter of the inputs, and with
nothing else. `step_inputTable_iff` says in lengths when an input makes the parser store
past the table; a run does so exactly when one of its inputs does
(`input_table_kept_iff`).
-/

import LedgerNano.Session

namespace LedgerNano

/-! ### Calls that overrun the table -/

/-- The count of inputs fits the table. -/
def CountFits (count : Nat) : Prop :=
  0 < count ∧ count ≤ maxInputs

instance (count : Nat) : Decidable (CountFits count) :=
  inferInstanceAs (Decidable (_ ∧ _))

namespace Progress

/-- The inputs read so far fit the table and are fewer than a count that is not zero. -/
def Counted : Progress → Prop
  | txnIn inNum inputs => inputs.length ≤ maxInputs ∧ (inNum = 0 ∨ inputs.length < inNum)
  | _ => True

/-- The bytes at hand hold an input for which there is no slot. -/
def HoldsTooMany : Progress → Nat → Prop
  | txnIn inNum inputs, length =>
    ¬ CountFits inNum ∧ 36 * (maxInputs + 1 - inputs.length) ≤ length
  | _, _ => False

theorem not_holdsTooMany {progress : Progress} (other : progress.state ≠ .txnIn) (length : Nat) :
    ¬ progress.HoldsTooMany length := by
  cases progress with
  | txnIn => exact absurd rfl other
  | _ => exact id

/-- An input taken leaves one slot less and one input less. -/
theorem holdsTooMany_next {inNum : Nat} {inputs : List Bytes}
    (counted : Counted (txnIn inNum inputs)) (room : inputs.length < maxInputs) (input : Bytes)
    (length : Nat) (enough : 36 ≤ length) :
    Counted ((txnIn inNum inputs).next input) ∧
      (((txnIn inNum inputs).next input).HoldsTooMany (length - 36) ↔
        (txnIn inNum inputs).HoldsTooMany length) := by
  obtain ⟨_, fewer⟩ := counted
  have bound : inputs.length < 20 := room
  rw [next]
  by_cases last : (inputs ++ [input]).length = inNum
  · rw [if_pos last]
    rw [List.length_append, List.length_singleton] at last
    have fits : CountFits inNum := by
      refine ⟨by omega, ?_⟩
      show inNum ≤ 20
      omega
    exact ⟨trivial, fun tooMany => absurd tooMany id, fun tooMany => absurd fits tooMany.1⟩
  · rw [if_neg last]
    rw [List.length_append, List.length_singleton] at last
    refine ⟨?_, ?_⟩
    · simp only [Counted, maxInputs, List.length_append, List.length_singleton]
      omega
    · simp only [HoldsTooMany, maxInputs, List.length_append, List.length_singleton]
      refine and_congr_right fun _ => ?_
      omega

/-- A call that starts after the first count has no result exactly when the bytes hold too many
inputs. -/
theorem call_eq_none_iff (progress : Progress) (staged pending : Bytes)
    (counted : progress.Counted) (reading : progress.state ≠ .startIn) :
    progress.call staged pending = none ↔
      progress.HoldsTooMany (staged.length + pending.length) := by
  induction progress, staged, pending using call.induct with
  | case1 progress staged pending finished =>
    rw [call, if_pos finished]
    have outputs : progress.state ≠ .txnIn := by
      cases progress with
      | txnIn => exact absurd finished id
      | _ => exact TxnState.noConfusion
    exact ⟨fun none => absurd none (Option.some_ne_none _),
      fun tooMany => absurd tooMany (not_holdsTooMany outputs _)⟩
  | case2 progress staged pending unfinished short =>
    rw [call, if_neg unfinished, if_pos short]
    refine ⟨fun none => absurd none (Option.some_ne_none _), fun tooMany => ?_⟩
    cases progress with
    | txnIn inNum inputs =>
      obtain ⟨_, many⟩ := tooMany
      have bound : inputs.length ≤ 20 := counted.1
      simp only [Short, elementSize, maxInputs] at short many
      omega
    | _ => exact absurd tooMany id
  | case3 progress staged pending unfinished enough overruns =>
    rw [call, if_neg unfinished, if_neg enough, if_pos overruns]
    refine ⟨fun _ => ?_, fun _ => rfl⟩
    cases progress with
    | txnIn inNum inputs =>
      have full : 20 ≤ inputs.length := overruns
      have bound : inputs.length ≤ 20 := counted.1
      have fewer := counted.2
      simp only [Short, elementSize] at enough
      simp only [HoldsTooMany, CountFits, maxInputs]
      omega
    | _ => exact absurd overruns id
  | case4 progress staged pending unfinished enough room outputs =>
    rw [call, if_neg unfinished, if_neg enough, if_neg room]
    simp only [if_pos outputs]
    refine ⟨fun none => absurd none (Option.some_ne_none _),
      fun tooMany => absurd tooMany (not_holdsTooMany ?_ _)⟩
    rw [outputs]
    exact TxnState.noConfusion
  | case5 progress staged pending unfinished enough room record rest earlier inductionHypothesis =>
    rw [call, if_neg unfinished, if_neg enough, if_neg room]
    simp only [if_neg earlier]
    rw [Option.map_eq_none_iff]
    have length : rest.length = staged.length + pending.length - progress.elementSize := by
      rw [List.length_drop, List.length_append]
    rw [List.length_nil, Nat.zero_add, length] at inductionHypothesis
    cases progress with
    | startIn => exact absurd rfl reading
    | txnIn inNum inputs =>
      have size := enough_of_not_short enough
      obtain ⟨fits, same⟩ := holdsTooMany_next counted (not_le.mp room) record _ size
      refine (inductionHypothesis fits ?_).trans same
      rw [next]
      split <;> exact TxnState.noConfusion
    | startOut inNum inputs =>
      exact inductionHypothesis trivial TxnState.noConfusion
    | txnOut => exact absurd rfl earlier

/-- From the start of a session a chunk is too short to hold too many inputs. -/
theorem call_startIn (staged pending : Bytes) (short : staged.length + pending.length < 760) :
    startIn.call staged pending ≠ none := by
  rw [call, if_neg (show ¬ startIn.Finished from id)]
  split
  · exact Option.some_ne_none _
  rw [if_neg (show ¬ startIn.Overruns from id)]
  simp only
  rw [if_neg (show ¬ startIn.state = .txnOut from TxnState.noConfusion), ne_eq,
    Option.map_eq_none_iff]
  show ¬ (txnIn (u4LE _ 0) []).call [] _ = none
  rw [call_eq_none_iff (txnIn (u4LE _ 0) []) _ _ ⟨Nat.zero_le _, Nat.eq_zero_or_pos _⟩
    TxnState.noConfusion]
  rintro ⟨_, many⟩
  simp only [maxInputs, elementSize, List.length_nil, List.length_drop, List.length_append] at many
  omega

end Progress

/-! ### Steps that overrun the table -/

/-- The session reads inputs under a count that does not fit the table, and the staged bytes with
the chunk hold an input for which there is no slot. -/
def Device.OverrunsTable (device : Device) : Prop :=
  device.signTxnContext.txnState = .txnIn ∧ ¬ CountFits device.signTxnContext.txn.inNum ∧
    36 * (maxInputs + 1 - device.signTxnContext.currObj) ≤
      device.signTxnContext.offset + device.signTxnContext.dataLength

section Steps

variable {sdk : Sdk} {device : Device} {progress : Progress}

theorem overrunsTable_iff (tracks : Tracks sdk progress device.signTxnContext) :
    device.OverrunsTable ↔ progress.HoldsTooMany
      (device.signTxnContext.offset + device.signTxnContext.dataLength) := by
  unfold Device.OverrunsTable
  rw [tracks.state]
  cases progress with
  | txnIn inNum inputs =>
    obtain ⟨declared, counter, _⟩ := tracks.agrees
    rw [declared, counter]
    exact and_iff_right rfl
  | _ => exact ⟨fun both => absurd both.1 TxnState.noConfusion, False.elim⟩

/-- The abstract call has no result exactly when the bytes hold too many inputs. -/
theorem call_overruns_iff (tracks : Tracks sdk progress device.signTxnContext)
    (loaded : device.signTxnContext.Loaded) :
    progress.call device.signTxnContext.staged
        (device.signTxnContext.pending device.apduBuffer) = none ↔ device.OverrunsTable := by
  have lengthStaged := SignTxnContext.length_staged _ tracks.offset_le
  have lengthPending := SignTxnContext.length_pending device.apduBuffer loaded
  rw [overrunsTable_iff tracks, ← lengthStaged, ← lengthPending]
  cases progress with
  | startIn =>
    refine ⟨fun none => absurd none (Progress.call_startIn _ _ ?_), False.elim⟩
    have offset := tracks.offset_le
    have inside : device.signTxnContext.dataBuffer + device.signTxnContext.dataLength ≤ 260 :=
      loaded
    omega
  | txnIn inNum inputs =>
    obtain ⟨_, _, room, fewer⟩ := tracks.agrees
    exact Progress.call_eq_none_iff _ _ _ ⟨room, fewer⟩ TxnState.noConfusion
  | startOut => exact Progress.call_eq_none_iff _ _ _ trivial TxnState.noConfusion
  | txnOut => exact Progress.call_eq_none_iff _ _ _ trivial TxnState.noConfusion

/-- A call of the parser stores past the table exactly when the bytes hold too many inputs. -/
theorem txnNextElem_overruns_iff (session : InSession sdk progress device.signTxnContext)
    (loaded : device.signTxnContext.Loaded) :
    txnNextElem sdk device = .error .inputTable ↔ device.OverrunsTable := by
  rcases txnNextElem_resumes session loaded with
    ⟨code, after, looped, resumes⟩ | ⟨fault, tracks, none⟩
  · rw [looped]
    refine ⟨nofun, fun overruns => ?_⟩
    cases resumes with
    | read call ctx tracks calls called thrown result =>
      rw [(call_overruns_iff tracks loaded).mpr overruns] at calls
      cases calls
    | computed signs state computes => exact absurd (overruns.1.symm.trans state) (by decide)
    | returned signs state returns => exact absurd (overruns.1.symm.trans state) (by decide)
  · exact ⟨fun _ => (call_overruns_iff tracks loaded).mp none, fun _ => fault⟩

theorem map_eq_error_iff {Error First Second : Type} {change : First → Second}
    {result : Except Error First} {fault : Error} :
    change <$> result = .error fault ↔ result = .error fault := by
  cases result with
  | error other => exact ⟨fun same => by cases same; rfl, fun same => by cases same; rfl⟩
  | ok first => exact ⟨nofun, nofun⟩

theorem ioExchangeWithCode_ne_inputTable (code tx : Nat) :
    ioExchangeWithCode code tx device ≠ .error .inputTable := by
  rw [ioExchangeWithCode_eq]
  split
  · exact nofun
  · exact nofun

theorem handleSignTxnResult_ne_inputTable (code : Nat) :
    handleSignTxnResult sdk code device ≠ .error .inputTable := by
  have answers : ∀ other : Device, ioAsyncExchangeOk other ≠ .error .inputTable :=
    fun other => ioExchangeWithCode_ne_inputTable _ _
  unfold handleSignTxnResult
  split
  · rw [ne_eq, map_eq_error_iff]
    exact ioExchangeWithCode_ne_inputTable _ _
  split
  · exact nofun
  split
  · exact answers _
  split
  · rw [ne_eq, map_eq_error_iff]
    exact answers _
  · exact answers _

theorem transactionScreenResult_ne_inputTable (code : Nat) :
    transactionScreenResult sdk code device ≠ .error .inputTable := by
  have answers : ∀ other : Device, ioAsyncExchangeOk other ≠ .error .inputTable :=
    fun other => ioExchangeWithCode_ne_inputTable _ _
  unfold transactionScreenResult
  split
  · exact answers _
  split
  · exact nofun
  split
  · exact answers _
  split
  · exact answers _
  split
  · exact ioExchangeWithCode_ne_inputTable _ _
  · exact nofun

theorem resumeByCommand_inputTable_iff :
    resumeByCommand sdk device = .error .inputTable ↔
      txnNextElem sdk device = .error .inputTable := by
  unfold resumeByCommand
  cases txnNextElem sdk device with
  | error fault => exact ⟨fun same => by cases same; rfl, fun same => by cases same; rfl⟩
  | ok result =>
    simp only [map_eq_error_iff]
    exact ⟨fun fault => absurd fault (handleSignTxnResult_ne_inputTable _), nofun⟩

theorem resumeByPress_inputTable_iff :
    resumeByPress sdk device = .error .inputTable ↔
      txnNextElem sdk device = .error .inputTable := by
  unfold resumeByPress
  cases txnNextElem sdk device with
  | error fault => exact ⟨fun same => by cases same; rfl, fun same => by cases same; rfl⟩
  | ok result => exact ⟨fun fault => absurd fault (transactionScreenResult_ne_inputTable _), nofun⟩

/-- An input stores past the table exactly when it calls the parser on bytes that hold too many
inputs. -/
theorem step_inputTable_iff (invariant : SessionInvariant sdk device) (input : Input) :
    step sdk device input ≠ .error .inputTable ↔
      ∀ called ∈ device.resumedBy input, ¬ called.OverrunsTable := by
  have quiet : ∀ {result : Except Fault Device}, device.resumedBy input = none →
      result ≠ .error .inputTable →
      (result ≠ .error .inputTable ↔
        ∀ called ∈ device.resumedBy input, ¬ called.OverrunsTable) := by
    intro result none fine
    rw [none]
    exact ⟨fun _ _ member => absurd member (Option.not_mem_none _), fun _ => fine⟩
  have fine : ∀ {after : Device}, (.ok after : Except Fault Device) ≠ .error .inputTable := by
    intro after same
    cases same
  have move := step_move sdk device input
  generalize step sdk device input = result at move
  cases move with
  | answered apdu command other context derived use went =>
    subst command went
    refine quiet (if_neg fun both => other both.1) ?_
    rw [sendStatus, ne_eq, map_eq_error_iff]
    exact ioExchangeWithCode_ne_inputTable _ _
  | opened apdu command asked closed first went =>
    subst command went
    exact quiet (if_neg fun both => Bool.false_ne_true (closed.symm.trans both.2.1)) fine
  | refused apdu command asked wrong went =>
    subst command went
    exact quiet (if_neg fun both => wrong (by rw [if_pos both.2.1]; exact both.2.2.1)) fine
  | waits apdu command asked session later state went =>
    subst command went
    exact quiet (if_neg fun both => Bool.false_ne_true (state.symm.trans both.2.2.2)) fine
  | resumed apdu command asked session later state went =>
    subst command went
    have before := invariant.load apdu
    have called : device.resumedBy (.apdu apdu) = some (device.loaded apdu) :=
      if_pos ⟨asked, session, later, state⟩
    rw [called, ne_eq, resumeByCommand_inputTable_iff,
      txnNextElem_overruns_iff (before.session session) before.loaded]
    simp only [Option.mem_some_iff, forall_eq']
  | cancelled press screen went =>
    subst press went
    have left : ¬ (Button.left ≠ .left ∧ device.screen = .transaction) := fun both => both.1 rfl
    exact quiet (by rw [Device.resumedBy, if_neg left]) fine
  | pressed button press right screen went =>
    subst press went
    obtain ⟨loaded, session⟩ := invariant.pressed
    have called : device.resumedBy (.button button) = some device.pressed :=
      if_pos ⟨right, screen⟩
    rw [called, ne_eq, resumeByPress_inputTable_iff, txnNextElem_overruns_iff session loaded]
    simp only [Option.mem_some_iff, forall_eq']
  | shows screen elsewhere other went =>
    subst went
    refine quiet ?_ fine
    rcases elsewhere with same | ⟨button, same, elsewhere⟩
    · rw [same]
      rfl
    · rw [same]
      exact if_neg fun both => elsewhere both.2

end Steps

/-- A run keeps inside the table of inputs exactly when no input of it calls the parser on bytes
that hold more inputs than the table has slots for. -/
theorem input_table_kept_iff (sdk : Sdk) (inputs : List Input) :
    run sdk Device.boot inputs ≠ .error .inputTable ↔
      Runs.Along (step sdk) (fun device input =>
        ∀ called ∈ device.resumedBy input, ¬ called.OverrunsTable) Device.boot inputs :=
  Runs.run_ne_error_iff (fun _ _ _ invariant stepped => step_session invariant stepped)
    (fun _ input invariant => step_inputTable_iff invariant input) (session_boot sdk)

/-- A transaction that declares no inputs, and its 21 inputs. -/
def manyInputs : List Input :=
  [.apdu (signApdu 0 (le32 0 ++ (List.replicate 6 sampleInput).flatten) (by decide +kernel)),
    .button .right,
    .apdu (signApdu 1 (List.replicate 7 sampleInput).flatten (by decide +kernel)),
    .apdu (signApdu 1 (List.replicate 7 sampleInput).flatten (by decide +kernel)),
    .apdu (signApdu 1 sampleInput (by decide +kernel))]

/-- The last of them is stored past the table. -/
theorem input_table_can_be_overrun : ¬ ∀ (sdk : Sdk) (inputs : List Input),
    run sdk Device.boot inputs ≠ .error .inputTable := by
  have fault : Runs.faultOf (run Sdk.plain Device.boot manyInputs) = some .inputTable := by
    decide +kernel
  exact fun all => all Sdk.plain manyInputs (Runs.eq_error_of_faultOf fault)

end LedgerNano
