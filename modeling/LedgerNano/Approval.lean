/-
This file is about what the user saw: whether each output of a signed transaction was on
the screen when the user pressed the right button.

The parser is resumed from two places. The button handler shows every output it is
handed; the command handler shows one that is followed by a whole further output in the
chunk (`TXN_APPROVE_OUT`) and passes over one that is not (`TXN_PARTIAL_OUT`).
`call_partialOut_iff` says in lengths when that happens, and
`signed_outputs_were_approved` that without it every output signed was approved.
-/

import LedgerNano.Traces

namespace LedgerNano

/-! ### Chunks that end after the first output -/

/-- The bytes before the count of outputs. There are none to speak of in a transaction that
declares no inputs. -/
def bytesToOutputs (state : TxnState) (inNum currObj : Nat) (bytes : Bytes) : Option Nat :=
  match state with
  | .startIn => if 0 < u4LE bytes 0 then some (4 + 36 * u4LE bytes 0) else none
  | .txnIn => if 0 < inNum then some (36 * (inNum - currObj)) else none
  | .startOut => some 0
  | _ => none

/-- The bytes reach over a count of outputs that is not zero and a first output, and end before a
second one is complete. -/
def EndsAfterFirstOutput (toOutputs : Option Nat) (bytes : Bytes) : Prop :=
  ∃ start ∈ toOutputs, start + 41 ≤ bytes.length ∧ bytes.length < start + 78 ∧
    u4LE (bytes.drop start) 0 ≠ 0

instance (toOutputs : Option Nat) (bytes : Bytes) :
    Decidable (EndsAfterFirstOutput toOutputs bytes) :=
  inferInstanceAs (Decidable (∃ start ∈ toOutputs, _))

/-- An element in front of the bytes moves the start of the outputs. -/
theorem endsAfterFirstOutput_drop {bytes : Bytes} {size : Nat} (enough : size ≤ bytes.length)
    (start : Nat) : EndsAfterFirstOutput (some start) (bytes.drop size) ↔
      EndsAfterFirstOutput (some (size + start)) bytes := by
  simp only [EndsAfterFirstOutput, Option.mem_some_iff, exists_eq_left', List.length_drop,
    List.drop_drop]
  constructor
  · rintro ⟨first, second, declared⟩
    exact ⟨by omega, by omega, declared⟩
  · rintro ⟨first, second, declared⟩
    exact ⟨by omega, by omega, declared⟩

theorem not_endsAfterFirstOutput_none {bytes : Bytes} : ¬ EndsAfterFirstOutput none bytes := by
  rintro ⟨start, member, _⟩
  exact Option.not_mem_none start member

theorem not_endsAfterFirstOutput {toOutputs : Option Nat} {bytes : Bytes}
    (short : bytes.length < 41) : ¬ EndsAfterFirstOutput toOutputs bytes := by
  rintro ⟨start, _, first, _⟩
  omega

namespace Progress

/-- The number of inputs that were declared. -/
def inNum : Progress → Nat
  | startIn => 0
  | txnIn inNum _ => inNum
  | startOut inNum _ => inNum
  | txnOut inNum _ _ _ => inNum

/-- The bytes at hand end after the first output. -/
def PassesOutput (progress : Progress) (bytes : Bytes) : Prop :=
  match progress with
  | txnOut _ _ outNum [] => 37 ≤ bytes.length ∧ bytes.length < 74 ∧ outNum ≠ 0
  | txnOut _ _ _ _ => False
  | _ => EndsAfterFirstOutput
      (bytesToOutputs progress.state progress.inNum progress.inputs.length bytes) bytes

/-- Once inputs are read, the counts leave room for the next one. -/
def FewerThanDeclared : Progress → Prop
  | txnIn inNum inputs => inNum = 0 ∨ inputs.length < inNum
  | _ => True

section PassesOutput

variable {inNum : Nat} {inputs : List Bytes} {bytes : Bytes}

theorem passesOutput_startIn (enough : 4 ≤ bytes.length) :
    (startIn.next (bytes.take 4)).PassesOutput (bytes.drop 4) ↔ startIn.PassesOutput bytes := by
  rw [next, u4LE_take]
  show EndsAfterFirstOutput (if 0 < u4LE bytes 0 then some (36 * u4LE bytes 0) else none)
      (bytes.drop 4) ↔
    EndsAfterFirstOutput (if 0 < u4LE bytes 0 then some (4 + 36 * u4LE bytes 0) else none) bytes
  by_cases positive : 0 < u4LE bytes 0
  · rw [if_pos positive, if_pos positive]
    exact endsAfterFirstOutput_drop enough _
  · rw [if_neg positive, if_neg positive]
    exact iff_of_false not_endsAfterFirstOutput_none not_endsAfterFirstOutput_none

theorem passesOutput_txnIn (fewer : (txnIn inNum inputs).FewerThanDeclared) (input : Bytes)
    (enough : 36 ≤ bytes.length) :
    ((txnIn inNum inputs).next input).FewerThanDeclared ∧
      (((txnIn inNum inputs).next input).PassesOutput (bytes.drop 36) ↔
        (txnIn inNum inputs).PassesOutput bytes) := by
  have bound : inNum = 0 ∨ inputs.length < inNum := fewer
  have length : (inputs ++ [input]).length = inputs.length + 1 := by
    rw [List.length_append, List.length_singleton]
  rw [next]
  by_cases last : (inputs ++ [input]).length = inNum
  · rw [if_pos last]
    rw [length] at last
    refine ⟨trivial, ?_⟩
    show EndsAfterFirstOutput (some 0) (bytes.drop 36) ↔ EndsAfterFirstOutput
      (if 0 < inNum then some (36 * (inNum - inputs.length)) else none) bytes
    rw [if_pos (by omega), endsAfterFirstOutput_drop enough,
      show 36 * (inNum - inputs.length) = 36 + 0 by omega]
  · rw [if_neg last]
    rw [length] at last
    refine ⟨?_, ?_⟩
    · show inNum = 0 ∨ (inputs ++ [input]).length < inNum
      rw [length]
      omega
    show EndsAfterFirstOutput
        (if 0 < inNum then some (36 * (inNum - (inputs ++ [input]).length)) else none)
        (bytes.drop 36) ↔
      EndsAfterFirstOutput (if 0 < inNum then some (36 * (inNum - inputs.length)) else none) bytes
    by_cases positive : 0 < inNum
    · rw [if_pos positive, if_pos positive, endsAfterFirstOutput_drop enough, length,
        show 36 * (inNum - inputs.length) = 36 + 36 * (inNum - (inputs.length + 1)) by omega]
    · rw [if_neg positive, if_neg positive]
      exact iff_of_false not_endsAfterFirstOutput_none not_endsAfterFirstOutput_none

theorem passesOutput_startOut (enough : 4 ≤ bytes.length) :
    ((startOut inNum inputs).next (bytes.take 4)).PassesOutput (bytes.drop 4) ↔
      (startOut inNum inputs).PassesOutput bytes := by
  simp only [next, u4LE_take, PassesOutput, bytesToOutputs, state, EndsAfterFirstOutput,
    Option.mem_some_iff, exists_eq_left', List.length_drop, List.drop_zero]
  constructor
  · rintro ⟨first, second, declared⟩
    exact ⟨by omega, by omega, declared⟩
  · rintro ⟨first, second, declared⟩
    exact ⟨by omega, by omega, declared⟩

theorem not_passesOutput_of_short {progress : Progress} {staged pending : Bytes}
    (short : progress.Short staged.length pending.length)
    (fresh : progress.state = .startOut → staged = []) :
    ¬ progress.PassesOutput (staged ++ pending) := by
  cases progress with
  | startIn =>
    refine not_endsAfterFirstOutput ?_
    simp only [Short, elementSize] at short
    rw [List.length_append]
    omega
  | txnIn =>
    refine not_endsAfterFirstOutput ?_
    simp only [Short, elementSize] at short
    rw [List.length_append]
    omega
  | startOut =>
    refine not_endsAfterFirstOutput ?_
    simp only [Short] at short
    rw [fresh rfl, List.nil_append]
    omega
  | txnOut inNum inputs outNum outputs =>
    simp only [Short, elementSize] at short
    cases outputs with
    | nil =>
      rintro ⟨first, _⟩
      rw [List.length_append] at first
      omega
    | cons => exact id

end PassesOutput

/-- A call from before the outputs ends with `TXN_PARTIAL_OUT` exactly when its bytes end after
the first output. -/
theorem call_partialOut_iff {progress : Progress} {staged pending : Bytes} {result : Call}
    (called : progress.call staged pending = some result) (fewer : progress.FewerThanDeclared)
    (none : progress.outputs = []) (fresh : progress.state = .startOut → staged = []) :
    result.code = txnPartialOut ↔ progress.PassesOutput (staged ++ pending) := by
  revert fewer none fresh
  refine call_rule (motive := fun progress staged pending result =>
    progress.FewerThanDeclared → progress.outputs = [] →
      (progress.state = .startOut → staged = []) →
        (result.code = txnPartialOut ↔ progress.PassesOutput (staged ++ pending)))
    ?finished ?short ?output ?element called
  case finished =>
    intro progress staged pending finished _ none _
    cases progress with
    | txnOut inNum inputs outNum outputs =>
      have empty : outputs = [] := none
      subst empty
      have zero : outNum = 0 := (finished : 0 % 2 ^ 8 = outNum).symm
      simp only [PassesOutput, zero, ne_eq, not_true_eq_false, and_false, iff_false]
      decide
    | _ => exact absurd finished id
  case short =>
    intro progress staged pending _ short _ _ fresh
    exact iff_of_false (by decide : txnPartial ≠ txnPartialOut)
      (not_passesOutput_of_short short fresh)
  case output =>
    intro progress staged pending unfinished enough reading _ none _
    have size := enough_of_not_short enough
    rw [outputCall_code]
    cases progress with
    | txnOut inNum inputs outNum outputs =>
      have empty : outputs = [] := none
      subst empty
      have declared : outNum ≠ 0 := fun zero => unfinished (zero ▸ rfl)
      simp only [elementSize] at size
      simp only [PassesOutput, elementSize, List.length_drop, List.length_append]
      split
      · exact ⟨fun _ => ⟨by omega, by omega, declared⟩, fun _ => rfl⟩
      · exact ⟨fun same => absurd same (by decide), fun passes => by omega⟩
    | startIn => cases reading
    | txnIn => cases reading
    | startOut => cases reading
  case element =>
    intro progress staged pending later enough _ earlier inductionHypothesis fewer none fresh
    have size := enough_of_not_short enough
    rw [← List.length_append] at size
    rw [List.nil_append] at inductionHypothesis
    cases progress with
    | startIn =>
      exact (inductionHypothesis (Nat.eq_zero_or_pos _) rfl fun _ => rfl).trans
        (passesOutput_startIn size)
    | txnIn inNum inputs =>
      obtain ⟨fewerLeft, same⟩ := passesOutput_txnIn fewer
        ((staged ++ pending).take (txnIn inNum inputs).elementSize) size
      exact (inductionHypothesis fewerLeft (outputs_next earlier _) fun _ => rfl).trans same
    | startOut inNum inputs =>
      exact (inductionHypothesis trivial rfl fun _ => rfl).trans (passesOutput_startOut size)
    | txnOut => exact absurd rfl earlier

end Progress

/-! ### Approved outputs -/

/-- An event that neither moves the session nor changes what is shown of it. -/
def Event.Quiet : Event → Prop
  | .sessionStart | .element _ | .prepared _ => False
  | _ => True

/-- The texts are those of an output, the last one read, and were prepared after it was read. -/
def LastShown (sdk : Sdk) (output : Bytes) (texts : TransactionContext) (log : List Event) : Prop :=
  texts.Shows sdk (TxnOutput.ofBytes output) ∧
    ∃ after before, log = after ++ .prepared (TxnOutput.ofBytes output) :: before ∧
      (∀ event ∈ after, event.Quiet) ∧ ∃ earlier, (progressOf before).outputs = earlier ++ [output]

/-- In the session the log ends with there was a right press when the output with the given index
was the last one read and its texts were on the screen. -/
def Approved (sdk : Sdk) (index : Nat) (output : Bytes) (past : List Event) : Prop :=
  ∃ newer texts log, past = newer ++ .rightPress texts :: log ∧ .sessionStart ∉ newer ∧
    (progressOf log).outputs = (progressOf past).outputs.take (index + 1) ∧
      LastShown sdk output texts log

/-- The first outputs of the session are approved. -/
def ApprovedUpTo (sdk : Sdk) (count : Nat) (log : List Event) : Prop :=
  ∀ index output, index < count → (progressOf log).outputs[index]? = some output →
    Approved sdk index output log

/-- All outputs read so far are approved. -/
def AllApproved (sdk : Sdk) (log : List Event) : Prop :=
  ApprovedUpTo sdk (progressOf log).outputs.length log

theorem progressOf_ignores : Logs.Ignores Event.Quiet progressOf := by
  intro event past quiet
  cases event with
  | sessionStart => exact absurd quiet id
  | element => exact absurd quiet id
  | prepared => exact absurd quiet id
  | _ => rfl

section Approvals

variable {sdk : Sdk} {past : List Event} (events : List Event) (more : List Bytes)

/-- An approval stays one while the session goes on. -/
theorem Approved.extend {index : Nat} {output : Bytes}
    (approved : Approved sdk index output past)
    (inside : index < (progressOf past).outputs.length)
    (going : .sessionStart ∉ events)
    (grown : (progressOf (events ++ past)).outputs = (progressOf past).outputs ++ more) :
    Approved sdk index output (events ++ past) := by
  obtain ⟨newer, texts, log, split, inSession, first, shown⟩ := approved
  refine ⟨events ++ newer, texts, log, ?_, ?_, ?_, shown⟩
  · rw [split, List.append_assoc]
  · rw [List.mem_append]
    exact fun either => either.elim going inSession
  · rw [first, grown, List.take_append_of_le_length inside]

theorem ApprovedUpTo.extend {count : Nat}
    (approved : ApprovedUpTo sdk count past) (inside : count ≤ (progressOf past).outputs.length)
    (going : .sessionStart ∉ events)
    (grown : (progressOf (events ++ past)).outputs = (progressOf past).outputs ++ more) :
    ApprovedUpTo sdk count (events ++ past) := by
  intro index output bound found
  rw [grown, List.getElem?_append_left (lt_of_lt_of_le bound inside)] at found
  exact (approved index output bound found).extend events more (lt_of_lt_of_le bound inside) going
    grown

/-- A right press approves the output whose texts are shown. -/
theorem LastShown.approved {earlier : List Bytes} {output : Bytes} {texts : TransactionContext}
    (shown : LastShown sdk output texts past)
    (outputs : (progressOf past).outputs = earlier ++ [output]) :
    Approved sdk earlier.length output (.rightPress texts :: past) := by
  refine ⟨[], texts, past, rfl, List.not_mem_nil, ?_, shown⟩
  show (progressOf past).outputs = (progressOf past).outputs.take (earlier.length + 1)
  rw [outputs, List.take_of_length_le]
  rw [List.length_append, List.length_singleton]

/-- Texts that are shown stay shown while nothing happens to the session. -/
theorem LastShown.extend {output : Bytes} {texts : TransactionContext}
    (shown : LastShown sdk output texts past) (quiet : ∀ event ∈ events, event.Quiet) :
    LastShown sdk output texts (events ++ past) := by
  obtain ⟨texts, after, before, split, silent, last⟩ := shown
  refine ⟨texts, events ++ after, before, ?_, fun event member => ?_, last⟩
  · rw [split, List.append_assoc]
  · rcases List.mem_append.mp member with new | old
    · exact quiet event new
    · exact silent event old

end Approvals

/-! ### What the user approved, step by step -/

/-- The outputs of a session but the newest are approved, and the newest is approved or waits on
the screen. -/
structure Approvals (sdk : Sdk) (device : Device) : Prop where
  upTo : ApprovedUpTo sdk ((progressOf device.log).outputs.length - 1) device.log
  newest : ∀ earlier output, (progressOf device.log).outputs = earlier ++ [output] →
    Approved sdk earlier.length output device.log ∨
      device.signTxnContext.txnState = .txnOut ∧
        LastShown sdk output device.transactionContext device.log

/-- The chunk at hand makes the parser pass over an output, if a command resumes it. -/
def Device.PassesOutput (device : Device) : Prop :=
  let ctx := device.signTxnContext
  let bytes := ctx.staged ++ ctx.pending device.apduBuffer
  EndsAfterFirstOutput (bytesToOutputs ctx.txnState ctx.txn.inNum ctx.currObj bytes) bytes

instance (device : Device) : Decidable device.PassesOutput :=
  inferInstanceAs (Decidable (EndsAfterFirstOutput _ _))

section Steps

variable {sdk : Sdk} {device called after : Device} {code : Nat}

theorem AllApproved.of_newest {log : List Event}
    (upTo : ApprovedUpTo sdk ((progressOf log).outputs.length - 1) log)
    (newest : ∀ earlier output, (progressOf log).outputs = earlier ++ [output] →
      Approved sdk earlier.length output log) : AllApproved sdk log := by
  intro index output inside found
  by_cases earlier : index < (progressOf log).outputs.length - 1
  · exact upTo index output earlier found
  · have last : (progressOf log).outputs = (progressOf log).outputs.take index ++ [output] := by
      have rest := List.drop_eq_getElem_cons inside
      rw [List.getElem?_eq_getElem inside] at found
      have whole := List.take_append_drop index (progressOf log).outputs
      rw [rest, Option.some.inj found, List.drop_eq_nil_of_le (by omega)] at whole
      exact whole.symm
    have approved := newest _ output last
    rw [List.length_take, Nat.min_eq_left (le_of_lt inside)] at approved
    exact approved

theorem Approvals.of_all (all : AllApproved sdk device.log) : Approvals sdk device where
  upTo := fun index output bound found => all index output (by omega) found
  newest := by
    intro earlier output outputs
    refine Or.inl (all earlier.length output ?_ ?_)
    · rw [outputs, List.length_append, List.length_singleton]
      exact Nat.lt_succ_self _
    · rw [outputs, List.getElem?_concat_length]

/-- Outside `TXN_OUT` nothing waits for approval. -/
theorem Approvals.all (approvals : Approvals sdk device)
    (other : device.signTxnContext.txnState ≠ .txnOut) : AllApproved sdk device.log :=
  AllApproved.of_newest approvals.upTo fun earlier output outputs =>
    (approvals.newest earlier output outputs).resolve_right fun waits => other waits.1

theorem AllApproved.extend {past : List Event} (events : List Event) (all : AllApproved sdk past)
    (going : .sessionStart ∉ events)
    (same : (progressOf (events ++ past)).outputs = (progressOf past).outputs) :
    AllApproved sdk (events ++ past) := by
  have extended := ApprovedUpTo.extend events [] all (le_refl _) going
    (by rw [same, List.append_nil])
  rw [AllApproved, same]
  exact extended

/-- A right press approves what is on the screen. -/
theorem Approvals.press (approvals : Approvals sdk device) :
    AllApproved sdk (.rightPress device.transactionContext :: device.log) := by
  have pressed : Event.sessionStart ∉ [Event.rightPress device.transactionContext] := by
    rw [List.mem_singleton]
    exact Event.noConfusion
  refine AllApproved.of_newest ?_ fun earlier output outputs => ?_
  · exact approvals.upTo.extend [.rightPress device.transactionContext] [] (Nat.sub_le _ _)
      pressed (List.append_nil _).symm
  · rcases approvals.newest earlier output outputs with approved | ⟨_, shown⟩
    · refine approved.extend [.rightPress device.transactionContext] [] ?_ pressed
        (List.append_nil _).symm
      have length := congrArg List.length outputs
      rw [List.length_append, List.length_singleton] at length
      have same : (progressOf (.rightPress device.transactionContext :: device.log)).outputs =
        (progressOf device.log).outputs := rfl
      rw [same] at length
      omega
    · exact shown.approved outputs

/-- After a right press all outputs are approved; the first one starts with none. -/
theorem allApproved_pressed
    (before : device.signTxnContext.initialized = true → Approvals sdk device) :
    AllApproved sdk device.pressed.log := by
  unfold Device.pressed startSession
  by_cases session : (device.record
      (.rightPress device.transactionContext)).signTxnContext.initialized = true
  · rw [if_pos session]
    exact (before session).press
  · rw [if_neg session]
    exact fun index output inside => absurd inside (Nat.not_lt_zero index)

/-- Where nothing happens to the session, the approvals stay. -/
theorem Approvals.quiet (events : List Event) (approvals : Approvals sdk device)
    (quiet : ∀ event ∈ events, event.Quiet) (log : after.log = events ++ device.log)
    (texts : after.transactionContext = device.transactionContext)
    (state : after.signTxnContext.txnState = device.signTxnContext.txnState) :
    Approvals sdk after := by
  have going : Event.sessionStart ∉ events := fun member => quiet _ member
  have same : (progressOf (events ++ device.log)).outputs = (progressOf device.log).outputs := by
    rw [progressOf_ignores.append quiet]
  constructor
  · rw [log, same]
    exact approvals.upTo.extend events [] (Nat.sub_le _ _) going
      (by rw [same, List.append_nil])
  · intro earlier output outputs
    rw [log, same] at outputs
    rw [log, texts, state]
    rcases approvals.newest earlier output outputs with approved | ⟨reading, shown⟩
    · refine Or.inl (approved.extend events [] ?_ going (by rw [same, List.append_nil]))
      rw [outputs, List.length_append, List.length_singleton]
      exact Nat.lt_succ_self _
    · exact Or.inr ⟨reading, shown.extend events quiet⟩

/-- What a call of the parser leaves to approve: nothing new, or one output. -/
inductive ToApprove (sdk : Sdk) (code : Nat) (called : Device) : Prop
  | none (all : AllApproved sdk called.log)
  | one (earlier : List Bytes) (output : Bytes)
      (outputs : (progressOf called.log).outputs = earlier ++ [output])
      (upTo : ApprovedUpTo sdk earlier.length called.log)
      (current : called.signTxnContext.txn.curOutput = TxnOutput.ofBytes output)
      (state : called.signTxnContext.txnState = .txnOut)
      (code : code = txnPartialOut ∨ code = txnApproveOut)

theorem state_of_outputs {progress : Progress} (some : progress.outputs ≠ []) :
    progress.state = .txnOut := by
  cases progress with
  | txnOut => rfl
  | _ => exact absurd rfl some

theorem derive_going (derived : List (List Nat)) :
    Event.sessionStart ∉ derived.map Event.derive := by
  intro member
  obtain ⟨path, _, same⟩ := List.mem_map.mp member
  cases same

theorem elements_going (records : List Bytes) :
    Event.sessionStart ∉ (records.map Event.element).reverse := by
  intro member
  obtain ⟨record, _, same⟩ := List.mem_map.mp (List.mem_reverse.mp member)
  cases same

/-- Signing adds no output. -/
theorem AllApproved.signed (all : AllApproved sdk device.log) (derived : List (List Nat))
    (innerHash : Bytes) :
    AllApproved sdk (derived.map Event.derive ++ .computeSigs innerHash :: device.log) := by
  have begun : AllApproved sdk (.computeSigs innerHash :: device.log) :=
    AllApproved.extend [.computeSigs innerHash] all
      (fun member => Event.noConfusion (List.mem_singleton.mp member)) rfl
  exact begun.extend _ (derive_going derived) (by rw [progressOf_derive])

theorem Resumed.toApprove (resumes : Resumed sdk (progressOf device.log) device code called)
    (all : AllApproved sdk device.log) : ToApprove sdk code called := by
  cases resumes with
  | read call ctx tracks calls reached thrown result =>
    subst thrown result
    have log : progressOf (device.readBy call.records ctx).log = call.progress := by
      rw [Progress.call_progress calls]
      exact progressOf_elements call.records device.log
    cases Progress.call_takes calls with
    | none code same waits =>
      refine ToApprove.none (all.extend _ (elements_going call.records) ?_)
      exact (congrArg Progress.outputs log).trans same
    | one code output taken =>
      have outputs : (progressOf (device.readBy call.records ctx).log).outputs =
          (progressOf device.log).outputs ++ [output] := by rw [log, taken]
      have some : call.progress.outputs ≠ [] := by
        rw [taken]
        exact List.append_ne_nil_of_right_ne_nil _ (List.cons_ne_nil _ _)
      have notReady : call.code ≠ txnReady := by
        rcases code with same | same <;> rw [same] <;> decide
      have after := reached.reached
      rw [if_neg notReady] at after
      refine ToApprove.one (progressOf device.log).outputs output outputs ?_ ?_ ?_ code
      · exact ApprovedUpTo.extend _ _ all (le_refl _) (elements_going call.records) outputs
      · have agrees := after.agrees
        cases progress : call.progress with
        | txnOut inNum inputs outNum read =>
          rw [progress] at agrees taken
          exact agrees.2.2.2 _ _ taken
        | _ =>
          rw [progress] at some
          exact absurd rfl some
      · exact after.state.trans (state_of_outputs some)
  | computed signs state computes =>
    refine ToApprove.none ?_
    cases computes with
    | raised path table counter derived signed result =>
      subst result
      exact all.signed derived _
    | finished signatures derived signed each derivations result returned =>
      rw [afterBatch_log returned]
      subst result
      exact all.signed derived _
  | returned signs state returns =>
    refine ToApprove.none ?_
    rw [afterBatch_log returns]
    exact all

/-- The texts just prepared show the output just read. -/
theorem lastShown_prepared {earlier : List Bytes} {output : Bytes}
    (outputs : (progressOf called.log).outputs = earlier ++ [output])
    (current : called.signTxnContext.txn.curOutput = TxnOutput.ofBytes output) :
    LastShown sdk output (prepareOutputApproval sdk called).transactionContext
      (prepareOutputApproval sdk called).log := by
  rw [prepareOutputApproval_log, current]
  refine ⟨?_, [], called.log, rfl, fun _ member => absurd member List.not_mem_nil,
    earlier, outputs⟩
  rw [← current]
  exact prepareOutputApproval_shows sdk called

theorem AllApproved.reply (all : AllApproved sdk device.log) (bytes : Bytes) :
    AllApproved sdk (.reply bytes :: device.log) :=
  AllApproved.extend [.reply bytes] all
    (fun member => Event.noConfusion (List.mem_singleton.mp member)) rfl

theorem AllApproved.prepared (all : AllApproved sdk device.log) :
    AllApproved sdk (prepareOutputApproval sdk device).log := by
  rw [prepareOutputApproval_log]
  exact AllApproved.extend [.prepared _] all
    (fun member => Event.noConfusion (List.mem_singleton.mp member)) rfl

/-- An output whose texts were prepared waits on the screen, the earlier ones being approved. -/
theorem approvals_prepared {earlier : List Bytes} {output : Bytes}
    (outputs : (progressOf called.log).outputs = earlier ++ [output])
    (upTo : ApprovedUpTo sdk earlier.length called.log)
    (current : called.signTxnContext.txn.curOutput = TxnOutput.ofBytes output)
    (state : called.signTxnContext.txnState = .txnOut) :
    Approvals sdk (prepareOutputApproval sdk called) := by
  have grown : (progressOf (prepareOutputApproval sdk called).log).outputs =
      earlier ++ [output] := by
    rw [prepareOutputApproval_log]
    exact outputs
  constructor
  · rw [grown, List.length_append, List.length_singleton, Nat.add_sub_cancel]
    rw [prepareOutputApproval_log]
    refine ApprovedUpTo.extend [.prepared _] [] upTo ?_ ?_ ?_
    · rw [outputs, List.length_append]
      exact Nat.le_add_right _ _
    · exact fun member => Event.noConfusion (List.mem_singleton.mp member)
    · exact (List.append_nil _).symm
  · intro before last same
    rw [grown] at same
    obtain ⟨rfl, only⟩ := List.append_inj' same rfl
    rw [List.singleton_inj.mp only] at outputs current
    refine Or.inr ⟨?_, lastShown_prepared outputs current⟩
    rw [prepareOutputApproval_signTxnContext]
    exact state

/-- A command that does not pass over an output keeps the approvals. -/
theorem CommandResult.approvals (goes : CommandResult sdk called code after)
    (left : ToApprove sdk code called)
    (shows : called.signTxnContext.txnState = .txnOut → code ≠ txnPartialOut) :
    Approvals sdk after.resetTx := by
  cases left with
  | none all =>
    cases goes with
    | failed thrown result =>
      subst result
      exact Approvals.of_all (all.reply _)
    | approve thrown result =>
      subst result
      refine Approvals.of_all ?_
      rw [resetTx_log, goToTransactionScreen_log]
      exact all.prepared
    | finished thrown fits result =>
      subst result
      exact Approvals.of_all (all.reply _)
    | more other fits result =>
      subst result
      exact Approvals.of_all (all.reply _)
  | one earlier output outputs upTo current state two =>
    have approve := two.resolve_left (shows state)
    cases goes with
    | failed thrown => exact absurd (approve.symm.trans thrown) (by decide)
    | approve thrown result =>
      subst result
      refine (approvals_prepared outputs upTo current state).quiet []
        (fun _ member => absurd member List.not_mem_nil) ?_ ?_ ?_
      · rw [resetTx_log, goToTransactionScreen_log, List.nil_append]
      · rw [resetTx_transactionContext, goToTransactionScreen_transactionContext]
      · rw [resetTx_signTxnContext, goToTransactionScreen_signTxnContext]
    | finished thrown => exact absurd (approve.symm.trans thrown) (by decide)
    | more other => exact absurd approve other.2.1

theorem quiet_reply (bytes : Bytes) : ∀ event ∈ [Event.reply bytes], event.Quiet := by
  intro event member
  rw [List.mem_singleton.mp member]
  trivial

/-- A press keeps the approvals: it prepares the texts of every output it is handed. -/
theorem PressResult.approvals (goes : PressResult sdk called code after)
    (left : ToApprove sdk code called) : Approvals sdk after := by
  cases left with
  | none all =>
    cases goes with
    | more thrown fits result =>
      subst result
      exact Approvals.of_all (all.reply _)
    | approve thrown result =>
      subst result
      exact Approvals.of_all all.prepared
    | last thrown fits result =>
      subst result
      refine Approvals.of_all ?_
      rw [replyOk_log]
      exact all.prepared.reply _
    | ready thrown fits result =>
      subst result
      exact Approvals.of_all (all.reply _)
    | failed thrown result =>
      subst result
      exact Approvals.of_all (all.reply _)
    | silent other result =>
      subst result
      exact Approvals.of_all all
  | one earlier output outputs upTo current state two =>
    have waiting := approvals_prepared outputs upTo current state
    cases goes with
    | more thrown =>
      rcases two with same | same <;> exact absurd (same.symm.trans thrown) (by decide)
    | approve thrown result =>
      subst result
      exact waiting
    | last thrown fits result =>
      subst result
      exact waiting.quiet [_] (quiet_reply _) (replyOk_log _) (replyOk_transactionContext _)
        (by rw [replyOk_signTxnContext])
    | ready thrown =>
      rcases two with same | same <;> exact absurd (same.symm.trans thrown) (by decide)
    | failed thrown =>
      rcases two with same | same <;> exact absurd (same.symm.trans thrown) (by decide)
    | silent other =>
      rcases two with same | same
      · exact absurd same other.2.2.1
      · exact absurd same other.2.1

theorem passesOutput_iff {progress : Progress}
    (tracks : Tracks sdk progress device.signTxnContext) (before : progress.state ≠ .txnOut) :
    device.PassesOutput ↔ progress.PassesOutput
      (device.signTxnContext.staged ++ device.signTxnContext.pending device.apduBuffer) := by
  unfold Device.PassesOutput
  simp only
  rw [tracks.state]
  cases progress with
  | startIn => exact Iff.rfl
  | txnIn inNum inputs =>
    obtain ⟨declared, counter, _⟩ := tracks.agrees
    rw [declared, counter]
    exact Iff.rfl
  | startOut => exact Iff.rfl
  | txnOut => exact absurd rfl before

theorem afterBatch_txnState (ended : device.afterBatch = (some code, after)) :
    after.signTxnContext.txnState = device.signTxnContext.txnState := by
  rcases Device.afterBatch_cases ended with ⟨_, _, rfl⟩ | ⟨_, _, rfl⟩
  · rfl
  · rfl

/-- A command whose chunk does not pass over an output leaves none behind. -/
theorem Resumed.shows {progress : Progress} (resumes : Resumed sdk progress device code called)
    (byCommand : device.signTxnContext.txnState.resumedByCommand = true)
    (shows : ¬ device.PassesOutput) (reading : called.signTxnContext.txnState = .txnOut) :
    code ≠ txnPartialOut := by
  cases resumes with
  | read call ctx tracks calls reached thrown result =>
    subst thrown
    rw [tracks.state] at byCommand
    have before : progress.state ≠ .txnOut := by
      intro same
      rw [same] at byCommand
      exact absurd byCommand (by decide)
    rw [passesOutput_iff tracks before] at shows
    refine mt (Progress.call_partialOut_iff calls ?_ ?_ ?_).mp shows
    · cases progress with
      | txnIn => exact tracks.agrees.2.2.2
      | _ => trivial
    · cases progress with
      | txnOut => exact absurd rfl before
      | _ => rfl
    · intro same
      rw [same] at byCommand
      exact absurd byCommand (by decide)
  | computed signs state computes =>
    cases computes with
    | raised path table counter derived signed result =>
      subst result
      exact absurd (state.symm.trans reading) (by decide)
    | finished signatures derived signed each derivations result returned =>
      subst result
      exact absurd ((afterBatch_txnState returned).symm.trans reading) TxnState.noConfusion
  | returned signs state returns =>
    have same := (afterBatch_txnState returns).symm.trans reading
    exact absurd (state.symm.trans same) (by decide)

/-- The input is no command whose chunk passes over an output. -/
def ShowsOutputs (device : Device) : Input → Prop
  | .apdu apdu => ∀ resumed ∈ device.resumedBy (.apdu apdu), ¬ resumed.PassesOutput
  | _ => True

instance (device : Device) : ∀ input, Decidable (ShowsOutputs device input)
  | .apdu apdu => inferInstanceAs (Decidable (∀ resumed ∈ device.resumedBy (.apdu apdu), _))
  | .button _ | .addressScreen => isTrue trivial

/-- A command arrives with all outputs approved, if the parser is not at its outputs. -/
theorem allApproved_loaded (approvals : Approvals sdk device) (apdu : Apdu)
    (byCommand : device.signTxnContext.txnState.resumedByCommand = true) :
    AllApproved sdk (device.loaded apdu).log := by
  have other : device.signTxnContext.txnState ≠ .txnOut := by
    intro same
    rw [same] at byCommand
    exact absurd byCommand (by decide)
  exact (approvals.all other).extend [.command apdu.bytes]
    (fun member => Event.noConfusion (List.mem_singleton.mp member)) rfl

/-- Every input that is no such command keeps the approvals. -/
theorem step_approvals {input : Input} (invariant : SessionInvariant sdk device)
    (before : device.signTxnContext.initialized = true → Approvals sdk device)
    (shows : ShowsOutputs device input) (stepped : step sdk device input = .ok after)
    (session : after.signTxnContext.initialized = true) : Approvals sdk after := by
  cases step_stepped invariant stepped with
  | answered apdu command other context derived ready use payload fits result =>
    obtain ⟨bytes, log⟩ : ∃ bytes, after.log =
        .reply bytes :: derived.map Event.derive ++ .command apdu.bytes :: device.log := by
      subst result payload
      exact ⟨_, rfl⟩
    subst result payload
    refine (before session).quiet (.reply bytes :: derived.map Event.derive ++
      [.command apdu.bytes]) ?_ ?_ rfl rfl
    · intro event member
      rcases List.mem_append.mp member with member | member
      · rcases List.mem_cons.mp member with same | member
        · rw [same]
          trivial
        · obtain ⟨path, _, rfl⟩ := List.mem_map.mp member
          trivial
      · rw [List.mem_singleton.mp member]
        trivial
    · rw [log, List.append_assoc, List.singleton_append]
  | opened apdu command asked closed first result =>
    subst result
    exact absurd (closed.symm.trans session) Bool.false_ne_true
  | refused apdu command asked wrong result =>
    subst result
    exact absurd session Bool.false_ne_true
  | waits apdu command asked opened later state result =>
    subst result
    refine (before session).quiet [.command apdu.bytes] ?_ rfl rfl rfl
    intro event member
    rw [List.mem_singleton.mp member]
    trivial
  | resumed apdu command asked opened later state code called answered resumes goes result =>
    subst result
    have resumed : device.resumedBy (.apdu apdu) = some (device.loaded apdu) :=
      if_pos ⟨asked, opened, later, state⟩
    subst command
    have shown := shows (device.loaded apdu) (by rw [resumed]; rfl)
    exact goes.approvals (resumes.toApprove (allApproved_loaded (before opened) apdu state))
      (resumes.shows state shown)
  | cancelled press screen result =>
    subst result
    refine (before session).quiet [_, .leftPress] ?_ rfl rfl rfl
    intro event member
    rcases List.mem_cons.mp member with same | member
    · rw [same]
      trivial
    · rw [List.mem_singleton.mp member]
      trivial
  | pressed button press right screen code called resumes goes =>
    exact goes.approvals (resumes.toApprove (allApproved_pressed before))
  | shows screen elsewhere other result =>
    subst result
    exact (before session).quiet [] (fun _ member => absurd member List.not_mem_nil) rfl rfl rfl

/-- All outputs of the transaction that is signed were approved in the session that read them. -/
def SignsApproved (sdk : Sdk) : Event → List Event → Prop
  | .computeSigs _, past => (progressOf past).Whole ∧ AllApproved sdk past
  | _, _ => True

theorem signsApproved_of_other (event : Event) (past : List Event)
    (other : ¬ event.IsComputeSigs) : SignsApproved sdk event past := by
  cases event with
  | computeSigs => exact absurd trivial other
  | _ => trivial

/-- What every input that is no such command keeps. -/
structure ApprovalInvariant (sdk : Sdk) (device : Device) : Prop where
  session : SessionInvariant sdk device
  approvals : device.signTxnContext.initialized = true → Approvals sdk device
  signed : Logs.Always (SignsApproved sdk) device.log

theorem step_approvalInvariant {input : Input} (invariant : ApprovalInvariant sdk device)
    (shows : ShowsOutputs device input) (stepped : step sdk device input = .ok after) :
    ApprovalInvariant sdk after where
  session := step_session invariant.session stepped
  approvals := step_approvals invariant.session invariant.approvals shows stepped
  signed := by
    refine (step_stepped invariant.session stepped).always signsApproved_of_other invariant.signed
      (fun apdu session signs => ⟨signs.whole, ?_⟩)
      (fun signs => ⟨signs.whole, allApproved_pressed invariant.approvals⟩)
    refine allApproved_loaded (invariant.approvals session) apdu ?_
    have state : device.signTxnContext.txnState = .computeSigs ∨
        device.signTxnContext.txnState = .retSigs := signs.state.imp id And.left
    rcases state with same | same <;> rw [same] <;> rfl

end Steps

/-- In every run in which no command's chunk passes over an output, every output of every
transaction that is signed was approved: in that session the user pressed the right button
when it was the last output read and its texts were on the screen. -/
theorem signed_outputs_were_approved {sdk : Sdk} {inputs : List Input} {device : Device}
    (shows : Runs.Along (step sdk) ShowsOutputs Device.boot inputs)
    (ran : run sdk Device.boot inputs = .ok device) {innerHash : Bytes} {past : List Event}
    (signed : (innerHash, past) ∈ signings device.log) :
    ∃ ins outs : List Bytes, progressOf past = .txnOut ins.length ins outs.length outs ∧
      ∀ index output, outs[index]? = some output → Approved sdk index output past := by
  have invariant : ApprovalInvariant sdk device :=
    Runs.run_invariant (fun _ _ _ before allowed stepped =>
        step_approvalInvariant before allowed stepped)
      ⟨session_boot sdk, fun session => absurd session Bool.false_ne_true, trivial⟩ shows ran
  obtain ⟨later, split⟩ := signings_split signed
  have always := invariant.signed
  rw [split] at always
  obtain ⟨whole, all⟩ := Logs.always_split always
  refine ⟨(progressOf past).inputs, (progressOf past).outputs, whole, fun index output found => ?_⟩
  obtain ⟨inside, _⟩ := List.getElem?_eq_some_iff.mp found
  exact all index output inside found

/-- The theorem speaks about the session of one input and one output. -/
theorem signed_outputs_were_approved_sample : ∃ device innerHash past,
    Runs.Along (step Sdk.plain) ShowsOutputs Device.boot sampleSession ∧
      run Sdk.plain Device.boot sampleSession = .ok device ∧
        (innerHash, past) ∈ signings device.log ∧
          ∃ ins outs : List Bytes, progressOf past = .txnOut ins.length ins outs.length outs ∧
            ∀ index output, outs[index]? = some output →
              Approved Sdk.plain index output past := by
  have shows : Runs.Along (step Sdk.plain) ShowsOutputs Device.boot sampleSession := by
    decide +kernel
  have ends : Runs.Ends (fun device : Device => (signings device.log).length = 1)
      (run Sdk.plain Device.boot sampleSession) := by decide +kernel
  obtain ⟨device, ran, one⟩ := Runs.exists_of_ends ends
  obtain ⟨⟨innerHash, past⟩, only⟩ := List.length_eq_one_iff.mp one
  have signed : (innerHash, past) ∈ signings device.log := by
    rw [only]
    exact List.mem_singleton.mpr rfl
  exact ⟨device, innerHash, past, shows, ran, signed,
    signed_outputs_were_approved shows ran signed⟩

/-! ### An output that is passed over -/

/-- The texts of some output were prepared. -/
def Event.IsPrepared : Event → Prop
  | .prepared _ => True
  | _ => False

instance : DecidablePred Event.IsPrepared
  | .prepared _ => isTrue trivial
  | .sessionStart | .element _ | .command _ | .reply _ | .leftPress | .rightPress _
  | .computeSigs _ | .derive _ => isFalse id

theorem Approved.exists_prepared {sdk : Sdk} {index : Nat} {output : Bytes} {past : List Event}
    (approved : Approved sdk index output past) : ∃ event ∈ past, event.IsPrepared := by
  obtain ⟨newer, texts, log, rfl, _, _, _, after, before, rfl, _⟩ := approved
  refine ⟨.prepared (TxnOutput.ofBytes output), ?_, trivial⟩
  rw [List.mem_append, List.mem_cons, List.mem_append]
  exact Or.inr (Or.inr (Or.inr List.mem_cons_self))

/-- A transaction of seven inputs and one output. -/
def passedTransaction : Bytes :=
  le32 7 ++ (List.replicate 7 sampleInput).flatten ++ le32 1 ++ sampleOutput

theorem length_passedTransaction : passedTransaction.length = 297 := by
  decide +kernel

theorem length_passedTransaction_take : (passedTransaction.take 254).length ≤ 255 := by
  rw [List.length_take, length_passedTransaction]
  decide

theorem length_passedTransaction_drop : (passedTransaction.drop 254).length ≤ 255 := by
  rw [List.length_drop, length_passedTransaction]
  decide

/-- The transaction in chunks of 254 bytes, to a user who presses the right button when asked. -/
def passedSession : List Input :=
  [.apdu (signApdu 0 (passedTransaction.take 254) length_passedTransaction_take), .button .right,
    .apdu (signApdu 1 (passedTransaction.drop 254) length_passedTransaction_drop),
    .apdu (signApdu 1 [] empty_fits), .button .right, .apdu (signApdu 1 [] empty_fits)]

/-- It ends with one signing, of one output, and no output was ever on the screen. -/
theorem passedSession_ends : Runs.Ends (fun device : Device =>
    (signings device.log).map
        (fun signing : Bytes × List Event => (progressOf signing.2).outputs.length) = [1] ∧
      ∀ event ∈ device.log, ¬ event.IsPrepared)
    (run Sdk.plain Device.boot passedSession) := by
  decide +kernel

/-- Its output is read by a command, and signed without having been on the screen. -/
theorem signed_output_can_be_passed_over : ¬ ∀ (sdk : Sdk) (inputs : List Input)
    (device : Device) (innerHash : Bytes) (past : List Event),
    Runs.Along (step sdk) HostWaits Device.boot inputs → run sdk Device.boot inputs = .ok device →
      (innerHash, past) ∈ signings device.log →
        ∃ ins outs : List Bytes, progressOf past = .txnOut ins.length ins outs.length outs ∧
          ∀ index output, outs[index]? = some output → Approved sdk index output past := by
  have waits : Runs.Along (step Sdk.plain) HostWaits Device.boot passedSession := by decide +kernel
  obtain ⟨device, ran, once, never⟩ := Runs.exists_of_ends passedSession_ends
  obtain ⟨⟨innerHash, past⟩, only, one⟩ := List.map_eq_singleton_iff.mp once
  have member : (innerHash, past) ∈ signings device.log := by
    rw [only]
    exact List.mem_singleton.mpr rfl
  intro all
  obtain ⟨ins, outs, progress, approved⟩ := all Sdk.plain _ device innerHash past waits ran member
  have outputs : outs.length = 1 := by
    rw [progress] at one
    exact one
  obtain ⟨output, rfl⟩ := List.length_eq_one_iff.mp outputs
  obtain ⟨event, found, prepared⟩ := (approved 0 output rfl).exists_prepared
  obtain ⟨later, split⟩ := signings_split member
  refine never event ?_ prepared
  rw [split]
  exact List.mem_append_right _ (List.mem_cons_of_mem _ found)

end LedgerNano
