/-
This file is about the format of a transaction: which strings the parser reads to their end, and
how the elements a session has read make up a transaction.

The strings with allowed counts that are parsed to their end are the serialized transactions, and
each is that of one transaction (`stream_is_transaction_iff`). In a run the elements a session
took are always those of its progress (`Framed`), so that a session which read all it declared has
read a transaction (`exists_transaction`).
-/

import LedgerNano.Keeping
import LedgerNano.RawTransaction

namespace LedgerNano

/-! ### Elements as inputs and outputs -/

theorem le32_leValue {bytes : Bytes} (length : bytes.length = 4) :
    le32 (leValue bytes) = bytes := by
  have small := leValue_lt bytes
  rw [length] at small
  exact eq_of_leValue_eq length.symm (leValue_le32 small)

theorem le64_leValue {bytes : Bytes} (length : bytes.length = 8) :
    le64 (leValue bytes) = bytes := by
  have small := leValue_lt bytes
  rw [length] at small
  exact eq_of_leValue_eq length.symm (leValue_le64 small)

/-- Thirty-six bytes are those of an input. -/
theorem exists_hostInput {bytes : Bytes} (length : bytes.length = 36) :
    ∃ input : HostInput, input.serialized = bytes := by
  have index : (bytes.drop 32).length = 4 := by rw [List.length_drop, length]
  have small := leValue_lt (bytes.drop 32)
  rw [index] at small
  refine ⟨⟨⟨bytes.take 32, by rw [List.length_take, length]; rfl⟩, leValue (bytes.drop 32), small⟩,
    ?_⟩
  rw [HostInput.serialized, le32_leValue index]
  exact List.take_append_drop 32 bytes

/-- Thirty-seven bytes are those of an output. -/
theorem exists_hostOutput {bytes : Bytes} (length : bytes.length = 37) :
    ∃ output : HostOutput, output.serialized = bytes := by
  have amount : ((bytes.drop 21).take 8).length = 8 := by
    rw [List.length_take, List.length_drop, length]
    rfl
  have fee : ((bytes.drop 21).drop 8).length = 8 := by
    rw [List.length_drop, List.length_drop, length]
  have smallAmount := leValue_lt ((bytes.drop 21).take 8)
  have smallFee := leValue_lt ((bytes.drop 21).drop 8)
  rw [amount] at smallAmount
  rw [fee] at smallFee
  refine ⟨⟨⟨bytes.take 21, by rw [List.length_take, length]; rfl⟩, leValue ((bytes.drop 21).take 8),
    leValue ((bytes.drop 21).drop 8), smallAmount, smallFee⟩, ?_⟩
  rw [HostOutput.serialized, le64_leValue amount, le64_leValue fee, List.append_assoc,
    List.take_append_drop]
  exact List.take_append_drop 21 bytes

/-- The bytes of an input determine it. -/
theorem HostInput.serialized_injective : Function.Injective HostInput.serialized := by
  intro first second same
  rw [serialized, serialized] at same
  obtain ⟨uxId, index⟩ := List.append_inj same
    (first.uxId.length_contents.trans second.uxId.length_contents.symm)
  have sameIndex := eq_of_le32_eq first.small second.small index
  have sameUxId := Cells.ext uxId
  cases first
  cases second
  cases sameIndex
  cases sameUxId
  rfl

/-- The bytes of a transaction determine it. -/
theorem serializedTransaction_inj {inputs inputs' : List HostInput}
    {outputs outputs' : List HostOutput} (few : inputs.length < 2 ^ 32)
    (few' : inputs'.length < 2 ^ 32) (fewOutputs : outputs.length < 2 ^ 32)
    (fewOutputs' : outputs'.length < 2 ^ 32)
    (same : serializedTransaction inputs outputs = serializedTransaction inputs' outputs') :
    inputs = inputs' ∧ outputs = outputs' := by
  simp only [serializedTransaction, List.append_assoc] at same
  obtain ⟨inNum, rest⟩ := List.append_inj same rfl
  have count := eq_of_le32_eq few few' inNum
  obtain ⟨ins, rest⟩ := List.append_inj rest (by
    rw [length_serializedInputs, length_serializedInputs, count])
  obtain ⟨outNum, outs⟩ := List.append_inj rest rfl
  exact ⟨eq_of_flatten_eq HostInput.serialized_injective HostInput.length_serialized count ins,
    eq_of_flatten_eq HostOutput.serialized_injective HostOutput.length_serialized
      (eq_of_le32_eq fewOutputs fewOutputs' outNum) outs⟩

/-! ### The sizes of the elements read -/

namespace Progress

/-- The inputs and outputs read have the sizes of inputs and outputs. -/
structure Sized (progress : Progress) : Prop where
  inputs : ∀ input ∈ progress.inputs, input.length = 36
  outputs : ∀ output ∈ progress.outputs, output.length = 37

theorem sized_startIn : Sized .startIn := ⟨List.forall_mem_nil _, List.forall_mem_nil _⟩

theorem Sized.next {progress : Progress} (sized : progress.Sized) {record : Bytes}
    (length : record.length = progress.elementSize) : (progress.next record).Sized := by
  cases progress with
  | startIn => exact ⟨List.forall_mem_nil _, List.forall_mem_nil _⟩
  | txnIn inNum inputs =>
    have all : ∀ input ∈ inputs ++ [record], input.length = 36 := by
      intro input member
      rcases List.mem_append.mp member with earlier | last
      · exact sized.inputs input earlier
      · rw [List.mem_singleton.mp last]
        exact length
    rw [Progress.next]
    split
    · exact ⟨all, List.forall_mem_nil _⟩
    · exact ⟨all, List.forall_mem_nil _⟩
  | startOut inNum inputs => exact ⟨sized.inputs, List.forall_mem_nil _⟩
  | txnOut inNum inputs outNum outputs =>
    refine ⟨sized.inputs, fun output member => ?_⟩
    rcases List.mem_append.mp member with earlier | last
    · exact sized.outputs output earlier
    · rw [List.mem_singleton.mp last]
      exact length

/-- A progress that has read all it declared has read a transaction. -/
theorem Whole.exists_transaction {progress : Progress} (whole : progress.Whole)
    (sized : progress.Sized) : ∃ inputs outputs, progress = readTransaction inputs outputs := by
  have ins : progress.inputs ∈ Set.range (List.map HostInput.serialized) := by
    rw [Set.range_list_map]
    exact fun input member => exists_hostInput (sized.inputs input member)
  have outs : progress.outputs ∈ Set.range (List.map HostOutput.serialized) := by
    rw [Set.range_list_map]
    exact fun output member => exists_hostOutput (sized.outputs output member)
  obtain ⟨inputs, sameIn⟩ := ins
  obtain ⟨outputs, sameOut⟩ := outs
  refine ⟨inputs, outputs, ?_⟩
  rw [whole, ← sameIn, ← sameOut, List.length_map, List.length_map]
  rfl

end Progress

/-! ### Strings that are parsed to their end -/

/-- The counts the code is written for. -/
structure Allowed (inputs : List HostInput) (outputs : List HostOutput) : Prop where
  someInputs : 1 ≤ inputs.length
  fewInputs : inputs.length ≤ 20
  someOutputs : 1 ≤ outputs.length
  fewOutputs : outputs.length ≤ 255

theorem Allowed.eq_of_serialized {inputs inputs' : List HostInput}
    {outputs outputs' : List HostOutput} (allowed : Allowed inputs outputs)
    (allowed' : Allowed inputs' outputs')
    (same : serializedTransaction inputs outputs = serializedTransaction inputs' outputs') :
    inputs = inputs' ∧ outputs = outputs' := by
  obtain ⟨_, few, _, fewOutputs⟩ := allowed
  obtain ⟨_, few', _, fewOutputs'⟩ := allowed'
  exact serializedTransaction_inj (by omega) (by omega) (by omega) (by omega) same

namespace Progress

/-- Where outputs are read, all inputs declared were, and there were as many as allowed. -/
def HasInputs : Progress → Prop
  | txnOut inNum inputs _ _ => inputs.length = inNum ∧ 1 ≤ inNum ∧ inNum ≤ 20
  | _ => True

theorem HasInputs.next {progress : Progress} (hasInputs : progress.HasInputs) (fair : progress.Fair)
    (record : Bytes) : (progress.next record).HasInputs := by
  cases progress with
  | startIn => exact trivial
  | txnIn inNum inputs =>
    rw [Progress.next]
    split
    · exact trivial
    · exact trivial
  | startOut inNum inputs =>
    obtain ⟨all, some, few, _⟩ := fair
    exact ⟨all, some, few⟩
  | txnOut inNum inputs outNum outputs => exact hasInputs

theorem whole_of_complete {progress : Progress} (complete : progress.Complete)
    (hasInputs : progress.HasInputs) : progress.Whole := by
  cases progress with
  | startIn => exact absurd complete id
  | txnIn => exact absurd complete id
  | startOut => exact absurd complete id
  | txnOut inNum inputs outNum outputs =>
    show txnOut inNum inputs outNum outputs = txnOut inputs.length inputs outputs.length outputs
    rw [hasInputs.1, show outputs.length = outNum from complete]

end Progress

/-- What a string with allowed counts is read as. -/
theorem parseWhole_reads {whole : Bytes} (declares : Declares whole) :
    (parseWhole whole).state.Fair ∧ (parseWhole whole).state.Sized ∧
      (parseWhole whole).state.HasInputs ∧
        (parseWhole whole).state.bytes ++ (parseWhole whole).rest = whole := by
  have reads : (parseWhole whole).state.Fair ∧ (parseWhole whole).state.Sized ∧
      (parseWhole whole).state.HasInputs ∧
        (parseWhole whole).state.bytes = (parseWhole whole).records.flatten := by
    refine Progress.format.consume_rule (motive := fun progress taken =>
      progress.Fair ∧ progress.Sized ∧ progress.HasInputs ∧ progress.bytes = taken)
        ⟨Progress.startIn_fair, Progress.sized_startIn, trivial, rfl⟩ ?_
    intro progress taken record before positive size prefixed
    obtain ⟨fair, sized, hasInputs, rfl⟩ := before
    have incomplete := Progress.incomplete_of_size positive
    have length : record.length = progress.elementSize :=
      size.trans (Progress.size_of_incomplete incomplete)
    exact ⟨fair.next declares incomplete length prefixed, sized.next length,
      hasInputs.next fair record, Progress.bytes_next progress length⟩
  obtain ⟨fair, sized, hasInputs, bytes⟩ := reads
  refine ⟨fair, sized, hasInputs, ?_⟩
  rw [bytes]
  exact Progress.format.consume_flatten .startIn whole

/-- A string that is parsed to its end is a serialized transaction. -/
theorem Sends.exists_transaction {stream : Bytes} (sends : Sends stream) :
    ∃ inputs outputs, Allowed inputs outputs ∧ stream = serializedTransaction inputs outputs := by
  obtain ⟨fair, sized, hasInputs, bytes⟩ := parseWhole_reads sends.declares
  have whole := Progress.whole_of_complete sends.complete hasInputs
  obtain ⟨inputs, outputs, read⟩ := whole.exists_transaction sized
  rw [read] at fair hasInputs bytes
  rw [sends.rest, List.append_nil] at bytes
  obtain ⟨_, some, few⟩ := hasInputs
  exact ⟨inputs, outputs, ⟨some, few, fair.1, fair.2.1⟩, bytes.symm⟩

/-- The elements of the session have the sizes of what they are read as, and no byte of them is
lost. -/
structure Framed (log : List Event) : Prop where
  sized : (progressOf log).Sized
  bytes : (elementsOf log).flatten = (progressOf log).bytes

theorem Framed.congr {past log : List Event} (framed : Framed past)
    (progress : progressOf log = progressOf past) (elements : elementsOf log = elementsOf past) :
    Framed log := by
  refine ⟨?_, ?_⟩
  · rw [progress]
    exact framed.sized
  · rw [progress, elements]
    exact framed.bytes

/-- The elements of a call have the sizes that are due. -/
theorem call_framed {progress : Progress} {staged pending : Bytes} {result : Progress.Call}
    (called : progress.call staged pending = some result) (sized : progress.Sized) :
    result.progress.Sized ∧ result.progress.bytes = progress.bytes ++ result.records.flatten := by
  have due : ∀ (progress : Progress) (staged pending : Bytes),
      ¬ progress.Short staged.length pending.length →
      ((staged ++ pending).take progress.elementSize).length = progress.elementSize := by
    intro progress staged pending enough
    rw [List.length_take, List.length_append]
    exact Nat.min_eq_left (Progress.enough_of_not_short enough)
  revert sized
  refine Progress.call_rule (motive := fun progress _ _ result => progress.Sized →
    result.progress.Sized ∧ result.progress.bytes = progress.bytes ++ result.records.flatten)
    ?_ ?_ ?_ ?_ called
  · exact fun progress _ _ _ sized => ⟨sized, (List.append_nil progress.bytes).symm⟩
  · exact fun progress _ _ _ _ sized => ⟨sized, (List.append_nil progress.bytes).symm⟩
  · intro progress staged pending _ enough _ sized
    have length := due progress staged pending enough
    rw [Progress.outputCall_progress, Progress.outputCall_records, Progress.bytes_next _ length,
      List.flatten_singleton]
    exact ⟨sized.next length, rfl⟩
  · intro progress staged pending later enough _ _ deeper sized
    have length := due progress staged pending enough
    obtain ⟨sizedLater, bytes⟩ := deeper (sized.next length)
    refine ⟨sizedLater, ?_⟩
    rw [bytes, Progress.bytes_next _ length, List.flatten_cons, List.append_assoc]

/-- A call of the parser keeps the elements in their frames. -/
theorem Resumed.framed {sdk : Sdk} {device called : Device} {code : Nat}
    (framed : Framed device.log)
    (resumes : Resumed sdk (progressOf device.log) device code called) : Framed called.log := by
  cases resumes with
  | read call ctx tracks calls reached thrown result =>
    subst result
    obtain ⟨sized, bytes⟩ := call_framed calls framed.sized
    have progress : progressOf (device.readBy call.records ctx).log = call.progress := by
      rw [Progress.call_progress calls]
      exact progressOf_elements call.records device.log
    have elements : elementsOf (device.readBy call.records ctx).log =
      elementsOf device.log ++ call.records := elementsOf_elements call.records device.log
    refine ⟨?_, ?_⟩
    · rw [progress]
      exact sized
    · rw [progress, elements, List.flatten_append, framed.bytes, bytes]
  | computed signs state computes =>
    cases computes with
    | raised path table counter derived signed result =>
      subst result
      exact framed.congr (progressOf_derive derived _) (elementsOf_derive derived _)
    | finished signatures derived signed each derivations result returned =>
      rw [afterBatch_log returned]
      subst result
      exact framed.congr (progressOf_derive derived _) (elementsOf_derive derived _)
  | returned signs state returns =>
    rw [afterBatch_log returns]
    exact framed

theorem Event.Passive.elementsOf {event : Event} (passive : event.Passive) (past : List Event) :
    elementsOf (event :: past) = elementsOf past := by
  cases event with
  | sessionStart => exact absurd passive id
  | rightPress => exact absurd passive id
  | element => exact absurd passive id
  | computeSigs => exact absurd passive id
  | _ => rfl

theorem Event.Passive.progressOf {event : Event} (passive : event.Passive) (past : List Event) :
    progressOf (event :: past) = progressOf past := by
  cases event with
  | sessionStart => exact absurd passive id
  | rightPress => exact absurd passive id
  | element => exact absurd passive id
  | computeSigs => exact absurd passive id
  | _ => rfl

theorem keeps_framed (sdk : Sdk) :
    Keeps sdk (fun _ log => Framed log) (fun _ log => Framed log) where
  passive _ _ past passive framed :=
    framed.congr (passive.progressOf past) (passive.elementsOf past)
  load _ _ _ _ framed := framed
  command _ _ _ framed := framed
  press _ _ _ framed := framed.congr rfl rfl
  start _ _ _ _ := ⟨Progress.sized_startIn, rfl⟩
  call _ _ _ framed resumes := resumes.framed framed

end LedgerNano
