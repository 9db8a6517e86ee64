/-
This file proves that the parser of `txn.c` is the call described in `Transaction.lean`.

Taking an element keeps the relation to the progress (`takeInNum_tracks` and its three
siblings). A pass takes the element the progress asks for (`txnNextElemPass_takes`, and
`txnNextElemPass_takesOutput` where it stops there), saves what is too short
(`txnNextElemPass_short`) or ends the reading (`txnNextElemPass_finished`), and
`txnNextElem_reads` follows the loop through as many passes as the chunk feeds. Where the
abstract call has no result, the code stores an input past its table (`txnNextElemPass_overruns`).
-/

import LedgerNano.Signing
import LedgerNano.Tracking

namespace LedgerNano

/-! ### The reading states as equations -/

section Equations

variable {sdk : Sdk} {apduBuffer : Cells Byte 260} {ctx : SignTxnContext}

theorem saveAndThrow_eq (room : ctx.dataLength ≤ 37) (element : Option Bytes) (code : Nat) :
    saveAndThrow apduBuffer element code ctx =
      .ok { ctx := ctx.save apduBuffer, element, thrown := some code } := by
  rw [saveAndThrow, saveDataToBuffer, if_pos room]
  rfl

theorem readDataToBuffer_eq {size : Nat} (offset : ctx.offset ≤ size) (room : size ≤ 37) :
    readDataToBuffer apduBuffer size ctx = .ok (ctx.fill apduBuffer size) := by
  rw [readDataToBuffer, if_pos ⟨offset, room⟩]

theorem txnStartIn_short (short : ctx.offset + ctx.dataLength < 4) :
    txnStartIn apduBuffer ctx =
      .ok { ctx := ctx.save apduBuffer, element := none, thrown := some txnPartial } := by
  rw [txnStartIn, if_pos short, saveAndThrow_eq (by omega)]

theorem txnStartIn_takes (offset : ctx.offset ≤ 4) (enough : ¬ ctx.offset + ctx.dataLength < 4) :
    txnStartIn apduBuffer ctx =
      .ok { ctx := takeInNum (ctx.fill apduBuffer 4)
            element := some ((ctx.fill apduBuffer 4).buffer.read 0 4), thrown := none } := by
  rw [txnStartIn, if_neg enough, readDataToBuffer_eq offset (by decide)]
  rfl

theorem txnIn_short (short : ctx.offset + ctx.dataLength < 36) :
    txnIn apduBuffer ctx =
      .ok { ctx := ctx.save apduBuffer, element := none, thrown := some txnPartial } := by
  rw [txnIn, if_pos short, saveAndThrow_eq (by omega)]

theorem txnIn_takes (offset : ctx.offset ≤ 36) (enough : ¬ ctx.offset + ctx.dataLength < 36)
    (inside : ctx.currObj < maxInputs) :
    txnIn apduBuffer ctx =
      .ok { ctx := takeInput (ctx.fill apduBuffer 36) inside
            element := some ((ctx.fill apduBuffer 36).buffer.read 0 36), thrown := none } := by
  have inside' : (ctx.fill apduBuffer 36).currObj < maxInputs := inside
  rw [txnIn, if_neg enough, readDataToBuffer_eq offset (by decide)]
  simp only [bind, Except.bind]
  rw [dif_pos inside']
  rfl

theorem takeInput_frame (ctx : SignTxnContext) (inside : ctx.currObj < maxInputs) :
    (takeInput ctx inside).offset = ctx.offset ∧
      (takeInput ctx inside).dataBuffer = ctx.dataBuffer ∧
      (takeInput ctx inside).dataLength = ctx.dataLength ∧
      (takeInput ctx inside).initialized = ctx.initialized := by
  rw [takeInput]
  split <;> exact ⟨rfl, rfl, rfl, rfl⟩

theorem takeInput_innerHash (ctx : SignTxnContext) (inside : ctx.currObj < maxInputs) :
    (takeInput ctx inside).txn.innerHash = ctx.txn.innerHash := by
  rw [takeInput]
  split <;> rfl

theorem txnIn_overruns (offset : ctx.offset ≤ 36) (enough : ¬ ctx.offset + ctx.dataLength < 36)
    (full : maxInputs ≤ ctx.currObj) : txnIn apduBuffer ctx = .error .inputTable := by
  have outside : ¬ (ctx.fill apduBuffer 36).currObj < maxInputs := not_lt.mpr full
  rw [txnIn, if_neg enough, readDataToBuffer_eq offset (by decide)]
  simp only [bind, Except.bind]
  rw [dif_neg outside]

theorem txnStartOut_short (short : ctx.dataLength < 4) :
    txnStartOut apduBuffer ctx =
      .ok { ctx := ctx.save apduBuffer, element := none, thrown := some txnPartial } := by
  rw [txnStartOut, if_pos short, saveAndThrow_eq (by omega)]

theorem txnStartOut_takes (offset : ctx.offset ≤ 4) (enough : ¬ ctx.dataLength < 4) :
    txnStartOut apduBuffer ctx =
      .ok { ctx := takeOutNum (ctx.fill apduBuffer 4)
            element := some ((ctx.fill apduBuffer 4).buffer.read 0 4), thrown := none } := by
  rw [txnStartOut, if_neg enough, readDataToBuffer_eq offset (by decide)]
  rfl

/-- The context after `THROW(TXN_READY)`. -/
def SignTxnContext.ready (ctx : SignTxnContext) : SignTxnContext :=
  { ctx with txnState := .computeSigs, currObj := 0 }

theorem txnOut_ready (last : ctx.currObj = ctx.txn.outNum) :
    txnOut sdk apduBuffer ctx =
      .ok { ctx := ctx.ready, element := none, thrown := some txnReady } := by
  rw [txnOut, if_pos last]
  rfl

theorem txnOut_short (more : ctx.currObj ≠ ctx.txn.outNum)
    (short : ctx.offset + ctx.dataLength < 37) :
    txnOut sdk apduBuffer ctx =
      .ok { ctx := ctx.save apduBuffer, element := none, thrown := some txnPartial } := by
  rw [txnOut, if_neg more, if_pos short, saveAndThrow_eq (by omega)]

theorem takeOutput_frame (sdk : Sdk) (ctx : SignTxnContext) :
    (takeOutput sdk ctx).txnState = ctx.txnState ∧ (takeOutput sdk ctx).offset = ctx.offset ∧
      (takeOutput sdk ctx).dataBuffer = ctx.dataBuffer ∧
      (takeOutput sdk ctx).dataLength = ctx.dataLength ∧
      (takeOutput sdk ctx).initialized = ctx.initialized := by
  rw [takeOutput]
  split <;> exact ⟨rfl, rfl, rfl, rfl, rfl⟩

/-- Only the last output writes the inner hash. -/
theorem takeOutput_innerHash
    (more : (takeOutput sdk ctx).currObj ≠ (takeOutput sdk ctx).txn.outNum) :
    (takeOutput sdk ctx).txn.innerHash = ctx.txn.innerHash := by
  by_cases last : (ctx.currObj + 1) % 2 ^ 8 = ctx.txn.outNum
  · rw [takeOutput, if_pos last] at more
    exact absurd last more
  · rw [takeOutput, if_neg last]

/-- An output is followed by a save when the rest of the chunk is shorter than another one. -/
theorem txnOut_takes (state : ctx.txnState = .txnOut) (offset : ctx.offset ≤ 37)
    (more : ctx.currObj ≠ ctx.txn.outNum) (enough : ¬ ctx.offset + ctx.dataLength < 37) :
    txnOut sdk apduBuffer ctx =
      .ok (if (ctx.fill apduBuffer 37).dataLength < 37 then
        { ctx := (takeOutput sdk (ctx.fill apduBuffer 37)).save apduBuffer
          element := some ((ctx.fill apduBuffer 37).buffer.read 0 37)
          thrown := some txnPartialOut }
      else
        { ctx := takeOutput sdk (ctx.fill apduBuffer 37)
          element := some ((ctx.fill apduBuffer 37).buffer.read 0 37)
          thrown := some txnApproveOut }) := by
  obtain ⟨sameState, sameOffset, _, sameLength, _⟩ :=
    takeOutput_frame sdk (ctx.fill apduBuffer 37)
  have filledOffset : (takeOutput sdk (ctx.fill apduBuffer 37)).offset = 0 := sameOffset
  have reading : (takeOutput sdk (ctx.fill apduBuffer 37)).txnState ≠ .computeSigs := by
    rw [sameState]
    exact fun same => TxnState.noConfusion (state.symm.trans same)
  rw [txnOut, if_neg more, if_neg enough, readDataToBuffer_eq offset (by decide)]
  simp only [bind, Except.bind, filledOffset, sameLength, Nat.zero_add]
  by_cases short : (ctx.fill apduBuffer 37).dataLength < 37
  · rw [if_pos ⟨short, reading⟩, if_pos short, saveAndThrow_eq (by omega)]
  · rw [if_neg fun both => short both.1, if_neg short]
    rfl

end Equations

/-! ### Taking an element keeps the relation -/

section Taking

variable {sdk : Sdk} {ctx : SignTxnContext}

theorem takeInNum_tracks (tracks : Tracks sdk .startIn ctx) (offset : ctx.offset = 0)
    (count : Bytes) (buffer : ctx.buffer.read 0 4 = count) (length : count.length = 4) :
    Tracks sdk (Progress.startIn.next count) (takeInNum ctx) where
  state := rfl
  hash := by
    have empty : ctx.hash = [] := tracks.hash
    simp only [takeInNum, Progress.next, Progress.hashed, empty, buffer, List.nil_append,
      List.map_nil, List.flatten_nil, List.append_nil]
    exact (le32_u4LE count length).symm
  offset := by
    rw [takeInNum, offset]
    exact Progress.elementSize_pos _
  stores := fun i _ bound => absurd bound (Nat.not_lt_zero i)
  sizes := fun input member => absurd member (List.not_mem_nil)
  agrees := by
    refine ⟨?_, rfl, Nat.zero_le _, Nat.eq_zero_or_pos _⟩
    rw [takeInNum, buffer]

/-- Storing an input in the slot after the last one. -/
theorem Stores.snoc {inputs : List Bytes} {input : Bytes} {after : SignTxnContext} {index : Nat}
    (stores : Stores inputs ctx) (here : index = inputs.length) (length : input.length = 36)
    (slot : SigInput)
    (table : after.txn.sigInput = ctx.txn.sigInput.set index (slot.storeInput input)) :
    Stores (inputs ++ [input]) after := by
  subst here
  intro i inside bound
  rw [List.length_append, List.length_singleton] at bound
  by_cases last : i = inputs.length
  · subst last
    have stored : (slot.storeInput input).input = input := by
      rw [SigInput.input, SigInput.storeInput, ← length]
      exact slot.read_write_self 0 input (by omega)
    rw [List.getElem?_concat_length]
    simp only [table, Cells.get_set_self, stored]
  · rw [List.getElem?_append_left (by omega), stores i inside (by omega)]
    simp only [table, Cells.get_set_other _ _ _ _ inside last]

theorem takeInput_tracks {inNum : Nat} {inputs : List Bytes}
    (tracks : Tracks sdk (.txnIn inNum inputs) ctx) (offset : ctx.offset = 0)
    (inside : ctx.currObj < maxInputs) (input : Bytes) (buffer : ctx.buffer.read 0 36 = input)
    (length : input.length = 36) :
    Tracks sdk ((Progress.txnIn inNum inputs).next input) (takeInput ctx inside) := by
  obtain ⟨declared, counter, room, different⟩ := tracks.agrees
  have bound : inputs.length < 20 := counter ▸ inside
  have counted : (ctx.currObj + 1) % 2 ^ 8 = (inputs ++ [input]).length := by
    rw [List.length_append, List.length_singleton, counter]
    omega
  have id : ctx.buffer.read 0 32 = input.take 32 := by
    rw [← buffer, Cells.take_read _ _ _ _ (by decide)]
  have hashed : ctx.hash ++ ctx.buffer.read 0 32 =
      ((Progress.txnIn inNum inputs).next input).hashed := by
    rw [Progress.hashed_next_input, tracks.hash, id]
  have stored : ∀ after : SignTxnContext, after.txn.sigInput = ctx.txn.sigInput.set ctx.currObj
      ((ctx.txn.sigInput.get ctx.currObj inside).storeInput (ctx.buffer.read 0 36)) →
      Stores (inputs ++ [input]) after := by
    intro after table
    refine tracks.stores.snoc counter length (ctx.txn.sigInput.get ctx.currObj inside) ?_
    rw [table, buffer]
  have sizes : ∀ other ∈ inputs ++ [input], other.length = 36 := by
    intro other member
    rcases List.mem_append.mp member with earlier | newest
    · exact tracks.sizes other earlier
    · rw [List.mem_singleton.mp newest, length]
  by_cases last : (inputs ++ [input]).length = inNum
  · have next : (Progress.txnIn inNum inputs).next input =
        .startOut inNum (inputs ++ [input]) := if_pos last
    rw [takeInput, if_pos (counted.trans (last.trans declared.symm))]
    rw [next] at hashed ⊢
    refine ⟨rfl, hashed, ?_, stored _ rfl, sizes, declared, last, ?_, ?_⟩
    · exact offset.symm ▸ Progress.elementSize_pos _
    · omega
    · rw [← last, List.length_append, List.length_singleton]
      exact bound
  · have next : (Progress.txnIn inNum inputs).next input =
        .txnIn inNum (inputs ++ [input]) := if_neg last
    rw [takeInput, if_neg (fun same => last (counted.symm.trans (same.trans declared)))]
    rw [next] at hashed ⊢
    refine ⟨tracks.state, hashed, ?_, stored _ rfl, sizes, declared, counted, ?_, ?_⟩
    · exact offset.symm ▸ Progress.elementSize_pos _
    · rw [List.length_append, List.length_singleton]
      exact bound
    · rw [List.length_append, List.length_singleton] at last ⊢
      omega

theorem takeOutNum_tracks {inNum : Nat} {inputs : List Bytes}
    (tracks : Tracks sdk (.startOut inNum inputs) ctx) (offset : ctx.offset = 0) (count : Bytes)
    (buffer : ctx.buffer.read 0 4 = count) (length : count.length = 4) :
    Tracks sdk ((Progress.startOut inNum inputs).next count) (takeOutNum ctx) where
  state := rfl
  hash := by
    simp only [takeOutNum, Progress.next, Progress.hashed, tracks.hash, buffer,
      List.flatten_nil, List.append_nil]
    rw [le32_u4LE count length]
  offset := by
    rw [takeOutNum, offset]
    exact Progress.elementSize_pos _
  stores := tracks.stores
  sizes := tracks.sizes
  agrees := by
    refine ⟨tracks.agrees, ⟨?_, rfl, fun _ => Nat.zero_le _⟩, fun some => absurd rfl some,
      fun earlier last same => ?_⟩
    · rw [takeOutNum, buffer]
    · exact absurd same (by simp)

theorem takeOutput_tracks {inNum outNum : Nat} {inputs outputs : List Bytes}
    (tracks : Tracks sdk (.txnOut inNum inputs outNum outputs) ctx) (offset : ctx.offset = 0)
    (unfinished : ¬ Progress.Finished (.txnOut inNum inputs outNum outputs))
    (output : Bytes) (buffer : ctx.buffer.read 0 37 = output) :
    Tracks sdk ((Progress.txnOut inNum inputs outNum outputs).next output)
      (takeOutput sdk ctx) := by
  obtain ⟨counts, ⟨declared, counter, bound⟩, _, _⟩ := tracks.agrees
  have unfinished : outputs.length % 2 ^ 8 ≠ outNum := unfinished
  have counted : (ctx.currObj + 1) % 2 ^ 8 = (outputs ++ [output]).length % 2 ^ 8 := by
    rw [List.length_append, List.length_singleton, counter]
    omega
  have hashed : ctx.hash ++ ctx.buffer.read 0 37 =
      ((Progress.txnOut inNum inputs outNum outputs).next output).hashed := by
    rw [tracks.hash, buffer]
    simp only [Progress.next, Progress.hashed, List.flatten_append, List.flatten_cons,
      List.flatten_nil, List.append_nil, List.append_assoc]
  have more : outNum < 2 ^ 8 → (outputs ++ [output]).length ≤ outNum := by
    intro small
    have before := bound small
    rw [List.length_append, List.length_singleton]
    omega
  have current : ∀ earlier last, outputs ++ [output] = earlier ++ [last] →
      TxnOutput.ofBytes (ctx.buffer.read 0 37) = TxnOutput.ofBytes last := by
    intro earlier last same
    rw [buffer, (List.append_inj_right' same rfl : [output] = [last]) |> List.singleton_inj.mp]
  by_cases last : (ctx.currObj + 1) % 2 ^ 8 = ctx.txn.outNum
  · rw [takeOutput, if_pos last]
    exact ⟨tracks.state, hashed, offset.symm ▸ Progress.elementSize_pos _, tracks.stores,
      tracks.sizes, counts, ⟨declared, counted, more⟩, fun _ _ => rfl, current⟩
  · rw [takeOutput, if_neg last]
    exact ⟨tracks.state, hashed, offset.symm ▸ Progress.elementSize_pos _, tracks.stores,
      tracks.sizes, counts, ⟨declared, counted, more⟩,
      fun _ same => absurd (same.trans declared.symm) last, current⟩

end Taking


/-! ### One pass through the switch -/

/-- The device after elements were read: another context, and the elements in the log. -/
def Device.readBy (device : Device) (records : List Bytes) (after : SignTxnContext) : Device :=
  { device with
    signTxnContext := after
    log := (records.map Event.element).reverse ++ device.log }

theorem Device.readBy_readBy (device : Device) (first second : List Bytes)
    (middle after : SignTxnContext) :
    (device.readBy first middle).readBy second after = device.readBy (first ++ second) after := by
  simp only [Device.readBy, List.map_append, List.reverse_append, List.append_assoc]

/-- A context that has left the reading states with all outputs read. -/
def ReadyFor (sdk : Sdk) (progress : Progress) (ctx : SignTxnContext) : Prop :=
  progress.Finished ∧ ∃ before, Tracks sdk progress before ∧ ctx = before.ready

section Passes

variable {sdk : Sdk} {progress : Progress} {device : Device}

/-- The fields a tracked context keeps when its element is completed from the chunk. -/
theorem Tracks.fill {ctx : SignTxnContext} (tracks : Tracks sdk progress ctx)
    (apduBuffer : Cells Byte 260) (size : Nat) :
    Tracks sdk progress (ctx.fill apduBuffer size) where
  state := tracks.state
  hash := tracks.hash
  offset := progress.elementSize_pos
  stores := tracks.stores
  sizes := tracks.sizes
  agrees := by
    have agrees := tracks.agrees
    cases progress <;> exact agrees

/-- The counter test of `TXN_OUT` is the test for the last output. -/
theorem finished_iff {ctx : SignTxnContext} (tracks : Tracks sdk progress ctx)
    (outputs : progress.state = .txnOut) :
    ctx.currObj = ctx.txn.outNum ↔ progress.Finished := by
  cases progress with
  | txnOut inNum inputs outNum outputs =>
    obtain ⟨_, ⟨declared, counter, _⟩, _, _⟩ := tracks.agrees
    rw [declared, counter]
    rfl
  | startIn => cases outputs
  | txnIn => cases outputs
  | startOut => cases outputs

theorem not_finished_of_state (other : progress.state ≠ .txnOut) : ¬ progress.Finished := by
  cases progress with
  | txnOut => exact absurd rfl other
  | startIn => exact id
  | txnIn => exact id
  | startOut => exact id

theorem txnNextElemPass_finished (tracks : Tracks sdk progress device.signTxnContext)
    (finished : progress.Finished) :
    txnNextElemPass sdk device =
      .ok (some txnReady, device.readBy [] device.signTxnContext.ready) := by
  have outputs : progress.state = .txnOut := by
    by_contra other
    exact not_finished_of_state other finished
  rw [txnNextElemPass, tracks.state, outputs]
  simp only
  rw [txnOut_ready ((finished_iff tracks outputs).mpr finished)]
  rfl

theorem txnNextElemPass_short (tracks : Tracks sdk progress device.signTxnContext)
    (unfinished : ¬ progress.Finished)
    (short : progress.Short device.signTxnContext.offset device.signTxnContext.dataLength) :
    txnNextElemPass sdk device =
      .ok (some txnPartial,
        device.readBy [] (device.signTxnContext.save device.apduBuffer)) := by
  rw [txnNextElemPass, tracks.state]
  cases progress with
  | startIn =>
    simp only [Progress.state]
    rw [txnStartIn_short short]
    rfl
  | txnIn =>
    simp only [Progress.state]
    rw [txnIn_short short]
    rfl
  | startOut =>
    simp only [Progress.state]
    rw [txnStartOut_short short]
    rfl
  | txnOut =>
    simp only [Progress.state]
    rw [txnOut_short (mt (finished_iff tracks rfl).mp unfinished) short]
    rfl

theorem txnNextElemPass_overruns (tracks : Tracks sdk progress device.signTxnContext)
    (enough : ¬ progress.Short device.signTxnContext.offset device.signTxnContext.dataLength)
    (overruns : progress.Overruns) :
    txnNextElemPass sdk device = .error .inputTable := by
  rw [txnNextElemPass, tracks.state]
  cases progress with
  | txnIn inNum inputs =>
    obtain ⟨_, counter, _, _⟩ := tracks.agrees
    have full : maxInputs ≤ inputs.length := overruns
    simp only [Progress.state]
    rw [txnIn_overruns (le_of_lt tracks.offset) enough (counter ▸ full)]
    rfl
  | startIn => exact absurd overruns id
  | startOut => exact absurd overruns id
  | txnOut => exact absurd overruns id

/-- In the states before the outputs a pass that finds its element whole takes it and goes
round again. -/
theorem txnNextElemPass_takes (tracks : Tracks sdk progress device.signTxnContext)
    (loaded : device.signTxnContext.Loaded)
    (enough : ¬ progress.Short device.signTxnContext.offset device.signTxnContext.dataLength)
    (room : ¬ progress.Overruns) (earlier : progress.state ≠ .txnOut) (record : Bytes)
    (taken : record = (device.signTxnContext.staged ++
      device.signTxnContext.pending device.apduBuffer).take progress.elementSize) :
    ∃ after, txnNextElemPass sdk device = .ok (none, device.readBy [record] after) ∧
      Took sdk device.apduBuffer progress record device.signTxnContext after := by
  have size := Progress.enough_of_not_short enough
  have buffer : (device.signTxnContext.fill device.apduBuffer progress.elementSize).buffer.read 0
      progress.elementSize = record := by
    rw [taken]
    exact SignTxnContext.buffer_fill loaded (le_of_lt tracks.offset) progress.elementSize_le size
  have length : record.length = progress.elementSize := by
    rw [taken, List.length_take, List.length_append,
      SignTxnContext.length_staged _ tracks.offset_le, SignTxnContext.length_pending _ loaded]
    omega
  have filled := tracks.fill device.apduBuffer progress.elementSize
  rw [txnNextElemPass, tracks.state]
  cases progress with
  | startIn =>
    refine ⟨_, ?_,
      Took.of_fill tracks loaded size (takeInNum_tracks filled rfl record buffer length)
      rfl rfl rfl rfl fun _ => rfl⟩
    simp only [Progress.state]
    rw [txnStartIn_takes (le_of_lt tracks.offset) enough, ← buffer]
    rfl
  | txnIn inNum inputs =>
    obtain ⟨_, counter, _, _⟩ := tracks.agrees
    have inside : device.signTxnContext.currObj < maxInputs := counter ▸ not_le.mp room
    obtain ⟨sameOffset, sameBuffer, sameLength, sameSession⟩ := takeInput_frame
      (device.signTxnContext.fill device.apduBuffer 36) inside
    have sameHash := takeInput_innerHash (device.signTxnContext.fill device.apduBuffer 36) inside
    refine ⟨_, ?_, Took.of_fill tracks loaded size
      (takeInput_tracks filled rfl inside record buffer length) sameOffset sameBuffer sameLength
      sameSession fun _ => sameHash⟩
    simp only [Progress.state]
    rw [txnIn_takes (le_of_lt tracks.offset) enough inside, ← buffer]
    rfl
  | startOut =>
    refine ⟨_, ?_, Took.of_fill tracks loaded size
      (takeOutNum_tracks filled rfl record buffer length) rfl rfl rfl rfl fun _ => rfl⟩
    simp only [Progress.state]
    rw [txnStartOut_takes (le_of_lt tracks.offset) enough, ← buffer]
    rfl
  | txnOut => exact absurd rfl earlier

/-- A pass that takes an output ends the call, with the rest saved when it is short. -/
theorem txnNextElemPass_takesOutput (tracks : Tracks sdk progress device.signTxnContext)
    (loaded : device.signTxnContext.Loaded) (unfinished : ¬ progress.Finished)
    (enough : ¬ progress.Short device.signTxnContext.offset device.signTxnContext.dataLength)
    (reading : progress.state = .txnOut) (record rest : Bytes)
    (taken : record = (device.signTxnContext.staged ++
      device.signTxnContext.pending device.apduBuffer).take progress.elementSize)
    (left : rest = (device.signTxnContext.staged ++
      device.signTxnContext.pending device.apduBuffer).drop progress.elementSize) :
    ∃ after, txnNextElemPass sdk device =
        .ok (some (progress.outputCall record rest).code, device.readBy [record] after) ∧
      Tracks sdk (progress.next record) after ∧ after.Loaded ∧
      after.initialized = device.signTxnContext.initialized ∧
      after.staged = (progress.outputCall record rest).staged ∧
      after.pending device.apduBuffer = (progress.outputCall record rest).pending ∧
      (¬ (progress.next record).TookLast →
        after.txn.innerHash = device.signTxnContext.txn.innerHash) := by
  cases progress with
  | startIn => cases reading
  | txnIn => cases reading
  | startOut => cases reading
  | txnOut inNum inputs outNum outputs =>
    have size := Progress.enough_of_not_short enough
    have counting := mt (finished_iff tracks rfl).mp unfinished
    have buffer : (device.signTxnContext.fill device.apduBuffer 37).buffer.read 0 37 = record := by
      rw [taken]
      exact SignTxnContext.buffer_fill loaded (le_of_lt tracks.offset) (le_refl 37) size
    obtain ⟨sameState, sameOffset, sameBuffer, sameLength, sameSession⟩ :=
      takeOutput_frame sdk (device.signTxnContext.fill device.apduBuffer 37)
    have next := takeOutput_tracks (tracks.fill device.apduBuffer 37) rfl unfinished
      record buffer
    have keepsHash : ¬ ((Progress.txnOut inNum inputs outNum outputs).next record).TookLast →
        (takeOutput sdk (device.signTxnContext.fill device.apduBuffer 37)).txn.innerHash =
          device.signTxnContext.txn.innerHash := by
      intro more
      refine takeOutput_innerHash fun last => more ⟨?_, (finished_iff next rfl).mp last⟩
      rw [Progress.outputs_next_output rfl]
      exact List.append_ne_nil_of_right_ne_nil _ (List.cons_ne_nil _ _)
    have took : Took sdk device.apduBuffer (.txnOut inNum inputs outNum outputs) record
        device.signTxnContext _ :=
      Took.of_fill tracks loaded size next sameOffset sameBuffer sameLength sameSession keepsHash
    have lengthRest : rest.length =
        (takeOutput sdk (device.signTxnContext.fill device.apduBuffer 37)).dataLength := by
      rw [left, ← took.pending, SignTxnContext.length_pending _ took.loaded]
    rw [txnNextElemPass, tracks.state]
    simp only [Progress.state]
    rw [txnOut_takes tracks.state (le_of_lt tracks.offset) counting enough, ← sameLength, buffer,
      Progress.outputCall, lengthRest]
    by_cases short :
      (takeOutput sdk (device.signTxnContext.fill device.apduBuffer 37)).dataLength < 37
    · rw [if_pos short, if_pos short]
      refine ⟨_, rfl, next.save device.apduBuffer short, took.loaded,
        took.initialized, ?_, SignTxnContext.pending_save, took.innerHash⟩
      rw [SignTxnContext.staged_save took.loaded (le_of_lt short), took.pending, left]
    · rw [if_neg short, if_neg short]
      exact ⟨_, rfl, next, took.loaded, took.initialized, took.staged,
        took.pending.trans left.symm, took.innerHash⟩

end Passes

/-! ### The loop -/

/-- The context an abstract call leaves in memory. -/
structure Called (sdk : Sdk) (apduBuffer : Cells Byte 260) (call : Progress.Call)
    (initialized : Bool) (after : SignTxnContext) : Prop where
  staged : after.staged = call.staged
  pending : after.pending apduBuffer = call.pending
  loaded : after.Loaded
  initialized : after.initialized = initialized
  reached : if call.code = txnReady then ReadyFor sdk call.progress after
    else Tracks sdk call.progress after

/-- A call that does not take the last output leaves the inner hash in memory alone. -/
def Progress.Call.KeepsHash (call : Progress.Call) (before after : SignTxnContext) : Prop :=
  ¬ call.progress.TookLast → after.txn.innerHash = before.txn.innerHash

theorem outputCall_code_ne_ready (progress : Progress) (record rest : Bytes) :
    (progress.outputCall record rest).code ≠ txnReady := by
  rw [Progress.outputCall_code]
  split <;> decide

/-- Enough passes of the loop are the abstract call. The induction is on the abstract call: each
of its turns is one pass, and a pass that goes round again shortens the chunk. -/
theorem txnNextElemLoop_reads (sdk : Sdk) (progress : Progress) (staged pending : Bytes)
    (device : Device) (passes : Nat) (tracks : Tracks sdk progress device.signTxnContext)
    (loaded : device.signTxnContext.Loaded) (sameStaged : device.signTxnContext.staged = staged)
    (samePending : device.signTxnContext.pending device.apduBuffer = pending)
    (fuel : pending.length ≤ passes) :
    match progress.call staged pending with
    | none => txnNextElemLoop sdk (passes + 1) device = .error .inputTable
    | some call => ∃ after,
        txnNextElemLoop sdk (passes + 1) device =
          .ok (call.code, device.readBy call.records after) ∧
          Called sdk device.apduBuffer call device.signTxnContext.initialized after ∧
            call.KeepsHash device.signTxnContext after := by
  induction progress, staged, pending using Progress.call.induct generalizing device passes with
  | case1 progress staged pending finished =>
    rw [Progress.call, if_pos finished]
    refine ⟨device.signTxnContext.ready, ?_,
      ⟨sameStaged, samePending, loaded, rfl, finished, _, tracks, rfl⟩, fun _ => rfl⟩
    rw [txnNextElemLoop, txnNextElemPass_finished tracks finished]
  | case2 progress staged pending unfinished short =>
    rw [Progress.call, if_neg unfinished, if_pos short]
    rw [← sameStaged, ← samePending, SignTxnContext.length_staged _ tracks.offset_le,
      SignTxnContext.length_pending _ loaded] at short
    have shorter := Progress.pending_lt_of_short short
    have size := progress.elementSize_le
    refine ⟨device.signTxnContext.save device.apduBuffer, ?_, ⟨?_, SignTxnContext.pending_save,
      loaded, rfl, tracks.save _ shorter⟩, fun _ => rfl⟩
    · rw [txnNextElemLoop, txnNextElemPass_short tracks unfinished short]
    · rw [SignTxnContext.staged_save loaded (by omega), samePending]
  | case3 progress staged pending unfinished enough overruns =>
    rw [Progress.call, if_neg unfinished, if_neg enough, if_pos overruns]
    rw [← sameStaged, ← samePending, SignTxnContext.length_staged _ tracks.offset_le,
      SignTxnContext.length_pending _ loaded] at enough
    show txnNextElemLoop sdk (passes + 1) device = .error .inputTable
    rw [txnNextElemLoop, txnNextElemPass_overruns tracks enough overruns]
  | case4 progress staged pending unfinished enough room reading =>
    rw [Progress.call, if_neg unfinished, if_neg enough, if_neg room]
    simp only [if_pos reading]
    rw [← sameStaged, ← samePending, SignTxnContext.length_staged _ tracks.offset_le,
      SignTxnContext.length_pending _ loaded] at enough
    obtain ⟨after, passed, next, loadedAfter, session, stagedAfter, pendingAfter, keepsHash⟩ :=
      txnNextElemPass_takesOutput tracks loaded unfinished enough reading
        ((staged ++ pending).take progress.elementSize)
        ((staged ++ pending).drop progress.elementSize)
        (by rw [sameStaged, samePending]) (by rw [sameStaged, samePending])
    refine ⟨after, ?_, ⟨stagedAfter, pendingAfter, loadedAfter, session, ?_⟩, fun more => ?_⟩
    · rw [txnNextElemLoop, passed, Progress.outputCall_records]
    · rw [if_neg (outputCall_code_ne_ready progress _ _), Progress.outputCall_progress]
      exact next
    · rw [Progress.outputCall_progress] at more
      exact keepsHash more
  | case5 progress staged pending unfinished enough room record rest earlier inductionHypothesis =>
    rw [Progress.call, if_neg unfinished, if_neg enough, if_neg room]
    simp only [if_neg earlier]
    rw [← sameStaged, ← samePending, SignTxnContext.length_staged _ tracks.offset_le,
      SignTxnContext.length_pending _ loaded] at enough
    obtain ⟨after, passed, took⟩ := txnNextElemPass_takes tracks loaded enough room earlier
      ((staged ++ pending).take progress.elementSize) (by rw [sameStaged, samePending])
    have size := Progress.enough_of_not_short enough
    have lengthPending : pending.length = device.signTxnContext.dataLength := by
      rw [← samePending, SignTxnContext.length_pending _ loaded]
    have shorter : rest.length < pending.length := by
      rw [List.length_drop, List.length_append, ← sameStaged,
        SignTxnContext.length_staged _ tracks.offset_le, lengthPending]
      have offset := tracks.offset
      omega
    have left : after.pending device.apduBuffer = rest := by
      rw [took.pending, sameStaged, samePending]
    obtain ⟨passes, rfl⟩ : ∃ fewer, passes = fewer + 1 := ⟨passes - 1, by omega⟩
    have later := inductionHypothesis (device.readBy [record] after) passes took.tracks took.loaded
      took.staged left (by omega)
    have turn : txnNextElemLoop sdk (passes + 1 + 1) device =
        txnNextElemLoop sdk (passes + 1) (device.readBy [record] after) := by
      rw [txnNextElemLoop, passed]
    rw [turn]
    cases tail : (progress.next record).call [] rest with
    | none =>
      rw [tail] at later
      rw [Option.map_none]
      exact later
    | some call =>
      rw [tail] at later
      obtain ⟨last, looped, called, keepsHash⟩ := later
      have earlierHash := took.innerHash (Progress.not_tookLast_next earlier _)
      rw [Option.map_some]
      refine ⟨last, ?_, ⟨called.staged, called.pending, called.loaded,
        called.initialized.trans took.initialized, called.reached⟩,
        fun more => (keepsHash more).trans earlierHash⟩
      rw [looped, Device.readBy_readBy]
      rfl

/-- A call of `txn_next_elem` in a reading state is the abstract call. -/
theorem txnNextElem_reads {sdk : Sdk} {progress : Progress} {device : Device}
    (tracks : Tracks sdk progress device.signTxnContext)
    (loaded : device.signTxnContext.Loaded) :
    match progress.call device.signTxnContext.staged
        (device.signTxnContext.pending device.apduBuffer) with
    | none => txnNextElem sdk device = .error .inputTable
    | some call => ∃ after,
        txnNextElem sdk device = .ok (call.code, device.readBy call.records after) ∧
          Called sdk device.apduBuffer call device.signTxnContext.initialized after ∧
            call.KeepsHash device.signTxnContext after :=
  txnNextElemLoop_reads sdk progress _ _ device _ tracks loaded rfl rfl
    (le_of_eq (SignTxnContext.length_pending _ loaded))

end LedgerNano
