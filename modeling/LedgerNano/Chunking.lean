/-
This file settles what chunking does to the parser: feeding a string in pieces against
parsing it whole.

`Feeding` gives the chunks to `txn_next_elem` one after the other and resumes it after
every output. Its abstract twin is `Fed`, on lists of bytes. A chunk loses bytes in two
places only: `save_data_to_buffer` copies over the staged bytes instead of behind them,
so a chunk that begins inside an element must bring the rest of it; and a resumption
after `TXN_PARTIAL_OUT` saves an empty rest over the bytes that call has just staged.
`Fits` excludes both, and it is exactly what keeps all bytes.
-/

import LedgerNano.Session
import LedgerNano.Stream

namespace LedgerNano

/-! ### Feeding chunks -/

/-- The device with a chunk as the data of the command in its transport buffer. -/
def Device.give (device : Device) (chunk : Bytes) : Device :=
  { device with apduBuffer := device.apduBuffer.write 5 chunk }.load 5 chunk.length

/-- Where feeding has got: the device, the last code, the values `cur_output` has had and the
bytes given. -/
structure Feeding where
  device : Device
  code : Nat
  curOutputs : List TxnOutput
  given : Bytes

namespace Feeding

/-- A freshly initialized context, whatever the device held before, and no chunk yet. -/
def start (device : Device) : Feeding where
  device := (startSession device.endSession).load 5 0
  code := txnPartial
  curOutputs := []
  given := []

/-- The calls on one chunk: the parser is resumed after every output. -/
def resume (sdk : Sdk) : Nat → Feeding → Except Fault Feeding
  | 0, _ => .error .endless
  | calls + 1, feeding =>
    match txnNextElem sdk feeding.device with
    | .error fault => .error fault
    | .ok (code, device) =>
      if code = txnApproveOut ∨ code = txnPartialOut then
        let curOutputs := feeding.curOutputs ++ [device.signTxnContext.txn.curOutput]
        resume sdk calls { feeding with device, code, curOutputs }
      else
        .ok { feeding with device, code }

/-- One more chunk, unless the transaction is complete. -/
def feed (sdk : Sdk) (feeding : Feeding) (chunk : Bytes) : Except Fault Feeding :=
  if feeding.code = txnReady then
    .ok feeding
  else
    resume sdk (feeding.device.signTxnContext.offset + chunk.length + 1)
      { feeding with device := feeding.device.give chunk, given := feeding.given ++ chunk }

/-- Chunks in order. -/
def feedAll (sdk : Sdk) (feeding : Feeding) (chunks : List Bytes) : Except Fault Feeding :=
  chunks.foldlM (feed sdk) feeding

/-- The inputs in the table: as many as were read. -/
def inputs (feeding : Feeding) : List Bytes :=
  let ctx := feeding.device.signTxnContext
  let count := match ctx.txnState with
    | .startIn => 0
    | .txnIn => ctx.currObj
    | _ => ctx.txn.inNum
  (ctx.txn.sigInput.read 0 count).map SigInput.input

/-- The bytes that were not taken: the staged ones and the rest of the chunk. -/
def left (feeding : Feeding) : Bytes :=
  feeding.device.signTxnContext.staged ++
    feeding.device.signTxnContext.pending feeding.device.apduBuffer

/-- `TXN_READY`, or the bytes that wait for the rest of their element. -/
def outcome (feeding : Feeding) : Option Bytes :=
  if feeding.code = txnReady then none else some feeding.left

/-- No byte was dropped or read twice. -/
def KeepsAll (feeding : Feeding) : Prop :=
  (elementsOf feeding.device.log).flatten ++ feeding.left = feeding.given

/-- Two parses that agree in everything they read. -/
structure Alike (first second : Feeding) : Prop where
  inputs : first.inputs = second.inputs
  curOutputs : first.curOutputs = second.curOutputs
  hash : first.device.signTxnContext.hash = second.device.signTxnContext.hash
  outcome : first.outcome = second.outcome

end Feeding

/-- Two ways to cut a string are parsed alike, and neither loses a byte. -/
def ParsesAlike (sdk : Sdk) (device : Device) (first second : List Bytes) : Prop :=
  ∃ one other, (Feeding.start device).feedAll sdk first = .ok one ∧
    (Feeding.start device).feedAll sdk second = .ok other ∧
    one.Alike other ∧ one.KeepsAll ∧ other.KeepsAll

/-! ### Chunks that fit -/

/-- A chunk behind the bytes `before`. If it begins inside an element it brings the rest of it,
and inside the output count four bytes; and if it brings an output to its end, it does not end
inside the next one. -/
structure Fits (before chunk : Bytes) : Prop where
  begins : (parseWhole before).rest = [] ∨
    ¬ (parseWhole before).state.Short (parseWhole before).rest.length chunk.length
  ends : (parseWhole before).state.outputs.length <
      (parseWhole (before ++ chunk)).state.outputs.length →
    (parseWhole (before ++ chunk)).state.Complete ∨ (parseWhole (before ++ chunk)).rest = []

instance (before chunk : Bytes) : Decidable (Fits before chunk) :=
  decidable_of_iff (_ ∧ _) ⟨fun both => ⟨both.1, both.2⟩, fun fits => ⟨fits.begins, fits.ends⟩⟩

/-- Every chunk fits that is given before the transaction is complete. -/
def AllFit : Bytes → List Bytes → Prop
  | _, [] => True
  | before, chunk :: later =>
    (¬ (parseWhole before).state.Complete → Fits before chunk) ∧ AllFit (before ++ chunk) later

instance (before : Bytes) (chunks : List Bytes) : Decidable (AllFit before chunks) :=
  match chunks with
  | [] => isTrue trivial
  | chunk :: later =>
    letI := instDecidableAllFit (before ++ chunk) later
    inferInstanceAs (Decidable (_ ∧ AllFit (before ++ chunk) later))

/-! ### Feeding lists of bytes -/

namespace Progress.Call

/-- The calls on one chunk, on lists of bytes. -/
def resume : Nat → Call → Option Call
  | 0, _ => none
  | calls + 1, fed =>
    match fed.progress.call fed.staged fed.pending with
    | none => none
    | some result =>
      let fed := { result with records := fed.records ++ result.records }
      if result.code = txnApproveOut ∨ result.code = txnPartialOut then resume calls fed
      else some fed

/-- The bytes that were not taken. -/
def left (fed : Call) : Bytes := fed.staged ++ fed.pending

end Progress.Call

/-- A feeding on lists of bytes. -/
structure Fed where
  call : Progress.Call
  given : Bytes

namespace Fed

def start : Fed where
  call := { code := txnPartial, records := [], progress := .startIn, staged := [], pending := [] }
  given := []

def feed (fed : Fed) (chunk : Bytes) : Option Fed :=
  if fed.call.code = txnReady then
    some fed
  else
    ({ fed.call with pending := chunk }.resume (fed.call.staged.length + chunk.length + 1)).map
      fun call => { call, given := fed.given ++ chunk }

def feedAll (fed : Fed) (chunks : List Bytes) : Option Fed :=
  chunks.foldlM feed fed

end Fed

/-! ### The device feeds like the lists -/

/-- A feeding and its abstract twin. -/
structure Feeding.Stands (sdk : Sdk) (feeding : Feeding) (call : Progress.Call) : Prop where
  code : feeding.code = call.code
  called : Called sdk feeding.device.apduBuffer call true feeding.device.signTxnContext
  elements : elementsOf feeding.device.log = call.records
  outputs : feeding.curOutputs = call.progress.outputs.map TxnOutput.ofBytes

section Simulation

variable {sdk : Sdk} {feeding : Feeding} {fed : Progress.Call}

theorem Tracks.curOutput {ctx : SignTxnContext} {progress : Progress}
    (tracks : Tracks sdk progress ctx) {earlier : List Bytes} {output : Bytes}
    (last : progress.outputs = earlier ++ [output]) :
    ctx.txn.curOutput = TxnOutput.ofBytes output := by
  cases progress with
  | startIn => exact absurd last.symm (List.append_ne_nil_of_right_ne_nil _ (List.cons_ne_nil _ _))
  | txnIn => exact absurd last.symm (List.append_ne_nil_of_right_ne_nil _ (List.cons_ne_nil _ _))
  | startOut => exact absurd last.symm (List.append_ne_nil_of_right_ne_nil _ (List.cons_ne_nil _ _))
  | txnOut => exact tracks.agrees.2.2.2 earlier output last

/-- One call of the parser goes on like the abstract call. -/
theorem Feeding.Stands.call (stands : feeding.Stands sdk fed) (reading : fed.code ≠ txnReady) :
    match fed.progress.call fed.staged fed.pending with
    | none => txnNextElem sdk feeding.device = .error .inputTable
    | some result => ∃ device, txnNextElem sdk feeding.device = .ok (result.code, device) ∧
        Feeding.Stands sdk
          { feeding with
            device, code := result.code
            curOutputs := feeding.curOutputs ++
              if result.code = txnApproveOut ∨ result.code = txnPartialOut
              then [device.signTxnContext.txn.curOutput] else [] }
          { result with records := fed.records ++ result.records } := by
  have tracks : Tracks sdk fed.progress feeding.device.signTxnContext := by
    have reached := stands.called.reached
    rw [if_neg reading] at reached
    exact reached
  have reads := txnNextElem_reads tracks stands.called.loaded
  rw [stands.called.staged, stands.called.pending] at reads
  cases calls : fed.progress.call fed.staged fed.pending with
  | none =>
    rw [calls] at reads
    exact reads
  | some result =>
    rw [calls] at reads
    obtain ⟨ctx, looped, called, _⟩ := reads
    rw [stands.called.initialized] at called
    refine ⟨_, looped, rfl, ⟨called.staged, called.pending, called.loaded, called.initialized,
      called.reached⟩, ?_, ?_⟩
    · show elementsOf ((result.records.map Event.element).reverse ++ feeding.device.log) = _
      rw [elementsOf_elements, stands.elements]
    · have takes := Progress.call_takes calls
      rw [stands.outputs]
      cases takes with
      | none code same waits =>
        have other : ¬ (result.code = txnApproveOut ∨ result.code = txnPartialOut) := by
          rcases code with code | code <;> rw [code] <;> decide
        rw [if_neg other, List.append_nil, same]
      | one code output taken =>
        rw [if_pos code.symm, taken, List.map_append]
        have reached := called.reached
        have other : result.code ≠ txnReady := by
          rcases code with code | code <;> rw [code] <;> decide
        rw [if_neg other] at reached
        show _ ++ [ctx.txn.curOutput] = _
        rw [reached.curOutput taken]
        rfl

/-- The calls on one chunk. -/
theorem Feeding.Stands.resume (calls : Nat) (stands : feeding.Stands sdk fed)
    (reading : fed.code ≠ txnReady) :
    match fed.resume calls with
    | none => ∃ fault, feeding.resume sdk calls = .error fault
    | some result => ∃ after, feeding.resume sdk calls = .ok after ∧
        after.Stands sdk result ∧ after.given = feeding.given := by
  induction calls generalizing feeding fed with
  | zero => exact ⟨_, rfl⟩
  | succ calls inductionHypothesis =>
    have called := stands.call reading
    rw [Progress.Call.resume, Feeding.resume]
    cases calling : fed.progress.call fed.staged fed.pending with
    | none =>
      rw [calling] at called
      rw [called]
      exact ⟨_, rfl⟩
    | some result =>
      rw [calling] at called
      obtain ⟨device, looped, next⟩ := called
      rw [looped]
      simp only
      by_cases output : result.code = txnApproveOut ∨ result.code = txnPartialOut
      · rw [if_pos output] at next
        rw [if_pos output, if_pos output]
        refine inductionHypothesis next ?_
        rcases output with code | code <;> rw [code] <;> decide
      · rw [if_neg output, List.append_nil] at next
        rw [if_neg output, if_neg output]
        exact ⟨_, rfl, next, rfl⟩

theorem Feeding.Stands.give (stands : feeding.Stands sdk fed) (reading : fed.code ≠ txnReady)
    {chunk : Bytes} (small : chunk.length ≤ 255) (given : Bytes) :
    Feeding.Stands sdk { feeding with device := feeding.device.give chunk, given }
      { fed with pending := chunk } := by
  have loaded : 5 + chunk.length ≤ 260 := by omega
  have reached := stands.called.reached
  rw [if_neg reading] at reached
  refine ⟨stands.code, ⟨stands.called.staged, ?_, loaded, stands.called.initialized, ?_⟩,
    stands.elements, stands.outputs⟩
  · exact Cells.read_write_self _ 5 chunk loaded
  · rw [if_neg reading]
    exact reached.load 5 chunk.length

/-- One chunk. -/
theorem Feeding.Stands.feed {twin : Fed} (stands : feeding.Stands sdk twin.call)
    (same : feeding.given = twin.given) {chunk : Bytes} (small : chunk.length ≤ 255) :
    match twin.feed chunk with
    | none => ∃ fault, feeding.feed sdk chunk = .error fault
    | some result => ∃ after, feeding.feed sdk chunk = .ok after ∧
        after.Stands sdk result.call ∧ after.given = result.given := by
  rw [Fed.feed, Feeding.feed, stands.code]
  by_cases ready : twin.call.code = txnReady
  · rw [if_pos ready, if_pos ready]
    exact ⟨_, rfl, stands, same⟩
  · rw [if_neg ready, if_neg ready]
    have tracks : Tracks sdk twin.call.progress feeding.device.signTxnContext := by
      have reached := stands.called.reached
      rw [if_neg ready] at reached
      exact reached
    have staged : twin.call.staged.length = feeding.device.signTxnContext.offset := by
      rw [← stands.called.staged, SignTxnContext.length_staged _ tracks.offset_le]
    have resumed := (stands.give ready small (feeding.given ++ chunk)).resume
      (feeding.device.signTxnContext.offset + chunk.length + 1) ready
    rw [staged]
    cases calling : Progress.Call.resume (feeding.device.signTxnContext.offset + chunk.length + 1)
        { twin.call with pending := chunk } with
    | none =>
      rw [calling] at resumed
      exact resumed
    | some result =>
      rw [calling] at resumed
      obtain ⟨after, looped, next, given⟩ := resumed
      exact ⟨after, looped, next, given.trans (by rw [same])⟩

/-- All chunks. -/
theorem Feeding.Stands.feedAll {twin : Fed} (stands : feeding.Stands sdk twin.call)
    (same : feeding.given = twin.given) (chunks : List Bytes)
    (small : ∀ chunk ∈ chunks, chunk.length ≤ 255) :
    match twin.feedAll chunks with
    | none => ∃ fault, feeding.feedAll sdk chunks = .error fault
    | some result => ∃ after, feeding.feedAll sdk chunks = .ok after ∧
        after.Stands sdk result.call ∧ after.given = result.given := by
  induction chunks generalizing feeding twin with
  | nil => exact ⟨_, rfl, stands, same⟩
  | cons chunk later inductionHypothesis =>
    have fed := stands.feed same (small chunk List.mem_cons_self)
    rw [Fed.feedAll, Feeding.feedAll, List.foldlM_cons, List.foldlM_cons]
    cases feeds : twin.feed chunk with
    | none =>
      rw [feeds] at fed
      obtain ⟨fault, failed⟩ := fed
      rw [failed]
      exact ⟨fault, rfl⟩
    | some result =>
      rw [feeds] at fed
      obtain ⟨after, fine, next, given⟩ := fed
      rw [fine]
      exact inductionHypothesis next given fun other member =>
        small other (List.mem_cons_of_mem _ member)

theorem stands_start (sdk : Sdk) (device : Device) :
    (Feeding.start device).Stands sdk Fed.start.call where
  code := rfl
  called := by
    refine ⟨Cells.read_zero _ _, Cells.read_zero _ _, ?_, rfl, tracks_start rfl rfl rfl⟩
    show 5 + 0 ≤ 260
    decide
  elements := rfl
  outputs := rfl

end Simulation

/-! ### What a chunk loses -/

namespace Progress

theorem outputs_consume (progress : Progress) (items : Bytes) :
    progress.outputs.length ≤ (format.consume progress items).state.outputs.length := by
  refine format.consume_rule (motive := fun reached _ =>
    progress.outputs.length ≤ reached.outputs.length) (le_refl _) ?_
  intro reached taken record before _ _ _
  refine before.trans ?_
  show _ ≤ (reached.next record).outputs.length
  by_cases reading : reached.state = .txnOut
  · rw [outputs_next_output reading, List.length_append]
    exact Nat.le_add_right _ _
  · rw [outputs_next reading]

/-- Where a whole output follows, one more is taken. -/
theorem outputs_lt_consume {progress : Progress} {items : Bytes}
    (reading : progress.state = .txnOut)
    (incomplete : ¬ progress.Complete) (enough : 37 ≤ items.length) :
    progress.outputs.length < (format.consume progress items).state.outputs.length := by
  have size := elementSize_output reading
  have length : (items.take progress.elementSize).length = progress.elementSize := by
    rw [List.length_take, size]
    omega
  have taken := consume_element incomplete length (items.drop progress.elementSize)
  rw [List.take_append_drop] at taken
  rw [taken]
  refine Nat.lt_of_lt_of_le ?_ (outputs_consume _ _)
  rw [outputs_next_output reading, List.length_append, List.length_singleton]
  exact Nat.lt_succ_self _

namespace Call

/-- What the bytes of a chunk hold, with the staged ones in front of them. -/
def whole (fed : Call) : Framing.Consumed Progress Byte := format.consume fed.progress fed.left

/-- The number of bytes taken or still there. -/
def held (fed : Call) : Nat := fed.records.flatten.length + fed.left.length

theorem not_output_ready : ¬ (txnReady = txnApproveOut ∨ txnReady = txnPartialOut) := by decide

theorem not_output_partial :
    ¬ (txnPartial = txnApproveOut ∨ txnPartial = txnPartialOut) := by
  decide

/-- The condition on a chunk and the staged bytes under which nothing is lost. -/
def KeepsChunk (fed : Call) : Prop :=
  fed.progress.Complete ∨
    (fed.staged = [] ∨ ¬ fed.progress.Short fed.staged.length fed.pending.length) ∧
      (fed.progress.outputs.length < fed.whole.state.outputs.length →
        fed.whole.state.Complete ∨ fed.whole.rest = [])

/-- The calls on a chunk take all the elements it holds, or they lose bytes. -/
inductive Drained (fed : Call) : Call → Prop
  | kept (keeps : fed.KeepsChunk) {result : Call}
      (records : result.records = fed.records ++ fed.whole.records)
      (progress : result.progress = fed.whole.state) (rest : result.left = fed.whole.rest)
      (ready : result.code = txnReady ↔ fed.whole.state.Complete)
      (read : result.code ≠ txnReady → result.pending = []) :
    Drained fed result
  | lost (loses : ¬ fed.KeepsChunk) {result : Call} (fewer : result.held < fed.held) :
    Drained fed result

section Drained

variable {fed later result : Call} {records : List Bytes} {reached : Progress} {rest : Bytes}

theorem held_eq_whole (fed : Call) :
    fed.held = fed.records.flatten.length + (fed.whole.records.flatten.length +
      fed.whole.rest.length) := by
  have flatten := format.consume_flatten fed.progress fed.left
  rw [held, ← flatten, List.length_append]
  rfl

/-- A call that keeps everything may come first. -/
theorem Drained.after (drained : Drained later result)
    (taken : later.records = fed.records ++ records)
    (whole : fed.whole = { later.whole with records := records ++ later.whole.records })
    (keeps : later.KeepsChunk ↔ fed.KeepsChunk) : Drained fed result := by
  cases drained with
  | kept keepsLater records progress rest ready read =>
    refine Drained.kept (keeps.mp keepsLater) ?_ ?_ ?_ ?_ read
    · rw [records, taken, whole, List.append_assoc]
    · rw [progress, whole]
    · rw [rest, whole]
    · rw [ready, whole]
  | lost loses fewer =>
    refine Drained.lost (mt keeps.mpr loses) (fewer.trans_eq ?_)
    rw [held_eq_whole, held_eq_whole fed, taken, whole]
    simp only [List.flatten_append, List.length_append]
    omega

/-- Where a call took an output, the chunk is kept exactly when it ends with an element. -/
theorem keepsChunk_of_output (incomplete : ¬ fed.progress.Complete)
    (enough : ¬ fed.progress.Short fed.staged.length fed.pending.length)
    (takes : TakesOutput fed.progress fed.left records reached rest) :
    fed.KeepsChunk ↔ (format.consume reached rest).state.Complete ∨
      (format.consume reached rest).rest = [] := by
  have grows : fed.progress.outputs.length < fed.whole.state.outputs.length := by
    obtain ⟨output, taken⟩ := takes.output
    have more := outputs_consume reached rest
    rw [taken, List.length_append, List.length_singleton] at more
    rw [whole, takes.whole]
    exact more
  rw [KeepsChunk, whole] at *
  rw [takes.whole] at grows ⊢
  constructor
  · rintro (complete | ⟨_, ends⟩)
    · exact absurd complete incomplete
    · exact ends grows
  · exact fun ends => Or.inr ⟨Or.inr enough, fun _ => ends⟩

/-- The last output of a chunk leaves nothing pending: a resumption loses what it staged. -/
theorem keepsChunk_lastOutput {code : Nat} (reading : reached.state = .txnOut)
    (few : rest.length < 37) :
    KeepsChunk { code, records, progress := reached, staged := rest, pending := [] } ↔
      (format.consume reached rest).state.Complete ∨ (format.consume reached rest).rest = [] := by
  have size : reached.elementSize = 37 ∧ reached.Short rest.length 0 := by
    cases reached with
    | startIn => cases reading
    | txnIn => cases reading
    | startOut => cases reading
    | txnOut => exact ⟨rfl, by simpa [Short, elementSize] using few⟩
  have whole : (⟨code, records, reached, rest, []⟩ : Call).whole =
      format.consume reached rest := by
    rw [Call.whole, left, List.append_nil]
  rw [KeepsChunk, whole, consume_short (by omega)]
  constructor
  · rintro (complete | ⟨empty | enough, _⟩)
    · exact Or.inl complete
    · exact Or.inr empty
    · exact absurd size.2 enough
  · rintro (complete | empty)
    · exact Or.inl complete
    · exact Or.inr ⟨Or.inl empty, fun grows => absurd grows (lt_irrefl _)⟩

theorem keepsChunk_output {code : Nat} (reading : reached.state = .txnOut)
    (many : 37 ≤ rest.length) :
    KeepsChunk { code, records, progress := reached, staged := [], pending := rest } ↔
      (format.consume reached rest).state.Complete ∨ (format.consume reached rest).rest = [] := by
  by_cases complete : reached.Complete
  · rw [consume_complete complete]
    exact ⟨fun _ => Or.inl complete, fun _ => Or.inl complete⟩
  · have grows := outputs_lt_consume reading complete many
    constructor
    · rintro (done | ⟨_, ends⟩)
      · exact absurd done complete
      · exact ends grows
    · exact fun ends => Or.inr ⟨Or.inl rfl, fun _ => ends⟩

theorem drained_ready (complete : fed.progress.Complete) :
    Drained fed
      { code := txnReady, records := fed.records ++ [], progress := fed.progress
        staged := fed.staged, pending := fed.pending } := by
  have whole : fed.whole = { records := [], state := fed.progress, rest := fed.left } :=
    consume_complete complete
  refine Drained.kept (Or.inl complete) ?_ ?_ ?_ ?_ (fun other => absurd rfl other) <;> rw [whole]
  · rfl
  · exact ⟨fun _ => complete, fun _ => rfl⟩

/-- A short chunk is saved over the staged bytes. -/
theorem drained_short (incomplete : ¬ fed.progress.Complete)
    (brief : fed.progress.Short fed.staged.length fed.pending.length) :
    Drained fed
      { code := txnPartial, records := fed.records ++ [], progress := fed.progress
        staged := fed.pending, pending := [] } := by
  by_cases empty : fed.staged = []
  · have whole : fed.whole = { records := [], state := fed.progress, rest := fed.pending } := by
      rw [Call.whole, left, empty, List.nil_append]
      exact consume_short (pending_lt_of_short brief)
    have keeps : fed.KeepsChunk := by
      refine Or.inr ⟨Or.inl empty, fun grows => ?_⟩
      rw [whole] at grows
      exact absurd grows (lt_irrefl _)
    refine Drained.kept keeps ?_ ?_ ?_ ?_ (fun _ => rfl) <;> rw [whole]
    · exact List.append_nil _
    · exact ⟨nofun, fun complete => absurd complete incomplete⟩
  · refine Drained.lost ?_ ?_
    · rintro (complete | ⟨none | enough, _⟩)
      · exact incomplete complete
      · exact empty none
      · exact enough brief
    · have positive := List.length_pos_iff.mpr empty
      simp only [held, left, List.append_nil, List.length_append]
      omega

theorem drained_waits (enough : ¬ fed.progress.Short fed.staged.length fed.pending.length)
    (unfinished : ¬ reached.Complete) (same : reached.outputs = fed.progress.outputs)
    (whole : fed.whole = { records, state := reached, rest }) :
    Drained fed
      { code := txnPartial, records := fed.records ++ records, progress := reached
        staged := rest, pending := [] } := by
  have keeps : fed.KeepsChunk := by
    refine Or.inr ⟨Or.inr enough, fun grows => ?_⟩
    rw [whole, same] at grows
    exact absurd grows (lt_irrefl _)
  refine Drained.kept keeps ?_ ?_ ?_ ?_ (fun _ => rfl) <;> rw [whole]
  · exact List.append_nil _
  · exact ⟨nofun, fun complete => absurd complete unfinished⟩

/-- Enough calls on a chunk take what it holds, or lose bytes, by the condition. The induction is
on the calls: all but the last take an output each. -/
theorem resume_drained (calls : Nat) (fed : Call) (sound : fed.progress.Sound fed.left)
    (fuel : fed.left.length < calls) :
    ∃ result, fed.resume calls = some result ∧ Drained fed result := by
  induction calls generalizing fed with
  | zero => exact absurd fuel (Nat.not_lt_zero _)
  | succ calls inductionHypothesis =>
    obtain ⟨result, called, outcome⟩ := call_outcome fed.progress fed.staged fed.pending sound
    rw [resume, called]
    simp only
    cases outcome with
    | ready complete =>
      rw [if_neg not_output_ready]
      exact ⟨_, rfl, drained_ready complete⟩
    | short incomplete brief =>
      rw [if_neg not_output_partial]
      exact ⟨_, rfl, drained_short incomplete brief⟩
    | waits incomplete enough unfinished same whole =>
      rw [if_neg not_output_partial]
      exact ⟨_, rfl, drained_waits enough unfinished same whole⟩
    | lastOutput incomplete enough takes few =>
      rw [if_pos (Or.inr rfl)]
      have shorter := takes.shorter
      obtain ⟨result, resumed, drained⟩ := inductionHypothesis
        ⟨txnPartialOut, _, _, _, []⟩ (by rw [left, List.append_nil]; exact takes.sound)
        (by rw [left, List.append_nil]; exact shorter.trans_le (Nat.le_of_lt_succ fuel))
      refine ⟨result, resumed, drained.after rfl (takes.whole.trans ?_) ?_⟩
      · rw [Call.whole, left, List.append_nil]
      · exact (keepsChunk_lastOutput takes.reading few).trans
          (keepsChunk_of_output incomplete enough takes).symm
    | output incomplete enough takes many =>
      rw [if_pos (Or.inl rfl)]
      have shorter := takes.shorter
      obtain ⟨result, resumed, drained⟩ := inductionHypothesis
        ⟨txnApproveOut, _, _, [], _⟩ takes.sound (shorter.trans_le (Nat.le_of_lt_succ fuel))
      refine ⟨result, resumed, drained.after rfl takes.whole ?_⟩
      exact (keepsChunk_output takes.reading many).trans
        (keepsChunk_of_output incomplete enough takes).symm

end Drained

/-- A call takes no more bytes than there are. -/
theorem call_le {progress : Progress} {staged pending : Bytes} {result : Call}
    (called : progress.call staged pending = some result) :
    result.held ≤ staged.length + pending.length := by
  refine call_rule (motive := fun _ staged pending result =>
    result.held ≤ staged.length + pending.length) ?_ ?_ ?_ ?_ called
  · intro progress staged pending _
    simp only [held, left, List.flatten_nil, List.length_nil, List.length_append, Nat.zero_add]
    exact le_refl _
  · intro progress staged pending _ _
    simp only [held, left, List.flatten_nil, List.length_nil, List.append_nil, Nat.zero_add]
    exact Nat.le_add_left _ _
  · intro progress staged pending _ _ _
    rw [outputCall]
    split <;>
      simp only [held, left, List.flatten_cons, List.flatten_nil, List.append_nil,
        List.nil_append, List.length_take, List.length_drop, List.length_append] <;>
      omega
  · intro progress staged pending later enough _ _ fewer
    have total := enough_of_not_short enough
    simp only [held, left, List.flatten_cons, List.length_append, List.length_take,
      List.length_drop, List.length_nil] at fewer ⊢
    omega

theorem resume_le (calls : Nat) {fed result : Call} (resumed : fed.resume calls = some result) :
    result.held ≤ fed.held := by
  induction calls generalizing fed with
  | zero => cases resumed
  | succ calls inductionHypothesis =>
    rw [resume] at resumed
    cases called : fed.progress.call fed.staged fed.pending with
    | none =>
      rw [called] at resumed
      cases resumed
    | some next =>
      rw [called] at resumed
      have fewer := call_le called
      have total : ({ next with records := fed.records ++ next.records } : Call).held ≤
          fed.held := by
        simp only [held, left, List.flatten_append, List.length_append] at fewer ⊢
        omega
      simp only at resumed
      split at resumed
      · exact (inductionHypothesis resumed).trans total
      · cases resumed
        exact total

end Call

end Progress

/-! ### Feeding a string -/

namespace Fed

/-- What was taken is what the bytes given hold. -/
structure AtWhole (fed : Fed) : Prop where
  records : fed.call.records = (parseWhole fed.given).records
  progress : fed.call.progress = (parseWhole fed.given).state
  left : fed.call.left = (parseWhole fed.given).rest
  ready : fed.call.code = txnReady ↔ (parseWhole fed.given).state.Complete
  read : fed.call.code ≠ txnReady → fed.call.pending = []

/-- Bytes were lost. -/
def Misses (fed : Fed) : Prop := fed.call.held < fed.given.length

section Whole

variable {fed result : Fed} {chunk : Bytes} {chunks : List Bytes}

theorem Misses.feed (misses : fed.Misses) (fedOne : fed.feed chunk = some result) :
    result.Misses := by
  rw [Fed.feed] at fedOne
  split at fedOne
  · cases fedOne
    exact misses
  · obtain ⟨call, resumed, rfl⟩ := Option.map_eq_some_iff.mp fedOne
    have fewer := Progress.Call.resume_le _ resumed
    simp only [Misses, Progress.Call.held, Progress.Call.left, List.length_append] at misses fewer ⊢
    omega

theorem Misses.feedAll (misses : fed.Misses) (fedAll : fed.feedAll chunks = some result) :
    result.Misses := by
  induction chunks generalizing fed with
  | nil =>
    cases fedAll
    exact misses
  | cons chunk later inductionHypothesis =>
    rw [Fed.feedAll, List.foldlM_cons] at fedAll
    obtain ⟨next, fedOne, fedLater⟩ := Option.bind_eq_some_iff.mp fedAll
    exact inductionHypothesis (misses.feed fedOne) fedLater

/-- Once the transaction is complete every chunk fits. -/
theorem allFit_of_complete {before : Bytes} (complete : (parseWhole before).state.Complete)
    (chunks : List Bytes) : AllFit before chunks := by
  induction chunks generalizing before with
  | nil => trivial
  | cons chunk later inductionHypothesis =>
    refine ⟨fun incomplete => absurd complete incomplete, inductionHypothesis ?_⟩
    rw [(parseWhole_complete complete chunk).1]
    exact complete

/-- The condition on a chunk is the one on the calls. -/
theorem AtWhole.fits_iff (whole : fed.AtWhole) (reading : fed.call.code ≠ txnReady) :
    ({ fed.call with pending := chunk } : Progress.Call).KeepsChunk ↔ Fits fed.given chunk := by
  have incomplete := mt whole.ready.mpr reading
  have staged : fed.call.staged = (parseWhole fed.given).rest := by
    rw [← whole.left, Progress.Call.left, whole.read reading, List.append_nil]
  have parse : ({ fed.call with pending := chunk } : Progress.Call).whole =
      Progress.format.consume (parseWhole fed.given).state
        ((parseWhole fed.given).rest ++ chunk) := by
    rw [← staged, ← whole.progress]
    rfl
  rw [Progress.Call.KeepsChunk, parse]
  simp only [staged, whole.progress]
  constructor
  · rintro (complete | ⟨begins, ends⟩)
    · exact absurd complete incomplete
    · refine ⟨begins, ?_⟩
      rw [parseWhole_append]
      exact ends
  · intro fits
    have ends := fits.ends
    rw [parseWhole_append] at ends
    exact Or.inr ⟨fits.begins, ends⟩

/-- One chunk: it fits and is taken as the whole parse takes it, or bytes are lost. -/
theorem AtWhole.feed {whole : Bytes} (declares : Declares whole) (atWhole : fed.AtWhole)
    (reading : fed.call.code ≠ txnReady) (inside : fed.given ++ chunk <+: whole) :
    ∃ result, fed.feed chunk = some result ∧ result.given = fed.given ++ chunk ∧
      (Fits fed.given chunk ∧ result.AtWhole ∨ ¬ Fits fed.given chunk ∧ result.Misses) := by
  have staged : fed.call.staged = (parseWhole fed.given).rest := by
    rw [← atWhole.left, Progress.Call.left, atWhole.read reading, List.append_nil]
  have sound : fed.call.progress.Sound (fed.call.staged ++ chunk) := by
    rw [staged, atWhole.progress]
    exact sound_chunk declares inside
  obtain ⟨result, resumed, drained⟩ := Progress.Call.resume_drained
    (fed.call.staged.length + chunk.length + 1) { fed.call with pending := chunk } sound (by
      rw [Progress.Call.left, List.length_append]
      exact Nat.lt_succ_self _)
  refine ⟨{ call := result, given := fed.given ++ chunk }, ?_, rfl, ?_⟩
  · rw [Fed.feed, if_neg reading, resumed]
    rfl
  have parse : ({ fed.call with pending := chunk } : Progress.Call).whole =
      Progress.format.consume (parseWhole fed.given).state
        ((parseWhole fed.given).rest ++ chunk) := by
    rw [← staged, ← atWhole.progress]
    rfl
  cases drained with
  | kept keeps records progress rest ready read =>
    rw [parse] at records progress rest ready
    refine Or.inl ⟨(atWhole.fits_iff reading).mp keeps, ?_⟩
    refine ⟨?_, ?_, ?_, ?_, read⟩ <;> rw [parseWhole_append]
    · rw [records, atWhole.records]
    · exact progress
    · exact rest
    · exact ready
  | lost loses fewer =>
    refine Or.inr ⟨mt (atWhole.fits_iff reading).mpr loses, ?_⟩
    have flatten := Progress.format.consume_flatten .startIn fed.given
    have total : fed.given.length = fed.call.held := by
      rw [Progress.Call.held, atWhole.records, atWhole.left, ← List.length_append]
      exact (congrArg List.length flatten).symm
    have unread := atWhole.read reading
    simp only [Misses, Progress.Call.held, Progress.Call.left, unread, List.length_append,
      List.length_nil] at fewer total ⊢
    omega

theorem feedAll_ready (ready : fed.call.code = txnReady) (chunks : List Bytes) :
    fed.feedAll chunks = some fed := by
  induction chunks with
  | nil => rfl
  | cons chunk later inductionHypothesis =>
    rw [Fed.feedAll, List.foldlM_cons, Fed.feed, if_pos ready]
    exact inductionHypothesis

/-- What feeding all chunks comes to when they fit, and when one does not. -/
structure FedAll (fed : Fed) (chunks : List Bytes) : Prop where
  whole : AllFit fed.given chunks → ∃ result, fed.feedAll chunks = some result ∧
    result.AtWhole ∧ ∃ later, fed.given ++ chunks.flatten = result.given ++ later ∧
      (later = [] ∨ result.call.code = txnReady)
  misses : ¬ AllFit fed.given chunks → ∀ result, fed.feedAll chunks = some result → result.Misses

/-- The induction is on the chunks: as long as they fit the parse is that of the bytes given, and
from the first that does not fit on bytes are missing. -/
theorem AtWhole.feedAll {whole : Bytes} (declares : Declares whole) (atWhole : fed.AtWhole)
    (inside : fed.given ++ chunks.flatten <+: whole) : FedAll fed chunks := by
  induction chunks generalizing fed with
  | nil => exact ⟨fun _ => ⟨fed, rfl, atWhole, [], rfl, Or.inl rfl⟩,
    fun none => absurd trivial none⟩
  | cons chunk later inductionHypothesis =>
    by_cases ready : fed.call.code = txnReady
    · have complete := atWhole.ready.mp ready
      exact ⟨fun _ => ⟨fed, feedAll_ready ready _, atWhole, _, rfl, Or.inr ready⟩,
        fun none => absurd (allFit_of_complete complete _) none⟩
    · have incomplete := mt atWhole.ready.mpr ready
      rw [List.flatten_cons, ← List.append_assoc] at inside
      obtain ⟨result, fedOne, given, outcome⟩ :=
        atWhole.feed declares ready ((List.prefix_append _ _).trans inside)
      have goesOn : fed.feedAll (chunk :: later) = result.feedAll later := by
        rw [Fed.feedAll, List.foldlM_cons, fedOne]
        rfl
      rcases outcome with ⟨fits, next⟩ | ⟨breaks, misses⟩
      · rw [← given] at inside
        obtain ⟨keeps, loses⟩ := inductionHypothesis next inside
        rw [given] at keeps loses
        constructor
        · intro all
          rw [goesOn, List.flatten_cons, ← List.append_assoc]
          exact keeps all.2
        · intro notAll
          rw [goesOn]
          exact loses fun all => notAll ⟨fun _ => fits, all⟩
      · constructor
        · exact fun all => absurd (all.1 incomplete) breaks
        · intro _ last fedAll
          rw [goesOn] at fedAll
          exact misses.feedAll fedAll

end Whole

end Fed

/-! ### What can be observed -/

section Observed

variable {sdk : Sdk} {feeding : Feeding} {fed : Progress.Call}

theorem Tracks.inputs_eq {progress : Progress} {device : Device} {code : Nat}
    {curOutputs : List TxnOutput} {given : Bytes}
    (tracks : Tracks sdk progress device.signTxnContext) :
    Feeding.inputs { device, code, curOutputs, given } = progress.inputs := by
  have stores := tracks.stores
  have agrees := tracks.agrees
  rw [Feeding.inputs, tracks.state]
  cases progress with
  | startIn => exact congrArg (List.map SigInput.input) (Cells.read_zero _ _)
  | txnIn inNum inputs =>
    obtain ⟨_, counter, room, _⟩ := agrees
    simp only [Progress.state, counter]
    exact stores.read room
  | startOut inNum inputs =>
    obtain ⟨declared, all, _, room⟩ := agrees
    simp only [Progress.state, declared]
    rw [← all] at room ⊢
    exact stores.read room
  | txnOut inNum inputs outNum outputs =>
    obtain ⟨⟨declared, all, _, room⟩, _⟩ := agrees
    simp only [Progress.state, declared]
    rw [← all] at room ⊢
    exact stores.read room

theorem ReadyFor.inputs_eq {progress : Progress} {device : Device} {code : Nat}
    {curOutputs : List TxnOutput} {given : Bytes}
    (ready : ReadyFor sdk progress device.signTxnContext) :
    Feeding.inputs { device, code, curOutputs, given } = progress.inputs := by
  obtain ⟨finished, before, tracks, same⟩ := ready
  cases progress with
  | startIn => exact absurd finished id
  | txnIn => exact absurd finished id
  | startOut => exact absurd finished id
  | txnOut inNum inputs outNum outputs =>
    obtain ⟨⟨declared, all, _, room⟩, _⟩ := tracks.agrees
    have stores := tracks.stores
    rw [Feeding.inputs, same]
    simp only [SignTxnContext.ready, declared]
    rw [← all] at room ⊢
    exact stores.read room

theorem Feeding.Stands.inputs_eq (stands : feeding.Stands sdk fed) :
    feeding.inputs = fed.progress.inputs := by
  have reached := stands.called.reached
  split at reached
  · exact reached.inputs_eq
  · exact reached.inputs_eq

theorem Feeding.Stands.hash_eq (stands : feeding.Stands sdk fed) :
    feeding.device.signTxnContext.hash = fed.progress.hashed := by
  have reached := stands.called.reached
  split at reached
  · obtain ⟨_, before, tracks, same⟩ := reached
    rw [same]
    exact tracks.hash
  · exact reached.hash

theorem Feeding.Stands.left_eq (stands : feeding.Stands sdk fed) : feeding.left = fed.left := by
  rw [Feeding.left, stands.called.staged, stands.called.pending]
  rfl

theorem Feeding.Stands.outcome_eq (stands : feeding.Stands sdk fed) :
    feeding.outcome = if fed.code = txnReady then none else some fed.left := by
  rw [Feeding.outcome, stands.code, stands.left_eq]

/-- Nothing was lost exactly when the bytes are accounted for. -/
theorem Feeding.Stands.not_keepsAll {twin : Fed} (stands : feeding.Stands sdk twin.call)
    (given : feeding.given = twin.given) (misses : twin.Misses) : ¬ feeding.KeepsAll := by
  intro keeps
  rw [KeepsAll, stands.elements, stands.left_eq, given] at keeps
  rw [Fed.Misses, ← keeps, List.length_append] at misses
  exact Nat.lt_irrefl _ misses

theorem Feeding.Stands.keepsAll {twin : Fed} (stands : feeding.Stands sdk twin.call)
    (given : feeding.given = twin.given) (whole : twin.AtWhole) : feeding.KeepsAll := by
  rw [KeepsAll, stands.elements, stands.left_eq, given, whole.records, whole.left]
  exact Progress.format.consume_flatten .startIn twin.given

end Observed

/-- What feeding finds in a string when nothing is lost. -/
structure Feeding.Parsed (bytes : Bytes) (feeding : Feeding) : Prop where
  inputs : feeding.inputs = (parseWhole bytes).state.inputs
  curOutputs : feeding.curOutputs = (parseWhole bytes).state.outputs.map TxnOutput.ofBytes
  hash : feeding.device.signTxnContext.hash = (parseWhole bytes).state.hashed
  outcome : feeding.outcome =
    if (parseWhole bytes).state.Complete then none else some (parseWhole bytes).rest

theorem Feeding.Stands.parsed {sdk : Sdk} {feeding : Feeding} {twin : Fed} {bytes later : Bytes}
    (stands : feeding.Stands sdk twin.call) (whole : twin.AtWhole)
    (given : bytes = twin.given ++ later) (all : later = [] ∨ twin.call.code = txnReady) :
    feeding.Parsed bytes := by
  have outcome : feeding.outcome =
      if (parseWhole bytes).state.Complete then none else some (parseWhole bytes).rest := by
    rw [stands.outcome_eq, whole.left]
    rcases all with rfl | ready
    · rw [given, List.append_nil]
      exact if_congr whole.ready rfl rfl
    · have complete := whole.ready.mp ready
      have more := (parseWhole_complete complete later).1
      rw [if_pos ready, given, more, if_pos complete]
  have state : (parseWhole bytes).state = twin.call.progress := by
    rw [whole.progress, given]
    rcases all with rfl | ready
    · rw [List.append_nil]
    · exact (parseWhole_complete (whole.ready.mp ready) later).1
  refine ⟨?_, ?_, ?_, outcome⟩ <;> rw [state]
  · exact stands.inputs_eq
  · exact stands.outputs
  · exact stands.hash_eq

theorem Feeding.Parsed.alike {bytes : Bytes} {first second : Feeding} (one : first.Parsed bytes)
    (other : second.Parsed bytes) : first.Alike second :=
  ⟨one.inputs.trans other.inputs.symm, one.curOutputs.trans other.curOutputs.symm,
    one.hash.trans other.hash.symm, one.outcome.trans other.outcome.symm⟩

theorem atWhole_start : Fed.start.AtWhole := by
  refine ⟨?_, ?_, ?_, ?_, fun _ => rfl⟩ <;> rw [show Fed.start.given = [] from rfl, parseWhole_nil]
  · rfl
  · rfl
  · rfl
  · exact ⟨nofun, False.elim⟩

/-- Feeding keeps all bytes exactly when every chunk fits, and it then finds what the whole string
holds. -/
theorem feedAll_keeps (sdk : Sdk) (device : Device) (chunks : List Bytes)
    (small : ∀ chunk ∈ chunks, chunk.length ≤ 255) (declares : Declares chunks.flatten) :
    (AllFit [] chunks → ∃ feeding, (Feeding.start device).feedAll sdk chunks = .ok feeding ∧
      feeding.KeepsAll ∧ feeding.Parsed chunks.flatten) ∧
    (¬ AllFit [] chunks → ∀ feeding, (Feeding.start device).feedAll sdk chunks = .ok feeding →
      ¬ feeding.KeepsAll) := by
  have stands := stands_start sdk device
  have feeds := stands.feedAll (rfl : (Feeding.start device).given = Fed.start.given) chunks small
  have parsed : Fed.FedAll Fed.start chunks :=
    atWhole_start.feedAll declares (List.prefix_refl _)
  obtain ⟨keeps, loses⟩ := parsed
  constructor
  · intro all
    obtain ⟨twin, fedAll, whole, later, given, ends⟩ := keeps all
    rw [fedAll] at feeds
    obtain ⟨feeding, fine, stands, same⟩ := feeds
    exact ⟨feeding, fine, stands.keepsAll same whole, stands.parsed whole given ends⟩
  · intro breaks feeding fine keepsAll
    cases fedAll : Fed.start.feedAll chunks with
    | none =>
      rw [fedAll] at feeds
      obtain ⟨fault, failed⟩ := feeds
      cases fine.symm.trans failed
    | some twin =>
      rw [fedAll] at feeds
      obtain ⟨after, done, stands, same⟩ := feeds
      cases fine.symm.trans done
      exact stands.not_keepsAll same (loses breaks twin fedAll) keepsAll

/-- Two ways to cut a string of declared counts into chunks are parsed alike and lose nothing,
exactly when every chunk of both fits. -/
theorem chunking_kept_iff (sdk : Sdk) (device : Device) (first second : List Bytes)
    (same : first.flatten = second.flatten)
    (small : ∀ chunk ∈ first ++ second, chunk.length ≤ 255) (declares : Declares first.flatten) :
    ParsesAlike sdk device first second ↔ AllFit [] first ∧ AllFit [] second := by
  obtain ⟨keepsFirst, losesFirst⟩ := feedAll_keeps sdk device first
    (fun chunk member => small chunk (List.mem_append_left _ member)) declares
  obtain ⟨keepsSecond, losesSecond⟩ := feedAll_keeps sdk device second
    (fun chunk member => small chunk (List.mem_append_right _ member)) (same ▸ declares)
  constructor
  · rintro ⟨one, other, fedFirst, fedSecond, _, keepsOne, keepsOther⟩
    exact ⟨not_not.mp fun breaks => losesFirst breaks one fedFirst keepsOne,
      not_not.mp fun breaks => losesSecond breaks other fedSecond keepsOther⟩
  · rintro ⟨fitFirst, fitSecond⟩
    obtain ⟨one, fedFirst, keepsOne, parsedOne⟩ := keepsFirst fitFirst
    obtain ⟨other, fedSecond, keepsOther, parsedOther⟩ := keepsSecond fitSecond
    rw [← same] at parsedOther
    exact ⟨one, other, fedFirst, fedSecond, parsedOne.alike parsedOther, keepsOne, keepsOther⟩

/-- A transaction of one input and two outputs. -/
def sampleBytes : Bytes :=
  le32 1 ++ sampleInput ++ le32 2 ++ sampleOutput ++ sampleOutput

/-- Cuts inside the input and behind the first output lose nothing. -/
theorem chunking_kept_iff_sample :
    ParsesAlike Sdk.plain Device.boot
      [sampleBytes.take 20, (sampleBytes.drop 20).take 61, sampleBytes.drop 81] [sampleBytes] :=
  (chunking_kept_iff Sdk.plain Device.boot
    [sampleBytes.take 20, (sampleBytes.drop 20).take 61, sampleBytes.drop 81] [sampleBytes]
    (by decide) (by decide) (by decide)).mpr ⟨by decide +kernel, by decide +kernel⟩

/-- A cut inside the second output does: the resumption after the first one drops its part. -/
example : ¬ AllFit [] [sampleBytes.take 100, sampleBytes.drop 100] := by decide +kernel

/-- Of a count in three chunks the first byte is lost. -/
theorem chunking_can_lose_bytes :
    ¬ ∀ first second : List Bytes, first.flatten = second.flatten →
      (∀ chunk ∈ first ++ second, chunk.length ≤ 255) → Declares first.flatten →
      ParsesAlike Sdk.plain Device.boot first second := by
  intro claim
  obtain ⟨one, other, fedFirst, fedSecond, alike, _, _⟩ :=
    claim [[1], [0], [0, 0]] [[1, 0, 0, 0]] rfl (by decide) (by decide)
  have first : ((Feeding.start Device.boot).feedAll Sdk.plain [[1], [0], [0, 0]]).map
      Feeding.outcome = .ok (some [0, 0]) := by rfl
  have second : ((Feeding.start Device.boot).feedAll Sdk.plain [[1, 0, 0, 0]]).map
      Feeding.outcome = .ok (some []) := by rfl
  rw [fedFirst] at first
  rw [fedSecond] at second
  have different := (Except.ok.inj first).symm.trans (alike.outcome.trans (Except.ok.inj second))
  exact absurd different (by decide)

end LedgerNano
