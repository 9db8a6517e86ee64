/-
This file connects the parser's memory to the progress of a session.

`Tracks` relates a context in a reading state to the elements read so far: the counters
and counts, the table of inputs, the bytes hashed, and the inner hash once it is
finished. The lemmas here say what the staging buffer does to the bytes it holds, and
that taking an element keeps the relation; the next file puts them together for a whole
call.
-/

import LedgerNano.Transaction

namespace LedgerNano

/-! ### The staged and the unread bytes -/

namespace SignTxnContext

/-- The bytes kept from earlier chunks. -/
def staged (ctx : SignTxnContext) : Bytes :=
  ctx.buffer.read 0 ctx.offset

/-- The part of the current chunk that was not read yet. -/
def pending (ctx : SignTxnContext) (apduBuffer : Cells Byte 260) : Bytes :=
  apduBuffer.read ctx.dataBuffer ctx.dataLength

/-- The current chunk lies inside the transport buffer. -/
def Loaded (ctx : SignTxnContext) : Prop :=
  ctx.dataBuffer + ctx.dataLength ≤ apduBufferLen

variable {ctx : SignTxnContext} {apduBuffer : Cells Byte 260} {size : Nat}

theorem length_staged (ctx : SignTxnContext) (offset : ctx.offset ≤ 37) :
    ctx.staged.length = ctx.offset :=
  ctx.buffer.length_read 0 ctx.offset (by omega)

theorem length_pending (apduBuffer : Cells Byte 260) (loaded : ctx.Loaded) :
    (ctx.pending apduBuffer).length = ctx.dataLength :=
  apduBuffer.length_read ctx.dataBuffer ctx.dataLength loaded

/-- Saving stages the rest of the chunk and forgets what was staged before. -/
theorem staged_save (loaded : ctx.Loaded) (short : ctx.dataLength ≤ 37) :
    (ctx.save apduBuffer).staged = ctx.pending apduBuffer := by
  have length := length_pending apduBuffer loaded
  have offset : (ctx.save apduBuffer).offset = 0 + (ctx.pending apduBuffer).length := by
    rw [length, save]
    simp only
    omega
  rw [staged, offset, save]
  exact (ctx.buffer.read_write_prefix 0 (ctx.pending apduBuffer) (by omega)).trans
    (by rw [Cells.read_zero, List.nil_append])

theorem pending_save : (ctx.save apduBuffer).pending apduBuffer = [] :=
  apduBuffer.read_zero _

theorem offset_save (short : ctx.dataLength ≤ 37) :
    (ctx.save apduBuffer).offset = ctx.dataLength :=
  Nat.mod_eq_of_lt (by omega)

theorem read_chunk (enough : size ≤ ctx.offset + ctx.dataLength) :
    apduBuffer.read ctx.dataBuffer (size - ctx.offset) =
      (ctx.pending apduBuffer).take (size - ctx.offset) :=
  (apduBuffer.take_read _ _ _ (by omega)).symm

/-- Filling completes the element: the staged bytes, then the first bytes of the chunk. -/
theorem buffer_fill (loaded : ctx.Loaded) (offset : ctx.offset ≤ size) (size_le : size ≤ 37)
    (enough : size ≤ ctx.offset + ctx.dataLength) :
    (ctx.fill apduBuffer size).buffer.read 0 size =
      (ctx.staged ++ ctx.pending apduBuffer).take size := by
  have lengthStaged := ctx.length_staged (by omega)
  have lengthPending := length_pending apduBuffer loaded
  have lengthChunk : ((ctx.pending apduBuffer).take (size - ctx.offset)).length =
      size - ctx.offset := by
    rw [List.length_take]
    omega
  have total : ctx.offset + ((ctx.pending apduBuffer).take (size - ctx.offset)).length = size := by
    omega
  have written := ctx.buffer.read_write_prefix ctx.offset
    ((ctx.pending apduBuffer).take (size - ctx.offset)) (by omega)
  rw [total] at written
  rw [fill]
  simp only
  rw [read_chunk enough, written, List.take_append, lengthStaged,
    List.take_of_length_le (by omega : ctx.staged.length ≤ size)]
  rfl

theorem pending_fill (loaded : ctx.Loaded) (offset : ctx.offset ≤ size) (size_le : size ≤ 37)
    (enough : size ≤ ctx.offset + ctx.dataLength) :
    (ctx.fill apduBuffer size).pending apduBuffer =
      (ctx.staged ++ ctx.pending apduBuffer).drop size := by
  have lengthStaged := ctx.length_staged (by omega)
  have inside : ctx.dataBuffer + ctx.dataLength ≤ 260 := loaded
  have remaining : (ctx.dataLength + 2 ^ 16 - (size - ctx.offset)) % 2 ^ 16 =
      ctx.dataLength - (size - ctx.offset) := by
    omega
  rw [pending, fill]
  simp only
  rw [remaining, List.drop_append, lengthStaged,
    List.drop_eq_nil_of_le (by omega : ctx.staged.length ≤ size), List.nil_append, pending,
    Cells.drop_read]

theorem loaded_fill (loaded : ctx.Loaded) (offset : ctx.offset ≤ size)
    (enough : size ≤ ctx.offset + ctx.dataLength) : (ctx.fill apduBuffer size).Loaded := by
  have inside : ctx.dataBuffer + ctx.dataLength ≤ 260 := loaded
  rw [Loaded, fill]
  simp only [apduBufferLen]
  omega

end SignTxnContext

/-! ### The relation -/

/-- The counters, counts and results that belong to the progress. The last two clauses are about
the outputs: the inner hash is finished with the last one, and the newest is the current one. -/
def Agrees (sdk : Sdk) : Progress → SignTxnContext → Prop
  | .startIn, _ => True
  | .txnIn inNum inputs, ctx =>
    ctx.txn.inNum = inNum ∧ ctx.currObj = inputs.length ∧ inputs.length ≤ maxInputs ∧
      (inNum = 0 ∨ inputs.length < inNum)
  | .startOut inNum inputs, ctx =>
    ctx.txn.inNum = inNum ∧ inputs.length = inNum ∧ 0 < inNum ∧ inNum ≤ maxInputs
  | .txnOut inNum inputs outNum outputs, ctx =>
    (ctx.txn.inNum = inNum ∧ inputs.length = inNum ∧ 0 < inNum ∧ inNum ≤ maxInputs) ∧
      (ctx.txn.outNum = outNum ∧ ctx.currObj = outputs.length % 2 ^ 8 ∧
        (outNum < 2 ^ 8 → outputs.length ≤ outNum)) ∧
      (outputs ≠ [] → ctx.currObj = outNum → ctx.txn.innerHash = sdk.sha256 ctx.hash) ∧
      ∀ earlier last, outputs = earlier ++ [last] → ctx.txn.curOutput = TxnOutput.ofBytes last

/-- The table holds the inputs in order. -/
def Stores (inputs : List Bytes) (ctx : SignTxnContext) : Prop :=
  ∀ i (inside : i < maxInputs), i < inputs.length →
    inputs[i]? = some (ctx.txn.sigInput.get i inside).input

/-- The slots of the inputs read are those inputs. -/
theorem Stores.read {inputs : List Bytes} {ctx : SignTxnContext} (stores : Stores inputs ctx)
    (inside : inputs.length ≤ maxInputs) :
    (ctx.txn.sigInput.read 0 inputs.length).map SigInput.input = inputs := by
  have total := ctx.txn.sigInput.length_contents
  apply List.ext_getElem?
  intro i
  by_cases bound : i < inputs.length
  · have slot : i < maxInputs := Nat.lt_of_lt_of_le bound inside
    have here : i < ctx.txn.sigInput.contents.length := total.symm ▸ slot
    rw [stores i slot bound, List.getElem?_map, Cells.read, List.drop_zero,
      List.getElem?_take_of_lt bound, List.getElem?_eq_getElem here]
    rfl
  · rw [List.getElem?_eq_none (not_lt.mp bound), List.getElem?_eq_none]
    rw [List.length_map, Cells.length_read _ _ _ (by rw [Nat.zero_add]; exact inside)]
    exact not_lt.mp bound

/-- A context in a reading state has read exactly the elements of the progress. -/
structure Tracks (sdk : Sdk) (progress : Progress) (ctx : SignTxnContext) : Prop where
  state : ctx.txnState = progress.state
  hash : ctx.hash = progress.hashed
  offset : ctx.offset < progress.elementSize
  stores : Stores progress.inputs ctx
  sizes : ∀ input ∈ progress.inputs, input.length = 36
  agrees : Agrees sdk progress ctx

/-- What taking an element leaves: a context that tracks one element more, with nothing staged
and the rest of the bytes unread. -/
structure Took (sdk : Sdk) (apduBuffer : Cells Byte 260) (progress : Progress) (record : Bytes)
    (ctx after : SignTxnContext) : Prop where
  tracks : Tracks sdk (progress.next record) after
  staged : after.staged = []
  pending : after.pending apduBuffer =
    (ctx.staged ++ ctx.pending apduBuffer).drop progress.elementSize
  loaded : after.Loaded
  initialized : after.initialized = ctx.initialized
  innerHash : ¬ (progress.next record).TookLast → after.txn.innerHash = ctx.txn.innerHash

section Reading

variable {sdk : Sdk} {apduBuffer : Cells Byte 260} {ctx : SignTxnContext} {progress : Progress}

theorem Tracks.offset_le (tracks : Tracks sdk progress ctx) : ctx.offset ≤ 37 :=
  le_trans (le_of_lt tracks.offset) progress.elementSize_le

/-- Saving a rest that is shorter than the element keeps the relation. -/
theorem Tracks.save (tracks : Tracks sdk progress ctx) (apduBuffer : Cells Byte 260)
    (short : ctx.dataLength < progress.elementSize) :
    Tracks sdk progress (ctx.save apduBuffer) where
  state := tracks.state
  hash := tracks.hash
  offset := by
    have size := progress.elementSize_le
    rw [SignTxnContext.offset_save (by omega)]
    exact short
  stores := tracks.stores
  sizes := tracks.sizes
  agrees := by
    cases progress with
    | startIn => trivial
    | txnIn => exact tracks.agrees
    | startOut => exact tracks.agrees
    | txnOut => exact tracks.agrees

/-- What filling the buffer leaves, for any context that differs from the filled one outside the
staging fields. -/
theorem Took.of_fill {record : Bytes} {after : SignTxnContext} (tracks : Tracks sdk progress ctx)
    (loaded : ctx.Loaded) (enough : progress.elementSize ≤ ctx.offset + ctx.dataLength)
    (next : Tracks sdk (progress.next record) after)
    (offset : after.offset = 0)
    (dataBuffer : after.dataBuffer = (ctx.fill apduBuffer progress.elementSize).dataBuffer)
    (dataLength : after.dataLength = (ctx.fill apduBuffer progress.elementSize).dataLength)
    (initialized : after.initialized = ctx.initialized)
    (innerHash : ¬ (progress.next record).TookLast → after.txn.innerHash = ctx.txn.innerHash) :
    Took sdk apduBuffer progress record ctx after where
  tracks := next
  staged := by rw [SignTxnContext.staged, offset, Cells.read_zero]
  pending := by
    rw [← SignTxnContext.pending_fill loaded (le_of_lt tracks.offset) progress.elementSize_le
      enough, SignTxnContext.pending, SignTxnContext.pending, dataBuffer, dataLength]
  loaded := by
    rw [SignTxnContext.Loaded, dataBuffer, dataLength]
    exact SignTxnContext.loaded_fill loaded (le_of_lt tracks.offset) enough
  initialized := initialized
  innerHash := innerHash

end Reading

end LedgerNano
