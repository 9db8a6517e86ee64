/-
This file embeds the reading half of `txn.c`: the staging buffer that carries the bytes of
an unfinished element from one chunk to the next, and the four states of `__txn_next_elem`
that take the elements of a transaction.

A pass through the switch reads the transport buffer but does not write it, so these
functions map contexts to contexts; the two signing states, which also touch the stored
path and the reply, are in the next file.
-/

import LedgerNano.Crypto

namespace LedgerNano

/-! ### The staging buffer -/

/-- The context after `save_data_to_buffer`: what is left of the chunk is all that is staged. -/
def SignTxnContext.save (ctx : SignTxnContext) (apduBuffer : Cells Byte 260) : SignTxnContext :=
  { ctx with
    buffer := ctx.buffer.write 0 (apduBuffer.read ctx.dataBuffer ctx.dataLength)
    offset := ctx.dataLength % 2 ^ 8
    dataBuffer := ctx.dataBuffer + ctx.dataLength
    dataLength := 0 }

/-- `save_data_to_buffer`. -/
def saveDataToBuffer (apduBuffer : Cells Byte 260) (ctx : SignTxnContext) :
    Except Fault SignTxnContext :=
  if ctx.dataLength ≤ 37 then .ok (ctx.save apduBuffer) else .error .stagingBuffer

/-- The context after `read_data_to_buffer`: the staged bytes are completed from the chunk. The
subtraction from the 16-bit `dataLength` wraps. -/
def SignTxnContext.fill (ctx : SignTxnContext) (apduBuffer : Cells Byte 260) (bufferSize : Nat) :
    SignTxnContext :=
  let count := bufferSize - ctx.offset
  { ctx with
    buffer := ctx.buffer.write ctx.offset (apduBuffer.read ctx.dataBuffer count)
    offset := 0
    dataBuffer := ctx.dataBuffer + count
    dataLength := (ctx.dataLength + 2 ^ 16 - count) % 2 ^ 16 }

/-- `read_data_to_buffer`. -/
def readDataToBuffer (apduBuffer : Cells Byte 260) (bufferSize : Nat) (ctx : SignTxnContext) :
    Except Fault SignTxnContext :=
  if ctx.offset ≤ bufferSize ∧ bufferSize ≤ 37 then
    .ok (ctx.fill apduBuffer bufferSize)
  else
    .error .stagingBuffer

/-! ### The reading states -/

/-- What one pass through the switch did: the context it left, the element it took and the
code it threw. Without a code the loop goes round again. -/
structure Reading where
  ctx : SignTxnContext
  element : Option Bytes
  thrown : Option Nat

/-- `save_data_to_buffer(); THROW(code)`, after `element` was taken. -/
def saveAndThrow (apduBuffer : Cells Byte 260) (element : Option Bytes) (code : Nat)
    (ctx : SignTxnContext) : Except Fault Reading := do
  let ctx ← saveDataToBuffer apduBuffer ctx
  pure { ctx, element, thrown := some code }

/-- The effect of `case TXN_START_IN` once the count is in the buffer. -/
def takeInNum (ctx : SignTxnContext) : SignTxnContext :=
  { ctx with
    hash := ctx.hash ++ ctx.buffer.read 0 4
    txn.inNum := u4LE (ctx.buffer.read 0 4) 0
    txnState := .txnIn
    currObj := 0 }

/-- `case TXN_START_IN`. -/
def txnStartIn (apduBuffer : Cells Byte 260) (ctx : SignTxnContext) : Except Fault Reading :=
  if ctx.offset + ctx.dataLength < 4 then
    saveAndThrow apduBuffer none txnPartial ctx
  else do
    let ctx ← readDataToBuffer apduBuffer 4 ctx
    pure { ctx := takeInNum ctx, element := some (ctx.buffer.read 0 4), thrown := none }

/-- The effect of `case TXN_IN` once the input is in the buffer: the slot of the counter is
written, and once the counter equals the declared count the outputs follow. -/
def takeInput (ctx : SignTxnContext) (inside : ctx.currObj < maxInputs) : SignTxnContext :=
  let slot := ctx.txn.sigInput.get ctx.currObj inside
  let ctx := { ctx with
    hash := ctx.hash ++ ctx.buffer.read 0 32
    txn.sigInput := ctx.txn.sigInput.set ctx.currObj (slot.storeInput (ctx.buffer.read 0 36))
    currObj := (ctx.currObj + 1) % 2 ^ 8 }
  if ctx.currObj = ctx.txn.inNum then { ctx with txnState := .startOut } else ctx

/-- `case TXN_IN`. The slot is not checked against `MAX_INPUTS` by the source. -/
def txnIn (apduBuffer : Cells Byte 260) (ctx : SignTxnContext) : Except Fault Reading :=
  if ctx.offset + ctx.dataLength < 36 then
    saveAndThrow apduBuffer none txnPartial ctx
  else do
    let ctx ← readDataToBuffer apduBuffer 36 ctx
    if inside : ctx.currObj < maxInputs then
      pure { ctx := takeInput ctx inside, element := some (ctx.buffer.read 0 36), thrown := none }
    else
      .error .inputTable

/-- The effect of `case TXN_START_OUT` once the count is in the buffer. -/
def takeOutNum (ctx : SignTxnContext) : SignTxnContext :=
  { ctx with
    hash := ctx.hash ++ ctx.buffer.read 0 4
    txn.outNum := u4LE (ctx.buffer.read 0 4) 0
    txnState := .txnOut
    currObj := 0 }

/-- `case TXN_START_OUT`. Unlike the other states it compares `dataLength` alone. -/
def txnStartOut (apduBuffer : Cells Byte 260) (ctx : SignTxnContext) : Except Fault Reading :=
  if ctx.dataLength < 4 then
    saveAndThrow apduBuffer none txnPartial ctx
  else do
    let ctx ← readDataToBuffer apduBuffer 4 ctx
    pure { ctx := takeOutNum ctx, element := some (ctx.buffer.read 0 4), thrown := none }

/-- The effect of `case TXN_OUT` once the output is in the buffer: it is stored and hashed, and
with the last one the inner hash is finished. -/
def takeOutput (sdk : Sdk) (ctx : SignTxnContext) : SignTxnContext :=
  let ctx := { ctx with
    txn.curOutput := TxnOutput.ofBytes (ctx.buffer.read 0 37)
    currObj := (ctx.currObj + 1) % 2 ^ 8
    hash := ctx.hash ++ ctx.buffer.read 0 37 }
  if ctx.currObj = ctx.txn.outNum then
    { ctx with txn.innerHash := sdk.sha256 ctx.hash }
  else
    ctx

/-- `case TXN_OUT`. `TXN_READY`, which the source stores as the state, is `TXN_COMPUTE_SIGS`. -/
def txnOut (sdk : Sdk) (apduBuffer : Cells Byte 260) (ctx : SignTxnContext) :
    Except Fault Reading :=
  if ctx.currObj = ctx.txn.outNum then
    let ctx := { ctx with txnState := .computeSigs, currObj := 0 }
    .ok { ctx, element := none, thrown := some txnReady }
  else if ctx.offset + ctx.dataLength < 37 then
    saveAndThrow apduBuffer none txnPartial ctx
  else do
    let ctx ← readDataToBuffer apduBuffer 37 ctx
    let output := ctx.buffer.read 0 37
    let ctx := takeOutput sdk ctx
    if ctx.offset + ctx.dataLength < 37 ∧ ctx.txnState ≠ .computeSigs then
      saveAndThrow apduBuffer (some output) txnPartialOut ctx
    else
      pure { ctx, element := some output, thrown := some txnApproveOut }

end LedgerNano
