/-
This file embeds the signing half of `txn.c`, the states `TXN_COMPUTE_SIGS` and
`TXN_RET_SIGS`, and the loop `txn_next_elem` that repeats `__txn_next_elem` until it throws.

The signatures replace the inputs they sign in the same table, and the last word of the
stored path is replaced for each input and put back at the end. An exception of the SDK
leaves through the same channel as the parser's own codes.
-/

import LedgerNano.Parser

namespace LedgerNano

/-! ### `TXN_COMPUTE_SIGS` -/

/-- The stored path with its last word replaced by the address index of an input. -/
def inputPath (path : Cells Nat 5) (slot : SigInput) : Cells Nat 5 :=
  path.write 4 [u4LE slot.input 32]

/-- The signature of one input under the key of its path. -/
def signInput (sdk : Sdk) (innerHash : Bytes) (path : Cells Nat 5) (slot : SigInput) :
    Except Nat SigInput := do
  let sigHash := (sdk.sha256 (innerHash ++ slot.input.take sha256HashLen)).contents
  let privateKey ← derivePrivateKey sdk path.contents
  sign sdk privateKey sigHash

/-- The loop over the inputs; the first argument is the number still to sign. -/
def signInputs (sdk : Sdk) : Nat → Nat → Device → Except Fault (Option Nat × Device)
  | 0, _, device => .ok (none, device)
  | remaining + 1, i, device =>
    if inside : i < maxInputs then
      let ctx := device.signTxnContext
      let slot := ctx.txn.sigInput.get i inside
      let path := inputPath device.getPublicKeyContext.bip44Path slot
      let device :=
        { device with getPublicKeyContext.bip44Path := path }.record (.derive path.contents)
      match signInput sdk ctx.txn.innerHash.contents path slot with
      | .error code => .ok (some code, device)
      | .ok signature =>
        signInputs sdk remaining (i + 1) { device with
          signTxnContext.txn.sigInput := ctx.txn.sigInput.set i signature
          signTxnContext.currObj := (ctx.currObj + 1) % 2 ^ 8 }
    else
      .error .inputTable

/-! ### `TXN_RET_SIGS` -/

/-- `case TXN_RET_SIGS`. Each turn of the loop adds a signature of 65 bytes to at most 255, so
that four turns always suffice. -/
def retSigs : Nat → Device → Except Fault (Option Nat × Device)
  | 0, _ => .error .endless
  | turns + 1, device =>
    let ctx := device.signTxnContext
    if ctx.currObj = ctx.txn.inNum then
      .ok (some txnFinished, { device with signTxnContext.initialized := false })
    else if device.tx + sigLen > 255 then
      .ok (some txnPartial, device)
    else if inside : ctx.currObj < maxInputs then
      retSigs turns { device with
        apduBuffer :=
          device.apduBuffer.write device.tx (ctx.txn.sigInput.get ctx.currObj inside).signature
        signTxnContext.currObj := (ctx.currObj + 1) % 2 ^ 8
        tx := device.tx + sigLen }
    else
      .error .inputTable

/-- `case TXN_COMPUTE_SIGS`, which falls through to `TXN_RET_SIGS`. -/
def computeSigs (sdk : Sdk) (device : Device) : Except Fault (Option Nat × Device) :=
  let ctx := device.signTxnContext
  let oldBip44 := pathWord device.getPublicKeyContext.bip44Path 4
  match signInputs sdk ctx.txn.inNum 0
      (device.record (.computeSigs ctx.txn.innerHash.contents)) with
  | .error fault => .error fault
  | .ok (some code, device) => .ok (some code, device)
  | .ok (none, device) =>
    retSigs 4 { device with
      getPublicKeyContext.bip44Path := device.getPublicKeyContext.bip44Path.write 4 [oldBip44]
      signTxnContext.currObj := 0
      signTxnContext.txnState := .retSigs }

/-! ### `txn_next_elem` -/

/-- The event a reading leaves in the log. -/
def Device.logElement (device : Device) : Option Bytes → Device
  | some bytes => device.record (.element bytes)
  | none => device

/-- Take over what a reading state did to the context. -/
def Device.adopt (device : Device) (reading : Reading) : Option Nat × Device :=
  (reading.thrown, { device with signTxnContext := reading.ctx }.logElement reading.element)

/-- `__txn_next_elem`. -/
def txnNextElemPass (sdk : Sdk) (device : Device) : Except Fault (Option Nat × Device) :=
  let ctx := device.signTxnContext
  match ctx.txnState with
  | .startIn => device.adopt <$> txnStartIn device.apduBuffer ctx
  | .txnIn => device.adopt <$> txnIn device.apduBuffer ctx
  | .startOut => device.adopt <$> txnStartOut device.apduBuffer ctx
  | .txnOut => device.adopt <$> txnOut sdk device.apduBuffer ctx
  | .computeSigs => computeSigs sdk device
  | .retSigs => retSigs 4 device

/-- The `for (;;)` of `txn_next_elem`, for a number of passes. -/
def txnNextElemLoop (sdk : Sdk) : Nat → Device → Except Fault (Nat × Device)
  | 0, _ => .error .endless
  | passes + 1, device =>
    match txnNextElemPass sdk device with
    | .error fault => .error fault
    | .ok (some code, device) => .ok (code, device)
    | .ok (none, device) => txnNextElemLoop sdk passes device

/-- `txn_next_elem`: the exception that ends the loop is its result. A pass that does not throw
takes at least one byte of the chunk, which bounds the passes. -/
def txnNextElem (sdk : Sdk) (device : Device) : Except Fault (Nat × Device) :=
  txnNextElemLoop sdk (device.signTxnContext.dataLength + 1) device

end LedgerNano
