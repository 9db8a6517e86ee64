/-
This file embeds the host's side: `send_to_ledger` of `adpu_call.py`, `send_txn` of
`sign_transaction.py` and the serialization of `generating_txn.py`, with a user who
presses the right button whenever the transaction screen waits for it.

The scripts work on hex digits; here they are bytes, two digits each. The loops take a
number of turns, and running out of it is an outcome of its own (`Mishap.endless`).

`dongle.exchange` belongs to ledgerblue, which the repository imports. What is modelled of it
is what that package documents: it sends the command, waits for the one reply to it, and returns
the data in front of the status, or raises `CommException` with the status (`Accepts`,
`responseOf`). Its transport, its time-out and its debug output are left out.
-/

import LedgerNano.Traces

namespace LedgerNano

/-! ### A transaction on the host -/

/-- Eight bytes of a number, the lowest first: `to_le(num, 8)`. -/
def le64 (value : Nat) : Bytes := le32 value ++ le32 (value / 2 ^ 32)

/-- `Input`: an unspent output and the index of the address that owns it. -/
structure HostInput where
  uxId : Cells Byte 32
  addressIndex : Nat
  small : addressIndex < 2 ^ 32

/-- `Output`, its address as the 1 + 20 bytes it is serialized to. -/
structure HostOutput where
  addr : Cells Byte 21
  amount : Nat
  fee : Nat
  smallAmount : amount < 2 ^ 64
  smallFee : fee < 2 ^ 64

def HostInput.serialized (input : HostInput) : Bytes :=
  input.uxId.contents ++ le32 input.addressIndex

def HostOutput.serialized (output : HostOutput) : Bytes :=
  output.addr.contents ++ le64 output.amount ++ le64 output.fee

/-- `txn_in_out` of `createRawTransaction`. -/
def serializedTransaction (inputs : List HostInput) (outputs : List HostOutput) : Bytes :=
  le32 inputs.length ++ (inputs.map HostInput.serialized).flatten ++
    le32 outputs.length ++ (outputs.map HostOutput.serialized).flatten

/-! ### `send_to_ledger` -/

/-- Why the host does not go on. -/
inductive Mishap
  /-- The device left the bounds of its memory, or its parser did not end. -/
  | fault (fault : Fault)
  /-- The command is not answered, and the user has nothing to press. -/
  | silent
  /-- `dongle.exchange` raises `CommException`, with the status. -/
  | refused (status : Bytes)
  /-- The turns ran out. -/
  | endless
  deriving DecidableEq

/-- The request of `send_to_ledger`, `le` included. -/
def ledgerApdu (p1 : Byte) (data : Bytes) (fits : data.length ≤ 254) : Apdu where
  bytes := [0x80, 0x10, p1, 0, UInt8.ofNat data.length] ++ data ++ [0]
  fits := by
    rw [List.length_append, List.length_append]
    exact Nat.add_le_add_right (Nat.add_le_add_left fits 5) 1

/-- The reply to the newest command. -/
def answerTo : List Event → Option Bytes :=
  Logs.read none fun
    | .command _ => some fun _ _ => none
    | .reply bytes => some fun _ _ => some bytes
    | _ => none

theorem answerTo_reply (bytes : Bytes) (past : List Event) :
    answerTo (.reply bytes :: past) = some bytes := rfl

/-- The statuses for which `dongle.exchange` raises nothing: `0x9000`, and the ranges `0x61xx` and
`0x6Cxx` in which a card tells a length. None of the application's own statuses is in these. -/
def Accepts (status : Bytes) : Prop :=
  status = statusBytes insRetSuccess ∨ byteAt status 0 = 0x61 ∨ byteAt status 0 = 0x6C

instance : DecidablePred Accepts := fun _ => inferInstanceAs (Decidable (_ ∨ _))

theorem accepts_success : Accepts (statusBytes insRetSuccess) := Or.inl rfl

/-- The response of `dongle.exchange`: the reply without its status. For any other status it raises
`CommException`. -/
def responseOf (reply : Bytes) : Except Mishap Bytes :=
  if Accepts (reply.drop (reply.length - 2)) then
    .ok (reply.take (reply.length - 2))
  else
    .error (.refused (reply.drop (reply.length - 2)))

/-- `dongle.exchange` waits for the reply to its command. Meanwhile the user presses the right
button as long as the transaction screen is shown. -/
def awaitReply (sdk : Sdk) : Nat → Device → Except Mishap (Bytes × Device)
  | 0, _ => .error .endless
  | turns + 1, device =>
    match answerTo device.log with
    | some reply => (fun response => (response, device)) <$> responseOf reply
    | none =>
      if device.screen = .transaction then
        match step sdk device (.button .right) with
        | .error fault => .error (.fault fault)
        | .ok device => awaitReply sdk turns device
      else
        .error .silent

/-- `send_to_ledger` with `ins=0x10`. -/
def sendToLedger (sdk : Sdk) (turns : Nat) (p1 : Byte) (data : Bytes) (fits : data.length ≤ 254)
    (device : Device) : Except Mishap (Bytes × Device) :=
  match step sdk device (.apdu (ledgerApdu p1 data fits)) with
  | .error fault => .error (.fault fault)
  | .ok device => awaitReply sdk turns device

/-! ### `send_txn` -/

/-- `txn[i*254*2:(i+1)*254*2]`. -/
def chunkOf (txn : Bytes) (i : Nat) : Bytes := (txn.drop (254 * i)).take 254

theorem length_chunkOf (txn : Bytes) (i : Nat) : (chunkOf txn i).length ≤ 254 :=
  List.length_take_le _ _

/-- The first loop of `send_txn`. It keeps the last response only. -/
def sendChunks (sdk : Sdk) (fuel : Nat) (txn : Bytes) :
    Nat → Nat → Byte → Bytes → Device → Except Mishap (Byte × Bytes × Device)
  | 0, _, _, _, _ => .error .endless
  | turns + 1, i, p1, ret, device =>
    if 254 * i < txn.length then
      match sendToLedger sdk fuel p1 (chunkOf txn i) (length_chunkOf txn i) device with
      | .error mishap => .error mishap
      | .ok (ret, device) => sendChunks sdk fuel txn turns (i + 1) 1 ret device
    else
      .ok (p1, ret, device)

/-- The second loop of `send_txn`, until there are `wanted` bytes. -/
def fetchRest (sdk : Sdk) (fuel wanted : Nat) (p1 : Byte) :
    Nat → Bytes → Device → Except Mishap (Bytes × Device)
  | 0, _, _ => .error .endless
  | turns + 1, ret, device =>
    if ret.length < wanted then
      match sendToLedger sdk fuel p1 [] (Nat.zero_le _) device with
      | .error mishap => .error mishap
      | .ok (more, device) => fetchRest sdk fuel wanted p1 turns (ret ++ more) device
    else
      .ok (ret, device)

/-- The last loop of `send_txn`: pieces of 65 bytes. -/
def splitSigs (txn : Bytes) : List Bytes :=
  if txn.length > 0 then txn.take 65 :: splitSigs (txn.drop 65) else []
termination_by txn.length
decreasing_by
  rw [List.length_drop]
  omega

/-- `send_txn`: the inner hash and the signatures, and the device afterwards. -/
def sendTxn (sdk : Sdk) (fuel : Nat) (txn : Bytes) (device : Device) :
    Except Mishap ((Bytes × List Bytes) × Device) := do
  let (p1, ret, device) ← sendChunks sdk fuel txn fuel 0 0 [] device
  let (ret, device) ← fetchRest sdk fuel (32 + u4LE txn 0 * 65) p1 fuel ret device
  pure ((ret.take 32, splitSigs (ret.drop 32)), device)

end LedgerNano
