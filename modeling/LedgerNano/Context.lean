/-
This file is the data model of the application: the constants and the records of
`ux.h`, the byte buffer the transport shares with the handlers, and the functions
of the SDK the application calls.

The three records below are the three parts of `commandContext global`. Besides the
fields of the C structures the device carries a `log` of what it did; no function
reads the log back, it is there for the statements about whole runs.
-/

import LedgerNano.Library.Cells

namespace LedgerNano

abbrev Byte := UInt8

abbrev Bytes := List Byte

/-! ### Numbers in byte strings -/

/-- The byte of a string at an index, `0` outside it. -/
def byteAt (bytes : Bytes) (index : Nat) : Nat :=
  (bytes.getD index 0).toNat

/-- The SDK's `U4LE`: four bytes as a little-endian number. -/
def u4LE (bytes : Bytes) (off : Nat) : Nat :=
  byteAt bytes off + 2 ^ 8 * byteAt bytes (off + 1) + 2 ^ 16 * byteAt bytes (off + 2) +
    2 ^ 24 * byteAt bytes (off + 3)

/-- The SDK's `U4BE`: four bytes as a big-endian number. -/
def u4BE (bytes : Bytes) (off : Nat) : Nat :=
  2 ^ 24 * byteAt bytes off + 2 ^ 16 * byteAt bytes (off + 1) + 2 ^ 8 * byteAt bytes (off + 2) +
    byteAt bytes (off + 3)

/-- `U8LE` of `txn.c`. -/
def u8LE (bytes : Bytes) (off : Nat) : Nat :=
  2 ^ 32 * u4LE bytes (off + 4) + u4LE bytes off

/-! ### Constants -/

def bip44PathLen : Nat := 5

def screenMaxChars : Nat := 16

def skyCoins : Nat := 1000000

def maxInputs : Nat := 20

def sha256HashLen : Nat := 32

def pkLen : Nat := 65

def sigLen : Nat := 65

/-- Bytes of `G_io_apdu_buffer`. -/
def apduBufferLen : Nat := 260

/-! ### The transaction being signed -/

/-- `txn_output_t`. -/
structure TxnOutput where
  address : Bytes
  coinNum : Nat
  hourNum : Nat
  deriving DecidableEq

/-- The output record the bytes of one output element denote. -/
def TxnOutput.ofBytes (bytes : Bytes) : TxnOutput :=
  { address := bytes.take 21, coinNum := u8LE bytes 21, hourNum := u8LE bytes 29 }

/-- `sig_input_t`, a union: the 36 bytes of an input and the 65 bytes of the signature that
replaces it share the first bytes of one slot. -/
abbrev SigInput := Cells Byte 65

namespace SigInput

def input (slot : SigInput) : Bytes := slot.read 0 36

def storeInput (slot : SigInput) (bytes : Bytes) : SigInput := slot.write 0 bytes

def signature (slot : SigInput) : Bytes := slot.read 0 sigLen

end SigInput

/-- `txn_t`. -/
structure Txn where
  innerHash : Cells Byte 32
  inNum : Nat
  sigInput : Cells SigInput maxInputs
  outNum : Nat
  curOutput : TxnOutput

/-- `txn_state_t`. `TXN_READY`, which the parser stores as a state, has the value of
`computeSigs`. -/
inductive TxnState
  | startIn
  | txnIn
  | startOut
  | txnOut
  | computeSigs
  | retSigs
  deriving DecidableEq

/-! #### Values of `txn_ui_state_t`, the parser's exception codes

`TXN_OUT`, which the callers test for, is `3` as well. -/

def txnPartial : Nat := 1

def txnPartialOut : Nat := 2

def txnApproveOut : Nat := 3

def txnReady : Nat := 4

def txnFinished : Nat := 5

def txnError : Nat := 6

/-- `signTxnContext_t`. The hash is kept as the bytes hashed since its initialization, and
`dataBuffer` as an index of `G_io_apdu_buffer`; `tx`, which always points at the `tx` of
`sky_main`, is a field of the device. -/
structure SignTxnContext where
  initialized : Bool
  hash : Bytes
  txnState : TxnState
  txn : Txn
  buffer : Cells Byte 37
  offset : Nat
  currObj : Nat
  dataBuffer : Nat
  dataLength : Nat

/-- `getPublicKeyContext_t` without `address_copy`, the label of the address screen. -/
structure GetPublicKeyContext where
  bip44Path : Cells Nat 5
  address : Cells Byte 36

/-- `transactionContext_t` without the two labels of the transaction screen and the unused
`current_output`. -/
structure TransactionContext where
  currentOutputDisplay : Cells Byte 16
  outAddress : Cells Byte 36
  amount : Cells Byte 16

/-! ### The device -/

/-- What the display shows: the menu, `transaction_screen`, `bagl_info_text` or
`bagl_ui_address`. -/
inductive Screen
  | menu
  | transaction
  | infoText
  | address
  deriving DecidableEq

/-- What the device did, as recorded in its log. -/
inductive Event
  /-- An APDU was received. -/
  | command (bytes : Bytes)
  /-- An answer, status bytes included, was sent. -/
  | reply (bytes : Bytes)
  /-- A left press on the transaction screen. -/
  | leftPress
  /-- A right press on the transaction screen, with the texts stored at that moment. -/
  | rightPress (texts : TransactionContext)
  /-- A signing session was initialized. -/
  | sessionStart
  /-- The parser took an element of the transaction. -/
  | element (bytes : Bytes)
  /-- `prepare_output_approval` filled the texts from an output. -/
  | prepared (output : TxnOutput)
  /-- `TXN_COMPUTE_SIGS` began to sign an inner hash. -/
  | computeSigs (innerHash : Bytes)
  /-- `derive_keypair` was called with a path. -/
  | derive (path : List Nat)

/-- The state of the application: the parts of `global`, the transport buffer, the local
`tx` of `sky_main`, the screen, and the log with its newest event first. -/
structure Device where
  getPublicKeyContext : GetPublicKeyContext
  transactionContext : TransactionContext
  signTxnContext : SignTxnContext
  apduBuffer : Cells Byte 260
  tx : Nat
  screen : Screen
  log : List Event

def Device.record (device : Device) (event : Event) : Device :=
  { device with log := event :: device.log }

/-- What the model stops at because it has no defined effect in C. The encoding that
`cx_ecdsa_sign` writes past `tle_sign_tx` is not among these: `sign` keeps it whole. -/
inductive Fault
  /-- `sig_input` was indexed at or past `MAX_INPUTS`. -/
  | inputTable
  /-- A copy left the 37 bytes of `buffer`, or its length was negative. -/
  | stagingBuffer
  /-- `G_io_apdu_buffer` was written at or past its 260 bytes. -/
  | apduBuffer
  /-- The parser's loop did not leave by an exception. -/
  | endless
  deriving DecidableEq

/-! ### The SDK -/

/-- The functions of the SDK the application calls. Those that may raise an exception return
its code as an error. -/
structure Sdk where
  sha256 : Bytes → Cells Byte 32
  ripemd160 : Bytes → Cells Byte 20
  /-- `os_perso_derive_node_bip32` followed by `cx_ecfp_init_private_key`. -/
  deriveNode : List Nat → Except Nat (Cells Byte 32)
  /-- `cx_ecfp_init_public_key` followed by `cx_ecfp_generate_pair`. -/
  generatePair : Cells Byte 32 → Except Nat (Cells Byte 65)
  /-- `cx_ecdsa_sign`: the signature in TLV form and the `info` flags. -/
  ecdsaSign : Cells Byte 32 → Bytes → Except Nat (Bytes × Nat)
  /-- What the stack holds around the array `tle_sign_tx` of `sign`. -/
  stack : Int → Byte

/-- The first cells of a block of bytes, the rest zero. -/
def padded (size : Nat) (bytes : Bytes) : Cells Byte size :=
  (Cells.fill 0).write 0 bytes

/-- An SDK to run examples with: its hash is the end of the text, its keys spell their path, and
its signatures the hash and the key. -/
def Sdk.plain : Sdk where
  sha256 bytes := padded 32 bytes.reverse
  ripemd160 bytes := padded 20 bytes
  deriveNode path := .ok (padded 32 (path.map UInt8.ofNat))
  generatePair key := .ok (padded 65 key.contents)
  ecdsaSign key hash :=
    .ok ([0x30, 0x44, 0x02, 32] ++ hash.take 32 ++ [0x02, 32] ++ key.contents, 0)
  stack _ := 0

end LedgerNano
