/-
This file embeds the texts of `newTransaction.c`: what `prepare_output_approval` prints
for the output that waits for the user's approval, and where it stores it.
-/

import LedgerNano.Signing
import Mathlib.Data.List.DropRight

namespace LedgerNano

/-! ### Strings -/

/-- `SPRINTF` into one of the arrays of `SCREEN_MAX_CHARS` bytes: the text is cut so that its
terminating zero fits. -/
def sprintf (text : Bytes) : Bytes :=
  text.take (screenMaxChars - 1)

/-- The decimal digits of a number. -/
def decimalDigits (value : Nat) : Bytes :=
  (Nat.toDigits 10 value).map fun digit => UInt8.ofNat digit.toNat

/-- The conversion of an unsigned value to a 32-bit `int`. -/
def toInt32 (value : Nat) : Int :=
  (value : Int).bmod (2 ^ 32)

/-- `%d`. -/
def formatInt (value : Int) : Bytes :=
  if value < 0 then 45 :: decimalDigits value.natAbs else decimalDigits value.natAbs

/-- `%06d`, for a value that is not negative. -/
def formatPadded (value : Nat) : Bytes :=
  List.replicate (6 - (decimalDigits value).length) 48 ++ decimalDigits value

/-- Copy a string with its terminating zero to the start of an array. -/
def storeText {size : Nat} (array : Cells Byte size) (text : Bytes) : Cells Byte size :=
  array.write 0 (text ++ [0])

/-- The string an array holds: the bytes before the first zero. -/
def textOf {size : Nat} (array : Cells Byte size) : Bytes :=
  array.contents.takeWhile (· != 0)

/-! ### `prepare_output_approval` -/

/-- The text `curr_obj/out_num`. -/
def currentOutputText (ctx : SignTxnContext) : Bytes :=
  sprintf (formatInt (toInt32 ctx.currObj) ++ [47] ++ formatInt (toInt32 ctx.txn.outNum))

/-- The amount of an output, with the zeros at its end deleted. -/
def amountText (output : TxnOutput) : Bytes :=
  (sprintf (formatInt (toInt32 (output.coinNum / skyCoins)) ++ [46] ++
    formatPadded (output.coinNum % skyCoins))).rdropWhile (· == 48)

/-- The address of an output. -/
def addressText (sdk : Sdk) (output : TxnOutput) : Bytes :=
  addressToBase58 sdk output.address

/-- `prepare_output_approval`. -/
def prepareOutputApproval (sdk : Sdk) (device : Device) : Device :=
  let ctx := device.signTxnContext
  let texts := device.transactionContext
  { device with transactionContext := {
      currentOutputDisplay := storeText (Cells.fill 0) (currentOutputText ctx)
      outAddress := storeText texts.outAddress (addressText sdk ctx.txn.curOutput)
      amount := storeText texts.amount (amountText ctx.txn.curOutput) } }.record
    (.prepared ctx.txn.curOutput)

/-- The stored texts are those of an output. -/
def TransactionContext.Shows (sdk : Sdk) (texts : TransactionContext) (output : TxnOutput) : Prop :=
  texts.outAddress.read 0 ((addressText sdk output).length + 1) = addressText sdk output ++ [0] ∧
    texts.amount.read 0 ((amountText output).length + 1) = amountText output ++ [0]

theorem read_storeText {size : Nat} (array : Cells Byte size) (text : Bytes)
    (fits : text.length < size) :
    (storeText array text).read 0 (text.length + 1) = text ++ [0] := by
  have length : text.length + 1 = (text ++ [0]).length := by
    rw [List.length_append, List.length_singleton]
  rw [storeText, length]
  exact array.read_write_self 0 (text ++ [0]) (by rw [← length]; omega)

theorem length_amountText (output : TxnOutput) : (amountText output).length ≤ 15 := by
  refine le_trans (List.rdropWhile_prefix (· == 48) _).length_le ?_
  rw [sprintf, List.length_take]
  exact Nat.min_le_left _ _

theorem prepareOutputApproval_outAddress (sdk : Sdk) (device : Device) :
    (prepareOutputApproval sdk device).transactionContext.outAddress =
      storeText device.transactionContext.outAddress
        (addressText sdk device.signTxnContext.txn.curOutput) := rfl

theorem prepareOutputApproval_amount (sdk : Sdk) (device : Device) :
    (prepareOutputApproval sdk device).transactionContext.amount =
      storeText device.transactionContext.amount
        (amountText device.signTxnContext.txn.curOutput) := rfl

theorem length_addressText (sdk : Sdk) (output : TxnOutput) :
    (addressText sdk output).length ≤ 35 :=
  length_addressToBase58_le sdk output.address

/-- After `prepare_output_approval` the texts are those of the parsed output. -/
theorem prepareOutputApproval_shows (sdk : Sdk) (device : Device) :
    (prepareOutputApproval sdk device).transactionContext.Shows sdk
      device.signTxnContext.txn.curOutput := by
  constructor
  · have address := length_addressText sdk device.signTxnContext.txn.curOutput
    rw [prepareOutputApproval_outAddress, read_storeText]
    omega
  · have amount := length_amountText device.signTxnContext.txn.curOutput
    rw [prepareOutputApproval_amount, read_storeText]
    omega

@[simp]
theorem prepareOutputApproval_signTxnContext (sdk : Sdk) (device : Device) :
    (prepareOutputApproval sdk device).signTxnContext = device.signTxnContext := by
  rw [prepareOutputApproval, Device.record]

@[simp]
theorem prepareOutputApproval_tx (sdk : Sdk) (device : Device) :
    (prepareOutputApproval sdk device).tx = device.tx := by
  rw [prepareOutputApproval, Device.record]

@[simp]
theorem prepareOutputApproval_apduBuffer (sdk : Sdk) (device : Device) :
    (prepareOutputApproval sdk device).apduBuffer = device.apduBuffer := by
  rw [prepareOutputApproval, Device.record]

@[simp]
theorem prepareOutputApproval_screen (sdk : Sdk) (device : Device) :
    (prepareOutputApproval sdk device).screen = device.screen := by
  rw [prepareOutputApproval, Device.record]

@[simp]
theorem prepareOutputApproval_getPublicKeyContext (sdk : Sdk) (device : Device) :
    (prepareOutputApproval sdk device).getPublicKeyContext = device.getPublicKeyContext := by
  rw [prepareOutputApproval, Device.record]

@[simp]
theorem prepareOutputApproval_log (sdk : Sdk) (device : Device) :
    (prepareOutputApproval sdk device).log =
      .prepared device.signTxnContext.txn.curOutput :: device.log := by
  rw [prepareOutputApproval, Device.record]

end LedgerNano
