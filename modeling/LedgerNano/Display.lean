/-
This file embeds what draws the two scrolled screens: the preprocessors the SDK calls for each
element of `transaction_screen` and of `bagl_ui_address`, and what the handlers do to the labels
and to the scroll position, which both screens share.

The copies into a label are not bounded by it, so the labels are kept as one block of memory, in
the struct order of `commandContext`. The SDK redraws when its timer or a handler asks for it;
here an element may be drawn at any time, and the intervals the preprocessors ask for are left
out.
-/

import LedgerNano.Moves
import LedgerNano.Transaction

namespace LedgerNano

/-! ### The labels -/

/-- The state behind the screens. The block `labels` is what stands between `address` and
`current_output_display` in `global`: `address_copy`, `custom_text_line_1`, `custom_text_line_2`
and `current_output`. -/
structure Display where
  device : Device
  labels : Cells Byte 52
  currentOffset : Int
  direction : Int

/-! #### Places in `labels` -/

def addressCopy : Nat := 0

def customTextLine1 : Nat := 16

def customTextLine2 : Nat := 32

/-! #### Places in `global` -/

def addressPlace : Nat := 20

def labelsPlace : Nat := 56

def outAddressPlace : Nat := 124

def amountPlace : Nat := 160

/-- What goes wrong when an element is drawn or an input is handled. -/
inductive DrawFault
  /-- The handlers of the device failed. -/
  | device (fault : Fault)
  /-- The ranges of a `strcpy` overlap. -/
  | overlap
  /-- A copy left the block `labels`. -/
  | outside
  deriving DecidableEq

namespace Display

/-- The bytes of `getPublicKeyContext` and `transactionContext`. -/
def globalBytes (display : Display) : Bytes :=
  let keys := display.device.getPublicKeyContext
  let texts := display.device.transactionContext
  keys.bip44Path.contents.flatMap le32 ++ keys.address.contents ++ display.labels.contents ++
    texts.currentOutputDisplay.contents ++ texts.outAddress.contents ++ texts.amount.contents

section Copies

variable (elsewhere : Int → Byte)

/-- The byte at a place, counted from the start of `global`; the places before it and behind the
two contexts hold `elsewhere`. -/
def byte (display : Display) (place : Int) : Byte :=
  if 0 ≤ place ∧ place < 176 then display.globalBytes.getD place.toNat 0 else elsewhere place

/-- The bytes from a place on. -/
def bytes (display : Display) (place : Int) (count : Nat) : Bytes :=
  (List.range count).map fun (index : Nat) => display.byte elsewhere (place + index)

/-- Bytes written to a label. -/
def store (display : Display) (label : Nat) (values : Bytes) : Except DrawFault Display :=
  if label + values.length ≤ 52 then
    .ok { display with labels := display.labels.write label values }
  else
    .error .outside

/-- `strcpy` from a place to a label. The string ends before the nearer of the two ranges meets
the other one. -/
def strcpy (display : Display) (label : Nat) (place : Int) : Except DrawFault Display :=
  let apart := (place - (labelsPlace + label : Nat)).natAbs
  let text := (display.bytes elsewhere place apart).takeWhile (· != 0)
  if text.length < apart then
    display.store label (text ++ [0])
  else
    .error .overlap

end Copies

/-- The test for the two ends of the scroll: `-1`, and one past the last window of a string of
this length. -/
def AtEnd (currentOffset : Int) (length : Nat) : Prop :=
  currentOffset = -1 ∨ currentOffset + screenMaxChars = length + 1

instance (currentOffset : Int) (length : Nat) : Decidable (AtEnd currentOffset length) :=
  inferInstanceAs (Decidable (_ ∨ _))

/-- `current_offset += direction`, and `direction *= -1` at an end. -/
def scroll (display : Display) (length : Nat) : Display :=
  let currentOffset := display.currentOffset + display.direction
  { display with
    currentOffset
    direction := if AtEnd currentOffset length then -display.direction else display.direction }

end Display

/-! ### The preprocessors -/

section Preprocessors

variable (elsewhere : Int → Byte)

/-- `ui_address_scrolling_text_prepro`. The element is always displayed. -/
def uiAddressScrollingTextPrepro (userid : Nat) (display : Display) :
    Except DrawFault (Bool × Display) := do
  if userid = 0x83 then
    let copied ← display.strcpy elsewhere addressCopy (addressPlace + display.currentOffset)
    let ended ← copied.store (addressCopy + screenMaxChars) [0]
    pure (true, ended.scroll (textOf display.device.getPublicKeyContext.address).length)
  else
    pure (true, display)

/-- `Address:`. -/
def addressLineText : Bytes := [65, 100, 100, 114, 101, 115, 115, 58]

/-- `SKY:`. -/
def skyLineText : Bytes := [83, 75, 89, 58]

/-- The info line of an output. -/
def drawInfoLine (display : Display) : Except DrawFault Display := do
  let named ← display.store customTextLine1 (addressLineText ++ [0])
  if display.currentOffset = -1 then
    named.store customTextLine1 (skyLineText ++ [0])
  else
    pure named

/-- The description line of an output: its address, and its amount when the scroll has come back
to the start. -/
def drawDescriptionLine (display : Display) : Except DrawFault Display := do
  let copied ← display.store customTextLine2
    (display.bytes elsewhere (outAddressPlace + display.currentOffset) (screenMaxChars - 1))
  let ended ← copied.store (customTextLine2 + screenMaxChars) [0]
  let length := (textOf display.device.transactionContext.outAddress).length
  let scrolled := ended.scroll length
  if Display.AtEnd scrolled.currentOffset length ∧ scrolled.direction = 1 then
    scrolled.strcpy elsewhere customTextLine2 amountPlace
  else
    pure scrolled

/-- `transaction_screen_prepro`: whether the element is displayed, and what was drawn. -/
def transactionScreenPrepro (userid : Nat) (display : Display) :
    Except DrawFault (Bool × Display) :=
  if display.device.signTxnContext.txnState = .txnOut then
    if userid = 0x80 then
      (fun drawn => (true, drawn)) <$> drawInfoLine display
    else if userid = 0x83 then
      (fun drawn => (true, drawn)) <$> drawDescriptionLine elsewhere display
    else
      .ok (true, display)
  else
    .ok (!(userid = 0x01 ∨ userid = 0x02 ∨ userid = 0x11), display)

end Preprocessors

/-! ### What the handlers do to the labels -/

namespace Display

/-- `go_to_transaction_screen`. The lines come with their terminating zeros. -/
def goToTransactionScreen (firstLine secondLine : Bytes) (display : Display) : Display :=
  { display with
    labels := (display.labels.write customTextLine1 (firstLine.take screenMaxChars)).write
      customTextLine2 (secondLine.take screenMaxChars)
    currentOffset := 0
    direction := 1 }

/-- `You received`. -/
def youReceivedText : Bytes := [89, 111, 117, 32, 114, 101, 99, 101, 105, 118, 101, 100, 0]

/-- `new transaction`. -/
def newTransactionText : Bytes :=
  [110, 101, 119, 32, 116, 114, 97, 110, 115, 97, 99, 116, 105, 111, 110, 0]

/-- `Transaction`. -/
def transactionText : Bytes := [84, 114, 97, 110, 115, 97, 99, 116, 105, 111, 110, 0]

/-- `processing...`. -/
def processingText : Bytes := [112, 114, 111, 99, 101, 115, 115, 105, 110, 103, 46, 46, 46, 0]

/-- A command that opens the dialogue of a transaction. -/
def Opens (display : Display) (apdu : Apdu) : Prop :=
  display.device.AsksToSign apdu ∧ display.device.signTxnContext.initialized = false ∧
    display.device.p1 apdu = 0

instance (display : Display) (apdu : Apdu) : Decidable (display.Opens apdu) :=
  inferInstanceAs (Decidable (_ ∧ _ ∧ _))

/-- What an input does to the labels and the scroll position: the first branch of `handleSignTxn`,
the right press of `transaction_screen_button`, and `go_to_address_screen`. -/
def take (display : Display) : Input → Display
  | .apdu apdu =>
    if display.Opens apdu then
      display.goToTransactionScreen youReceivedText newTransactionText
    else
      display
  | .button button =>
    if button ≠ .left ∧ display.device.screen = .transaction then
      { display with
        labels := (display.labels.write customTextLine1 transactionText).write customTextLine2
          processingText }
    else
      display
  | .addressScreen =>
    if display.device.screen = .menu then
      { display with currentOffset := 0, direction := 1 }
    else
      display

/-- What can happen: an input to the device, or the drawing of an element of its screen. -/
inductive Happening
  | input (input : Input)
  | draw (userid : Nat)

/-- One happening. The menu and `bagl_info_text` are drawn without a preprocessor of ours. -/
def step (sdk : Sdk) (elsewhere : Int → Byte) (display : Display) :
    Happening → Except DrawFault Display
  | .input input =>
    match LedgerNano.step sdk display.device input with
    | .error fault => .error (.device fault)
    | .ok device => .ok { display.take input with device }
  | .draw userid =>
    match display.device.screen with
    | .transaction => Prod.snd <$> transactionScreenPrepro elsewhere userid display
    | .address => Prod.snd <$> uiAddressScrollingTextPrepro elsewhere userid display
    | .infoText | .menu => .ok display

/-- A run of the device with its screens. -/
def run (sdk : Sdk) (elsewhere : Int → Byte) :
    Display → List Happening → Except DrawFault Display :=
  Runs.run (step sdk elsewhere)

/-- The display when `sky_main` first waits for a command: static memory is zero. -/
def boot : Display where
  device := Device.boot
  labels := Cells.fill 0
  currentOffset := 0
  direction := 0

end Display

/-- The string the screen scrolls: the address of the output that waits for approval, or the one
`GET_ADDRESS` stored. -/
def Device.scrolledText (device : Device) : Option Bytes :=
  match device.screen with
  | .transaction =>
    if device.signTxnContext.txnState = .txnOut then
      some (textOf device.transactionContext.outAddress)
    else
      none
  | .address => some (textOf device.getPublicKeyContext.address)
  | .infoText | .menu => none

end LedgerNano
