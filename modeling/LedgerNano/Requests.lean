/-
This file embeds `send_to_ledger` and `send_txn` as the scripts have them, on texts, and proves
that they do what their embedding on bytes does.

A chunk of a text of digits is the text of a chunk of its bytes, a request is read by
`bytearray.fromhex` as the bytes of the command (`sendToLedgerText_eq`), and `hexlify` makes a
text of every response. So both loops go on with the texts of the same bytes, and raise what the
exchange raises (`sendTxnText_eq`).
-/

import LedgerNano.Scripts
import LedgerNano.Fetching

namespace LedgerNano

/-! ### `send_to_ledger` -/

/-- Why a script does not go on. -/
inductive ScriptError
  /-- The exchange with the device fails. -/
  | mishap (mishap : Mishap)
  /-- `ValueError`, from `send_to_ledger` itself or from `bytearray.fromhex`. -/
  | valueError
  /-- `a2b_hex` or `unpack` cannot read the number of inputs. -/
  | unreadable
  /-- No chunk was sent, and `ret` has no value. -/
  | nameError
  /-- The command is longer than the device's buffer. -/
  | tooLong
  deriving DecidableEq

/-- `('0' if a < 16 else '') + hex(a)[2:]`. -/
def hexByte (maxint a : Nat) : Bytes :=
  (if a < 16 then [48] else []) ++ hexOf maxint a

/-- The text of the request. -/
def requestText (maxint ins p1 p2 : Nat) (data : Bytes) (le : Nat) : Option Bytes :=
  let lc := hexOf maxint (data.length / 2)
  let lc := (if lc.length = 1 then [48] else []) ++ lc
  if lc.length > 2 then
    none
  else
    some ([56, 48] ++ hexByte maxint ins ++ hexByte maxint p1 ++ hexByte maxint p2 ++ lc ++ data ++
      hexByte maxint le)

/-- The outcome of an exchange, as the script has it. -/
def asScript {α : Type} : Except Mishap α → Except ScriptError α
  | .ok value => .ok value
  | .error mishap => .error (.mishap mishap)

/-- `dongle.exchange`, as `Host.lean` has it: the command is sent, and its reply waited for. -/
def exchange (sdk : Sdk) (turns : Nat) (bytes : Bytes) (device : Device) :
    Except ScriptError (Bytes × Device) :=
  if fits : bytes.length ≤ apduBufferLen then
    match step sdk device (.apdu ⟨bytes, fits⟩) with
    | .error fault => .error (.mishap (.fault fault))
    | .ok device => asScript (awaitReply sdk turns device)
  else
    .error .tooLong

/-- `send_to_ledger`. -/
def sendToLedgerText (sdk : Sdk) (maxint turns ins p1 p2 : Nat) (data : Bytes) (le : Nat)
    (device : Device) : Except ScriptError (Bytes × Device) :=
  match requestText maxint ins p1 p2 data le with
  | none => .error .valueError
  | some req =>
    match fromHex req with
    | none => .error .valueError
    | some bytes => exchange sdk turns bytes device

/-! ### `send_txn` -/

/-- `text[start:stop]`. -/
def slice (text : Bytes) (start stop : Nat) : Bytes := (text.take stop).drop start

/-- The first loop of `send_txn`. -/
def sendChunksText (sdk : Sdk) (maxint fuel : Nat) (txn : Bytes) :
    Nat → Nat → Nat → Option Bytes → Device →
      Except ScriptError (Nat × Option Bytes × Device)
  | 0, _, _, _, _ => .error (.mishap .endless)
  | turns + 1, i, p1, ret, device =>
    if i * 2 * 254 < txn.length then
      match sendToLedgerText sdk maxint fuel 0x10 p1 0
        (slice txn (i * 254 * 2) ((i + 1) * 254 * 2)) 0 device with
      | .error error => .error error
      | .ok (ret, device) => sendChunksText sdk maxint fuel txn turns (i + 1) 1 (some ret) device
    else
      .ok (p1, ret, device)

/-- `32 + unpack("<L", binascii.a2b_hex(txn[:8]))[0]*65`. -/
def wantedBytes (txn : Bytes) : Option Nat :=
  match a2bHex (txn.take 8) with
  | some bytes => if bytes.length = 4 then some (32 + u4LE bytes 0 * 65) else none
  | none => none

/-- The second loop of `send_txn`. -/
def fetchRestText (sdk : Sdk) (maxint fuel : Nat) (txn : Bytes) (p1 : Nat) :
    Nat → Bytes → Device → Except ScriptError (Bytes × Device)
  | 0, _, _ => .error (.mishap .endless)
  | turns + 1, ret, device =>
    match wantedBytes txn with
    | none => .error .unreadable
    | some wanted =>
      if ret.length / 2 < wanted then
        match sendToLedgerText sdk maxint fuel 0x10 p1 0 [] 0 device with
        | .error error => .error error
        | .ok (more, device) =>
          fetchRestText sdk maxint fuel txn p1 turns (ret ++ hexText more) device
      else
        .ok (ret, device)

/-- The last loop of `send_txn`. -/
def splitSigsText (txn : Bytes) : List Bytes :=
  if txn.length > 0 then txn.take (65 * 2) :: splitSigsText (txn.drop (65 * 2)) else []
termination_by txn.length
decreasing_by
  rw [List.length_drop]
  omega

/-- `send_txn`. -/
def sendTxnText (sdk : Sdk) (maxint fuel : Nat) (txn : Bytes) (device : Device) :
    Except ScriptError ((Bytes × List Bytes) × Device) :=
  match sendChunksText sdk maxint fuel txn fuel 0 0 none device with
  | .error error => .error error
  | .ok (_, none, _) => .error .nameError
  | .ok (p1, some ret, device) =>
    match fetchRestText sdk maxint fuel txn p1 fuel (hexText ret) device with
    | .error error => .error error
    | .ok (txn, device) => .ok ((txn.take (32 * 2), splitSigsText (txn.drop (32 * 2))), device)

/-! ### The request -/

section Request

variable {maxint : Nat}

/-- Two digits, as for any byte. -/
theorem hexByte_eq (wide : 255 ≤ maxint) (byte : Byte) :
    hexByte maxint byte.toNat = hexText [byte] := by
  have bound := byte.toNat_lt
  have value : bytesValue [byte] = byte.toNat := Radix.value_singleton 256 _
  have digits := numeral_bytesValue [byte]
  rw [value, List.flatMap_singleton, nibbles] at digits
  rw [hexByte, hexOf_short (by omega), digits]
  by_cases zero : byte.toNat = 0
  · rw [if_pos zero, if_pos (by omega), hexText, List.flatMap_singleton, nibbles, zero]
    rfl
  rw [if_neg zero]
  by_cases small : byte.toNat < 16
  · have high : byte.toNat / 16 = 0 := Nat.div_eq_of_lt small
    have low : ¬ ((byte.toNat % 16 == 0) = true) := by
      rw [Nat.mod_eq_of_lt small, beq_iff_eq]
      exact zero
    rw [if_pos small, hexText, List.flatMap_singleton, nibbles, high,
      List.dropWhile_cons_of_pos rfl, List.dropWhile_cons, if_neg low]
    rfl
  · have high : ¬ ((byte.toNat / 16 == 0) = true) := by
      rw [beq_iff_eq]
      omega
    rw [if_neg small, List.dropWhile_cons, if_neg high]
    rfl

theorem length_hexOf_eq_one_iff {a : Nat} (wide : 255 ≤ maxint) (byte : a < 256) :
    (hexOf maxint a).length = 1 ↔ a < 16 := by
  have two := congrArg List.length (hexByte_eq wide (UInt8.ofNat a))
  rw [UInt8.toNat_ofNat', Nat.mod_eq_of_lt byte, length_hexText, hexByte, List.length_append,
    List.length_singleton] at two
  by_cases small : a < 16
  · rw [if_pos small, List.length_singleton] at two
    omega
  · rw [if_neg small, List.length_nil] at two
    omega

/-- The request for a text of few bytes is the text of the command. -/
theorem requestText_reads {text data : Bytes} (wide : 255 ≤ maxint) (reads : Reads text data)
    (few : data.length ≤ 255) (ins p1 p2 le : Byte) :
    ∃ req, requestText maxint ins.toNat p1.toNat p2.toNat text le.toNat = some req ∧
      Reads req ([0x80, ins, p1, p2, UInt8.ofNat data.length] ++ data ++ [le]) := by
  have count : text.length / 2 = data.length := by
    rw [reads.length]
    omega
  have lc : (if (hexOf maxint data.length).length = 1 then [48] else []) ++
      hexOf maxint data.length = hexText [UInt8.ofNat data.length] := by
    have written := hexByte_eq wide (UInt8.ofNat data.length)
    rw [UInt8.toNat_ofNat', Nat.mod_eq_of_lt (Nat.lt_succ_of_le few), hexByte] at written
    rw [← written]
    by_cases small : data.length < 16
    · rw [if_pos small, if_pos ((length_hexOf_eq_one_iff wide (by omega)).mpr small)]
    · rw [if_neg small, if_neg (mt (length_hexOf_eq_one_iff wide (by omega)).mp small)]
  have digits : (hexText [UInt8.ofNat data.length]).length = 2 := length_hexText _
  refine ⟨[56, 48] ++ hexByte maxint ins.toNat ++ hexByte maxint p1.toNat ++
    hexByte maxint p2.toNat ++ hexText [UInt8.ofNat data.length] ++ text ++
      hexByte maxint le.toNat, ?_, ?_⟩
  · rw [requestText, count, lc, digits, if_neg (by decide)]
  · rw [hexByte_eq wide, hexByte_eq wide, hexByte_eq wide, hexByte_eq wide]
    have cla : Reads [56, 48] [0x80] := reads_hexText [0x80]
    exact (((((cla.append (reads_hexText [ins])).append (reads_hexText [p1])).append
      (reads_hexText [p2])).append (reads_hexText _)).append reads).append (reads_hexText [le])

/-- `send_to_ledger` with `ins=0x10` sends the command of the embedding on bytes. -/
theorem sendToLedgerText_eq {text data : Bytes} (wide : 255 ≤ maxint) (reads : Reads text data)
    (sdk : Sdk) (turns : Nat) (p1 : Byte) (fits : data.length ≤ 254) (device : Device) :
    sendToLedgerText sdk maxint turns 0x10 p1.toNat 0 text 0 device =
      asScript (sendToLedger sdk turns p1 data fits device) := by
  obtain ⟨req, written, read⟩ :=
    requestText_reads wide reads (le_trans fits (by decide)) 0x10 p1 0 0
  have sent : requestText maxint 0x10 p1.toNat 0 text 0 = some req := written
  have room : ([0x80, 0x10, p1, 0, UInt8.ofNat data.length] ++ data ++ [0]).length ≤
    apduBufferLen := (ledgerApdu p1 data fits).fits
  rw [sendToLedgerText, sent]
  simp only
  rw [read.fromHex]
  simp only
  rw [exchange, dif_pos room, sendToLedger]
  show (match step sdk device (.apdu (ledgerApdu p1 data fits)) with
    | .error fault => Except.error (ScriptError.mishap (.fault fault))
    | .ok device => asScript (awaitReply sdk turns device)) = _
  cases step sdk device (.apdu (ledgerApdu p1 data fits)) with
  | error fault => rfl
  | ok answered => rfl

end Request

/-! ### The loops -/

section Loops

variable {sdk : Sdk} {maxint fuel : Nat} {text txn : Bytes}

theorem reads_slice (reads : Reads text txn) (i : Nat) :
    Reads (slice text (i * 254 * 2) ((i + 1) * 254 * 2)) (chunkOf txn i) := by
  have cut : slice text (i * 254 * 2) ((i + 1) * 254 * 2) =
      (text.drop (2 * (254 * i))).take (2 * 254) := by
    rw [slice, List.drop_take]
    congr 2 <;> omega
  rw [cut]
  exact (reads.drop (254 * i)).take 254

/-- Behind the first chunk the first loop goes on as the one on bytes. -/
theorem sendChunksText_eq (wide : 255 ≤ maxint) (reads : Reads text txn) (turns i : Nat) (p1 : Byte)
    (ret : Bytes) (device : Device) :
    sendChunksText sdk maxint fuel text turns i p1.toNat (some ret) device =
      (asScript (sendChunks sdk fuel txn turns i p1 ret device)).map
        fun sent => (sent.1.toNat, some sent.2.1, sent.2.2) := by
  induction turns generalizing i p1 ret device with
  | zero => rfl
  | succ turns inductionHypothesis =>
    have more : i * 2 * 254 < text.length ↔ 254 * i < txn.length := by
      rw [reads.length]
      omega
    rw [sendChunksText, sendChunks]
    by_cases inside : 254 * i < txn.length
    · rw [if_pos (more.mpr inside), if_pos inside,
        sendToLedgerText_eq wide (reads_slice reads i) sdk fuel p1 (length_chunkOf txn i) device]
      cases sendToLedger sdk fuel p1 (chunkOf txn i) (length_chunkOf txn i) device with
      | error mishap => rfl
      | ok answered => exact inductionHypothesis (i + 1) 1 answered.1 answered.2
    · rw [if_neg (mt more.mp inside), if_neg inside]
      rfl

theorem wantedBytes_eq (reads : Reads text txn) (long : 4 ≤ txn.length) :
    wantedBytes text = some (32 + u4LE txn 0 * 65) := by
  have first := reads.take 4
  rw [wantedBytes, show a2bHex (text.take 8) = some (txn.take 4) from first]
  simp only
  rw [if_pos (by rw [List.length_take]; omega), u4LE_take]

theorem fetchRestText_eq (wide : 255 ≤ maxint) (reads : Reads text txn) (long : 4 ≤ txn.length)
    (turns : Nat) (p1 : Byte) (ret : Bytes) (device : Device) :
    fetchRestText sdk maxint fuel text p1.toNat turns (hexText ret) device =
      (asScript (fetchRest sdk fuel (32 + u4LE txn 0 * 65) p1 turns ret device)).map
        fun fetched => (hexText fetched.1, fetched.2) := by
  induction turns generalizing ret device with
  | zero => rfl
  | succ turns inductionHypothesis =>
    have count : (hexText ret).length / 2 = ret.length := by
      rw [length_hexText]
      omega
    rw [fetchRestText, fetchRest, wantedBytes_eq reads long]
    simp only
    rw [count]
    by_cases few : ret.length < 32 + u4LE txn 0 * 65
    · rw [if_pos few, if_pos few,
        sendToLedgerText_eq wide reads_nil sdk fuel p1 (Nat.zero_le _) device]
      cases sendToLedger sdk fuel p1 [] (Nat.zero_le _) device with
      | error mishap => rfl
      | ok answered =>
        show fetchRestText sdk maxint fuel text p1.toNat turns (hexText ret ++ hexText answered.1)
          answered.2 = _
        rw [← hexText_append]
        exact inductionHypothesis (ret ++ answered.1) answered.2
    · rw [if_neg few, if_neg few]
      rfl

theorem take_hexText (bytes : Bytes) (count : Nat) :
    (hexText bytes).take (count * 2) = hexText (bytes.take count) := by
  by_cases inside : count ≤ bytes.length
  · have front : (hexText (bytes.take count)).length = count * 2 := by
      rw [length_hexText, List.length_take, Nat.min_eq_left inside, Nat.mul_comm]
    conv_lhs => rw [← List.take_append_drop count bytes, hexText_append]
    exact List.take_left' front
  · rw [List.take_of_length_le (by rw [length_hexText]; omega), List.take_of_length_le (by omega)]

theorem drop_hexText (bytes : Bytes) (count : Nat) :
    (hexText bytes).drop (count * 2) = hexText (bytes.drop count) := by
  have whole : hexText (bytes.take count) ++ hexText (bytes.drop count) =
      (hexText bytes).take (count * 2) ++ (hexText bytes).drop (count * 2) := by
    rw [← hexText_append, List.take_append_drop, List.take_append_drop]
  rw [take_hexText] at whole
  exact (List.append_cancel_left whole).symm

theorem splitSigsText_eq (bytes : Bytes) :
    splitSigsText (hexText bytes) = (splitSigs bytes).map hexText := by
  induction bytes using splitSigs.induct with
  | case1 bytes some inductionHypothesis =>
    rw [splitSigsText, splitSigs, if_pos some, if_pos (by rw [length_hexText]; omega),
      take_hexText, drop_hexText, inductionHypothesis]
    rfl
  | case2 bytes none =>
    rw [splitSigsText, splitSigs, if_neg none, if_neg (by rw [length_hexText]; omega)]
    rfl

/-- `send_txn` on a text of digits does what it does on its bytes: the results are the texts of
the results there, and what stops the one stops the other. -/
theorem sendTxnText_eq (sdk : Sdk) (fuel : Nat) (wide : 255 ≤ maxint) (reads : Reads text txn)
    (long : 4 ≤ txn.length) (device : Device) :
    sendTxnText sdk maxint fuel text device =
      (asScript (sendTxn sdk fuel txn device)).map fun sent =>
        ((hexText sent.1.1, sent.1.2.map hexText), sent.2) := by
  have first : sendChunksText sdk maxint fuel text fuel 0 0 none device =
      (asScript (sendChunks sdk fuel txn fuel 0 0 [] device)).map
        fun sent => (sent.1.toNat, some sent.2.1, sent.2.2) := by
    cases fuel with
    | zero => rfl
    | succ turns =>
      have more : 0 * 2 * 254 < text.length := by
        rw [reads.length]
        omega
      have inside : 254 * 0 < txn.length := by omega
      rw [sendChunksText, sendChunks, if_pos more, if_pos inside]
      have sent := sendToLedgerText_eq wide (reads_slice reads 0) sdk (turns + 1) 0
        (length_chunkOf txn 0) device
      show (match sendToLedgerText sdk maxint (turns + 1) 16 (UInt8.toNat 0) 0 _ 0 device with
        | .error error => Except.error error
        | .ok (ret, device) =>
          sendChunksText sdk maxint (turns + 1) text turns (0 + 1) 1 (some ret) device) = _
      rw [sent]
      cases sendToLedger sdk (turns + 1) 0 (chunkOf txn 0) (length_chunkOf txn 0) device with
      | error mishap => rfl
      | ok answered => exact sendChunksText_eq wide reads turns 1 1 answered.1 answered.2
  rw [sendTxnText, first, sendTxn]
  cases sendChunks sdk fuel txn fuel 0 0 [] device with
  | error mishap => rfl
  | ok sent =>
    obtain ⟨p1, ret, read⟩ := sent
    show (match fetchRestText sdk maxint fuel text p1.toNat fuel (hexText ret) read with
      | .error error => Except.error error
      | .ok (txn, device) =>
        .ok ((txn.take (32 * 2), splitSigsText (txn.drop (32 * 2))), device)) =
      (asScript (fetchRest sdk fuel (32 + u4LE txn 0 * 65) p1 fuel ret read >>= fun fetched =>
        pure ((fetched.1.take 32, splitSigs (fetched.1.drop 32)), fetched.2))).map _
    rw [fetchRestText_eq wide reads long]
    cases fetchRest sdk fuel (32 + u4LE txn 0 * 65) p1 fuel ret read with
    | error mishap => rfl
    | ok fetched =>
      show Except.ok (((hexText fetched.1).take (32 * 2),
        splitSigsText ((hexText fetched.1).drop (32 * 2))), fetched.2) = _
      rw [take_hexText, drop_hexText, splitSigsText_eq]
      rfl

end Loops

end LedgerNano
