/-
This file embeds the rest of `skycoin_crypto.c`: the validation of a BIP44 path, which
writes the stored path while it checks it, the derivation of keys, and the signature
that the SDK returns in TLV form and the application in `R | S | recovery id` form.
-/

import LedgerNano.Base58

namespace LedgerNano

/-! ### `get_bip44_path` -/

def insRetWrongData : Nat := 0x6A80

/-- The loop of `get_bip44_path`: each word is stored as soon as its own first bit has been
checked, so an exception leaves the words before it stored. -/
def storePathWords (data : Bytes) : List Nat → Cells Nat 5 → Option Nat × Cells Nat 5
  | [], path => (none, path)
  | i :: rest, path =>
    if i < 3 ∧ ¬ (byteAt data (4 * i) >>> 7) &&& 1 ≠ 0 then
      (some insRetWrongData, path)
    else
      storePathWords data rest (path.write i [u4BE data (4 * i)])

/-- A word of the stored path. -/
def pathWord (path : Cells Nat 5) (i : Nat) : Nat :=
  (path.read i 1).headD 0

/-- The checks `get_bip44_path` makes once all words are stored. -/
def pathChecks (path : Cells Nat 5) : Bool :=
  (pathWord path 0 &&& 0x7FFFFFFF) == 44 && !((pathWord path 2 &&& 0x7FFFFFFF) > 9) &&
    !((pathWord path 3 &&& 0xFFFFFFFE) > 0) && !(pathWord path 4 > 999)

/-- `get_bip44_path` on 20 bytes of data: the code it throws, if any, and the path it leaves
stored in `global.getPublicKeyContext`. -/
def getBip44Path (data : Bytes) (path : Cells Nat 5) : Option Nat × Cells Nat 5 :=
  let stored := storePathWords data (List.range bip44PathLen) path
  match stored.1 with
  | some code => (some code, stored.2)
  | none => if pathChecks stored.2 then (none, stored.2) else (some insRetWrongData, stored.2)

/-! ### Keys -/

/-- `derive_keypair` with a public key asked for. -/
def deriveKeypair (sdk : Sdk) (path : List Nat) : Except Nat (Cells Byte 32 × Cells Byte 65) := do
  let privateKey ← sdk.deriveNode path
  let publicKey ← sdk.generatePair privateKey
  pure (privateKey, publicKey)

/-- `derive_keypair` with only the private key asked for. -/
def derivePrivateKey (sdk : Sdk) (path : List Nat) : Except Nat (Cells Byte 32) :=
  sdk.deriveNode path

/-- `compress_public_key`. -/
def compressPublicKey (publicKey : Cells Byte 65) : Bytes :=
  (if byteAt publicKey.contents 64 &&& 1 ≠ 0 then 3 else 2) :: publicKey.read 1 32

/-- `generate_address`. -/
def generateAddress (sdk : Sdk) (publicKey : Cells Byte 65) : Bytes :=
  toAddress sdk (compressPublicKey publicKey)

/-! ### `sign` -/

/-- The byte of `tle_sign_tx` at an offset from its start: inside the signature the SDK wrote,
that signature's byte, elsewhere whatever the stack holds there. -/
def tlvByte (sdk : Sdk) (tlv : Bytes) (offset : Int) : Byte :=
  if 0 ≤ offset ∧ offset < tlv.length then tlv.getD offset.toNat 0 else sdk.stack offset

/-- Thirty-two bytes copied from an offset. -/
def tlvBytes (sdk : Sdk) (tlv : Bytes) (offset : Int) : Bytes :=
  (List.range 32).map fun (index : Nat) => tlvByte sdk tlv (offset + index)

/-- `convert_signature_from_TLV_to_RS`. -/
def convertSignatureFromTLVToRS (sdk : Sdk) (tlv : Bytes) : Bytes :=
  let rSize : Int := (tlvByte sdk tlv 3).toNat
  let sSize : Int := (tlvByte sdk tlv (3 + rSize + 2)).toNat
  let rOffset := rSize - 32
  let sOffset := sSize - 32
  tlvBytes sdk tlv (4 + rOffset) ++ tlvBytes sdk tlv (4 + 32 + 2 + rOffset + sOffset)

theorem length_convertSignatureFromTLVToRS (sdk : Sdk) (tlv : Bytes) :
    (convertSignatureFromTLVToRS sdk tlv).length = 64 := by
  simp [convertSignatureFromTLVToRS, tlvBytes]

/-- `CX_ECCINFO_PARITY_ODD` of the SDK. -/
def eccInfoParityOdd : Nat := 1

/-- `CX_ECCINFO_xGTn` of the SDK. -/
def eccInfoXGTn : Nat := 2

/-- The recovery id of the `info` flags. -/
def recoveryId (info : Nat) : Nat :=
  (if info &&& eccInfoParityOdd ≠ 0 then 1 else 0) + (if info &&& eccInfoXGTn ≠ 0 then 2 else 0)

/-- `sign`. A signature longer than the 70 bytes of `tle_sign_tx` is kept whole here: the
bytes past the array are those the conversion reads back from there. -/
def sign (sdk : Sdk) (privateKey : Cells Byte 32) (hash : Bytes) :
    Except Nat (Cells Byte 65) := do
  let signed ← sdk.ecdsaSign privateKey hash
  pure ⟨convertSignatureFromTLVToRS sdk signed.1 ++ [UInt8.ofNat (recoveryId signed.2)], by
    rw [List.length_append, length_convertSignatureFromTLVToRS]
    rfl⟩

end LedgerNano
