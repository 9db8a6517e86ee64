/-
This file ties the scripts that ask for keys to the one that signs.

A user looks up addresses first, and spends from them later. The request of a script leaves its
path in the device, and the inputs of the transaction are signed below it, with the address index
of each in place of the last word. So the signature of an input is one the host recovers a public
key from that a script prints: the one it prints for the path with this index
(`printed_keys_are_recovered`).
-/

import LedgerNano.QueryScripts
import LedgerNano.KeyRecovery

namespace LedgerNano

/-- The path an input is signed with below the path of a request. -/
def HostInput.pathBelow (input : HostInput) (words : List Nat) : List Nat :=
  words.take 4 ++ [input.addressIndex]

section Signatures

variable {sdk : Sdk} {data other : Bytes} {input : HostInput} {innerHash : Bytes}
  {signature : Cells Byte 65}

/-- The signature of an input is made with the private key of the account of its path. -/
theorem signature_of_account (owner : Account sdk (pathWords other))
    (below : pathWords other = input.pathBelow (pathWords data))
    (signed : input.signature sdk (pathCells data) innerHash = .ok signature) :
    sign sdk owner.privateKey (input.message sdk innerHash).contents = .ok signature := by
  have path : (pathCells data).read 0 4 ++ [input.addressIndex] = pathWords other := below.symm
  have derived : derivePrivateKey sdk (pathWords other) = .ok owner.privateKey := by
    obtain ⟨privateKey, derives, generated⟩ := bind_ok owner.derives
    obtain ⟨publicKey, _, same⟩ := bind_ok generated
    cases same
    exact derives
  rw [HostInput.signature, path, derived] at signed
  exact signed

theorem generatePair_of_account (owner : Account sdk (pathWords other)) :
    sdk.generatePair owner.privateKey = .ok owner.publicKey := by
  obtain ⟨privateKey, _, generated⟩ := bind_ok owner.derives
  obtain ⟨publicKey, generates, same⟩ := bind_ok generated
  cases same
  exact generates

theorem forall₂_of_mapM {Item Result Error : Type} {attempt : Item → Except Error Result}
    {items : List Item} {results : List Result} (each : items.mapM attempt = .ok results) :
    List.Forall₂ (fun item result => attempt item = .ok result) items results := by
  induction items generalizing results with
  | nil =>
    cases each
    exact List.Forall₂.nil
  | cons item rest inductionHypothesis =>
    rw [List.mapM_cons] at each
    obtain ⟨result, first, later⟩ := bind_ok each
    obtain ⟨more, others, same⟩ := bind_ok later
    cases same
    exact List.Forall₂.cons first (inductionHypothesis others)

end Signatures

/-- Any scripts that ask for something of an accepted path, and then a transaction: every signature
in full recovers the public key that a script prints for the path with the index of the input, and
no other key. -/
theorem printed_keys_are_recovered {Scalar Group : Type*} [Field Scalar] [AddCommGroup Group]
    [Module Scalar Group] {keys : KeyGroup Group} {sdk : Sdk} (follows : sdk.Follows Scalar keys)
    (delivers : sdk.Delivers) {text data : Bytes} (reads : Reads text data)
    (length : data.length = 20) (valid : ValidPath (pathWords data))
    (account : Account sdk (pathWords data)) {maxint : Nat} (wide : 255 ≤ maxint) (device : Device)
    (ready : device.tx = 0) (closed : device.signTxnContext.initialized = false)
    (scripts : List QueryScript) (asked : ∃ script ∈ scripts, script ≠ .getVersion)
    (inputs : List HostInput) (outputs : List HostOutput) (someInputs : 1 ≤ inputs.length)
    (fewInputs : inputs.length ≤ 20) (someOutputs : 1 ≤ outputs.length)
    (fewOutputs : outputs.length ≤ 255) (fuel : Nat)
    (enough : (serializedTransaction inputs outputs).length + 300 ≤ fuel) :
    ∃ queried signatures after innerHash,
      callScripts sdk maxint fuel text scripts device =
          .ok (scripts.map account.answer, queried) ∧
        sendTxn sdk fuel (serializedTransaction inputs outputs) queried =
          .ok ((innerHash, signatures.map Cells.contents), after) ∧
        List.Forall₂ (fun (input : HostInput) signature => ∀ other,
          pathWords other = input.pathBelow (pathWords data) →
            ∀ owner : Account sdk (pathWords other),
              sdk.SignsInFull owner.privateKey (input.message sdk innerHash).contents →
                ∀ candidate, keys.Recovers Scalar (input.message sdk innerHash).contents signature
                    candidate ↔ candidate = owner.publicKey) inputs signatures := by
  obtain ⟨turns, rfl⟩ : ∃ fewer, fuel = fewer + 1 := ⟨fuel - 1, by omega⟩
  obtain ⟨queried, called, left⟩ :=
    callScripts_answers reads length valid account wide turns ready scripts
  have path : queried.getPublicKeyContext.bip44Path = pathCells data := by
    obtain ⟨script, member, more⟩ := asked
    rw [left.path, if_neg fun versions => more (versions script member)]
  have idle : queried.signTxnContext.initialized = false := by
    rw [left.session]
    exact closed
  obtain ⟨signatures, after, sent, signs, _⟩ := sendTxn_signs delivers someInputs fewInputs
    someOutputs fewOutputs idle enough
  rw [path] at signs
  refine ⟨queried, signatures, after, _, called, sent, ?_⟩
  refine (forall₂_of_mapM signs).imp fun input signature signed other below owner full candidate =>
    follows.recovers_iff (generatePair_of_account owner) ?_ full candidate
  exact signature_of_account owner below signed

/-- The address, the public key, and a transaction of two inputs. -/
theorem printed_keys_are_recovered_sample :
    ∃ (account : Account Sdk.three (pathWords bip44PathBytes)) (queried after : Device)
        (signatures : List (Cells Byte 65)) (innerHash : Bytes),
      callScripts Sdk.three 255 1000 bip44PathText [.getAddress, .getPublicKey] Device.boot =
          .ok ([generateAddress Sdk.three account.publicKey, account.publicKey.contents],
            queried) ∧
        sendTxn Sdk.three 1000 (serializedTransaction (List.replicate 2 sampleHostInput)
            [sampleHostOutput]) queried =
          .ok ((innerHash, signatures.map Cells.contents), after) ∧
        List.Forall₂ (fun (input : HostInput) signature => ∀ other,
          pathWords other = input.pathBelow (pathWords bip44PathBytes) →
            ∀ owner : Account Sdk.three (pathWords other), ∀ candidate,
              threeGroup.Recovers (ZMod 3) (input.message Sdk.three innerHash).contents signature
                candidate ↔ candidate = owner.publicKey)
          (List.replicate 2 sampleHostInput) signatures := by
  have generated := @three_generates (padded 32 ((pathWords bip44PathBytes).map UInt8.ofNat))
    (by decide +kernel)
  obtain ⟨signature, signs⟩ : ∃ signature, sign Sdk.three
      (padded 32 ((pathWords bip44PathBytes).map UInt8.ofNat)) (Sdk.three.sha256
        (threeForm (bytesValue (padded 32 ((pathWords bip44PathBytes).map UInt8.ofNat)).contents)
          ).contents).contents = .ok signature := ⟨_, rfl⟩
  have derives : deriveKeypair Sdk.three (pathWords bip44PathBytes) = .ok
      (padded 32 ((pathWords bip44PathBytes).map UInt8.ofNat),
        threeForm (bytesValue (padded 32 ((pathWords bip44PathBytes).map UInt8.ofNat)).contents)) :=
    congrArg (fun pair => pair >>= fun publicKey =>
      pure (padded 32 ((pathWords bip44PathBytes).map UInt8.ofNat), publicKey)) generated
  obtain ⟨queried, signatures, after, innerHash, called, sent, recovered⟩ :=
    printed_keys_are_recovered three_follows ⟨fun _ => ⟨_, rfl⟩, fun _ _ => ⟨_, rfl⟩⟩
      reads_bip44Path rfl validPath_bip44Path ⟨_, _, signature, derives, signs⟩ (le_refl 255)
      Device.boot rfl rfl [.getAddress, .getPublicKey] ⟨_, List.mem_cons_self, by decide⟩
      (List.replicate 2 sampleHostInput) [sampleHostOutput] (by decide) (by decide) (by decide)
      (by decide) 1000 (by decide +kernel)
  exact ⟨_, queried, after, signatures, innerHash, called, sent, recovered.imp
    fun input signature each other below owner candidate =>
      each other below owner (three_signsInFull _ _) candidate⟩

end LedgerNano
