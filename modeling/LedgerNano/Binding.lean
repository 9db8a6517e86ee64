/-
This file is about what a signature binds: whether it can be used for anything but the input of the
transaction it was made for.

Whenever the device signs, the bytes read in the session are those of one transaction, and the hash
it signs is that of this transaction (`SignsTransaction`). A message signed in one session is signed
in another one only for the same unspent output and a transaction with the same unspent outputs and
the same outputs, unless SHA-256 collides on two strings the theorem names
(`signed_message_binds`).
-/

import LedgerNano.Answers

namespace LedgerNano

/-! ### Hashes that are equal -/

/-- Two strings have the same hash. -/
def Sdk.Collides (sdk : Sdk) (first second : Bytes) : Prop :=
  first ≠ second ∧ sdk.sha256 first = sdk.sha256 second

section Hashes

variable {sdk : Sdk} {first second : Bytes} {inputs inputs' : List HostInput}
  {outputs outputs' : List HostOutput}

theorem eq_or_collides (same : sdk.sha256 first = sdk.sha256 second) :
    first = second ∨ sdk.Collides first second := by
  by_cases equal : first = second
  · exact Or.inl equal
  · exact Or.inr ⟨equal, same⟩

/-- What the inner hash covers determines the unspent outputs and the outputs, not the address
indices. -/
theorem hashedTransaction_inj (few : inputs.length < 2 ^ 32) (few' : inputs'.length < 2 ^ 32)
    (fewOutputs : outputs.length < 2 ^ 32) (fewOutputs' : outputs'.length < 2 ^ 32)
    (same : hashedTransaction inputs outputs = hashedTransaction inputs' outputs') :
    inputs.map HostInput.uxId = inputs'.map HostInput.uxId ∧ outputs = outputs' := by
  have ids : ∀ inputs : List HostInput, (inputs.map fun input => input.uxId.contents) =
      (inputs.map HostInput.uxId).map Cells.contents := fun inputs => (List.map_map).symm
  simp only [hashedTransaction, ids, List.append_assoc] at same
  obtain ⟨inNum, rest⟩ := List.append_inj same rfl
  have count : (inputs.map HostInput.uxId).length = (inputs'.map HostInput.uxId).length := by
    rw [List.length_map, List.length_map]
    exact eq_of_le32_eq few few' inNum
  obtain ⟨ins, rest⟩ := List.append_inj rest (by
    rw [length_flatten_contents, length_flatten_contents, count])
  obtain ⟨outNum, outs⟩ := List.append_inj rest rfl
  exact ⟨eq_of_flatten_eq contents_injective Cells.length_contents count ins,
    eq_of_flatten_eq HostOutput.serialized_injective HostOutput.length_serialized
      (eq_of_le32_eq fewOutputs fewOutputs' outNum) outs⟩

end Hashes

/-! ### The transaction that is signed -/

/-- What is signed with an output is the hash of the transaction read in the session. -/
def SignsTransaction (sdk : Sdk) : Event → List Event → Prop
  | .computeSigs innerHash, past => (progressOf past).outputs ≠ [] →
      ∃ inputs outputs, ReadIn past inputs outputs ∧
        innerHash = (sdk.sha256 (hashedTransaction inputs outputs)).contents
  | _, _ => True

/-- The elements are framed, and a session that signs has read at most 255 outputs. -/
def FewOutputs (ctx : SignTxnContext) (log : List Event) : Prop :=
  Framed log ∧ (ctx.txnState = .computeSigs ∨ ctx.txnState = .retSigs →
    (progressOf log).outputs.length ≤ 255)

section Sessions

variable {sdk : Sdk} {device called after : Device} {code : Nat} {past log : List Event}

theorem FewOutputs.congr {ctx : SignTxnContext} (few : FewOutputs ctx past)
    (same : SameSession past log) : FewOutputs ctx log := by
  refine ⟨few.1.congr same.progress same.elements, fun signing => ?_⟩
  rw [same.progress]
  exact few.2 signing

/-- The output counter has eight bits. -/
theorem ReadyFor.fewOutputs {ctx : SignTxnContext} {progress : Progress}
    (ready : ReadyFor sdk progress ctx) : progress.outputs.length ≤ 255 := by
  have whole := ready.signsFor.whole
  have finished := ready.1
  rw [whole] at finished
  have last : progress.outputs.length % 2 ^ 8 = progress.outputs.length := finished
  omega

theorem Resumed.fewOutputs (few : FewOutputs device.signTxnContext device.log)
    (resumes : Resumed sdk (progressOf device.log) device code called) :
    FewOutputs called.signTxnContext called.log := by
  refine ⟨resumes.framed few.1, fun signing => ?_⟩
  cases resumes with
  | read call ctx tracks calls reached thrown result =>
    subst result
    have progress : progressOf (device.readBy call.records ctx).log = call.progress := by
      rw [Progress.call_progress calls]
      exact progressOf_elements call.records device.log
    rw [progress]
    have left := reached.reached
    by_cases ready : call.code = txnReady
    · rw [if_pos ready] at left
      exact left.fewOutputs
    · rw [if_neg ready] at left
      have state : ctx.txnState = .computeSigs ∨ ctx.txnState = .retSigs := signing
      rw [left.state] at state
      rcases state with same | same
      · exact absurd same call.progress.state_reading.1
      · exact absurd same call.progress.state_reading.2
  | computed signs state computes =>
    have before := few.2 (Or.inl state)
    cases computes with
    | raised path table counter derived signed result =>
      subst result
      rw [show progressOf (device.startSigning.signedBy path table counter derived).log =
        progressOf device.log from progressOf_derive derived _]
      exact before
    | finished signatures derived signed each derivations result returned =>
      rw [afterBatch_log returned]
      subst result
      rw [show progressOf ((device.signed _ derived).returned _).log = progressOf device.log from
        progressOf_derive derived _]
      exact before
  | returned signs state returns =>
    rw [afterBatch_log returns]
    exact few.2 (Or.inr state)

theorem keeps_fewOutputs (sdk : Sdk) : Keeps sdk FewOutputs FewOutputs where
  passive _ _ past passive few := few.congr (sameSession_passive passive past)
  load _ _ _ _ few := few
  command _ _ _ few := few
  press _ _ _ few := few.congr ⟨rfl, rfl, fun _ => List.mem_cons_of_mem _⟩
  start ctx texts log state := by
    refine ⟨(keeps_framed sdk).start ctx texts log state, fun signing => ?_⟩
    rw [state] at signing
    rcases signing with other | other
    · cases other
    · cases other
  call _ _ _ few resumes := resumes.fewOutputs few

/-- A session that signs with an output signs the hash of what it read. -/
theorem SignsFor.transaction {ctx : SignTxnContext} (signs : SignsFor sdk (progressOf past) ctx)
    (framed : Framed past) (few : (progressOf past).outputs.length ≤ 255)
    (declared : (progressOf past).outputs ≠ []) :
    ∃ inputs outputs, ReadIn past inputs outputs ∧
      ctx.txn.innerHash.contents = (sdk.sha256 (hashedTransaction inputs outputs)).contents := by
  obtain ⟨inputs, outputs, same⟩ := signs.whole.exists_transaction framed.sized
  have bytes := framed.bytes
  have count := signs.declared
  have positive := signs.positive
  have inside : ctx.txn.inNum ≤ 20 := signs.inside
  have hash := signs.hash
  rw [same] at bytes count few declared hash
  have inNum : ctx.txn.inNum = inputs.length := count.trans (List.length_map _)
  have outNum : (outputs.map HostOutput.serialized).length = outputs.length := List.length_map _
  refine ⟨inputs, outputs, ⟨bytes, same, by omega, by omega, ?_⟩, ?_⟩
  · rw [← outNum]
    exact few
  · rw [hash declared, hashed_readTransaction]

theorem signsTransaction_of_other (event : Event) (past : List Event) (other : event.Unsigned) :
    SignsTransaction sdk event past := by
  cases event with
  | computeSigs => exact absurd trivial other
  | _ => trivial

theorem run_signsTransaction {inputs : List Input}
    (ran : run sdk Device.boot inputs = .ok after) :
    Logs.Always (SignsTransaction sdk) after.log := by
  have invariant := Runs.run_invariant (motive := fun device => SessionInvariant sdk device ∧
      (device.signTxnContext.initialized = true →
        FewOutputs device.signTxnContext device.log) ∧
          Logs.Always (SignsTransaction sdk) device.log)
    (fun _ _ _ before _ stepped =>
      have went := step_stepped before.1 stepped
      ⟨step_session before.1 stepped, (keeps_fewOutputs sdk).step before.2.1 went,
        went.always_signing signsTransaction_of_other before.2.2 fun _ resumed state signs =>
          have few := (keeps_fewOutputs sdk).calls before.2.1 resumed
          signs.transaction few.1 (few.2 (Or.inl state))⟩)
    ⟨session_boot sdk, fun session => absurd session Bool.false_ne_true, trivial⟩
    (Runs.along_true _ _) ran
  exact invariant.2.2

/-- A hash that is signed in a session with an output. -/
theorem signing_transaction {inputs : List Input} (ran : run sdk Device.boot inputs = .ok device)
    {innerHash : Bytes} (signed : (innerHash, past) ∈ signings device.log)
    (declared : (progressOf past).outputs ≠ []) :
    ∃ inputs outputs, ReadIn past inputs outputs ∧
      innerHash = (sdk.sha256 (hashedTransaction inputs outputs)).contents := by
  obtain ⟨later, split⟩ := signings_split signed
  have always := run_signsTransaction ran
  rw [split] at always
  exact Logs.always_split always declared

end Sessions

/-! ### What a message binds -/

/-- The message that is signed for an input. -/
def HostInput.message (sdk : Sdk) (innerHash : Bytes) (input : HostInput) : Cells Byte 32 :=
  sdk.sha256 (innerHash ++ input.uxId.contents)

/-- Take any two sessions that are signed, in one run or in two, each with an output. If the
message signed for an input in one is that of an input in the other, the two inputs spend the same
output, and the two transactions have the same unspent outputs and the same outputs; or SHA-256
collides on the strings the messages are made of, or on what the inner hashes cover. -/
theorem signed_message_binds {sdk : Sdk} {inputs inputs' : List Input} {device device' : Device}
    (ran : run sdk Device.boot inputs = .ok device)
    (ran' : run sdk Device.boot inputs' = .ok device') {innerHash innerHash' : Bytes}
    {past past' : List Event} (signed : (innerHash, past) ∈ signings device.log)
    (signed' : (innerHash', past') ∈ signings device'.log)
    (declared : (progressOf past).outputs ≠ []) (declared' : (progressOf past').outputs ≠ []) :
    ∃ ins outs ins' outs', ReadIn past ins outs ∧ ReadIn past' ins' outs' ∧
      ∀ input ∈ ins, ∀ input' ∈ ins',
        input.message sdk innerHash = input'.message sdk innerHash' →
          (input.uxId = input'.uxId ∧ ins.map HostInput.uxId = ins'.map HostInput.uxId ∧
              outs = outs') ∨
            sdk.Collides (innerHash ++ input.uxId.contents)
              (innerHash' ++ input'.uxId.contents) ∨
            sdk.Collides (hashedTransaction ins outs) (hashedTransaction ins' outs') := by
  obtain ⟨ins, outs, read, hash⟩ := signing_transaction ran signed declared
  obtain ⟨ins', outs', read', hash'⟩ := signing_transaction ran' signed' declared'
  refine ⟨ins, outs, ins', outs', read, read', fun input _ input' _ same => ?_⟩
  rcases eq_or_collides same with strings | collides
  · have length : innerHash.length = innerHash'.length := by
      rw [hash, hash', Cells.length_contents, Cells.length_contents]
    obtain ⟨hashes, ids⟩ := List.append_inj strings length
    have equal : sdk.sha256 (hashedTransaction ins outs) =
        sdk.sha256 (hashedTransaction ins' outs') := by
      apply Cells.ext
      rw [← hash, ← hash', hashes]
    rcases eq_or_collides equal with covered | collides
    · have few := read.fewInputs
      have few' := read'.fewInputs
      have fewOutputs := read.fewOutputs
      have fewOutputs' := read'.fewOutputs
      obtain ⟨spent, outsSame⟩ := hashedTransaction_inj (by omega) (by omega) (by omega) (by omega)
        covered
      exact Or.inl ⟨Cells.ext ids, spent, outsSame⟩
    · exact Or.inr (Or.inr collides)
  · exact Or.inr (Or.inl collides)

/-- An output to another address. -/
def rivalOutput : Bytes :=
  [0] ++ List.replicate 20 8 ++ le32 2000000 ++ le32 0 ++ List.replicate 8 0

theorem rival_fits : (le32 1 ++ sampleInput ++ le32 1 ++ rivalOutput).length ≤ 255 := by
  decide

/-- A session that spends what `sampleSession` spends, in another way. -/
def rivalSession : List Input :=
  [.apdu (signApdu 0 (le32 1 ++ sampleInput ++ le32 1 ++ rivalOutput) rival_fits),
    .button .right, .button .right, .apdu (signApdu 1 [] empty_fits)]

/-- Both sessions in one run. -/
theorem signed_message_binds_sample : ∃ device innerHash innerHash' past past',
    run Sdk.plain Device.boot (sampleSession ++ rivalSession) = .ok device ∧
      (innerHash, past) ∈ signings device.log ∧ (innerHash', past') ∈ signings device.log ∧
        ((progressOf past).outputs = [sampleOutput] ∧
          (progressOf past').outputs = [rivalOutput]) ∧
        ∃ ins outs ins' outs', ReadIn past ins outs ∧ ReadIn past' ins' outs' ∧
          ∀ input ∈ ins, ∀ input' ∈ ins',
            input.message Sdk.plain innerHash = input'.message Sdk.plain innerHash' →
              (input.uxId = input'.uxId ∧ ins.map HostInput.uxId = ins'.map HostInput.uxId ∧
                  outs = outs') ∨
                Sdk.plain.Collides (innerHash ++ input.uxId.contents)
                  (innerHash' ++ input'.uxId.contents) ∨
                Sdk.plain.Collides (hashedTransaction ins outs)
                  (hashedTransaction ins' outs') := by
  have ends : Runs.Ends (fun device : Device =>
      (∃ signing ∈ signings device.log, (progressOf signing.2).outputs = [sampleOutput]) ∧
        ∃ signing ∈ signings device.log, (progressOf signing.2).outputs = [rivalOutput])
      (run Sdk.plain Device.boot (sampleSession ++ rivalSession)) := by decide +kernel
  obtain ⟨device, ran, ⟨signing, member, outputs⟩, ⟨rival, among, others⟩⟩ :=
    Runs.exists_of_ends ends
  have declared : (progressOf signing.2).outputs ≠ [] := by
    rw [outputs]
    exact List.cons_ne_nil _ _
  have declared' : (progressOf rival.2).outputs ≠ [] := by
    rw [others]
    exact List.cons_ne_nil _ _
  exact ⟨device, signing.1, rival.1, signing.2, rival.2, ran, member, among, ⟨outputs, others⟩,
    signed_message_binds ran ran member among declared declared'⟩

end LedgerNano
