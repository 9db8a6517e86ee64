/-
This file is about what the host gets to see: the replies to its commands for the signing handler.

An open session that signs holds the inputs of the transaction it has read, or their signatures
(`Held`), and while a command waits for its reply the device is not signing and no payload is left
in the transport buffer (`Idle`). So with an SDK that does not fail each reply is the error status,
the bare success, the inner hash of the transaction read in that session, or some of the signatures
of its inputs (`answers_are_of_transaction`). A transaction without outputs has no inner hash of
its own: the device returns and signs the one it has in memory (`OwnHash`).
-/

import LedgerNano.Consent
import LedgerNano.Serialization
import LedgerNano.SignedHash

namespace LedgerNano

/-! ### What a reply may be -/

/-- The newest command of a log. -/
def newestCommand : List Event → Option Bytes :=
  Logs.read none fun
    | .command bytes => some fun _ _ => some bytes
    | _ => none

/-- The command is one for `handleSignTxn`, and long enough to say so. -/
def AsksSigning (command : Bytes) : Prop :=
  2 ≤ command.length ∧ byteAt command 0 = 0x80 ∧ byteAt command 1 = 0x10

instance : DecidablePred AsksSigning := fun _ => inferInstanceAs (Decidable (_ ∧ _))

/-- The elements of the session a log ends with are those of a transaction. -/
structure ReadIn (past : List Event) (inputs : List HostInput) (outputs : List HostOutput) :
    Prop where
  elements : (elementsOf past).flatten = serializedTransaction inputs outputs
  progress : progressOf past = readTransaction inputs outputs
  someInputs : 1 ≤ inputs.length
  fewInputs : inputs.length ≤ 20
  fewOutputs : outputs.length ≤ 255

/-- The inner hash of a transaction with outputs is the hash of its bytes. -/
def HashesOutputs (sdk : Sdk) (inputs : List HostInput) (outputs : List HostOutput)
    (innerHash : Cells Byte 32) : Prop :=
  outputs ≠ [] → innerHash = sdk.sha256 (hashedTransaction inputs outputs)

/-- The inner hash for a transaction: its own, and without outputs the one left in memory by the
newest transaction with outputs that was read to its end, or zeros. -/
structure OwnHash (sdk : Sdk) (past : List Event) (inputs : List HostInput)
    (outputs : List HostOutput) (innerHash : Cells Byte 32) : Prop where
  withOutputs : HashesOutputs sdk inputs outputs innerHash
  without : outputs = [] → innerHash = lastHash sdk past

/-- The signatures are those of the inputs of the transaction read in the session: of an inner hash
and their ids, by the keys the SDK was asked for. -/
structure SignsRead (sdk : Sdk) (past : List Event) (inputs : List HostInput)
    (outputs : List HostOutput) (innerHash : Cells Byte 32) (path : Cells Nat 5)
    (signatures : List SigInput) : Prop where
  read : ReadIn past inputs outputs
  signs : inputs.mapM (HostInput.signature sdk path innerHash.contents) = .ok signatures
  derived : ∀ input ∈ inputs, Event.derive (path.read 0 4 ++ [input.addressIndex]) ∈ past

/-- What a reply to a command for the signing handler may be. -/
inductive Answer (sdk : Sdk) (past : List Event) (reply : Bytes) : Prop
  | refused (status : reply = statusBytes 0x6B0)
  | taken (status : reply = statusBytes insRetSuccess)
  | innerHash (inputs : List HostInput) (outputs : List HostOutput) (innerHash : Cells Byte 32)
      (read : ReadIn past inputs outputs) (own : OwnHash sdk past inputs outputs innerHash)
      (payload : reply = innerHash.contents ++ statusBytes insRetSuccess)
  | signatures (inputs : List HostInput) (outputs : List HostOutput) (innerHash : Cells Byte 32)
      (path : Cells Nat 5) (signatures : List SigInput) (start count : Nat)
      (signs : SignsRead sdk past inputs outputs innerHash path signatures)
      (own : OwnHash sdk past inputs outputs innerHash)
      (payload : reply = signatureBytes signatures start count ++ statusBytes insRetSuccess)

/-- A reply that answers a command for the signing handler is one of these. -/
def AnswersOwn (sdk : Sdk) : Event → List Event → Prop
  | .reply bytes, past => waiting past = true →
      (∃ command ∈ newestCommand past, AsksSigning command) → Answer sdk past bytes
  | _, _ => True

/-! ### What an open session holds -/

/-- The inputs of the transaction are in the table, or their signatures, or the session reads. -/
inductive Held (sdk : Sdk) (ctx : SignTxnContext) (log : List Event) : Prop
  | reading (state : ctx.txnState ≠ .computeSigs ∧ ctx.txnState ≠ .retSigs)
  | inputs (state : ctx.txnState = .computeSigs) (inputs : List HostInput)
      (outputs : List HostOutput) (read : ReadIn log inputs outputs)
      (hash : HashesOutputs sdk inputs outputs ctx.txn.innerHash)
      (declared : ctx.txn.inNum = inputs.length)
      (table : (ctx.txn.sigInput.read 0 ctx.txn.inNum).map SigInput.input =
        inputs.map HostInput.serialized)
  | signatures (state : ctx.txnState = .retSigs) (inputs : List HostInput)
      (outputs : List HostOutput) (path : Cells Nat 5) (signatures : List SigInput)
      (signs : SignsRead sdk log inputs outputs ctx.txn.innerHash path signatures)
      (hash : HashesOutputs sdk inputs outputs ctx.txn.innerHash)
      (declared : ctx.txn.inNum = signatures.length)
      (table : ctx.txn.sigInput.read 0 signatures.length = signatures)

section Holding

variable {sdk : Sdk} {ctx : SignTxnContext} {past log : List Event} {inputs : List HostInput}
  {outputs : List HostOutput} {innerHash : Cells Byte 32} {path : Cells Nat 5}
  {signatures : List SigInput} {device called : Device} {code : Nat}

/-- The two logs end with the same session, as far as its elements and keys tell. -/
structure SameSession (past log : List Event) : Prop where
  elements : elementsOf log = elementsOf past
  progress : progressOf log = progressOf past
  longer : ∀ event ∈ past, event ∈ log

theorem ReadIn.congr (read : ReadIn past inputs outputs) (same : SameSession past log) :
    ReadIn log inputs outputs := by
  obtain ⟨elements, progress, some, few, fewOutputs⟩ := read
  exact ⟨by rw [same.elements, elements], by rw [same.progress, progress], some, few, fewOutputs⟩

theorem SignsRead.congr (signs : SignsRead sdk past inputs outputs innerHash path signatures)
    (same : SameSession past log) :
    SignsRead sdk log inputs outputs innerHash path signatures :=
  ⟨signs.read.congr same, signs.signs,
    fun input member => same.longer _ (signs.derived input member)⟩

theorem Held.congr (held : Held sdk ctx past) (same : SameSession past log) : Held sdk ctx log := by
  cases held with
  | reading state => exact Held.reading state
  | inputs state inputs outputs read hash declared table =>
    exact Held.inputs state inputs outputs (read.congr same) hash declared table
  | signatures state inputs outputs path signatures signs hash declared table =>
    exact Held.signatures state inputs outputs path signatures (signs.congr same) hash declared
      table

theorem sameSession_derive (derived : List (List Nat)) (innerHash : Bytes) (past : List Event) :
    SameSession past (derived.map Event.derive ++ .computeSigs innerHash :: past) :=
  ⟨elementsOf_derive derived _, progressOf_derive derived _, fun _ member =>
    List.mem_append_right _ (List.mem_cons_of_mem _ member)⟩

/-- The path derived for a slot that holds an input. -/
theorem slotPath_eq (device : Device) {slot : SigInput} {input : HostInput}
    (holds : slot.input = input.serialized) : device.slotPath slot =
      device.getPublicKeyContext.bip44Path.read 0 4 ++ [input.addressIndex] := by
  have index : u4LE slot.input 32 = input.addressIndex := by
    have place := u4LE_middle input.uxId.contents (length_le32 input.addressIndex) []
    rw [input.uxId.length_contents] at place
    rw [holds, HostInput.serialized, ← List.append_nil (_ ++ le32 _), place,
      ← List.append_nil (le32 _), u4LE_le32 _ input.small]
  rw [Device.slotPath, inputPath, index, Cells.contents_write _ _ _ (le_refl 5),
    List.drop_eq_nil_of_le (le_of_eq (Cells.length_contents _)), List.append_nil]
  rfl

theorem slotPaths_eq (device : Device) (slots : List SigInput) (inputs : List HostInput)
    (holds : slots.map SigInput.input = inputs.map HostInput.serialized) :
    slots.map device.slotPath = inputs.map fun input =>
      device.getPublicKeyContext.bip44Path.read 0 4 ++ [input.addressIndex] := by
  induction slots generalizing inputs with
  | nil =>
    rw [List.map_nil, eq_comm, List.map_eq_nil_iff] at holds
    rw [holds]
    rfl
  | cons slot slots inductionHypothesis =>
    cases inputs with
    | nil => cases holds
    | cons input inputs =>
      obtain ⟨first, later⟩ := List.cons.inj holds
      rw [List.map_cons, List.map_cons, slotPath_eq device first, inductionHypothesis _ later]

/-- A session that has found all outputs read holds the inputs of a transaction. -/
theorem ReadyFor.held {progress : Progress} (ready : ReadyFor sdk progress ctx)
    (framed : Framed log) (same : progressOf log = progress) : Held sdk ctx log := by
  have signs := ready.signsFor
  obtain ⟨sized, bytes⟩ := framed
  rw [same] at sized bytes
  obtain ⟨inputs, outputs, rfl⟩ := signs.whole.exists_transaction sized
  have declared : ctx.txn.inNum = inputs.length := signs.declared.trans (List.length_map _)
  have positive := signs.positive
  have inside : ctx.txn.inNum ≤ 20 := signs.inside
  have finished : (outputs.map HostOutput.serialized).length % 2 ^ 8 = outputs.length := ready.1
  rw [List.length_map] at finished
  have state : ctx.txnState = .computeSigs := by
    obtain ⟨_, before, _, rfl⟩ := ready
    rfl
  have hash : HashesOutputs sdk inputs outputs ctx.txn.innerHash := by
    intro some
    rw [← hashed_readTransaction]
    exact signs.hash fun none => some (List.map_eq_nil_iff.mp none)
  exact Held.inputs state inputs outputs ⟨bytes, same, by omega, by omega, by omega⟩ hash declared
    (ready.table (by rw [← declared]; exact inside))

/-- A call of the parser in a session that signs: the signatures are those of the transaction. -/
theorem Resumed.signs (delivers : sdk.Delivers) (held : Held sdk device.signTxnContext device.log)
    (signing : device.signTxnContext.txnState = .computeSigs ∨
      device.signTxnContext.txnState = .retSigs)
    (resumes : Resumed sdk (progressOf device.log) device code called) :
    ∃ inputs outputs path signatures, Signing sdk signatures device ∧
      SignsRead sdk called.log inputs outputs called.signTxnContext.txn.innerHash path signatures ∧
      HashesOutputs sdk inputs outputs called.signTxnContext.txn.innerHash ∧
      called.signTxnContext.txnState = .retSigs ∧
      called.signTxnContext.txn.sigInput.read 0 signatures.length = signatures ∧
      called.signTxnContext.txn.inNum = signatures.length := by
  cases resumes with
  | read call ctx tracks calls reached thrown result =>
    rw [tracks.state] at signing
    rcases signing with same | same
    · exact absurd same (progressOf device.log).state_reading.1
    · exact absurd same (progressOf device.log).state_reading.2
  | computed signs state computes =>
    cases held with
    | reading other => exact absurd state other.1
    | signatures other => exact absurd (state.symm.trans other) TxnState.noConfusion
    | inputs _ inputs outputs read hash declared table =>
      cases computes with
      | raised path slots counter derived signed result =>
        exact absurd (signed.raised code rfl) (delivers.mapM_ne_error device _ code)
      | finished signatures derived signed each derivations result returned =>
        have count : signatures.length = inputs.length := by
          rw [length_mapM each, ← List.length_map SigInput.input, table, List.length_map]
        have all := declared.trans count.symm
        have fits : 0 + signatures.length ≤ maxInputs := by
          rw [Nat.zero_add, ← all]
          exact signs.inside
        have log : called.log = derived.map Event.derive ++
            .computeSigs device.signTxnContext.txn.innerHash.contents :: device.log := by
          rw [afterBatch_log returned, result]
          rfl
        have paths := derivations
        rw [slotPaths_eq device _ inputs table] at paths
        have attempts := each
        rw [signing_eq _ inputs table] at attempts
        have signsRead : SignsRead sdk called.log inputs outputs
            device.signTxnContext.txn.innerHash device.getPublicKeyContext.bip44Path
            signatures := by
          rw [log]
          refine ⟨read.congr (sameSession_derive derived _ _), attempts,
            fun input member => List.mem_append_left _ (List.mem_map_of_mem ?_)⟩
          rw [← List.mem_reverse, paths]
          exact List.mem_map_of_mem member
        have stored : (device.signTxnContext.txn.sigInput.write 0 signatures).read 0
            signatures.length = signatures := Cells.read_write_self _ 0 signatures fits
        refine ⟨inputs, outputs, device.getPublicKeyContext.bip44Path, signatures,
          ⟨all, Or.inl ⟨state, each⟩⟩, ?_⟩
        subst result
        rcases Device.afterBatch_cases returned with ⟨_, _, rfl⟩ | ⟨_, _, rfl⟩
        · exact ⟨signsRead, hash, rfl, stored, all⟩
        · exact ⟨signsRead, hash, rfl, stored, all⟩
  | returned signs state returns =>
    cases held with
    | reading other => exact absurd state other.2
    | inputs other => exact absurd (state.symm.trans other) TxnState.noConfusion
    | signatures _ inputs outputs path signatures signsRead hash declared table =>
      refine ⟨inputs, outputs, path, signatures, ⟨declared, Or.inr ⟨state, table⟩⟩, ?_⟩
      rw [afterBatch_log returns]
      rcases Device.afterBatch_cases returns with ⟨_, _, rfl⟩ | ⟨_, _, rfl⟩
      · exact ⟨signsRead, hash, state, table, declared⟩
      · exact ⟨signsRead, hash, state, table, declared⟩

/-- A call of the parser leaves what a session must hold. -/
theorem Resumed.held (delivers : sdk.Delivers) (framed : Framed device.log)
    (held : Held sdk device.signTxnContext device.log)
    (resumes : Resumed sdk (progressOf device.log) device code called) :
    Held sdk called.signTxnContext called.log := by
  by_cases signing : device.signTxnContext.txnState = .computeSigs ∨
      device.signTxnContext.txnState = .retSigs
  · obtain ⟨inputs, outputs, path, signatures, _, signs, hash, state, table, declared⟩ :=
      resumes.signs delivers held signing
    exact Held.signatures state inputs outputs path signatures signs hash declared table
  have later := resumes.framed framed
  cases resumes with
  | read call ctx tracks calls reached thrown result =>
    subst result
    have progress : progressOf (device.readBy call.records ctx).log = call.progress := by
      rw [Progress.call_progress calls]
      exact progressOf_elements call.records device.log
    have left := reached.reached
    by_cases ready : call.code = txnReady
    · rw [if_pos ready] at left
      exact left.held later progress
    · rw [if_neg ready] at left
      refine Held.reading ?_
      show ctx.txnState ≠ .computeSigs ∧ ctx.txnState ≠ .retSigs
      rw [left.state]
      exact call.progress.state_reading
  | computed signs state => exact absurd (Or.inl state) signing
  | returned signs state => exact absurd (Or.inr state) signing

theorem sameSession_passive {event : Event} (passive : event.Passive) (past : List Event) :
    SameSession past (event :: past) :=
  ⟨passive.elementsOf past, passive.progressOf past, fun _ => List.mem_cons_of_mem _⟩

theorem keeps_held (delivers : sdk.Delivers) :
    Keeps sdk (fun ctx log => Framed log ∧ Held sdk ctx log)
      (fun ctx log => Framed log ∧ Held sdk ctx log) where
  passive ctx event past passive holds :=
    ⟨(keeps_framed sdk).passive ctx event past passive holds.1,
      holds.2.congr (sameSession_passive passive past)⟩
  load ctx _ _ _ holds := by
    refine ⟨holds.1, ?_⟩
    cases holds.2 with
    | reading state => exact Held.reading state
    | inputs state inputs outputs read hash declared table =>
      exact Held.inputs state inputs outputs read hash declared table
    | signatures state inputs outputs path signatures signs hash declared table =>
      exact Held.signatures state inputs outputs path signatures signs hash declared table
  command _ _ _ holds := holds
  press ctx texts log holds :=
    ⟨(keeps_framed sdk).press ctx texts log holds.1,
      holds.2.congr ⟨rfl, rfl, fun _ => List.mem_cons_of_mem _⟩⟩
  start ctx texts log state := by
    refine ⟨(keeps_framed sdk).start ctx texts log state, Held.reading ?_⟩
    rw [state]
    exact ⟨TxnState.noConfusion, TxnState.noConfusion⟩
  call _ _ _ holds resumes := ⟨resumes.framed holds.1, resumes.held delivers holds.1 holds.2⟩

end Holding

/-! ### While a command waits -/

/-- While a command waits for its reply, no payload is in the transport buffer and no session
signs. -/
def Idle (device : Device) : Prop :=
  waiting device.log = true → device.tx = 0 ∧
    (device.signTxnContext.initialized = true →
      device.signTxnContext.txnState ≠ .computeSigs ∧ device.signTxnContext.txnState ≠ .retSigs)

section Waiting

variable {sdk : Sdk} {device called after : Device} {code : Nat} {bytes : Bytes}
  {past log : List Event}

/-- A call of the parser outside the signing states reads. Without an inner hash to return it goes
on reading. -/
theorem Resumed.reads
    (reading : device.signTxnContext.txnState ≠ .computeSigs ∧
      device.signTxnContext.txnState ≠ .retSigs)
    (resumes : Resumed sdk (progressOf device.log) device code called) :
    called.tx = device.tx ∧ (code ≠ txnReady →
      called.signTxnContext.txnState ≠ .computeSigs ∧
        called.signTxnContext.txnState ≠ .retSigs) := by
  cases resumes with
  | read call ctx tracks calls reached thrown result =>
    subst result
    refine ⟨rfl, fun other => ?_⟩
    have left := reached.reached
    rw [if_neg fun ready => other (thrown.trans ready)] at left
    show ctx.txnState ≠ .computeSigs ∧ ctx.txnState ≠ .retSigs
    rw [left.state]
    exact call.progress.state_reading
  | computed signs state => exact absurd state reading.1
  | returned signs state => exact absurd state reading.2

/-- A session that a press opens or goes on with. -/
theorem pressed_reading (reading : device.signTxnContext.initialized = true →
      device.signTxnContext.txnState ≠ .computeSigs ∧ device.signTxnContext.txnState ≠ .retSigs) :
    device.pressed.signTxnContext.txnState ≠ .computeSigs ∧
      device.pressed.signTxnContext.txnState ≠ .retSigs := by
  by_cases session : device.signTxnContext.initialized = true
  · rw [pressed_going session]
    exact reading session
  · unfold Device.pressed startSession
    rw [record_signTxnContext, if_neg session]
    exact ⟨TxnState.noConfusion, TxnState.noConfusion⟩

/-- Where a call of the parser is not followed by a reply it stays in the state it is in. -/
theorem idle_of_unanswered (zero : called.tx = 0)
    (reading : code ≠ txnReady → called.signTxnContext.txnState ≠ .computeSigs ∧
      called.signTxnContext.txnState ≠ .retSigs) (other : code ≠ txnReady)
    (tx : after.tx = called.tx) (ctx : after.signTxnContext = called.signTxnContext) :
    Idle after := by
  intro _
  rw [tx, ctx]
  exact ⟨zero, fun _ => reading other⟩

/-- With an SDK that does not fail a session that signs ends each call with these codes. -/
theorem Resumed.signing_code (delivers : sdk.Delivers)
    (signing : device.signTxnContext.txnState = .computeSigs ∨
      device.signTxnContext.txnState = .retSigs)
    (resumes : Resumed sdk (progressOf device.log) device code called) :
    code = txnFinished ∨ code = txnPartial := by
  cases resumes with
  | read call ctx tracks calls reached thrown result =>
    rw [tracks.state] at signing
    rcases signing with same | same
    · exact absurd same (progressOf device.log).state_reading.1
    · exact absurd same (progressOf device.log).state_reading.2
  | computed signs state computes =>
    cases computes with
    | raised path slots counter derived signed result =>
      exact absurd (signed.raised code rfl) (delivers.mapM_ne_error device _ code)
    | finished signatures derived signed each derivations result returned =>
      rcases Device.afterBatch_cases returned with ⟨_, thrown, _⟩ | ⟨_, thrown, _⟩
      · exact Or.inl thrown
      · exact Or.inr thrown
  | returned signs state returns =>
    rcases Device.afterBatch_cases returns with ⟨_, thrown, _⟩ | ⟨_, thrown, _⟩
    · exact Or.inl thrown
    · exact Or.inr thrown

theorem idle_of_reply (log : after.log = .reply bytes :: past) : Idle after := by
  intro waits
  rw [log] at waits
  cases waits

/-- Every step keeps the device idle while a command waits. -/
theorem step_idle (delivers : sdk.Delivers) {input : Input} (idle : Idle device)
    (went : Stepped sdk device input after) : Idle after := by
  cases went with
  | answered apdu command other context derived ready use payload fits result =>
    subst result
    exact idle_of_reply rfl
  | opened apdu command asked closed first result =>
    subst result
    exact fun _ => ⟨rfl, fun session => absurd (closed.symm.trans session) Bool.false_ne_true⟩
  | refused apdu command asked wrong result =>
    subst result
    exact idle_of_reply rfl
  | waits apdu command asked session later state result =>
    subst result
    refine fun _ => ⟨rfl, fun _ => ?_⟩
    show device.signTxnContext.txnState ≠ .computeSigs ∧ device.signTxnContext.txnState ≠ .retSigs
    refine ⟨fun same => ?_, fun same => ?_⟩
    · rw [same] at state
      cases state
    · rw [same] at state
      cases state
  | resumed apdu command asked session later state code called answered resumes goes result =>
    subst result
    cases goes with
    | failed thrown result =>
      subst result
      exact idle_of_reply rfl
    | finished thrown fits result =>
      subst result
      exact idle_of_reply rfl
    | more other fits result =>
      subst result
      exact idle_of_reply rfl
    | approve thrown result =>
      subst result
      have reading : (device.loaded apdu).signTxnContext.txnState ≠ .computeSigs ∧
          (device.loaded apdu).signTxnContext.txnState ≠ .retSigs := by
        refine not_or.mp fun signing => ?_
        rcases resumes.signing_code delivers signing with other | other
        · exact absurd (thrown.symm.trans other) (by decide)
        · exact absurd (thrown.symm.trans other) (by decide)
      obtain ⟨tx, goesOn⟩ := resumes.reads reading
      refine fun _ => ⟨rfl, fun _ => ?_⟩
      rw [resetTx_signTxnContext, goToTransactionScreen_signTxnContext,
        prepareOutputApproval_signTxnContext]
      exact goesOn (by rw [thrown]; decide)
  | cancelled press screen result =>
    subst result
    exact idle_of_reply rfl
  | pressed button press right screen code called resumes goes =>
    intro waits
    have waited : waiting after.log = true → waiting device.log = true := by
      intro waits
      have longer := (pressed_unspoken device).trans resumes.unspoken
      rw [← waiting_of_extends longer]
      cases goes with
      | more thrown fits result =>
        rw [result] at waits
        cases waits
      | approve thrown result =>
        rw [result, prepareOutputApproval_log] at waits
        exact waits
      | last thrown fits result =>
        rw [result] at waits
        cases waits
      | ready thrown fits result =>
        rw [result] at waits
        cases waits
      | failed thrown result =>
        rw [result] at waits
        cases waits
      | silent other result =>
        rw [result] at waits
        exact waits
    obtain ⟨zero, reading⟩ := idle (waited waits)
    obtain ⟨tx, goesOn⟩ := resumes.reads (pressed_reading reading)
    have empty : called.tx = 0 := tx.trans ((pressed_tx device).trans zero)
    cases goes with
    | more thrown fits result =>
      subst result
      exact idle_of_reply rfl waits
    | approve thrown result =>
      subst result
      exact idle_of_unanswered empty goesOn (by rw [thrown]; decide)
        (prepareOutputApproval_tx sdk called) (prepareOutputApproval_signTxnContext sdk called)
        waits
    | last thrown fits result =>
      subst result
      exact idle_of_reply rfl waits
    | ready thrown fits result =>
      subst result
      exact idle_of_reply rfl waits
    | failed thrown result =>
      subst result
      exact idle_of_reply rfl waits
    | silent other result =>
      subst result
      exact idle_of_unanswered empty goesOn other.2.2.2.1 rfl rfl waits
  | shows screen elsewhere other result =>
    subst result
    exact idle

end Waiting

/-! ### The replies of a step -/

section Replying

variable {sdk : Sdk} {device called after : Device} {code : Nat} {past log : List Event}

theorem newestCommand_ignores : Logs.Ignores Event.Unspoken newestCommand := by
  intro event past unspoken
  cases event with
  | command => exact absurd unspoken id
  | reply => exact absurd unspoken id
  | _ => rfl

theorem answersOwn_unspoken (before : Logs.Always (AnswersOwn sdk) past)
    (longer : Logs.Extends Event.Unspoken past log) : Logs.Always (AnswersOwn sdk) log := by
  obtain ⟨events, rfl, each⟩ := longer
  refine Logs.always_append before fun event member earlier => ?_
  have unspoken := each event member
  cases event with
  | reply => exact absurd unspoken id
  | _ => trivial

theorem answersOwn_error (before : Logs.Always (AnswersOwn sdk) past) :
    Logs.Always (AnswersOwn sdk) (.reply (statusBytes 0x6B0) :: past) :=
  ⟨fun _ _ => Answer.refused rfl, before⟩

/-- Without a payload in the transport buffer the reply is the bare success. -/
theorem answer_of_empty (zero : called.tx = 0) (past : List Event) :
    Answer sdk past (called.apduBuffer.read 0 called.tx ++ statusBytes insRetSuccess) := by
  rw [zero, Cells.read_zero]
  exact Answer.taken rfl

/-- A command that resumes the parser is answered with nothing or with signatures. -/
theorem Resumed.answer (delivers : sdk.Delivers)
    (holds : Framed device.log ∧ Held sdk device.signTxnContext device.log)
    (remembers : Remembers sdk device)
    (session : InSession sdk (progressOf device.log) device.signTxnContext)
    (zero : device.tx = 0)
    (resumes : Resumed sdk (progressOf device.log) device code called) :
    Answer sdk called.log (called.apduBuffer.read 0 called.tx ++ statusBytes insRetSuccess) := by
  by_cases signing : device.signTxnContext.txnState = .computeSigs ∨
      device.signTxnContext.txnState = .retSigs
  · obtain ⟨inputs, outputs, path, signatures, ready, signs, hash, _, _, _⟩ :=
      resumes.signs delivers holds.2 signing
    obtain ⟨_, _, tx, written, _, _⟩ := resumes.gives ready
    have bound : device.given ≤ signatures.length := by
      by_cases state : device.signTxnContext.txnState = .retSigs
      · rw [given_retSigs state, ← ready.declared]
        rcases session with tracks | signsFor
        · exact absurd tracks (ready.not_tracks _)
        · exact Nat.le_of_lt (signsFor.owed state)
      · rw [Device.given, if_neg state]
        exact Nat.zero_le _
    have length := length_signatureBytes (gift_inside ready bound)
    have room := room_le device
    have payload : called.apduBuffer.read 0 called.tx =
        signatureBytes signatures device.given device.gift := by
      rw [tx, written, zero, Nat.zero_add, ← length]
      refine Cells.read_write_self _ 0 _ ?_
      rw [length, Nat.zero_add]
      exact le_trans (le_trans room (Nat.sub_le _ _)) (by decide)
    rw [payload]
    have own : OwnHash sdk called.log inputs outputs called.signTxnContext.txn.innerHash :=
      ⟨hash, fun _ => resumes.remembers remembers⟩
    exact Answer.signatures inputs outputs _ path signatures _ _ signs own rfl
  · exact answer_of_empty ((resumes.reads (not_or.mp signing)).1.trans zero) _

theorem CommandResult.answersOwn (before : Logs.Always (AnswersOwn sdk) called.log)
    (answer : Answer sdk called.log
      (called.apduBuffer.read 0 called.tx ++ statusBytes insRetSuccess))
    (goes : CommandResult sdk called code after) : Logs.Always (AnswersOwn sdk) after.log := by
  cases goes with
  | failed thrown result =>
    subst result
    exact answersOwn_error before
  | approve thrown result =>
    subst result
    rw [goToTransactionScreen_log, prepareOutputApproval_log]
    exact ⟨trivial, before⟩
  | finished thrown fits result =>
    subst result
    exact ⟨fun _ _ => answer, before⟩
  | more other fits result =>
    subst result
    exact ⟨fun _ _ => answer, before⟩

/-- The inner hash a press returns is the one for the transaction read. -/
theorem answer_innerHash (held : Held sdk called.signTxnContext called.log)
    (remembers : Remembers sdk called)
    (computes : called.signTxnContext.txnState = .computeSigs) (zero : called.tx = 0) :
    Answer sdk called.log (called.answerInnerHash.apduBuffer.read 0 called.answerInnerHash.tx ++
      statusBytes insRetSuccess) := by
  have sent := (answerInnerHash_sent called zero).2
  rw [replyOk_log] at sent
  have bytes := Event.reply.inj (List.cons.inj sent).1
  rw [bytes]
  cases held with
  | reading state => exact absurd computes state.1
  | signatures state => exact absurd (computes.symm.trans state) TxnState.noConfusion
  | inputs state inputs outputs read hash declared table =>
    exact Answer.innerHash inputs outputs _ read ⟨hash, fun _ => remembers⟩ rfl

theorem PressResult.answersOwn (before : Logs.Always (AnswersOwn sdk) called.log)
    (zero : waiting called.log = true → called.tx = 0)
    (held : Held sdk called.signTxnContext called.log) (remembers : Remembers sdk called)
    (computes : code = txnReady → called.signTxnContext.txnState = .computeSigs)
    (goes : PressResult sdk called code after) : Logs.Always (AnswersOwn sdk) after.log := by
  cases goes with
  | more thrown fits result =>
    subst result
    exact ⟨fun waits _ => answer_of_empty (zero waits) _, before⟩
  | approve thrown result =>
    subst result
    rw [prepareOutputApproval_log]
    exact ⟨trivial, before⟩
  | last thrown fits result =>
    subst result
    rw [replyOk_log, prepareOutputApproval_log, prepareOutputApproval_apduBuffer,
      prepareOutputApproval_tx]
    exact ⟨fun waits _ => answer_of_empty (zero waits) _, trivial, before⟩
  | ready thrown fits result =>
    subst result
    exact ⟨fun waits _ => answer_innerHash held remembers (computes thrown) (zero waits), before⟩
  | failed thrown result =>
    subst result
    exact answersOwn_error before
  | silent other result =>
    subst result
    exact before

/-- A command that is none for the signing handler does not ask it. -/
theorem not_asksSigning {apdu : Apdu} (other : ¬ device.AsksToSign apdu) :
    ¬ AsksSigning apdu.bytes := by
  rintro ⟨long, cla, ins⟩
  refine other ⟨by omega, ?_, ?_⟩
  · rw [header_eq _ _ _ (by omega)]
    exact cla
  · rw [header_eq _ _ _ (by omega)]
    exact ins

/-- Every step answers commands for the signing handler with what belongs to their session. -/
theorem step_answersOwn (delivers : sdk.Delivers) {input : Input}
    (invariant : SessionInvariant sdk device)
    (holds : device.signTxnContext.initialized = true →
      Framed device.log ∧ Held sdk device.signTxnContext device.log)
    (remembers : Remembers sdk device) (idle : Idle device)
    (before : Logs.Always (AnswersOwn sdk) device.log)
    (went : Stepped sdk device input after) : Logs.Always (AnswersOwn sdk) after.log := by
  have received : ∀ apdu : Apdu, Logs.Always (AnswersOwn sdk) (.command apdu.bytes :: device.log) :=
    fun _ => ⟨trivial, before⟩
  cases went with
  | answered apdu command other context derived ready use payload fits result =>
    subst result payload
    have longer : Logs.Extends Event.Unspoken (.command apdu.bytes :: device.log)
        (derived.map Event.derive ++ .command apdu.bytes :: device.log) :=
      (Logs.Extends.refl _).map Event.derive (fun _ => trivial) derived
    refine ⟨fun _ asks => ?_, answersOwn_unspoken (received apdu) longer⟩
    obtain ⟨newest, member, asks⟩ := asks
    have same : newestCommand (derived.map Event.derive ++ .command apdu.bytes :: device.log) =
      some apdu.bytes := newestCommand_ignores.of_extends longer
    have bytes : some apdu.bytes = some newest := same.symm.trans member
    rw [← Option.some.inj bytes] at asks
    exact absurd asks (not_asksSigning other)
  | opened apdu command asked closed first result =>
    subst result
    exact received apdu
  | refused apdu command asked wrong result =>
    subst result
    exact answersOwn_error (received apdu)
  | waits apdu command asked session later state result =>
    subst result
    exact received apdu
  | resumed apdu command asked session later state code called answered resumes goes result =>
    subst result command
    have calls := (keeps_held delivers).calls holds (resumedBy_command asked session later state)
    rw [resetTx_log]
    exact goes.answersOwn (answersOwn_unspoken (received apdu) resumes.unspoken)
      (resumes.answer delivers calls (remembers.congr rfl rfl)
        ((invariant.session session).load _ _) rfl)
  | cancelled press screen result =>
    subst result
    exact answersOwn_error ⟨trivial, before⟩
  | pressed button press right screen code called resumes goes =>
    subst press
    have longer := (pressed_unspoken device).trans resumes.unspoken
    have calls := (keeps_held delivers).calls holds (resumedBy_press right screen)
    have zero : waiting called.log = true → called.tx = 0 := by
      intro waits
      rw [waiting_of_extends longer] at waits
      obtain ⟨empty, reading⟩ := idle waits
      exact (resumes.reads (pressed_reading reading)).1.trans ((pressed_tx device).trans empty)
    exact goes.answersOwn (answersOwn_unspoken before longer) zero
      (resumes.held delivers calls.1 calls.2) (resumes.remembers remembers.pressed)
      resumes.computes
  | shows screen elsewhere other result =>
    subst result
    exact before

end Replying

/-! ### The replies of a run -/

/-- The replies of a log, each with the log before it. -/
def replies : List Event → List (Bytes × List Event) :=
  Logs.selected fun
    | .reply bytes => some bytes
    | _ => none

theorem replies_split {log past : List Event} {bytes : Bytes}
    (member : (bytes, past) ∈ replies log) : ∃ later, log = later ++ .reply bytes :: past := by
  obtain ⟨later, event, split, answered⟩ := Logs.selected_split member
  cases event with
  | reply other =>
    cases answered
    exact ⟨later, split⟩
  | _ => cases answered

/-- Whatever the host sends and the user presses: with an SDK that does not fail the host receives
from the signing handler only the error status, the bare success, the inner hash for the transaction
whose bytes were read in that session, or signatures of this hash for the transaction's inputs, in
their order, made with the keys of one stored path and the inputs' address indices. The inner hash
is that of the transaction's bytes; without outputs it is the one left in memory. -/
theorem answers_are_of_transaction {sdk : Sdk} (delivers : sdk.Delivers) {inputs : List Input}
    {device : Device} (ran : run sdk Device.boot inputs = .ok device) {bytes : Bytes}
    {past : List Event} (replied : (bytes, past) ∈ replies device.log)
    (waits : waiting past = true) (asks : ∃ command ∈ newestCommand past, AsksSigning command) :
    Answer sdk past bytes := by
  have invariant := Runs.run_invariant (motive := fun device => SessionInvariant sdk device ∧
      (device.signTxnContext.initialized = true →
        Framed device.log ∧ Held sdk device.signTxnContext device.log) ∧ Remembers sdk device ∧
          Idle device ∧ Logs.Always (AnswersOwn sdk) device.log)
    (fun _ _ _ before _ stepped => by
      obtain ⟨session, held, remembers, idle, always⟩ := before
      have went := step_stepped session stepped
      exact ⟨step_session session stepped, (keeps_held delivers).step held went,
        step_remembers remembers went, step_idle delivers idle went,
        step_answersOwn delivers session held remembers idle always went⟩)
    ⟨session_boot sdk, fun session => absurd session Bool.false_ne_true, rfl, nofun, trivial⟩
    (Runs.along_true _ _) ran
  obtain ⟨later, split⟩ := replies_split replied
  have always := invariant.2.2.2.2
  rw [split] at always
  exact Logs.always_split always waits asks

/-- The reply with the inner hash, in a session of one input and one output. -/
theorem answers_are_of_transaction_sample : ∃ device bytes past,
    run Sdk.plain Device.boot timedSession = .ok device ∧
      (bytes, past) ∈ replies device.log ∧ waiting past = true ∧
        (∃ command ∈ newestCommand past, AsksSigning command) ∧ bytes.length = 34 ∧
          Answer Sdk.plain past bytes := by
  have ends : Runs.Ends (fun device : Device => ∃ reply ∈ replies device.log,
      waiting reply.2 = true ∧ (∃ command ∈ newestCommand reply.2, AsksSigning command) ∧
        reply.1.length = 34) (run Sdk.plain Device.boot timedSession) := by decide +kernel
  obtain ⟨device, ran, reply, member, waits, asks, length⟩ := Runs.exists_of_ends ends
  exact ⟨device, reply.1, reply.2, ran, member, waits, asks, length,
    answers_are_of_transaction ⟨fun _ => ⟨_, rfl⟩, fun _ _ => ⟨_, rfl⟩⟩ ran member waits asks⟩

end LedgerNano
