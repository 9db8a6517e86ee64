/-
This file is about what the user's presses allow the device to sign.

In one session every output costs a press of its own and so does the inner hash, whatever the
chunks are and whatever the screen shows: when the device begins to sign, the right button was
pressed once more than there are outputs, at least (`outputs_cost_presses`). What it signs in one
session is always the same hash, and with an SDK that does not fail it begins to sign only once
(`session_signs_once`).
-/

import LedgerNano.Keeping
import LedgerNano.Approval
import LedgerNano.Fetching

namespace LedgerNano

/-! ### Presses and hashes of a session -/

/-- The right presses of the session a log ends with, with the one that opened it. -/
def pressesOf : List Event → Nat :=
  Logs.read 0 fun
    | .sessionStart => some fun _ _ => 1
    | .rightPress _ => some fun _ presses => presses + 1
    | _ => none

/-- The hash that was signed last in the session a log ends with. -/
def signedIn : List Event → Option Bytes :=
  Logs.read none fun
    | .sessionStart => some fun _ _ => none
    | .computeSigs innerHash => some fun _ _ => some innerHash
    | _ => none

section Ignoring

variable {sdk : Sdk} {progress : Progress} {device called : Device} {code : Nat}

theorem Event.Passive.ignored {event : Event} (passive : event.Passive) (past : List Event) :
    pressesOf (event :: past) = pressesOf past ∧ signedIn (event :: past) = signedIn past ∧
      progressOf (event :: past) = progressOf past := by
  cases event with
  | sessionStart => exact absurd passive id
  | rightPress => exact absurd passive id
  | element => exact absurd passive id
  | computeSigs => exact absurd passive id
  | _ => exact ⟨rfl, rfl, rfl⟩

theorem pressesOf_elements (records : List Bytes) (past : List Event) :
    pressesOf ((records.map Event.element).reverse ++ past) = pressesOf past :=
  Logs.read_reverse_map (fun _ => rfl) records past

theorem pressesOf_derive (derived : List (List Nat)) (past : List Event) :
    pressesOf (derived.map Event.derive ++ past) = pressesOf past :=
  Logs.read_map (fun _ => rfl) derived past

theorem signedIn_elements (records : List Bytes) (past : List Event) :
    signedIn ((records.map Event.element).reverse ++ past) = signedIn past :=
  Logs.read_reverse_map (fun _ => rfl) records past

theorem signedIn_derive (derived : List (List Nat)) (past : List Event) :
    signedIn (derived.map Event.derive ++ past) = signedIn past :=
  Logs.read_map (fun _ => rfl) derived past

/-- The parser itself is not pressed. -/
theorem Resumed.pressesOf (resumes : Resumed sdk progress device code called) :
    pressesOf called.log = pressesOf device.log := by
  cases resumes with
  | read call ctx tracks calls reached thrown result =>
    subst result
    exact pressesOf_elements call.records device.log
  | computed signs state computes =>
    cases computes with
    | raised path table counter derived signed result =>
      subst result
      exact pressesOf_derive derived _
    | finished signatures derived signed each derivations result returned =>
      rw [afterBatch_log returned]
      subst result
      exact pressesOf_derive derived _
  | returned signs state returns => rw [afterBatch_log returns]; rfl

end Ignoring

/-! ### Outputs cost presses -/

/-- There was a press for each output, and one more once they all are read. -/
def Paid (ctx : SignTxnContext) (log : List Event) : Prop :=
  (progressOf log).outputs.length ≤ pressesOf log ∧
    (ctx.txnState ≠ .txnOut → (progressOf log).outputs.length + 1 ≤ pressesOf log)

/-- There was a press more than there are outputs. -/
def Prepaid (log : List Event) : Prop :=
  (progressOf log).outputs.length + 1 ≤ pressesOf log

section Presses

variable {sdk : Sdk} {device called after : Device} {code : Nat}

/-- The parser takes one output at most, and is at the outputs afterwards if it takes one. -/
theorem Resumed.paid (prepaid : Prepaid device.log)
    (resumes : Resumed sdk (progressOf device.log) device code called) :
    Paid called.signTxnContext called.log := by
  rw [Paid, resumes.pressesOf]
  unfold Prepaid at prepaid
  cases resumes with
  | read call ctx tracks calls reached thrown result =>
    subst result
    have log : progressOf (device.readBy call.records ctx).log = call.progress := by
      rw [Progress.call_progress calls]
      exact progressOf_elements call.records device.log
    rw [log]
    cases Progress.call_takes calls with
    | none other same waits =>
      rw [same]
      exact ⟨Nat.le_of_succ_le prepaid, fun _ => prepaid⟩
    | one codes output taken =>
      have notReady : call.code ≠ txnReady := by
        rcases codes with same | same <;> rw [same] <;> decide
      have left := reached.reached
      rw [if_neg notReady] at left
      have state : ctx.txnState = .txnOut := by
        rw [left.state, state_of_outputs]
        rw [taken]
        exact List.append_ne_nil_of_right_ne_nil _ (List.cons_ne_nil _ _)
      refine ⟨?_, fun other => absurd state other⟩
      rw [taken, List.length_append, List.length_singleton]
      exact prepaid
  | computed signs state computes =>
    have log : progressOf called.log = progressOf device.log := by
      cases computes with
      | raised path table counter derived signed result =>
        subst result
        exact progressOf_derive derived _
      | finished signatures derived signed each derivations result returned =>
        rw [afterBatch_log returned]
        subst result
        exact progressOf_derive derived _
    rw [log]
    exact ⟨Nat.le_of_succ_le prepaid, fun _ => prepaid⟩
  | returned signs state returns =>
    rw [afterBatch_log returns]
    exact ⟨Nat.le_of_succ_le prepaid, fun _ => prepaid⟩

theorem keeps_paid (sdk : Sdk) : Keeps sdk Paid (fun _ log => Prepaid log) where
  passive ctx event past passive paid := by
    obtain ⟨presses, _, progress⟩ := passive.ignored past
    rw [Paid, presses, progress]
    exact paid
  load _ _ _ _ paid := paid
  command ctx log state paid := by
    refine paid.2 fun outputs => ?_
    rw [outputs] at state
    cases state
  press _ _ _ paid := Nat.succ_le_succ paid.1
  start _ _ _ _ := le_refl 1
  call _ _ _ prepaid resumes := resumes.paid prepaid

/-- What is signed was paid for. -/
def SignsPaid : Event → List Event → Prop
  | .computeSigs _, past => (progressOf past).Whole ∧ Prepaid past
  | _, _ => True

theorem signsPaid_of_other (event : Event) (past : List Event) (other : event.Unsigned) :
    SignsPaid event past := by
  cases event with
  | computeSigs => exact absurd trivial other
  | _ => trivial

/-- Every step keeps the sessions and the signatures paid for. -/
theorem step_signsPaid {input : Input}
    (before : device.signTxnContext.initialized = true → Paid device.signTxnContext device.log)
    (always : Logs.Always SignsPaid device.log) (stepped : Stepped sdk device input after) :
    Logs.Always SignsPaid after.log :=
  stepped.always_signing signsPaid_of_other always fun _ resumed _ signs =>
    ⟨signs.whole, (keeps_paid sdk).calls before resumed⟩

end Presses

/-- Whenever the device begins to sign, the transaction it signs was read to its end in that
session, and since the session was opened the right button was pressed at least once more than the
transaction has outputs. -/
theorem outputs_cost_presses {sdk : Sdk} {inputs : List Input} {device : Device}
    (ran : run sdk Device.boot inputs = .ok device) {innerHash : Bytes} {past : List Event}
    (signed : (innerHash, past) ∈ signings device.log) :
    ∃ ins outs : List Bytes, progressOf past = .txnOut ins.length ins outs.length outs ∧
      outs.length + 1 ≤ pressesOf past := by
  have invariant := Runs.run_invariant (motive := fun device => SessionInvariant sdk device ∧
      (device.signTxnContext.initialized = true → Paid device.signTxnContext device.log) ∧
        Logs.Always SignsPaid device.log)
    (fun _ _ _ before _ stepped =>
      have went := step_stepped before.1 stepped
      ⟨step_session before.1 stepped, (keeps_paid sdk).step before.2.1 went,
        step_signsPaid before.2.1 before.2.2 went⟩)
    ⟨session_boot sdk, fun session => absurd session Bool.false_ne_true, trivial⟩
    (Runs.along_true _ _) ran
  obtain ⟨later, split⟩ := signings_split signed
  have always := invariant.2.2
  rw [split] at always
  obtain ⟨whole, paid⟩ := Logs.always_split always
  exact ⟨_, _, whole, paid⟩

/-- The session of one input and one output is signed after two presses. -/
theorem outputs_cost_presses_sample : ∃ device innerHash past,
    run Sdk.plain Device.boot sampleSession = .ok device ∧
      (innerHash, past) ∈ signings device.log ∧ pressesOf past = 2 ∧
        ∃ ins outs : List Bytes, progressOf past = .txnOut ins.length ins outs.length outs ∧
          outs.length + 1 ≤ pressesOf past := by
  have ends : Runs.Ends (fun device : Device => ∃ signing ∈ signings device.log,
      pressesOf signing.2 = 2) (run Sdk.plain Device.boot sampleSession) := by decide +kernel
  obtain ⟨device, ran, signing, member, two⟩ := Runs.exists_of_ends ends
  exact ⟨device, signing.1, signing.2, ran, member, two, outputs_cost_presses ran member⟩

/-! ### One hash for one session -/

/-- What was signed in the session is the inner hash, and it signs no more unless the SDK fails. -/
def SignsOne (sdk : Sdk) (ctx : SignTxnContext) (log : List Event) : Prop :=
  ∀ innerHash, signedIn log = some innerHash →
    innerHash = ctx.txn.innerHash.contents ∧
      (ctx.txnState = .computeSigs ∨ ctx.txnState = .retSigs) ∧
        (sdk.Delivers → ctx.txnState = .retSigs)

section Hashes

variable {sdk : Sdk} {device called after : Device} {code : Nat}

theorem Sdk.Delivers.attempt (delivers : sdk.Delivers) (device : Device) (slot : SigInput) :
    ∃ signature, device.attempt sdk slot = .ok signature := by
  obtain ⟨privateKey, derived⟩ :=
    delivers.derives (inputPath device.getPublicKeyContext.bip44Path slot).contents
  obtain ⟨signed, signs⟩ := delivers.signs privateKey
    (sdk.sha256 (device.signTxnContext.txn.innerHash.contents ++
      slot.input.take sha256HashLen)).contents
  rw [Device.attempt, signInput, derivePrivateKey, derived]
  show ∃ signature, sign sdk privateKey _ = .ok signature
  rw [sign, signs]
  exact ⟨_, rfl⟩

/-- An SDK that does not fail raises nothing at any input. -/
theorem Sdk.Delivers.mapM_ne_error (delivers : sdk.Delivers) (device : Device)
    (slots : List SigInput) (code : Nat) : slots.mapM (device.attempt sdk) ≠ .error code := by
  induction slots with
  | nil =>
    intro raised
    cases raised
  | cons slot slots inductionHypothesis =>
    obtain ⟨signature, first⟩ := delivers.attempt device slot
    intro raised
    rw [List.mapM_cons, first] at raised
    cases later : slots.mapM (device.attempt sdk) with
    | error other =>
      rw [later] at raised
      cases raised
      exact inductionHypothesis later
    | ok signatures =>
      rw [later] at raised
      cases raised

theorem Resumed.signsOne (before : SignsOne sdk device.signTxnContext device.log)
    (resumes : Resumed sdk (progressOf device.log) device code called) :
    SignsOne sdk called.signTxnContext called.log := by
  cases resumes with
  | read call ctx tracks calls reached thrown result =>
    subst result
    intro innerHash signed
    rw [show signedIn (device.readBy call.records ctx).log = signedIn device.log from
      signedIn_elements call.records device.log] at signed
    -- A session that reads has not signed.
    obtain ⟨_, state, _⟩ := before innerHash signed
    rw [tracks.state] at state
    rcases state with same | same
    · exact absurd same (progressOf device.log).state_reading.1
    · exact absurd same (progressOf device.log).state_reading.2
  | computed signs state computes =>
    cases computes with
    | raised path table counter derived signed result =>
      subst result
      intro innerHash hash
      have log : signedIn (device.startSigning.signedBy path table counter derived).log =
        some device.signTxnContext.txn.innerHash.contents := signedIn_derive derived _
      rw [log] at hash
      exact ⟨(Option.some.inj hash).symm, Or.inl state, fun delivers =>
        absurd (signed.raised code rfl) (delivers.mapM_ne_error device _ code)⟩
    | finished signatures derived signed each derivations result returned =>
      subst result
      intro innerHash hash
      have log : signedIn called.log =
          some device.signTxnContext.txn.innerHash.contents := by
        rw [afterBatch_log returned]
        exact signedIn_derive derived _
      rw [log] at hash
      have after := afterBatch_txnState returned
      rcases Device.afterBatch_cases returned with ⟨_, _, rfl⟩ | ⟨_, _, rfl⟩
      · exact ⟨(Option.some.inj hash).symm, Or.inr after, fun _ => after⟩
      · exact ⟨(Option.some.inj hash).symm, Or.inr after, fun _ => after⟩
  | returned signs state returns =>
    intro innerHash hash
    rw [afterBatch_log returns] at hash
    obtain ⟨same, _, _⟩ := before innerHash hash
    have after := (afterBatch_txnState returns).trans state
    rcases Device.afterBatch_cases returns with ⟨_, _, rfl⟩ | ⟨_, _, rfl⟩
    · exact ⟨same, Or.inr after, fun _ => after⟩
    · exact ⟨same, Or.inr after, fun _ => after⟩

theorem keeps_signsOne (sdk : Sdk) : Keeps sdk (SignsOne sdk) (SignsOne sdk) where
  passive ctx event past passive one := by
    intro innerHash signed
    rw [(passive.ignored past).2.1] at signed
    exact one innerHash signed
  load _ _ _ _ one := one
  command _ _ _ one := one
  press _ _ _ one := one
  start _ _ _ _ := by
    intro innerHash none
    cases none
  call _ _ _ one resumes := resumes.signsOne one

/-- What is signed again in one session is the same hash, and nothing is signed again unless the
SDK fails. -/
def SignsAgain (sdk : Sdk) : Event → List Event → Prop
  | .computeSigs innerHash, past =>
    (∀ earlier, signedIn past = some earlier → earlier = innerHash) ∧
      (sdk.Delivers → signedIn past = none)
  | _, _ => True

theorem signsAgain_of_other (event : Event) (past : List Event) (other : event.Unsigned) :
    SignsAgain sdk event past := by
  cases event with
  | computeSigs => exact absurd trivial other
  | _ => trivial

theorem step_signsAgain {input : Input}
    (before : device.signTxnContext.initialized = true →
      SignsOne sdk device.signTxnContext device.log)
    (always : Logs.Always (SignsAgain sdk) device.log) (stepped : Stepped sdk device input after) :
    Logs.Always (SignsAgain sdk) after.log := by
  refine stepped.always_signing signsAgain_of_other always fun start resumed state _ => ?_
  have one := (keeps_signsOne sdk).calls before resumed
  refine ⟨fun earlier signed => (one earlier signed).1, fun delivers => ?_⟩
  cases signed : signedIn start.log with
  | none => rfl
  | some earlier =>
    have returned := (one earlier signed).2.2 delivers
    rw [state] at returned
    cases returned

end Hashes

/-- The hashes the device signs in one session are all the same, and with an SDK that does not fail
it signs in no session twice. -/
theorem session_signs_once {sdk : Sdk} {inputs : List Input} {device : Device}
    (ran : run sdk Device.boot inputs = .ok device) {innerHash : Bytes} {past : List Event}
    (signed : (innerHash, past) ∈ signings device.log) :
    (∀ earlier, signedIn past = some earlier → earlier = innerHash) ∧
      (sdk.Delivers → signedIn past = none) := by
  have invariant := Runs.run_invariant (motive := fun device => SessionInvariant sdk device ∧
      (device.signTxnContext.initialized = true →
        SignsOne sdk device.signTxnContext device.log) ∧
          Logs.Always (SignsAgain sdk) device.log)
    (fun _ _ _ before _ stepped =>
      have went := step_stepped before.1 stepped
      ⟨step_session before.1 stepped, (keeps_signsOne sdk).step before.2.1 went,
        step_signsAgain before.2.1 before.2.2 went⟩)
    ⟨session_boot sdk, fun session => absurd session Bool.false_ne_true, trivial⟩
    (Runs.along_true _ _) ran
  obtain ⟨later, split⟩ := signings_split signed
  have always := invariant.2.2
  rw [split] at always
  exact Logs.always_split always

/-- Two sessions after each other are signed once each. -/
theorem session_signs_once_sample : ∃ device, run Sdk.plain Device.boot
      (sampleSession ++ sampleSession) = .ok device ∧ (signings device.log).length = 2 ∧
    ∀ innerHash past, (innerHash, past) ∈ signings device.log → signedIn past = none := by
  have ends : Runs.Ends (fun device : Device => (signings device.log).length = 2)
      (run Sdk.plain Device.boot (sampleSession ++ sampleSession)) := by decide +kernel
  obtain ⟨device, ran, two⟩ := Runs.exists_of_ends ends
  exact ⟨device, ran, two, fun innerHash past member =>
    (session_signs_once ran member).2 ⟨fun _ => ⟨_, rfl⟩, fun _ _ => ⟨_, rfl⟩⟩⟩

end LedgerNano
