/-
This file is about the hash that is signed: whether it is the hash of the transaction
read in the same session.

It is, for every session that declares an output (`signed_hash_is_of_session`). The inner
hash is written with the last output only, so a session that declares none reaches the
signing state with the hash some earlier session left in memory
(`signed_hash_can_be_stale`). In every case it is the hash of the newest transaction with
outputs that was read to its end, in whichever session (`signed_hash_is_last`).
-/

import LedgerNano.Traces

namespace LedgerNano

/-! ### The hash of a session -/

/-- The outputs a session declared. -/
def Progress.outNum : Progress → Nat
  | txnOut _ _ outNum _ => outNum
  | _ => 0

/-- A hash is that of a transaction of one to twenty inputs, and all of the transaction was read
in the session the log ends with. -/
def IsSessionHash (sdk : Sdk) (innerHash : Bytes) (past : List Event) : Prop :=
  ∃ inputs outputs : List Bytes,
    progressOf past = .txnOut inputs.length inputs outputs.length outputs ∧
      0 < inputs.length ∧ inputs.length ≤ maxInputs ∧
      innerHash = (sdk.sha256 (le32 inputs.length ++ (inputs.map (List.take 32)).flatten ++
        le32 outputs.length ++ outputs.flatten)).contents

/-- What every run keeps about the hashes it signs. -/
def SignsOwnHash (sdk : Sdk) : Event → List Event → Prop
  | .computeSigs innerHash, past =>
    (progressOf past).outNum ≠ 0 → IsSessionHash sdk innerHash past
  | _, _ => True

section Hash

variable {sdk : Sdk} {device after : Device}

theorem signsOwnHash_of_other (event : Event) (past : List Event)
    (other : ¬ event.IsComputeSigs) : SignsOwnHash sdk event past := by
  cases event with
  | computeSigs => exact absurd trivial other
  | _ => trivial

/-- A session that signs has read all it declared, and the inner hash is its hash. -/
theorem SignsFor.isSessionHash {ctx : SignTxnContext} {past : List Event}
    (signs : SignsFor sdk (progressOf past) ctx) (declared : (progressOf past).outNum ≠ 0) :
    IsSessionHash sdk ctx.txn.innerHash.contents past := by
  have whole : progressOf past = .txnOut (progressOf past).inputs.length (progressOf past).inputs
      (progressOf past).outputs.length (progressOf past).outputs := signs.whole
  have some : (progressOf past).outputs ≠ [] := by
    intro none
    rw [whole, none] at declared
    exact declared rfl
  have hash := signs.hash some
  refine ⟨(progressOf past).inputs, (progressOf past).outputs, whole,
    signs.declared ▸ signs.positive, signs.declared ▸ signs.inside, ?_⟩
  rw [hash]
  rw [whole]
  rfl

/-- Every input keeps it. -/
theorem step_signsOwnHash {input : Input} (invariant : SessionInvariant sdk device)
    (before : Logs.Always (SignsOwnHash sdk) device.log)
    (stepped : step sdk device input = .ok after) :
    Logs.Always (SignsOwnHash sdk) after.log :=
  (step_stepped invariant stepped).always signsOwnHash_of_other before
    (fun _ _ signs => signs.isSessionHash) (fun signs => signs.isSessionHash)

theorem run_signsOwnHash {inputs : List Input} (ran : run sdk Device.boot inputs = .ok after) :
    Logs.Always (SignsOwnHash sdk) after.log := by
  have invariant := Runs.run_invariant (motive := fun device =>
      SessionInvariant sdk device ∧ Logs.Always (SignsOwnHash sdk) device.log)
    (fun _ _ _ before _ stepped =>
      ⟨step_session before.1 stepped, step_signsOwnHash before.1 before.2 stepped⟩)
    ⟨session_boot sdk, trivial⟩ (Runs.along_true _ _) ran
  exact invariant.2

/-- Whenever the device signs in a session that declared an output, the hash it signs is the one
of the transaction read in that session. -/
theorem signed_hash_is_of_session {inputs : List Input}
    (ran : run sdk Device.boot inputs = .ok device) {innerHash : Bytes} {past : List Event}
    (signed : (innerHash, past) ∈ signings device.log) (declared : (progressOf past).outNum ≠ 0) :
    IsSessionHash sdk innerHash past := by
  obtain ⟨later, split⟩ := signings_split signed
  have always := run_signsOwnHash ran
  rw [split] at always
  exact Logs.always_split always declared

end Hash

/-! ### A stale hash -/

/-- A session with one input and no output. -/
def emptySession : List Input :=
  [.apdu (signApdu 0 (le32 1 ++ sampleInput ++ le32 0) (by decide)), .button .right,
    .apdu (signApdu 1 [] empty_fits)]

theorem IsSessionHash.eq {sdk : Sdk} {innerHash : Bytes} {past : List Event}
    (own : IsSessionHash sdk innerHash past) :
    innerHash = (sdk.sha256 (progressOf past).hashed).contents := by
  obtain ⟨inputs, outputs, progress, _, _, hash⟩ := own
  rw [hash, progress]
  rfl

/-- After a finished session one without outputs signs the hash of the finished one. -/
theorem signed_hash_can_be_stale : ¬ ∀ (sdk : Sdk) (inputs : List Input) (device : Device)
    (innerHash : Bytes) (past : List Event), run sdk Device.boot inputs = .ok device →
      (innerHash, past) ∈ signings device.log → IsSessionHash sdk innerHash past := by
  have ends : Runs.Ends (fun device : Device => ∃ signing ∈ signings device.log,
      signing.1 ≠ (Sdk.plain.sha256 (progressOf signing.2).hashed).contents)
      (run Sdk.plain Device.boot (sampleSession ++ emptySession)) := by decide +kernel
  obtain ⟨device, ran, signing, member, other⟩ := Runs.exists_of_ends ends
  exact fun all => other (all Sdk.plain _ device signing.1 signing.2 ran member).eq

/-- A session for which the theorem speaks. -/
theorem signed_hash_is_of_session_sample : ∃ device innerHash past,
    run Sdk.plain Device.boot sampleSession = .ok device ∧
      (innerHash, past) ∈ signings device.log ∧ (progressOf past).outNum ≠ 0 ∧
        IsSessionHash Sdk.plain innerHash past := by
  have ends : Runs.Ends (fun device : Device => ∃ signing ∈ signings device.log,
      (progressOf signing.2).outNum ≠ 0)
      (run Sdk.plain Device.boot sampleSession) := by decide +kernel
  obtain ⟨device, ran, signing, member, declared⟩ := Runs.exists_of_ends ends
  exact ⟨device, signing.1, signing.2, ran, member, declared,
    signed_hash_is_of_session ran member declared⟩

/-! ### The hash in memory -/

/-- The hash of the newest transaction of the log whose last output was taken, and zeros before
there is one. -/
def lastHash (sdk : Sdk) : List Event → Cells Byte 32 :=
  Logs.read (Cells.fill 0) fun
    | .element bytes => some fun past innerHash =>
      if ((progressOf past).next bytes).TookLast then
        sdk.sha256 ((progressOf past).next bytes).hashed
      else
        innerHash
    | _ => none

section Memory

variable {sdk : Sdk} {progress : Progress} {ctx : SignTxnContext} {device called after : Device}
  {code : Nat} {log past : List Event}

theorem lastHash_element (sdk : Sdk) (bytes : Bytes) (past : List Event) :
    lastHash sdk (.element bytes :: past) =
      if ((progressOf past).next bytes).TookLast then
        sdk.sha256 ((progressOf past).next bytes).hashed
      else
        lastHash sdk past := rfl

theorem lastHash_ignores : Logs.Ignores (fun event => ∀ bytes, event ≠ .element bytes)
    (lastHash sdk) := by
  refine Logs.ignores_read fun event other => ?_
  cases event with
  | element bytes => exact absurd rfl (other bytes)
  | _ => rfl

theorem lastHash_derive (sdk : Sdk) (derived : List (List Nat)) (past : List Event) :
    lastHash sdk (derived.map Event.derive ++ past) = lastHash sdk past :=
  Logs.read_map (fun _ => rfl) derived past

/-- A session that has taken its last output has the newest of these hashes. -/
theorem lastHash_of_tookLast (last : (progressOf log).TookLast) :
    lastHash sdk log = sdk.sha256 (progressOf log).hashed := by
  induction log with
  | nil => exact absurd last.2 id
  | cons event past inductionHypothesis =>
    cases event with
    | sessionStart => exact absurd last.2 id
    | element bytes =>
      rw [progressOf_element] at last ⊢
      rw [lastHash_element, if_pos last]
    | _ => exact inductionHypothesis last

/-- A call of the parser that does not take a last output leaves it. The induction is on the
call: the elements before the outputs cannot be a last output. -/
theorem lastHash_call {staged pending : Bytes} {call : Progress.Call}
    (calls : progress.call staged pending = some call) (more : ¬ call.progress.TookLast)
    (same : progressOf past = progress) :
    lastHash sdk ((call.records.map Event.element).reverse ++ past) = lastHash sdk past := by
  revert past
  revert more
  refine Progress.call_rule (motive := fun progress _ _ call => ¬ call.progress.TookLast →
    ∀ {past}, progressOf past = progress →
      lastHash sdk ((call.records.map Event.element).reverse ++ past) = lastHash sdk past)
    ?_ ?_ ?_ ?_ calls
  · exact fun _ _ _ _ _ _ _ => rfl
  · exact fun _ _ _ _ _ _ _ _ => rfl
  · intro progress staged pending _ _ _ more past same
    subst same
    rw [Progress.outputCall_progress] at more
    rw [Progress.outputCall_records]
    exact (lastHash_element sdk _ past).trans (if_neg more)
  · intro progress staged pending later _ _ earlier deeper more past same
    subst same
    have element := (lastHash_element sdk ((staged ++ pending).take (progressOf past).elementSize)
      past).trans (if_neg (Progress.not_tookLast_next earlier _))
    rw [List.map_cons, List.reverse_cons, List.append_assoc, List.singleton_append,
      deeper more rfl, element]

theorem Tracks.hash_of_tookLast (tracks : Tracks sdk progress ctx) (last : progress.TookLast) :
    ctx.txn.innerHash = sdk.sha256 progress.hashed := by
  cases progress with
  | startIn => exact absurd last.2 id
  | txnIn => exact absurd last.2 id
  | startOut => exact absurd last.2 id
  | txnOut inNum inputs outNum outputs =>
    obtain ⟨_, ⟨declared, _, _⟩, hash, _⟩ := tracks.agrees
    have counted := ((finished_iff tracks rfl).mpr last.2).trans declared
    rw [hash last.1 counted, tracks.hash]

/-- The inner hash in memory is the newest one of the log. -/
def Remembers (sdk : Sdk) (device : Device) : Prop :=
  device.signTxnContext.txn.innerHash = lastHash sdk device.log

theorem Remembers.congr (remembers : Remembers sdk device)
    (memory : after.signTxnContext.txn.innerHash = device.signTxnContext.txn.innerHash)
    (same : lastHash sdk after.log = lastHash sdk device.log) : Remembers sdk after :=
  memory.trans (remembers.trans same.symm)

/-- A call of the parser keeps both in step. -/
theorem Resumed.remembers (remembers : Remembers sdk device)
    (resumes : Resumed sdk (progressOf device.log) device code called) :
    Remembers sdk called := by
  cases resumes with
  | read call ctx tracks calls reached thrown result keepsHash =>
    subst result
    have progress : progressOf (device.readBy call.records ctx).log = call.progress := by
      rw [Progress.call_progress calls]
      exact progressOf_elements call.records device.log
    by_cases last : call.progress.TookLast
    · have stored : ctx.txn.innerHash = sdk.sha256 call.progress.hashed := by
        have left := reached.reached
        split at left
        · obtain ⟨_, before, tracked, same⟩ := left
          rw [same]
          exact tracked.hash_of_tookLast last
        · exact left.hash_of_tookLast last
      rw [← progress] at last stored
      exact stored.trans (lastHash_of_tookLast last).symm
    · exact remembers.congr (keepsHash last) (lastHash_call calls last rfl)
  | computed signs state computes =>
    cases computes with
    | raised path table counter derived signed result =>
      subst result
      exact remembers.congr rfl (lastHash_derive sdk derived _)
    | finished signatures derived signed each derivations result returned =>
      subst result
      have same := lastHash_derive sdk derived
        (.computeSigs device.signTxnContext.txn.innerHash.contents :: device.log)
      rcases Device.afterBatch_cases returned with ⟨_, _, rfl⟩ | ⟨_, _, rfl⟩
      · exact remembers.congr rfl same
      · exact remembers.congr rfl same
  | returned signs state returns =>
    rcases Device.afterBatch_cases returns with ⟨_, _, rfl⟩ | ⟨_, _, rfl⟩
    · exact remembers.congr rfl rfl
    · exact remembers.congr rfl rfl

theorem Remembers.handled (remembers : Remembers sdk called)
    (memory : after.signTxnContext.txn = called.signTxnContext.txn)
    (longer : Logs.Extends Event.OfHandler called.log after.log) : Remembers sdk after := by
  refine remembers.congr (congrArg Txn.innerHash memory) (lastHash_ignores.of_extends ?_)
  obtain ⟨events, same, each⟩ := longer
  exact ⟨events, same, fun event member bytes element => by
    subst element
    exact each _ member⟩

theorem Remembers.pressed (remembers : Remembers sdk device) :
    Remembers sdk device.pressed := by
  unfold Device.pressed startSession
  split
  · exact remembers.congr rfl rfl
  · exact remembers.congr rfl rfl

/-- Every input keeps both in step, also where it ends the session or opens one. -/
theorem step_remembers {input : Input} (remembers : Remembers sdk device)
    (went : Stepped sdk device input after) : Remembers sdk after := by
  cases went with
  | answered apdu command other context derived ready use payload fits result =>
    subst result payload
    exact remembers.congr rfl (lastHash_derive sdk derived _)
  | opened apdu command asked closed first result =>
    subst result
    exact remembers.congr rfl rfl
  | refused apdu command asked wrong result =>
    subst result
    exact remembers.congr rfl rfl
  | waits apdu command asked session later state result =>
    subst result
    exact remembers.congr rfl rfl
  | resumed apdu command asked session later state code called answered resumes goes result =>
    subst result
    have received : Remembers sdk (device.loaded apdu) := remembers.congr rfl rfl
    have reached := resumes.remembers received
    exact (reached.handled (by rw [goes.frames]) goes.extends).congr rfl rfl
  | cancelled press screen result =>
    subst result
    exact remembers.congr rfl rfl
  | pressed button press right screen code called resumes goes =>
    exact (resumes.remembers remembers.pressed).handled (by rw [goes.frames]) goes.extends
  | shows screen elsewhere other result =>
    subst result
    exact remembers

/-- A hash that is signed is the newest one. -/
def SignsLast (sdk : Sdk) : Event → List Event → Prop
  | .computeSigs innerHash, past => innerHash = (lastHash sdk past).contents
  | _, _ => True

theorem signsLast_of_other (event : Event) (past : List Event)
    (other : ¬ event.IsComputeSigs) : SignsLast sdk event past := by
  cases event with
  | computeSigs => exact absurd trivial other
  | _ => trivial

theorem Remembers.signsLast (remembers : Remembers sdk device) :
    SignsLast sdk (.computeSigs device.signTxnContext.txn.innerHash.contents) device.log :=
  congrArg Cells.contents remembers

/-- What the device signs is the hash of the newest transaction whose last output was taken: of
the session's own where it has outputs, otherwise of an earlier one, or zeros. -/
theorem signed_hash_is_last {inputs : List Input}
    (ran : run sdk Device.boot inputs = .ok device) {innerHash : Bytes} {past : List Event}
    (signed : (innerHash, past) ∈ signings device.log) :
    innerHash = (lastHash sdk past).contents := by
  have invariant := Runs.run_invariant (motive := fun device => SessionInvariant sdk device ∧
      Remembers sdk device ∧ Logs.Always (SignsLast sdk) device.log)
    (fun _ _ _ before _ stepped =>
      have went := step_stepped before.1 stepped
      ⟨step_session before.1 stepped, step_remembers before.2.1 went,
        went.always signsLast_of_other before.2.2
          (fun _ _ _ => Remembers.signsLast (before.2.1.congr rfl rfl))
          (fun _ => before.2.1.pressed.signsLast)⟩)
    ⟨session_boot sdk, rfl, trivial⟩ (Runs.along_true _ _) ran
  obtain ⟨later, split⟩ := signings_split signed
  have always := invariant.2.2
  rw [split] at always
  exact Logs.always_split always

end Memory

/-- A session without outputs signs the hash of the session before it. -/
theorem signed_hash_is_last_sample : ∃ device innerHash past,
    run Sdk.plain Device.boot (sampleSession ++ emptySession) = .ok device ∧
      (innerHash, past) ∈ signings device.log ∧ (progressOf past).outputs = [] ∧
        innerHash = (lastHash Sdk.plain past).contents := by
  have ends : Runs.Ends (fun device : Device => ∃ signing ∈ signings device.log,
      (progressOf signing.2).outputs = [])
      (run Sdk.plain Device.boot (sampleSession ++ emptySession)) := by decide +kernel
  obtain ⟨device, ran, signing, member, none⟩ := Runs.exists_of_ends ends
  exact ⟨device, signing.1, signing.2, ran, member, none, signed_hash_is_last ran member⟩

end LedgerNano
