/-
This file is the rule for properties of open sessions.

A session rests between the inputs, and the parser is called in it. `Keeps` lists what a property
of the context and the log must survive: events that say nothing about the session, a new chunk,
the opening of a session, a press or a command that calls the parser, and the call. From these the
property is kept by every step (`Keeps.step`). `Stepped.signsAt` says where in the log a step
signs.
-/

import LedgerNano.Traces

namespace LedgerNano

/-! ### Resting and calling -/

/-- An event that says nothing about the session. -/
def Event.Passive : Event → Prop
  | .sessionStart | .rightPress _ | .element _ | .computeSigs _ => False
  | _ => True

/-- What a property of sessions at rest must survive, by way of one of sessions in which the
parser is about to be called. -/
structure Keeps (sdk : Sdk) (resting calling : SignTxnContext → List Event → Prop) : Prop where
  passive : ∀ ctx event past, event.Passive → resting ctx past → resting ctx (event :: past)
  load : ∀ ctx dataBuffer dataLength log, resting ctx log →
    resting { ctx with dataBuffer, dataLength } log
  command : ∀ ctx log, ctx.txnState.resumedByCommand = true → resting ctx log → calling ctx log
  press : ∀ ctx texts log, resting ctx log → calling ctx (.rightPress texts :: log)
  start : ∀ ctx texts log, ctx.txnState = .startIn →
    calling ctx (.sessionStart :: .rightPress texts :: log)
  call : ∀ device code called, calling device.signTxnContext device.log →
    Resumed sdk (progressOf device.log) device code called →
    resting called.signTxnContext called.log

section Rule

variable {sdk : Sdk} {resting calling : SignTxnContext → List Event → Prop}
  {device after called : Device} {code : Nat}

theorem Keeps.passives (keeps : Keeps sdk resting calling) {ctx : SignTxnContext}
    {past log : List Event} (rests : resting ctx past)
    (longer : Logs.Extends Event.Passive past log) : resting ctx log := by
  obtain ⟨events, rfl, each⟩ := longer
  induction events with
  | nil => exact rests
  | cons event events inductionHypothesis =>
    obtain ⟨first, later⟩ := List.forall_mem_cons.mp each
    exact keeps.passive ctx event _ first (inductionHypothesis later)

theorem Event.OfHandler.passive {event : Event} (handled : event.OfHandler) : event.Passive := by
  cases event with
  | prepared => trivial
  | reply => trivial
  | _ => exact absurd handled id

theorem passive_of_handler {past log : List Event}
    (longer : Logs.Extends Event.OfHandler past log) : Logs.Extends Event.Passive past log := by
  obtain ⟨events, same, each⟩ := longer
  exact ⟨events, same, fun event member => (each event member).passive⟩

/-- With the code `TXN_READY` the parser is about to sign. -/
theorem Resumed.computes {progress : Progress} (resumes : Resumed sdk progress device code called)
    (ready : code = txnReady) : called.signTxnContext.txnState = .computeSigs := by
  cases resumes with
  | read call ctx tracks calls reached thrown result =>
    subst result
    have left := reached.reached
    rw [if_pos (thrown.symm.trans ready)] at left
    obtain ⟨_, before, _, same⟩ := left
    exact congrArg SignTxnContext.txnState same
  | computed signs state computes =>
    cases computes with
    | raised path table counter derived signed result =>
      subst result
      exact state
    | finished signatures derived signed each derivations result returned =>
      rcases Device.afterBatch_cases returned with ⟨_, other, _⟩ | ⟨_, other, _⟩
      · exact absurd (other.symm.trans ready) (by decide)
      · exact absurd (other.symm.trans ready) (by decide)
  | returned signs state returns =>
    rcases Device.afterBatch_cases returns with ⟨_, other, _⟩ | ⟨_, other, _⟩
    · exact absurd (other.symm.trans ready) (by decide)
    · exact absurd (other.symm.trans ready) (by decide)

theorem CommandResult.keeps_context (goes : CommandResult sdk called code after)
    (session : after.signTxnContext.initialized = true) :
    after.signTxnContext = called.signTxnContext := by
  cases goes with
  | failed thrown result =>
    subst result
    cases session
  | approve thrown result =>
    subst result
    rw [goToTransactionScreen_signTxnContext, prepareOutputApproval_signTxnContext]
  | finished thrown fits result =>
    subst result
    cases session
  | more other fits result =>
    subst result
    rfl

theorem PressResult.keeps_context (goes : PressResult sdk called code after)
    (ready : code = txnReady → called.signTxnContext.txnState = .computeSigs)
    (session : after.signTxnContext.initialized = true) :
    after.signTxnContext = called.signTxnContext := by
  cases goes with
  | more thrown fits result =>
    subst result
    rfl
  | approve thrown result =>
    subst result
    rw [prepareOutputApproval_signTxnContext]
  | last thrown fits result =>
    subst result
    rw [replyOk_signTxnContext, prepareOutputApproval_signTxnContext]
  | ready thrown fits result =>
    subst result
    rw [replyOk_signTxnContext, answerInnerHash_signTxnContext, ← ready thrown]
  | failed thrown result =>
    subst result
    cases session
  | silent other result => rw [result]

/-- The session a press calls the parser in. -/
theorem Keeps.pressed (keeps : Keeps sdk resting calling)
    (before : device.signTxnContext.initialized = true →
      resting device.signTxnContext device.log) :
    calling device.pressed.signTxnContext device.pressed.log := by
  by_cases session : device.signTxnContext.initialized = true
  · rw [pressed_going session]
    exact keeps.press _ _ _ (before session)
  · unfold Device.pressed startSession
    rw [record_signTxnContext, if_neg session]
    exact keeps.start _ _ _ rfl

/-- The session an input calls the parser in. -/
theorem Keeps.calls (keeps : Keeps sdk resting calling) {input : Input} {start : Device}
    (before : device.signTxnContext.initialized = true →
      resting device.signTxnContext device.log)
    (resumed : device.resumedBy input = some start) :
    calling start.signTxnContext start.log := by
  cases input with
  | addressScreen => cases resumed
  | apdu apdu =>
    rw [Device.resumedBy] at resumed
    split at resumed
    · rename_i all
      cases resumed
      exact keeps.command _ _ all.2.2.2
        (keeps.passive _ (.command apdu.bytes) _ trivial (keeps.load _ _ _ _ (before all.2.1)))
    · cases resumed
  | button button =>
    rw [Device.resumedBy] at resumed
    split at resumed
    · cases resumed
      exact keeps.pressed before
    · cases resumed

/-- A property that survives all of this is kept by every step. -/
theorem Keeps.step (keeps : Keeps sdk resting calling) {input : Input}
    (before : device.signTxnContext.initialized = true →
      resting device.signTxnContext device.log)
    (stepped : Stepped sdk device input after)
    (session : after.signTxnContext.initialized = true) :
    resting after.signTxnContext after.log := by
  have same : Logs.Extends Event.Passive device.log device.log := Logs.Extends.refl device.log
  have received : ∀ bytes : Bytes,
      Logs.Extends Event.Passive device.log (.command bytes :: device.log) :=
    fun _ => same.cons trivial
  have left : Logs.Extends Event.Passive device.log (.leftPress :: device.log) :=
    same.cons trivial
  have loaded : ∀ apdu : Apdu, device.signTxnContext.initialized = true →
      resting (device.loaded apdu).signTxnContext (device.loaded apdu).log :=
    fun apdu opened => keeps.passives (keeps.load _ _ _ _ (before opened)) (received apdu.bytes)
  cases stepped with
  | answered apdu command other context derived ready use payload fits result =>
    subst result payload
    exact keeps.passives (before session)
      (((received apdu.bytes).map Event.derive (fun _ => trivial) derived).cons trivial)
  | opened apdu command asked closed first result =>
    subst result
    exact loaded apdu session
  | refused apdu command asked wrong result =>
    subst result
    cases session
  | waits apdu command asked opened later state result =>
    subst result
    exact loaded apdu opened
  | resumed apdu command asked opened later state code called answered resumes goes result =>
    subst result
    have calls : calling (device.loaded apdu).signTxnContext (device.loaded apdu).log :=
      keeps.command _ _ state (loaded apdu opened)
    have rests := keeps.call _ _ _ calls resumes
    rw [resetTx_signTxnContext, resetTx_log, goes.keeps_context session]
    exact keeps.passives rests (passive_of_handler goes.extends)
  | cancelled press screen result =>
    subst result
    exact keeps.passives (before session) (left.cons trivial)
  | pressed button press right screen code called resumes goes =>
    have rests := keeps.call _ _ _ (keeps.pressed before) resumes
    rw [goes.keeps_context resumes.computes session]
    exact keeps.passives rests (passive_of_handler goes.extends)
  | shows screen elsewhere other result =>
    subst result
    exact before session

end Rule

/-! ### Where a step signs -/

/-- The event is not that of a signature being computed. -/
def Event.Unsigned (event : Event) : Prop := ¬ event.IsComputeSigs

section Signing

variable {sdk : Sdk} {device start after called : Device} {code : Nat} {input : Input}

/-- A call of the parser signs at most once, and in the state it does it in. -/
inductive SignsAt (sdk : Sdk) (start after : Device) : Prop
  | never (log : Logs.Extends Event.Unsigned start.log after.log)
  | once (signs : SignsFor sdk (progressOf start.log) start.signTxnContext)
      (state : start.signTxnContext.txnState = .computeSigs)
      (log : Logs.Extends Event.Unsigned
        (.computeSigs start.signTxnContext.txn.innerHash.contents :: start.log) after.log)

theorem unsigned_of_handler {past log : List Event}
    (longer : Logs.Extends Event.OfHandler past log) : Logs.Extends Event.Unsigned past log := by
  obtain ⟨events, same, each⟩ := longer
  refine ⟨events, same, fun event member signing => ?_⟩
  have handled := each event member
  cases event with
  | computeSigs => exact handled
  | _ => exact signing

theorem Resumed.signsAt (resumes : Resumed sdk (progressOf device.log) device code called) :
    SignsAt sdk device called := by
  cases resumes with
  | read call ctx tracks calls reached thrown result =>
    subst result
    exact SignsAt.never
      ((Logs.Extends.refl device.log).reverse_map Event.element (fun _ => id) call.records)
  | computed signs state computes =>
    refine SignsAt.once signs state ?_
    cases computes with
    | raised path table counter derived signed result =>
      subst result
      exact (Logs.Extends.refl _).map Event.derive (fun _ => id) derived
    | finished signatures derived signed each derivations result returned =>
      rw [afterBatch_log returned]
      subst result
      exact (Logs.Extends.refl _).map Event.derive (fun _ => id) derived
  | returned signs state returns =>
    refine SignsAt.never ?_
    rw [afterBatch_log returns]
    exact Logs.Extends.refl device.log

theorem SignsAt.extend (signs : SignsAt sdk start called)
    (longer : Logs.Extends Event.Unsigned called.log after.log) : SignsAt sdk start after := by
  cases signs with
  | never log => exact SignsAt.never (log.trans longer)
  | once signs state log => exact SignsAt.once signs state (log.trans longer)

/-- A step signs only where the input calls the parser. -/
theorem Stepped.signsAt (went : Stepped sdk device input after) :
    Logs.Extends Event.Unsigned device.log after.log ∨
      ∃ start, device.resumedBy input = some start ∧ SignsAt sdk start after := by
  have same : Logs.Extends Event.Unsigned device.log device.log := Logs.Extends.refl device.log
  have received : ∀ bytes : Bytes,
      Logs.Extends Event.Unsigned device.log (.command bytes :: device.log) :=
    fun _ => same.cons id
  have left : Logs.Extends Event.Unsigned device.log (.leftPress :: device.log) := same.cons id
  cases went with
  | answered apdu command other context derived ready use payload fits result =>
    subst result payload
    exact Or.inl (((received apdu.bytes).map Event.derive (fun _ => id) derived).cons id)
  | opened apdu command asked closed first result =>
    subst result
    exact Or.inl (received apdu.bytes)
  | refused apdu command asked wrong result =>
    subst result
    exact Or.inl ((received apdu.bytes).cons id)
  | waits apdu command asked session later state result =>
    subst result
    exact Or.inl (received apdu.bytes)
  | resumed apdu command asked session later state code called answered resumes goes result =>
    subst command result
    exact Or.inr ⟨_, resumedBy_command asked session later state,
      resumes.signsAt.extend (unsigned_of_handler goes.extends)⟩
  | cancelled press screen result =>
    subst result
    exact Or.inl (left.cons id)
  | pressed button press right screen code called resumes goes =>
    subst press
    exact Or.inr ⟨_, resumedBy_press right screen,
      resumes.signsAt.extend (unsigned_of_handler goes.extends)⟩
  | shows screen elsewhere other result =>
    subst result
    exact Or.inl same

/-- What every step keeps of a relation between the hashes signed and the log before them. -/
theorem Stepped.always_signing {relates : Event → List Event → Prop} {input : Input}
    (others : ∀ event past, event.Unsigned → relates event past)
    (before : Logs.Always relates device.log) (went : Stepped sdk device input after)
    (signs : ∀ start, device.resumedBy input = some start →
      start.signTxnContext.txnState = .computeSigs →
      SignsFor sdk (progressOf start.log) start.signTxnContext →
      relates (.computeSigs start.signTxnContext.txn.innerHash.contents) start.log) :
    Logs.Always relates after.log := by
  have extend : ∀ {past log : List Event}, Logs.Always relates past →
      Logs.Extends Event.Unsigned past log → Logs.Always relates log := by
    rintro past log always ⟨events, rfl, each⟩
    exact Logs.always_append always fun event member earlier =>
      others event earlier (each event member)
  rcases went.signsAt with longer | ⟨start, resumed, signing⟩
  · exact extend before longer
  have begun : Logs.Always relates start.log := by
    obtain ⟨events, same, each⟩ := resumedBy_extends resumed
    refine extend before ⟨events, same, fun event member signed => ?_⟩
    have input := each event member
    cases event with
    | computeSigs => exact input
    | _ => exact signed
  cases signing with
  | never log => exact extend begun log
  | once signs' state log =>
    exact extend (Logs.always_cons.mpr ⟨signs start resumed state signs', begun⟩) log

end Signing

end LedgerNano
