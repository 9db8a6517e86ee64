/-
This file is about the left button on the transaction screen: whether a rejected
transaction stays rejected.

The press answers with an error and leaves the screen, but not the session.
`rejection_final_iff` says that it is final exactly where no session was open and nothing
had been put in the transport buffer for the host: on the first screen. Otherwise the
session goes on with the next command, and the next transaction is refused.
-/

import LedgerNano.Queries

namespace LedgerNano

/-! ### What a rejected device does -/

/-- The press initializes a session. -/
def Device.StartsSession (device : Device) (input : Input) : Prop :=
  ∃ button, input = .button button ∧ button ≠ .left ∧ device.screen = .transaction ∧
    device.signTxnContext.initialized = false

/-- Of a rejected transaction the device neither returns nor continues anything. -/
structure Rejects (sdk : Sdk) (device : Device) : Prop where
  /-- A command that would continue a session is refused. -/
  refused : ∀ apdu, device.AsksToSign apdu → device.p1 apdu ≠ 0 →
    ∃ after, step sdk device (.apdu apdu) = .ok after ∧
      after.log = .reply (statusBytes 0x6B0) :: .command apdu.bytes :: device.log
  /-- A command that brings a transaction is shown to the user, not answered. -/
  accepted : ∀ apdu, device.AsksToSign apdu → device.p1 apdu = 0 →
    ∃ after, step sdk device (.apdu apdu) = .ok after ∧ after.screen = .transaction ∧
      after.log = .command apdu.bytes :: device.log
  /-- Other commands get their own answer and nothing else. -/
  framed : ∀ apdu, ¬ device.AsksToSign apdu → ExactlyFramed sdk device apdu
  /-- The buttons return nothing. -/
  pressed : ∀ input after, input.Waits → ¬ device.StartsSession input →
    step sdk device input = .ok after →
      after.log = device.log ∨ after.log = .reply (statusBytes 0x6B0) :: .leftPress :: device.log
  /-- The next session starts from nothing. -/
  restarts : Tracks sdk .startIn device.pressed.signTxnContext ∧ device.pressed.tx = 0

/-- Until a new session is started, the device goes on rejecting. -/
def RejectionFinal (sdk : Sdk) (rejected : Device) : Prop :=
  ∀ inputs device, Runs.Along (step sdk) (fun device input => ¬ device.StartsSession input)
    rejected inputs → run sdk rejected inputs = .ok device → Rejects sdk device

section Closed

variable {sdk : Sdk} {device after : Device}

/-- No session is open, and the next answer begins where the transport buffer does. -/
def Device.Closed (device : Device) : Prop :=
  device.signTxnContext.initialized = false ∧ device.tx = 0

/-- A device without a session rejects. -/
theorem Device.Closed.rejects (closed : device.Closed) : Rejects sdk device := by
  obtain ⟨session, tx⟩ := closed
  have none : ¬ device.signTxnContext.initialized = true := by
    rw [session]
    exact Bool.false_ne_true
  refine ⟨?_, ?_, fun apdu query => (exactlyFramed_iff query).mpr tx, ?_, ?_⟩
  · intro apdu asked other
    rw [step_signs sdk asked, if_neg none, if_neg other]
    exact ⟨_, rfl, rfl⟩
  · intro apdu asked first
    rw [step_signs sdk asked, if_neg none, if_pos first]
    exact ⟨_, rfl, rfl, rfl⟩
  · intro input after waits same stepped
    have move := step_move sdk device input
    rw [stepped] at move
    cases move with
    | answered apdu command => exact absurd command (waits apdu)
    | opened apdu command => exact absurd command (waits apdu)
    | refused apdu command => exact absurd command (waits apdu)
    | waits apdu command => exact absurd command (waits apdu)
    | resumed apdu command => exact absurd command (waits apdu)
    | cancelled press screen went =>
      cases went
      exact Or.inr rfl
    | pressed button press right screen went =>
      exact absurd ⟨button, press, right, screen, session⟩ same
    | shows screen elsewhere other went =>
      cases went
      exact Or.inl rfl
  · unfold Device.pressed startSession
    rw [if_neg (by rw [record_signTxnContext]; exact none)]
    exact ⟨tracks_start rfl rfl rfl, tx⟩

/-- A step that starts no session leaves none. -/
theorem Device.Closed.keeps {input : Input} (closed : device.Closed)
    (same : ¬ device.StartsSession input) (stepped : step sdk device input = .ok after) :
    after.Closed := by
  obtain ⟨session, tx⟩ := closed
  have move := step_move sdk device input
  rw [stepped] at move
  cases move with
  | answered apdu command other context derived use went =>
    obtain ⟨rfl, _⟩ := sendStatus_ok went.symm
    exact ⟨session, rfl⟩
  | opened apdu command asked closed first went =>
    cases went
    exact ⟨session, rfl⟩
  | refused apdu command asked wrong went =>
    cases went
    exact ⟨rfl, rfl⟩
  | waits apdu command asked going => exact absurd (session.symm.trans going) Bool.false_ne_true
  | resumed apdu command asked going => exact absurd (session.symm.trans going) Bool.false_ne_true
  | cancelled press screen went =>
    cases went
    exact ⟨session, tx⟩
  | pressed button press right screen went =>
    exact absurd ⟨button, press, right, screen, session⟩ same
  | shows screen elsewhere other went =>
    cases went
    exact ⟨session, tx⟩

theorem Device.Closed.final (closed : device.Closed) : RejectionFinal sdk device := by
  intro inputs last along ran
  have kept : last.Closed := Runs.run_invariant (motive := Device.Closed)
    (fun _ _ _ closed same stepped => closed.keeps same stepped) closed along ran
  exact kept.rejects

/-- Only a device without a session accepts a transaction and answers other commands alone. -/
theorem Rejects.closed (rejects : Rejects sdk device) : device.Closed := by
  obtain ⟨asked, first⟩ := asksToSign_signApdu device 0 [] (by decide)
  obtain ⟨after, stepped, _, accepted⟩ := rejects.accepted _ asked first
  constructor
  · cases session : device.signTxnContext.initialized with
    | false => rfl
    | true =>
      rw [step_signs sdk asked, if_pos session, if_neg (by rw [first]; decide)] at stepped
      cases stepped
      rw [showMessage_log, replyError_log] at accepted
      exact absurd (List.cons.inj accepted).1 Event.noConfusion
  · refine (exactlyFramed_iff ?_).mp (rejects.framed versionApdu ?_)
    all_goals
      intro asked
      have ins := asked.2.2
      rw [header_eq _ _ _ (by decide)] at ins
      exact absurd ins (by decide)

/-- A left press on the transaction screen is a final rejection if and only if no session was open
and nothing had been put in the transport buffer for the host. -/
theorem rejection_final_iff (screen : device.screen = .transaction)
    (pressed : step sdk device (.button .left) = .ok after) :
    RejectionFinal sdk after ↔ device.signTxnContext.initialized = false ∧ device.tx = 0 := by
  rw [step_leftPress sdk screen] at pressed
  cases pressed
  have same : (uiIdle (device.record .leftPress).replyError).Closed ↔
      device.signTxnContext.initialized = false ∧ device.tx = 0 := Iff.rfl
  rw [← same]
  exact ⟨fun final => (final [] _ trivial rfl).closed, fun closed => closed.final⟩

end Closed

/-- A transaction that is rejected on the first screen. -/
theorem rejection_final_iff_sample : ∃ device after : Device,
    run Sdk.plain Device.boot (sampleSession.take 1) = .ok device ∧
      step Sdk.plain device (.button .left) = .ok after ∧ RejectionFinal Sdk.plain after := by
  have ends : Runs.Ends (fun device : Device => device.screen = .transaction ∧
      device.signTxnContext.initialized = false ∧ device.tx = 0)
      (run Sdk.plain Device.boot (sampleSession.take 1)) := by decide +kernel
  obtain ⟨device, ran, screen, first⟩ := Runs.exists_of_ends ends
  have pressed := step_leftPress Sdk.plain screen
  exact ⟨device, _, ran, pressed, (rejection_final_iff screen pressed).mpr first⟩

/-- A transaction that is rejected on its output: the session stays open. -/
theorem rejection_can_be_undone : ¬ ∀ (sdk : Sdk) (inputs : List Input) (device after : Device),
    run sdk Device.boot inputs = .ok device → device.screen = .transaction →
      step sdk device (.button .left) = .ok after → RejectionFinal sdk after := by
  have ends : Runs.Ends (fun device : Device => device.screen = .transaction ∧
      device.signTxnContext.initialized = true)
      (run Sdk.plain Device.boot (sampleSession.take 2)) := by decide +kernel
  obtain ⟨device, ran, screen, session⟩ := Runs.exists_of_ends ends
  intro all
  have pressed := step_leftPress Sdk.plain screen
  have final := all Sdk.plain _ device _ ran screen pressed
  have closed : device.Closed := (final [] _ trivial rfl).closed
  exact absurd (closed.1.symm.trans session) Bool.false_ne_true

end LedgerNano
