/-
This file is about the bounds of three arrays the device writes, the input table, the staging buffer
and the transport buffer, and about the end of the parser's loop.

Three things can go wrong there: the parser stores an input past its table, a press returns the
inner hash behind so much in the transport buffer that its status falls outside, or an instruction
that answers at once does so. Each is said of the device before the input (`Device.LeavesBounds`),
and a run stays within these bounds exactly when none of its inputs does one of them
(`run_in_bounds_iff`). The staging buffer and the loop of the parser are never the reason.

Other memory is not followed here. `sign` keeps the encoding of `cx_ecdsa_sign` whole, so one that
is longer than `tle_sign_tx` leaves no bounds of the model, though it does in C. Which encodings are
is said in `Conversion.lean`.
-/

import LedgerNano.Queries
import LedgerNano.InputTable

namespace LedgerNano

/-! ### Where an input leaves the bounds -/

/-- The parser is about to end with `TXN_READY`. -/
def Device.Hashes (sdk : Sdk) (device : Device) : Prop :=
  match device.signTxnContext.txnState with
  | .retSigs => False
  | .computeSigs => device.signing sdk = .error txnReady
  | _ => device.reading = some txnReady

/-- The most bytes before a status that leave room for it. -/
def roomForStatus : Nat := apduBufferLen - 2

/-- A call of the parser stores past the table, or it ends with the inner hash and `tx` leaves no
room for it; or an answer and its status do not fit behind `tx`. The array of the DER encoding in
`sign` is not among these. -/
def Device.LeavesBounds (sdk : Sdk) (device : Device) (input : Input) : Prop :=
  (∃ called ∈ device.resumedBy input, called.OverrunsTable ∨
    called.Hashes sdk ∧ roomForStatus < called.tx + sha256HashLen) ∨
  ∃ apdu, input = .apdu apdu ∧ ¬ device.AsksToSign apdu ∧
    roomForStatus < device.tx + (answerOf (device.outcome sdk apdu)).2.length

section Safety

variable {sdk : Sdk} {device called after : Device} {code : Nat} {progress : Progress}

/-! ### Where the replies fit -/

/-- A call of the parser does not fill the buffer. -/
theorem Resumed.tx_le (resumes : Resumed sdk progress device code called)
    (room : device.tx ≤ roomForStatus) : called.tx ≤ roomForStatus := by
  have batch : ∀ signed : Device, signed.tx = device.tx →
      (signed.returned signed.batch).afterBatch = (some code, called) →
        called.tx ≤ roomForStatus := by
    intro signed same returned
    have bound : device.tx ≤ 258 := room
    rw [afterBatch_tx returned]
    show signed.tx + 65 * min (signed.signTxnContext.txn.inNum - signed.signTxnContext.currObj)
      ((255 - signed.tx) / 65) ≤ 258
    rw [same]
    omega
  cases resumes with
  | read call ctx tracks calls reached thrown result =>
    subst result
    exact room
  | computed signs state computes =>
    cases computes with
    | raised path table counter derived signed result =>
      subst result
      exact room
    | finished signatures derived signed each derivations result returned =>
      exact batch signed (by rw [result]; rfl) returned
  | returned signs state returns => exact batch device rfl returns

/-- A call ends with `TXN_READY` where it is about to, and leaves `tx` alone then. -/
theorem Resumed.hashes_iff (resumes : Resumed sdk (progressOf device.log) device code called) :
    (code = txnReady ↔ device.Hashes sdk) ∧ (code = txnReady → called.tx = device.tx) := by
  have batch : ∀ signed : Device, (signed.returned signed.batch).afterBatch = (some code, called) →
      code ≠ txnReady := by
    intro signed returned ready
    rcases Device.afterBatch_cases returned with ⟨_, other, _⟩ | ⟨_, other, _⟩
    · exact absurd (other.symm.trans ready) (by decide)
    · exact absurd (other.symm.trans ready) (by decide)
  cases resumes with
  | read call ctx tracks calls reached thrown result =>
    subst thrown result
    refine ⟨?_, fun _ => rfl⟩
    unfold Device.Hashes Device.reading
    rw [tracks.state, calls]
    cases progressOf device.log <;> exact Option.some_inj.symm
  | computed signs state computes =>
    unfold Device.Hashes
    rw [state]
    cases computes with
    | raised path table counter derived signed result =>
      subst result
      have raised : device.signing sdk = .error code := signed.raised code rfl
      refine ⟨?_, fun _ => rfl⟩
      simp only [raised]
      exact ⟨fun same => by rw [same], fun same => Except.error.inj same⟩
    | finished signatures derived signed each derivations result returned =>
      have all : device.signing sdk = .ok signatures := each
      have other := batch signed returned
      simp only [all]
      exact ⟨⟨fun same => absurd same other, nofun⟩, fun same => absurd same other⟩
  | returned signs state returns =>
    have other := batch device returns
    unfold Device.Hashes
    rw [state]
    exact ⟨⟨fun same => absurd same other, False.elim⟩, fun same => absurd same other⟩

theorem ioAsyncExchangeOk_ok (room : device.tx ≤ roomForStatus) :
    ioAsyncExchangeOk device = .ok device.replyOk := by
  refine ioAsyncExchangeOk_eq ?_
  have bound : device.tx ≤ 258 := room
  show device.tx + 2 ≤ 260
  omega

/-- After a command the reply fits. -/
theorem handleSignTxnResult_ok (sdk : Sdk) (code : Nat) (room : device.tx ≤ roomForStatus) :
    ∃ after, handleSignTxnResult sdk code device = .ok after := by
  have ended : ioAsyncExchangeOk device.endSession = .ok device.endSession.replyOk :=
    ioAsyncExchangeOk_ok room
  rw [handleSignTxnResult]
  split
  · rw [ioAsyncExchangeError_eq]
    exact ⟨_, rfl⟩
  split
  · exact ⟨_, rfl⟩
  split
  · exact ⟨_, ioAsyncExchangeOk_ok room⟩
  split
  · rw [ended]
    exact ⟨_, rfl⟩
  · exact ⟨_, ioAsyncExchangeOk_ok room⟩

/-- After a press the reply fits unless it is the inner hash and there is no room for it. -/
theorem transactionScreenResult_ok_iff (sdk : Sdk) (code : Nat)
    (room : device.tx ≤ roomForStatus) :
    (∃ after, transactionScreenResult sdk code device = .ok after) ↔
      ¬ (code = txnReady ∧ roomForStatus < device.tx + sha256HashLen) := by
  have fine : ∀ {result : Except Fault Device}, code ≠ txnReady → (∃ after, result = .ok after) →
      ((∃ after, result = .ok after) ↔
        ¬ (code = txnReady ∧ roomForStatus < device.tx + sha256HashLen)) :=
    fun other ok => iff_of_true ok fun both => other both.1
  rw [transactionScreenResult]
  split
  · rename_i same
    exact fine (by rw [same]; decide) ⟨_, ioAsyncExchangeOk_ok room⟩
  split
  · rename_i same
    exact fine (by rw [same]; decide) ⟨_, rfl⟩
  split
  · rename_i same
    refine fine (by rw [same]; decide) ⟨_, ioAsyncExchangeOk_ok ?_⟩
    rw [prepareOutputApproval_tx]
    exact room
  split
  · rename_i same
    have hash : device.answerInnerHash.tx = device.tx + sha256HashLen := rfl
    rw [ioAsyncExchangeOk, ioExchangeWithCode_eq, hash]
    by_cases fits : device.tx + sha256HashLen + 2 ≤ apduBufferLen
    · rw [if_pos fits]
      refine iff_of_true ⟨_, rfl⟩ fun both => ?_
      have long : 258 < device.tx + 32 := both.2
      have short : device.tx + 32 + 2 ≤ 260 := fits
      omega
    · rw [if_neg fits]
      refine iff_of_false (fun ok => ?_) fun inside => inside ⟨same, ?_⟩
      · obtain ⟨after, none⟩ := ok
        cases none
      · have long : ¬ device.tx + 32 + 2 ≤ 260 := fits
        show 258 < device.tx + 32
        omega
  · rename_i other
    refine fine other ?_
    split
    · rw [ioAsyncExchangeError_eq]
      exact ⟨_, rfl⟩
    · exact ⟨_, rfl⟩

/-! ### One step -/

/-- What a run needs to know to tell whether the next input leaves the bounds. -/
structure Roomy (sdk : Sdk) (device : Device) : Prop where
  session : SessionInvariant sdk device
  room : device.tx ≤ roomForStatus

/-- A call of the parser has a result or stores past the table. -/
theorem called_or_overruns (session : InSession sdk (progressOf device.log) device.signTxnContext)
    (loaded : device.signTxnContext.Loaded) :
    (∃ code called, txnNextElem sdk device = .ok (code, called) ∧
      Resumed sdk (progressOf device.log) device code called ∧ ¬ device.OverrunsTable) ∨
    ((∃ fault, txnNextElem sdk device = .error fault) ∧ device.OverrunsTable) := by
  have overruns := txnNextElem_overruns_iff session loaded
  rcases txnNextElem_resumes session loaded with ⟨code, called, looped, resumes⟩ | ⟨fault, _⟩
  · refine Or.inl ⟨code, called, looped, resumes, fun holds => ?_⟩
    have fault := overruns.mpr holds
    rw [looped] at fault
    cases fault
  · exact Or.inr ⟨⟨_, fault⟩, overruns.mp fault⟩

theorem error_ne_ok {Error Value : Type} (fault : Error) :
    ¬ ∃ value : Value, (.error fault : Except Error Value) = .ok value := by
  rintro ⟨value, same⟩
  cases same

theorem map_eq_ok_iff {Error First Second : Type} {change : First → Second}
    {result : Except Error First} :
    (∃ value, change <$> result = .ok value) ↔ ∃ value, result = .ok value := by
  cases result with
  | error fault => exact iff_of_false (error_ne_ok fault) (error_ne_ok fault)
  | ok first => exact iff_of_true ⟨_, rfl⟩ ⟨_, rfl⟩

theorem resumeByCommand_ok_iff
    (session : InSession sdk (progressOf device.log) device.signTxnContext)
    (loaded : device.signTxnContext.Loaded) (room : device.tx ≤ roomForStatus) :
    (∃ after, resumeByCommand sdk device = .ok after) ↔ ¬ device.OverrunsTable := by
  rw [resumeByCommand]
  rcases called_or_overruns session loaded with
    ⟨code, called, looped, resumes, fits⟩ | ⟨⟨fault, raised⟩, overruns⟩
  · rw [looped]
    simp only
    rw [map_eq_ok_iff]
    exact iff_of_true (handleSignTxnResult_ok sdk code (resumes.tx_le room)) fits
  · rw [raised]
    exact iff_of_false (error_ne_ok fault) fun fits => fits overruns

theorem resumeByPress_ok_iff
    (session : InSession sdk (progressOf device.log) device.signTxnContext)
    (loaded : device.signTxnContext.Loaded) (room : device.tx ≤ roomForStatus) :
    (∃ after, resumeByPress sdk device = .ok after) ↔ ¬ (device.OverrunsTable ∨
      device.Hashes sdk ∧ roomForStatus < device.tx + sha256HashLen) := by
  rw [resumeByPress]
  rcases called_or_overruns session loaded with
    ⟨code, called, looped, resumes, fits⟩ | ⟨⟨fault, raised⟩, overruns⟩
  · obtain ⟨ready, kept⟩ := resumes.hashes_iff
    rw [looped]
    simp only
    rw [transactionScreenResult_ok_iff sdk code (resumes.tx_le room), ← ready, not_or,
      and_iff_right fits]
    refine not_congr (and_congr_right fun hashes => ?_)
    rw [kept hashes]
  · rw [raised]
    exact iff_of_false (error_ne_ok fault) fun both => both (Or.inl overruns)

/-- An input stays within the bounds exactly when it does none of the three things. -/
theorem step_in_bounds_iff (before : Roomy sdk device) (input : Input) :
    (∃ after, step sdk device input = .ok after) ↔ ¬ device.LeavesBounds sdk input := by
  have quiet : ∀ {result : Except Fault Device}, device.resumedBy input = none →
      (∀ apdu, input = .apdu apdu → device.AsksToSign apdu) → (∃ after, result = .ok after) →
      ((∃ after, result = .ok after) ↔ ¬ device.LeavesBounds sdk input) := by
    intro result none asks ok
    refine iff_of_true ok ?_
    rintro (⟨called, member, _⟩ | ⟨apdu, command, other, _⟩)
    · rw [none] at member
      cases member
    · exact other (asks apdu command)
  have move := step_move sdk device input
  generalize step sdk device input = result at move
  cases move with
  | answered apdu command other context derived use went =>
    subst command went
    have called : device.resumedBy (.apdu apdu) = none := if_neg fun both => other both.1
    rw [sendStatus, map_eq_ok_iff, ioExchangeWithCode_eq]
    have tx : (((device.receive apdu).used context derived).answer
        (answerOf (device.outcome sdk apdu)).2).tx =
      device.tx + (answerOf (device.outcome sdk apdu)).2.length := rfl
    rw [tx]
    constructor
    · rintro ⟨after, ok⟩ (⟨resumed, member, _⟩ | ⟨_, same, _, long⟩)
      · rw [called] at member
        cases member
      · cases same
        rw [if_neg] at ok
        · cases ok
        · have bound : 258 < device.tx + (answerOf (device.outcome sdk apdu)).2.length := long
          show ¬ device.tx + (answerOf (device.outcome sdk apdu)).2.length + 2 ≤ 260
          omega
    · intro fine
      refine ⟨_, if_pos ?_⟩
      by_contra long
      refine fine (Or.inr ⟨apdu, rfl, other, ?_⟩)
      have bound : ¬ device.tx + (answerOf (device.outcome sdk apdu)).2.length + 2 ≤ 260 := long
      show 258 < device.tx + (answerOf (device.outcome sdk apdu)).2.length
      omega
  | opened apdu command asked closed first went =>
    subst command went
    exact quiet (if_neg fun both => Bool.false_ne_true (closed.symm.trans both.2.1))
      (fun _ same => by cases same; exact asked) ⟨_, rfl⟩
  | refused apdu command asked wrong went =>
    subst command went
    exact quiet (if_neg fun both => wrong (by rw [if_pos both.2.1]; exact both.2.2.1))
      (fun _ same => by cases same; exact asked) ⟨_, rfl⟩
  | waits apdu command asked session later state went =>
    subst command went
    exact quiet (if_neg fun both => Bool.false_ne_true (state.symm.trans both.2.2.2))
      (fun _ same => by cases same; exact asked) ⟨_, rfl⟩
  | resumed apdu command asked session later state went =>
    subst command went
    have loaded := before.session.load apdu
    have zero : (device.loaded apdu).tx = 0 := rfl
    rw [resumeByCommand_ok_iff (loaded.session session) loaded.loaded (Nat.zero_le _)]
    refine not_congr ⟨fun overruns => Or.inl ⟨_, resumedBy_command asked session later state,
      Or.inl overruns⟩, ?_⟩
    rintro (⟨called, member, overruns⟩ | ⟨_, same, other, _⟩)
    · rw [resumedBy_command asked session later state] at member
      cases member
      rcases overruns with overruns | ⟨_, long⟩
      · exact overruns
      · rw [zero] at long
        exact absurd long (by decide)
    · cases same
      exact absurd asked other
  | cancelled press screen went =>
    subst press went
    exact quiet (by rw [Device.resumedBy, if_neg fun both => both.1 rfl])
      (fun _ same => by cases same) ⟨_, rfl⟩
  | pressed button press right screen went =>
    subst press went
    obtain ⟨loaded, session⟩ := before.session.pressed
    rw [resumeByPress_ok_iff session loaded (by rw [pressed_tx]; exact before.room)]
    refine not_congr ⟨fun either => Or.inl ⟨_, resumedBy_press right screen, either⟩, ?_⟩
    rintro (⟨called, member, either⟩ | ⟨_, same, _⟩)
    · rw [resumedBy_press right screen] at member
      cases member
      exact either
    · cases same
  | shows screen elsewhere other went =>
    subst went
    rcases elsewhere with rfl | ⟨button, rfl, elsewhere⟩
    · exact quiet rfl (fun _ same => by cases same) ⟨_, rfl⟩
    · exact quiet (if_neg fun both => elsewhere both.2) (fun _ same => by cases same)
        ⟨_, rfl⟩

theorem PressResult.tx_le (goes : PressResult sdk called code after)
    (room : called.tx ≤ roomForStatus) : after.tx ≤ roomForStatus := by
  cases goes with
  | more thrown fits result =>
    subst result
    exact room
  | approve thrown result =>
    subst result
    rw [prepareOutputApproval_tx]
    exact room
  | last thrown fits result =>
    subst result
    rw [replyOk_tx, prepareOutputApproval_tx]
    exact room
  | ready thrown fits result =>
    subst result
    exact Nat.le_sub_of_add_le fits
  | failed thrown result =>
    subst result
    exact room
  | silent other result =>
    subst result
    exact room

/-- Every input leaves room for a status. -/
theorem step_roomy {input : Input} (before : Roomy sdk device)
    (stepped : step sdk device input = .ok after) : Roomy sdk after := by
  refine ⟨step_session before.session stepped, ?_⟩
  have command : ∀ apdu, input = .apdu apdu → after.tx ≤ roomForStatus := by
    rintro apdu rfl
    rw [command_tx stepped]
    exact Nat.zero_le _
  cases step_stepped before.session stepped with
  | answered apdu same => exact command apdu same
  | opened apdu same => exact command apdu same
  | refused apdu same => exact command apdu same
  | waits apdu same => exact command apdu same
  | resumed apdu same => exact command apdu same
  | cancelled press screen result =>
    subst result
    exact before.room
  | pressed button press right screen code called resumes goes =>
    have room : device.pressed.tx ≤ roomForStatus := by
      rw [pressed_tx]
      exact before.room
    exact goes.tx_le (resumes.tx_le room)
  | shows screen elsewhere other result =>
    subst result
    exact before.room

end Safety

/-! ### Runs -/

section Faults

variable {sdk : Sdk} {device : Device} {code : Nat} {fault : Fault}

/-- The faults of the model that occur. -/
def Fault.Occurs (fault : Fault) : Prop := fault = .inputTable ∨ fault = .apduBuffer

theorem ioExchangeWithCode_fault {tx : Nat}
    (raised : ioExchangeWithCode code tx device = .error fault) : fault.Occurs := by
  rw [ioExchangeWithCode_eq] at raised
  split at raised
  · cases raised
  · cases raised
    exact Or.inr rfl

theorem map_fault {First Second : Type} {change : First → Second} {result : Except Fault First}
    (occurs : ∀ other, result = .error other → other.Occurs)
    (raised : change <$> result = .error fault) : fault.Occurs :=
  occurs fault (map_eq_error_iff.mp raised)

theorem txnNextElem_fault (session : InSession sdk (progressOf device.log) device.signTxnContext)
    (loaded : device.signTxnContext.Loaded) (raised : txnNextElem sdk device = .error fault) :
    fault.Occurs := by
  rcases txnNextElem_resumes session loaded with ⟨_, _, looped, _⟩ | ⟨same, _⟩
  · rw [looped] at raised
    cases raised
  · rw [same] at raised
    cases raised
    exact Or.inl rfl

theorem handleSignTxnResult_fault (raised : handleSignTxnResult sdk code device = .error fault) :
    fault.Occurs := by
  rw [handleSignTxnResult] at raised
  split at raised
  · exact map_fault (fun _ => ioExchangeWithCode_fault) raised
  split at raised
  · cases raised
  split at raised
  · exact ioExchangeWithCode_fault raised
  split at raised
  · exact map_fault (fun _ => ioExchangeWithCode_fault) raised
  · exact ioExchangeWithCode_fault raised

theorem transactionScreenResult_fault
    (raised : transactionScreenResult sdk code device = .error fault) : fault.Occurs := by
  rw [transactionScreenResult] at raised
  split at raised
  · exact ioExchangeWithCode_fault raised
  split at raised
  · cases raised
  split at raised
  · exact ioExchangeWithCode_fault raised
  split at raised
  · exact ioExchangeWithCode_fault raised
  split at raised
  · exact ioExchangeWithCode_fault raised
  · cases raised

theorem step_fault {input : Input} (invariant : SessionInvariant sdk device)
    (raised : step sdk device input = .error fault) : fault.Occurs := by
  have move := step_move sdk device input
  rw [raised] at move
  cases move with
  | answered apdu command other context derived use went =>
    exact map_fault (fun _ => ioExchangeWithCode_fault) went.symm
  | opened apdu command asked closed first went => cases went
  | refused apdu command asked wrong went => cases went
  | waits apdu command asked session later state went => cases went
  | resumed apdu command asked session later state went =>
    have before := invariant.load apdu
    rw [resumeByCommand] at went
    cases looped : txnNextElem sdk (device.loaded apdu) with
    | error other =>
      rw [looped] at went
      cases went
      exact txnNextElem_fault (before.session session) before.loaded looped
    | ok result =>
      rw [looped] at went
      exact map_fault (fun _ => handleSignTxnResult_fault) went.symm
  | cancelled press screen went => cases went
  | pressed button press right screen went =>
    obtain ⟨loaded, session⟩ := invariant.pressed
    rw [resumeByPress] at went
    cases looped : txnNextElem sdk device.pressed with
    | error other =>
      rw [looped] at went
      cases went
      exact txnNextElem_fault session loaded looped
    | ok result =>
      rw [looped] at went
      exact transactionScreenResult_fault went.symm
  | shows screen elsewhere other went => cases went

end Faults

/-- A run stays within the bounds of the input table, the staging buffer and the transport buffer,
and its calls of the parser end, exactly when no input of it does one of the three things; and where
it does not, the array is the input table or the transport buffer. What `cx_ecdsa_sign` writes into
`tle_sign_tx` is left out: the model does not bound it. -/
theorem run_in_bounds_iff (sdk : Sdk) (inputs : List Input) :
    ((∃ device, run sdk Device.boot inputs = .ok device) ↔ Runs.Along (step sdk)
        (fun device input => ¬ device.LeavesBounds sdk input) Device.boot inputs) ∧
      ∀ fault, run sdk Device.boot inputs = .error fault →
        fault = .inputTable ∨ fault = .apduBuffer :=
  ⟨Runs.run_ok_iff (fun _ _ _ before stepped => step_roomy before stepped)
      (fun _ input before => step_in_bounds_iff before input)
      ⟨session_boot sdk, Nat.zero_le _⟩,
    fun _ ran => Runs.run_fault (fun _ _ _ before stepped => step_session before stepped)
      (fun _ _ _ before raised => step_fault before raised) (session_boot sdk) ran⟩

/-- The hash and three signatures fetched by presses, and a public key behind them. -/
example : Runs.faultOf (run Sdk.plain Device.boot
    [.apdu (signApdu 0 (le32 3 ++ (List.replicate 3 sampleInput).flatten ++ le32 1 ++ sampleOutput)
        (by decide +kernel)), .button .right, .button .right, .button .right,
      .apdu { bytes := [0x80, 0x04, 0, 0, 20] ++
        [128, 0, 0, 44, 128, 0, 0, 0, 128, 0, 0, 0, 0, 0, 0, 0, 0, 0, 0, 9], fits := by decide }]) =
          some .apduBuffer := by
  decide +kernel

end LedgerNano
