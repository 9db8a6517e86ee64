/-
This file is the rule for statements about the log of a run: which events an input adds,
and in which states. `Stepped.always` carries a relation between the event of signing and
the log before it over every input; the other events need no care there.
-/

import LedgerNano.Library.Logs
import LedgerNano.Session

namespace LedgerNano

/-! ### The hashes a log signs -/

/-- The hashes a log signs, each with the log before it. -/
def signings : List Event → List (Bytes × List Event) :=
  Logs.selected fun
    | .computeSigs innerHash => some innerHash
    | _ => none

theorem signings_split {log past : List Event} {innerHash : Bytes}
    (member : (innerHash, past) ∈ signings log) :
    ∃ later, log = later ++ .computeSigs innerHash :: past := by
  obtain ⟨later, event, split, signs⟩ := Logs.selected_split member
  cases event with
  | computeSigs hash =>
    cases signs
    exact ⟨later, split⟩
  | _ => cases signs

/-! ### What a step may sign -/

section Signing

variable {sdk : Sdk} {device after : Device} {code : Nat} {relates : Event → List Event → Prop}

/-- The event of a signature being computed. -/
def Event.IsComputeSigs : Event → Prop
  | .computeSigs _ => True
  | _ => False

/-- What the handlers add to the log after a call of the parser: texts for the screen and replies
to the host. -/
def Event.OfHandler : Event → Prop
  | .prepared _ => True
  | .reply _ => True
  | _ => False

theorem CommandResult.extends (goes : CommandResult sdk device code after) :
    Logs.Extends Event.OfHandler device.log after.log := by
  have same : Logs.Extends Event.OfHandler device.log device.log := Logs.Extends.refl device.log
  cases goes with
  | failed thrown result =>
    subst result
    exact same.cons trivial
  | approve thrown result =>
    subst result
    rw [goToTransactionScreen_log, prepareOutputApproval_log]
    exact same.cons trivial
  | finished thrown fits result =>
    subst result
    exact same.cons trivial
  | more other fits result =>
    subst result
    exact same.cons trivial

theorem PressResult.extends (goes : PressResult sdk device code after) :
    Logs.Extends Event.OfHandler device.log after.log := by
  have same : Logs.Extends Event.OfHandler device.log device.log := Logs.Extends.refl device.log
  cases goes with
  | more thrown fits result =>
    subst result
    exact same.cons trivial
  | approve thrown result =>
    subst result
    rw [prepareOutputApproval_log]
    exact same.cons trivial
  | last thrown fits result =>
    subst result
    rw [replyOk_log, prepareOutputApproval_log]
    have prepared : Logs.Extends Event.OfHandler device.log
        (.prepared device.signTxnContext.txn.curOutput :: device.log) := same.cons trivial
    exact prepared.cons trivial
  | ready thrown fits result =>
    subst result
    exact same.cons trivial
  | failed thrown result =>
    subst result
    exact same.cons trivial
  | silent other result =>
    subst result
    exact same

/-- What the handlers add needs no care. -/
theorem always_extends (others : ∀ event past, ¬ event.IsComputeSigs → relates event past)
    {past log : List Event} (before : Logs.Always relates past)
    (longer : Logs.Extends Event.OfHandler past log) : Logs.Always relates log := by
  obtain ⟨events, rfl, each⟩ := longer
  refine Logs.always_append before fun event member earlier => others event earlier ?_
  have handled := each event member
  cases event with
  | computeSigs => exact absurd handled id
  | _ => exact id

theorem always_derive (others : ∀ event past, ¬ event.IsComputeSigs → relates event past)
    (derived : List (List Nat)) {past : List Event} (before : Logs.Always relates past) :
    Logs.Always relates (derived.map Event.derive ++ past) :=
  Logs.always_map before fun path earlier => others (.derive path) earlier id

theorem afterBatch_log (ended : device.afterBatch = (some code, after)) :
    after.log = device.log := by
  rcases Device.afterBatch_cases ended with ⟨_, _, rfl⟩ | ⟨_, _, rfl⟩
  · rfl
  · rfl

/-- What a call of the parser adds to the log, where only the event of signing needs care. -/
theorem Resumed.always {progress : Progress}
    (others : ∀ event past, ¬ event.IsComputeSigs → relates event past)
    (before : Logs.Always relates device.log)
    (signing : SignsFor sdk progress device.signTxnContext →
      relates (.computeSigs device.signTxnContext.txn.innerHash.contents) device.log)
    (resumes : Resumed sdk progress device code after) : Logs.Always relates after.log := by
  cases resumes with
  | read call ctx tracks calls called thrown result =>
    subst result
    exact Logs.always_reverse_map before fun record earlier => others (.element record) earlier id
  | computed signs state computes =>
    have begun : Logs.Always relates
        (.computeSigs device.signTxnContext.txn.innerHash.contents :: device.log) :=
      ⟨signing signs, before⟩
    cases computes with
    | raised path table counter derived signed result =>
      subst result
      exact always_derive others derived begun
    | finished signatures derived signed each derivations result returned =>
      rw [afterBatch_log returned]
      subst result
      exact always_derive others derived begun
  | returned signs state returns =>
    rw [afterBatch_log returns]
    exact before

theorem pressed_log (device : Device) : device.pressed.log =
      .rightPress device.transactionContext :: device.log ∨
    device.pressed.log =
      .sessionStart :: .rightPress device.transactionContext :: device.log := by
  unfold Device.pressed startSession
  split
  · exact Or.inl rfl
  · exact Or.inr rfl

/-- What precedes a call of the parser: a command, or a press that may open a session. -/
def Event.OfInput : Event → Prop
  | .command _ => True
  | .rightPress _ => True
  | .sessionStart => True
  | _ => False

theorem resumedBy_extends {input : Input} {start : Device}
    (resumed : device.resumedBy input = some start) :
    Logs.Extends Event.OfInput device.log start.log := by
  have same : Logs.Extends Event.OfInput device.log device.log := Logs.Extends.refl device.log
  have press : Logs.Extends Event.OfInput device.log
      (.rightPress device.transactionContext :: device.log) := same.cons trivial
  cases input with
  | addressScreen => cases resumed
  | apdu apdu =>
    rw [Device.resumedBy] at resumed
    split at resumed
    · cases resumed
      exact same.cons trivial
    · cases resumed
  | button button =>
    rw [Device.resumedBy] at resumed
    split at resumed
    · cases resumed
      rcases pressed_log device with log | log
      · rw [log]
        exact press
      · rw [log]
        exact press.cons trivial
    · cases resumed

/-- What a step adds to the log, where only the event of signing needs care. -/
theorem Stepped.always {input : Input}
    (others : ∀ event past, ¬ event.IsComputeSigs → relates event past)
    (before : Logs.Always relates device.log)
    (byCommand : ∀ apdu, device.signTxnContext.initialized = true →
      SignsFor sdk (progressOf (device.loaded apdu).log) (device.loaded apdu).signTxnContext →
      relates (.computeSigs device.signTxnContext.txn.innerHash.contents) (device.loaded apdu).log)
    (byPress : SignsFor sdk (progressOf device.pressed.log) device.pressed.signTxnContext →
      relates (.computeSigs device.pressed.signTxnContext.txn.innerHash.contents)
        device.pressed.log)
    (went : Stepped sdk device input after) : Logs.Always relates after.log := by
  have received : ∀ apdu, Logs.Always relates (device.loaded apdu).log :=
    fun apdu => ⟨others _ _ id, before⟩
  cases went with
  | answered apdu command other context derived ready use payload fits result =>
    subst result payload
    exact ⟨others _ _ id, always_derive others derived (received apdu)⟩
  | opened apdu command asked closed first result =>
    subst result
    exact received apdu
  | refused apdu command asked wrong result =>
    subst result
    exact ⟨others _ _ id, received apdu⟩
  | waits apdu command asked session later state result =>
    subst result
    exact received apdu
  | resumed apdu command asked session later state code called answered resumes goes result =>
    subst result
    rw [resetTx_log]
    exact always_extends others (resumes.always others (received apdu) (byCommand apdu session))
      goes.extends
  | cancelled press screen result =>
    subst result
    exact ⟨others _ _ id, others _ _ id, before⟩
  | pressed button press right screen code called resumes goes =>
    have pressed : Logs.Always relates device.pressed.log := by
      rcases pressed_log device with same | same
      · rw [same]
        exact ⟨others _ _ id, before⟩
      · rw [same]
        exact ⟨others _ _ id, others _ _ id, before⟩
    exact always_extends others (resumes.always others pressed byPress) goes.extends
  | shows screen elsewhere other result =>
    subst result
    exact before

end Signing

/-! ### Commands and replies in a log -/

/-- The event is neither a command nor a reply. -/
def Event.Unspoken : Event → Prop
  | .command _ => False
  | .reply _ => False
  | _ => True

/-- The newest command of a log was not replied to. -/
def waiting : List Event → Bool :=
  Logs.read false fun
    | .command _ => some fun _ _ => true
    | .reply _ => some fun _ _ => false
    | _ => none

theorem waiting_ignores : Logs.Ignores Event.Unspoken waiting := by
  refine Logs.ignores_read fun event unspoken => ?_
  cases event with
  | command => exact absurd unspoken id
  | reply => exact absurd unspoken id
  | _ => rfl

theorem waiting_of_extends {past log : List Event}
    (longer : Logs.Extends Event.Unspoken past log) : waiting log = waiting past :=
  waiting_ignores.of_extends longer

/-- The host sends nothing but signing commands, and each after a reply to the one before. -/
def HostWaits (device : Device) : Input → Prop
  | .apdu apdu => device.AsksToSign apdu ∧ waiting device.log = false
  | _ => True

instance (device : Device) : ∀ input, Decidable (HostWaits device input)
  | .apdu _ => inferInstanceAs (Decidable (_ ∧ _))
  | .button _ | .addressScreen => isTrue trivial

section Unspoken

variable {sdk : Sdk} {device after : Device} {code : Nat}

/-- The parser neither takes commands nor replies. -/
theorem Resumed.unspoken {progress : Progress} (resumes : Resumed sdk progress device code after) :
    Logs.Extends Event.Unspoken device.log after.log := by
  cases resumes with
  | read call ctx tracks calls called thrown result =>
    subst result
    exact (Logs.Extends.refl device.log).reverse_map Event.element (fun _ => trivial) call.records
  | computed signs state computes =>
    have begun : Logs.Extends Event.Unspoken device.log
        (.computeSigs device.signTxnContext.txn.innerHash.contents :: device.log) :=
      (Logs.Extends.refl device.log).cons trivial
    cases computes with
    | raised path table counter derived signed result =>
      subst result
      exact begun.map Event.derive (fun _ => trivial) derived
    | finished signatures derived signed each derivations result returned =>
      rw [afterBatch_log returned]
      subst result
      exact begun.map Event.derive (fun _ => trivial) derived
  | returned signs state returns =>
    rw [afterBatch_log returns]
    exact Logs.Extends.refl device.log

theorem pressed_unspoken (device : Device) :
    Logs.Extends Event.Unspoken device.log device.pressed.log := by
  have press : Logs.Extends Event.Unspoken device.log
      (.rightPress device.transactionContext :: device.log) :=
    (Logs.Extends.refl device.log).cons trivial
  rcases pressed_log device with same | same
  · rw [same]
    exact press
  · rw [same]
    exact press.cons trivial

end Unspoken

end LedgerNano
