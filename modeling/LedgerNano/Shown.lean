/-
This file is about whose texts are on the screen, over whole runs.

Only `prepare_output_approval` stores them, so they are always those of the output that was
prepared last (`run_prepared`), whatever the parser has read since. The two arrays are not cleared
before they are filled again; nothing of an older output is left to see, because each string is
stored with its zero.
-/

import LedgerNano.Amounts
import LedgerNano.Approval

namespace LedgerNano

/-! ### The output that was prepared last -/

/-- The output that was prepared last. -/
def lastPrepared : List Event → Option TxnOutput :=
  Logs.read none fun
    | .prepared output => some fun _ _ => some output
    | _ => none

/-- The texts are those of the output that was prepared last, and the byte before the address, the
last of `current_output_display`, is zero. -/
def Device.ShowsPrepared (sdk : Sdk) (device : Device) : Prop :=
  ∀ output, lastPrepared device.log = some output →
    textOf device.transactionContext.outAddress = addressText sdk output ∧
      textOf device.transactionContext.amount = amountText output ∧
        device.transactionContext.currentOutputDisplay.contents[screenMaxChars - 1]? = some 0

/-- The texts and the output they were prepared for are the same. -/
structure KeepsPrepared (before after : Device) : Prop where
  texts : after.transactionContext = before.transactionContext
  output : lastPrepared after.log = lastPrepared before.log

section Prepared

variable {sdk : Sdk} {device called after : Device} {code : Nat} {progress : Progress}

theorem KeepsPrepared.trans {last : Device} (first : KeepsPrepared device after)
    (second : KeepsPrepared after last) : KeepsPrepared device last :=
  ⟨second.texts.trans first.texts, second.output.trans first.output⟩

theorem KeepsPrepared.shows (keeps : KeepsPrepared device after)
    (shows : device.ShowsPrepared sdk) : after.ShowsPrepared sdk := by
  intro output prepared
  rw [keeps.texts]
  exact shows output (keeps.output ▸ prepared)

/-- A printed text leaves the last byte of a cleared array zero. -/
theorem last_storeText_sprintf (text : Bytes) :
    (storeText (Cells.fill 0 : Cells Byte screenMaxChars) (sprintf text)).contents[
      screenMaxChars - 1]? = some 0 := by
  have short : (sprintf text).length ≤ screenMaxChars - 1 := List.length_take_le _ _
  have length : (sprintf text ++ [0]).length = (sprintf text).length + 1 := List.length_append
  have sixteen : screenMaxChars = 16 := rfl
  rw [storeText, Cells.getElem?_write _ (by omega)]
  split
  · rename_i within
    have last : screenMaxChars - 1 - 0 = (sprintf text).length := by omega
    rw [last, List.getElem?_concat_length]
  · rfl

/-- `prepare_output_approval` stores the texts of the output it records. -/
theorem showsPrepared_prepared (sdk : Sdk) (device : Device) :
    (prepareOutputApproval sdk device).ShowsPrepared sdk := by
  intro output prepared
  have same : device.signTxnContext.txn.curOutput = output := Option.some.inj prepared
  subst same
  refine ⟨?_, shownAmount_eq sdk device, last_storeText_sprintf _⟩
  rw [prepareOutputApproval_outAddress]
  exact textOf_storeText _ _ (Nat.lt_succ_of_le (length_addressText sdk _))
    (encodeBase58_ne_zero _)

theorem lastPrepared_derive (derived : List (List Nat)) (past : List Event) :
    lastPrepared (derived.map Event.derive ++ past) = lastPrepared past :=
  Logs.read_map (fun _ => rfl) derived past

theorem afterBatch_keepsPrepared (ended : device.afterBatch = (some code, after)) :
    KeepsPrepared device after := by
  rcases Device.afterBatch_cases ended with ⟨_, _, rfl⟩ | ⟨_, _, rfl⟩
  · exact ⟨rfl, rfl⟩
  · exact ⟨rfl, rfl⟩

/-- The parser itself prepares nothing. -/
theorem Resumed.keepsPrepared (resumes : Resumed sdk progress device code called) :
    KeepsPrepared device called := by
  cases resumes with
  | read call ctx tracks calls reached thrown result =>
    subst result
    exact ⟨rfl, Logs.read_reverse_map (fun _ => rfl) call.records device.log⟩
  | computed signs state computes =>
    cases computes with
    | raised path table counter derived signed result =>
      subst result
      exact ⟨rfl, lastPrepared_derive derived _⟩
    | finished signatures derived signed each derivations result returned =>
      have kept : KeepsPrepared device (signed.returned signed.batch) := by
        subst result
        exact ⟨rfl, lastPrepared_derive derived _⟩
      exact kept.trans (afterBatch_keepsPrepared returned)
  | returned signs state returns =>
    have kept : KeepsPrepared device (device.returned device.batch) := ⟨rfl, rfl⟩
    exact kept.trans (afterBatch_keepsPrepared returns)

theorem replyOk_keepsPrepared (device : Device) : KeepsPrepared device device.replyOk :=
  ⟨rfl, by rw [replyOk_log]; rfl⟩

theorem CommandResult.showsPrepared (goes : CommandResult sdk called code after)
    (shows : called.ShowsPrepared sdk) : after.ShowsPrepared sdk := by
  cases goes with
  | failed thrown result =>
    subst result
    exact KeepsPrepared.shows ⟨rfl, rfl⟩ shows
  | approve thrown result =>
    subst result
    exact KeepsPrepared.shows ⟨rfl, rfl⟩ (showsPrepared_prepared sdk called)
  | finished thrown fits result =>
    subst result
    exact KeepsPrepared.shows ⟨rfl, rfl⟩ shows
  | more other fits result =>
    subst result
    exact (replyOk_keepsPrepared called).shows shows

theorem PressResult.showsPrepared (goes : PressResult sdk called code after)
    (shows : called.ShowsPrepared sdk) : after.ShowsPrepared sdk := by
  cases goes with
  | more thrown fits result =>
    subst result
    exact (replyOk_keepsPrepared called).shows shows
  | approve thrown result =>
    subst result
    exact showsPrepared_prepared sdk called
  | last thrown fits result =>
    subst result
    exact (replyOk_keepsPrepared _).shows (showsPrepared_prepared sdk called)
  | ready thrown fits result =>
    subst result
    exact (KeepsPrepared.trans ⟨rfl, rfl⟩ (replyOk_keepsPrepared called.answerInnerHash)).shows
      shows
  | failed thrown result =>
    subst result
    exact KeepsPrepared.shows ⟨rfl, rfl⟩ shows
  | silent other result =>
    subst result
    exact shows

theorem pressed_keepsPrepared (device : Device) : KeepsPrepared device device.pressed := by
  unfold Device.pressed startSession
  split <;> exact ⟨rfl, rfl⟩

/-! ### Steps and runs -/

/-- The session is sound, and the texts are those of the output that was prepared last. -/
structure PreparedInvariant (sdk : Sdk) (device : Device) : Prop where
  session : SessionInvariant sdk device
  shows : device.ShowsPrepared sdk

theorem PreparedInvariant.step {input : Input} (invariant : PreparedInvariant sdk device)
    (went : step sdk device input = .ok after) : PreparedInvariant sdk after := by
  refine ⟨step_session invariant.session went, ?_⟩
  have shows := invariant.shows
  cases step_stepped invariant.session went with
  | answered apdu command other context derived ready use payload fits result =>
    have kept : KeepsPrepared device after := by
      subst result payload
      exact ⟨rfl, lastPrepared_derive derived (.command apdu.bytes :: device.log)⟩
    exact kept.shows shows
  | opened apdu command asked closed first result =>
    subst result
    exact KeepsPrepared.shows ⟨rfl, rfl⟩ shows
  | refused apdu command asked wrong result =>
    subst result
    exact KeepsPrepared.shows ⟨rfl, rfl⟩ shows
  | waits apdu command asked session later state result =>
    subst result
    exact KeepsPrepared.shows ⟨rfl, rfl⟩ shows
  | resumed apdu command asked session later state code called answered resumes goes result =>
    subst result
    have loaded : (device.loaded apdu).ShowsPrepared sdk := KeepsPrepared.shows ⟨rfl, rfl⟩ shows
    exact KeepsPrepared.shows ⟨rfl, rfl⟩
      (goes.showsPrepared (resumes.keepsPrepared.shows loaded))
  | cancelled press screen result =>
    subst result
    exact KeepsPrepared.shows ⟨rfl, rfl⟩ shows
  | pressed button press right screen code called resumes goes =>
    exact goes.showsPrepared
      (((pressed_keepsPrepared device).trans resumes.keepsPrepared).shows shows)
  | shows screen elsewhere other result =>
    subst result
    exact KeepsPrepared.shows ⟨rfl, rfl⟩ shows

theorem preparedInvariant_boot (sdk : Sdk) : PreparedInvariant sdk Device.boot :=
  ⟨session_boot sdk, fun _ prepared => nomatch prepared⟩

end Prepared

end LedgerNano
