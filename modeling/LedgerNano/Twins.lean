/-
This file compares two runs of the signing half of the application: of two devices that
differ in what stands behind a place of the transport buffer and in the stored keys.

`Likeness` says how the stored keys are related and which logs the runs began with. The
lemmas follow a call of the parser through its passes (`txnNextElem_twins`) and the two
handlers through their answers; `button_twins` and `signs_twins` are the results for a
press and for a signing command. The condition throughout is on what is read:
`ReadsReceived` says of a call that its passes read no byte of the transport buffer behind
those received or written, and `readsReceived_of_chunk` that this holds for a chunk that
arrived whole.
-/

import LedgerNano.Session

namespace LedgerNano

/-! ### Devices that are alike -/

/-- What two devices are to have in common besides the signing context: a relation between their
stored keys, and what was added to two logs. -/
structure Likeness where
  keys : GetPublicKeyContext → GetPublicKeyContext → Prop
  pastFirst : List Event
  pastSecond : List Event
  patch : ∀ {first second}, keys first second → ∀ path : Cells Nat 5,
    path.read 0 4 = second.bip44Path.read 0 4 →
      keys { first with bip44Path := path } { second with bip44Path := path }

/-- The same events were added to the two logs. -/
def Likeness.Logs (likeness : Likeness) (first second : List Event) : Prop :=
  ∃ events, first = events ++ likeness.pastFirst ∧ second = events ++ likeness.pastSecond

/-- A device like another one, with the same transport buffer up to a limit. -/
inductive Twin (likeness : Likeness) (limit : Nat) (first : Device) : Device → Prop
  | intro (keys : GetPublicKeyContext) (apduBuffer : Cells Byte 260) (log : List Event)
      (like : likeness.keys first.getPublicKeyContext keys)
      (logs : likeness.Logs first.log log)
      (agree : Cells.AgreeTo limit first.apduBuffer apduBuffer) :
    Twin likeness limit first { first with getPublicKeyContext := keys, apduBuffer, log }

/-- The limit is the number of bytes received, or the end of what was written for the host. -/
def Twins (likeness : Likeness) (rx : Nat) (first second : Device) : Prop :=
  Twin likeness (max rx first.tx) first second

/-- Two calls that end alike. -/
def TwinResults {Result : Type} (likeness : Likeness) (rx : Nat)
    (first second : Result × Device) : Prop :=
  first.1 = second.1 ∧ Twins likeness rx first.2 second.2

/-! ### What a pass reads -/

namespace SignTxnContext

/-- The number of bytes a pass reads from the transport buffer. -/
def bytesRead (ctx : SignTxnContext) : Nat :=
  match ctx.txnState with
  | .startIn => min ctx.dataLength (4 - ctx.offset)
  | .txnIn => min ctx.dataLength (36 - ctx.offset)
  | .startOut => if ctx.dataLength < 4 then ctx.dataLength else 4 - ctx.offset
  | .txnOut =>
    if ctx.currObj = ctx.txn.outNum then 0
    else if ctx.offset + ctx.dataLength < 37 ∨
      (ctx.dataLength + 2 ^ 16 - (37 - ctx.offset)) % 2 ^ 16 < 37 then ctx.dataLength
    else 37 - ctx.offset
  | .computeSigs => 0
  | .retSigs => 0

/-- A pass reads nothing behind a place. -/
def ReadsTo (ctx : SignTxnContext) (limit : Nat) : Prop :=
  ctx.bytesRead = 0 ∨ ctx.dataBuffer + ctx.bytesRead ≤ limit

instance (ctx : SignTxnContext) (limit : Nat) : Decidable (ctx.ReadsTo limit) :=
  inferInstanceAs (Decidable (_ ∨ _))

end SignTxnContext

/-- Each pass of a call reads only bytes that were received with the command or written since. -/
def ReadsReceived (sdk : Sdk) (rx : Nat) : Nat → Device → Prop
  | 0, _ => True
  | passes + 1, device =>
    device.signTxnContext.ReadsTo (max rx device.tx) ∧
      match txnNextElemPass sdk device with
      | .ok (none, next) => ReadsReceived sdk rx passes next
      | _ => True

instance (sdk : Sdk) (rx : Nat) : ∀ passes device, Decidable (ReadsReceived sdk rx passes device)
  | 0, _ => isTrue trivial
  | passes + 1, device =>
    letI : Decidable (match txnNextElemPass sdk device with
        | .ok (none, next) => ReadsReceived sdk rx passes next
        | _ => True) :=
      match txnNextElemPass sdk device with
      | .ok (none, next) => instDecidableReadsReceived sdk rx passes next
      | .ok (some _, _) => isTrue trivial
      | .error _ => isTrue trivial
    inferInstanceAs (Decidable (_ ∧ _))

section Parser

variable {limit : Nat} {first second : Cells Byte 260} {ctx : SignTxnContext} {sdk : Sdk}

theorem read_congr {start count : Nat} (agree : Cells.AgreeTo limit first second)
    (within : count = 0 ∨ start + count ≤ limit) :
    first.read start count = second.read start count := by
  rcases within with none | inside
  · rw [none, Cells.read_zero, Cells.read_zero]
  · exact agree.read inside

theorem saveAndThrow_congr (agree : Cells.AgreeTo limit first second)
    (within : ctx.dataLength = 0 ∨ ctx.dataBuffer + ctx.dataLength ≤ limit)
    (element : Option Bytes) (code : Nat) :
    saveAndThrow first element code ctx = saveAndThrow second element code ctx := by
  unfold saveAndThrow saveDataToBuffer SignTxnContext.save
  rw [read_congr agree within]

theorem readDataToBuffer_congr {size : Nat} (agree : Cells.AgreeTo limit first second)
    (within : size - ctx.offset = 0 ∨ ctx.dataBuffer + (size - ctx.offset) ≤ limit) :
    readDataToBuffer first size ctx = readDataToBuffer second size ctx := by
  unfold readDataToBuffer SignTxnContext.fill
  simp only
  rw [read_congr agree within]

theorem txnStartIn_congr (agree : Cells.AgreeTo limit first second)
    (state : ctx.txnState = .startIn) (reads : ctx.ReadsTo limit) :
    txnStartIn first ctx = txnStartIn second ctx := by
  have count : ctx.bytesRead = min ctx.dataLength (4 - ctx.offset) := by
    rw [SignTxnContext.bytesRead, state]
  rw [SignTxnContext.ReadsTo, count] at reads
  unfold txnStartIn
  split
  · exact saveAndThrow_congr agree (by omega) _ _
  · rw [readDataToBuffer_congr agree (by omega)]

theorem txnIn_congr (agree : Cells.AgreeTo limit first second)
    (state : ctx.txnState = .txnIn) (reads : ctx.ReadsTo limit) :
    txnIn first ctx = txnIn second ctx := by
  have count : ctx.bytesRead = min ctx.dataLength (36 - ctx.offset) := by
    rw [SignTxnContext.bytesRead, state]
  rw [SignTxnContext.ReadsTo, count] at reads
  unfold txnIn
  split
  · exact saveAndThrow_congr agree (by omega) _ _
  · rw [readDataToBuffer_congr agree (by omega)]

theorem txnStartOut_congr (agree : Cells.AgreeTo limit first second)
    (state : ctx.txnState = .startOut) (reads : ctx.ReadsTo limit) :
    txnStartOut first ctx = txnStartOut second ctx := by
  have count : ctx.bytesRead =
      if ctx.dataLength < 4 then ctx.dataLength else 4 - ctx.offset := by
    rw [SignTxnContext.bytesRead, state]
  rw [SignTxnContext.ReadsTo, count] at reads
  unfold txnStartOut
  split
  · rename_i short
    rw [if_pos short] at reads
    exact saveAndThrow_congr agree reads _ _
  · rename_i enough
    rw [if_neg enough] at reads
    rw [readDataToBuffer_congr agree reads]

theorem txnOut_congr (agree : Cells.AgreeTo limit first second)
    (state : ctx.txnState = .txnOut) (reads : ctx.ReadsTo limit) :
    txnOut sdk first ctx = txnOut sdk second ctx := by
  have count : ctx.bytesRead = if ctx.currObj = ctx.txn.outNum then 0
      else if ctx.offset + ctx.dataLength < 37 ∨
        (ctx.dataLength + 2 ^ 16 - (37 - ctx.offset)) % 2 ^ 16 < 37 then ctx.dataLength
      else 37 - ctx.offset := by
    rw [SignTxnContext.bytesRead, state]
  rw [SignTxnContext.ReadsTo, count] at reads
  unfold txnOut
  split
  · rfl
  rename_i more
  rw [if_neg more] at reads
  split
  · rename_i short
    rw [if_pos (Or.inl short)] at reads
    exact saveAndThrow_congr agree reads _ _
  · rename_i enough
    have within : 37 - ctx.offset = 0 ∨ ctx.dataBuffer + (37 - ctx.offset) ≤ limit := by
      split at reads <;> omega
    rw [readDataToBuffer_congr agree within]
    cases read : readDataToBuffer second 37 ctx with
    | error fault => rfl
    | ok next =>
      simp only [bind, Except.bind]
      split
      · rename_i rest
        refine saveAndThrow_congr agree ?_ _ _
        -- What is saved behind the output is the rest of the chunk.
        rw [readDataToBuffer] at read
        split at read
        · cases read
          obtain ⟨_, sameOffset, sameBuffer, sameLength, _⟩ :=
            takeOutput_frame sdk (ctx.fill second 37)
          rw [sameOffset, sameLength] at rest
          rw [sameBuffer, sameLength]
          simp only [SignTxnContext.fill, Nat.zero_add] at rest ⊢
          rw [if_pos (Or.inr rest.1)] at reads
          omega
        · cases read
      · rfl

/-! #### A chunk that was received whole -/

/-- A chunk ends where another one ends. -/
structure SignTxnContext.SameEnd (ctx before : SignTxnContext) : Prop where
  place : ctx.dataBuffer + ctx.dataLength = before.dataBuffer + before.dataLength
  small : ctx.dataLength < 2 ^ 16

/-- What a reading keeps: the end of the chunk, and, if the loop goes round again, a reading
state. -/
structure Reading.Follows (ctx : SignTxnContext) (reading : Reading) : Prop where
  chunk : ctx.dataLength < 2 ^ 16 → reading.ctx.SameEnd ctx
  state : reading.thrown = none → reading.ctx.txnState ≠ .computeSigs

variable {apduBuffer : Cells Byte 260} {reading : Reading} {next : SignTxnContext}

theorem saveAndThrow_ok {element : Option Bytes} {code : Nat}
    (read : saveAndThrow apduBuffer element code ctx = .ok reading) :
    reading = { ctx := ctx.save apduBuffer, element, thrown := some code } := by
  unfold saveAndThrow saveDataToBuffer at read
  split at read
  · cases read
    rfl
  · cases read

theorem save_sameEnd : (ctx.save apduBuffer).SameEnd ctx :=
  ⟨rfl, Nat.two_pow_pos 16⟩

theorem saveAndThrow_follows {element : Option Bytes} {code : Nat}
    (read : saveAndThrow apduBuffer element code ctx = .ok reading) : reading.Follows ctx := by
  rw [saveAndThrow_ok read]
  exact ⟨fun _ => save_sameEnd, nofun⟩

theorem readDataToBuffer_ok {size : Nat} (read : readDataToBuffer apduBuffer size ctx = .ok next) :
    next = ctx.fill apduBuffer size := by
  rw [readDataToBuffer] at read
  split at read
  · exact (Except.ok.inj read).symm
  · cases read

/-- What is completed from the chunk is taken from its start. -/
theorem fill_sameEnd {size : Nat} (enough : size - ctx.offset ≤ ctx.dataLength)
    (small : ctx.dataLength < 2 ^ 16) : (ctx.fill apduBuffer size).SameEnd ctx := by
  refine ⟨?_, Nat.mod_lt _ (by decide)⟩
  simp only [SignTxnContext.fill]
  omega

/-- The continuation of a reading that completes an element first. -/
theorem follows_of_read {size : Nat} {rest : SignTxnContext → Except Fault Reading}
    (enough : size - ctx.offset ≤ ctx.dataLength)
    (read : (readDataToBuffer apduBuffer size ctx >>= rest) = .ok reading)
    (goes : rest (ctx.fill apduBuffer size) = .ok reading →
      reading.Follows (ctx.fill apduBuffer size)) : reading.Follows ctx := by
  obtain ⟨next, filled, done⟩ := bind_ok read
  rw [readDataToBuffer_ok filled] at done
  obtain ⟨chunk, state⟩ := goes done
  refine ⟨fun small => ?_, state⟩
  have first : (ctx.fill apduBuffer size).SameEnd ctx := fill_sameEnd enough small
  have second := chunk first.small
  exact ⟨second.place.trans first.place, second.small⟩

theorem txnStartIn_follows (read : txnStartIn apduBuffer ctx = .ok reading) :
    reading.Follows ctx := by
  unfold txnStartIn at read
  split at read
  · exact saveAndThrow_follows read
  · refine follows_of_read (by omega) read fun read => ?_
    cases read
    exact ⟨fun small => ⟨rfl, small⟩, fun _ => nofun⟩

theorem txnIn_follows (state : ctx.txnState = .txnIn)
    (read : txnIn apduBuffer ctx = .ok reading) : reading.Follows ctx := by
  unfold txnIn at read
  split at read
  · exact saveAndThrow_follows read
  · refine follows_of_read (by omega) read fun read => ?_
    split at read
    · cases read
      unfold takeInput
      simp only
      split
      · exact ⟨fun small => ⟨rfl, small⟩, fun _ => TxnState.noConfusion⟩
      · exact ⟨fun small => ⟨rfl, small⟩, fun _ compute =>
          TxnState.noConfusion (state.symm.trans compute)⟩
    · cases read

theorem txnStartOut_follows (read : txnStartOut apduBuffer ctx = .ok reading) :
    reading.Follows ctx := by
  unfold txnStartOut at read
  split at read
  · exact saveAndThrow_follows read
  · refine follows_of_read (by omega) read fun read => ?_
    cases read
    exact ⟨fun small => ⟨rfl, small⟩, fun _ => nofun⟩

theorem txnOut_follows (read : txnOut sdk apduBuffer ctx = .ok reading) : reading.Follows ctx := by
  unfold txnOut at read
  split at read
  · cases read
    exact ⟨fun small => ⟨rfl, small⟩, nofun⟩
  split at read
  · exact saveAndThrow_follows read
  · refine follows_of_read (by omega) read fun read => ?_
    simp only at read
    obtain ⟨_, _, sameBuffer, sameLength, _⟩ := takeOutput_frame sdk (ctx.fill apduBuffer 37)
    have same : ∀ {later : SignTxnContext},
        later.SameEnd (takeOutput sdk (ctx.fill apduBuffer 37)) →
          later.SameEnd (ctx.fill apduBuffer 37) :=
      fun ends => ⟨by rw [ends.place, sameBuffer, sameLength], ends.small⟩
    split at read
    · rw [saveAndThrow_ok read]
      exact ⟨fun _ => same save_sameEnd, nofun⟩
    · cases read
      exact ⟨fun small => same ⟨rfl, sameLength ▸ small⟩, nofun⟩

end Parser

/-! ### Twins after a change to both -/

section Changes

variable {likeness : Likeness} {limit : Nat} {first second : Device}

theorem Likeness.Logs.append {past other : List Event} (logs : likeness.Logs past other)
    (events : List Event) : likeness.Logs (events ++ past) (events ++ other) := by
  obtain ⟨before, rfl, rfl⟩ := logs
  exact ⟨events ++ before, by rw [List.append_assoc], by rw [List.append_assoc]⟩

theorem Twin.record (twin : Twin likeness limit first second) (event : Event) :
    Twin likeness limit (first.record event) (second.record event) := by
  obtain ⟨keys, apduBuffer, log, like, logs, agree⟩ := twin
  exact .intro keys apduBuffer (event :: log) like (logs.append [event]) agree

theorem Twin.withContext (twin : Twin likeness limit first second) (ctx : SignTxnContext) :
    Twin likeness limit { first with signTxnContext := ctx }
      { second with signTxnContext := ctx } := by
  obtain ⟨keys, apduBuffer, log, like, logs, agree⟩ := twin
  exact .intro keys apduBuffer log like logs agree

theorem Twin.withScreen (twin : Twin likeness limit first second) (screen : Screen) :
    Twin likeness limit { first with screen } { second with screen } := by
  obtain ⟨keys, apduBuffer, log, like, logs, agree⟩ := twin
  exact .intro keys apduBuffer log like logs agree

/-- The stored keys may be replaced by others that are alike. -/
theorem Twin.withKeys (twin : Twin likeness limit first second)
    {keys others : GetPublicKeyContext} (like : likeness.keys keys others) :
    Twin likeness limit { first with getPublicKeyContext := keys }
      { second with getPublicKeyContext := others } := by
  obtain ⟨_, apduBuffer, log, _, logs, agree⟩ := twin
  exact .intro others apduBuffer log like logs agree

theorem Twin.mono {shorter : Nat} (twin : Twin likeness limit first second)
    (le : shorter ≤ limit) : Twin likeness shorter first second := by
  obtain ⟨keys, apduBuffer, log, like, logs, agree⟩ := twin
  exact Twin.intro keys apduBuffer log like logs (agree.mono le)

theorem Twin.withTx (twin : Twin likeness limit first second) (tx : Nat) :
    Twin likeness limit { first with tx } { second with tx } := by
  obtain ⟨keys, apduBuffer, log, like, logs, agree⟩ := twin
  exact .intro keys apduBuffer log like logs agree

/-- Bytes written at or before the limit carry it to their end. -/
theorem Twin.write (twin : Twin likeness limit first second) {start : Nat} (values : Bytes)
    (near : start ≤ limit) (fits : start + values.length ≤ 260) :
    Twin likeness (max limit (start + values.length))
      { first with apduBuffer := first.apduBuffer.write start values }
      { second with apduBuffer := second.apduBuffer.write start values } := by
  obtain ⟨keys, apduBuffer, log, like, logs, agree⟩ := twin
  exact .intro keys _ log like logs (agree.write near fits)

theorem Twin.context (twin : Twin likeness limit first second) :
    second.signTxnContext = first.signTxnContext := by
  cases twin
  rfl

theorem Twin.tx_eq (twin : Twin likeness limit first second) : second.tx = first.tx := by
  cases twin
  rfl

theorem Twin.screen_eq (twin : Twin likeness limit first second) :
    second.screen = first.screen := by
  cases twin
  rfl

theorem Twin.like (twin : Twin likeness limit first second) :
    likeness.keys first.getPublicKeyContext second.getPublicKeyContext := by
  cases twin with
  | intro keys apduBuffer log like => exact like

theorem Twin.agree (twin : Twin likeness limit first second) :
    Cells.AgreeTo limit first.apduBuffer second.apduBuffer := by
  cases twin with
  | intro keys apduBuffer log like logs agree => exact agree

theorem Twin.logs (twin : Twin likeness limit first second) :
    likeness.Logs first.log second.log := by
  cases twin with
  | intro keys apduBuffer log like logs => exact logs

end Changes

/-! ### The signing states of two alike devices -/

section Signing

variable {likeness : Likeness} {limit rx : Nat} {first second : Device} {sdk : Sdk}

theorem record_getPublicKeyContext (device : Device) (event : Event) :
    (device.record event).getPublicKeyContext = device.getPublicKeyContext := rfl

/-- The loop over the inputs keeps all but the last word of the path, and the place of the
reply. -/
structure KeepsKeys (before after : Device) : Prop where
  address : after.getPublicKeyContext.address = before.getPublicKeyContext.address
  words : after.getPublicKeyContext.bip44Path.read 0 4 =
    before.getPublicKeyContext.bip44Path.read 0 4
  tx : after.tx = before.tx

theorem signInputs_keepsKeys {code : Option Nat} {after : Device} (remaining : Nat) {i : Nat}
    {device : Device} (went : signInputs sdk remaining i device = .ok (code, after)) :
    KeepsKeys device after := by
  induction remaining generalizing i device with
  | zero =>
    cases went
    exact ⟨rfl, rfl, rfl⟩
  | succ remaining inductionHypothesis =>
    rw [signInputs] at went
    split at went
    · rename_i inside
      have words := read_inputPath device.getPublicKeyContext.bip44Path
        (device.signTxnContext.txn.sigInput.get i inside)
      simp only at went
      split at went
      · cases went
        exact ⟨rfl, words, rfl⟩
      · obtain ⟨address, same, tx⟩ := inductionHypothesis went
        exact ⟨address, same.trans words, tx⟩
    · cases went

/-- The keys are as before once the last word is put back. -/
theorem KeepsKeys.restored {before after : Device} (keeps : KeepsKeys before after) :
    { after.getPublicKeyContext with
      bip44Path := after.getPublicKeyContext.bip44Path.write 4
        [pathWord before.getPublicKeyContext.bip44Path 4] } = before.getPublicKeyContext := by
  simp only
  rw [restore_path keeps.words, keeps.address]

/-- The first four words of the two stored paths are the same. -/
def SameWords (first second : Device) : Prop :=
  first.getPublicKeyContext.bip44Path.read 0 4 = second.getPublicKeyContext.bip44Path.read 0 4

theorem Twin.signedBy (twin : Twin likeness limit first second) {path : Cells Nat 5}
    (words : path.read 0 4 = second.getPublicKeyContext.bip44Path.read 0 4)
    (table : Cells SigInput maxInputs) (counter : Nat) (derived : List (List Nat)) :
    Twin likeness limit (first.signedBy path table counter derived)
      (second.signedBy path table counter derived) := by
  obtain ⟨keys, apduBuffer, log, like, logs, agree⟩ := twin
  exact .intro { keys with bip44Path := path } apduBuffer (derived.map Event.derive ++ log)
    (likeness.patch like path words) (logs.append _) agree

/-- The loop over the inputs. The induction is on the number of inputs left; the paths are alike
because only the first four words of the stored path go into them. -/
theorem signInputs_twins (sdk : Sdk) (remaining : Nat) {i : Nat} {first second : Device}
    (twin : Twin likeness limit first second) (words : SameWords first second) :
    Runs.Related (fun one other : Option Nat × Device => one.1 = other.1 ∧
        Twin likeness limit one.2 other.2)
      (signInputs sdk remaining i first) (signInputs sdk remaining i second) := by
  induction remaining generalizing i first second with
  | zero => exact .ok ⟨rfl, twin⟩
  | succ remaining inductionHypothesis =>
    by_cases inside : i < maxInputs
    · rw [signInputs_succ sdk remaining first inside, signInputs_succ sdk remaining second inside,
        Device.attempt, Device.attempt, Device.slotPath, Device.slotPath, twin.context,
        ← inputPath_congr words]
      have kept := (read_inputPath first.getPublicKeyContext.bip44Path
        (first.signTxnContext.txn.sigInput.get i inside)).trans words
      cases signInput sdk first.signTxnContext.txn.innerHash.contents
        (inputPath first.getPublicKeyContext.bip44Path
          (first.signTxnContext.txn.sigInput.get i inside))
        (first.signTxnContext.txn.sigInput.get i inside) with
      | error code => exact .ok ⟨rfl, twin.signedBy kept _ _ _⟩
      | ok signature => exact inductionHypothesis (twin.signedBy kept _ _ _) rfl
    · rw [signInputs, signInputs, dif_neg inside, dif_neg inside]
      exact .error _

/-- The loop that returns signatures. The induction is on its turns; each signature is written at
the end of the reply so far. -/
theorem retSigs_twins (turns : Nat) {first second : Device}
    (twins : Twins likeness rx first second) :
    Runs.Related (TwinResults likeness rx) (retSigs turns first) (retSigs turns second) := by
  induction turns generalizing first second with
  | zero => exact .error _
  | succ turns inductionHypothesis =>
    obtain ⟨keys, apduBuffer, log, like, logs, agree⟩ := twins
    have twins : Twin likeness (max rx first.tx) first
      { first with getPublicKeyContext := keys, apduBuffer, log } := .intro _ _ _ like logs agree
    rw [retSigs, retSigs]
    simp only
    by_cases last : first.signTxnContext.currObj = first.signTxnContext.txn.inNum
    · rw [if_pos last, if_pos last]
      exact .ok ⟨rfl, twins.withContext { first.signTxnContext with initialized := false }⟩
    rw [if_neg last, if_neg last]
    by_cases full : first.tx + sigLen > 255
    · rw [if_pos full, if_pos full]
      exact .ok ⟨rfl, twins⟩
    rw [if_neg full, if_neg full]
    by_cases inside : first.signTxnContext.currObj < maxInputs
    · rw [dif_pos inside, dif_pos inside]
      set signature := (first.signTxnContext.txn.sigInput.get first.signTxnContext.currObj
        inside).signature
      have length : signature.length = sigLen := Cells.length_read _ 0 sigLen (le_refl sigLen)
      have written := (twins.write signature (le_max_right rx first.tx)
        (by rw [length]; omega)).withTx (first.tx + sigLen)
      have counted := written.withContext { first.signTxnContext with
        currObj := (first.signTxnContext.currObj + 1) % 2 ^ 8 }
      refine inductionHypothesis (Twin.mono counted ?_)
      rw [length]
      exact max_le_max (le_max_left _ _) (le_refl _)
    · rw [dif_neg inside, dif_neg inside]
      exact .error _

/-- Signing the inputs and returning the first signatures. -/
theorem computeSigs_twins (twins : Twins likeness rx first second)
    (words : SameWords first second) :
    Runs.Related (TwinResults likeness rx) (computeSigs sdk first) (computeSigs sdk second) := by
  unfold computeSigs
  simp only [twins.context]
  have begun := twins.record (.computeSigs first.signTxnContext.txn.innerHash.contents)
  rcases (signInputs_twins sdk first.signTxnContext.txn.inNum begun words (i := 0)).split with
    ⟨fault, wentFirst, wentSecond⟩ |
      ⟨⟨code, left⟩, ⟨same, other⟩, wentFirst, wentSecond, alike, twin⟩
  · rw [wentFirst, wentSecond]
    exact .error fault
  · subst alike
    have keepsFirst := signInputs_keepsKeys _ wentFirst
    have keepsSecond := signInputs_keepsKeys _ wentSecond
    have twin : Twin likeness (max rx first.tx) left other := twin
    rw [wentFirst, wentSecond]
    cases code with
    | some code =>
      refine .ok ⟨rfl, ?_⟩
      rw [Twins, keepsFirst.tx]
      exact twin
    | none =>
      refine retSigs_twins 4 ?_
      have like : likeness.keys
          { left.getPublicKeyContext with
            bip44Path := left.getPublicKeyContext.bip44Path.write 4
              [pathWord first.getPublicKeyContext.bip44Path 4] }
          { other.getPublicKeyContext with
            bip44Path := other.getPublicKeyContext.bip44Path.write 4
              [pathWord second.getPublicKeyContext.bip44Path 4] } := by
        have one := keepsFirst.restored
        have two := keepsSecond.restored
        simp only [record_getPublicKeyContext] at one two
        rw [one, two]
        exact twins.like
      have restored := (twin.withKeys like).withContext
        { left.signTxnContext with currObj := 0, txnState := .retSigs }
      rw [Twins, twin.context]
      have limit : max rx left.tx = max rx first.tx := congrArg (max rx) keepsFirst.tx
      show Twin likeness (max rx left.tx) _ _
      rw [limit]
      exact restored

end Signing

/-! ### A call of the parser -/

section Call

variable {likeness : Likeness} {rx : Nat} {first second : Device} {sdk : Sdk}

theorem Twins.adopt (twins : Twins likeness rx first second) (reading : Reading) :
    TwinResults likeness rx (first.adopt reading) (second.adopt reading) := by
  refine ⟨rfl, ?_⟩
  have adopted := twins.withContext reading.ctx
  unfold Device.adopt
  cases element : reading.element with
  | none => exact adopted
  | some bytes => exact adopted.record (.element bytes)

/-- What is read is the same in both, and taken over by both. -/
theorem adopt_related {read other : Except Fault Reading} (twins : Twins likeness rx first second)
    (same : read = other) :
    Runs.Related (TwinResults likeness rx) (first.adopt <$> read) (second.adopt <$> other) := by
  subst same
  cases read with
  | error fault => exact .error fault
  | ok reading => exact .ok (twins.adopt reading)

theorem adopt_context (device : Device) (reading : Reading) :
    (device.adopt reading).2.signTxnContext = reading.ctx ∧
      (device.adopt reading).2.tx = device.tx := by
  unfold Device.adopt Device.logElement
  cases reading.element <;> exact ⟨rfl, rfl⟩

/-- A pass after which the loop goes round again. -/
structure Passes (before after : Device) : Prop where
  chunk : before.signTxnContext.dataLength < 2 ^ 16 →
    after.signTxnContext.SameEnd before.signTxnContext
  state : after.signTxnContext.txnState ≠ .computeSigs
  tx : after.tx = before.tx

theorem passes_of_adopted {device after : Device} {read : Except Fault Reading}
    (took : device.adopt <$> read = .ok (none, after))
    (follows : ∀ reading, read = .ok reading → reading.Follows device.signTxnContext) :
    Passes device after := by
  obtain ⟨reading, same, both⟩ := map_ok took
  have thrown : reading.thrown = none := (congrArg Prod.fst both).symm
  obtain ⟨chunk, state⟩ := follows reading same
  obtain ⟨context, tx⟩ := adopt_context device reading
  rw [← congrArg Prod.snd both] at context tx
  exact ⟨fun small => context ▸ chunk small, context ▸ state thrown, tx⟩

theorem txnNextElemPass_passes {device after : Device}
    (went : txnNextElemPass sdk device = .ok (none, after)) : Passes device after := by
  rw [txnNextElemPass] at went
  cases state : device.signTxnContext.txnState with
  | startIn =>
    simp only [state] at went
    exact passes_of_adopted went fun _ => txnStartIn_follows
  | txnIn =>
    simp only [state] at went
    exact passes_of_adopted went fun _ => txnIn_follows state
  | startOut =>
    simp only [state] at went
    exact passes_of_adopted went fun _ => txnStartOut_follows
  | txnOut =>
    simp only [state] at went
    exact passes_of_adopted went fun _ => txnOut_follows
  | computeSigs =>
    simp only [state] at went
    exact absurd rfl (computeSigs_throws went)
  | retSigs =>
    simp only [state] at went
    exact absurd rfl (retSigs_throws 4 went)

theorem txnNextElemPass_twins (sdk : Sdk) (twins : Twins likeness rx first second)
    (reads : first.signTxnContext.ReadsTo (max rx first.tx))
    (words : first.signTxnContext.txnState = .computeSigs → SameWords first second) :
    Runs.Related (TwinResults likeness rx) (txnNextElemPass sdk first)
      (txnNextElemPass sdk second) := by
  have agree := twins.agree
  rw [txnNextElemPass, txnNextElemPass, twins.context]
  cases state : first.signTxnContext.txnState with
  | startIn => exact adopt_related twins (txnStartIn_congr agree state reads)
  | txnIn => exact adopt_related twins (txnIn_congr agree state reads)
  | startOut => exact adopt_related twins (txnStartOut_congr agree state reads)
  | txnOut => exact adopt_related twins (txnOut_congr agree state reads)
  | computeSigs => exact computeSigs_twins twins (words state)
  | retSigs => exact retSigs_twins 4 twins

/-- The passes of a call. The induction is on their number; only the first can be one that signs. -/
theorem txnNextElemLoop_twins (passes : Nat) {first second : Device}
    (twins : Twins likeness rx first second) (reads : ReadsReceived sdk rx passes first)
    (words : first.signTxnContext.txnState = .computeSigs → SameWords first second) :
    Runs.Related (TwinResults likeness rx) (txnNextElemLoop sdk passes first)
      (txnNextElemLoop sdk passes second) := by
  induction passes generalizing first second with
  | zero => exact .error _
  | succ passes inductionHypothesis =>
    obtain ⟨here, later⟩ := reads
    rw [txnNextElemLoop, txnNextElemLoop]
    rcases (txnNextElemPass_twins sdk twins here words).split with
      ⟨fault, wentFirst, wentSecond⟩ |
        ⟨⟨code, next⟩, ⟨same, other⟩, wentFirst, wentSecond, alike, after⟩
    · rw [wentFirst, wentSecond]
      exact .error fault
    · subst alike
      rw [wentFirst] at later
      rw [wentFirst, wentSecond]
      cases code with
      | some code => exact .ok ⟨rfl, after⟩
      | none =>
        exact inductionHypothesis after later fun compute =>
          absurd compute (txnNextElemPass_passes wentFirst).state

/-- A call of the parser reads received bytes only. -/
def Device.CallReads (sdk : Sdk) (rx : Nat) (device : Device) : Prop :=
  ReadsReceived sdk rx (device.signTxnContext.dataLength + 1) device

instance (sdk : Sdk) (rx : Nat) (device : Device) : Decidable (device.CallReads sdk rx) :=
  inferInstanceAs (Decidable (ReadsReceived _ _ _ _))

theorem txnNextElem_twins (twins : Twins likeness rx first second)
    (reads : first.CallReads sdk rx)
    (words : first.signTxnContext.txnState = .computeSigs → SameWords first second) :
    Runs.Related (TwinResults likeness rx) (txnNextElem sdk first) (txnNextElem sdk second) := by
  rw [txnNextElem, txnNextElem, twins.context]
  exact txnNextElemLoop_twins _ twins reads words

/-- A pass reads nothing behind its chunk. -/
theorem bytesRead_le (ctx : SignTxnContext) : ctx.bytesRead ≤ ctx.dataLength := by
  unfold SignTxnContext.bytesRead
  cases ctx.txnState with
  | startIn => exact Nat.min_le_left _ _
  | txnIn => exact Nat.min_le_left _ _
  | startOut =>
    simp only
    split <;> omega
  | txnOut =>
    simp only
    split
    · exact Nat.zero_le _
    split <;> omega
  | computeSigs => exact Nat.zero_le _
  | retSigs => exact Nat.zero_le _

/-- A chunk that was received whole is read without anything behind it. -/
theorem readsReceived_of_chunk (passes : Nat) {device : Device}
    (whole : device.signTxnContext.dataBuffer + device.signTxnContext.dataLength ≤ rx)
    (small : device.signTxnContext.dataLength < 2 ^ 16) : ReadsReceived sdk rx passes device := by
  induction passes generalizing device with
  | zero => trivial
  | succ passes inductionHypothesis =>
    constructor
    · have read := bytesRead_le device.signTxnContext
      exact Or.inr (by omega)
    · split
      · rename_i next went
        obtain ⟨place, left⟩ := (txnNextElemPass_passes went).chunk small
        exact inductionHypothesis (by omega) left
      · trivial

end Call

/-! ### Answers -/

section Answers

variable {likeness : Likeness} {limit rx : Nat} {first second : Device} {sdk : Sdk}

theorem Twin.texts (twin : Twin likeness limit first second) :
    second.transactionContext = first.transactionContext := by
  cases twin
  rfl

theorem Twin.withTexts (twin : Twin likeness limit first second) (texts : TransactionContext) :
    Twin likeness limit { first with transactionContext := texts }
      { second with transactionContext := texts } := by
  obtain ⟨keys, apduBuffer, log, like, logs, agree⟩ := twin
  exact .intro keys apduBuffer log like logs agree

theorem Twins.prepared (twins : Twins likeness rx first second) :
    Twins likeness rx (prepareOutputApproval sdk first) (prepareOutputApproval sdk second) := by
  rw [Twins, prepareOutputApproval_tx]
  unfold prepareOutputApproval
  simp only
  rw [twins.context, twins.texts]
  exact ((twins.withContext first.signTxnContext).withTexts {
    currentOutputDisplay := storeText (Cells.fill 0) (currentOutputText first.signTxnContext)
    outAddress := storeText first.transactionContext.outAddress
      (addressText sdk first.signTxnContext.txn.curOutput)
    amount := storeText first.transactionContext.amount
      (amountText first.signTxnContext.txn.curOutput) }).record
    (.prepared first.signTxnContext.txn.curOutput)

theorem Twins.shown (twins : Twins likeness rx first second) (screen : Screen) :
    Twins likeness rx { first with screen } { second with screen } :=
  Twin.withScreen twins screen

theorem Twin.endSession (twin : Twin likeness limit first second) :
    Twin likeness limit first.endSession second.endSession := by
  rw [Device.endSession, Device.endSession, twin.context]
  exact twin.withContext _

/-- An answer whose bytes are within the limit is the same from both. -/
theorem Twin.reply (twin : Twin likeness limit first second) (code : Nat) {tx : Nat}
    (within : tx ≤ limit) (fits : tx + 2 ≤ apduBufferLen) :
    Twin likeness limit (first.reply code tx) (second.reply code tx) := by
  have sent : first.apduBuffer.read 0 tx = second.apduBuffer.read 0 tx :=
    twin.agree.read (by omega)
  have written := (twin.write (statusBytes code) within fits).record
    (.reply (first.apduBuffer.read 0 tx ++ statusBytes code))
  rw [Device.reply, Device.reply, ← sent]
  exact written.mono (le_max_left limit _)

theorem ioExchangeWithCode_twins (twin : Twin likeness limit first second) (code : Nat) {tx : Nat}
    (within : tx ≤ limit) :
    Runs.Related (fun one other => Twin likeness limit one other ∧ one.tx = first.tx)
      (ioExchangeWithCode code tx first) (ioExchangeWithCode code tx second) := by
  rw [ioExchangeWithCode_eq, ioExchangeWithCode_eq]
  by_cases fits : tx + 2 ≤ apduBufferLen
  · rw [if_pos fits, if_pos fits]
    exact .ok ⟨twin.reply code within fits, rfl⟩
  · rw [if_neg fits, if_neg fits]
    exact .error _

theorem twins_of_answer {one other : Device}
    (answered : Twin likeness (max rx first.tx) one other ∧ one.tx = first.tx) :
    Twins likeness rx one other := by
  rw [Twins, answered.2]
  exact answered.1

/-- The answers of the handlers. -/
theorem ioAsyncExchangeOk_twins (twins : Twins likeness rx first second) :
    Runs.Related (Twins likeness rx) (ioAsyncExchangeOk first) (ioAsyncExchangeOk second) := by
  rw [ioAsyncExchangeOk, ioAsyncExchangeOk, twins.tx_eq]
  exact (ioExchangeWithCode_twins twins insRetSuccess (le_max_right rx first.tx)).mono
    fun _ _ => twins_of_answer

theorem ioAsyncExchangeError_twins (twins : Twins likeness rx first second) :
    Runs.Related (Twins likeness rx) (ioAsyncExchangeError first)
      (ioAsyncExchangeError second) := by
  rw [ioAsyncExchangeError, ioAsyncExchangeError]
  exact (ioExchangeWithCode_twins twins 0x6B0 (Nat.zero_le _)).mono fun _ _ => twins_of_answer

theorem handleSignTxnResult_twins (twins : Twins likeness rx first second) (code : Nat) :
    Runs.Related (Twins likeness rx) (handleSignTxnResult sdk code first)
      (handleSignTxnResult sdk code second) := by
  have ended : Twins likeness rx first.endSession second.endSession := twins.endSession
  have shown : ∀ one other, Twins likeness rx one other →
      Twins likeness rx (showMessage one) (showMessage other) :=
    fun _ _ both => both.shown .infoText
  unfold handleSignTxnResult
  split
  · exact (ioAsyncExchangeError_twins ended).map shown
  split
  · exact .ok (twins.prepared.shown .transaction)
  split
  · exact ioAsyncExchangeOk_twins twins
  split
  · exact (ioAsyncExchangeOk_twins ended).map shown
  · exact ioAsyncExchangeOk_twins twins

/-- The inner hash is put at the start of the transport buffer, and the answer is longer by it. -/
theorem answerInnerHash_twins (twins : Twins likeness rx first second)
    (room : first.tx = 0 ∨ first.tx + sha256HashLen ≤ rx) :
    Twins likeness rx first.answerInnerHash second.answerInnerHash := by
  rw [Device.answerInnerHash, Device.answerInnerHash, twins.context, twins.tx_eq]
  have length : first.signTxnContext.txn.innerHash.contents.length = sha256HashLen :=
    first.signTxnContext.txn.innerHash.length_contents
  have written := (Twin.write twins first.signTxnContext.txn.innerHash.contents (Nat.zero_le _)
    (by rw [length]; decide)).withTx (first.tx + sha256HashLen)
  rw [length] at written
  refine Twin.mono (written.withContext
    { first.signTxnContext with txnState := .computeSigs }) ?_
  show max rx (first.tx + sha256HashLen) ≤ max (max rx first.tx) (0 + sha256HashLen)
  omega

theorem transactionScreenResult_twins (twins : Twins likeness rx first second) {code : Nat}
    (room : code = txnReady → first.tx = 0 ∨ first.tx + sha256HashLen ≤ rx) :
    Runs.Related (Twins likeness rx) (transactionScreenResult sdk code first)
      (transactionScreenResult sdk code second) := by
  unfold transactionScreenResult
  split
  · exact ioAsyncExchangeOk_twins twins
  split
  · exact .ok twins.prepared
  split
  · exact ioAsyncExchangeOk_twins twins.prepared
  split
  · rename_i ready
    exact ioAsyncExchangeOk_twins (answerInnerHash_twins twins (room ready))
  split
  · exact ioAsyncExchangeError_twins (Twin.endSession twins)
  · exact .ok twins

end Answers

/-! ### Steps -/

section Steps

variable {likeness : Likeness} {rx : Nat} {first second : Device} {sdk : Sdk} {apdu : Apdu}

/-- The call of the parser by a press reads received bytes only, and an inner hash does not lie
before bytes that were not received. -/
def Device.PressReads (sdk : Sdk) (rx : Nat) (called : Device) : Prop :=
  called.CallReads sdk rx ∧
    match txnNextElem sdk called with
    | .ok (code, after) => code = txnReady → after.tx = 0 ∨ after.tx + sha256HashLen ≤ rx
    | .error _ => True

instance (sdk : Sdk) (rx : Nat) (called : Device) : Decidable (called.PressReads sdk rx) :=
  letI : Decidable (match txnNextElem sdk called with
      | .ok (code, after) => code = txnReady → after.tx = 0 ∨ after.tx + sha256HashLen ≤ rx
      | .error _ => True) :=
    match txnNextElem sdk called with
    | .ok (code, after) =>
      inferInstanceAs (Decidable (code = txnReady → after.tx = 0 ∨ after.tx + sha256HashLen ≤ rx))
    | .error _ => isTrue trivial
  inferInstanceAs (Decidable (_ ∧ _))

theorem Twins.resetTx (twins : Twins likeness rx first second) :
    Twins likeness rx first.resetTx second.resetTx := by
  refine Twin.mono (Twin.withTx twins 0) ?_
  show max rx 0 ≤ max rx first.tx
  omega

theorem resumeByCommand_twins (twins : Twins likeness rx first second)
    (reads : first.CallReads sdk rx)
    (words : first.signTxnContext.txnState = .computeSigs → SameWords first second) :
    Runs.Related (Twins likeness rx) (resumeByCommand sdk first) (resumeByCommand sdk second) := by
  unfold resumeByCommand
  rcases (txnNextElem_twins twins reads words).split with
    ⟨fault, wentFirst, wentSecond⟩ |
      ⟨⟨code, called⟩, ⟨same, other⟩, wentFirst, wentSecond, alike, after⟩
  · rw [wentFirst, wentSecond]
    exact .error fault
  · subst alike
    rw [wentFirst, wentSecond]
    exact (handleSignTxnResult_twins after code).map fun _ _ both => both.resetTx

theorem resumeByPress_twins (twins : Twins likeness rx first second)
    (reads : first.PressReads sdk rx)
    (words : first.signTxnContext.txnState = .computeSigs → SameWords first second) :
    Runs.Related (Twins likeness rx) (resumeByPress sdk first) (resumeByPress sdk second) := by
  unfold resumeByPress
  rcases (txnNextElem_twins twins reads.1 words).split with
    ⟨fault, wentFirst, wentSecond⟩ |
      ⟨⟨code, called⟩, ⟨same, other⟩, wentFirst, wentSecond, alike, after⟩
  · rw [wentFirst, wentSecond]
    exact .error fault
  · subst alike
    have room := reads.2
    rw [wentFirst] at room
    rw [wentFirst, wentSecond]
    exact transactionScreenResult_twins after room

theorem Twins.recorded (twins : Twins likeness rx first second) (event : Event) :
    Twins likeness rx (first.record event) (second.record event) :=
  Twin.record twins event

theorem Twins.pressed (twins : Twins likeness rx first second) :
    Twins likeness rx first.pressed second.pressed := by
  have begun := twins.recorded (.rightPress first.transactionContext)
  unfold Device.pressed
  rw [twins.texts]
  unfold startSession
  rw [begun.context]
  by_cases session : (first.record
      (.rightPress first.transactionContext)).signTxnContext.initialized = true
  · rw [if_pos session, if_pos session]
    exact begun
  · rw [if_neg session, if_neg session]
    exact (begun.withContext { first.signTxnContext with
      hash := []
      txnState := .startIn
      initialized := true
      offset := 0 }).record .sessionStart

/-- What is asked of an input that is no command: a press that calls the parser makes it read
received bytes only. -/
def Device.PressAllowed (sdk : Sdk) (rx : Nat) (device : Device) (input : Input) : Prop :=
  ∀ called ∈ device.resumedBy input, called.PressReads sdk rx

instance (sdk : Sdk) (rx : Nat) (device : Device) (input : Input) :
    Decidable (device.PressAllowed sdk rx input) :=
  inferInstanceAs (Decidable (∀ called ∈ device.resumedBy input, _))

/-- An input that is no command. -/
theorem button_twins {input : Input} (twins : Twins likeness rx first second)
    (press : ∀ apdu, input ≠ .apdu apdu) (allowed : first.PressAllowed sdk rx input)
    (words : ∀ called ∈ first.resumedBy input,
      called.signTxnContext.txnState = .computeSigs → SameWords first second) :
    Runs.Related (Twins likeness rx) (step sdk first input) (step sdk second input) := by
  have screens : second.screen = first.screen := twins.screen_eq
  cases input with
  | apdu apdu => exact absurd rfl (press apdu)
  | addressScreen =>
    rw [step, step, screens]
    split
    · exact .ok (twins.shown .address)
    · exact .ok twins
  | button button =>
    cases screen : first.screen with
    | transaction =>
      by_cases left : button = .left
      · subst left
        rw [step_leftPress sdk screen, step_leftPress sdk (screens.trans screen)]
        have replied := Twin.reply (twins.recorded .leftPress) 0x6B0 (Nat.zero_le _) (by decide)
        exact .ok (Twin.withScreen replied .menu)
      · rw [step_rightPress sdk screen left, step_rightPress sdk (screens.trans screen) left]
        have calls : first.resumedBy (.button button) = some first.pressed :=
          resumedBy_press left screen
        refine resumeByPress_twins twins.pressed (allowed _ calls) fun compute => ?_
        rw [SameWords, pressed_keys, pressed_keys]
        exact words _ calls compute
    | menu =>
      rw [step, step, pressButton, pressButton, screens, screen]
      exact .ok twins
    | infoText =>
      rw [step, step, pressButton, pressButton, screens, screen]
      exact .ok (twins.shown .menu)
    | address =>
      rw [step, step, pressButton, pressButton, screens, screen]
      simp only
      split
      · exact .ok (twins.shown .menu)
      · exact .ok twins

/-- Devices that differ in the transport buffer, the stored keys, the length of an unsent answer
and their logs. -/
inductive Kin (likeness : Likeness) (first : Device) : Device → Prop
  | intro (keys : GetPublicKeyContext) (apduBuffer : Cells Byte 260) (tx : Nat) (log : List Event)
      (like : likeness.keys first.getPublicKeyContext keys) (logs : likeness.Logs first.log log) :
    Kin likeness first { first with getPublicKeyContext := keys, apduBuffer, tx, log }

theorem Twin.kin {limit : Nat} (twin : Twin likeness limit first second) :
    Kin likeness first second := by
  obtain ⟨keys, apduBuffer, log, like, logs, _⟩ := twin
  exact Kin.intro keys apduBuffer first.tx log like logs

theorem Kin.like (kin : Kin likeness first second) :
    likeness.keys first.getPublicKeyContext second.getPublicKeyContext := by
  obtain ⟨keys, apduBuffer, tx, log, like, logs⟩ := kin
  exact like

/-- With its first bytes received, a command asks both devices to sign or neither. -/
theorem asksToSign_iff (device : Device) (long : 2 ≤ apdu.bytes.length) :
    device.AsksToSign apdu ↔ byteAt apdu.bytes 0 = 0x80 ∧ byteAt apdu.bytes 1 = 0x10 := by
  unfold Device.AsksToSign
  rw [header_eq _ _ _ (by omega), header_eq _ _ _ (by omega)]
  exact ⟨fun asked => asked.2, fun asked => ⟨by omega, asked⟩⟩

/-- The loaded devices agree on the command. -/
theorem Kin.loaded (kin : Kin likeness first second) (long : 5 ≤ apdu.bytes.length) :
    Twins likeness apdu.bytes.length (first.loaded apdu) (second.loaded apdu) := by
  obtain ⟨keys, apduBuffer, tx, log, like, logs⟩ := kin
  have agree : Cells.AgreeTo (max 0 (0 + apdu.bytes.length)) (first.apduBuffer.write 0 apdu.bytes)
      (apduBuffer.write 0 apdu.bytes) := by
    have start : Cells.AgreeTo 0 first.apduBuffer apduBuffer := rfl
    exact start.write (le_refl 0) (by rw [Nat.zero_add]; exact apdu.fits)
  unfold Device.loaded
  rw [header_eq _ _ _ (by omega), header_eq _ _ _ (by omega)]
  refine .intro keys _
    (.command apdu.bytes :: log) like (logs.append [_]) (agree.mono ?_)
  show max apdu.bytes.length 0 ≤ max 0 (0 + apdu.bytes.length)
  omega

/-- A signing command whose header arrived. -/
theorem signs_twins (sdk : Sdk) (kin : Kin likeness first second) (asked : first.AsksToSign apdu)
    (long : 5 ≤ apdu.bytes.length)
    (reads : ∀ called ∈ first.resumedBy (.apdu apdu), called.CallReads sdk apdu.bytes.length)
    (words : ∀ called ∈ first.resumedBy (.apdu apdu),
      called.signTxnContext.txnState = .computeSigs → SameWords first second) :
    Runs.Related (Twins likeness apdu.bytes.length) (step sdk first (.apdu apdu))
      (step sdk second (.apdu apdu)) := by
  have loaded := kin.loaded long
  have context : second.signTxnContext = first.signTxnContext := by
    cases kin
    rfl
  have p1 : second.p1 apdu = first.p1 apdu := by
    rw [Device.p1, Device.p1, header_eq _ _ _ (by omega), header_eq _ _ _ (by omega)]
  have askedSecond : second.AsksToSign apdu :=
    (asksToSign_iff second (by omega)).mpr ((asksToSign_iff first (by omega)).mp asked)
  have refused : Runs.Related (Twins likeness apdu.bytes.length)
      (.ok (showMessage (first.loaded apdu).endSession.replyError) : Except Fault Device)
      (.ok (showMessage (second.loaded apdu).endSession.replyError)) :=
    .ok ((loaded.endSession.reply 0x6B0 (Nat.zero_le _) (by decide)).withScreen .infoText)
  rw [step_signs sdk asked, step_signs sdk askedSecond, context, p1]
  by_cases session : first.signTxnContext.initialized = true
  · rw [if_pos session, if_pos session]
    by_cases later : first.p1 apdu = 1
    · rw [if_pos later, if_pos later]
      by_cases state : first.signTxnContext.txnState.resumedByCommand = true
      · rw [if_pos state, if_pos state]
        have calls := resumedBy_command asked session later state
        exact resumeByCommand_twins loaded (reads _ calls) (words _ calls)
      · rw [if_neg state, if_neg state]
        exact .ok (loaded.shown .transaction)
    · rw [if_neg later, if_neg later]
      exact refused
  · rw [if_neg session, if_neg session]
    by_cases opens : first.p1 apdu = 0
    · rw [if_pos opens, if_pos opens]
      exact .ok (loaded.shown .transaction)
    · rw [if_neg opens, if_neg opens]
      exact refused

end Steps

end LedgerNano
