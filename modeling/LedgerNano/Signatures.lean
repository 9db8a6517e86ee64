/-
This file says what the two signing states do to the device.

`signInputs_signs` is the loop of `TXN_COMPUTE_SIGS`: each slot of the table is replaced
by the signature of the input it held, under the stored path with that input's index as
its last word. `retSigs_returns` is the loop of `TXN_RET_SIGS`: it copies as many of the
signatures that are left as the reply has room for.
-/

import LedgerNano.Signing

namespace LedgerNano

/-! ### The stored path -/

/-- Two paths that differ in the last word only give the same path to an input. -/
theorem write_last_congr {first second : Cells Nat 5} (same : first.read 0 4 = second.read 0 4)
    (word : Nat) : first.write 4 [word] = second.write 4 [word] := by
  have lengthFirst := first.length_contents
  have lengthSecond := second.length_contents
  simp only [Cells.read, List.drop_zero] at same
  apply Cells.ext
  rw [Cells.contents_write _ _ _ (le_refl 5), Cells.contents_write _ _ _ (le_refl 5), same,
    List.length_singleton, List.drop_eq_nil_of_le (le_of_eq lengthFirst),
    List.drop_eq_nil_of_le (le_of_eq lengthSecond)]

theorem read_inputPath (path : Cells Nat 5) (slot : SigInput) :
    (inputPath path slot).read 0 4 = path.read 0 4 :=
  path.read_write_before 4 _ 0 4 (le_refl 5) (le_refl 4)

theorem inputPath_congr {first second : Cells Nat 5} (same : first.read 0 4 = second.read 0 4)
    (slot : SigInput) : inputPath first slot = inputPath second slot :=
  write_last_congr same _

/-- Putting the last word back restores the path. -/
theorem restore_path {path changed : Cells Nat 5} (same : changed.read 0 4 = path.read 0 4) :
    changed.write 4 [pathWord path 4] = path := by
  have whole : path.read 4 1 = [pathWord path 4] := by
    have inside := path.read_succ 4 0 (by decide)
    rw [inside, pathWord, inside]
    rfl
  have length := path.length_contents
  have last : path.contents.drop 4 = [pathWord path 4] := by
    rw [← whole, Cells.read, List.take_of_length_le]
    rw [List.length_drop, length]
  rw [write_last_congr same]
  apply Cells.ext
  rw [Cells.contents_write _ _ _ (le_refl 5), List.length_singleton,
    List.drop_eq_nil_of_le (le_of_eq length), List.append_nil, ← last, List.take_append_drop]

/-! ### `TXN_COMPUTE_SIGS` -/

/-- The device after the loop over the inputs, with the paths derived, the newest first. -/
def Device.signedBy (device : Device) (path : Cells Nat 5) (table : Cells SigInput maxInputs)
    (counter : Nat) (derived : List (List Nat)) : Device :=
  { device with
    getPublicKeyContext.bip44Path := path
    signTxnContext.txn.sigInput := table
    signTxnContext.currObj := counter
    log := derived.map Event.derive ++ device.log }

theorem Device.signedBy_signedBy (device : Device) (path later : Cells Nat 5)
    (table last : Cells SigInput maxInputs) (counter count : Nat) (derived more : List (List Nat)) :
    (device.signedBy path table counter derived).signedBy later last count more =
      device.signedBy later last count (more ++ derived) := by
  simp only [Device.signedBy, List.map_append, List.append_assoc]

/-- The signature of a slot under the inner hash and the path of a device. -/
def Device.attempt (sdk : Sdk) (device : Device) (slot : SigInput) : Except Nat SigInput :=
  signInput sdk device.signTxnContext.txn.innerHash.contents
    (inputPath device.getPublicKeyContext.bip44Path slot) slot

/-- The path derived for a slot. -/
def Device.slotPath (device : Device) (slot : SigInput) : List Nat :=
  (inputPath device.getPublicKeyContext.bip44Path slot).contents

/-- One turn of the loop over the inputs. -/
theorem signInputs_succ (sdk : Sdk) (remaining : Nat) {i : Nat} (device : Device)
    (inside : i < maxInputs) :
    signInputs sdk (remaining + 1) i device =
      match device.attempt sdk (device.signTxnContext.txn.sigInput.get i inside) with
      | .error code => .ok (some code, device.signedBy
          (inputPath device.getPublicKeyContext.bip44Path
            (device.signTxnContext.txn.sigInput.get i inside))
          device.signTxnContext.txn.sigInput device.signTxnContext.currObj
          [device.slotPath (device.signTxnContext.txn.sigInput.get i inside)])
      | .ok signature => signInputs sdk remaining (i + 1) (device.signedBy
          (inputPath device.getPublicKeyContext.bip44Path
            (device.signTxnContext.txn.sigInput.get i inside))
          (device.signTxnContext.txn.sigInput.set i signature)
          ((device.signTxnContext.currObj + 1) % 2 ^ 8)
          [device.slotPath (device.signTxnContext.txn.sigInput.get i inside)]) := by
  rw [signInputs, dif_pos inside]
  rfl

/-- What the loop has done so far does not change the attempt at a slot. -/
theorem attempt_signedBy (sdk : Sdk) {device : Device} {path : Cells Nat 5}
    (samePath : path.read 0 4 = device.getPublicKeyContext.bip44Path.read 0 4)
    (table : Cells SigInput maxInputs) (counter : Nat) (derived : List (List Nat)) :
    (device.signedBy path table counter derived).attempt sdk = device.attempt sdk := by
  funext slot
  simp only [Device.attempt, Device.signedBy]
  rw [inputPath_congr samePath slot]

/-- A signature is stored in its own slot. -/
theorem read_set_after {count : Nat} (table : Cells SigInput maxInputs) {i : Nat}
    (here : i < maxInputs) (signature : SigInput) :
    (table.set i signature).read (i + 1) count = table.read (i + 1) count := by
  rw [Cells.set_eq_write _ _ _ here]
  exact Cells.read_write_after _ i [signature] _ _ here (le_refl _)

/-- The items of a list up to the first at which an attempt fails, that one included. -/
def reached {Item Result Error : Type} (attempt : Item → Except Error Result) :
    List Item → List Item
  | [] => []
  | item :: rest =>
    item :: match attempt item with
      | .error _ => []
      | .ok _ => reached attempt rest

/-- Where no attempt fails, all items are reached. -/
theorem reached_of_ok {Item Result Error : Type} {attempt : Item → Except Error Result}
    {items : List Item} {results : List Result} (each : items.mapM attempt = .ok results) :
    reached attempt items = items := by
  induction items generalizing results with
  | nil => rfl
  | cons item rest inductionHypothesis =>
    rw [List.mapM_cons] at each
    rw [reached]
    cases first : attempt item with
    | error error =>
      rw [first] at each
      cases each
    | ok result =>
      rw [first] at each
      cases later : rest.mapM attempt with
      | error error =>
        simp only [later, bind, Except.bind] at each
        cases each
      | ok more =>
        simp only
        rw [inductionHypothesis later]

theorem length_mapM {Item Result Error : Type} {attempt : Item → Except Error Result}
    {items : List Item} {results : List Result} (each : items.mapM attempt = .ok results) :
    results.length = items.length := by
  induction items generalizing results with
  | nil =>
    cases each
    rfl
  | cons item rest inductionHypothesis =>
    rw [List.mapM_cons] at each
    cases first : attempt item with
    | error error =>
      rw [first] at each
      cases each
    | ok result =>
      rw [first] at each
      cases later : rest.mapM attempt with
      | error error =>
        simp only [later, bind, Except.bind] at each
        cases each
      | ok more =>
        simp only [later, bind, Except.bind, pure, Except.pure] at each
        cases each
        rw [List.length_cons, List.length_cons, inductionHypothesis later]

/-- What the loop over `remaining` slots from `i` leaves in a device. -/
structure Signed (sdk : Sdk) (device : Device) (i remaining : Nat) (code : Option Nat)
    (path : Cells Nat 5) (table : Cells SigInput maxInputs) (counter : Nat)
    (derived : List (List Nat)) : Prop where
  samePath : path.read 0 4 = device.getPublicKeyContext.bip44Path.read 0 4
  derivations : derived.reverse = (reached (device.attempt sdk)
    (device.signTxnContext.txn.sigInput.read i remaining)).map device.slotPath
  small : counter < 2 ^ 8
  raised : ∀ exception, code = some exception →
    (device.signTxnContext.txn.sigInput.read i remaining).mapM (device.attempt sdk) =
      .error exception
  finished : code = none → ∃ signatures,
    (device.signTxnContext.txn.sigInput.read i remaining).mapM (device.attempt sdk) =
        .ok signatures ∧
      table = device.signTxnContext.txn.sigInput.write i signatures

/-- The loop over the inputs, when the slots are inside the table. The induction is on the number
of slots left; a signature is stored in its own slot, so that the later slots still hold their
inputs. -/
theorem signInputs_signs (sdk : Sdk) (remaining i : Nat) (device : Device)
    (inside : i + remaining ≤ maxInputs) (small : device.signTxnContext.currObj < 2 ^ 8) :
    ∃ code path table counter derived,
      signInputs sdk remaining i device =
        .ok (code, device.signedBy path table counter derived) ∧
      Signed sdk device i remaining code path table counter derived := by
  induction remaining generalizing i device with
  | zero =>
    refine ⟨none, device.getPublicKeyContext.bip44Path, device.signTxnContext.txn.sigInput,
      device.signTxnContext.currObj, [], rfl, rfl, ?_, small, nofun, fun _ => ⟨[], ?_, ?_⟩⟩
    · rw [Cells.read_zero]
      rfl
    · rw [Cells.read_zero]
      rfl
    · rw [Cells.write_nil]
  | succ remaining inductionHypothesis =>
    have here : i < maxInputs := by omega
    set slot := device.signTxnContext.txn.sigInput.get i here with slotIs
    set path := inputPath device.getPublicKeyContext.bip44Path slot with pathIs
    have samePath : path.read 0 4 = device.getPublicKeyContext.bip44Path.read 0 4 :=
      read_inputPath _ slot
    have slots : device.signTxnContext.txn.sigInput.read i (remaining + 1) =
        slot :: device.signTxnContext.txn.sigInput.read (i + 1) remaining :=
      Cells.read_succ _ _ _ here
    rw [signInputs_succ sdk remaining device here, ← slotIs, ← pathIs]
    cases attempted : device.attempt sdk slot with
    | error code =>
      refine ⟨some code, path, device.signTxnContext.txn.sigInput,
        device.signTxnContext.currObj, [path.contents], rfl, samePath, ?_, small, ?_, nofun⟩
      · rw [slots, reached, attempted]
        rfl
      · intro exception thrown
        cases thrown
        rw [slots, List.mapM_cons, attempted]
        rfl
    | ok signature =>
      simp only
      obtain ⟨code, lastPath, table, counter, derived, looped, signed⟩ :=
        inductionHypothesis (i + 1)
          (device.signedBy path (device.signTxnContext.txn.sigInput.set i signature)
            ((device.signTxnContext.currObj + 1) % 2 ^ 8) [path.contents]) (by omega)
          (Nat.mod_lt _ (by decide))
      have later : (device.signTxnContext.txn.sigInput.set i signature).read (i + 1) remaining =
          device.signTxnContext.txn.sigInput.read (i + 1) remaining :=
        read_set_after _ here signature
      have laterPath : (device.signedBy path (device.signTxnContext.txn.sigInput.set i signature)
          ((device.signTxnContext.currObj + 1) % 2 ^ 8) [path.contents]).slotPath =
            device.slotPath := by
        funext other
        exact congrArg Cells.contents (inputPath_congr samePath other)
      have laterAttempt := attempt_signedBy sdk samePath
        (device.signTxnContext.txn.sigInput.set i signature)
        ((device.signTxnContext.currObj + 1) % 2 ^ 8) [path.contents]
      have derivations := signed.derivations
      have raised := signed.raised
      have finished := signed.finished
      rw [laterAttempt, laterPath] at derivations
      rw [laterAttempt] at raised finished
      simp only [Device.signedBy, later] at derivations raised finished
      refine ⟨code, lastPath, table, counter, derived ++ [path.contents], ?_,
        signed.samePath.trans samePath, ?_, signed.small, ?_, ?_⟩
      · rw [← Device.signedBy_signedBy, ← looped]
        rfl
      · rw [slots, reached, attempted, List.map_cons, List.reverse_append, derivations]
        rfl
      · intro exception thrown
        rw [slots, List.mapM_cons, attempted, raised exception thrown]
        rfl
      · intro none
        obtain ⟨signatures, each, stored⟩ := finished none
        refine ⟨signature :: signatures, ?_, ?_⟩
        · rw [slots, List.mapM_cons, attempted, each]
          rfl
        · have length := length_mapM each
          rw [Cells.length_read _ _ _ (by omega)] at length
          rw [stored, Cells.set_eq_write _ _ _ here]
          exact Cells.write_write_append _ i [signature] signatures
            (by simp only [List.length_append, List.length_singleton]; omega)

/-! ### `TXN_RET_SIGS` -/

/-- The signatures of the slots from `start`. -/
def SignTxnContext.signatures (ctx : SignTxnContext) (start count : Nat) : List Bytes :=
  (ctx.txn.sigInput.read start count).map SigInput.signature

/-- The number of signatures the next reply has room for and the session still owes. -/
def Device.batch (device : Device) : Nat :=
  min (device.signTxnContext.txn.inNum - device.signTxnContext.currObj) ((255 - device.tx) / sigLen)

/-- The device after `count` signatures were copied to the reply. -/
def Device.returned (device : Device) (count : Nat) : Device :=
  { device with
    apduBuffer := device.apduBuffer.write device.tx
      (device.signTxnContext.signatures device.signTxnContext.currObj count).flatten
    signTxnContext.currObj := device.signTxnContext.currObj + count
    tx := device.tx + sigLen * count }

theorem length_signature (slot : SigInput) : slot.signature.length = sigLen :=
  slot.length_read 0 sigLen (by decide)

theorem length_signatures (ctx : SignTxnContext) (start count : Nat)
    (inside : start + count ≤ maxInputs) :
    (ctx.signatures start count).flatten.length = sigLen * count := by
  have each : ∀ bytes ∈ ctx.signatures start count, bytes.length = sigLen := by
    intro bytes member
    obtain ⟨slot, _, rfl⟩ := List.mem_map.mp member
    exact length_signature slot
  have number : (ctx.signatures start count).length = count := by
    rw [SignTxnContext.signatures, List.length_map, Cells.length_read _ _ _ inside]
  rw [List.length_flatten, List.map_congr_left each, List.map_const', List.sum_replicate_nat,
    number, Nat.mul_comm]

theorem Device.returned_zero (device : Device) : device.returned 0 = device := by
  rw [Device.returned, SignTxnContext.signatures, Cells.read_zero, List.map_nil,
    List.flatten_nil, Cells.write_nil]
  rfl

/-- Signatures may be copied one after the other. -/
theorem Device.returned_returned (device : Device) (first second : Nat)
    (inside : device.signTxnContext.currObj + (first + second) ≤ maxInputs)
    (fits : device.tx + sigLen * (first + second) ≤ apduBufferLen) :
    (device.returned first).returned second = device.returned (first + second) := by
  have split : device.signTxnContext.signatures device.signTxnContext.currObj (first + second) =
      device.signTxnContext.signatures device.signTxnContext.currObj first ++
        device.signTxnContext.signatures (device.signTxnContext.currObj + first) second := by
    rw [SignTxnContext.signatures, Cells.read_add, List.map_append]
    rfl
  have front := length_signatures device.signTxnContext device.signTxnContext.currObj first
    (by omega)
  have both := length_signatures device.signTxnContext device.signTxnContext.currObj
    (first + second) inside
  have written := device.apduBuffer.write_write_append device.tx
    (device.signTxnContext.signatures device.signTxnContext.currObj first).flatten
    (device.signTxnContext.signatures (device.signTxnContext.currObj + first) second).flatten
    (by rw [← List.flatten_append, ← split, both]; exact fits)
  rw [front, ← List.flatten_append, ← split] at written
  unfold Device.returned
  rw [← written]
  simp only [Nat.mul_add, Nat.add_assoc]
  rfl

theorem Device.batch_returned (device : Device) (count : Nat) :
    (device.returned count).batch = device.batch - count := by
  have same : (255 - (device.tx + 65 * count)) / 65 = (255 - device.tx) / 65 - count := by omega
  simp only [Device.batch, Device.returned, sigLen]
  omega

/-- The end of a turn: the code thrown, and the session closed with the last signature. -/
def Device.afterBatch (device : Device) : Option Nat × Device :=
  if device.signTxnContext.currObj = device.signTxnContext.txn.inNum then
    (some txnFinished, { device with signTxnContext.initialized := false })
  else
    (some txnPartial, device)

/-- One signature more, where one is owed and the reply has room. -/
theorem retSigs_turn (turns : Nat) (device : Device)
    (owed : device.signTxnContext.currObj < device.signTxnContext.txn.inNum)
    (inside : device.signTxnContext.txn.inNum ≤ maxInputs) (room : device.tx + sigLen ≤ 255) :
    retSigs (turns + 1) device = retSigs turns (device.returned 1) := by
  have here : device.signTxnContext.currObj < maxInputs := lt_of_lt_of_le owed inside
  have bound : device.signTxnContext.currObj < 20 := here
  have one : device.signTxnContext.signatures device.signTxnContext.currObj 1 =
      [(device.signTxnContext.txn.sigInput.get device.signTxnContext.currObj here).signature] := by
    rw [SignTxnContext.signatures, Cells.read_succ _ _ _ here, Cells.read_zero]
    rfl
  have counted : (device.signTxnContext.currObj + 1) % 2 ^ 8 =
      device.signTxnContext.currObj + 1 := Nat.mod_eq_of_lt (by omega)
  rw [retSigs]
  simp only
  rw [if_neg (Nat.ne_of_lt owed), if_neg (not_lt.mpr room), dif_pos here, counted,
    Device.returned, one, List.flatten_cons, List.flatten_nil, List.append_nil]
  rfl

/-- The loop of `TXN_RET_SIGS`: the reply gets the signatures it has room for. -/
theorem retSigs_returns (turns : Nat) (device : Device)
    (bound : device.signTxnContext.currObj ≤ device.signTxnContext.txn.inNum)
    (inside : device.signTxnContext.txn.inNum ≤ maxInputs) (fuel : device.batch < turns) :
    retSigs turns device = .ok (device.returned device.batch).afterBatch := by
  induction turns generalizing device with
  | zero => exact absurd fuel (Nat.not_lt_zero _)
  | succ turns inductionHypothesis =>
    by_cases all : device.signTxnContext.currObj = device.signTxnContext.txn.inNum
    · have zero : device.batch = 0 := by
        rw [Device.batch, all, Nat.sub_self, Nat.zero_min]
      rw [retSigs, zero, Device.returned_zero, Device.afterBatch, if_pos all]
      simp only
      rw [if_pos all]
    by_cases full : device.tx + sigLen > 255
    · have zero : device.batch = 0 := by
        have room : (255 - device.tx) / 65 = 0 :=
          Nat.div_eq_of_lt (by simp only [sigLen] at full; omega)
        rw [Device.batch, sigLen, room, Nat.min_zero]
      rw [retSigs, zero, Device.returned_zero, Device.afterBatch, if_neg all]
      simp only
      rw [if_neg all, if_pos full]
    have owed : device.signTxnContext.currObj < device.signTxnContext.txn.inNum :=
      lt_of_le_of_ne bound all
    have limit : device.signTxnContext.txn.inNum ≤ 20 := inside
    have positive : 0 < device.batch ∧ device.signTxnContext.currObj + device.batch ≤ 20 ∧
        device.tx + 65 * device.batch ≤ 255 := by
      simp only [sigLen] at full
      simp only [Device.batch, sigLen]
      omega
    have split : 1 + (device.batch - 1) = device.batch := by omega
    rw [retSigs_turn turns device owed inside (not_lt.mp full),
      inductionHypothesis (device.returned 1) owed inside
        (by rw [Device.batch_returned]; omega),
      Device.batch_returned, Device.returned_returned _ _ _ (by rw [split]; exact positive.2.1)
        (by rw [split]; exact le_trans positive.2.2 (by decide)), split]

/-! ### A call in the signing states -/

/-- The device once all inputs are signed: the path is as before and the signatures are in the
table. -/
def Device.signed (device : Device) (table : Cells SigInput maxInputs)
    (derived : List (List Nat)) : Device :=
  { device with
    signTxnContext.txn.sigInput := table
    signTxnContext.currObj := 0
    signTxnContext.txnState := .retSigs
    log := derived.map Event.derive ++
      .computeSigs device.signTxnContext.txn.innerHash.contents :: device.log }

/-- What `TXN_COMPUTE_SIGS` begins with. -/
def Device.startSigning (device : Device) : Device :=
  device.record (.computeSigs device.signTxnContext.txn.innerHash.contents)

/-- The result of a call that begins to sign. Either the SDK raised an exception at some input,
or all inputs are signed and a first batch is returned. -/
inductive Computed (sdk : Sdk) (device : Device) (code : Nat) (after : Device) : Prop
  | raised (path : Cells Nat 5) (table : Cells SigInput maxInputs) (counter : Nat)
      (derived : List (List Nat))
      (signed : Signed sdk device 0 device.signTxnContext.txn.inNum (some code) path table counter
        derived)
      (result : after = device.startSigning.signedBy path table counter derived)
  | finished (signatures : List SigInput) (derived : List (List Nat)) (signed : Device)
      (each : (device.signTxnContext.txn.sigInput.read 0 device.signTxnContext.txn.inNum).mapM
        (device.attempt sdk) = .ok signatures)
      (derivations : derived.reverse =
        (device.signTxnContext.txn.sigInput.read 0 device.signTxnContext.txn.inNum).map
          device.slotPath)
      (result : signed =
        device.signed (device.signTxnContext.txn.sigInput.write 0 signatures) derived)
      (returned : (signed.returned signed.batch).afterBatch = (some code, after))

theorem Device.batch_le (device : Device) : device.batch ≤ 3 := by
  refine le_trans (Nat.min_le_right _ _) ?_
  simp only [sigLen]
  omega

theorem Device.afterBatch_fst (device : Device) :
    ∃ code after, device.afterBatch = (some code, after) := by
  unfold Device.afterBatch
  split
  · exact ⟨_, _, rfl⟩
  · exact ⟨_, _, rfl⟩

theorem txnNextElem_of_pass {sdk : Sdk} {device after : Device} {code : Nat}
    (passed : txnNextElemPass sdk device = .ok (some code, after)) :
    txnNextElem sdk device = .ok (code, after) := by
  rw [txnNextElem, txnNextElemLoop, passed]

/-- A call in `TXN_COMPUTE_SIGS`. -/
theorem txnNextElem_computes (sdk : Sdk) (device : Device)
    (state : device.signTxnContext.txnState = .computeSigs)
    (inside : device.signTxnContext.txn.inNum ≤ maxInputs)
    (small : device.signTxnContext.currObj < 2 ^ 8) :
    ∃ code after, txnNextElem sdk device = .ok (code, after) ∧ Computed sdk device code after := by
  obtain ⟨result, path, table, counter, derived, looped, signed⟩ :=
    signInputs_signs sdk device.signTxnContext.txn.inNum 0 device.startSigning
      (by rw [Nat.zero_add]; exact inside) small
  have pass : txnNextElemPass sdk device = computeSigs sdk device := by
    rw [txnNextElemPass, state]
  unfold computeSigs at pass
  simp only at pass
  rw [← Device.startSigning, looped] at pass
  cases result with
  | some code =>
    exact ⟨code, _, txnNextElem_of_pass pass, Computed.raised path table counter derived
      ⟨signed.samePath, signed.derivations, signed.small, signed.raised, signed.finished⟩ rfl⟩
  | none =>
    obtain ⟨signatures, each, stored⟩ := signed.finished rfl
    have attempt : device.startSigning.attempt sdk = device.attempt sdk := rfl
    rw [attempt] at each
    have derivations : derived.reverse = (device.signTxnContext.txn.sigInput.read 0
        device.signTxnContext.txn.inNum).map device.slotPath := by
      have derivations := signed.derivations
      rw [attempt, reached_of_ok each] at derivations
      exact derivations
    subst stored
    have restored : path.write 4 [pathWord device.getPublicKeyContext.bip44Path 4] =
        device.getPublicKeyContext.bip44Path := restore_path signed.samePath
    obtain ⟨code, after, ended⟩ := Device.afterBatch_fst ((device.signed
      (device.signTxnContext.txn.sigInput.write 0 signatures) derived).returned (device.signed
        (device.signTxnContext.txn.sigInput.write 0 signatures) derived).batch)
    refine ⟨code, after, txnNextElem_of_pass ?_,
      Computed.finished signatures derived _ each derivations rfl ended⟩
    rw [pass, ← ended, ← retSigs_returns 4 (device.signed
      (device.signTxnContext.txn.sigInput.write 0 signatures) derived) (Nat.zero_le _) inside
        (Nat.lt_succ_of_le (Device.batch_le _))]
    simp only
    congr 1
    simp only [Device.signedBy, Device.startSigning, Device.record, Device.signed, restored]

/-- A call in `TXN_RET_SIGS`. -/
theorem txnNextElem_returns (sdk : Sdk) (device : Device)
    (state : device.signTxnContext.txnState = .retSigs)
    (bound : device.signTxnContext.currObj ≤ device.signTxnContext.txn.inNum)
    (inside : device.signTxnContext.txn.inNum ≤ maxInputs) :
    ∃ code after, txnNextElem sdk device = .ok (code, after) ∧
      (device.returned device.batch).afterBatch = (some code, after) := by
  obtain ⟨code, after, ended⟩ := (device.returned device.batch).afterBatch_fst
  have pass : txnNextElemPass sdk device = .ok (some code, after) := by
    rw [txnNextElemPass, state]
    simp only
    rw [retSigs_returns 4 device bound inside (Nat.lt_succ_of_le device.batch_le), ended]
  exact ⟨code, after, txnNextElem_of_pass pass, ended⟩

/-- The signing states always end with a code. -/
theorem retSigs_throws (turns : Nat) {device after : Device} {thrown : Option Nat}
    (went : retSigs turns device = .ok (thrown, after)) : thrown ≠ none := by
  induction turns generalizing device with
  | zero => cases went
  | succ turns inductionHypothesis =>
    rw [retSigs] at went
    simp only at went
    split at went
    · cases went
      exact Option.some_ne_none _
    split at went
    · cases went
      exact Option.some_ne_none _
    split at went
    · exact inductionHypothesis went
    · cases went

theorem computeSigs_throws {sdk : Sdk} {device after : Device} {thrown : Option Nat}
    (went : computeSigs sdk device = .ok (thrown, after)) : thrown ≠ none := by
  unfold computeSigs at went
  simp only at went
  split at went
  · cases went
  · cases went
    exact Option.some_ne_none _
  · exact retSigs_throws 4 went

end LedgerNano
