/-
This file is about the paths whose keys are derived.

`get_bip44_path` checks a path before the queries derive its key, but it stores the path
word by word before it has checked it. The signing state puts the index of each input in
the last word of whatever path is stored, and checks nothing. `derived_paths_valid_iff`
says what must hold where it signs, so that every path derived in a run is valid.
-/

import LedgerNano.Traces

namespace LedgerNano

/-! ### Valid paths -/

/-- The words of a path before its address index: purpose 44, a coin type and an account below 10,
all hardened, and change 0 or 1. -/
def ValidPrefix (path : List Nat) : Prop :=
  path.getD 0 0 = 2 ^ 31 + 44 ∧ (2 ^ 31 ≤ path.getD 1 0 ∧ path.getD 1 0 < 2 ^ 32) ∧
    (2 ^ 31 ≤ path.getD 2 0 ∧ path.getD 2 0 < 2 ^ 31 + 10) ∧ path.getD 3 0 ≤ 1

/-- A path that satisfies all checks of `get_bip44_path`. -/
def ValidPath (path : List Nat) : Prop :=
  ValidPrefix path ∧ path.getD 4 0 < 1000

instance : DecidablePred ValidPrefix :=
  fun _ => inferInstanceAs (Decidable (_ ∧ _))

instance : DecidablePred ValidPath :=
  fun _ => inferInstanceAs (Decidable (_ ∧ _))

theorem u4BE_lt (bytes : Bytes) (off : Nat) : u4BE bytes off < 2 ^ 32 := by
  have first := byteAt_lt bytes off
  have second := byteAt_lt bytes (off + 1)
  have third := byteAt_lt bytes (off + 2)
  have fourth := byteAt_lt bytes (off + 3)
  rw [u4BE]
  omega

/-- A number whose first bit is set is hardened. -/
theorem hardened_of_bit {bytes : Bytes} {off : Nat} (bit : (byteAt bytes off >>> 7) &&& 1 ≠ 0) :
    2 ^ 31 ≤ u4BE bytes off := by
  have big : 1 ≤ byteAt bytes off / 2 ^ 7 := by
    rw [Nat.shiftRight_eq_div_pow] at bit
    by_contra small
    have zero : byteAt bytes off / 2 ^ 7 = 0 := by omega
    rw [zero] at bit
    exact bit rfl
  rw [u4BE]
  omega

/-- Clearing the lowest bit of a 32-bit number leaves nothing of 0 and 1 only. -/
theorem le_one_of_mask {word : Nat} (bound : word < 2 ^ 32) (mask : word &&& 0xFFFFFFFE = 0) :
    word ≤ 1 := by
  have halves := congrArg (· >>> 1) mask
  simp only [Nat.shiftRight_and_distrib, Nat.zero_shiftRight] at halves
  have half : (word >>> 1) % 2 ^ 31 = 0 := by
    rw [← Nat.and_two_pow_sub_one_eq_mod]
    exact halves
  rw [Nat.shiftRight_eq_div_pow] at half
  omega

theorem pathWord_eq (path : Cells Nat 5) (i : Nat) : pathWord path i = path.contents.getD i 0 :=
  path.headD_read_one i 0

/-- Words that are stored without an exception had their first bits checked. The induction is on the
number of words. -/
theorem storePathWords_stores {data : Bytes} (count : Nat) {i : Nat} {path stored : Cells Nat 5}
    (inside : i + count ≤ 5)
    (accepted : storePathWords data (List.range' i count) path = (none, stored)) :
    stored = path.write i ((List.range' i count).map fun j => u4BE data (4 * j)) ∧
      ∀ j ∈ List.range' i count, j < 3 → (byteAt data (4 * j) >>> 7) &&& 1 ≠ 0 := by
  induction count generalizing i path with
  | zero =>
    cases accepted
    exact ⟨(Cells.write_nil _ i).symm, fun j member => absurd member List.not_mem_nil⟩
  | succ count inductionHypothesis =>
    rw [List.range'_succ, storePathWords] at accepted
    by_cases unchecked : i < 3 ∧ ¬ (byteAt data (4 * i) >>> 7) &&& 1 ≠ 0
    · rw [if_pos unchecked] at accepted
      cases accepted
    · rw [if_neg unchecked] at accepted
      obtain ⟨rfl, bits⟩ := inductionHypothesis (by omega) accepted
      rw [List.range'_succ]
      refine ⟨?_, List.forall_mem_cons.mpr ⟨fun early => ?_, bits⟩⟩
      · exact path.write_write_append i [u4BE data (4 * i)] _ (by
          rw [List.length_append, List.length_map, List.length_range', List.length_singleton]
          omega)
      · intro unset
        exact unchecked ⟨early, not_not.mpr unset⟩

/-- A path that `get_bip44_path` accepts is valid. -/
theorem validPath_of_getBip44Path {data : Bytes} {path stored : Cells Nat 5}
    (accepted : getBip44Path data path = (none, stored)) : ValidPath stored.contents := by
  unfold getBip44Path at accepted
  rw [bip44PathLen, List.range_eq_range'] at accepted
  cases words : storePathWords data (List.range' 0 5) path with
  | mk thrown kept =>
    rw [words] at accepted
    cases thrown with
    | some code => cases accepted
    | none =>
      simp only at accepted
      by_cases checks : pathChecks kept = true
      · rw [if_pos checks] at accepted
        cases accepted
        obtain ⟨stores, bits⟩ := storePathWords_stores 5 (by decide) words
        have contents : stored.contents =
            [u4BE data 0, u4BE data 4, u4BE data 8, u4BE data 12, u4BE data 16] := by
          rw [stores, Cells.contents_write _ _ _ (le_refl 5), List.drop_eq_nil_of_le]
          · rfl
          · exact le_of_eq path.length_contents
        have hardened : ∀ i, i < 3 → 2 ^ 31 ≤ u4BE data (4 * i) := fun i early =>
          hardened_of_bit (bits i (List.mem_range'_1.mpr ⟨Nat.zero_le i, by omega⟩) early)
        have purpose : 2 ^ 31 ≤ u4BE data 0 := hardened 0 (by decide)
        have coin : 2 ^ 31 ≤ u4BE data 4 := hardened 1 (by decide)
        have account : 2 ^ 31 ≤ u4BE data 8 := hardened 2 (by decide)
        have bound := u4BE_lt data
        unfold pathChecks at checks
        simp only [pathWord_eq, contents, Bool.and_eq_true, beq_iff_eq, Bool.not_eq_true',
          decide_eq_false_iff_not, List.getD_cons_zero, List.getD_cons_succ, gt_iff_lt,
          not_lt] at checks
        obtain ⟨⟨⟨purposeIs, accountIs⟩, changeIs⟩, indexIs⟩ := checks
        rw [show 0x7FFFFFFF = 2 ^ 31 - 1 from rfl, Nat.and_two_pow_sub_one_eq_mod]
          at purposeIs accountIs
        have boundPurpose := bound 0
        have boundCoin := bound 4
        have boundAccount := bound 8
        have change := le_one_of_mask (bound 12) (Nat.le_zero.mp changeIs)
        unfold ValidPath ValidPrefix
        rw [contents]
        refine ⟨⟨?_, ⟨coin, boundCoin⟩, ⟨account, ?_⟩, change⟩, ?_⟩
        · show u4BE data 0 = 2 ^ 31 + 44
          omega
        · show u4BE data 8 < 2 ^ 31 + 10
          omega
        · show u4BE data 16 < 1000
          omega
      · rw [if_neg checks] at accepted
        cases accepted

/-- The path of an input is valid where the stored path's first words and the input's index are. -/
theorem validPath_slotPath_iff (device : Device) (slot : SigInput) :
    ValidPath (device.slotPath slot) ↔
      ValidPrefix device.getPublicKeyContext.bip44Path.contents ∧ u4LE slot.input 32 < 1000 := by
  set path := device.getPublicKeyContext.bip44Path with pathIs
  have contents : device.slotPath slot = path.contents.take 4 ++ [u4LE slot.input 32] := by
    show (path.write 4 [u4LE slot.input 32]).contents = _
    rw [Cells.contents_write _ _ _ (le_refl 5), List.drop_eq_nil_of_le, List.append_nil]
    exact le_of_eq path.length_contents
  have front : (path.contents.take 4).length = 4 := by
    rw [List.length_take, path.length_contents]
    rfl
  have word : ∀ i, i < 4 → (device.slotPath slot).getD i 0 = path.contents.getD i 0 := by
    intro i early
    rw [contents, List.getD_eq_getElem?_getD, List.getD_eq_getElem?_getD,
      List.getElem?_append_left (lt_of_lt_of_eq early front.symm), List.getElem?_take_of_lt early]
  have last : (device.slotPath slot).getD 4 0 = u4LE slot.input 32 := by
    rw [contents, List.getD_eq_getElem?_getD, List.getElem?_append_right (le_of_eq front), front]
    rfl
  unfold ValidPath ValidPrefix
  rw [word 0 (by decide), word 1 (by decide), word 2 (by decide), word 3 (by decide), last]

/-! ### The paths of a run -/

/-- Every path a log derives is valid. -/
def ValidDerivations (log : List Event) : Prop :=
  ∀ path, .derive path ∈ log → ValidPath path

/-- The event derives a valid path, if it derives one. -/
def Event.DerivesValid : Event → Prop
  | .derive path => ValidPath path
  | _ => True

instance : DecidablePred Event.DerivesValid
  | .derive path => inferInstanceAs (Decidable (ValidPath path))
  | .command _ | .reply _ | .leftPress | .rightPress _ | .sessionStart | .element _ | .prepared _
  | .computeSigs _ => isTrue trivial

instance (log : List Event) : Decidable (ValidDerivations log) :=
  decidable_of_iff (∀ event ∈ log, event.DerivesValid)
    ⟨fun each _ member => each _ member, fun valid event member => by
      cases event with
      | derive path => exact valid path member
      | _ => trivial⟩

/-- Where the signatures are computed, the stored path begins like a valid one and the index of each
input whose key is derived is below 1000. -/
def Device.SignsValidPaths (sdk : Sdk) (called : Device) : Prop :=
  called.signTxnContext.txnState = .computeSigs →
    ∀ slot ∈ reached (called.attempt sdk)
      (called.signTxnContext.txn.sigInput.read 0 called.signTxnContext.txn.inNum),
      ValidPrefix called.getPublicKeyContext.bip44Path.contents ∧ u4LE slot.input 32 < 1000

section Steps

variable {sdk : Sdk} {device called after : Device} {code : Nat} {past log : List Event}

theorem validDerivations_extends {kind : Event → Prop} (others : ∀ path, ¬ kind (.derive path))
    (longer : Logs.Extends kind past log) : ValidDerivations log ↔ ValidDerivations past := by
  obtain ⟨events, rfl, each⟩ := longer
  refine ⟨fun valid path member => valid path (List.mem_append_right _ member),
    fun valid path member => ?_⟩
  rcases List.mem_append.mp member with added | old
  · exact absurd (each _ added) (others path)
  · exact valid path old

theorem validDerivations_derive (derived : List (List Nat)) :
    ValidDerivations (derived.map Event.derive ++ past) ↔
      ValidDerivations past ∧ ∀ path ∈ derived, ValidPath path := by
  constructor
  · intro valid
    refine ⟨fun path member => valid path (List.mem_append_right _ member), fun path member => ?_⟩
    exact valid path (List.mem_append_left _ (List.mem_map_of_mem member))
  · rintro ⟨old, new⟩ path member
    rcases List.mem_append.mp member with added | before
    · obtain ⟨other, among, same⟩ := List.mem_map.mp added
      exact new path (Event.derive.inj same ▸ among)
    · exact old path before

/-- A call of the parser derives valid paths exactly where it signs under them. -/
theorem Resumed.validDerivations_iff {progress : Progress}
    (resumes : Resumed sdk progress device code called) :
    ValidDerivations called.log ↔ ValidDerivations device.log ∧ device.SignsValidPaths sdk := by
  have computed : ∀ derived : List (List Nat), device.signTxnContext.txnState = .computeSigs →
      derived.reverse = (reached (device.attempt sdk) (device.signTxnContext.txn.sigInput.read 0
        device.signTxnContext.txn.inNum)).map device.slotPath →
      (ValidDerivations (derived.map Event.derive ++
          .computeSigs device.signTxnContext.txn.innerHash.contents :: device.log) ↔
        ValidDerivations device.log ∧ device.SignsValidPaths sdk) := by
    intro derived state derivations
    have begun : ValidDerivations (.computeSigs device.signTxnContext.txn.innerHash.contents ::
        device.log) ↔ ValidDerivations device.log := by
      have longer : Logs.Extends Event.IsComputeSigs device.log
          (.computeSigs device.signTxnContext.txn.innerHash.contents :: device.log) :=
        (Logs.Extends.refl device.log).cons trivial
      exact validDerivations_extends (fun _ => id) longer
    rw [validDerivations_derive, begun]
    refine and_congr_right fun _ => ?_
    have paths : ∀ path, path ∈ derived ↔ path ∈ (reached (device.attempt sdk)
        (device.signTxnContext.txn.sigInput.read 0 device.signTxnContext.txn.inNum)).map
          device.slotPath := by
      intro path
      rw [← derivations, List.mem_reverse]
    constructor
    · intro valid _ slot member
      exact (validPath_slotPath_iff device slot).mp
        (valid _ ((paths _).mpr (List.mem_map_of_mem member)))
    · intro signs path member
      obtain ⟨slot, among, rfl⟩ := List.mem_map.mp ((paths path).mp member)
      exact (validPath_slotPath_iff device slot).mpr (signs state slot among)
  cases resumes with
  | read call ctx tracks calls reads thrown result =>
    subst result
    have other : device.SignsValidPaths sdk := fun state =>
      absurd (tracks.state.symm.trans state) progress.state_reading.1
    have longer : Logs.Extends (fun event => ∃ record, event = .element record) device.log
        ((call.records.map Event.element).reverse ++ device.log) :=
      (Logs.Extends.refl device.log).reverse_map Event.element (fun record => ⟨record, rfl⟩)
        call.records
    exact (validDerivations_extends (fun path found => nomatch found) longer).trans
      (and_iff_left other).symm
  | computed signs state computes =>
    cases computes with
    | raised path table counter derived signed result =>
      subst result
      exact computed derived state signed.derivations
    | finished signatures derived signed each derivations result returned =>
      rw [afterBatch_log returned]
      subst result
      exact computed derived state (by rw [reached_of_ok each]; exact derivations)
  | returned signs state returns =>
    rw [afterBatch_log returns]
    refine (and_iff_left fun other => ?_).symm
    rw [state] at other
    cases other

theorem validDerivations_handler (longer : Logs.Extends Event.OfHandler past log) :
    ValidDerivations log ↔ ValidDerivations past :=
  validDerivations_extends (fun _ => id) longer

/-- The paths a query derives were validated. -/
theorem PathUse.valid {context : GetPublicKeyContext} {derived : List (List Nat)}
    (use : PathUse device context derived) : ∀ path ∈ derived, ValidPath path := by
  intro path member
  obtain ⟨accepted, rfl⟩ := use.derivations path member
  exact validPath_of_getBip44Path (Prod.ext accepted rfl)

/-- A step that does not call the parser derives valid paths only. -/
theorem Stepped.validDerivations_iff {input : Input} (went : Stepped sdk device input after)
    (idle : device.resumedBy input = none) :
    ValidDerivations after.log ↔ ValidDerivations device.log := by
  have flat : ∀ {log : List Event}, Logs.Extends (fun event => ∀ path, event ≠ .derive path)
      device.log log → (ValidDerivations log ↔ ValidDerivations device.log) :=
    validDerivations_extends fun path other => other path rfl
  have same : Logs.Extends (fun event => ∀ path, event ≠ .derive path) device.log device.log :=
    Logs.Extends.refl device.log
  have received : ∀ apdu : Apdu, Logs.Extends (fun event => ∀ path, event ≠ .derive path)
      device.log (.command apdu.bytes :: device.log) := fun apdu => same.cons nofun
  cases went with
  | answered apdu command other context derived ready use payload fits result =>
    subst result payload
    have replied : ∀ bytes log, ValidDerivations (.reply bytes :: log) ↔ ValidDerivations log := by
      intro bytes log
      have longer : Logs.Extends Event.OfHandler log (.reply bytes :: log) :=
        (Logs.Extends.refl log).cons trivial
      exact validDerivations_handler longer
    rw [resetTx_log, reply_log, replied]
    exact (validDerivations_derive derived).trans
      ((and_iff_left use.valid).trans (flat (received apdu)))
  | opened apdu command asked closed first result =>
    subst result
    exact flat (received apdu)
  | refused apdu command asked wrong result =>
    subst result
    exact flat ((received apdu).cons nofun)
  | waits apdu command asked session later state result =>
    subst result
    exact flat (received apdu)
  | resumed apdu command asked session later state =>
    subst command
    rw [resumedBy_command asked session later state] at idle
    cases idle
  | cancelled press screen result =>
    subst result
    have pressed : Logs.Extends (fun event => ∀ path, event ≠ .derive path) device.log
      (.leftPress :: device.log) := same.cons nofun
    exact flat (pressed.cons nofun)
  | pressed button press right screen =>
    subst press
    rw [resumedBy_press right screen] at idle
    cases idle
  | shows screen elsewhere other result =>
    subst result
    exact Iff.rfl

/-- A step derives valid paths exactly where it signs under them. -/
theorem step_validDerivations_iff {input : Input} (invariant : SessionInvariant sdk device)
    (stepped : step sdk device input = .ok after) :
    ValidDerivations after.log ↔ ValidDerivations device.log ∧
      ∀ called ∈ device.resumedBy input, called.SignsValidPaths sdk := by
  have went := step_stepped invariant stepped
  rcases went.resumedBy with idle | ⟨start, code, called, resumed, resumes, goes⟩
  · rw [went.validDerivations_iff idle, idle]
    exact (and_iff_left fun _ member => absurd member (Option.not_mem_none _)).symm
  · have handled : ValidDerivations after.log ↔ ValidDerivations called.log := by
      rcases goes with ⟨answered, goes, rfl⟩ | goes
      · exact validDerivations_handler goes.extends
      · exact validDerivations_handler goes.extends
    have started : ValidDerivations start.log ↔ ValidDerivations device.log :=
      validDerivations_extends (fun _ => id) (resumedBy_extends resumed)
    rw [handled, resumes.validDerivations_iff, started, resumed]
    simp only [Option.mem_some_iff, forall_eq']

end Steps

/-- A run derives valid paths only if and only if it signs under them only. -/
theorem derived_paths_valid_iff {sdk : Sdk} {inputs : List Input} {device : Device}
    (ran : run sdk Device.boot inputs = .ok device) :
    ValidDerivations device.log ↔ Runs.Along (step sdk) (fun device input =>
      ∀ called ∈ device.resumedBy input, called.SignsValidPaths sdk) Device.boot inputs := by
  have along : ValidDerivations device.log ↔ ValidDerivations Device.boot.log ∧
      Runs.Along (step sdk) (fun device input =>
        ∀ called ∈ device.resumedBy input, called.SignsValidPaths sdk) Device.boot inputs :=
    Runs.run_holds_iff (fun _ _ _ invariant _ stepped => step_session invariant stepped)
      (fun _ _ _ invariant _ stepped => step_validDerivations_iff invariant stepped)
      (session_boot sdk) (Runs.along_true _ _) ran
  exact along.trans (and_iff_right fun _ member => absurd member List.not_mem_nil)

/-- `GET_PUBLIC_KEY` for the path 44'/8000'/0'/0/0. -/
def publicKeyApdu : Apdu where
  bytes := [0x80, 0x04, 0, 0, 20, 0x80, 0, 0, 44, 0x80, 0, 0x1F, 0x40, 0x80, 0, 0, 0, 0, 0, 0, 0,
    0, 0, 0, 0]
  fits := by decide

/-- A session after a valid path was stored. -/
theorem derived_paths_valid_iff_sample : ∃ device : Device,
    run Sdk.plain Device.boot (.apdu publicKeyApdu :: sampleSession) = .ok device ∧
      Runs.Along (step Sdk.plain) (fun device input =>
        ∀ called ∈ device.resumedBy input, called.SignsValidPaths Sdk.plain) Device.boot
          (.apdu publicKeyApdu :: sampleSession) := by
  have ends : Runs.Ends (fun device : Device => ValidDerivations device.log)
      (run Sdk.plain Device.boot (.apdu publicKeyApdu :: sampleSession)) := by decide +kernel
  obtain ⟨device, ran, valid⟩ := Runs.exists_of_ends ends
  exact ⟨device, ran, (derived_paths_valid_iff ran).mp valid⟩

/-- A session before any path was stored derives the path that is all zeros. -/
theorem derived_path_can_be_invalid : ¬ ∀ (sdk : Sdk) (inputs : List Input) (device : Device)
    (path : List Nat), run sdk Device.boot inputs = .ok device → .derive path ∈ device.log →
      ValidPath path := by
  have ends : Runs.Ends (fun device : Device => ¬ ValidDerivations device.log)
      (run Sdk.plain Device.boot sampleSession) := by decide +kernel
  obtain ⟨device, ran, invalid⟩ := Runs.exists_of_ends ends
  exact fun all => invalid fun path member => all Sdk.plain _ device path ran member

end LedgerNano
