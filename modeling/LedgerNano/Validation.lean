/-
This file is about what `get_bip44_path` accepts and what it leaves behind.

It accepts exactly the valid paths and stores them. But it stores the words before it has
checked the path, so a refusal leaves the words up to the one that was refused in
`bip44_path`, from which later signatures take their keys: `path_validation_iff` says when
nothing changes.
-/

import LedgerNano.Paths

namespace LedgerNano

/-! ### What is stored -/

/-- The five words of the path data. -/
def pathWords (data : Bytes) : List Nat :=
  (List.range bip44PathLen).map fun i => u4BE data (4 * i)

/-- The first bit of a word does not refuse the path in the loop. -/
def passesLoop (data : Bytes) (i : Nat) : Bool :=
  !(decide (i < 3) && (byteAt data (4 * i) >>> 7) &&& 1 == 0)

/-- The words that are stored, accepted or refused: those before the first of the first three that
is not hardened. -/
def storedWords (data : Bytes) : List Nat :=
  ((List.range bip44PathLen).takeWhile (passesLoop data)).map fun i => u4BE data (4 * i)

/-- The loop stores the words that pass, and refuses the first that does not. The induction is on
the number of words. -/
theorem storePathWords_eq (data : Bytes) (count i : Nat) (path : Cells Nat 5)
    (inside : i + count ≤ 5) :
    storePathWords data (List.range' i count) path =
      (if (List.range' i count).all (passesLoop data) then none else some insRetWrongData,
        path.write i (((List.range' i count).takeWhile (passesLoop data)).map
          fun j => u4BE data (4 * j))) := by
  induction count generalizing i path with
  | zero => exact congrArg (Prod.mk none) (Cells.write_nil path i).symm
  | succ count inductionHypothesis =>
    rw [List.range'_succ, storePathWords, List.all_cons, List.takeWhile_cons]
    by_cases unchecked : i < 3 ∧ ¬ (byteAt data (4 * i) >>> 7) &&& 1 ≠ 0
    · have refused : passesLoop data i = false := by
        simp only [passesLoop, unchecked.1, not_not.mp unchecked.2, decide_true, beq_self_eq_true,
          Bool.and_self, Bool.not_true]
      rw [if_pos unchecked, refused]
      exact congrArg (Prod.mk _) (Cells.write_nil path i).symm
    · have passed : passesLoop data i = true := by
        rw [passesLoop, Bool.not_eq_true', Bool.and_eq_false_imp, decide_eq_true_iff]
        intro early
        rw [beq_eq_false_iff_ne]
        exact not_not.mp fun zero => unchecked ⟨early, zero⟩
      rw [if_neg unchecked, passed, inductionHypothesis _ _ (by omega), Bool.true_and]
      refine congrArg (Prod.mk _) ?_
      have room : ((List.range' (i + 1) count).takeWhile (passesLoop data)).length ≤ count :=
        le_trans (List.takeWhile_sublist _).length_le (le_of_eq List.length_range')
      exact path.write_write_append i [u4BE data (4 * i)] _ (by
        rw [List.length_append, List.length_map, List.length_singleton]
        omega)

theorem length_storedWords (data : Bytes) : (storedWords data).length ≤ 5 := by
  rw [storedWords, List.length_map]
  exact le_trans (List.takeWhile_sublist _).length_le (le_of_eq List.length_range)

/-- The loop over all five words. -/
theorem storePathWords_range (data : Bytes) (path : Cells Nat 5) :
    storePathWords data (List.range bip44PathLen) path =
      (if (List.range bip44PathLen).all (passesLoop data) then none else some insRetWrongData,
        path.write 0 (storedWords data)) := by
  have stored := storePathWords_eq data 5 0 path (le_refl 5)
  rw [← List.range_eq_range'] at stored
  exact stored

/-- Accepted or refused, the stored words are what is left in the path. -/
theorem getBip44Path_path (data : Bytes) (path : Cells Nat 5) :
    (getBip44Path data path).2 = path.write 0 (storedWords data) := by
  have left : (getBip44Path data path).2 =
      (storePathWords data (List.range bip44PathLen) path).2 := by
    rw [getBip44Path]
    cases storePathWords data (List.range bip44PathLen) path with
    | mk thrown kept =>
      cases thrown with
      | some code => rfl
      | none =>
        simp only
        split <;> rfl
  rw [left, storePathWords_range]

/-! ### What is accepted -/

/-- The first bit of a hardened number is set. -/
theorem bit_of_hardened {bytes : Bytes} {off : Nat} (hardened : 2 ^ 31 ≤ u4BE bytes off) :
    (byteAt bytes off >>> 7) &&& 1 ≠ 0 := by
  have first := byteAt_lt bytes off
  have second := byteAt_lt bytes (off + 1)
  have third := byteAt_lt bytes (off + 2)
  have fourth := byteAt_lt bytes (off + 3)
  rw [u4BE] at hardened
  have one : byteAt bytes off >>> 7 = 1 := by
    rw [Nat.shiftRight_eq_div_pow]
    omega
  rw [one]
  decide

/-- Words that are a valid path pass the loop. -/
theorem passesLoop_of_validPath {data : Bytes} (valid : ValidPath (pathWords data)) :
    ∀ i ∈ List.range bip44PathLen, passesLoop data i = true := by
  obtain ⟨⟨purpose, ⟨coin, _⟩, ⟨account, _⟩, _⟩, _⟩ := valid
  have hardened : ∀ i, i < 3 → 2 ^ 31 ≤ u4BE data (4 * i) := by
    intro i early
    match i with
    | 0 => exact le_trans (Nat.le_add_right _ 44) (le_of_eq purpose.symm)
    | 1 => exact coin
    | 2 => exact account
  intro i _
  rw [passesLoop, Bool.not_eq_true', Bool.and_eq_false_imp, decide_eq_true_iff]
  intro early
  rw [beq_eq_false_iff_ne]
  exact bit_of_hardened (hardened i early)

/-- The whole path is stored once all words pass the loop. -/
theorem storedWords_of_passes {data : Bytes}
    (passes : ∀ i ∈ List.range bip44PathLen, passesLoop data i = true) :
    storedWords data = pathWords data := by
  rw [storedWords, List.takeWhile_eq_self_iff.mpr passes, pathWords]

theorem length_pathWords (data : Bytes) : (pathWords data).length = 5 := by
  rw [pathWords, List.length_map, List.length_range, bip44PathLen]

/-- A path of five words takes the place of the stored one. -/
theorem contents_write_pathWords (data : Bytes) (path : Cells Nat 5) :
    (path.write 0 (pathWords data)).contents = pathWords data := by
  rw [Cells.contents_write _ _ _ (le_of_eq (by rw [length_pathWords])), length_pathWords,
    List.drop_eq_nil_of_le (le_of_eq path.length_contents), List.append_nil]
  rfl

/-- The checks after the loop pass on a valid path. -/
theorem pathChecks_of_validPath {path : Cells Nat 5} (valid : ValidPath path.contents) :
    pathChecks path = true := by
  obtain ⟨⟨purpose, _, ⟨account, accountBound⟩, change⟩, index⟩ := valid
  have mask : ∀ word, word ≤ 1 → word &&& 0xFFFFFFFE = 0 := by decide
  simp only [pathChecks, pathWord_eq, Bool.and_eq_true, beq_iff_eq, Bool.not_eq_true',
    decide_eq_false_iff_not, gt_iff_lt, not_lt]
  rw [show 0x7FFFFFFF = 2 ^ 31 - 1 from rfl, Nat.and_two_pow_sub_one_eq_mod,
    Nat.and_two_pow_sub_one_eq_mod, mask _ change]
  refine ⟨⟨⟨?_, ?_⟩, le_refl 0⟩, by omega⟩
  · rw [purpose]
    rfl
  · omega

/-- Exactly the valid paths are accepted. -/
theorem getBip44Path_accepts_iff (data : Bytes) (path : Cells Nat 5) :
    (getBip44Path data path).1 = none ↔ ValidPath (pathWords data) := by
  constructor
  · intro accepted
    have valid : ValidPath (getBip44Path data path).2.contents :=
      validPath_of_getBip44Path (Prod.ext accepted rfl)
    rw [getBip44Path_path] at valid
    by_cases all : ∀ i ∈ List.range bip44PathLen, passesLoop data i = true
    · rw [storedWords_of_passes all, contents_write_pathWords] at valid
      exact valid
    · have refused := storePathWords_range data path
      rw [if_neg (fun every => all (List.all_eq_true.mp every))] at refused
      rw [getBip44Path, refused] at accepted
      cases accepted
  · intro valid
    have passes := passesLoop_of_validPath valid
    have words := storePathWords_range data path
    rw [if_pos (List.all_eq_true.mpr passes), storedWords_of_passes passes] at words
    rw [← contents_write_pathWords data path] at valid
    rw [getBip44Path, words]
    simp only
    rw [if_pos (pathChecks_of_validPath valid)]

/-- A refusal throws one code. -/
theorem getBip44Path_refuses {data : Bytes} {path : Cells Nat 5}
    (refused : ¬ ValidPath (pathWords data)) :
    (getBip44Path data path).1 = some insRetWrongData := by
  rw [← getBip44Path_accepts_iff data path] at refused
  have words := storePathWords_range data path
  rw [getBip44Path] at refused ⊢
  rw [words] at refused ⊢
  by_cases all : (List.range bip44PathLen).all (passesLoop data) = true
  · rw [if_pos all] at refused ⊢
    simp only at refused ⊢
    split at refused
    · exact absurd rfl refused
    · rw [if_neg ‹_›]
  · rw [if_neg all]

/-! ### Exact and atomic -/

/-- What a validation of path data is for: it accepts exactly the valid paths and stores them, and
a refusal changes nothing, neither the stored path nor, through a query that carries the data, the
path and the address of the device. -/
structure ExactAndAtomic (sdk : Sdk) (data : Bytes) (path : Cells Nat 5) : Prop where
  accepts : (getBip44Path data path).1 = none ↔ ValidPath (pathWords data)
  stores : (getBip44Path data path).1 = none →
    (getBip44Path data path).2.contents = pathWords data
  refuses : (getBip44Path data path).1 ≠ none → (getBip44Path data path).2 = path
  keeps : ∀ (device : Device) (instruction : Instruction), instruction ≠ .signTransaction →
    instruction ≠ .getVersion → device.apduBuffer.read 5 20 = data →
      device.getPublicKeyContext.bip44Path = path → (getBip44Path data path).1 ≠ none →
        ∃ after, runHandler sdk instruction device = .ok (some insRetWrongData, after) ∧
          after.getPublicKeyContext = device.getPublicKeyContext

/-- A query whose path is refused runs nothing but `get_bip44_path`. -/
theorem runHandler_refused {sdk : Sdk} {device : Device} {instruction : Instruction}
    (signs : instruction ≠ .signTransaction) (version : instruction ≠ .getVersion)
    (refused : ¬ ValidPath (pathWords (device.apduBuffer.read 5 20))) :
    runHandler sdk instruction device = .ok (some insRetWrongData,
      { device with getPublicKeyContext.bip44Path :=
          (getBip44Path (device.apduBuffer.read 5 20)
            device.getPublicKeyContext.bip44Path).2 }) := by
  have derived : deriveRequested sdk 5 device = (.error insRetWrongData,
      { device with getPublicKeyContext.bip44Path :=
        (getBip44Path (device.apduBuffer.read 5 20) device.getPublicKeyContext.bip44Path).2 }) := by
    rw [deriveRequested]
    simp only
    rw [getBip44Path_refuses refused]
  cases instruction with
  | signTransaction => exact absurd rfl signs
  | getVersion => exact absurd rfl version
  | getAddress =>
    rw [runHandler, handleGetAddress, derived]
  | getPublicKey =>
    rw [runHandler, handleGetPublicKey, derived]
  | getSignedPublicKey =>
    rw [runHandler, handleGetSignedPublicKey, derived]

/-- The validation of a path is exact, and it is atomic where the path is accepted or the words
before the refused one are those already stored. -/
theorem path_validation_iff (sdk : Sdk) (data : Bytes) (path : Cells Nat 5) :
    ExactAndAtomic sdk data path ↔
      ValidPath (pathWords data) ∨ storedWords data <+: path.contents := by
  have same : (getBip44Path data path).2 = path ↔ storedWords data <+: path.contents := by
    rw [getBip44Path_path]
    exact path.write_start_eq_self_iff _ (length_storedWords data)
  constructor
  · intro exact
    by_cases valid : ValidPath (pathWords data)
    · exact Or.inl valid
    · exact Or.inr (same.mp (exact.refuses fun accepted => valid (exact.accepts.mp accepted)))
  · intro condition
    have refuses : (getBip44Path data path).1 ≠ none → (getBip44Path data path).2 = path := by
      intro refused
      rw [Ne, getBip44Path_accepts_iff] at refused
      exact same.mpr (condition.resolve_left refused)
    refine ⟨getBip44Path_accepts_iff data path, fun accepted => ?_, refuses, ?_⟩
    · have valid := (getBip44Path_accepts_iff data path).mp accepted
      rw [getBip44Path_path, storedWords_of_passes (passesLoop_of_validPath valid),
        contents_write_pathWords]
    · intro device instruction signs version holds stored refused
      subst holds stored
      have left := refuses refused
      rw [Ne, getBip44Path_accepts_iff] at refused
      refine ⟨_, runHandler_refused signs version refused, ?_⟩
      show ({ device.getPublicKeyContext with bip44Path := _ } : GetPublicKeyContext) = _
      rw [left]

/-- Path data that names a change of 2: all five words are stored, then the path is refused. -/
def refusedPath : Bytes :=
  [0x80, 0, 0, 44, 0x80, 0, 0, 1, 0x80, 0, 0, 0, 0, 0, 0, 2, 0, 0, 0, 7]

theorem path_validation_can_change_path :
    ¬ ∀ (sdk : Sdk) (data : Bytes) (path : Cells Nat 5), data.length = 20 →
      ExactAndAtomic sdk data path := by
  intro atomic
  have exact := atomic Sdk.plain refusedPath (Cells.fill 0) rfl
  have refused : ¬ ValidPath (pathWords refusedPath) := by decide
  have left := exact.refuses fun accepted => refused (exact.accepts.mp accepted)
  have changed : pathWord (getBip44Path refusedPath (Cells.fill 0)).2 4 ≠
    pathWord (Cells.fill 0) 4 := by decide
  exact changed (congrArg (fun path => pathWord path 4) left)

end LedgerNano
