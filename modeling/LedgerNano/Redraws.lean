/-
This file is about redraws over whole runs.

As long as the window is inside its string, the copies a redraw makes are short: of the address
screen they end before `custom_text_line_2` does, and of the transaction screen they keep to their
labels. So two bytes that no redraw accounts for, the last of `custom_text_line_2` and the first of
`current_output`, stay zero (`Spare`); no redraw fails (`RedrawInvariant.draw`), and those of the
transaction screen change nothing but their label (`transactionScreen_redraws`).
-/

import LedgerNano.Window

namespace LedgerNano

namespace Display

/-! ### The address in memory -/

section Address

variable {display : Display}

/-- A string ends where its first zero stands. -/
theorem getElem?_length_takeWhile {bytes : Bytes} (ends : 0 ∈ bytes) :
    bytes[(bytes.takeWhile (· != 0)).length]? = some 0 := by
  induction bytes with
  | nil => cases ends
  | cons byte rest inductionHypothesis =>
    by_cases zero : byte = 0
    · subst zero
      rfl
    · have later := (List.mem_cons.mp ends).resolve_left (Ne.symm zero)
      rw [List.takeWhile_cons, if_pos (bne_iff_ne.mpr zero), List.length_cons,
        List.getElem?_cons_succ]
      exact inductionHypothesis later

/-- The address is what stands at its place. -/
theorem bytes_address (elsewhere : Int → Byte) (display : Display) :
    display.bytes elsewhere addressPlace 36 =
      display.device.getPublicKeyContext.address.contents := by
  have split : display.globalBytes =
      display.device.getPublicKeyContext.bip44Path.contents.flatMap le32 ++
        display.device.getPublicKeyContext.address.contents ++ (display.labels.contents ++
          display.device.transactionContext.currentOutputDisplay.contents ++
          display.device.transactionContext.outAddress.contents ++
          display.device.transactionContext.amount.contents) := by
    simp only [globalBytes, List.append_assoc]
  have read := bytes_field elsewhere display split
  simp only [length_flatMap_le32, Cells.length_contents] at read
  exact read

/-- The zero behind the address. -/
theorem byte_address_end (elsewhere : Int → Byte)
    (ends : 0 ∈ display.device.getPublicKeyContext.address.contents) :
    display.byte elsewhere
      (addressPlace + (textOf display.device.getPublicKeyContext.address).length) = 0 := by
  have zero := getElem?_length_takeWhile ends
  rw [← textOf, ← bytes_address elsewhere] at zero
  obtain ⟨inside, same⟩ := List.getElem?_eq_some_iff.mp zero
  simp only [bytes, List.getElem_map, List.getElem_range] at same
  exact same

/-- What the address screen copies from a window inside the address. -/
theorem strcpy_address (elsewhere : Int → Byte) (sound : SoundTexts display.device)
    (fits : display.WindowFits (textOf display.device.getPublicKeyContext.address)) :
    ∃ text, text.length ≤ 36 ∧
      display.strcpy elsewhere addressCopy (addressPlace + display.currentOffset) =
        .ok (display.written addressCopy (text ++ [0])) := by
  obtain ⟨above, below⟩ := fits.between
  have place : display.position.place = display.currentOffset := rfl
  have last : lastPlace (textOf display.device.getPublicKeyContext.address) =
      (textOf display.device.getPublicKeyContext.address).length - 15 := rfl
  have zero := byte_address_end elsewhere sound.addressEnds
  have short : (textOf display.device.getPublicKeyContext.address).length < 36 := by
    have ends := List.getElem?_eq_some_iff.mp (getElem?_length_takeWhile sound.addressEnds)
    exact lt_of_lt_of_eq ends.1 display.device.getPublicKeyContext.address.length_contents
  set length := (textOf display.device.getPublicKeyContext.address).length
  have inside : 0 ≤ length - display.currentOffset := by omega
  obtain ⟨rest, restIs⟩ := Int.eq_ofNat_of_zero_le inside
  have start : ((addressPlace : Int) + display.currentOffset -
      (labelsPlace + addressCopy : Nat)).natAbs = rest + (36 - length) := by
    show ((20 : Int) + display.currentOffset - 56).natAbs = _
    omega
  have ends : 0 ∈ display.bytes elsewhere (addressPlace + display.currentOffset) (rest + 1) := by
    refine List.mem_map.mpr ⟨rest, List.mem_range.mpr (Nat.lt_succ_self _), ?_⟩
    rw [show (addressPlace : Int) + display.currentOffset + rest = addressPlace + length by omega]
    exact zero
  unfold strcpy
  simp only [start]
  have least : rest + 1 ≤ rest + (36 - length) := by omega
  have found := (length_string_lt_iff elsewhere display _ least).mpr ends
  set text := (display.bytes elsewhere (addressPlace + display.currentOffset)
    (rest + (36 - length))).takeWhile (· != 0)
  refine ⟨text, by omega, ?_⟩
  rw [if_pos (lt_of_lt_of_le found least)]
  refine store_of_fits ?_
  rw [List.length_append]
  show 0 + (text.length + 1) ≤ 52
  omega

end Address

/-! ### The two bytes no redraw accounts for -/

/-- The last byte of `custom_text_line_2` and the first of `current_output` are zero. -/
def Spare (labels : Cells Byte 52) : Prop :=
  labels.contents[customTextLine2 + screenMaxChars - 1]? = some 0 ∧
    labels.contents[customTextLine2 + screenMaxChars]? = some 0

section Spare

variable {labels : Cells Byte 52}

theorem Spare.before (spare : Spare labels) {start : Nat} {values : Bytes}
    (before : start + values.length ≤ 47) : Spare (labels.write start values) := by
  have fits : start + values.length ≤ 52 := by omega
  constructor
  · rw [labels.getElem?_write fits, if_neg fun both => absurd both.2 (not_lt.mpr before)]
    exact spare.1
  · rw [labels.getElem?_write fits,
      if_neg fun both => absurd both.2 (not_lt.mpr (before.trans (by decide)))]
    exact spare.2

/-- A string of the second line, with its terminating zero. -/
theorem Spare.line (spare : Spare labels) {text : Bytes} (short : text.length < screenMaxChars) :
    Spare (labels.write customTextLine2 (text ++ [0])) := by
  have length : (text ++ [0]).length = text.length + 1 := List.length_append
  have fits : customTextLine2 + (text ++ [0]).length ≤ 52 := by
    rw [length]
    exact (Nat.add_le_add_left short _).trans (by decide)
  have sixteen : screenMaxChars = 16 := rfl
  have start : customTextLine2 = 32 := rfl
  constructor
  · rw [labels.getElem?_write fits]
    split
    · rename_i within
      have last : customTextLine2 + screenMaxChars - 1 - customTextLine2 = text.length := by omega
      rw [last, List.getElem?_concat_length]
    · exact spare.1
  · rw [labels.getElem?_write fits, if_neg (by omega)]
    exact spare.2

theorem Spare.ended (spare : Spare labels) :
    Spare (labels.write (customTextLine2 + screenMaxChars) [0]) := by
  have fits : customTextLine2 + screenMaxChars + [(0 : Byte)].length ≤ 52 := by decide
  constructor
  · rw [labels.getElem?_write fits, if_neg (by decide)]
    exact spare.1
  · rw [labels.getElem?_write fits, if_pos (by decide)]
    rfl

end Spare

/-! ### Redraws over whole runs -/

/-- The window is inside the string that is shown, and the two bytes are zero. -/
structure RedrawInvariant (display : Display) : Prop where
  window : WindowInvariant display
  spare : Spare display.labels

section Runs

variable {sdk : Sdk} {elsewhere : Int → Byte} {display after : Display}

theorem Spare.take (spare : Spare display.labels) (input : Input) :
    Spare (display.take input).labels := by
  cases input with
  | apdu apdu =>
    unfold Display.take
    simp only
    split
    · have lines : newTransactionText.take screenMaxChars =
          newTransactionText.take (screenMaxChars - 1) ++ [0] := rfl
      show Spare ((display.labels.write customTextLine1 (youReceivedText.take screenMaxChars)).write
        customTextLine2 (newTransactionText.take screenMaxChars))
      rw [lines]
      exact (spare.before (by decide)).line (by decide)
    · exact spare
  | button button =>
    unfold Display.take
    simp only
    split
    · exact (spare.before (by decide)).before (by decide)
    · exact spare
  | addressScreen =>
    unfold Display.take
    simp only
    split <;> exact spare

theorem Spare.windowDrawn (spare : Spare display.labels) :
    Spare (display.windowDrawn elsewhere).labels :=
  (spare.before (by rw [length_bytes]; decide)).ended

/-- The drawing of an element fails never. -/
theorem RedrawInvariant.draw (invariant : RedrawInvariant display) (sdk : Sdk)
    (elsewhere : Int → Byte) (userid : Nat) :
    ∃ after, Display.step sdk elsewhere display (.draw userid) = .ok after ∧
      Spare after.labels := by
  have sound := invariant.window.sound
  have spare := invariant.spare
  unfold Display.step
  simp only
  cases screen : display.device.screen with
  | infoText => exact ⟨display, rfl, spare⟩
  | menu => exact ⟨display, rfl, spare⟩
  | address =>
    simp only
    by_cases label : userid = 0x83
    · subst label
      have fits := invariant.window.window _ (by rw [Device.scrolledText, screen])
      obtain ⟨text, short, copied⟩ := strcpy_address elsewhere sound fits
      have length : (text ++ [0]).length = text.length + 1 := List.length_append
      have first : addressCopy + (text ++ [0]).length ≤ 47 := by
        rw [length]
        exact (Nat.add_le_add_left (Nat.succ_le_succ short) 0).trans (by decide)
      rw [uiAddressScrollingTextPrepro_eq copied]
      exact ⟨_, rfl, (spare.before first).before (by decide)⟩
    · rw [uiAddressScrollingTextPrepro, if_neg label]
      exact ⟨display, rfl, spare⟩
  | transaction =>
    simp only
    unfold transactionScreenPrepro
    split
    · split
      · rw [drawInfoLine_eq]
        refine ⟨_, rfl, ?_⟩
        have named := spare.before (show customTextLine1 + (addressLineText ++ [0]).length ≤ 47 by
          decide)
        split
        · exact named.before (by decide)
        · exact named
      split
      · rw [drawDescriptionLine_eq]
        split
        · rcases strcpy_amount elsewhere display with ⟨text, _, less, copied⟩ | ⟨endless, _⟩
          · rw [copied]
            exact ⟨_, rfl, spare.windowDrawn.line less⟩
          · exact absurd sound.amount endless
        · exact ⟨_, rfl, spare.windowDrawn⟩
      · exact ⟨display, rfl, spare⟩
    · exact ⟨display, rfl, spare⟩

theorem RedrawInvariant.step (invariant : RedrawInvariant display) {happening : Happening}
    (fits : display.SwapFits sdk happening)
    (went : Display.step sdk elsewhere display happening = .ok after) : RedrawInvariant after := by
  refine ⟨invariant.window.step fits went, ?_⟩
  cases happening with
  | draw userid =>
    obtain ⟨drawn, drew, spare⟩ := invariant.draw sdk elsewhere userid
    cases drew.symm.trans went
    exact spare
  | input input =>
    obtain ⟨device, _, rfl⟩ := step_input_of_ok went
    exact invariant.spare.take input

theorem redrawInvariant_boot : RedrawInvariant boot :=
  ⟨windowInvariant_boot, rfl, rfl⟩

/-- What holds in every state of a run in which the window finds its strings. -/
theorem run_redrawInvariant {happenings : List Happening}
    (along : Runs.Along (Display.step sdk elsewhere) (SwapFits sdk) boot happenings)
    (ran : run sdk elsewhere boot happenings = .ok display) : RedrawInvariant display :=
  Runs.run_invariant (fun _ _ _ held fits went => held.step fits went) redrawInvariant_boot along
    ran

/-- In such a run the transaction screen draws its labels and nothing else. -/
theorem transactionScreen_redraws {happenings : List Happening}
    (along : Runs.Along (Display.step sdk elsewhere) (SwapFits sdk) boot happenings)
    (ran : run sdk elsewhere boot happenings = .ok display) (userid : Nat) :
    RedrawsOnly (display.transactionLabel userid) display
      (transactionScreenPrepro elsewhere userid display) := by
  have invariant := run_redrawInvariant along ran
  refine transactionScreen_redraws_iff.mpr fun _ _ => ⟨invariant.spare.2, ?_⟩
  split
  · exact invariant.window.sound.amount
  · exact Or.inr invariant.spare.1

end Runs

end Display

end LedgerNano
