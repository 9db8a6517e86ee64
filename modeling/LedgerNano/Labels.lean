/-
This file is about the bytes one run of a preprocessor writes.

A label has 16 bytes. The address screen copies the rest of the address into it with `strcpy`,
however long that is, and both screens write the zero behind the label instead of at its end. So
a run keeps to its label exactly when the rest of the string is short enough and the byte behind
the label is zero already (`label_redraws_iff`).
-/

import LedgerNano.Display

namespace LedgerNano

/-! ### The property -/

/-- A run of a preprocessor changes, besides the scroll position, only the 16 bytes of a label,
and leaves a terminating zero in them; where no label is drawn it changes none. -/
def RedrawsOnly (label : Option Nat) (before : Display)
    (result : Except DrawFault (Bool × Display)) : Prop :=
  ∃ displayed after, result = .ok (displayed, after) ∧ after.device = before.device ∧
    match label with
    | none => after.labels = before.labels
    | some label => Cells.ChangesOnly label screenMaxChars before.labels after.labels ∧
        0 ∈ after.labels.read label screenMaxChars

/-- The label of an element of the address screen. -/
def addressLabel (userid : Nat) : Option Nat :=
  if userid = 0x83 then some addressCopy else none

/-- The label of an element of the transaction screen, which is drawn for an output only. -/
def Display.transactionLabel (display : Display) (userid : Nat) : Option Nat :=
  if display.device.signTxnContext.txnState = .txnOut then
    if userid = 0x80 then some customTextLine1
    else if userid = 0x83 then some customTextLine2
    else none
  else
    none

/-! ### When a drawing keeps to its label -/

section Fits

variable (elsewhere : Int → Byte) (display : Display)

/-- The window of the address screen holds the end of the string, before the label begins, and
the byte behind the label is zero. -/
def Display.AddressFits : Prop :=
  0 ∈ display.bytes elsewhere (addressPlace + display.currentOffset)
      (min screenMaxChars (display.currentOffset - 36).natAbs) ∧
    display.labels.contents[addressCopy + screenMaxChars]? = some 0

/-- The scroll has come back to the start, where the amount is shown. -/
def Display.ShowsAmount : Prop :=
  display.direction = -1 ∧ Display.AtEnd (display.currentOffset - 1)
    (textOf display.device.transactionContext.outAddress).length

instance : Decidable display.ShowsAmount :=
  inferInstanceAs (Decidable (_ ∧ _))

/-- The byte behind the label is zero, and so is one of those in it: of the amount, or of the 15
bytes of the window or the one they leave as it was. -/
def Display.DescriptionFits : Prop :=
  display.labels.contents[customTextLine2 + screenMaxChars]? = some 0 ∧
    if display.ShowsAmount then 0 ∈ display.device.transactionContext.amount.contents
    else 0 ∈ display.bytes elsewhere (outAddressPlace + display.currentOffset)
        (screenMaxChars - 1) ∨
      display.labels.contents[customTextLine2 + screenMaxChars - 1]? = some 0

end Fits

/-! ### Strings in memory -/

section Strings

variable (elsewhere : Int → Byte)

@[simp]
theorem length_bytes (display : Display) (place : Int) (count : Nat) :
    (display.bytes elsewhere place count).length = count := by
  rw [Display.bytes, List.length_map, List.length_range]

theorem take_bytes (display : Display) (place : Int) {count shorter : Nat} (le : shorter ≤ count) :
    (display.bytes elsewhere place count).take shorter = display.bytes elsewhere place shorter := by
  rw [Display.bytes, ← List.map_take, List.take_range, Nat.min_eq_left le, Display.bytes]

/-- A string ends among the first bytes exactly when one of them is a zero. -/
theorem length_takeWhile_lt_iff {bytes : Bytes} {count : Nat} (enough : count ≤ bytes.length) :
    (bytes.takeWhile (· != 0)).length < count ↔ 0 ∈ bytes.take count := by
  induction bytes generalizing count with
  | nil =>
    have none : count = 0 := Nat.le_zero.mp enough
    subst none
    simp
  | cons byte rest inductionHypothesis =>
    cases count with
    | zero => simp
    | succ count =>
      rw [List.take_succ_cons, List.mem_cons, List.takeWhile_cons]
      by_cases zero : byte = 0
      · subst zero
        simp
      · rw [if_pos (bne_iff_ne.mpr zero), List.length_cons, Nat.succ_lt_succ_iff,
          inductionHypothesis (Nat.le_of_succ_le_succ enough)]
        exact (or_iff_right (Ne.symm zero)).symm

/-- A string in memory ends among its first bytes exactly when one of them is a zero. -/
theorem length_string_lt_iff (display : Display) (place : Int) {least count : Nat}
    (le : least ≤ count) :
    ((display.bytes elsewhere place count).takeWhile (· != 0)).length < least ↔
      0 ∈ display.bytes elsewhere place least := by
  have enough : least ≤ (display.bytes elsewhere place count).length := by
    rw [length_bytes]
    exact le
  rw [length_takeWhile_lt_iff enough, take_bytes elsewhere display place le]

theorem not_mem_takeWhile (bytes : Bytes) : 0 ∉ bytes.takeWhile (· != 0) := by
  intro member
  have nonzero := List.mem_takeWhile_imp member
  simp at nonzero

theorem length_flatMap_le32 (words : List Nat) :
    (words.flatMap le32).length = 4 * words.length := by
  induction words with
  | nil => rfl
  | cons word rest inductionHypothesis =>
    rw [List.flatMap_cons, List.length_append, inductionHypothesis, length_le32, List.length_cons]
    omega

theorem length_globalBytes (display : Display) : display.globalBytes.length = 176 := by
  simp only [Display.globalBytes, List.length_append, length_flatMap_le32, Cells.length_contents]

/-- A field is what is read from its place. -/
theorem bytes_field (display : Display) {front field back : Bytes}
    (split : display.globalBytes = front ++ field ++ back) :
    display.bytes elsewhere front.length field.length = field := by
  have total := length_globalBytes display
  rw [split, List.length_append, List.length_append] at total
  refine List.ext_getElem (length_bytes elsewhere display _ _) fun index inside inField => ?_
  rw [length_bytes] at inside
  simp only [Display.bytes, List.getElem_map, List.getElem_range]
  rw [Display.byte, if_pos (by omega), show ((front.length : Int) + index).toNat =
    front.length + index by omega, split, List.append_assoc, List.getD_eq_getElem?_getD,
    List.getElem?_append_right (Nat.le_add_right _ _), Nat.add_sub_cancel_left,
    List.getElem?_append_left inside, List.getElem?_eq_getElem inside]
  rfl

/-- The amount is what stands at its place. -/
theorem bytes_amount (display : Display) :
    display.bytes elsewhere amountPlace screenMaxChars =
      display.device.transactionContext.amount.contents := by
  have split : display.globalBytes = _ ++ display.device.transactionContext.amount.contents ++ [] :=
    (List.append_nil _).symm
  have read := bytes_field elsewhere display split
  simp only [List.length_append, length_flatMap_le32, Cells.length_contents] at read
  exact read

end Strings

/-! ### The copies -/

section Copies

variable {elsewhere : Int → Byte} {display after : Display} {label : Nat}

/-- The display after bytes were written to a label. -/
def Display.written (display : Display) (label : Nat) (values : Bytes) : Display :=
  { display with labels := display.labels.write label values }

theorem store_of_fits {values : Bytes} (fits : label + values.length ≤ 52) :
    display.store label values = .ok (display.written label values) :=
  if_pos fits

theorem store_of_ok {values : Bytes} (went : display.store label values = .ok after) :
    label + values.length ≤ 52 ∧ after = display.written label values := by
  unfold Display.store at went
  split at went
  · rename_i fits
    exact ⟨fits, (Except.ok.inj went).symm⟩
  · cases went

theorem read_written {values : Bytes} (fits : label + values.length ≤ 52) :
    (display.written label values).labels.read label values.length = values :=
  display.labels.read_write_self label values fits

/-- A string written with its terminating zero ends in its label. -/
theorem ended_written {text : Bytes} (short : text.length < screenMaxChars)
    (room : label + screenMaxChars ≤ 52) :
    0 ∈ (display.written label (text ++ [0])).labels.read label screenMaxChars := by
  have length : (text ++ [0]).length = text.length + 1 := List.length_append
  have stored := @read_written display label (text ++ [0]) (by omega)
  refine List.mem_of_mem_take (i := (text ++ [0]).length) ?_
  rw [Cells.take_read _ _ _ _ (by omega), stored]
  exact List.mem_append_right _ List.mem_cons_self

/-- A copied string fits its label and ends in it, or it leaves no zero there. -/
theorem strcpy_split (elsewhere : Int → Byte) (display : Display) (place : Int)
    (room : label + screenMaxChars ≤ 52) :
    let near := min screenMaxChars (place - (labelsPlace + label : Nat)).natAbs
    (∃ text : Bytes, 0 ∈ display.bytes elsewhere place near ∧ text.length < screenMaxChars ∧
        display.strcpy elsewhere label place = .ok (display.written label (text ++ [0]))) ∨
      0 ∉ display.bytes elsewhere place near ∧
        ∀ after, display.strcpy elsewhere label place = .ok after →
          0 ∉ after.labels.read label screenMaxChars := by
  intro near
  unfold Display.strcpy
  simp only
  set apart := (place - (labelsPlace + label : Nat)).natAbs
  set text := (display.bytes elsewhere place apart).takeWhile (· != 0)
  have least : near ≤ apart := Nat.min_le_right _ _
  have ends : text.length < near ↔ 0 ∈ display.bytes elsewhere place near :=
    length_string_lt_iff elsewhere display place least
  have length : (text ++ [0]).length = text.length + 1 := List.length_append
  by_cases short : text.length < near
  · have less : text.length < screenMaxChars := lt_of_lt_of_le short (Nat.min_le_left _ _)
    refine Or.inl ⟨text, ends.mp short, less, ?_⟩
    rw [if_pos (lt_of_lt_of_le short least), store_of_fits (by omega)]
  · refine Or.inr ⟨fun member => short (ends.mpr member), fun after went => ?_⟩
    by_cases clear : text.length < apart
    · rw [if_pos clear] at went
      obtain ⟨fits, rfl⟩ := store_of_ok went
      have long : screenMaxChars ≤ text.length := by omega
      have stored := @read_written display _ _ fits
      rw [← Cells.take_read _ _ (text ++ [0]).length _ (by omega), stored,
        List.take_append_of_le_length long]
      exact fun member => not_mem_takeWhile _ (List.mem_of_mem_take member)
    · rw [if_neg clear] at went
      cases went

/-- The zero behind a label changes nothing exactly when it is there already. -/
theorem changesOnly_ended_iff {labels written : Cells Byte 52}
    (inside : label + screenMaxChars < 52)
    (within : Cells.ChangesOnly label screenMaxChars labels written) :
    Cells.ChangesOnly label screenMaxChars labels (written.write (label + screenMaxChars) [0]) ↔
      labels.contents[label + screenMaxChars]? = some 0 := by
  have write := @Cells.getElem?_write _ _ written (label + screenMaxChars) [0]
    (Nat.succ_le_of_lt inside)
  constructor
  · intro only
    rw [← only (label + screenMaxChars) (Or.inr le_rfl), write,
      if_pos ⟨le_rfl, Nat.lt_succ_self _⟩, Nat.sub_self]
    rfl
  · intro zero place outside
    rw [write]
    split
    · rename_i there
      have same : place = label + screenMaxChars :=
        Nat.le_antisymm (Nat.le_of_lt_succ there.2) there.1
      rw [same, Nat.sub_self, zero]
      rfl
    · exact within place outside

end Copies

/-! ### The address screen -/

section Address

variable {elsewhere : Int → Byte} {display after : Display}

theorem uiAddressScrollingTextPrepro_of_ok {displayed : Bool}
    (went : uiAddressScrollingTextPrepro elsewhere 0x83 display = .ok (displayed, after)) :
    ∃ copied ended,
      display.strcpy elsewhere addressCopy (addressPlace + display.currentOffset) = .ok copied ∧
      copied.store (addressCopy + screenMaxChars) [0] = .ok ended ∧
      after = ended.scroll (textOf display.device.getPublicKeyContext.address).length := by
  unfold uiAddressScrollingTextPrepro at went
  rw [if_pos rfl] at went
  obtain ⟨copied, copy, rest⟩ := bind_ok went
  obtain ⟨ended, finish, last⟩ := bind_ok rest
  cases last
  exact ⟨copied, ended, copy, finish, rfl⟩

/-- What is drawn once the address was copied. -/
theorem uiAddressScrollingTextPrepro_eq {values : Bytes}
    (copied : display.strcpy elsewhere addressCopy (addressPlace + display.currentOffset) =
      .ok (display.written addressCopy values)) :
    uiAddressScrollingTextPrepro elsewhere 0x83 display = .ok (true,
      ((display.written addressCopy values).written (addressCopy + screenMaxChars) [0]).scroll
        (textOf display.device.getPublicKeyContext.address).length) := by
  have zeroed := @store_of_fits (display.written addressCopy values)
    (addressCopy + screenMaxChars) [0] (by decide)
  unfold uiAddressScrollingTextPrepro
  rw [if_pos rfl, copied]
  simp only [bind, Except.bind, zeroed]
  rfl

/-- The address label is all that is redrawn exactly when the rest of the address fits it and the
byte behind it is zero. -/
theorem addressLabel_redraws_iff :
    RedrawsOnly (some addressCopy) display (uiAddressScrollingTextPrepro elsewhere 0x83 display) ↔
      display.AddressFits elsewhere := by
  have near : ((addressPlace : Int) + display.currentOffset - (labelsPlace + addressCopy : Nat)) =
      display.currentOffset - 36 := by
    show (20 : Int) + _ - 56 = _
    omega
  have split := strcpy_split elsewhere display (addressPlace + display.currentOffset)
    (show addressCopy + screenMaxChars ≤ 52 by decide)
  simp only [near] at split
  rcases split with ⟨text, ends, less, copied⟩ | ⟨endless, fails⟩
  · have fits : addressCopy + (text ++ [0]).length ≤ screenMaxChars := by
      rw [List.length_append, List.length_singleton]
      show 0 + (text.length + 1) ≤ _
      omega
    have written := (Cells.ChangesOnly.refl addressCopy screenMaxChars display.labels).write
      (fits.trans (by decide)) le_rfl fits
    have last := changesOnly_ended_iff (by decide) written
    have drawn := uiAddressScrollingTextPrepro_eq copied
    constructor
    · rintro ⟨displayed, after, went, _, only, _⟩
      cases drawn.symm.trans went
      exact ⟨ends, last.mp only⟩
    · rintro ⟨_, zero⟩
      refine ⟨true, _, drawn, rfl, last.mpr zero, ?_⟩
      show 0 ∈ Cells.read (Cells.write _ _ _) _ _
      rw [Cells.read_write_before _ _ _ _ _ (by decide) le_rfl]
      exact ended_written less (by decide)
  · refine ⟨fun redraws => ?_, fun fits => absurd fits.1 endless⟩
    obtain ⟨displayed, after, went, _, _, ended⟩ := redraws
    obtain ⟨copied, zeroed, copy, finish, rfl⟩ := uiAddressScrollingTextPrepro_of_ok went
    obtain ⟨fits, rfl⟩ := store_of_ok finish
    refine absurd ?_ (fails copied copy)
    rw [← copied.labels.read_write_before (addressCopy + screenMaxChars) [0] addressCopy
      screenMaxChars fits le_rfl]
    exact ended

end Address

/-! ### The transaction screen -/

section Transaction

variable {elsewhere : Int → Byte} {display : Display}

/-- The display once the window was copied and the scroll moved. -/
def Display.windowDrawn (elsewhere : Int → Byte) (display : Display) : Display :=
  ((display.written customTextLine2 (display.bytes elsewhere
      (outAddressPlace + display.currentOffset) (screenMaxChars - 1))).written
    (customTextLine2 + screenMaxChars) [0]).scroll
      (textOf display.device.transactionContext.outAddress).length

/-- The scroll has just turned forward exactly when it went back to an end. -/
theorem scroll_forward_iff (length : Nat) :
    Display.AtEnd (display.scroll length).currentOffset length ∧
        (display.scroll length).direction = 1 ↔
      display.direction = -1 ∧ Display.AtEnd (display.currentOffset - 1) length := by
  have turned : (display.scroll length).direction =
      if Display.AtEnd (display.currentOffset + display.direction) length then -display.direction
      else display.direction := rfl
  show Display.AtEnd (display.currentOffset + display.direction) length ∧ _ ↔ _
  rw [turned]
  constructor
  · rintro ⟨atEnd, forward⟩
    rw [if_pos atEnd] at forward
    have back : display.direction = -1 := by omega
    rw [back] at atEnd
    exact ⟨back, atEnd⟩
  · rintro ⟨back, atEnd⟩
    rw [back]
    exact ⟨atEnd, if_pos atEnd⟩

theorem drawDescriptionLine_eq : drawDescriptionLine elsewhere display =
    if display.ShowsAmount then
      (display.windowDrawn elsewhere).strcpy elsewhere customTextLine2 amountPlace
    else
      .ok (display.windowDrawn elsewhere) := by
  have window := @store_of_fits display customTextLine2 (display.bytes elsewhere
    (outAddressPlace + display.currentOffset) (screenMaxChars - 1))
    (by rw [length_bytes]; decide)
  have zeroed := @store_of_fits (display.written customTextLine2 (display.bytes elsewhere
    (outAddressPlace + display.currentOffset) (screenMaxChars - 1)))
    (customTextLine2 + screenMaxChars) [0] (by decide)
  have shows := @scroll_forward_iff ((display.written customTextLine2 (display.bytes elsewhere
    (outAddressPlace + display.currentOffset) (screenMaxChars - 1))).written
    (customTextLine2 + screenMaxChars) [0])
    (textOf display.device.transactionContext.outAddress).length
  unfold drawDescriptionLine
  simp only [bind, Except.bind, window, zeroed]
  by_cases amount : display.ShowsAmount
  · rw [if_pos amount, if_pos (shows.mpr amount)]
    rfl
  · rw [if_neg amount, if_neg fun ended => amount (shows.mp ended)]
    rfl

/-- The label behind the window: what was copied, the byte left as it was, and the zero. -/
theorem windowDrawn_label :
    (display.windowDrawn elsewhere).labels.read customTextLine2 screenMaxChars =
      display.bytes elsewhere (outAddressPlace + display.currentOffset) (screenMaxChars - 1) ++
        display.labels.read (customTextLine2 + screenMaxChars - 1) 1 := by
  set window := display.bytes elsewhere (outAddressPlace + display.currentOffset)
    (screenMaxChars - 1)
  have length : window.length = 15 := length_bytes elsewhere _ _ _
  have front := @read_written display customTextLine2 window (by rw [length]; decide)
  rw [length] at front
  show ((display.labels.write customTextLine2 window).write (customTextLine2 + screenMaxChars)
    [0]).read customTextLine2 (15 + 1) = _
  have back := display.labels.read_write_after customTextLine2 window (customTextLine2 + 15) 1
    (by rw [length]; decide) (by rw [length])
  rw [Cells.read_write_before _ _ _ _ _ (by decide) (by decide), Cells.read_add, back]
  exact congrArg (· ++ display.labels.read (customTextLine2 + 15) 1) front

theorem windowDrawn_changesOnly_iff :
    Cells.ChangesOnly customTextLine2 screenMaxChars display.labels
        (display.windowDrawn elsewhere).labels ↔
      display.labels.contents[customTextLine2 + screenMaxChars]? = some 0 := by
  have length := length_bytes elsewhere display (outAddressPlace + display.currentOffset)
    (screenMaxChars - 1)
  exact changesOnly_ended_iff (by decide)
    ((Cells.ChangesOnly.refl customTextLine2 screenMaxChars display.labels).write
      (by rw [length]; decide) le_rfl (by rw [length]; decide))

/-- The amount that replaces the window fits the label, or it leaves no zero there. -/
theorem strcpy_amount (elsewhere : Int → Byte) (display : Display) :
    (∃ text : Bytes, 0 ∈ display.device.transactionContext.amount.contents ∧
        text.length < screenMaxChars ∧
        (display.windowDrawn elsewhere).strcpy elsewhere customTextLine2 amountPlace =
          .ok ((display.windowDrawn elsewhere).written customTextLine2 (text ++ [0]))) ∨
      0 ∉ display.device.transactionContext.amount.contents ∧
        ∀ after, (display.windowDrawn elsewhere).strcpy elsewhere customTextLine2 amountPlace =
            .ok after → 0 ∉ after.labels.read customTextLine2 screenMaxChars := by
  have split := strcpy_split elsewhere (display.windowDrawn elsewhere) amountPlace
    (show customTextLine2 + screenMaxChars ≤ 52 by decide)
  have near : min screenMaxChars
      ((amountPlace : Int) - (labelsPlace + customTextLine2 : Nat)).natAbs = screenMaxChars := by
    decide
  have amount : (display.windowDrawn elsewhere).bytes elsewhere amountPlace screenMaxChars =
      display.device.transactionContext.amount.contents := bytes_amount elsewhere _
  simp only [near, amount] at split
  exact split

/-- The amount that replaces the window keeps to the label exactly when it ends in it. -/
theorem amount_redraws_iff :
    RedrawsOnly (some customTextLine2) display
        ((fun drawn => (true, drawn)) <$>
          (display.windowDrawn elsewhere).strcpy elsewhere customTextLine2 amountPlace) ↔
      display.labels.contents[customTextLine2 + screenMaxChars]? = some 0 ∧
        0 ∈ display.device.transactionContext.amount.contents := by
  rcases strcpy_amount elsewhere display with ⟨text, ends, less, copied⟩ | ⟨endless, fails⟩
  · rw [copied, ← @windowDrawn_changesOnly_iff elsewhere display, and_iff_left ends]
    have length : (text ++ [0]).length = text.length + 1 := List.length_append
    have rewritten := @Cells.changesOnly_write_iff _ _ customTextLine2 screenMaxChars
      display.labels (display.windowDrawn elsewhere).labels (text ++ [0])
      (by rw [length]; exact (Nat.add_le_add_left less _).trans (by decide))
      (by rw [length]; exact less)
    rw [← rewritten]
    constructor
    · rintro ⟨displayed, after, went, _, only, _⟩
      cases went
      exact only
    · intro only
      exact ⟨true, _, rfl, rfl, only, ended_written less (by decide)⟩
  · refine ⟨fun redraws => ?_, fun both => absurd both.2 endless⟩
    obtain ⟨displayed, after, went, _, _, ended⟩ := redraws
    obtain ⟨copied, copy, same⟩ := map_ok went
    cases same
    exact absurd ended (fails _ copy)

/-- The description label is all that is redrawn exactly when `DescriptionFits`. -/
theorem descriptionLine_redraws_iff :
    RedrawsOnly (some customTextLine2) display
        ((fun drawn => (true, drawn)) <$> drawDescriptionLine elsewhere display) ↔
      display.DescriptionFits elsewhere := by
  rw [drawDescriptionLine_eq, Display.DescriptionFits]
  by_cases amount : display.ShowsAmount
  · rw [if_pos amount, if_pos amount]
    exact amount_redraws_iff
  · rw [if_neg amount, if_neg amount, ← @windowDrawn_changesOnly_iff elsewhere display,
      ← Cells.mem_read_one, ← List.mem_append, ← windowDrawn_label]
    constructor
    · rintro ⟨displayed, after, went, _, only, ended⟩
      cases went
      exact ⟨only, ended⟩
    · rintro ⟨only, ended⟩
      exact ⟨true, _, rfl, rfl, only, ended⟩

theorem drawInfoLine_eq : drawInfoLine display = .ok
    (if display.currentOffset = -1 then
      (display.written customTextLine1 (addressLineText ++ [0])).written customTextLine1
        (skyLineText ++ [0])
    else
      display.written customTextLine1 (addressLineText ++ [0])) := by
  have named := @store_of_fits display customTextLine1 (addressLineText ++ [0]) (by decide)
  have priced := @store_of_fits (display.written customTextLine1 (addressLineText ++ [0]))
    customTextLine1 (skyLineText ++ [0]) (by decide)
  unfold drawInfoLine
  simp only [bind, Except.bind, named]
  split
  · exact priced
  · rfl

/-- The info line fits its label always. -/
theorem infoLine_redraws :
    RedrawsOnly (some customTextLine1) display
      ((fun drawn => (true, drawn)) <$> drawInfoLine display) := by
  have only := (Cells.ChangesOnly.refl customTextLine1 screenMaxChars display.labels).write
    (show customTextLine1 + (addressLineText ++ [0]).length ≤ 52 by decide) le_rfl (by decide)
  rw [drawInfoLine_eq]
  split
  · exact ⟨true, _, rfl, rfl, only.write (by decide) le_rfl (by decide),
      ended_written (by decide) (by decide)⟩
  · exact ⟨true, _, rfl, rfl, only, ended_written (by decide) (by decide)⟩

end Transaction

/-! ### Both screens -/

section Screens

variable {elsewhere : Int → Byte} {display : Display} {userid : Nat}

theorem addressScreen_redraws_iff :
    RedrawsOnly (addressLabel userid) display
        (uiAddressScrollingTextPrepro elsewhere userid display) ↔
      (userid = 0x83 → display.AddressFits elsewhere) := by
  by_cases label : userid = 0x83
  · subst label
    rw [addressLabel, if_pos rfl, addressLabel_redraws_iff]
    exact ⟨fun fits _ => fits, fun fits => fits rfl⟩
  · rw [addressLabel, uiAddressScrollingTextPrepro, if_neg label, if_neg label]
    exact ⟨fun _ same => absurd same label, fun _ => ⟨true, display, rfl, rfl, rfl⟩⟩

theorem transactionScreen_redraws_iff :
    RedrawsOnly (display.transactionLabel userid) display
        (transactionScreenPrepro elsewhere userid display) ↔
      (display.device.signTxnContext.txnState = .txnOut → userid = 0x83 →
        display.DescriptionFits elsewhere) := by
  unfold Display.transactionLabel transactionScreenPrepro
  by_cases output : display.device.signTxnContext.txnState = .txnOut
  · rw [if_pos output, if_pos output]
    by_cases info : userid = 0x80
    · subst info
      rw [if_pos rfl, if_pos rfl]
      exact ⟨fun _ _ same => absurd same (by decide), fun _ => infoLine_redraws⟩
    · rw [if_neg info, if_neg info]
      by_cases label : userid = 0x83
      · rw [if_pos label, if_pos label, descriptionLine_redraws_iff]
        exact ⟨fun fits _ _ => fits, fun fits => fits output label⟩
      · rw [if_neg label, if_neg label]
        exact ⟨fun _ _ same => absurd same label, fun _ => ⟨true, display, rfl, rfl, rfl⟩⟩
  · rw [if_neg output, if_neg output]
    exact ⟨fun _ same => absurd same output, fun _ => ⟨_, display, rfl, rfl, rfl⟩⟩

end Screens

/-- A run of the address screen's preprocessor keeps to its label exactly when it draws none or
`AddressFits`; one of the transaction screen's when it draws no description of an output or
`DescriptionFits`. -/
theorem label_redraws_iff (elsewhere : Int → Byte) (userid : Nat) (display : Display) :
    (RedrawsOnly (addressLabel userid) display
        (uiAddressScrollingTextPrepro elsewhere userid display) ↔
      (userid = 0x83 → display.AddressFits elsewhere)) ∧
    (RedrawsOnly (display.transactionLabel userid) display
        (transactionScreenPrepro elsewhere userid display) ↔
      (display.device.signTxnContext.txnState = .txnOut → userid = 0x83 →
        display.DescriptionFits elsewhere)) :=
  ⟨addressScreen_redraws_iff, transactionScreen_redraws_iff⟩

/-- The choice of the address screen at start-up. -/
def addressScreenAtStart : List Display.Happening :=
  [.input .addressScreen]

theorem redraw_can_leave_label : ¬ ∀ (happenings : List Display.Happening) (display : Display),
    Display.run Sdk.plain (fun _ => 0) Display.boot happenings = .ok display →
      display.device.scrolledText = some noAddressText →
        RedrawsOnly (addressLabel 0x83) display
          (uiAddressScrollingTextPrepro (fun _ => 0) 0x83 display) := by
  intro all
  have redraws := all addressScreenAtStart _ rfl (by decide +kernel)
  obtain ⟨fits, _⟩ := addressLabel_redraws_iff.mp redraws
  revert fits
  decide +kernel

end LedgerNano
