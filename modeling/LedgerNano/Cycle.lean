/-
This file is about what a user who waits gets to see of an output.

An address does not fit the screen: it scrolls over it in windows of 15 letters, there and back,
and the amount comes up for one redisplay each time the scroll is back at the start. The redisplay
after that copies from the byte before the address, which is zero, and leaves the line empty
(`Frame`). The scroll is a cycle (`Bounce.Inside.reaches`), so from wherever it stands every window
of the address and the amount are drawn within twice as many redisplays as there are windows
(`output_is_shown`).
-/

import LedgerNano.Redraws
import LedgerNano.Shown

namespace LedgerNano

namespace Display

/-! ### Lines -/

/-- What is drawn of a label. -/
def line (display : Display) (label : Nat) : Bytes :=
  (display.labels.read label screenMaxChars).takeWhile (· != 0)

/-- Redisplays of the transaction screen, without anything between. -/
def redisplays (count : Nat) : List Happening := (List.replicate count redisplay).flatten

section Lines

variable {elsewhere : Int → Byte} {display : Display}

/-- A string that is written with its zero is the line, if it fits the label. -/
theorem line_written {label : Nat} {text : Bytes} (short : text.length < screenMaxChars)
    (room : label + screenMaxChars ≤ 52) (letters : ∀ letter ∈ text, letter ≠ 0) :
    (display.written label (text ++ [0])).line label = text := by
  have length : (text ++ [0]).length = text.length + 1 := List.length_append
  have fits : label + (text ++ [0]).length ≤ 52 := by omega
  have stored := @read_written display label (text ++ [0]) fits
  have each : ∀ letter ∈ text, (letter != 0) = true := fun letter member =>
    bne_iff_ne.mpr (letters letter member)
  have split : screenMaxChars = (text ++ [0]).length + (screenMaxChars - (text.length + 1)) := by
    omega
  rw [line, split, Cells.read_add, stored, List.append_assoc,
    List.takeWhile_append_of_pos each, List.singleton_append, List.takeWhile_cons]
  simp only [bne_self_eq_false, Bool.false_eq_true, if_false, List.append_nil]

/-- A line keeps what is written behind or before its label. -/
theorem line_written_other {label other : Nat} {values : Bytes}
    (fits : other + values.length ≤ 52)
    (apart : other + values.length ≤ label ∨ label + screenMaxChars ≤ other) :
    (display.written other values).line label = display.line label := by
  rw [line, line]
  rcases apart with before | behind
  · exact congrArg _
      (display.labels.read_write_after other values label screenMaxChars fits before)
  · exact congrArg _
      (display.labels.read_write_before other values label screenMaxChars fits behind)

theorem letters_ne_zero {text : Bytes} (all : text.all (· != 0) = true) :
    ∀ letter ∈ text, letter ≠ 0 :=
  fun letter member => bne_iff_ne.mp (List.all_eq_true.mp all letter member)

theorem textOf_ne_zero {size : Nat} (array : Cells Byte size) :
    ∀ letter ∈ textOf array, letter ≠ 0 := by
  rintro letter member rfl
  exact not_mem_takeWhile _ member

/-- The string of the output is what stands at its place. -/
theorem bytes_outAddress_all (elsewhere : Int → Byte) (display : Display) :
    display.bytes elsewhere outAddressPlace 36 =
      display.device.transactionContext.outAddress.contents := by
  have split : display.globalBytes =
      display.device.getPublicKeyContext.bip44Path.contents.flatMap le32 ++
        display.device.getPublicKeyContext.address.contents ++ display.labels.contents ++
          display.device.transactionContext.currentOutputDisplay.contents ++
        display.device.transactionContext.outAddress.contents ++
          display.device.transactionContext.amount.contents := rfl
  have read := bytes_field elsewhere display split
  simp only [List.length_append, length_flatMap_le32, Cells.length_contents] at read
  exact read

theorem bytes_add (elsewhere : Int → Byte) (display : Display) (place : Int)
    (skipped count : Nat) : display.bytes elsewhere (place + skipped) count =
      (display.bytes elsewhere place (skipped + count)).drop skipped := by
  rw [bytes, bytes, List.range_add, List.map_append,
    List.drop_left' (by rw [List.length_map, List.length_range]), List.map_map]
  refine List.map_congr_left fun index _ => congrArg (display.byte elsewhere) ?_
  push_cast
  ring

/-- The letters of the address at a place. -/
theorem bytes_outAddress (elsewhere : Int → Byte) (display : Display) {place count : Nat}
    (inside : place + count ≤ (textOf display.device.transactionContext.outAddress).length) :
    display.bytes elsewhere (outAddressPlace + place) count =
      ((textOf display.device.transactionContext.outAddress).drop place).take count := by
  set address := textOf display.device.transactionContext.outAddress
  have whole := display.device.transactionContext.outAddress.contents.takeWhile_append_dropWhile
    (p := (· != 0))
  have size := display.device.transactionContext.outAddress.length_contents
  have within : place + count ≤ 36 := by
    have prefix_length := congrArg List.length whole
    rw [List.length_append, size] at prefix_length
    have same : (display.device.transactionContext.outAddress.contents.takeWhile
      (· != 0)).length = address.length := rfl
    omega
  rw [bytes_add, ← take_bytes elsewhere display outAddressPlace within, bytes_outAddress_all,
    ← whole]
  show ((address ++ _).take (place + count)).drop place = _
  rw [List.take_append_of_le_length inside, List.drop_take, Nat.add_sub_cancel_left]

/-- A window inside the address is the line once it is drawn. -/
theorem line_windowDrawn (spare : Spare display.labels) {place : Nat}
    (offset : display.currentOffset = place)
    (inside : place + 15 ≤ (textOf display.device.transactionContext.outAddress).length) :
    (display.windowDrawn elsewhere).line customTextLine2 =
      ((textOf display.device.transactionContext.outAddress).drop place).take 15 := by
  have last : display.labels.read (customTextLine2 + screenMaxChars - 1) 1 = [0] := by
    obtain ⟨within, same⟩ := List.getElem?_eq_some_iff.mp spare.1
    rw [Cells.read_succ _ _ _ (by decide), Cells.read_zero]
    exact congrArg (fun byte => [byte]) same
  have letters : ∀ letter ∈ ((textOf display.device.transactionContext.outAddress).drop place).take
      15, (letter != 0) = true := fun letter member =>
    bne_iff_ne.mpr (textOf_ne_zero _ letter (List.mem_of_mem_drop (List.mem_of_mem_take member)))
  rw [line, windowDrawn_label, last, offset]
  have window := bytes_outAddress elsewhere display inside
  rw [show screenMaxChars - 1 = 15 from rfl, window, List.takeWhile_append_of_pos letters]
  exact List.append_nil _

/-- The amount is copied whole. -/
theorem strcpy_amount_eq (ends : 0 ∈ display.device.transactionContext.amount.contents) :
    (textOf display.device.transactionContext.amount).length < screenMaxChars ∧
      display.strcpy elsewhere customTextLine2 amountPlace = .ok (display.written customTextLine2
        (textOf display.device.transactionContext.amount ++ [0])) := by
  have size := display.device.transactionContext.amount.length_contents
  have front : (display.bytes elsewhere amountPlace 72).take screenMaxChars =
      display.device.transactionContext.amount.contents := by
    rw [take_bytes elsewhere display amountPlace (by decide), bytes_amount]
  have short : (textOf display.device.transactionContext.amount).length < screenMaxChars :=
    (length_takeWhile_lt_iff (le_of_eq size.symm)).mpr
      (by rw [List.take_of_length_le (le_of_eq size)]; exact ends)
  have text : (display.bytes elsewhere amountPlace 72).takeWhile (· != 0) =
      textOf display.device.transactionContext.amount := by
    rw [← List.take_append_drop screenMaxChars (display.bytes elsewhere amountPlace 72), front,
      List.takeWhile_append, if_neg]
    · rfl
    · rw [size]
      exact short.ne
  refine ⟨short, ?_⟩
  have apart : ((amountPlace : Int) - (labelsPlace + customTextLine2 : Nat)).natAbs = 72 := rfl
  unfold strcpy
  simp only [apart]
  rw [text, if_pos (short.trans (by decide)), store_of_fits (by
    rw [List.length_append]
    exact Nat.add_le_add_left short _ |>.trans (by decide))]

end Lines

/-! ### Redisplays -/

theorem redisplays_succ (count : Nat) : redisplays (count + 1) = redisplays count ++ redisplay := by
  rw [redisplays, List.replicate_succ', List.flatten_concat, redisplays]

/-- An output is on the screen, with the window inside its address and a zero before it. -/
structure Showing (display : Display) : Prop where
  invariant : RedrawInvariant display
  screen : display.device.screen = .transaction
  output : display.device.signTxnContext.txnState = .txnOut
  margin : display.device.transactionContext.currentOutputDisplay.contents[screenMaxChars - 1]? =
    some 0

/-- The address of the output. -/
def outAddress (display : Display) : Bytes := textOf display.device.transactionContext.outAddress

/-- The amount of the output. -/
def amount (display : Display) : Bytes := textOf display.device.transactionContext.amount

section Redisplay

variable {sdk : Sdk} {elsewhere : Int → Byte} {display after : Display}

theorem Showing.fits (showing : Showing display) : display.WindowFits display.outAddress := by
  refine showing.invariant.window.window _ ?_
  rw [Device.scrolledText, showing.screen]
  exact if_pos showing.output

theorem Showing.draw (showing : Showing display) {userid : Nat}
    (went : step sdk elsewhere display (.draw userid) = .ok after) :
    Showing after ∧ after.device = display.device := by
  have device := (drawn_step went).device
  have fits : display.SwapFits sdk (.draw userid) := trivial
  exact ⟨⟨showing.invariant.step fits went, device ▸ showing.screen, device ▸ showing.output,
    device ▸ showing.margin⟩, device⟩

/-- The elements without a line. -/
theorem Showing.draw_other (showing : Showing display) (sdk : Sdk) (elsewhere : Int → Byte)
    {userid : Nat} (info : userid ≠ 0x80) (description : userid ≠ 0x83) :
    step sdk elsewhere display (.draw userid) = .ok display := by
  unfold step
  simp only [showing.screen]
  rw [transactionScreenPrepro, if_pos showing.output, if_neg info, if_neg description]
  rfl

/-- The description line. -/
theorem Showing.draw_description (showing : Showing display) (sdk : Sdk) (elsewhere : Int → Byte) :
    step sdk elsewhere display (.draw 0x83) = drawDescriptionLine elsewhere display := by
  unfold step
  simp only [showing.screen]
  rw [transactionScreenPrepro, if_pos showing.output, if_neg (by decide), if_pos rfl]
  cases drawDescriptionLine elsewhere display <;> rfl

/-- The info line. -/
theorem Showing.draw_info (showing : Showing display) (sdk : Sdk) (elsewhere : Int → Byte) :
    step sdk elsewhere display (.draw 0x80) = drawInfoLine display := by
  unfold step
  simp only [showing.screen]
  rw [transactionScreenPrepro, if_pos showing.output, if_pos rfl]
  cases drawInfoLine display <;> rfl

/-- The description line is drawn before the info line, which goes by where the scroll then is. -/
theorem Showing.redisplay (showing : Showing display) (sdk : Sdk) (elsewhere : Int → Byte) :
    ∃ described after, drawDescriptionLine elsewhere display = .ok described ∧
      drawInfoLine described = .ok after ∧ Showing after ∧ after.device = display.device ∧
        run sdk elsewhere display LedgerNano.redisplay = .ok after := by
  obtain ⟨described, drew, _⟩ := showing.invariant.draw sdk elsewhere 0x83
  obtain ⟨showingDescribed, device⟩ := showing.draw drew
  obtain ⟨after, named, _⟩ := showingDescribed.invariant.draw sdk elsewhere 0x80
  obtain ⟨showingAfter, deviceAfter⟩ := showingDescribed.draw named
  refine ⟨described, after, (showing.draw_description sdk elsewhere) ▸ drew,
    (showingDescribed.draw_info sdk elsewhere) ▸ named, showingAfter, deviceAfter.trans device, ?_⟩
  have other : ∀ userid ∈ [0, 0x01, 0x02, 0x11],
      step sdk elsewhere display (.draw userid) = .ok display := by
    intro userid member
    refine showing.draw_other sdk elsewhere ?_ ?_ <;> rintro rfl <;> revert member <;> decide
  show Runs.run (step sdk elsewhere) display [.draw 0, .draw 0x01, .draw 0x02, .draw 0x11,
    .draw 0x83, .draw 0x80] = _
  rw [Runs.run_cons_ok (other 0 (by decide)), Runs.run_cons_ok (other 0x01 (by decide)),
    Runs.run_cons_ok (other 0x02 (by decide)), Runs.run_cons_ok (other 0x11 (by decide)),
    Runs.run_cons_ok drew, Runs.run_cons_ok named]
  rfl

/-- Inside the address the amount is shown on the way back to the start only. -/
theorem Showing.showsAmount_iff (showing : Showing display) :
    display.ShowsAmount ↔ display.position = ⟨0, -1⟩ := by
  have between := showing.fits.between
  have place : display.position.place = display.currentOffset := rfl
  rw [ShowsAmount, atEnd_iff, position, Bounce.Position.mk.injEq]
  show _ ∧ (_ ∨ _ = lastPlace display.outAddress) ↔ _
  constructor
  · rintro ⟨back, atEnd⟩
    exact ⟨by omega, back⟩
  · rintro ⟨start, back⟩
    exact ⟨back, Or.inl (by omega)⟩

end Redisplay

/-! ### The lines after a redisplay -/

/-- What the two lines can be while an output is on the screen. -/
inductive Frame (address coins : Bytes) : Bytes → Bytes → Prop
  /-- A window of the address. -/
  | window (place : Nat) (inside : place + 15 ≤ address.length) :
    Frame address coins addressLineText ((address.drop place).take 15)
  /-- Nothing of the address. -/
  | blank : Frame address coins addressLineText []
  /-- The amount. -/
  | amount : Frame address coins skyLineText coins

section Frames

variable {elsewhere : Int → Byte} {display described after : Display}

/-- The info line is the name of what stands below it. -/
theorem line_info (named : drawInfoLine display = .ok after) :
    after.line customTextLine1 =
        (if display.currentOffset = -1 then skyLineText else addressLineText) ∧
      after.line customTextLine2 = display.line customTextLine2 ∧
        after.position = display.position := by
  rw [drawInfoLine_eq] at named
  cases named
  by_cases start : display.currentOffset = -1
  · rw [if_pos start, if_pos start]
    refine ⟨line_written (by decide) (by decide) (letters_ne_zero rfl), ?_, rfl⟩
    rw [line_written_other (by decide) (Or.inl (by decide)),
      line_written_other (by decide) (Or.inl (by decide))]
  · rw [if_neg start, if_neg start]
    exact ⟨line_written (by decide) (by decide) (letters_ne_zero rfl),
      line_written_other (by decide) (Or.inl (by decide)), rfl⟩

/-- The byte before the address. -/
theorem byte_margin (elsewhere : Int → Byte)
    (margin : display.device.transactionContext.currentOutputDisplay.contents[screenMaxChars - 1]? =
      some 0) : display.byte elsewhere (outAddressPlace + -1) = 0 := by
  have split : display.globalBytes =
      display.device.getPublicKeyContext.bip44Path.contents.flatMap le32 ++
        display.device.getPublicKeyContext.address.contents ++ display.labels.contents ++
        display.device.transactionContext.currentOutputDisplay.contents ++
          (display.device.transactionContext.outAddress.contents ++
            display.device.transactionContext.amount.contents) := by
    simp only [globalBytes, List.append_assoc]
  have read := bytes_field elsewhere display split
  simp only [List.length_append, length_flatMap_le32, Cells.length_contents] at read
  rw [← read] at margin
  obtain ⟨inside, same⟩ := List.getElem?_eq_some_iff.mp margin
  simp only [bytes, List.getElem_map, List.getElem_range] at same
  exact same

/-- Before the address the line is empty. -/
theorem line_windowDrawn_before (elsewhere : Int → Byte) (offset : display.currentOffset = -1)
    (margin : display.device.transactionContext.currentOutputDisplay.contents[screenMaxChars - 1]? =
      some 0) : (display.windowDrawn elsewhere).line customTextLine2 = [] := by
  have zero := byte_margin elsewhere margin
  have first : display.bytes elsewhere (outAddressPlace + -1) (screenMaxChars - 1) =
      display.byte elsewhere (outAddressPlace + -1) ::
        (display.bytes elsewhere (outAddressPlace + -1) (screenMaxChars - 1)).drop 1 := rfl
  rw [line, windowDrawn_label, offset, first, zero]
  rfl

end Frames

section Redisplayed

variable {sdk : Sdk} {elsewhere : Int → Byte} {display : Display}

/-- What a redisplay does: the scroll moves on, and the lines are those of where it was. -/
structure Redisplayed (display after : Display) : Prop where
  showing : Showing after
  device : after.device = display.device
  position : after.position = Bounce.move (-1) (lastPlace display.outAddress) display.position
  atStart : display.position = ⟨0, -1⟩ →
    after.line customTextLine1 = skyLineText ∧ after.line customTextLine2 = display.amount
  before : display.position.place = -1 →
    after.line customTextLine1 = addressLineText ∧ after.line customTextLine2 = []
  within : ∀ place : Nat, display.position.place = place → display.position ≠ ⟨0, -1⟩ →
    after.line customTextLine1 = addressLineText ∧
      after.line customTextLine2 = (display.outAddress.drop place).take 15

theorem Showing.redisplayed (showing : Showing display) (sdk : Sdk) (elsewhere : Int → Byte) :
    ∃ after, run sdk elsewhere display LedgerNano.redisplay = .ok after ∧
      Redisplayed display after := by
  obtain ⟨described, after, drew, named, showingAfter, device, ran⟩ :=
    showing.redisplay sdk elsewhere
  obtain ⟨info, kept, still⟩ := line_info named
  have inside := showing.fits
  have between := inside.between
  have offset : display.position.place = display.currentOffset := rfl
  have moves : (display.windowDrawn elsewhere).position =
      Bounce.move (-1) (lastPlace display.outAddress) display.position := scroll_position _
  have next : (Bounce.move (-1) (lastPlace display.outAddress) display.position).place =
      display.position.place + display.position.way := rfl
  rw [drawDescriptionLine_eq] at drew
  refine ⟨after, ran, ?_⟩
  by_cases amount : display.ShowsAmount
  · rw [if_pos amount] at drew
    have start := showing.showsAmount_iff.mp amount
    obtain ⟨short, copied⟩ := @strcpy_amount_eq elsewhere (display.windowDrawn elsewhere)
      showing.invariant.window.sound.amount
    cases copied.symm.trans drew
    have ended : (display.windowDrawn elsewhere).currentOffset = -1 := by
      show (display.windowDrawn elsewhere).position.place = -1
      rw [moves, next, start]
      rfl
    refine ⟨showingAfter, device, still.trans moves, fun _ => ⟨?_, ?_⟩, fun before => ?_,
      fun place _ other => absurd start other⟩
    · rw [info]
      exact if_pos ended
    · rw [kept]
      exact line_written short (by decide) (textOf_ne_zero _)
    · rw [start] at before
      cases before
  · rw [if_neg amount] at drew
    cases drew
    have other : display.position ≠ ⟨0, -1⟩ := fun start =>
      amount (showing.showsAmount_iff.mpr start)
    have ahead : (display.windowDrawn elsewhere).currentOffset ≠ -1 := by
      show (display.windowDrawn elsewhere).position.place ≠ -1
      rw [moves, next]
      intro start
      refine other ?_
      rcases inside with ⟨way, above, _⟩ | ⟨way, above, _⟩
      · omega
      · exact congrArg₂ Bounce.Position.mk (by omega) way
    have addressed : after.line customTextLine1 = addressLineText := by
      rw [info]
      exact if_neg ahead
    refine ⟨showingAfter, device, still.trans moves, fun start => absurd start other,
      fun before => ⟨addressed, ?_⟩, fun place here _ => ⟨addressed, ?_⟩⟩
    · rw [kept]
      exact line_windowDrawn_before elsewhere before showing.margin
    · rw [kept]
      refine line_windowDrawn showing.invariant.spare here ?_
      show place + 15 ≤ display.outAddress.length
      have last : lastPlace display.outAddress = (display.outAddress.length : Int) - 15 := rfl
      omega

/-- Redisplay after redisplay the scroll goes through its cycle, and nothing else happens. -/
theorem Showing.redisplays (showing : Showing display) (sdk : Sdk) (elsewhere : Int → Byte)
    (count : Nat) : ∃ after, run sdk elsewhere display (redisplays count) = .ok after ∧
      Showing after ∧ after.device = display.device ∧
        after.position = (Bounce.move (-1) (lastPlace display.outAddress))^[count]
          display.position := by
  induction count with
  | zero => exact ⟨display, rfl, showing, rfl, rfl⟩
  | succ count inductionHypothesis =>
    obtain ⟨middle, ran, showingMiddle, device, position⟩ := inductionHypothesis
    obtain ⟨after, redrew, redisplayed⟩ := showingMiddle.redisplayed sdk elsewhere
    have same : middle.outAddress = display.outAddress := by rw [outAddress, device, outAddress]
    refine ⟨after, ?_, redisplayed.showing, redisplayed.device.trans device, ?_⟩
    · rw [redisplays_succ, run, Runs.run_append ran]
      exact redrew
    · rw [redisplayed.position, same, position, Function.iterate_succ_apply']

/-- A redisplay after some others. -/
theorem Showing.redisplayed_after (showing : Showing display) (sdk : Sdk)
    (elsewhere : Int → Byte) (count : Nat) : ∃ middle after,
      Showing middle ∧ middle.device = display.device ∧
        middle.position = (Bounce.move (-1) (lastPlace display.outAddress))^[count]
          display.position ∧
        run sdk elsewhere display (Display.redisplays (count + 1)) = .ok after ∧
          Redisplayed middle after := by
  obtain ⟨middle, ran, showingMiddle, device, position⟩ := showing.redisplays sdk elsewhere count
  obtain ⟨after, redrew, redisplayed⟩ := showingMiddle.redisplayed sdk elsewhere
  refine ⟨middle, after, showingMiddle, device, position, ?_, redisplayed⟩
  rw [redisplays_succ, run, Runs.run_append ran]
  exact redrew

/-- Some redisplays draw the two lines, and nothing else happens. -/
def Draws (sdk : Sdk) (elsewhere : Int → Byte) (display : Display) (count : Nat)
    (info description : Bytes) : Prop :=
  ∃ after, run sdk elsewhere display (Display.redisplays count) = .ok after ∧
    after.device = display.device ∧ after.line customTextLine1 = info ∧
      after.line customTextLine2 = description

/-- Every redisplay draws a frame of the output. -/
theorem Showing.draws_frame (showing : Showing display) (sdk : Sdk) (elsewhere : Int → Byte)
    (count : Nat) : ∃ info description, display.Draws sdk elsewhere (count + 1) info description ∧
      Frame display.outAddress display.amount info description := by
  obtain ⟨middle, after, showingMiddle, device, _, ran, redisplayed⟩ :=
    showing.redisplayed_after sdk elsewhere count
  refine ⟨_, _, ⟨after, ran, redisplayed.device.trans device, rfl, rfl⟩, ?_⟩
  have address : display.outAddress = middle.outAddress := by rw [outAddress, outAddress, device]
  have amount : display.amount = middle.amount := by rw [Display.amount, Display.amount, device]
  have between := showingMiddle.fits.between
  have last : lastPlace middle.outAddress = (middle.outAddress.length : Int) - 15 := rfl
  rw [address, amount]
  by_cases start : middle.position = ⟨0, -1⟩
  · obtain ⟨info, description⟩ := redisplayed.atStart start
    rw [info, description]
    exact Frame.amount
  by_cases before : middle.position.place = -1
  · obtain ⟨info, description⟩ := redisplayed.before before
    rw [info, description]
    exact Frame.blank
  · obtain ⟨place, here⟩ := Int.eq_ofNat_of_zero_le (show 0 ≤ middle.position.place by omega)
    obtain ⟨info, description⟩ := redisplayed.within place here start
    rw [info, description]
    exact Frame.window place (by omega)

/-- Every frame of the output is drawn before the cycle is over. -/
theorem Showing.frame_drawn (showing : Showing display) (sdk : Sdk) (elsewhere : Int → Byte)
    {info description : Bytes} (frame : Frame display.outAddress display.amount info description) :
    ∃ count ≤ 2 * (display.outAddress.length - 14),
      display.Draws sdk elsewhere count info description := by
  have shown : display.device.scrolledText = some display.outAddress := by
    rw [Device.scrolledText, showing.screen]
    exact if_pos showing.output
  have long := length_scrolledText showing.invariant.window.sound shown showing.fits.ne_nil
  have last : lastPlace display.outAddress = (display.outAddress.length : Int) - 15 := rfl
  have reached : ∀ target : Bounce.Position,
      Bounce.Inside (-1) (lastPlace display.outAddress) target →
      ∃ count ≤ 2 * (display.outAddress.length - 14), ∃ middle after,
        middle.device = display.device ∧ middle.position = target ∧
          run sdk elsewhere display (Display.redisplays count) = .ok after ∧
            Redisplayed middle after := by
    intro target inside
    obtain ⟨count, bound, there⟩ := Bounce.Inside.reaches showing.fits inside
    obtain ⟨middle, after, _, device, position, ran, redisplayed⟩ :=
      showing.redisplayed_after sdk elsewhere count
    exact ⟨count + 1, by omega, middle, after, device, position.trans there, ran, redisplayed⟩
  cases frame with
  | window place inside =>
    -- the last window is drawn on the way back
    obtain ⟨target, fits, here, other⟩ : ∃ target : Bounce.Position,
        Bounce.Inside (-1) (lastPlace display.outAddress) target ∧ target.place = place ∧
          target ≠ ⟨0, -1⟩ := by
      by_cases far : place + 15 = display.outAddress.length
      · refine ⟨⟨place, -1⟩, Or.inr ⟨rfl, ?_, ?_⟩, rfl, fun start => ?_⟩
        · show (-1 : Int) < place
          omega
        · show (place : Int) ≤ lastPlace display.outAddress
          omega
        · have zero : (place : Int) = 0 := congrArg Bounce.Position.place start
          omega
      · refine ⟨⟨place, 1⟩, Or.inl ⟨rfl, ?_, ?_⟩, rfl, fun start => ?_⟩
        · show (-1 : Int) ≤ place
          omega
        · show (place : Int) < lastPlace display.outAddress
          omega
        · cases congrArg Bounce.Position.way start
    obtain ⟨count, bound, middle, after, device, position, ran, redisplayed⟩ := reached target fits
    obtain ⟨info, description⟩ := redisplayed.within place (position ▸ here) (position ▸ other)
    refine ⟨count, bound, after, ran, redisplayed.device.trans device, info, ?_⟩
    rw [description, outAddress, device, outAddress]
  | blank =>
    obtain ⟨count, bound, middle, after, device, position, ran, redisplayed⟩ :=
      reached ⟨-1, 1⟩ (Or.inl ⟨rfl, le_rfl, show (-1 : Int) < lastPlace _ by omega⟩)
    obtain ⟨info, description⟩ := redisplayed.before (by rw [position])
    exact ⟨count, bound, after, ran, redisplayed.device.trans device, info, description⟩
  | amount =>
    obtain ⟨count, bound, middle, after, device, position, ran, redisplayed⟩ :=
      reached ⟨0, -1⟩ (Or.inr ⟨rfl, show (-1 : Int) < 0 by decide,
        show (0 : Int) ≤ lastPlace _ by omega⟩)
    obtain ⟨info, description⟩ := redisplayed.atStart position
    refine ⟨count, bound, after, ran, redisplayed.device.trans device, info, ?_⟩
    rw [description, Display.amount, device, Display.amount]

end Redisplayed

/-! ### Whole runs -/

theorem run_prepared {sdk : Sdk} {elsewhere : Int → Byte} {happenings : List Happening}
    {display : Display} (ran : run sdk elsewhere boot happenings = .ok display) :
    PreparedInvariant sdk display.device := by
  refine Runs.run_invariant (motive := fun reached : Display =>
    PreparedInvariant sdk reached.device) (fun before happening next invariant _ went => ?_)
    (preparedInvariant_boot sdk) (Runs.along_true boot happenings) ran
  cases happening with
  | draw userid =>
    rw [(drawn_step went).device]
    exact invariant
  | input input =>
    obtain ⟨device, stepped, rfl⟩ := step_input_of_ok went
    exact invariant.step stepped

end Display

/-- In every run in which the window finds its strings, whenever an output is on the screen and
nothing but redisplays happens, each of them draws a window of the address of the output that was
prepared last, nothing, or its amount; and all of these are drawn, the whole address in its windows
and the amount, within twice as many redisplays as there are windows. -/
theorem output_is_shown {sdk : Sdk} {elsewhere : Int → Byte} {happenings : List Display.Happening}
    {display : Display} {output : TxnOutput}
    (along : Runs.Along (Display.step sdk elsewhere) (Display.SwapFits sdk) Display.boot happenings)
    (ran : Display.run sdk elsewhere Display.boot happenings = .ok display)
    (screen : display.device.screen = .transaction)
    (waits : display.device.signTxnContext.txnState = .txnOut)
    (prepared : lastPrepared display.device.log = some output) :
    (∀ count, ∃ info description, display.Draws sdk elsewhere (count + 1) info description ∧
      Display.Frame (addressText sdk output) (amountText output) info description) ∧
    ∀ info description,
      Display.Frame (addressText sdk output) (amountText output) info description →
        ∃ count ≤ 2 * ((addressText sdk output).length - 14),
          display.Draws sdk elsewhere count info description := by
  obtain ⟨address, amount, margin⟩ := (Display.run_prepared ran).shows output prepared
  have showing : Display.Showing display :=
    ⟨Display.run_redrawInvariant along ran, screen, waits, margin⟩
  rw [← address, ← amount]
  exact ⟨showing.draws_frame sdk elsewhere, fun info description frame =>
    showing.frame_drawn sdk elsewhere frame⟩

/-- The first of two outputs is on the screen. -/
def outputPrepared : List Display.Happening :=
  [.input (.apdu (signApdu 0 twoOutputs twoOutputs_fits)), .input (.button .right)]

/-- The theorem speaks about the first output of a transaction. -/
theorem output_is_shown_sample : ∃ display,
    Display.run Sdk.plain (fun _ => 0) Display.boot outputPrepared = .ok display ∧
    (∀ count, ∃ info description,
      display.Draws Sdk.plain (fun _ => 0) (count + 1) info description ∧
        Display.Frame (addressText Sdk.plain (TxnOutput.ofBytes sampleOutput))
          (amountText (TxnOutput.ofBytes sampleOutput)) info description) ∧
    ∀ info description,
      Display.Frame (addressText Sdk.plain (TxnOutput.ofBytes sampleOutput))
          (amountText (TxnOutput.ofBytes sampleOutput)) info description →
        ∃ count ≤ 2 * ((addressText Sdk.plain (TxnOutput.ofBytes sampleOutput)).length - 14),
          display.Draws Sdk.plain (fun _ => 0) count info description := by
  have ends : Runs.Ends (fun display : Display => display.device.screen = .transaction ∧
      display.device.signTxnContext.txnState = .txnOut ∧
        lastPrepared display.device.log = some (TxnOutput.ofBytes sampleOutput))
      (Display.run Sdk.plain (fun _ => 0) Display.boot outputPrepared) := by decide +kernel
  obtain ⟨display, ran, screen, waits, prepared⟩ := Runs.exists_of_ends ends
  exact ⟨display, ran, output_is_shown (by decide +kernel) ran screen waits prepared⟩

end LedgerNano
