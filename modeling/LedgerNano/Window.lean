/-
This file is about the window that scrolls over an address.

Both screens move it by `Display.scroll`, a bounce between `-1` and the last place at which 15
letters are left. The ends are met by equality, with the string that is shown at the moment, so
the window stays inside as long as every string it is put over takes it in (`SwapFits`): redraws
keep it inside (`Bounce.Inside.move`), and what else happens leaves it where it is or puts it at
the start. A string that does not take it in finds it outside with the next redraw at the latest
(`window_leaves`).
-/

import LedgerNano.Labels
import LedgerNano.Library.Bounce
import LedgerNano.Texts

namespace LedgerNano

/-! ### The window -/

namespace Display

/-- The place of the window and the way it goes. -/
def position (display : Display) : Bounce.Position :=
  ⟨display.currentOffset, display.direction⟩

/-- The last place of the window over a string: 15 letters are left. -/
def lastPlace (text : Bytes) : Int :=
  text.length - (screenMaxChars - 1 : Nat)

/-- The window is between the ends of a string, and does not leave by one of them. -/
def WindowFits (display : Display) (text : Bytes) : Prop :=
  Bounce.Inside (-1) (lastPlace text) display.position

instance (display : Display) (text : Bytes) : Decidable (display.WindowFits text) :=
  inferInstanceAs (Decidable (Bounce.Inside _ _ _))

/-- The inputs that put the window at the start: those that run `go_to_transaction_screen` or
`go_to_address_screen`. -/
def Rewinds (display : Display) : Input → Prop
  | .apdu apdu => display.Opens apdu
  | .button _ => False
  | .addressScreen => display.device.screen = .menu

instance (display : Display) : ∀ input, Decidable (display.Rewinds input)
  | .apdu apdu => inferInstanceAs (Decidable (display.Opens apdu))
  | .button _ => isFalse id
  | .addressScreen => inferInstanceAs (Decidable (display.device.screen = .menu))

/-- A string that an input puts on the screen takes in the window as it stands, or it is not empty
and the input puts the window at the start. -/
def Takes (display : Display) (input : Input) (text : Bytes) : Prop :=
  display.device.scrolledText = some text ∨
    if display.Rewinds input then text ≠ [] else display.WindowFits text

instance (display : Display) (input : Input) (text : Bytes) :
    Decidable (display.Takes input text) :=
  inferInstanceAs (Decidable (_ ∨ _))

/-- What is on the screen after an input takes in the window. -/
def TakesResult (display : Display) (input : Input) : Except Fault Device → Prop
  | .error _ => True
  | .ok device => ∀ text ∈ device.scrolledText, display.Takes input text

instance (display : Display) (input : Input) :
    ∀ result, Decidable (display.TakesResult input result)
  | .error _ => isTrue trivial
  | .ok device => inferInstanceAs (Decidable (∀ text ∈ device.scrolledText, _))

/-- No input puts a string on the screen that does not take in the window. -/
def SwapFits (sdk : Sdk) (display : Display) : Happening → Prop
  | .input input => display.TakesResult input (LedgerNano.step sdk display.device input)
  | .draw _ => True

instance (sdk : Sdk) (display : Display) : ∀ happening, Decidable (display.SwapFits sdk happening)
  | .input input => inferInstanceAs (Decidable (display.TakesResult input _))
  | .draw _ => isTrue trivial

/-! ### What moves the window -/

section Moves

variable {sdk : Sdk} {elsewhere : Int → Byte} {display after : Display}

theorem atEnd_iff (currentOffset : Int) (text : Bytes) :
    AtEnd currentOffset text.length ↔ currentOffset = -1 ∨ currentOffset = lastPlace text := by
  unfold AtEnd lastPlace screenMaxChars
  omega

/-- The scroll is a bounce between the ends of the string. -/
theorem scroll_position (text : Bytes) :
    (display.scroll text.length).position =
      Bounce.move (-1) (lastPlace text) display.position := by
  unfold position scroll Bounce.move
  exact congrArg (Bounce.Position.mk _) (if_congr (atEnd_iff _ text) rfl rfl)

/-- What a copy does to the display. -/
theorem strcpy_of_ok {label : Nat} {place : Int}
    (went : display.strcpy elsewhere label place = .ok after) :
    ∃ values, after = display.written label values := by
  unfold strcpy at went
  simp only at went
  split at went
  · exact ⟨_, (store_of_ok went).2⟩
  · cases went

/-- The display after the drawing of an element: the device is the same, and the window is where it
was, or one move further over the string that is shown. -/
structure Drawn (before after : Display) : Prop where
  device : after.device = before.device
  position : after.position = before.position ∨
    ∃ text, before.device.scrolledText = some text ∧
      after.position = Bounce.move (-1) (lastPlace text) before.position

theorem drawn_address {userid : Nat} {displayed : Bool} (screen : display.device.screen = .address)
    (went : uiAddressScrollingTextPrepro elsewhere userid display = .ok (displayed, after)) :
    Drawn display after := by
  by_cases label : userid = 0x83
  · subst label
    obtain ⟨copied, ended, copy, finish, rfl⟩ := uiAddressScrollingTextPrepro_of_ok went
    obtain ⟨values, rfl⟩ := strcpy_of_ok copy
    obtain ⟨_, rfl⟩ := store_of_ok finish
    have shown : display.device.scrolledText =
        some (textOf display.device.getPublicKeyContext.address) := by
      rw [Device.scrolledText, screen]
    exact ⟨rfl, Or.inr ⟨_, shown, scroll_position _⟩⟩
  · rw [uiAddressScrollingTextPrepro, if_neg label] at went
    cases went
    exact ⟨rfl, Or.inl rfl⟩

theorem drawn_transaction {userid : Nat} {displayed : Bool}
    (screen : display.device.screen = .transaction)
    (went : transactionScreenPrepro elsewhere userid display = .ok (displayed, after)) :
    Drawn display after := by
  unfold transactionScreenPrepro at went
  split at went
  · rename_i output
    split at went
    · obtain ⟨drawn, drew, same⟩ := map_ok went
      cases same
      rw [drawInfoLine_eq] at drew
      cases drew
      split <;> exact ⟨rfl, Or.inl rfl⟩
    split at went
    · obtain ⟨drawn, drew, same⟩ := map_ok went
      cases same
      have shown : display.device.scrolledText =
          some (textOf display.device.transactionContext.outAddress) := by
        rw [Device.scrolledText, screen]
        exact if_pos output
      rw [drawDescriptionLine_eq] at drew
      split at drew
      · obtain ⟨values, rfl⟩ := strcpy_of_ok drew
        exact ⟨rfl, Or.inr ⟨_, shown, scroll_position _⟩⟩
      · cases drew
        exact ⟨rfl, Or.inr ⟨_, shown, scroll_position _⟩⟩
    · cases went
      exact ⟨rfl, Or.inl rfl⟩
  · cases went
    exact ⟨rfl, Or.inl rfl⟩

/-- The drawing of an element of any screen. -/
theorem drawn_step {userid : Nat} (went : step sdk elsewhere display (.draw userid) = .ok after) :
    Drawn display after := by
  unfold step at went
  simp only at went
  cases screen : display.device.screen with
  | transaction =>
    simp only [screen] at went
    obtain ⟨⟨displayed, drawn⟩, drew, rfl⟩ := map_ok went
    exact drawn_transaction screen drew
  | address =>
    simp only [screen] at went
    obtain ⟨⟨displayed, drawn⟩, drew, rfl⟩ := map_ok went
    exact drawn_address screen drew
  | infoText =>
    simp only [screen] at went
    cases went
    exact ⟨rfl, Or.inl rfl⟩
  | menu =>
    simp only [screen] at went
    cases went
    exact ⟨rfl, Or.inl rfl⟩

theorem take_rewinds {input : Input} (rewinds : display.Rewinds input) :
    (display.take input).position = ⟨0, 1⟩ := by
  cases input with
  | apdu apdu =>
    have opens : display.Opens apdu := rewinds
    unfold take
    simp only
    rw [if_pos opens]
    rfl
  | button button => exact absurd rewinds id
  | addressScreen =>
    have menu : display.device.screen = .menu := rewinds
    unfold take
    simp only
    rw [if_pos menu]
    rfl

/-- The other inputs leave the window where it is. -/
theorem take_stays {input : Input} (stays : ¬ display.Rewinds input) :
    (display.take input).position = display.position := by
  cases input with
  | apdu apdu =>
    have other : ¬ display.Opens apdu := stays
    unfold take
    simp only
    rw [if_neg other]
  | button button =>
    unfold take
    simp only
    split <;> rfl
  | addressScreen =>
    have elsewhere : display.device.screen ≠ .menu := stays
    unfold take
    simp only
    rw [if_neg elsewhere]

theorem step_input_of_ok {input : Input}
    (went : step sdk elsewhere display (.input input) = .ok after) :
    ∃ device, LedgerNano.step sdk display.device input = .ok device ∧
      after = { display.take input with device } := by
  unfold step at went
  simp only at went
  cases stepped : LedgerNano.step sdk display.device input with
  | error fault =>
    simp only [stepped] at went
    cases went
  | ok device =>
    simp only [stepped] at went
    exact ⟨device, rfl, (Except.ok.inj went).symm⟩

end Moves

/-! ### The window over whole runs -/

/-- The strings are whole, and the window is inside the one that is shown. -/
structure WindowInvariant (display : Display) : Prop where
  sound : SoundTexts display.device
  window : ∀ text, display.device.scrolledText = some text → display.WindowFits text

section Runs

variable {sdk : Sdk} {elsewhere : Int → Byte} {display after : Display}

/-- A string that is shown and not empty has 24 letters or more. -/
theorem length_scrolledText {device : Device} (sound : SoundTexts device) {text : Bytes}
    (shown : device.scrolledText = some text) (letters : text ≠ []) : 24 ≤ text.length := by
  unfold Device.scrolledText at shown
  split at shown
  · split at shown
    · cases shown
      rcases sound.outAddress with none | long
      · exact absurd none letters
      · omega
    · cases shown
  · cases shown
    exact sound.address
  · cases shown
  · cases shown

/-- A window at the start fits every string that is shown and not empty. -/
theorem inside_start {text : Bytes} (long : 24 ≤ text.length) :
    Bounce.Inside (-1) (lastPlace text) ⟨0, 1⟩ := by
  refine Or.inl ⟨rfl, by decide, ?_⟩
  show (0 : Int) < text.length - 15
  omega

/-- A window that fits a string stands over a string. -/
theorem WindowFits.ne_nil {text : Bytes} (fits : display.WindowFits text) : text ≠ [] := by
  rintro rfl
  have between := fits.between
  have last : lastPlace [] = -15 := rfl
  omega

/-- One happening: a drawing moves the window inside the string, and an input that puts a string on
the screen finds it inside. -/
theorem WindowInvariant.step (invariant : WindowInvariant display) {happening : Happening}
    (fits : display.SwapFits sdk happening)
    (went : step sdk elsewhere display happening = .ok after) : WindowInvariant after := by
  cases happening with
  | draw userid =>
    obtain ⟨device, position⟩ := drawn_step went
    refine ⟨device ▸ invariant.sound, fun text shown => ?_⟩
    rw [device] at shown
    have inside := invariant.window text shown
    rcases position with same | ⟨moved, other, position⟩
    · rw [WindowFits, same]
      exact inside
    · cases shown.symm.trans other
      rw [WindowFits, position]
      exact inside.move
  | input input =>
    obtain ⟨device, stepped, rfl⟩ := step_input_of_ok went
    have sound := invariant.sound.step stepped
    refine ⟨sound, fun text shown => ?_⟩
    have takes : display.Takes input text := by
      unfold SwapFits at fits
      simp only [stepped] at fits
      exact fits text shown
    show Bounce.Inside (-1) (lastPlace text) (display.take input).position
    by_cases rewinds : display.Rewinds input
    · rw [take_rewinds rewinds]
      refine inside_start (length_scrolledText sound shown ?_)
      rcases takes with same | letters
      · exact (invariant.window text same).ne_nil
      · rw [if_pos rewinds] at letters
        exact letters
    · rw [take_stays rewinds]
      rcases takes with same | inside
      · exact invariant.window text same
      · rw [if_neg rewinds] at inside
        exact inside

theorem windowInvariant_boot : WindowInvariant boot :=
  ⟨soundTexts_boot, fun _ shown => nomatch shown⟩

/-- What holds in every state of a run in which the window finds its strings. -/
theorem run_windowInvariant {happenings : List Happening}
    (along : Runs.Along (step sdk elsewhere) (SwapFits sdk) boot happenings)
    (ran : run sdk elsewhere boot happenings = .ok display) : WindowInvariant display :=
  Runs.run_invariant (fun _ _ _ held fits went => held.step fits went) windowInvariant_boot along
    ran

/-- The scroll turns back before it has gone through the string. -/
theorem WindowFits.exists_turn {text : Bytes} (fits : display.WindowFits text) :
    ∃ count, count ≤ text.length ∧
      ((fun drawn => drawn.scroll text.length)^[count] display).direction = -display.direction := by
  obtain ⟨count, bound, turned⟩ := Bounce.Inside.exists_turn fits
  have iterated : ∀ steps, ((fun drawn => drawn.scroll text.length)^[steps] display).position =
      (Bounce.move (-1) (lastPlace text))^[steps] display.position := by
    intro steps
    induction steps with
    | zero => rfl
    | succ steps inductionHypothesis =>
      rw [Function.iterate_succ_apply', Function.iterate_succ_apply', scroll_position,
        inductionHypothesis]
  rw [← iterated] at turned
  have last : lastPlace text = (text.length : Int) - 15 := rfl
  exact ⟨count, by omega, turned⟩

end Runs

/-! ### What happens otherwise -/

section Otherwise

variable {sdk : Sdk} {elsewhere : Int → Byte} {display after : Display}

/-- The window is between the ends of a string. -/
def Over (display : Display) (text : Bytes) : Prop :=
  -1 ≤ display.currentOffset ∧ display.currentOffset ≤ lastPlace text

/-- The window has been put at a start, or no scrolled screen can be shown yet. -/
def Moving (display : Display) : Prop :=
  (display.direction = 1 ∨ display.direction = -1) ∨
    display.device.signTxnContext.initialized = false ∧
      (display.device.screen = .menu ∨ display.device.screen = .infoText)

/-- A window that moves fits a string exactly when it is over it, now and after the next redraw. -/
theorem windowFits_iff {text : Bytes} (moving : display.direction = 1 ∨ display.direction = -1) :
    display.WindowFits text ↔ display.Over text ∧ (display.scroll text.length).Over text := by
  rw [WindowFits, Bounce.inside_iff moving, ← scroll_position]
  rfl

theorem scrolledText_idle {device : Device}
    (idle : device.screen = .menu ∨ device.screen = .infoText) : device.scrolledText = none := by
  rcases idle with screen | screen <;> rw [Device.scrolledText, screen]

/-- Without a session, and on a screen that does not scroll, only the inputs that put the window at
the start show one that does. -/
theorem idle_step {device : Device} {input : Input} (stays : ¬ display.Rewinds input)
    (closed : display.device.signTxnContext.initialized = false)
    (idle : display.device.screen = .menu ∨ display.device.screen = .infoText)
    (went : LedgerNano.step sdk display.device input = .ok device) :
    device.signTxnContext.initialized = false ∧
      (device.screen = .menu ∨ device.screen = .infoText) := by
  have still : display.device.screen ≠ .transaction := by
    rcases idle with screen | screen <;> rw [screen] <;> decide
  cases input with
  | apdu apdu =>
    have move := step_move sdk display.device (.apdu apdu)
    rw [went] at move
    cases move with
    | answered apdu command other context derived use result =>
      obtain ⟨rfl, _⟩ := sendStatus_ok result.symm
      exact ⟨closed, idle⟩
    | opened apdu command asked unopened first result =>
      cases command
      exact absurd ⟨asked, closed, first⟩ stays
    | refused apdu command asked wrong result =>
      cases result
      exact ⟨rfl, Or.inr rfl⟩
    | waits apdu command asked session later state result =>
      cases closed.symm.trans session
    | resumed apdu command asked session later state result =>
      cases closed.symm.trans session
    | cancelled press screen result => exact absurd screen still
    | pressed button press right screen result => exact absurd screen still
    | shows screen chosen other result =>
      rcases chosen with none | ⟨button, none, _⟩ <;> cases none
  | button button =>
    unfold LedgerNano.step pressButton at went
    simp only at went
    rcases idle with screen | screen
    · simp only [screen] at went
      cases went
      exact ⟨closed, Or.inl screen⟩
    · simp only [screen] at went
      cases went
      exact ⟨closed, Or.inl rfl⟩
  | addressScreen =>
    have other : display.device.screen ≠ .menu := stays
    unfold LedgerNano.step at went
    simp only [if_neg other] at went
    cases went
    exact ⟨closed, idle⟩

theorem Moving.step (moving : display.Moving) {happening : Happening}
    (went : step sdk elsewhere display happening = .ok after) : after.Moving := by
  cases happening with
  | draw userid =>
    obtain ⟨device, position⟩ := drawn_step went
    rcases moving with way | ⟨closed, idle⟩
    · refine Or.inl ?_
      rcases position with same | ⟨text, _, moved⟩
      · have kept : after.direction = display.direction := congrArg Bounce.Position.way same
        rw [kept]
        exact way
      · have turned : after.direction = _ := congrArg Bounce.Position.way moved
        rw [turned]
        exact Bounce.move_way way
    · exact Or.inr (device.symm ▸ ⟨closed, idle⟩)
  | input input =>
    obtain ⟨device, stepped, rfl⟩ := step_input_of_ok went
    by_cases rewinds : display.Rewinds input
    · exact Or.inl (Or.inl (congrArg Bounce.Position.way (take_rewinds rewinds)))
    · rcases moving with way | ⟨closed, idle⟩
      · have kept : (display.take input).direction = display.direction :=
          congrArg Bounce.Position.way (take_stays rewinds)
        rw [← kept] at way
        exact Or.inl way
      · exact Or.inr (idle_step rewinds closed idle stepped)

theorem moving_boot : boot.Moving :=
  Or.inr ⟨rfl, Or.inl rfl⟩

theorem run_moving {happenings : List Happening}
    (ran : run sdk elsewhere boot happenings = .ok display) : display.Moving :=
  Runs.run_invariant (fun _ _ _ moving _ went => moving.step went) moving_boot
    (Runs.along_true boot happenings) ran

/-- An input that does not meet the condition puts the window outside: at once, or with the next
redraw. -/
theorem window_leaves {happenings : List Happening} {input : Input}
    (ran : run sdk elsewhere boot happenings = .ok display)
    (swaps : ¬ display.SwapFits sdk (.input input))
    (went : step sdk elsewhere display (.input input) = .ok after) :
    ∃ text, after.device.scrolledText = some text ∧
      ¬ (after.Over text ∧ (after.scroll text.length).Over text) := by
  have moving := (run_moving ran).step went
  obtain ⟨device, stepped, rfl⟩ := step_input_of_ok went
  unfold SwapFits at swaps
  simp only [stepped] at swaps
  unfold TakesResult at swaps
  obtain ⟨text, swapped⟩ := not_forall.mp swaps
  obtain ⟨shown, outside⟩ := Classical.not_imp.mp swapped
  have way := moving.resolve_right fun idle => by
    cases (scrolledText_idle idle.2).symm.trans shown
  refine ⟨text, shown, fun between => outside (Or.inr ?_)⟩
  have fits := (windowFits_iff way).mpr between
  split
  · exact fits.ne_nil
  · rename_i stays
    rw [WindowFits, ← take_stays stays]
    exact fits

end Otherwise

end Display

/-- In every state that is reached by happenings whose strings take in the window, the window is
between the ends of the string that is shown, and scrolls back before it has gone through it. -/
theorem window_stays_inside {sdk : Sdk} {elsewhere : Int → Byte}
    {happenings : List Display.Happening} {display : Display}
    (along : Runs.Along (Display.step sdk elsewhere) (Display.SwapFits sdk) Display.boot happenings)
    (ran : Display.run sdk elsewhere Display.boot happenings = .ok display) :
    ∀ text, display.device.scrolledText = some text →
      (-1 ≤ display.currentOffset ∧
        display.currentOffset ≤ text.length - ((screenMaxChars : Int) - 1)) ∧
      ∃ count, count ≤ text.length ∧
        ((fun drawn => drawn.scroll text.length)^[count] display).direction =
          -display.direction := by
  intro text shown
  have fits := (Display.run_windowInvariant along ran).window text shown
  exact ⟨fits.between, fits.exists_turn⟩

/-- An output whose address is shorter than that of `sampleOutput`. -/
def shorterOutput : Bytes :=
  List.replicate 21 0 ++ le32 1000000 ++ le32 0 ++ List.replicate 8 0

/-- A transaction of two outputs. -/
def twoOutputs : Bytes :=
  le32 1 ++ sampleInput ++ le32 2 ++ sampleOutput ++ shorterOutput

theorem twoOutputs_fits : twoOutputs.length ≤ 255 := by
  decide

/-- All elements of the transaction screen, in their order. -/
def redisplay : List Display.Happening :=
  [0, 0x01, 0x02, 0x11, 0x83, 0x80].map .draw

/-- The first output is approved while the window is at the start of its address, and the second
one is drawn until the window has turned. -/
def approvedInTime : List Display.Happening :=
  [.input (.apdu (signApdu 0 twoOutputs twoOutputs_fits)), .input (.button .right)] ++
    (List.replicate 3 redisplay).flatten ++ [.input (.button .right)] ++
      (List.replicate 14 redisplay).flatten

/-- The address of the first output is swapped for that of the second, which has 25 letters. -/
theorem window_stays_inside_sample : ∃ display text,
    Display.run Sdk.plain (fun _ => 0) Display.boot approvedInTime = .ok display ∧
      display.device.scrolledText = some text ∧ text.length = 25 ∧
      (-1 ≤ display.currentOffset ∧
        display.currentOffset ≤ text.length - ((screenMaxChars : Int) - 1)) ∧
      ∃ count, count ≤ text.length ∧
        ((fun drawn => drawn.scroll text.length)^[count] display).direction =
          -display.direction := by
  have ends : Runs.Ends (fun display : Display =>
      display.device.scrolledText.map List.length = some 25)
      (Display.run Sdk.plain (fun _ => 0) Display.boot approvedInTime) := by decide +kernel
  obtain ⟨display, ran, letters⟩ := Runs.exists_of_ends ends
  obtain ⟨text, shown, length⟩ := Option.map_eq_some_iff.mp letters
  exact ⟨display, text, ran, shown, length, window_stays_inside (by decide +kernel) ran text shown⟩

/-- The first output is approved when its window is at the far end. -/
def shorterPrepared : List Display.Happening :=
  [.input (.apdu (signApdu 0 twoOutputs twoOutputs_fits)), .input (.button .right)] ++
    (List.replicate 19 redisplay).flatten ++ [.input (.button .right)]

/-- The address of the next output has 25 letters, and the window stands at 19. -/
theorem window_can_leave : ¬ ∀ (happenings : List Display.Happening) (display : Display),
    Display.run Sdk.plain (fun _ => 0) Display.boot happenings = .ok display →
      ∀ text, display.device.scrolledText = some text →
        -1 ≤ display.currentOffset ∧
          display.currentOffset ≤ text.length - ((screenMaxChars : Int) - 1) := by
  intro all
  have ends : Runs.Ends (fun display : Display =>
      display.device.scrolledText.map List.length = some 25 ∧ display.currentOffset = 19)
      (Display.run Sdk.plain (fun _ => 0) Display.boot shorterPrepared) := by decide +kernel
  obtain ⟨display, ran, letters, place⟩ := Runs.exists_of_ends ends
  obtain ⟨text, shown, length⟩ := Option.map_eq_some_iff.mp letters
  have between := all _ display ran text shown
  rw [place, length] at between
  exact absurd between.2 (by decide)

end LedgerNano
