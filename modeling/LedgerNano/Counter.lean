/-
This file is about the counter on the screen, the text `k/n` beside an output.

It is printed when an output is prepared, from the parser's own counter, and stays until the next
one is. So it always names the output on the screen by its place in the transaction, whatever is
read or signed meanwhile (`counter_tells_place`). Where the first output was passed over the counter
begins with `2`: that is all a user gets to see of it.
-/

import LedgerNano.Presented

namespace LedgerNano

/-! ### The text of the counter -/

/-- The counter of an output: its place, counted in eight bits, and the number that was declared,
both as an `int`. -/
def counterText (place declared : Nat) : Bytes :=
  formatInt (toInt32 (place % 2 ^ 8)) ++ [47] ++ formatInt (toInt32 declared)

/-- The counter on the screen. -/
def Device.counter (device : Device) : Bytes :=
  textOf device.transactionContext.currentOutputDisplay

theorem formatInt_natCast (value : Nat) : formatInt (value : Int) = decimalDigits value := by
  rw [formatInt, if_neg (Int.not_lt.mpr (Int.natCast_nonneg value)), Int.natAbs_natCast]

theorem formatInt_ne_zero (value : Int) : ∀ letter ∈ formatInt value, letter ≠ 0 := by
  have digits : ∀ letter ∈ decimalDigits value.natAbs, letter ≠ 0 := by
    intro letter member zero
    have digit := (decimalDigits_isDigit _ letter member).1
    rw [zero] at digit
    exact absurd digit (by decide)
  intro letter member
  rw [formatInt] at member
  split at member
  · rcases List.mem_cons.mp member with rfl | later
    · decide
    · exact digits letter later
  · exact digits letter member

theorem length_counterText (place declared : Nat) : (counterText place declared).length ≤ 15 := by
  have front : (formatInt (toInt32 (place % 2 ^ 8))).length ≤ 3 := by
    have small := Nat.mod_lt place (Nat.two_pow_pos 8)
    rw [(toInt32_eq_iff _).mpr (by omega), formatInt_natCast]
    exact (length_decimalDigits_le_iff (by decide)).mpr (by omega)
  have back := length_formatInt declared
  rw [counterText, List.length_append, List.length_append, List.length_singleton]
  omega

theorem counterText_ne_zero (place declared : Nat) :
    ∀ letter ∈ counterText place declared, letter ≠ 0 := by
  intro letter member
  rw [counterText] at member
  rcases List.mem_append.mp member with front | back
  · rcases List.mem_append.mp front with number | slash
    · exact formatInt_ne_zero _ letter number
    · rw [List.mem_singleton.mp slash]
      decide
  · exact formatInt_ne_zero _ letter back

/-- `prepare_output_approval` prints the counter of the context, and nothing of it is cut off. -/
theorem counter_prepared (sdk : Sdk) {called : Device} {place declared : Nat}
    (current : called.signTxnContext.currObj = place % 2 ^ 8)
    (total : called.signTxnContext.txn.outNum = declared) :
    (prepareOutputApproval sdk called).counter = counterText place declared := by
  have short := length_counterText place declared
  have text : currentOutputText called.signTxnContext = counterText place declared := by
    rw [currentOutputText, current, total, sprintf]
    exact List.take_of_length_le short
  show textOf (storeText (Cells.fill 0 : Cells Byte 16) (currentOutputText _)) = _
  rw [text]
  exact textOf_storeText _ _ (Nat.lt_succ_of_le short) (counterText_ne_zero place declared)

/-! ### What the parser does to the count -/

/-- A call of the parser reads no output, or one, and then the context counts it. -/
inductive Counting (device : Device) (code : Nat) (called : Device) : Prop
  | still (code : code ≠ txnPartialOut ∧ code ≠ txnApproveOut)
      (same : (progressOf device.log).outputs ≠ [] →
        progressOf called.log = progressOf device.log)
  | further (code : code = txnPartialOut ∨ code = txnApproveOut) (inNum : Nat) (ins : List Bytes)
      (outNum : Nat) (outs : List Bytes)
      (progress : progressOf called.log = .txnOut inNum ins outNum outs)
      (current : called.signTxnContext.currObj = outs.length % 2 ^ 8)
      (total : called.signTxnContext.txn.outNum = outNum)

section Counted

variable {sdk : Sdk} {device called after : Device} {code : Nat}

theorem counting_signed (ended : code = txnFinished ∨ code = txnPartial)
    (longer : Logs.Extends Event.Quiet device.log called.log) : Counting device code called := by
  refine Counting.still ?_ fun _ => progressOf_ignores.of_extends longer
  rcases ended with rfl | rfl <;> decide

theorem Resumed.counting (delivers : sdk.Delivers)
    (resumes : Resumed sdk (progressOf device.log) device code called) :
    Counting device code called := by
  cases resumes with
  | read call ctx tracks calls reached thrown result =>
    subst thrown result
    have records := Progress.call_progress calls
    have log : progressOf (device.readBy call.records ctx).log = call.progress := by
      rw [records]
      exact progressOf_elements call.records device.log
    cases Progress.call_takes calls with
    | none code same waits =>
      refine Counting.still ?_ fun some => ?_
      · rcases code with ready | short
        · rw [ready]
          decide
        · rw [short]
          decide
      · have reading : (progressOf device.log).state = .txnOut := by
          cases progress : progressOf device.log with
          | txnOut => rfl
          | _ =>
            rw [progress] at some
            exact absurd rfl some
        rw [log, records, waits reading]
        rfl
    | one code output taken =>
      have notReady : call.code ≠ txnReady := by
        rcases code with same | same <;> rw [same] <;> decide
      have after := reached.reached
      rw [if_neg notReady] at after
      have agrees := after.agrees
      cases progress : call.progress with
      | txnOut inNum ins outNum outs =>
        rw [progress] at agrees
        obtain ⟨_, ⟨total, current, _⟩, _⟩ := agrees
        exact Counting.further code inNum ins outNum outs (log.trans progress) current total
      | _ =>
        rw [progress] at taken
        exact absurd taken.symm (List.append_ne_nil_of_right_ne_nil _ (List.cons_ne_nil _ _))
  | computed signs state computes =>
    cases computes with
    | raised path table counter derived signed result =>
      exact absurd (signed.raised code rfl) (delivers.mapM_ne_error device _ code)
    | finished signatures derived signed each derivations result returned =>
      have longer : Logs.Extends Event.Quiet device.log called.log := by
        rw [afterBatch_log returned]
        subst result
        exact ((Logs.Extends.refl device.log).cons trivial).map Event.derive (fun _ => trivial)
          derived
      refine counting_signed ?_ longer
      rcases Device.afterBatch_cases returned with ⟨_, ended, _⟩ | ⟨_, ended, _⟩
      · exact Or.inl ended
      · exact Or.inr ended
  | returned signs state returns =>
    have longer : Logs.Extends Event.Quiet device.log called.log := by
      rw [afterBatch_log returns]
      exact Logs.Extends.refl device.log
    refine counting_signed ?_ longer
    rcases Device.afterBatch_cases returns with ⟨_, ended, _⟩ | ⟨_, ended, _⟩
    · exact Or.inl ended
    · exact Or.inr ended

/-! ### Steps and runs -/

/-- If an output was prepared in the session, the counter is that of the newest output read. -/
def Device.Counted (device : Device) : Prop :=
  preparedIn device.log ≠ [] → ∃ inNum ins outNum outs,
    progressOf device.log = .txnOut inNum ins outNum outs ∧
      device.counter = counterText outs.length outNum

theorem Device.Counted.quiet (counted : device.Counted)
    (texts : after.transactionContext = device.transactionContext)
    (longer : Logs.Extends Event.Quiet device.log after.log) : after.Counted := by
  have progress : progressOf after.log = progressOf device.log :=
    progressOf_ignores.of_extends longer
  have prepared : preparedIn after.log = preparedIn device.log :=
    preparedIn_ignores.of_extends longer
  rw [Device.Counted, prepared, progress, Device.counter, texts]
  exact counted

theorem Device.Counted.displayed (counted : device.Counted) :
    (goToTransactionScreen device).Counted :=
  counted.quiet rfl (Logs.Extends.refl device.log)

theorem Device.Counted.replied (counted : device.Counted) : device.replyOk.Counted := by
  refine counted.quiet rfl ?_
  rw [replyOk_log]
  exact (Logs.Extends.refl device.log).cons trivial

/-- A call that reads no output leaves the counter right. -/
theorem Counting.keep {skipped : Nat} (counting : Counting device code called)
    (other : code ≠ txnPartialOut ∧ code ≠ txnApproveOut) (counted : device.Counted)
    (skips : Skips skipped device.log) (kept : KeepsPrepared device called)
    (prepared : preparedIn called.log = preparedIn device.log) : called.Counted := by
  cases counting with
  | still _ same =>
    intro shown
    rw [prepared] at shown
    have some : (progressOf device.log).outputs ≠ [] := by
      intro none
      rw [skips.2, outputsIn, none, List.map_nil, List.drop_nil] at shown
      exact shown rfl
    rw [same some, Device.counter, kept.texts]
    exact counted shown
  | further code =>
    exact absurd code (not_or.mpr other)

/-- `prepare_output_approval` makes it right for the output that was read. -/
theorem Counting.prepared (counting : Counting device code called)
    (thrown : code = txnPartialOut ∨ code = txnApproveOut) :
    (prepareOutputApproval sdk called).Counted := by
  cases counting with
  | still other =>
    exact absurd thrown (not_or.mpr other)
  | further _ inNum ins outNum outs progress current total =>
    refine fun _ => ⟨inNum, ins, outNum, outs, ?_, counter_prepared sdk current total⟩
    rw [prepareOutputApproval_log]
    exact progress

theorem CommandResult.counted (goes : CommandResult sdk called code after)
    (counting : Counting device code called)
    (still : code ≠ txnApproveOut → called.Counted) : after.Counted := by
  have same : Logs.Extends Event.Quiet called.log called.log := Logs.Extends.refl called.log
  cases goes with
  | failed thrown result =>
    subst result
    exact (still (by rw [thrown]; decide)).quiet rfl (same.cons trivial)
  | approve thrown result =>
    subst result
    have right : (prepareOutputApproval sdk called).Counted := counting.prepared (Or.inr thrown)
    exact right.displayed
  | finished thrown fits result =>
    subst result
    exact (still (by rw [thrown]; decide)).quiet rfl (same.cons trivial)
  | more other fits result =>
    subst result
    exact (still other.2.1).quiet rfl (same.cons trivial)

theorem PressResult.counted (goes : PressResult sdk called code after)
    (counting : Counting device code called)
    (still : code ≠ txnPartialOut → code ≠ txnApproveOut → called.Counted) : after.Counted := by
  have same : Logs.Extends Event.Quiet called.log called.log := Logs.Extends.refl called.log
  cases goes with
  | more thrown fits result =>
    subst result
    exact (still (by rw [thrown]; decide) (by rw [thrown]; decide)).replied
  | approve thrown result =>
    subst result
    exact counting.prepared (Or.inr thrown)
  | last thrown fits result =>
    subst result
    have right : (prepareOutputApproval sdk called).Counted := counting.prepared (Or.inl thrown)
    exact right.replied
  | ready thrown fits result =>
    subst result
    refine (still (by rw [thrown]; decide) (by rw [thrown]; decide)).quiet rfl ?_
    rw [replyOk_log, answerInnerHash_log]
    exact same.cons trivial
  | failed thrown result =>
    subst result
    refine (still (by rw [thrown]; decide) (by rw [thrown]; decide)).quiet rfl ?_
    rw [replyError_log]
    exact same.cons trivial
  | silent other result =>
    subst result
    exact still other.2.2.1 other.2.1

theorem Handed.preparedIn_eq {past : List Event} (handed : Handed past code called) :
    preparedIn called.log = preparedIn past := by
  cases handed with
  | none _ _ prepared => exact prepared
  | one _ _ prepared => exact prepared

/-- Where nothing was prepared there is nothing to count. -/
theorem counted_of_none (none : preparedIn device.log = []) : device.Counted :=
  fun shown => absurd none shown

/-- Every step leaves the counter right. -/
theorem step_counted (delivers : sdk.Delivers) (invariant : SessionInvariant sdk device)
    {skipped : Nat} (skips : Skips skipped device.log) (counted : device.Counted) {input : Input}
    (stepped : step sdk device input = .ok after) : after.Counted := by
  have same : Logs.Extends Event.Quiet device.log device.log := Logs.Extends.refl device.log
  cases step_stepped invariant stepped with
  | answered apdu command other context derived ready use payload fits result =>
    subst result payload
    have received : Logs.Extends Event.Quiet device.log (.command apdu.bytes :: device.log) :=
      same.cons trivial
    exact counted.quiet rfl ((received.map Event.derive (fun _ => trivial) derived).cons trivial)
  | opened apdu command asked closed first result =>
    subst result
    exact counted.quiet rfl (same.cons trivial)
  | refused apdu command asked wrong result =>
    subst result
    exact counted.quiet rfl
      ((same.cons (show (Event.command apdu.bytes).Quiet from trivial)).cons trivial)
  | waits apdu command asked session later state result =>
    subst result
    exact counted.quiet rfl (same.cons trivial)
  | resumed apdu command asked session later state code called answered resumes goes result =>
    subst result
    have loaded : (device.loaded apdu).Counted := counted.quiet rfl (same.cons trivial)
    have left : Skips skipped (device.loaded apdu).log := skips.quiet (same.cons trivial)
    have handed := resumes.handed delivers
    have counting := resumes.counting delivers
    refine Device.Counted.quiet (goes.counted counting fun notOut => ?_) rfl (Logs.Extends.refl _)
    by_cases passed : code = txnPartialOut
    · -- The first output is passed over: none was prepared before it.
      have none : outputsIn (device.loaded apdu).log = [] :=
        (resumes.partialOut_iff delivers state).2.resolve_right (not_not.mpr passed)
      refine counted_of_none ?_
      rw [handed.preparedIn_eq, left.2, none, List.drop_nil]
    · exact counting.keep ⟨passed, notOut⟩ loaded left resumes.keepsPrepared handed.preparedIn_eq
  | cancelled press screen result =>
    subst result
    exact counted.quiet rfl
      ((same.cons (show Event.leftPress.Quiet from trivial)).cons trivial)
  | pressed button press right screen code called resumes goes =>
    have handed := resumes.handed delivers
    have counting := resumes.counting delivers
    refine goes.counted counting fun notLast notOut => ?_
    by_cases session : device.signTxnContext.initialized = true
    · have going : device.pressed.Counted ∧ Skips skipped device.pressed.log := by
        rw [pressed_going session]
        exact ⟨counted.quiet rfl (same.cons trivial), skips.quiet (same.cons trivial)⟩
      exact counting.keep ⟨notLast, notOut⟩ going.1 going.2 resumes.keepsPrepared
        handed.preparedIn_eq
    · refine counted_of_none ?_
      rw [handed.preparedIn_eq]
      unfold Device.pressed startSession
      rw [record_signTxnContext, if_neg session]
      rfl
  | shows screen elsewhere other result =>
    subst result
    rcases elsewhere with none | ⟨button, press, _⟩
    · exact counted
    · exact counted

end Counted

/-- In every run, with an SDK that raises no exception: once an output of the session was prepared,
the counter shows how many were read, and that is how many were prepared, or one more where the
first was passed over; and behind it the number that was declared. -/
theorem counter_tells_place {sdk : Sdk} {inputs : List Input} {device : Device}
    (delivers : sdk.Delivers) (ran : run sdk Device.boot inputs = .ok device)
    (shown : preparedIn device.log ≠ []) :
    ∃ skipped ≤ 1, ∃ inNum ins outNum outs,
      progressOf device.log = .txnOut inNum ins outNum outs ∧
        preparedIn device.log = (outs.map TxnOutput.ofBytes).drop skipped ∧
          device.counter = counterText ((preparedIn device.log).length + skipped) outNum := by
  have reached : SessionInvariant sdk device ∧ device.Counted ∧
      ∃ skipped ≤ 1, Skips skipped device.log :=
    Runs.run_invariant (motive := fun reached : Device =>
        SessionInvariant sdk reached ∧ reached.Counted ∧ ∃ skipped ≤ 1, Skips skipped reached.log)
      (fun before input after invariant _ stepped => ?_)
      ⟨session_boot sdk, counted_of_none rfl, 0, Nat.zero_le _, Nat.zero_le _, rfl⟩
      (Runs.along_true Device.boot inputs) ran
  · obtain ⟨_, counted, skipped, few, skips⟩ := reached
    obtain ⟨inNum, ins, outNum, outs, progress, counter⟩ := counted shown
    have outputs : outputsIn device.log = outs.map TxnOutput.ofBytes := by
      rw [outputsIn, progress, Progress.outputs]
    obtain ⟨within, same⟩ := skips
    rw [outputs] at within same
    rw [List.length_map] at within
    refine ⟨skipped, few, inNum, ins, outNum, outs, progress, same, ?_⟩
    rw [counter, same, List.length_drop, List.length_map, Nat.sub_add_cancel within]
  · obtain ⟨session, counted, skipped, few, skips⟩ := invariant
    refine ⟨step_session session stepped,
      step_counted delivers session skips counted stepped, ?_⟩
    rcases step_skips delivers session skips stepped with next | ⟨_, next⟩
    · refine ⟨_, ?_, next⟩
      split
      · exact few
      · exact le_rfl
    · exact ⟨0, Nat.zero_le _, next⟩

/-- One input and two outputs, the first of them behind the input in one chunk, and a user who
approves. -/
def secondOfTwo : List Input :=
  [.apdu (signApdu 0 (le32 1) (by decide)), .button .right,
    .apdu (signApdu 1 (sampleInput ++ le32 2 ++ sampleOutput) (by decide)),
    .apdu (signApdu 1 sampleOutput (by decide)), .button .right]

/-- The only output on its screen is the second of two. -/
theorem counter_tells_place_sample : ∃ device,
    run Sdk.plain Device.boot secondOfTwo = .ok device ∧ device.counter = [50, 47, 50] ∧
      ∃ skipped ≤ 1, ∃ inNum ins outNum outs,
        progressOf device.log = .txnOut inNum ins outNum outs ∧
          preparedIn device.log = (outs.map TxnOutput.ofBytes).drop skipped ∧
            device.counter = counterText ((preparedIn device.log).length + skipped) outNum := by
  have ends : Runs.Ends (fun device : Device => device.counter = [50, 47, 50] ∧
      preparedIn device.log ≠ []) (run Sdk.plain Device.boot secondOfTwo) := by decide +kernel
  obtain ⟨device, ran, second, shown⟩ := Runs.exists_of_ends ends
  exact ⟨device, ran, second,
    counter_tells_place ⟨fun _ => ⟨_, rfl⟩, fun _ _ => ⟨_, rfl⟩⟩ ran shown⟩

end LedgerNano
