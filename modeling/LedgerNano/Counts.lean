/-
This file is about the two counts a transaction declares: whether the parser reads as many
elements as they say, for every pair of 32-bit numbers.

The inputs are counted up to equality, in eight bits, before the first comparison, and the
outputs in eight bits too. `parse_counts` says what a string with these counts holds when
it is parsed as a whole, and `counts_honoured_iff` for which counts the parser of the
device, given the string in chunks that lose nothing, reads just that.
-/

import LedgerNano.Chunking

namespace LedgerNano

/-- A stream begins with these counts, as far as it reaches. -/
def Opens (inNum outNum : Nat) (bytes : Bytes) : Prop :=
  (4 ≤ bytes.length → u4LE bytes 0 = inNum) ∧
    (8 + 36 * inNum ≤ bytes.length → u4LE bytes (4 + 36 * inNum) = outNum)

/-- The parser has read what the bytes hold of the declared elements, and nothing else: it leaves
the inputs behind exactly when all of them are there, and is ready exactly when all outputs are. -/
structure Feeding.Honours (inNum outNum : Nat) (bytes : Bytes) (feeding : Feeding) : Prop where
  inputs : feeding.inputs.length = min inNum ((bytes.length - 4) / 36)
  past : feeding.device.signTxnContext.txnState ≠ .startIn ∧
      feeding.device.signTxnContext.txnState ≠ .txnIn ↔ 4 + 36 * inNum ≤ bytes.length
  outputs : feeding.curOutputs.length = min outNum ((bytes.length - (8 + 36 * inNum)) / 37)
  ready : feeding.code = txnReady ↔ 8 + 36 * inNum + 37 * outNum ≤ bytes.length
  stops : (elementsOf feeding.device.log).flatten.length ≤ 8 + 36 * inNum + 37 * outNum

/-- Every stream that begins with the counts, in whatever chunks that lose nothing, is refused or
read as the counts say. -/
def HonoursCounts (sdk : Sdk) (device : Device) (inNum outNum : Nat) : Prop :=
  ∀ chunks : List Bytes, (∀ chunk ∈ chunks, chunk.length ≤ 255) → AllFit [] chunks →
    Opens inNum outNum chunks.flatten →
    ∃ feeding, (Feeding.start device).feedAll sdk chunks = .ok feeding ∧
      (feeding.code = txnError ∨ feeding.Honours inNum outNum chunks.flatten)

/-! ### What a string with counts holds -/

theorem u4LE_prefix {early whole : Bytes} {off : Nat} (inside : early <+: whole)
    (long : off + 4 ≤ early.length) : u4LE whole off = u4LE early off := by
  obtain ⟨later, rfl⟩ := inside
  have same : ∀ index, index < early.length →
      byteAt (early ++ later) index = byteAt early index := by
    intro index within
    rw [byteAt, byteAt, List.getD_eq_getElem?_getD, List.getD_eq_getElem?_getD,
      List.getElem?_append_left within]
  rw [u4LE, u4LE, same _ (by omega), same _ (by omega), same _ (by omega), same _ (by omega)]

section Counts

variable {inNum outNum : Nat} {bytes early : Bytes}

theorem Opens.atPrefix (opens : Opens inNum outNum bytes) (inside : early <+: bytes) :
    Opens inNum outNum early := by
  have shorter := inside.length_le
  refine ⟨fun long => ?_, fun long => ?_⟩
  · rw [← u4LE_prefix inside (by omega)]
    exact opens.1 (by omega)
  · rw [← u4LE_prefix inside (by omega)]
    exact opens.2 (by omega)

end Counts

namespace Progress

section Declared

variable {inNum outNum : Nat}

/-- The progress is one with these counts, and no more elements were read than they say. -/
def Declared (inNum outNum : Nat) : Progress → Prop
  | startIn => True
  | txnIn declared inputs => declared = inNum ∧ inputs.length < inNum
  | startOut declared inputs => declared = inNum ∧ inputs.length = inNum
  | txnOut declared inputs declaredOut outputs =>
    declared = inNum ∧ inputs.length = inNum ∧ declaredOut = outNum ∧ outputs.length ≤ outNum

/-- The number of bytes of the elements read. -/
def weight : Progress → Nat
  | startIn => 0
  | txnIn _ inputs => 4 + 36 * inputs.length
  | startOut _ inputs => 4 + 36 * inputs.length
  | txnOut _ inputs _ outputs => 8 + 36 * inputs.length + 37 * outputs.length

theorem weight_next (progress : Progress) (record : Bytes) :
    (progress.next record).weight = progress.weight + progress.elementSize := by
  cases progress with
  | startIn => rfl
  | txnIn declared inputs =>
    rw [next]
    split <;>
      simp only [weight, elementSize, List.length_append, List.length_singleton] <;> omega
  | startOut declared inputs =>
    simp only [next, weight, elementSize, List.length_nil]
    omega
  | txnOut declared inputs declaredOut outputs =>
    simp only [next, weight, elementSize, List.length_append, List.length_singleton]
    omega

/-- The next element of a string with these counts is one of those declared. -/
theorem Declared.next {whole taken record : Bytes} (opens : Opens inNum outNum whole)
    (some : 1 ≤ inNum) {progress : Progress} (within : progress.Declared inNum outNum)
    (incomplete : ¬ progress.Complete) (length : record.length = progress.elementSize)
    (weighs : taken.length = progress.weight) (inside : taken ++ record <+: whole) :
    (progress.next record).Declared inNum outNum := by
  obtain ⟨opensIn, opensOut⟩ := opens.atPrefix inside
  have total : (taken ++ record).length = progress.weight + progress.elementSize := by
    rw [List.length_append, weighs, length]
  cases progress with
  | startIn =>
    have empty : taken = [] := List.length_eq_zero_iff.mp weighs
    subst empty
    exact ⟨opensIn (le_of_eq total.symm), some⟩
  | txnIn declared inputs =>
    obtain ⟨rfl, fewer⟩ := within
    rw [Progress.next]
    by_cases last : (inputs ++ [record]).length = declared
    · rw [if_pos last]
      exact ⟨rfl, last⟩
    · rw [if_neg last]
      refine ⟨rfl, ?_⟩
      rw [List.length_append, List.length_singleton] at last ⊢
      omega
  | startOut declared inputs =>
    obtain ⟨rfl, all⟩ := within
    simp only [weight, elementSize, all] at weighs total
    refine ⟨rfl, all, ?_, Nat.zero_le _⟩
    have count := opensOut (by omega)
    have place : 4 + 36 * declared = taken.length := weighs.symm
    rw [place, ← List.append_nil (taken ++ record), u4LE_middle taken length] at count
    exact count
  | txnOut declared inputs declaredOut outputs =>
    obtain ⟨rfl, all, rfl, most⟩ := within
    have more : ¬ outputs.length = declaredOut := incomplete
    refine ⟨rfl, all, rfl, ?_⟩
    rw [List.length_append, List.length_singleton]
    omega

end Declared

end Progress

section Parse

variable {inNum outNum : Nat} {bytes : Bytes}

/-- The elements a string with counts holds are among those declared. -/
theorem parse_declared (some : 1 ≤ inNum) (opens : Opens inNum outNum bytes) :
    (parseWhole bytes).state.Declared inNum outNum ∧
      (parseWhole bytes).records.flatten.length = (parseWhole bytes).state.weight := by
  have start : Progress.startIn.Declared inNum outNum ∧ ([] : Bytes).length = 0 := ⟨trivial, rfl⟩
  refine Progress.format.consume_rule (motive := fun progress taken =>
    progress.Declared inNum outNum ∧ taken.length = progress.weight) start ?_
  intro progress taken record before positive size inside
  obtain ⟨within, weighs⟩ := before
  have incomplete := Progress.incomplete_of_size positive
  have length : record.length = progress.elementSize :=
    size.trans (Progress.size_of_incomplete incomplete)
  refine ⟨within.next opens some incomplete length weighs inside, ?_⟩
  rw [List.length_append, weighs, length]
  exact (progress.weight_next record).symm

/-- The numbers of elements a string with counts holds, by its length. -/
theorem parse_counts (some : 1 ≤ inNum) (opens : Opens inNum outNum bytes) :
    (parseWhole bytes).state.inputs.length = min inNum ((bytes.length - 4) / 36) ∧
    ((parseWhole bytes).state.state ≠ .startIn ∧ (parseWhole bytes).state.state ≠ .txnIn ↔
      4 + 36 * inNum ≤ bytes.length) ∧
    (parseWhole bytes).state.outputs.length =
      min outNum ((bytes.length - (8 + 36 * inNum)) / 37) ∧
    ((parseWhole bytes).state.Complete ↔ 8 + 36 * inNum + 37 * outNum ≤ bytes.length) := by
  obtain ⟨within, weighs⟩ := parse_declared some opens
  have flatten := congrArg List.length (Progress.format.consume_flatten .startIn bytes)
  rw [List.length_append] at flatten
  have short := @rest_parseWhole_lt bytes
  have total : bytes.length = (parseWhole bytes).state.weight + (parseWhole bytes).rest.length := by
    rw [← weighs]
    exact flatten.symm
  generalize (parseWhole bytes).rest.length = left at total short
  cases reached : (parseWhole bytes).state with
  | startIn =>
    rw [reached] at total short
    have few : left < 4 := short id
    simp only [Progress.weight] at total
    simp only [Progress.inputs, Progress.outputs, Progress.state, Progress.Complete,
      List.length_nil]
    exact ⟨by omega, iff_of_false (fun both => both.1 rfl) (by omega), by omega,
      iff_of_false id (by omega)⟩
  | txnIn declared inputs =>
    rw [reached] at total short within
    obtain ⟨rfl, fewer⟩ := within
    have few : left < 36 := short id
    simp only [Progress.weight] at total
    simp only [Progress.inputs, Progress.outputs, Progress.state, Progress.Complete,
      List.length_nil]
    exact ⟨by omega, iff_of_false (fun both => both.2 rfl) (by omega), by omega,
      iff_of_false id (by omega)⟩
  | startOut declared inputs =>
    rw [reached] at total short within
    obtain ⟨rfl, all⟩ := within
    have few : left < 4 := short id
    simp only [Progress.weight] at total
    simp only [Progress.inputs, Progress.outputs, Progress.state, Progress.Complete,
      List.length_nil]
    exact ⟨by omega, iff_of_true ⟨TxnState.noConfusion, TxnState.noConfusion⟩ (by omega), by omega,
      iff_of_false id (by omega)⟩
  | txnOut declared inputs declaredOut outputs =>
    rw [reached] at total short within
    obtain ⟨rfl, all, rfl, most⟩ := within
    have few : ¬ outputs.length = declaredOut → left < 37 := short
    simp only [Progress.weight] at total
    simp only [Progress.inputs, Progress.outputs, Progress.state, Progress.Complete]
    exact ⟨by omega, iff_of_true ⟨TxnState.noConfusion, TxnState.noConfusion⟩ (by omega),
      by omega, by omega⟩

end Parse

/-! ### No outputs -/

section NoOutputs

variable {inNum : Nat}

theorem incomplete_of_state {progress : Progress} (earlier : progress.state ≠ .txnOut) :
    ¬ progress.Complete := by
  intro complete
  cases progress with
  | startIn => exact complete
  | txnIn => exact complete
  | startOut => exact complete
  | txnOut => exact earlier rfl

theorem not_overruns_of_declared {outNum : Nat} {progress : Progress} (few : inNum ≤ 20)
    (within : progress.Declared inNum outNum) : ¬ progress.Overruns := by
  cases progress with
  | startIn => exact id
  | txnIn declared inputs =>
    obtain ⟨rfl, fewer⟩ := within
    show ¬ 20 ≤ inputs.length
    omega
  | startOut => exact id
  | txnOut => exact id

/-- A call that finds the bytes up to an output count of zero ends with `TXN_READY`. The induction
is on the call: the elements before the count are taken one by one. -/
theorem call_ready_of_zero (few : inNum ≤ 20) (progress : Progress) (staged pending : Bytes)
    (each : Progress.Throughout (Progress.Declared inNum 0) progress (staged ++ pending))
    (earlier : progress.state ≠ .txnOut)
    (enough : ¬ progress.Short staged.length pending.length)
    (complete : (Progress.format.consume progress (staged ++ pending)).state.Complete) :
    progress.call staged pending = some
      { code := txnReady
        records := (Progress.format.consume progress (staged ++ pending)).records
        progress := (Progress.format.consume progress (staged ++ pending)).state
        staged := []
        pending := (Progress.format.consume progress (staged ++ pending)).rest } := by
  induction progress, staged, pending using Progress.call.induct with
  | case1 progress staged pending finished =>
    exact absurd finished (not_finished_of_state earlier)
  | case2 progress staged pending unfinished short => exact absurd short enough
  | case3 progress staged pending unfinished _ overruns =>
    exact absurd overruns (not_overruns_of_declared few each.here)
  | case4 progress staged pending unfinished _ room reading => exact absurd reading earlier
  | case5 progress staged pending unfinished _ room record rest _ inductionHypothesis =>
    have incomplete := incomplete_of_state earlier
    have total := Progress.enough_of_not_short enough
    have items : staged ++ pending = record ++ rest :=
      (List.take_append_drop progress.elementSize (staged ++ pending)).symm
    have length : record.length = progress.elementSize := by
      rw [List.length_take, List.length_append]
      omega
    have whole := Progress.consume_element incomplete length rest
    rw [items] at each complete ⊢
    rw [whole] at complete ⊢
    have eachNext := each.next incomplete length
    rw [Progress.call, if_neg unfinished, if_neg enough, if_neg room]
    simp only [if_neg earlier]
    show ((progress.next record).call [] rest).map _ = _
    by_cases last : (progress.next record).state = .txnOut
    · cases reached : progress.next record with
      | startIn => rw [reached] at last; cases last
      | txnIn => rw [reached] at last; cases last
      | startOut => rw [reached] at last; cases last
      | txnOut declared inputs declaredOut outputs =>
        have within := eachNext.here
        rw [reached] at within
        obtain ⟨rfl, all, rfl, most⟩ := within
        have none : outputs = [] := List.length_eq_zero_iff.mp (Nat.le_zero.mp most)
        subst none
        have finished : (Progress.txnOut declared inputs 0 []).Finished := rfl
        have done : (Progress.txnOut declared inputs 0 []).Complete := rfl
        rw [Progress.call, if_pos finished, Progress.consume_complete done]
        rfl
    · have enoughLater : ¬ (progress.next record).Short 0 rest.length := by
        intro short
        rw [Progress.consume_short (Progress.pending_lt_of_short short)] at complete
        exact incomplete_of_state last complete
      rw [inductionHypothesis eachNext last enoughLater complete]
      rfl

variable {fed : Fed} {chunk : Bytes}

theorem Fed.AtWhole.staged_eq (atWhole : fed.AtWhole) (reading : fed.call.code ≠ txnReady) :
    fed.call.staged = (parseWhole fed.given).rest := by
  rw [← atWhole.left, Progress.Call.left, atWhole.read reading, List.append_nil]

/-- The chunk that completes a transaction without outputs. -/
theorem Fed.AtWhole.feed_zero (some : 1 ≤ inNum) (few : inNum ≤ 20)
    (opens : Opens inNum 0 (fed.given ++ chunk)) (atWhole : fed.AtWhole)
    (reading : fed.call.code ≠ txnReady) (fits : Fits fed.given chunk)
    (complete : (parseWhole (fed.given ++ chunk)).state.Complete) :
    ∃ result, fed.feed chunk = Option.some result ∧ result.given = fed.given ++ chunk ∧
      result.AtWhole := by
  have staged := atWhole.staged_eq reading
  have incomplete : ¬ (parseWhole fed.given).state.Complete := mt atWhole.ready.mpr reading
  have each : Progress.Throughout (Progress.Declared inNum 0) .startIn (fed.given ++ chunk) :=
    fun early inside => (parse_declared some (opens.atPrefix inside)).1
  have eachLater := each.append
  have within := eachLater.here
  have parse := parseWhole_append fed.given chunk
  have earlier : (parseWhole fed.given).state.state ≠ .txnOut := by
    intro last
    unfold parseWhole at last incomplete
    cases reached : (Progress.format.consume .startIn fed.given).state with
    | startIn => rw [reached] at last; cases last
    | txnIn => rw [reached] at last; cases last
    | startOut => rw [reached] at last; cases last
    | txnOut declared inputs declaredOut outputs =>
      rw [reached] at within incomplete
      obtain ⟨_, _, rfl, most⟩ := within
      exact incomplete (Nat.le_zero.mp most)
  rw [parse] at complete
  have enough : ¬ (parseWhole fed.given).state.Short (parseWhole fed.given).rest.length
      chunk.length := by
    rcases fits.begins with none | enough
    · intro short
      rw [none, List.nil_append,
        Progress.consume_short (Progress.pending_lt_of_short short)] at complete
      exact incomplete complete
    · exact enough
  have called : (parseWhole fed.given).state.call (parseWhole fed.given).rest chunk =
      Option.some ⟨txnReady, _, _, [], _⟩ :=
    call_ready_of_zero few _ _ _ eachLater earlier enough complete
  set parsed := Progress.format.consume (parseWhole fed.given).state
    ((parseWhole fed.given).rest ++ chunk) with parsedIs
  refine ⟨⟨⟨txnReady, fed.call.records ++ parsed.records, parsed.state, [], parsed.rest⟩,
    fed.given ++ chunk⟩, ?_, rfl, ?_⟩
  · rw [Fed.feed, if_neg reading, Progress.Call.resume]
    simp only [atWhole.progress, staged, called]
    rw [if_neg Progress.Call.not_output_ready]
    rfl
  · refine ⟨?_, ?_, ?_, ?_, fun other => absurd rfl other⟩ <;> rw [parse]
    · rw [← atWhole.records]
    · rfl
    · exact iff_of_true rfl complete

end NoOutputs

/-! ### Counts in range -/

section InRange

variable {sdk : Sdk} {device : Device} {inNum outNum : Nat} {fed : Fed} {chunk : Bytes}
  {chunks : List Bytes}

/-- A string that does not reach an output count of zero declares counts the parser was written
for. -/
theorem declares_of_opens {bytes : Bytes} (some : 1 ≤ inNum) (few : inNum ≤ 20)
    (fewOut : outNum ≤ 255) (opens : Opens inNum outNum bytes)
    (reaches : outNum = 0 → bytes.length < 8 + 36 * inNum) : Declares bytes := by
  refine ⟨fun long => ?_, fun long => ?_⟩
  · rw [opens.1 long]
    exact ⟨some, few⟩
  · have first : u4LE bytes 0 = inNum := opens.1 (by omega)
    rw [first] at long ⊢
    rw [opens.2 long]
    omega

/-- One chunk that fits, of a string with counts in range. -/
theorem Fed.AtWhole.feed_opens (some : 1 ≤ inNum) (few : inNum ≤ 20) (fewOut : outNum ≤ 255)
    (opens : Opens inNum outNum (fed.given ++ chunk)) (atWhole : fed.AtWhole)
    (reading : fed.call.code ≠ txnReady) (fits : Fits fed.given chunk) :
    ∃ result, fed.feed chunk = Option.some result ∧ result.given = fed.given ++ chunk ∧
      result.AtWhole := by
  by_cases zero : outNum = 0 ∧ 8 + 36 * inNum ≤ (fed.given ++ chunk).length
  · obtain ⟨rfl, long⟩ := zero
    have complete := (parse_counts some opens).2.2.2.mpr (by omega)
    exact atWhole.feed_zero some few opens reading fits complete
  · have declares := declares_of_opens some few fewOut opens fun none =>
      not_le.mp fun long => zero ⟨none, long⟩
    obtain ⟨result, fedOne, given, kept | lost⟩ :=
      atWhole.feed declares reading (List.prefix_refl _)
    · exact ⟨result, fedOne, given, kept.2⟩
    · exact absurd fits lost.1

/-- All chunks. The induction is on the chunks. -/
theorem Fed.AtWhole.feedAll_opens (some : 1 ≤ inNum) (few : inNum ≤ 20) (fewOut : outNum ≤ 255)
    (opens : Opens inNum outNum (fed.given ++ chunks.flatten)) (atWhole : fed.AtWhole)
    (fits : AllFit fed.given chunks) :
    ∃ result later, fed.feedAll chunks = Option.some result ∧ result.AtWhole ∧
      fed.given ++ chunks.flatten = result.given ++ later ∧
      (later = [] ∨ result.call.code = txnReady) := by
  induction chunks generalizing fed with
  | nil => exact ⟨fed, [], rfl, atWhole, rfl, Or.inl rfl⟩
  | cons chunk later inductionHypothesis =>
    by_cases ready : fed.call.code = txnReady
    · exact ⟨fed, _, Fed.feedAll_ready ready _, atWhole, rfl, Or.inr ready⟩
    · have incomplete := mt atWhole.ready.mpr ready
      rw [List.flatten_cons, ← List.append_assoc] at opens ⊢
      obtain ⟨result, fedOne, given, next⟩ := atWhole.feed_opens some few fewOut
        (opens.atPrefix (List.prefix_append _ _)) ready (fits.1 incomplete)
      rw [← given] at opens ⊢
      obtain ⟨last, rest, fedLater, whole⟩ :=
        inductionHypothesis opens next (by rw [given]; exact fits.2)
      refine ⟨last, rest, ?_, whole⟩
      rw [Fed.feedAll, List.foldlM_cons, fedOne]
      exact fedLater

/-- The parser's state, where it reads and where it is ready. -/
theorem Feeding.Stands.txnState_eq {feeding : Feeding} {call : Progress.Call}
    (stands : feeding.Stands sdk call) :
    feeding.device.signTxnContext.txnState =
      if call.code = txnReady then .computeSigs else call.progress.state := by
  have reached := stands.called.reached
  split at reached
  · rename_i ready
    obtain ⟨_, before, _, same⟩ := reached
    rw [if_pos ready, same]
    rfl
  · rename_i reading
    rw [if_neg reading]
    exact reached.state

/-- Counts in range are honoured. -/
theorem honours_of_range (some : 1 ≤ inNum) (few : inNum ≤ 20) (fewOut : outNum ≤ 255) :
    HonoursCounts sdk device inNum outNum := by
  intro chunks small fits opens
  have opened : Opens inNum outNum (Fed.start.given ++ chunks.flatten) := opens
  obtain ⟨twin, later, fedAll, whole, given, ends⟩ :=
    atWhole_start.feedAll_opens some few fewOut opened fits
  have feeds := (stands_start sdk device).feedAll
    (rfl : (Feeding.start device).given = Fed.start.given) chunks small
  rw [fedAll] at feeds
  obtain ⟨feeding, fine, stands, same⟩ := feeds
  have bytes : chunks.flatten = twin.given ++ later := given
  -- Once the parser is ready, further bytes change nothing.
  obtain ⟨state, records, complete⟩ : (parseWhole chunks.flatten).state = twin.call.progress ∧
      (parseWhole chunks.flatten).records = twin.call.records ∧
      (twin.call.code = txnReady ↔ (parseWhole chunks.flatten).state.Complete) := by
    rw [whole.progress, whole.records, bytes]
    rcases ends with rfl | ready
    · rw [List.append_nil]
      exact ⟨rfl, rfl, whole.ready⟩
    · have complete := whole.ready.mp ready
      obtain ⟨sameState, sameRecords⟩ := parseWhole_complete complete later
      exact ⟨sameState, sameRecords, iff_of_true ready (by rw [sameState]; exact complete)⟩
  obtain ⟨inputs, past, outputs, all⟩ := parse_counts some opens
  obtain ⟨within, weighs⟩ := parse_declared some opens
  refine ⟨feeding, fine, Or.inr ⟨?_, ?_, ?_, ?_, ?_⟩⟩
  · rw [stands.inputs_eq, ← state, inputs]
  · rw [stands.txnState_eq]
    by_cases ready : twin.call.code = txnReady
    · have long := all.mp (complete.mp ready)
      rw [if_pos ready]
      exact iff_of_true ⟨TxnState.noConfusion, TxnState.noConfusion⟩ (by omega)
    · rw [if_neg ready, ← state, past]
  · rw [stands.outputs, List.length_map, ← state, outputs]
  · rw [stands.code, complete, all]
  · rw [stands.elements, ← records, weighs]
    cases reached : (parseWhole chunks.flatten).state with
    | startIn => exact Nat.zero_le _
    | txnIn declared inputs =>
      rw [reached] at within
      obtain ⟨rfl, fewer⟩ := within
      simp only [Progress.weight]
      omega
    | startOut declared inputs =>
      rw [reached] at within
      obtain ⟨rfl, whole⟩ := within
      simp only [Progress.weight]
      omega
    | txnOut declared inputs declaredOut outputs =>
      rw [reached] at within
      obtain ⟨rfl, whole, rfl, most⟩ := within
      simp only [Progress.weight]
      omega

end InRange

/-! ### Counts out of range -/

section OutOfRange

variable {sdk : Sdk} {device : Device} {inNum outNum : Nat}

/-- Whole elements as chunks lose nothing. -/
theorem allFit_of_frames {before : Bytes} {elements : List Bytes}
    (rest : (parseWhole before).rest = [])
    (frames : Progress.format.Frames (parseWhole before).state elements) :
    AllFit before elements := by
  induction elements generalizing before with
  | nil => trivial
  | cons element later inductionHypothesis =>
    obtain ⟨positive, size, framed⟩ := frames
    have one := parseWhole_append before element
    have taken := Progress.format.consume_record size positive []
    have stop : Progress.format.consume
        (Progress.format.next (parseWhole before).state element) [] =
          { records := [], state := Progress.format.next (parseWhole before).state element
            rest := [] } := Progress.consume_short (Progress.elementSize_pos _)
    rw [List.append_nil, stop] at taken
    rw [rest, List.nil_append, taken] at one
    have restLater : (parseWhole (before ++ element)).rest = [] := by rw [one]
    refine ⟨fun _ => ⟨Or.inl rest, fun _ => Or.inr restLater⟩, inductionHypothesis restLater ?_⟩
    rw [one]
    exact framed

/-- The elements up to and with the last input, all of them zeros. -/
def zeroInputs (inNum : Nat) : List Bytes :=
  le32 inNum :: List.replicate inNum (List.replicate 36 0)

/-- The elements after the inputs. -/
def zeroOutputs (outNum : Nat) : List Bytes :=
  le32 outNum :: List.replicate outNum (List.replicate 37 0)

theorem frames_zeroInputs (some : 1 ≤ inNum) (small : inNum < 2 ^ 32) :
    Progress.format.Frames .startIn (zeroInputs inNum) ∧
      (zeroInputs inNum).foldl Progress.format.next .startIn =
        .startOut inNum (List.replicate inNum (List.replicate 36 0)) := by
  have first : Progress.format.next .startIn (le32 inNum) = .txnIn inNum [] := by
    show Progress.txnIn (u4LE (le32 inNum) 0) [] = _
    rw [← List.append_nil (le32 inNum), u4LE_le32 _ small]
  obtain ⟨frames, ends⟩ := Progress.frames_inputs []
    (List.replicate inNum (List.replicate 36 0))
    (fun input member => by rw [List.eq_of_mem_replicate member, List.length_replicate])
    (fun none => by
      have zero := congrArg List.length none
      rw [List.length_replicate, List.length_nil] at zero
      omega)
    (by rw [List.length_nil, Nat.zero_add, List.length_replicate])
  refine ⟨⟨Nat.succ_pos _, rfl, ?_⟩, ?_⟩
  · rw [first]
    exact frames
  · rw [zeroInputs, List.foldl_cons, first, ends, List.nil_append]

theorem frames_zeroOutputs (inputs : List Bytes) (small : outNum < 2 ^ 32) :
    Progress.format.Frames (.startOut inNum inputs) (zeroOutputs outNum) := by
  have first : Progress.format.next (.startOut inNum inputs) (le32 outNum) =
      .txnOut inNum inputs outNum [] := by
    show Progress.txnOut _ _ (u4LE (le32 outNum) 0) [] = _
    rw [← List.append_nil (le32 outNum), u4LE_le32 _ small]
  obtain ⟨frames, _⟩ := Progress.frames_outputs [] (List.replicate outNum (List.replicate 37 0))
    (fun output member => by rw [List.eq_of_mem_replicate member, List.length_replicate])
    (by rw [List.length_nil, Nat.zero_add, List.length_replicate])
  refine ⟨Nat.succ_pos _, rfl, ?_⟩
  rw [first]
  exact frames

theorem length_zeroInputs : (zeroInputs inNum).flatten.length = 4 + 36 * inNum := by
  simp only [zeroInputs, List.flatten_cons, List.length_append, length_le32, List.length_flatten,
    List.map_replicate, List.length_replicate, List.sum_replicate_nat]
  omega

theorem length_zeroOutputs : (zeroOutputs outNum).flatten.length = 4 + 37 * outNum := by
  simp only [zeroOutputs, List.flatten_cons, List.length_append, length_le32, List.length_flatten,
    List.map_replicate, List.length_replicate, List.sum_replicate_nat]
  omega

/-- The parser never refuses a transaction by itself. -/
theorem resume_ne_error (calls : Nat) {fed result : Progress.Call}
    (resumed : fed.resume calls = some result) : result.code ≠ txnError := by
  induction calls generalizing fed with
  | zero => cases resumed
  | succ calls inductionHypothesis =>
    rw [Progress.Call.resume] at resumed
    cases called : fed.progress.call fed.staged fed.pending with
    | none =>
      rw [called] at resumed
      cases resumed
    | some next =>
      rw [called] at resumed
      simp only at resumed
      split at resumed
      · exact inductionHypothesis resumed
      · cases resumed
        show next.code ≠ txnError
        cases Progress.call_takes called with
        | none codes => rcases codes with code | code <;> rw [code] <;> decide
        | one codes => rcases codes with code | code <;> rw [code] <;> decide

theorem feedAll_ne_error {fed result : Fed} {chunks : List Bytes}
    (reading : fed.call.code ≠ txnError) (fedAll : fed.feedAll chunks = some result) :
    result.call.code ≠ txnError := by
  induction chunks generalizing fed with
  | nil =>
    cases fedAll
    exact reading
  | cons chunk later inductionHypothesis =>
    rw [Fed.feedAll, List.foldlM_cons] at fedAll
    obtain ⟨next, fedOne, fedLater⟩ := Option.bind_eq_some_iff.mp fedAll
    refine inductionHypothesis ?_ fedLater
    rw [Fed.feed] at fedOne
    split at fedOne
    · cases fedOne
      exact reading
    · obtain ⟨call, resumed, rfl⟩ := Option.map_eq_some_iff.mp fedOne
      exact resume_ne_error _ resumed

/-- What the property says of one stream. -/
theorem HonoursCounts.of_chunks (honours : HonoursCounts sdk device inNum outNum)
    {chunks : List Bytes} (small : ∀ chunk ∈ chunks, chunk.length ≤ 255) (fits : AllFit [] chunks)
    (opens : Opens inNum outNum chunks.flatten) :
    ∃ (feeding : Feeding) (call : Progress.Call), feeding.Stands sdk call ∧
      feeding.Honours inNum outNum chunks.flatten := by
  obtain ⟨feeding, fine, either⟩ := honours chunks small fits opens
  have feeds := (stands_start sdk device).feedAll
    (rfl : (Feeding.start device).given = Fed.start.given) chunks small
  cases fedAll : Fed.start.feedAll chunks with
  | none =>
    rw [fedAll] at feeds
    obtain ⟨fault, failed⟩ := feeds
    cases fine.symm.trans failed
  | some twin =>
    rw [fedAll] at feeds
    obtain ⟨after, done, stands, _⟩ := feeds
    cases fine.symm.trans done
    refine ⟨feeding, twin.call, stands, either.resolve_left fun refused => ?_⟩
    exact feedAll_ne_error (by decide) fedAll (stands.code.symm.trans refused)

theorem inputs_length_le (feeding : Feeding) : feeding.inputs.length ≤ 20 := by
  have total := feeding.device.signTxnContext.txn.sigInput.length_contents
  rw [Feeding.inputs, List.length_map, Cells.read, List.length_take, List.drop_zero, total]
  exact Nat.min_le_right _ _

/-- A parser past the inputs has read at least one. -/
theorem Feeding.Stands.inputs_pos {feeding : Feeding} {call : Progress.Call}
    (stands : feeding.Stands sdk call)
    (past : feeding.device.signTxnContext.txnState ≠ .startIn ∧
      feeding.device.signTxnContext.txnState ≠ .txnIn) : 0 < feeding.inputs.length := by
  obtain ⟨ctx, tracks⟩ : ∃ ctx, Tracks sdk call.progress ctx := by
    have reached := stands.called.reached
    split at reached
    · obtain ⟨_, before, tracks, _⟩ := reached
      exact ⟨before, tracks⟩
    · exact ⟨_, reached⟩
  have agrees := tracks.agrees
  rw [stands.txnState_eq] at past
  rw [stands.inputs_eq]
  have reading : call.progress = .startIn ∨
      (∃ declared inputs, call.progress = .txnIn declared inputs) → call.code ≠ txnReady := by
    intro early ready
    have reached := stands.called.reached
    rw [if_pos ready] at reached
    obtain ⟨finished, _⟩ := reached
    rcases early with same | ⟨declared, inputs, same⟩ <;> rw [same] at finished <;> exact finished
  cases reached : call.progress with
  | startIn =>
    rw [if_neg (reading (Or.inl reached)), reached] at past
    exact absurd rfl past.1
  | txnIn declared inputs =>
    rw [if_neg (reading (Or.inr ⟨declared, inputs, reached⟩)), reached] at past
    exact absurd rfl past.2
  | startOut declared inputs =>
    rw [reached] at agrees
    obtain ⟨_, all, positive, _⟩ := agrees
    rw [← all] at positive
    exact positive
  | txnOut declared inputs declaredOut outputs =>
    rw [reached] at agrees
    obtain ⟨⟨_, all, positive, _⟩, _⟩ := agrees
    rw [← all] at positive
    exact positive

/-- A parser that is ready has read fewer outputs than its counter can count. -/
theorem Feeding.Stands.outputs_lt {feeding : Feeding} {call : Progress.Call}
    (stands : feeding.Stands sdk call) (ready : feeding.code = txnReady) :
    feeding.curOutputs.length < 2 ^ 8 := by
  have reached := stands.called.reached
  rw [← stands.code, if_pos ready] at reached
  obtain ⟨finished, before, tracks, _⟩ := reached
  rw [stands.outputs, List.length_map]
  have agrees := tracks.agrees
  cases reading : call.progress with
  | startIn => exact Nat.two_pow_pos 8
  | txnIn => exact Nat.two_pow_pos 8
  | startOut => exact Nat.two_pow_pos 8
  | txnOut declared inputs declaredOut outputs =>
    rw [reading] at finished agrees
    obtain ⟨_, ⟨_, _, bound⟩, _⟩ := agrees
    have within : outputs.length % 2 ^ 8 = declaredOut := finished
    have small : declaredOut < 2 ^ 8 := within ▸ Nat.mod_lt _ (by decide)
    exact lt_of_le_of_lt (bound small) small

theorem range_of_honours (small : inNum < 2 ^ 32) (smallOut : outNum < 2 ^ 32)
    (honours : HonoursCounts sdk device inNum outNum) :
    1 ≤ inNum ∧ inNum ≤ 20 ∧ outNum ≤ 255 := by
  have some : 1 ≤ inNum := by
    by_contra none
    have zero : inNum = 0 := by omega
    subst zero
    have fits : AllFit [] [le32 0] :=
      ⟨fun _ => ⟨Or.inl (by rw [parseWhole_nil]), by decide +kernel⟩, trivial⟩
    obtain ⟨feeding, call, stands, read⟩ :=
      honours.of_chunks (by decide) fits
        ⟨fun _ => rfl, fun long => absurd long (by decide)⟩
    have positive := stands.inputs_pos (read.past.mpr (le_refl 4))
    rw [read.inputs, Nat.zero_min] at positive
    exact Nat.lt_irrefl 0 positive
  obtain ⟨frames, ends⟩ := frames_zeroInputs some small
  have first : ∀ later, u4LE ((zeroInputs inNum).flatten ++ later) 0 = inNum := by
    intro later
    rw [zeroInputs, List.flatten_cons, List.append_assoc]
    exact u4LE_le32 inNum small _
  have smallInputs : ∀ chunk ∈ zeroInputs inNum, chunk.length ≤ 255 := by
    intro chunk member
    rcases List.mem_cons.mp member with rfl | zeros
    · rw [length_le32]
      decide
    · rw [List.eq_of_mem_replicate zeros]
      decide
  have few : inNum ≤ 20 := by
    have fits : AllFit [] (zeroInputs inNum) :=
      allFit_of_frames (by rw [parseWhole_nil]) (by rw [parseWhole_nil]; exact frames)
    obtain ⟨feeding, call, stands, read⟩ := honours.of_chunks smallInputs fits
      ⟨fun _ => by rw [← List.append_nil (zeroInputs inNum).flatten]; exact first [],
        fun long => by rw [length_zeroInputs] at long; omega⟩
    have most := inputs_length_le feeding
    rw [read.inputs, length_zeroInputs] at most
    omega
  refine ⟨some, few, ?_⟩
  by_contra many
  have framesAll : Progress.format.Frames .startIn (zeroInputs inNum ++ zeroOutputs outNum) := by
    rw [Progress.format.frames_append, ends]
    exact ⟨frames, frames_zeroOutputs _ smallOut⟩
  have fits : AllFit [] (zeroInputs inNum ++ zeroOutputs outNum) :=
    allFit_of_frames (by rw [parseWhole_nil]) (by rw [parseWhole_nil]; exact framesAll)
  have length : (zeroInputs inNum ++ zeroOutputs outNum).flatten.length =
      8 + 36 * inNum + 37 * outNum := by
    rw [List.flatten_append, List.length_append, length_zeroInputs, length_zeroOutputs]
    omega
  have opens : Opens inNum outNum (zeroInputs inNum ++ zeroOutputs outNum).flatten := by
    rw [List.flatten_append]
    refine ⟨fun _ => first _, fun _ => ?_⟩
    rw [← length_zeroInputs, u4LE_append, zeroOutputs, List.flatten_cons, u4LE_le32 _ smallOut]
  obtain ⟨feeding, call, stands, read⟩ := honours.of_chunks (fun chunk member => by
    rcases List.mem_append.mp member with early | late
    · exact smallInputs chunk early
    · rcases List.mem_cons.mp late with rfl | zeros
      · rw [length_le32]
        decide
      · rw [List.eq_of_mem_replicate zeros]
        decide) fits opens
  have ready := read.ready.mpr (le_of_eq length.symm)
  have bound := stands.outputs_lt ready
  rw [read.outputs, length] at bound
  omega

/-- Exactly the counts of 1 to 20 inputs and of at most 255 outputs are honoured. -/
theorem counts_honoured_iff (small : inNum < 2 ^ 32) (smallOut : outNum < 2 ^ 32) :
    HonoursCounts sdk device inNum outNum ↔ 1 ≤ inNum ∧ inNum ≤ 20 ∧ outNum ≤ 255 :=
  ⟨range_of_honours small smallOut, fun ⟨one, few, fewOut⟩ => honours_of_range one few fewOut⟩

end OutOfRange

/-- Three inputs and seven outputs are honoured. -/
theorem counts_honoured_iff_sample : HonoursCounts Sdk.plain Device.boot 3 7 :=
  (counts_honoured_iff (by decide) (by decide)).mpr (by decide)

/-- Without inputs the parser goes on to read some, the 21st is stored past the table, and 256
outputs are never enough. -/
theorem counts_can_be_ignored : ¬ HonoursCounts Sdk.plain Device.boot 0 1 ∧
    ¬ HonoursCounts Sdk.plain Device.boot 21 1 ∧ ¬ HonoursCounts Sdk.plain Device.boot 1 256 :=
  ⟨fun honours => absurd (range_of_honours (by decide) (by decide) honours) (by decide),
    fun honours => absurd (range_of_honours (by decide) (by decide) honours) (by decide),
    fun honours => absurd (range_of_honours (by decide) (by decide) honours) (by decide)⟩

end LedgerNano
