/-
This file compares the calls of the parser with a parser of the whole string.

The whole string is cut by `Progress.format`. `Declares` says that the counts a string
declares are ones the code was written for; it makes every progress the string leads to
`Fair`. A call from such a progress ends in one of four ways (`Outcome`), and except where
a short chunk ends it with bytes staged, what it took is what the whole string holds next.
-/

import LedgerNano.Refinement

namespace LedgerNano

/-! ### Declared counts -/

/-- The counts a string declares, as far as it reaches: between 1 and 20 inputs and between 1 and
255 outputs. -/
def Declares (bytes : Bytes) : Prop :=
  (4 ≤ bytes.length → 1 ≤ u4LE bytes 0 ∧ u4LE bytes 0 ≤ 20) ∧
    (8 + 36 * u4LE bytes 0 ≤ bytes.length →
      1 ≤ u4LE bytes (4 + 36 * u4LE bytes 0) ∧ u4LE bytes (4 + 36 * u4LE bytes 0) ≤ 255)

instance : DecidablePred Declares := fun _ => inferInstanceAs (Decidable (_ ∧ _))

namespace Progress

/-- The bytes of the elements read. -/
def bytes : Progress → Bytes
  | startIn => []
  | txnIn inNum inputs => le32 inNum ++ inputs.flatten
  | startOut inNum inputs => le32 inNum ++ inputs.flatten
  | txnOut inNum inputs outNum outputs =>
    le32 inNum ++ inputs.flatten ++ le32 outNum ++ outputs.flatten

/-- The counts are in range, and no more elements were read than they say. -/
def Fair : Progress → Prop
  | startIn => True
  | txnIn inNum inputs =>
    inputs.length < inNum ∧ inNum ≤ 20 ∧ inputs.flatten.length = 36 * inputs.length
  | startOut inNum inputs =>
    inputs.length = inNum ∧ 1 ≤ inNum ∧ inNum ≤ 20 ∧ inputs.flatten.length = 36 * inputs.length
  | txnOut _ _ outNum outputs => 1 ≤ outNum ∧ outNum ≤ 255 ∧ outputs.length ≤ outNum

theorem startIn_fair : startIn.Fair := trivial

theorem bytes_next (progress : Progress) {record : Bytes}
    (length : record.length = progress.elementSize) :
    (progress.next record).bytes = progress.bytes ++ record := by
  cases progress with
  | startIn =>
    simp only [next, bytes, List.flatten_nil, List.append_nil, List.nil_append]
    exact le32_u4LE record length
  | txnIn inNum inputs =>
    rw [next]
    split <;>
      simp only [bytes, List.flatten_append, List.flatten_cons, List.flatten_nil, List.append_nil,
        List.append_assoc]
  | startOut inNum inputs =>
    simp only [next, bytes, List.flatten_nil, List.append_nil]
    rw [le32_u4LE record length]
  | txnOut inNum inputs outNum outputs =>
    simp only [next, bytes, List.flatten_append, List.flatten_cons, List.flatten_nil,
      List.append_nil, List.append_assoc]

theorem complete_iff_finished {progress : Progress} (fair : progress.Fair) :
    progress.Complete ↔ progress.Finished := by
  cases progress with
  | startIn => exact Iff.rfl
  | txnIn => exact Iff.rfl
  | startOut => exact Iff.rfl
  | txnOut inNum inputs outNum outputs =>
    obtain ⟨_, small, most⟩ := fair
    show outputs.length = outNum ↔ outputs.length % 2 ^ 8 = outNum
    rw [Nat.mod_eq_of_lt (by omega)]

theorem not_overruns {progress : Progress} (fair : progress.Fair) : ¬ progress.Overruns := by
  cases progress with
  | startIn => exact id
  | txnIn inNum inputs =>
    obtain ⟨fewer, most, _⟩ := fair
    show ¬ 20 ≤ inputs.length
    omega
  | startOut => exact id
  | txnOut => exact id

theorem size_of_incomplete {progress : Progress} (incomplete : ¬ progress.Complete) :
    format.size progress = progress.elementSize :=
  if_neg incomplete

theorem incomplete_of_size {progress : Progress} (positive : 0 < format.size progress) :
    ¬ progress.Complete := by
  intro complete
  rw [show format.size progress = 0 from if_pos complete] at positive
  exact Nat.lt_irrefl 0 positive

theorem elementSize_output {progress : Progress} (reading : progress.state = .txnOut) :
    progress.elementSize = 37 := by
  cases progress with
  | startIn => cases reading
  | txnIn => cases reading
  | startOut => cases reading
  | txnOut => rfl

/-- Taking the next element of a string with declared counts keeps the progress fair. -/
theorem Fair.next {whole : Bytes} (declares : Declares whole) {progress : Progress} {record : Bytes}
    (fair : progress.Fair) (incomplete : ¬ progress.Complete)
    (length : record.length = progress.elementSize) (inside : progress.bytes ++ record <+: whole) :
    (progress.next record).Fair := by
  obtain ⟨after, rfl⟩ := inside
  obtain ⟨declaresIn, declaresOut⟩ := declares
  cases progress with
  | startIn =>
    have count : u4LE ([] ++ record ++ after) 0 = u4LE record 0 := u4LE_middle [] length after
    have size : record.length = 4 := length
    have long : 4 ≤ (bytes startIn ++ record ++ after).length := by
      simp only [bytes, List.nil_append, List.length_append]
      omega
    obtain ⟨some, most⟩ := declaresIn long
    rw [show bytes startIn = [] from rfl, count] at some most
    exact ⟨some, most, rfl⟩
  | txnIn inNum inputs =>
    obtain ⟨fewer, most, sizes⟩ := fair
    have size : record.length = 36 := length
    have total : (inputs ++ [record]).flatten.length = 36 * (inputs ++ [record]).length := by
      rw [List.flatten_append, List.length_append, sizes, List.length_append]
      simp only [List.flatten_cons, List.flatten_nil, List.append_nil, List.length_singleton]
      omega
    rw [Progress.next]
    by_cases last : (inputs ++ [record]).length = inNum
    · rw [if_pos last]
      exact ⟨last, by omega, most, total⟩
    · rw [if_neg last]
      refine ⟨?_, most, total⟩
      rw [List.length_append, List.length_singleton] at last ⊢
      omega
  | startOut inNum inputs =>
    obtain ⟨same, some, most, sizes⟩ := fair
    have size : record.length = 4 := length
    have declared : u4LE (bytes (startOut inNum inputs) ++ record ++ after) 0 = inNum := by
      simp only [bytes, List.append_assoc]
      exact u4LE_le32 inNum (by omega) _
    have place : 4 + 36 * inNum = (bytes (startOut inNum inputs)).length := by
      rw [bytes, List.length_append, length_le32, sizes, same]
    rw [declared, place, u4LE_middle _ length] at declaresOut
    obtain ⟨someOut, mostOut⟩ := declaresOut (by
      rw [List.length_append, List.length_append]
      omega)
    exact ⟨someOut, mostOut, Nat.zero_le _⟩
  | txnOut inNum inputs outNum outputs =>
    obtain ⟨some, small, most⟩ := fair
    have more : ¬ outputs.length = outNum := incomplete
    refine ⟨some, small, ?_⟩
    rw [List.length_append, List.length_singleton]
    omega

/-! ### Fair strings -/

/-- Every part of the string leads to a fair progress. -/
def Sound (progress : Progress) (items : Bytes) : Prop :=
  ∀ early, early <+: items → (format.consume progress early).state.Fair

/-- A string with declared counts is sound. -/
theorem sound_of_declares {whole : Bytes} (declares : Declares whole) : startIn.Sound whole := by
  intro early inside
  refine (format.consume_rule (motive := fun progress taken =>
    progress.Fair ∧ progress.bytes = taken) ⟨startIn_fair, rfl⟩ ?_).1
  intro progress taken record before positive size prefixed
  obtain ⟨fair, rfl⟩ := before
  have incomplete := incomplete_of_size positive
  have length : record.length = progress.elementSize := size.trans (size_of_incomplete incomplete)
  exact ⟨fair.next declares incomplete length (prefixed.trans inside), bytes_next progress length⟩

section Sound

variable {progress : Progress} {record items first second : Bytes}

theorem consume_short (short : items.length < progress.elementSize) :
    format.consume progress items = { records := [], state := progress, rest := items } := by
  refine format.consume_stop fun holds => ?_
  have size := size_of_incomplete (incomplete_of_size holds.1)
  have enough := holds.2
  omega

theorem consume_complete (complete : progress.Complete) :
    format.consume progress items = { records := [], state := progress, rest := items } :=
  format.consume_stop fun holds => incomplete_of_size holds.1 complete

theorem consume_element (incomplete : ¬ progress.Complete)
    (length : record.length = progress.elementSize) (items : Bytes) :
    format.consume progress (record ++ items) =
      { format.consume (progress.next record) items with
        records := record :: (format.consume (progress.next record) items).records } := by
  have size := size_of_incomplete incomplete
  have positive := progress.elementSize_pos
  exact format.consume_record (length.trans size.symm) (by omega) items

/-- Every part of the string leads to a progress with a property. -/
def Throughout (property : Progress → Prop) (progress : Progress) (items : Bytes) : Prop :=
  ∀ early, early <+: items → property (format.consume progress early).state

theorem Throughout.here {property : Progress → Prop}
    (each : Throughout property progress items) : property progress := by
  have start := each [] List.nil_prefix
  have short : ([] : Bytes).length < progress.elementSize := progress.elementSize_pos
  rw [consume_short short] at start
  exact start

theorem Throughout.next {property : Progress → Prop}
    (each : Throughout property progress (record ++ items)) (incomplete : ¬ progress.Complete)
    (length : record.length = progress.elementSize) :
    Throughout property (progress.next record) items := by
  intro early inside
  have later := each (record ++ early) ((List.prefix_append_right_inj record).mpr inside)
  rw [consume_element incomplete length] at later
  exact later

/-- What one part of a string leaves, with the other part, leads nowhere else. -/
theorem Throughout.append {property : Progress → Prop}
    (each : Throughout property progress (first ++ second)) :
    Throughout property (format.consume progress first).state
      ((format.consume progress first).rest ++ second) := by
  intro early inside
  rcases List.prefix_or_prefix_of_prefix inside (List.prefix_append _ second) with
    short | ⟨middle, rfl⟩
  · have stop := format.consume_exhausts progress first
    have shorter : ¬ format.Holds (format.consume progress first).state early :=
      fun holds => stop ⟨holds.1, holds.2.trans short.length_le⟩
    rw [format.consume_stop shorter]
    exact each first (List.prefix_append _ _)
  · have within := (List.prefix_append_right_inj _).mp inside
    have later := each (first ++ middle) ((List.prefix_append_right_inj first).mpr within)
    rw [format.consume_append] at later
    exact later

theorem Sound.fair (sound : progress.Sound items) : progress.Fair :=
  Throughout.here sound

theorem Sound.next (sound : progress.Sound (record ++ items)) (incomplete : ¬ progress.Complete)
    (length : record.length = progress.elementSize) : (progress.next record).Sound items :=
  Throughout.next sound incomplete length

/-- What one part of a sound string leaves is sound with the other part. -/
theorem Sound.append (sound : progress.Sound (first ++ second)) :
    (format.consume progress first).state.Sound
      ((format.consume progress first).rest ++ second) :=
  Throughout.append sound

end Sound

/-! ### As many elements as declared -/

/-- Inputs behind others, up to the declared number. -/
theorem frames_inputs {inNum : Nat} (read more : List Bytes)
    (sizes : ∀ input ∈ more, input.length = 36) (some : more ≠ [])
    (count : read.length + more.length = inNum) :
    format.Frames (txnIn inNum read) more ∧
      more.foldl format.next (txnIn inNum read) = startOut inNum (read ++ more) := by
  induction more generalizing read with
  | nil => exact absurd rfl some
  | cons input later inductionHypothesis =>
    have length : input.length = 36 := sizes input List.mem_cons_self
    have next : format.next (txnIn inNum read) input =
      (txnIn inNum read).next input := rfl
    rw [List.length_cons] at count
    by_cases last : later = []
    · subst last
      have all : (read ++ [input]).length = inNum := by
        rw [List.length_append, List.length_singleton]
        exact count
      refine ⟨⟨Nat.succ_pos _, length, trivial⟩, ?_⟩
      rw [List.foldl_cons, next, Progress.next, if_pos all]
      rfl
    · have fewer : (read ++ [input]).length ≠ inNum := by
        have positive := List.length_pos_iff.mpr last
        rw [List.length_append, List.length_singleton]
        omega
      obtain ⟨frames, ends⟩ := inductionHypothesis (read ++ [input])
        (fun other member => sizes other (List.mem_cons_of_mem _ member)) last
        (by rw [List.length_append, List.length_singleton]; omega)
      refine ⟨⟨Nat.succ_pos _, length, ?_⟩, ?_⟩
      · rw [next, Progress.next, if_neg fewer]
        exact frames
      · rw [List.foldl_cons, next, Progress.next, if_neg fewer, ends, List.append_assoc]
        rfl

/-- Outputs behind others, up to the declared number. -/
theorem frames_outputs {inNum outNum : Nat} {inputs : List Bytes} (read more : List Bytes)
    (sizes : ∀ output ∈ more, output.length = 37) (count : read.length + more.length = outNum) :
    format.Frames (txnOut inNum inputs outNum read) more ∧
      more.foldl format.next (txnOut inNum inputs outNum read) =
        txnOut inNum inputs outNum (read ++ more) := by
  induction more generalizing read with
  | nil =>
    rw [List.append_nil]
    exact ⟨trivial, rfl⟩
  | cons output later inductionHypothesis =>
    rw [List.length_cons] at count
    have incomplete : ¬ (txnOut inNum inputs outNum read).Complete := by
      show ¬ read.length = outNum
      omega
    have size := size_of_incomplete incomplete
    obtain ⟨frames, ends⟩ := inductionHypothesis (read ++ [output])
      (fun other member => sizes other (List.mem_cons_of_mem _ member))
      (by rw [List.length_append, List.length_singleton]; omega)
    refine ⟨⟨?_, ?_, frames⟩, ?_⟩
    · rw [size]
      exact elementSize_pos _
    · rw [size]
      exact sizes output List.mem_cons_self
    · rw [List.foldl_cons, ← List.singleton_append, ← List.append_assoc]
      exact ends

/-! ### One call -/

/-- The elements up to and with an output are what the string holds next, and `rest` follows. -/
structure TakesOutput (progress : Progress) (items : Bytes) (records : List Bytes)
    (reached : Progress) (rest : Bytes) : Prop where
  output : ∃ output, reached.outputs = progress.outputs ++ [output]
  reading : reached.state = .txnOut
  shorter : rest.length < items.length
  sound : reached.Sound rest
  whole : format.consume progress items =
    { format.consume reached rest with
      records := records ++ (format.consume reached rest).records }

/-- How a call ends: with all outputs read before it, with a chunk that is short for the first
element, with one that is short after some elements, or with an output. -/
inductive Outcome (progress : Progress) (staged pending : Bytes) : Call → Prop
  | ready (complete : progress.Complete) :
    Outcome progress staged pending
      { code := txnReady, records := [], progress, staged, pending }
  | short (incomplete : ¬ progress.Complete)
      (brief : progress.Short staged.length pending.length) :
    Outcome progress staged pending
      { code := txnPartial, records := [], progress, staged := pending, pending := [] }
  | waits (incomplete : ¬ progress.Complete)
      (enough : ¬ progress.Short staged.length pending.length)
      {records : List Bytes} {reached : Progress} {rest : Bytes}
      (unfinished : ¬ reached.Complete) (same : reached.outputs = progress.outputs)
      (whole : format.consume progress (staged ++ pending) =
        { records, state := reached, rest }) :
    Outcome progress staged pending
      { code := txnPartial, records, progress := reached, staged := rest, pending := [] }
  | lastOutput (incomplete : ¬ progress.Complete)
      (enough : ¬ progress.Short staged.length pending.length)
      {records : List Bytes} {reached : Progress} {rest : Bytes}
      (takes : TakesOutput progress (staged ++ pending) records reached rest)
      (few : rest.length < 37) :
    Outcome progress staged pending
      { code := txnPartialOut, records, progress := reached, staged := rest, pending := [] }
  | output (incomplete : ¬ progress.Complete)
      (enough : ¬ progress.Short staged.length pending.length)
      {records : List Bytes} {reached : Progress} {rest : Bytes}
      (takes : TakesOutput progress (staged ++ pending) records reached rest)
      (many : 37 ≤ rest.length) :
    Outcome progress staged pending
      { code := txnApproveOut, records, progress := reached, staged := [], pending := rest }

/-- An element that is not an output comes before what the rest of the call takes. -/
theorem Outcome.element {progress : Progress} {staged pending record rest : Bytes} {later : Call}
    (incomplete : ¬ progress.Complete) (enough : ¬ progress.Short staged.length pending.length)
    (items : staged ++ pending = record ++ rest) (length : record.length = progress.elementSize)
    (earlier : progress.state ≠ .txnOut) (unfinished : ¬ (progress.next record).Complete)
    (outcome : Outcome (progress.next record) [] rest later) :
    Outcome progress staged pending { later with records := record :: later.records } := by
  have whole := consume_element incomplete length rest
  rw [← items] at whole
  have outputs := outputs_next earlier record
  have shorter : ([] ++ rest).length ≤ (staged ++ pending).length := by
    rw [items, List.nil_append, List.length_append]
    exact Nat.le_add_left _ _
  cases outcome with
  | ready complete => exact absurd complete unfinished
  | short _ brief =>
    refine Outcome.waits incomplete enough unfinished outputs ?_
    rw [whole, consume_short (pending_lt_of_short brief)]
  | waits _ _ unfinishedLater same wholeLater =>
    refine Outcome.waits incomplete enough unfinishedLater (same.trans outputs) ?_
    rw [List.nil_append] at wholeLater
    rw [whole, wholeLater]
  | lastOutput _ _ takes few =>
    refine Outcome.lastOutput incomplete enough
      ⟨?_, takes.reading, takes.shorter.trans_le shorter, takes.sound, ?_⟩ few
    · rw [← outputs]
      exact takes.output
    · have wholeLater := takes.whole
      rw [List.nil_append] at wholeLater
      rw [whole, wholeLater]
      rfl
  | output _ _ takes many =>
    refine Outcome.output incomplete enough
      ⟨?_, takes.reading, takes.shorter.trans_le shorter, takes.sound, ?_⟩ many
    · rw [← outputs]
      exact takes.output
    · have wholeLater := takes.whole
      rw [List.nil_append] at wholeLater
      rw [whole, wholeLater]
      rfl

theorem incomplete_next {progress : Progress} {record : Bytes} (earlier : progress.state ≠ .txnOut)
    (fair : (progress.next record).Fair) : ¬ (progress.next record).Complete := by
  intro complete
  cases progress with
  | startIn => exact complete
  | txnIn inNum inputs =>
    rw [next] at complete
    split at complete <;> exact complete
  | startOut inNum inputs =>
    have none : 0 = u4LE record 0 := complete
    have some : 1 ≤ u4LE record 0 := fair.1
    omega
  | txnOut => exact earlier rfl

theorem state_next_output {progress : Progress} (reading : progress.state = .txnOut)
    (record : Bytes) : (progress.next record).state = .txnOut := by
  cases progress with
  | startIn => cases reading
  | txnIn => cases reading
  | startOut => cases reading
  | txnOut => rfl

/-- Every call on sound bytes has one of these outcomes. -/
theorem call_outcome (progress : Progress) (staged pending : Bytes)
    (sound : progress.Sound (staged ++ pending)) :
    ∃ result, progress.call staged pending = some result ∧
      Outcome progress staged pending result := by
  induction progress, staged, pending using call.induct with
  | case1 progress staged pending finished =>
    refine ⟨_, ?_, Outcome.ready ((complete_iff_finished sound.fair).mpr finished)⟩
    rw [call, if_pos finished]
  | case2 progress staged pending unfinished short =>
    refine ⟨_, ?_, Outcome.short (mt (complete_iff_finished sound.fair).mp unfinished) short⟩
    rw [call, if_neg unfinished, if_pos short]
  | case3 progress staged pending unfinished enough overruns =>
    exact absurd overruns (not_overruns sound.fair)
  | case4 progress staged pending unfinished enough room reading =>
    have incomplete := mt (complete_iff_finished sound.fair).mp unfinished
    have total := enough_of_not_short enough
    have length : ((staged ++ pending).take progress.elementSize).length =
      progress.elementSize := by
      rw [List.length_take, List.length_append]
      omega
    have items := List.take_append_drop progress.elementSize (staged ++ pending)
    have takes : TakesOutput progress (staged ++ pending)
        [(staged ++ pending).take progress.elementSize]
        (progress.next ((staged ++ pending).take progress.elementSize))
        ((staged ++ pending).drop progress.elementSize) := by
      refine ⟨⟨_, outputs_next_output reading _⟩, state_next_output reading _, ?_, ?_, ?_⟩
      · have positive := progress.elementSize_pos
        rw [List.length_drop, List.length_append]
        omega
      · rw [← items] at sound
        exact sound.next incomplete length
      · have whole := consume_element incomplete length
          ((staged ++ pending).drop progress.elementSize)
        rw [items] at whole
        exact whole
    refine ⟨progress.outputCall ((staged ++ pending).take progress.elementSize)
      ((staged ++ pending).drop progress.elementSize), ?_, ?_⟩
    · rw [call, if_neg unfinished, if_neg enough, if_neg room]
      simp only [if_pos reading]
    · rw [outputCall]
      split
      · exact Outcome.lastOutput incomplete enough takes ‹_›
      · exact Outcome.output incomplete enough takes (not_lt.mp ‹_›)
  | case5 progress staged pending unfinished enough room record rest earlier inductionHypothesis =>
    have incomplete := mt (complete_iff_finished sound.fair).mp unfinished
    have total := enough_of_not_short enough
    have items : staged ++ pending = record ++ rest :=
      (List.take_append_drop progress.elementSize (staged ++ pending)).symm
    have length : record.length = progress.elementSize := by
      rw [List.length_take, List.length_append]
      omega
    rw [items] at sound
    have soundNext := sound.next incomplete length
    obtain ⟨later, calls, outcome⟩ := inductionHypothesis soundNext
    refine ⟨_, ?_, outcome.element incomplete enough items length earlier
      (incomplete_next earlier soundNext.fair)⟩
    rw [call, if_neg unfinished, if_neg enough, if_neg room]
    simp only [if_neg earlier]
    rw [show call (progress.next record) [] rest = some later from calls]
    rfl

end Progress

/-! ### The whole string -/

/-- The parse of a string as a whole. -/
def parseWhole (bytes : Bytes) : Framing.Consumed Progress Byte :=
  Progress.format.consume .startIn bytes

theorem parseWhole_nil : parseWhole [] = { records := [], state := .startIn, rest := [] } :=
  Progress.consume_short Progress.startIn.elementSize_pos

/-- The parse of more bytes goes on with what was left. -/
theorem parseWhole_append (before chunk : Bytes) :
    parseWhole (before ++ chunk) =
      { Progress.format.consume (parseWhole before).state ((parseWhole before).rest ++ chunk) with
        records := (parseWhole before).records ++ (Progress.format.consume
          (parseWhole before).state ((parseWhole before).rest ++ chunk)).records } :=
  Progress.format.consume_append .startIn before chunk

theorem parseWhole_complete {before : Bytes} (complete : (parseWhole before).state.Complete)
    (chunk : Bytes) : (parseWhole (before ++ chunk)).state = (parseWhole before).state ∧
      (parseWhole (before ++ chunk)).records = (parseWhole before).records := by
  rw [parseWhole_append, Progress.consume_complete complete]
  exact ⟨rfl, List.append_nil _⟩

theorem rest_parseWhole_complete {before : Bytes} (complete : (parseWhole before).state.Complete)
    (chunk : Bytes) :
    (parseWhole (before ++ chunk)).rest = (parseWhole before).rest ++ chunk := by
  rw [parseWhole_append, Progress.consume_complete complete]

/-- What is left and the next chunk of a string with declared counts are sound. -/
theorem sound_chunk {whole before chunk : Bytes} (declares : Declares whole)
    (inside : before ++ chunk <+: whole) :
    (parseWhole before).state.Sound ((parseWhole before).rest ++ chunk) := by
  have soundAll : Progress.startIn.Sound (before ++ chunk) := fun early within =>
    Progress.sound_of_declares declares early (within.trans inside)
  exact soundAll.append

/-- What is left is shorter than the next element. -/
theorem rest_parseWhole_lt {bytes : Bytes} (incomplete : ¬ (parseWhole bytes).state.Complete) :
    (parseWhole bytes).rest.length < (parseWhole bytes).state.elementSize := by
  have stop := Progress.format.consume_exhausts .startIn bytes
  have size := Progress.size_of_incomplete incomplete
  have positive := (parseWhole bytes).state.elementSize_pos
  by_contra long
  exact stop ⟨size ▸ positive, size ▸ not_lt.mp long⟩

end LedgerNano
