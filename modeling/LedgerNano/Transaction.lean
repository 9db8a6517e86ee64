/-
This file says what the parser is for, without its memory: a transaction is a stream of
elements, each of a size fixed by what came before, and the session has got as far as
the elements it has read.

`Progress` is that record of a session. It frames the stream (`Progress.format`), it
names the bytes that are hashed (`Progress.hashed`), and `Progress.call` describes one
call of `txn_next_elem` on lists of bytes: the staged bytes, the rest of the chunk, and
the code that ends the call.
-/

import LedgerNano.Library.Framing
import LedgerNano.Parser

namespace LedgerNano

/-! ### Counts -/

/-- A count as the four bytes of the stream. -/
def le32 (value : Nat) : Bytes :=
  [UInt8.ofNat value, UInt8.ofNat (value / 2 ^ 8), UInt8.ofNat (value / 2 ^ 16),
    UInt8.ofNat (value / 2 ^ 24)]

@[simp]
theorem length_le32 (value : Nat) : (le32 value).length = 4 := rfl

theorem byteAt_lt (bytes : Bytes) (index : Nat) : byteAt bytes index < 2 ^ 8 :=
  UInt8.toNat_lt _

/-- Four bytes are the count they denote. -/
theorem le32_u4LE (bytes : Bytes) (length : bytes.length = 4) : le32 (u4LE bytes 0) = bytes := by
  obtain ⟨a, b, c, d, rfl⟩ : ∃ a b c d, bytes = [a, b, c, d] := by
    match bytes, length with
    | [a, b, c, d], _ => exact ⟨a, b, c, d, rfl⟩
  have boundA := a.toNat_lt
  have boundB := b.toNat_lt
  have boundC := c.toNat_lt
  have boundD := d.toNat_lt
  have value : u4LE [a, b, c, d] 0 =
      a.toNat + 2 ^ 8 * b.toNat + 2 ^ 16 * c.toNat + 2 ^ 24 * d.toNat := rfl
  rw [value, le32]
  simp only [List.cons.injEq, and_true, ← UInt8.toNat_inj, UInt8.toNat_ofNat']
  omega

/-- A count is read back from its bytes. -/
theorem u4LE_le32 (value : Nat) (bound : value < 2 ^ 32) (rest : Bytes) :
    u4LE (le32 value ++ rest) 0 = value := by
  simp only [u4LE, byteAt, le32, List.cons_append, List.nil_append, List.getD_cons_zero,
    List.getD_cons_succ, UInt8.toNat_ofNat']
  omega

theorem byteAt_take (bytes : Bytes) (index size : Nat) (inside : index < size) :
    byteAt (bytes.take size) index = byteAt bytes index := by
  rw [byteAt, byteAt, List.getD_eq_getElem?_getD, List.getD_eq_getElem?_getD,
    List.getElem?_take_of_lt inside]

theorem u4LE_take (bytes : Bytes) : u4LE (bytes.take 4) 0 = u4LE bytes 0 := by
  rw [u4LE, u4LE, byteAt_take _ _ _ (by decide), byteAt_take _ _ _ (by decide),
    byteAt_take _ _ _ (by decide), byteAt_take _ _ _ (by decide)]

theorem byteAt_append (before bytes : Bytes) (index : Nat) :
    byteAt (before ++ bytes) (before.length + index) = byteAt bytes index := by
  rw [byteAt, byteAt, List.getD_eq_getElem?_getD, List.getD_eq_getElem?_getD,
    List.getElem?_append_right (Nat.le_add_right _ _), Nat.add_sub_cancel_left]

theorem u4LE_append (before bytes : Bytes) :
    u4LE (before ++ bytes) before.length = u4LE bytes 0 := by
  rw [u4LE, u4LE, byteAt_append _ _ 1, byteAt_append _ _ 2, byteAt_append _ _ 3,
    ← byteAt_append before bytes 0]
  rfl

/-- The four bytes behind others are their count. -/
theorem u4LE_middle (before : Bytes) {count : Bytes} (length : count.length = 4) (after : Bytes) :
    u4LE (before ++ count ++ after) before.length = u4LE count 0 := by
  have first : (count ++ after).take 4 = count := by
    rw [← length]
    exact List.take_left
  rw [List.append_assoc, u4LE_append, ← u4LE_take, first]

/-! ### How far a session has got -/

/-- The elements a session has read: none, the input count with the inputs so far, all of the
inputs, or these with the output count and the outputs so far. -/
inductive Progress
  | startIn
  | txnIn (inNum : Nat) (inputs : List Bytes)
  | startOut (inNum : Nat) (inputs : List Bytes)
  | txnOut (inNum : Nat) (inputs : List Bytes) (outNum : Nat) (outputs : List Bytes)

namespace Progress

/-- The parser state that goes with the progress. -/
def state : Progress → TxnState
  | startIn => .startIn
  | txnIn .. => .txnIn
  | startOut .. => .startOut
  | txnOut .. => .txnOut

/-- A session that reads is in no signing state. -/
theorem state_reading (progress : Progress) :
    progress.state ≠ .computeSigs ∧ progress.state ≠ .retSigs := by
  cases progress <;> exact ⟨TxnState.noConfusion, TxnState.noConfusion⟩

def inputs : Progress → List Bytes
  | startIn => []
  | txnIn _ inputs => inputs
  | startOut _ inputs => inputs
  | txnOut _ inputs _ _ => inputs

def outputs : Progress → List Bytes
  | txnOut _ _ _ outputs => outputs
  | _ => []

/-- The size of the element that is read next. -/
def elementSize : Progress → Nat
  | startIn => 4
  | txnIn .. => 36
  | startOut .. => 4
  | txnOut .. => 37

/-- The progress after one more element. -/
def next : Progress → Bytes → Progress
  | startIn, count => txnIn (u4LE count 0) []
  | txnIn inNum inputs, input =>
    if (inputs ++ [input]).length = inNum then startOut inNum (inputs ++ [input])
    else txnIn inNum (inputs ++ [input])
  | startOut inNum inputs, count => txnOut inNum inputs (u4LE count 0) []
  | txnOut inNum inputs outNum outputs, output =>
    txnOut inNum inputs outNum (outputs ++ [output])

/-- The bytes that are hashed: of an input only its 32-byte id. -/
def hashed : Progress → Bytes
  | startIn => []
  | txnIn inNum inputs => le32 inNum ++ (inputs.map (List.take 32)).flatten
  | startOut inNum inputs => le32 inNum ++ (inputs.map (List.take 32)).flatten
  | txnOut inNum inputs outNum outputs =>
    le32 inNum ++ (inputs.map (List.take 32)).flatten ++ le32 outNum ++ outputs.flatten

/-- All declared outputs were read. -/
def Complete : Progress → Prop
  | txnOut _ _ outNum outputs => outputs.length = outNum
  | _ => False

instance : DecidablePred Complete
  | startIn | txnIn .. | startOut .. => isFalse id
  | txnOut _ _ outNum outputs => inferInstanceAs (Decidable (outputs.length = outNum))

/-- The framing of a transaction. -/
def format : Framing.Format Progress Byte where
  size progress := if progress.Complete then 0 else progress.elementSize
  next := next

theorem elementSize_pos (progress : Progress) : 0 < progress.elementSize := by
  cases progress <;> exact Nat.succ_pos _

theorem elementSize_le (progress : Progress) : progress.elementSize ≤ 37 := by
  cases progress <;> simp only [elementSize] <;> omega

/-- The bytes hashed grow with each element. -/
theorem hashed_next_input (inNum : Nat) (inputs : List Bytes) (input : Bytes) :
    ((txnIn inNum inputs).next input).hashed = (txnIn inNum inputs).hashed ++ input.take 32 := by
  rw [next]
  split <;>
    simp only [hashed, List.map_append, List.map_cons, List.map_nil, List.flatten_append,
      List.flatten_cons, List.flatten_nil, List.append_nil, List.append_assoc]

/-! ### One call of the parser -/

/-- The source's test for a chunk that ends inside the element, on the numbers of staged and of
unread bytes. In `TXN_START_OUT` the staged bytes are not counted. -/
def Short : Progress → Nat → Nat → Prop
  | startOut .., _, pending => pending < 4
  | progress, staged, pending => staged + pending < progress.elementSize

instance (progress : Progress) (staged pending : Nat) :
    Decidable (progress.Short staged pending) := by
  cases progress <;> exact inferInstanceAs (Decidable (_ < _))

/-- Where the chunk is not short, the element is complete. -/
theorem enough_of_not_short {progress : Progress} {staged pending : Nat}
    (enough : ¬ progress.Short staged pending) : progress.elementSize ≤ staged + pending := by
  cases progress <;> simp only [Short, elementSize, not_lt] at enough ⊢ <;> omega

/-- A short rest is shorter than the element. -/
theorem pending_lt_of_short {progress : Progress} {staged pending : Nat}
    (short : progress.Short staged pending) : pending < progress.elementSize := by
  cases progress <;> simp only [Short, elementSize] at short ⊢ <;> omega

/-- The source's test for the last output, on a counter of eight bits. -/
def Finished : Progress → Prop
  | txnOut _ _ outNum outputs => outputs.length % 2 ^ 8 = outNum
  | _ => False

instance : DecidablePred Finished
  | startIn | txnIn .. | startOut .. => isFalse id
  | txnOut _ _ outNum outputs => inferInstanceAs (Decidable (outputs.length % 2 ^ 8 = outNum))

/-- The last output was taken. With it the source finishes the inner hash. -/
def TookLast (progress : Progress) : Prop :=
  progress.outputs ≠ [] ∧ progress.Finished

instance : DecidablePred TookLast := fun _ => inferInstanceAs (Decidable (_ ∧ _))

/-- The next input would be stored past the table. -/
def Overruns : Progress → Prop
  | txnIn _ inputs => maxInputs ≤ inputs.length
  | _ => False

instance : DecidablePred Overruns
  | startIn | startOut .. | txnOut .. => isFalse id
  | txnIn _ inputs => inferInstanceAs (Decidable (maxInputs ≤ inputs.length))

/-- A call: the code that ended it, the elements it took, what they lead to, and the bytes it
left staged and unread. -/
structure Call where
  code : Nat
  records : List Bytes
  progress : Progress
  staged : Bytes
  pending : Bytes

/-- The call that is ended by an output. -/
def outputCall (progress : Progress) (record rest : Bytes) : Call :=
  if rest.length < 37 then
    { code := txnPartialOut, records := [record], progress := progress.next record
      staged := rest, pending := [] }
  else
    { code := txnApproveOut, records := [record], progress := progress.next record
      staged := [], pending := rest }

/-- One call of `txn_next_elem` in a reading state, on the staged bytes and the unread part of
the chunk. There is no result where the call stores an input past the table. -/
def call (progress : Progress) (staged pending : Bytes) : Option Call :=
  if progress.Finished then
    some { code := txnReady, records := [], progress, staged, pending }
  else if progress.Short staged.length pending.length then
    some { code := txnPartial, records := [], progress, staged := pending, pending := [] }
  else if progress.Overruns then
    none
  else
    let record := (staged ++ pending).take progress.elementSize
    let rest := (staged ++ pending).drop progress.elementSize
    if progress.state = .txnOut then
      some (outputCall progress record rest)
    else
      (call (progress.next record) [] rest).map fun later =>
        { later with records := record :: later.records }
termination_by (staged ++ pending).length
decreasing_by
  rename_i enough _ _
  have total := enough_of_not_short enough
  have positive := progress.elementSize_pos
  rw [List.nil_append, List.length_drop, List.length_append]
  omega

/-! ### What a call leads to -/

/-- The rule of induction for calls: a call that finds the session finished or its chunk short,
one that takes an output, and one that takes another element and goes on. -/
theorem call_rule {motive : Progress → Bytes → Bytes → Call → Prop}
    (finished : ∀ progress staged pending, Finished progress →
      motive progress staged pending
        { code := txnReady, records := [], progress, staged, pending })
    (short : ∀ progress staged pending, ¬ Finished progress →
      progress.Short staged.length pending.length →
      motive progress staged pending
        { code := txnPartial, records := [], progress, staged := pending, pending := [] })
    (output : ∀ progress staged pending, ¬ Finished progress →
      ¬ progress.Short staged.length pending.length → progress.state = .txnOut →
      motive progress staged pending (progress.outputCall
        ((staged ++ pending).take progress.elementSize)
        ((staged ++ pending).drop progress.elementSize)))
    (element : ∀ progress staged pending later,
      ¬ progress.Short staged.length pending.length → ¬ progress.Overruns →
      progress.state ≠ .txnOut →
      motive (progress.next ((staged ++ pending).take progress.elementSize)) []
        ((staged ++ pending).drop progress.elementSize) later →
      motive progress staged pending
        { later with
          records := (staged ++ pending).take progress.elementSize :: later.records })
    {progress : Progress} {staged pending : Bytes} {result : Call}
    (called : progress.call staged pending = some result) :
    motive progress staged pending result := by
  induction progress, staged, pending using call.induct generalizing result with
  | case1 progress staged pending last =>
    rw [call, if_pos last] at called
    cases called
    exact finished progress staged pending last
  | case2 progress staged pending unfinished brief =>
    rw [call, if_neg unfinished, if_pos brief] at called
    cases called
    exact short progress staged pending unfinished brief
  | case3 progress staged pending unfinished enough overruns =>
    rw [call, if_neg unfinished, if_neg enough, if_pos overruns] at called
    cases called
  | case4 progress staged pending unfinished enough room reading =>
    rw [call, if_neg unfinished, if_neg enough, if_neg room] at called
    simp only [if_pos reading] at called
    cases called
    exact output progress staged pending unfinished enough reading
  | case5 progress staged pending unfinished enough room record rest earlier =>
    rename_i inductionHypothesis
    rw [call, if_neg unfinished, if_neg enough, if_neg room] at called
    simp only [if_neg earlier] at called
    obtain ⟨later, calls, rfl⟩ := Option.map_eq_some_iff.mp called
    exact element progress staged pending later enough room earlier (inductionHypothesis calls)

theorem outputCall_code (progress : Progress) (record rest : Bytes) :
    (progress.outputCall record rest).code =
      if rest.length < 37 then txnPartialOut else txnApproveOut := by
  rw [outputCall]
  split <;> rfl

theorem outputCall_records (progress : Progress) (record rest : Bytes) :
    (progress.outputCall record rest).records = [record] := by
  rw [outputCall]
  split <;> rfl

theorem outputCall_progress (progress : Progress) (record rest : Bytes) :
    (progress.outputCall record rest).progress = progress.next record := by
  rw [outputCall]
  split <;> rfl

/-- A call leads to the progress its elements lead to. -/
theorem call_progress {progress : Progress} {staged pending : Bytes} {result : Call}
    (called : progress.call staged pending = some result) :
    result.progress = result.records.foldl next progress := by
  refine call_rule (motive := fun progress _ _ result =>
    result.progress = result.records.foldl next progress) ?_ ?_ ?_ ?_ called
  · exact fun _ _ _ _ => rfl
  · exact fun _ _ _ _ _ => rfl
  · intro progress staged pending _ _ _
    rw [outputCall_records, outputCall_progress]
    rfl
  · exact fun _ _ _ _ _ _ _ later => later

/-- A call takes an output last, or none. -/
inductive Takes (progress : Progress) (result : Call) : Prop
  | none (code : result.code = txnReady ∨ result.code = txnPartial)
      (same : result.progress.outputs = progress.outputs)
      (waits : progress.state = .txnOut → result.records = [])
  | one (code : result.code = txnPartialOut ∨ result.code = txnApproveOut) (output : Bytes)
      (taken : result.progress.outputs = progress.outputs ++ [output])

theorem outputs_next {progress : Progress} (earlier : progress.state ≠ .txnOut) (record : Bytes) :
    (progress.next record).outputs = progress.outputs := by
  cases progress with
  | startIn => rfl
  | txnIn inNum inputs =>
    rw [next]
    split <;> rfl
  | startOut => rfl
  | txnOut => exact absurd rfl earlier

theorem not_tookLast_next {progress : Progress} (earlier : progress.state ≠ .txnOut)
    (record : Bytes) : ¬ (progress.next record).TookLast := by
  rintro ⟨some, _⟩
  refine some ?_
  cases progress with
  | startIn => rfl
  | txnIn inNum inputs =>
    rw [next]
    split <;> rfl
  | startOut => rfl
  | txnOut => exact absurd rfl earlier

theorem outputs_next_output {progress : Progress} (reading : progress.state = .txnOut)
    (record : Bytes) : (progress.next record).outputs = progress.outputs ++ [record] := by
  cases progress with
  | startIn => cases reading
  | txnIn => cases reading
  | startOut => cases reading
  | txnOut => rfl

/-- The code of a call tells whether it took an output. -/
theorem call_takes {progress : Progress} {staged pending : Bytes} {result : Call}
    (called : progress.call staged pending = some result) : Takes progress result := by
  refine call_rule (motive := fun progress _ _ result => Takes progress result) ?_ ?_ ?_ ?_ called
  · exact fun _ _ _ _ => Takes.none (Or.inl rfl) rfl fun _ => rfl
  · exact fun _ _ _ _ _ => Takes.none (Or.inr rfl) rfl fun _ => rfl
  · intro progress staged pending _ _ reading
    refine Takes.one ?_ ((staged ++ pending).take progress.elementSize) ?_
    · rw [outputCall_code]
      split
      · exact Or.inl rfl
      · exact Or.inr rfl
    · rw [outputCall_progress, outputs_next_output reading]
  · intro progress staged pending later _ _ earlier takes
    cases takes with
    | none code same waits =>
      exact Takes.none code (same.trans (outputs_next earlier _)) fun reading =>
        absurd reading earlier
    | one code output taken =>
      refine Takes.one code output (taken.trans ?_)
      rw [outputs_next earlier]

end Progress

end LedgerNano
