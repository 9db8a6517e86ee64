/-
This file is a small library of fixed-size memory: a block of `size` cells that is
read by slices and written by runs of values, as a C array is by `memmove`.

A write that runs past the end keeps the block's size and drops what does not fit,
so that a block can never change its length; whether a program's write fits is a
question about the program, asked where the write is made.
-/

import Mathlib.Data.List.TakeDrop
import Mathlib.Tactic.Ring

/-- A block of memory of a fixed number of cells. -/
structure Cells (α : Type) (size : Nat) where
  contents : List α
  length_contents : contents.length = size

namespace Cells

variable {α : Type} {size : Nat}

/-! ### Operations -/

/-- The block whose cells all hold one value. -/
def fill (value : α) : Cells α size :=
  ⟨List.replicate size value, List.length_replicate⟩

/-- The `count` cells from `start`. -/
def read (block : Cells α size) (start count : Nat) : List α :=
  (block.contents.drop start).take count

/-- Store a run of values from `start`. -/
def write (block : Cells α size) (start : Nat) (values : List α) : Cells α size :=
  ⟨(block.contents.take start ++ values ++
      block.contents.drop (start + values.length)).take size, by
    have total := block.length_contents
    simp only [List.length_take, List.length_append, List.length_drop]
    omega⟩

/-- One cell. -/
def get (block : Cells α size) (index : Nat) (inside : index < size) : α :=
  block.contents.get ⟨index, by rw [block.length_contents]; exact inside⟩

/-- Store one cell. -/
def set (block : Cells α size) (index : Nat) (value : α) : Cells α size :=
  ⟨block.contents.set index value, by rw [List.length_set, block.length_contents]⟩

@[ext]
theorem ext {first second : Cells α size} (same : first.contents = second.contents) :
    first = second := by
  cases first
  cases second
  cases same
  rfl

/-! ### Reading -/

@[simp]
theorem read_zero (block : Cells α size) (start : Nat) : block.read start 0 = [] := by
  simp [read]

theorem length_read (block : Cells α size) (start count : Nat) (fits : start + count ≤ size) :
    (block.read start count).length = count := by
  have total := block.length_contents
  simp only [read, List.length_take, List.length_drop]
  omega

theorem length_read_le (block : Cells α size) (start count : Nat) :
    (block.read start count).length ≤ count := by
  simp only [read, List.length_take]
  omega

theorem read_add (block : Cells α size) (start first second : Nat) :
    block.read start (first + second) =
      block.read start first ++ block.read (start + first) second := by
  simp only [read, List.take_add, List.drop_drop]

/-- A slice of a slice. -/
theorem take_read (block : Cells α size) (start count shorter : Nat) (le : shorter ≤ count) :
    (block.read start count).take shorter = block.read start shorter := by
  rw [read, read, List.take_take, Nat.min_eq_left le]

theorem drop_read (block : Cells α size) (start count skipped : Nat) :
    (block.read start count).drop skipped = block.read (start + skipped) (count - skipped) := by
  rw [read, read, List.drop_take, List.drop_drop]

theorem read_all (block : Cells α size) : block.read 0 size = block.contents := by
  rw [read, List.drop_zero, List.take_of_length_le (le_of_eq block.length_contents)]

theorem mem_of_mem_read (block : Cells α size) (start count : Nat) {value : α}
    (member : value ∈ block.read start count) : value ∈ block.contents :=
  List.mem_of_mem_drop (List.mem_of_mem_take member)

/-! ### Reading after a write -/

/-- A write brings no values but its own into a block. -/
theorem mem_of_mem_write (block : Cells α size) (start : Nat) (values : List α) {value : α}
    (member : value ∈ (block.write start values).contents) :
    value ∈ values ∨ value ∈ block.contents := by
  rcases List.mem_append.mp (List.mem_of_mem_take member) with front | back
  · rcases List.mem_append.mp front with earlier | written
    · exact Or.inr (List.mem_of_mem_take earlier)
    · exact Or.inl written
  · exact Or.inr (List.mem_of_mem_drop back)

theorem contents_write (block : Cells α size) (start : Nat) (values : List α)
    (fits : start + values.length ≤ size) :
    (block.write start values).contents =
      block.contents.take start ++ values ++ block.contents.drop (start + values.length) := by
  have total := block.length_contents
  refine List.take_of_length_le ?_
  simp only [List.length_append, List.length_take, List.length_drop]
  omega

/-- The cells from the start of a block up to the end of a run just written. -/
theorem read_write_prefix (block : Cells α size) (start : Nat) (values : List α)
    (fits : start + values.length ≤ size) :
    (block.write start values).read 0 (start + values.length) = block.read 0 start ++ values := by
  have total := block.length_contents
  have front : (block.contents.take start ++ values).length = start + values.length := by
    simp only [List.length_append, List.length_take]
    omega
  rw [read, contents_write block start values fits, List.drop_zero, List.take_append_of_le_length
    (le_of_eq front.symm), List.take_of_length_le (le_of_eq front), read, List.drop_zero]

theorem read_write_self (block : Cells α size) (start : Nat) (values : List α)
    (fits : start + values.length ≤ size) :
    (block.write start values).read start values.length = values := by
  have whole := read_write_prefix block start values fits
  have front : (block.read 0 start).length = start :=
    block.length_read 0 start (by omega)
  have dropped := congrArg (List.drop start) whole
  rw [drop_read, Nat.add_sub_cancel_left, Nat.zero_add, List.drop_append_of_le_length
    (le_of_eq front.symm), List.drop_eq_nil_of_le (le_of_eq front), List.nil_append] at dropped
  exact dropped

/-- A write leaves the cells after it as they were. -/
theorem read_write_after (block : Cells α size) (start : Nat) (values : List α)
    (beyond count : Nat) (fits : start + values.length ≤ size)
    (after : start + values.length ≤ beyond) :
    (block.write start values).read beyond count = block.read beyond count := by
  have total := block.length_contents
  have front : (block.contents.take start ++ values).length = start + values.length := by
    simp only [List.length_append, List.length_take]
    omega
  rw [read, read, contents_write block start values fits, List.drop_append, front,
    List.drop_eq_nil_of_le (by omega), List.nil_append, List.drop_drop,
    Nat.add_sub_cancel' after]

/-- A write leaves the cells before it as they were. -/
theorem read_write_before (block : Cells α size) (start : Nat) (values : List α)
    (first count : Nat) (fits : start + values.length ≤ size) (before : first + count ≤ start) :
    (block.write start values).read first count = block.read first count := by
  have total := block.length_contents
  have front : (block.contents.take start).length = start := by
    rw [List.length_take]
    omega
  rw [read, read, contents_write block start values fits, List.append_assoc, List.drop_append,
    List.take_append, List.length_drop, front,
    show count - (start - first) = 0 by omega, List.take_zero, List.append_nil, List.drop_take,
    List.take_take, Nat.min_eq_left (by omega)]

@[simp]
theorem write_nil (block : Cells α size) (start : Nat) : block.write start [] = block := by
  apply ext
  rw [write]
  simp only [List.append_nil, List.length_nil, Nat.add_zero, List.take_append_drop]
  exact List.take_of_length_le (le_of_eq block.length_contents)

/-- Two runs written one after the other are one run. -/
theorem write_write_append (block : Cells α size) (start : Nat) (first second : List α)
    (fits : start + (first ++ second).length ≤ size) :
    (block.write start first).write (start + first.length) second =
      block.write start (first ++ second) := by
  have total := block.length_contents
  rw [List.length_append] at fits
  have front : (block.contents.take start ++ first).length = start + first.length := by
    simp only [List.length_append, List.length_take]
    omega
  apply ext
  rw [contents_write _ _ _ (by omega), contents_write _ _ _ (by omega),
    contents_write _ _ _ (by rw [List.length_append]; omega), List.take_append_of_le_length
    (le_of_eq front.symm), List.take_of_length_le (le_of_eq front), List.drop_append, front,
    List.drop_eq_nil_of_le (by rw [front]; omega), List.nil_append, List.drop_drop]
  simp only [List.append_assoc, List.length_append]
  congr 4
  omega

/-! ### Single cells -/

theorem read_succ (block : Cells α size) (start count : Nat) (inside : start < size) :
    block.read start (count + 1) = block.get start inside :: block.read (start + 1) count := by
  have bound : start < block.contents.length := by
    rw [block.length_contents]
    exact inside
  rw [read, read, List.drop_eq_getElem_cons bound, List.take_succ_cons]
  rfl

theorem set_eq_write (block : Cells α size) (index : Nat) (value : α) (inside : index < size) :
    block.set index value = block.write index [value] := by
  have total := block.length_contents
  apply ext
  rw [contents_write _ _ _ (by rw [List.length_singleton]; omega), set]
  simp only [List.length_singleton]
  rw [List.set_eq_take_append_cons_drop, if_pos (by omega), List.append_assoc,
    List.singleton_append]

@[simp]
theorem get_set_self (block : Cells α size) (index : Nat) (value : α) (inside : index < size) :
    (block.set index value).get index inside = value := by
  simp [get, set]

theorem get_set_other (block : Cells α size) (index other : Nat) (value : α)
    (inside : other < size) (different : other ≠ index) :
    (block.set index value).get other inside = block.get other inside := by
  simp [get, set, List.getElem_set_ne (Ne.symm different)]

theorem headD_read_one (block : Cells α size) (index : Nat) (default : α) :
    (block.read index 1).headD default = block.contents.getD index default := by
  rw [read, List.headD_eq_head?_getD, List.head?_take, if_neg Nat.one_ne_zero, List.head?_drop,
    List.getD_eq_getElem?_getD]

theorem getD_write_one (block : Cells α size) {index : Nat} (inside : index < size)
    (value default : α) (other : Nat) :
    (block.write index [value]).contents.getD other default =
      if other = index then value else block.contents.getD other default := by
  rw [← block.set_eq_write index value inside, set]
  simp only [List.getD_eq_getElem?_getD, List.getElem?_set]
  by_cases same : index = other
  · rw [if_pos same, if_pos same.symm, if_pos (lt_of_lt_of_eq inside block.length_contents.symm)]
    rfl
  · rw [if_neg same, if_neg (Ne.symm same)]

theorem mem_read_one (block : Cells α size) (index : Nat) (value : α) :
    value ∈ block.read index 1 ↔ block.contents[index]? = some value := by
  rw [read, List.take_one, List.head?_drop, Option.mem_toList]

/-- A write at the start changes nothing exactly when the values are there already. -/
theorem write_start_eq_self_iff (block : Cells α size) (values : List α)
    (fits : values.length ≤ size) : block.write 0 values = block ↔ values <+: block.contents := by
  have contents := block.contents_write 0 values (by rw [Nat.zero_add]; exact fits)
  rw [List.take_zero, List.nil_append, Nat.zero_add] at contents
  constructor
  · intro same
    rw [same] at contents
    exact ⟨_, contents.symm⟩
  · rintro ⟨rest, split⟩
    apply ext
    rw [contents, ← split, List.drop_left]

/-! ### What a write changes -/

/-- The cell at a place after a write. -/
theorem getElem?_write (block : Cells α size) {start : Nat} {values : List α}
    (fits : start + values.length ≤ size) (place : Nat) :
    (block.write start values).contents[place]? =
      if start ≤ place ∧ place < start + values.length then values[place - start]?
      else block.contents[place]? := by
  have total := block.length_contents
  have front : (block.contents.take start).length = start := by
    rw [List.length_take]
    omega
  rw [contents_write block start values fits, List.append_assoc]
  by_cases before : place < start
  · rw [if_neg (by omega), List.getElem?_append_left (by omega), List.getElem?_take_of_lt before]
  · rw [List.getElem?_append_right (by omega), front]
    by_cases within : place < start + values.length
    · rw [if_pos ⟨not_lt.mp before, within⟩, List.getElem?_append_left (by omega)]
    · rw [if_neg fun both => within both.2, List.getElem?_append_right (by omega),
        List.getElem?_drop]
      congr 1
      omega

/-- Two blocks hold the same outside a range of cells. -/
def ChangesOnly (start count : Nat) (before after : Cells α size) : Prop :=
  ∀ place, place < start ∨ start + count ≤ place → after.contents[place]? = before.contents[place]?

section ChangesOnly

variable {start count : Nat} {before after : Cells α size}

theorem ChangesOnly.refl (start count : Nat) (block : Cells α size) :
    ChangesOnly start count block block :=
  fun _ _ => rfl

/-- A write inside the range. -/
theorem ChangesOnly.write {first : Nat} {values : List α}
    (only : ChangesOnly start count before after)
    (fits : first + values.length ≤ size) (inside : start ≤ first)
    (ends : first + values.length ≤ start + count) :
    ChangesOnly start count before (after.write first values) := by
  intro place outside
  rw [getElem?_write after fits, if_neg (by omega)]
  exact only place outside

/-- Inside the range a write does not matter. -/
theorem changesOnly_write_iff {values : List α} (fits : start + values.length ≤ size)
    (ends : values.length ≤ count) :
    ChangesOnly start count before (after.write start values) ↔
      ChangesOnly start count before after := by
  refine ⟨fun only place outside => ?_, fun only => only.write fits le_rfl (by omega)⟩
  have here := only place outside
  rw [getElem?_write after fits, if_neg (by omega)] at here
  exact here

end ChangesOnly

/-! ### Blocks that agree up to a place -/

/-- Two blocks hold the same in the cells before a limit. -/
def AgreeTo (limit : Nat) (first second : Cells α size) : Prop :=
  first.contents.take limit = second.contents.take limit

section AgreeTo

variable {limit : Nat} {first second : Cells α size}

theorem AgreeTo.mono {shorter : Nat} (agree : AgreeTo limit first second)
    (le : shorter ≤ limit) : AgreeTo shorter first second := by
  have same := congrArg (List.take shorter) agree
  rw [List.take_take, List.take_take, Nat.min_eq_left le] at same
  exact same

/-- A slice before the limit is the same in both. -/
theorem AgreeTo.read {start count : Nat} (agree : AgreeTo limit first second)
    (within : start + count ≤ limit) : first.read start count = second.read start count := by
  have same := congrArg (List.drop start) (agree.mono within)
  rw [List.drop_take, List.drop_take, Nat.add_sub_cancel_left] at same
  exact same

/-- A write at or before the limit carries it to its own end. -/
theorem AgreeTo.write {start : Nat} {values : List α} (agree : AgreeTo limit first second)
    (near : start ≤ limit) (fits : start + values.length ≤ size) :
    AgreeTo (max limit (start + values.length)) (first.write start values)
      (second.write start values) := by
  have front : first.contents.take start = second.contents.take start := agree.mono near
  have back : (first.contents.drop (start + values.length)).take
        (max limit (start + values.length) - (start + values.length)) =
      (second.contents.drop (start + values.length)).take
        (max limit (start + values.length) - (start + values.length)) := by
    rcases Nat.le_total limit (start + values.length) with short | long
    · rw [Nat.max_eq_right short, Nat.sub_self, List.take_zero, List.take_zero]
    · rw [Nat.max_eq_left long, ← List.drop_take, ← List.drop_take]
      exact congrArg (List.drop (start + values.length)) agree
  have length : ∀ block : Cells α size,
      (block.contents.take start ++ values).length = start + values.length := by
    intro block
    rw [List.length_append, List.length_take, block.length_contents]
    omega
  have taken : ∀ block : Cells α size,
      (block.write start values).contents.take (max limit (start + values.length)) =
        block.contents.take start ++ values ++ (block.contents.drop (start + values.length)).take
          (max limit (start + values.length) - (start + values.length)) := by
    intro block
    rw [contents_write block start values fits, List.take_append, length,
      List.take_of_length_le (by rw [length]; omega)]
  rw [AgreeTo, taken, taken, front, back]

end AgreeTo

end Cells
