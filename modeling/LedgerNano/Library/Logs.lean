/-
This file is a small library about logs: lists of events with the newest first.

`Always` says that every event of a log stands in a given relation to the log before it.
It is what an invariant over runs carries, one event at a time; `always_split` reads it
back for an event at any place of the log. `Extends` says that a log goes on with events
of one kind, and `Ignores` that such events do not change what is read of it.

What is read of a log is a recursion over it (`read`) in which a few kinds of events count
and all the others are passed over; `selected` collects the events of one kind.
-/

import Mathlib.Data.List.Basic

namespace Logs

variable {Event : Type}

/-- Every event of a log is related to the log before it. -/
def Always (relates : Event → List Event → Prop) : List Event → Prop
  | [] => True
  | event :: past => relates event past ∧ Always relates past

variable {relates : Event → List Event → Prop}

instance [∀ event past, Decidable (relates event past)] (log : List Event) :
    Decidable (Always relates log) :=
  match log with
  | [] => isTrue trivial
  | event :: past =>
    letI := instDecidableAlways past
    inferInstanceAs (Decidable (relates event past ∧ Always relates past))

theorem always_cons {event : Event} {past : List Event} :
    Always relates (event :: past) ↔ relates event past ∧ Always relates past := Iff.rfl

/-- Events that are related to any past may be put before a log. -/
theorem always_append {events past : List Event} (before : Always relates past)
    (each : ∀ event ∈ events, ∀ earlier, relates event earlier) :
    Always relates (events ++ past) := by
  induction events with
  | nil => exact before
  | cons event rest inductionHypothesis =>
    exact ⟨each event List.mem_cons_self _,
      inductionHypothesis fun other member => each other (List.mem_cons_of_mem _ member)⟩

/-- Events that are related to any past do not matter. -/
theorem always_append_iff {events past : List Event}
    (each : ∀ event ∈ events, ∀ earlier, relates event earlier) :
    Always relates (events ++ past) ↔ Always relates past := by
  refine ⟨fun always => ?_, fun before => always_append before each⟩
  clear each
  induction events with
  | nil => exact always
  | cons event rest inductionHypothesis => exact inductionHypothesis always.2

/-- In particular the events made of a list of items. -/
theorem always_map {Item : Type} {make : Item → Event} {items : List Item} {past : List Event}
    (before : Always relates past) (each : ∀ item earlier, relates (make item) earlier) :
    Always relates (items.map make ++ past) := by
  refine always_append before fun event member => ?_
  obtain ⟨item, _, rfl⟩ := List.mem_map.mp member
  exact each item

theorem always_reverse_map {Item : Type} {make : Item → Event} {items : List Item}
    {past : List Event} (before : Always relates past)
    (each : ∀ item earlier, relates (make item) earlier) :
    Always relates ((items.map make).reverse ++ past) := by
  rw [← List.map_reverse]
  exact always_map before each

theorem always_split {later past : List Event} {event : Event}
    (always : Always relates (later ++ event :: past)) : relates event past := by
  induction later with
  | nil => exact always.1
  | cons head rest inductionHypothesis => exact inductionHypothesis always.2

/-- A log goes on from a past with events of one kind. -/
def Extends (kind : Event → Prop) (past log : List Event) : Prop :=
  ∃ events, log = events ++ past ∧ ∀ event ∈ events, kind event

section Extends

variable {kind : Event → Prop} {past middle log : List Event}

theorem Extends.refl (past : List Event) : Extends kind past past :=
  ⟨[], rfl, fun _ member => absurd member List.not_mem_nil⟩

theorem Extends.cons {event : Event} (longer : Extends kind past log) (of : kind event) :
    Extends kind past (event :: log) := by
  obtain ⟨events, rfl, each⟩ := longer
  exact ⟨event :: events, rfl, List.forall_mem_cons.mpr ⟨of, each⟩⟩

theorem Extends.trans (first : Extends kind past middle) (second : Extends kind middle log) :
    Extends kind past log := by
  obtain ⟨early, rfl, eachEarly⟩ := first
  obtain ⟨late, rfl, eachLate⟩ := second
  exact ⟨late ++ early, (List.append_assoc late early past).symm,
    List.forall_mem_append.mpr ⟨eachLate, eachEarly⟩⟩

theorem Extends.append {events : List Event} (first : Extends kind past log)
    (each : ∀ event ∈ events, kind event) : Extends kind past (events ++ log) :=
  first.trans ⟨events, rfl, each⟩

theorem Extends.map {Item : Type} (first : Extends kind past log) (make : Item → Event)
    (each : ∀ item, kind (make item)) (items : List Item) :
    Extends kind past (items.map make ++ log) :=
  first.append (List.forall_mem_map.mpr fun item _ => each item)

theorem Extends.reverse_map {Item : Type} (first : Extends kind past log) (make : Item → Event)
    (each : ∀ item, kind (make item)) (items : List Item) :
    Extends kind past ((items.map make).reverse ++ log) := by
  rw [← List.map_reverse]
  exact first.map make each items.reverse

end Extends

section Ignores

variable {Value : Type} {kind : Event → Prop} {read : List Event → Value} {past log : List Event}

/-- What is read of a log is not changed by events of one kind. -/
def Ignores (kind : Event → Prop) (read : List Event → Value) : Prop :=
  ∀ event past, kind event → read (event :: past) = read past

theorem Ignores.append (ignores : Ignores kind read) {events : List Event}
    (each : ∀ event ∈ events, kind event) : read (events ++ past) = read past := by
  induction events with
  | nil => rfl
  | cons event rest inductionHypothesis =>
    obtain ⟨first, later⟩ := List.forall_mem_cons.mp each
    rw [List.cons_append, ignores event _ first, inductionHypothesis later]

theorem Ignores.of_extends (ignores : Ignores kind read) (longer : Extends kind past log) :
    read log = read past := by
  obtain ⟨events, rfl, each⟩ := longer
  exact ignores.append each

end Ignores

section Read

variable {Value : Type} {start : Value} {counts : Event → Option (List Event → Value → Value)}

/-- What is read of a log. An event that counts changes the value that is read of the log before
it, and may look at that log; any other event is passed over. -/
def read (start : Value) (counts : Event → Option (List Event → Value → Value)) :
    List Event → Value
  | [] => start
  | event :: past =>
    match counts event with
    | some change => change past (read start counts past)
    | none => read start counts past

theorem read_cons_some {event : Event} {change : List Event → Value → Value}
    (takes : counts event = some change) (past : List Event) :
    read start counts (event :: past) = change past (read start counts past) := by
  rw [read, takes]

theorem read_cons_none {event : Event} (skips : counts event = none) (past : List Event) :
    read start counts (event :: past) = read start counts past := by
  rw [read, skips]

/-- Events that do not count do not matter. -/
theorem ignores_read {kind : Event → Prop} (skips : ∀ event, kind event → counts event = none) :
    Ignores kind (read start counts) :=
  fun event past of => read_cons_none (skips event of) past

variable {Item : Type} {make : Item → Event}

theorem read_map (skips : ∀ item, counts (make item) = none) (items : List Item)
    (past : List Event) : read start counts (items.map make ++ past) = read start counts past := by
  have ignores : Ignores (fun event => counts event = none) (read start counts) :=
    ignores_read fun _ none => none
  exact ignores.append (List.forall_mem_map.mpr fun item _ => skips item)

theorem read_reverse_map (skips : ∀ item, counts (make item) = none) (items : List Item)
    (past : List Event) :
    read start counts ((items.map make).reverse ++ past) = read start counts past := by
  rw [← List.map_reverse]
  exact read_map skips items.reverse past

/-- Events that all change the value in the same way are a fold over their items. -/
theorem read_reverse_fold {change : Value → Item → Value}
    (takes : ∀ item, counts (make item) = some fun _ value => change value item)
    (items : List Item) (past : List Event) :
    read start counts ((items.map make).reverse ++ past) =
      items.foldl change (read start counts past) := by
  induction items generalizing past with
  | nil => rfl
  | cons item rest inductionHypothesis =>
    rw [List.map_cons, List.reverse_cons, List.append_assoc, inductionHypothesis,
      List.singleton_append, read_cons_some (takes item), List.foldl_cons]

end Read

section Selected

variable {Value : Type} {select : Event → Option Value}

/-- The events of one kind, each with the log before it. -/
def selected (select : Event → Option Value) : List Event → List (Value × List Event) :=
  read [] fun event => (select event).map fun value past others => (value, past) :: others

theorem selected_split {log past : List Event} {value : Value}
    (member : (value, past) ∈ selected select log) :
    ∃ later event, log = later ++ event :: past ∧ select event = some value := by
  induction log with
  | nil => exact absurd member List.not_mem_nil
  | cons event rest inductionHypothesis =>
    have deeper : (value, past) ∈ selected select rest →
        ∃ later other, event :: rest = later ++ other :: past ∧ select other = some value := by
      intro member
      obtain ⟨later, other, split, of⟩ := inductionHypothesis member
      exact ⟨event :: later, other, by rw [split, List.cons_append], of⟩
    cases of : select event with
    | none =>
      rw [selected, read_cons_none (by rw [of]; rfl)] at member
      exact deeper member
    | some chosen =>
      rw [selected, read_cons_some (by rw [of]; rfl)] at member
      rcases List.mem_cons.mp member with here | further
      · cases here
        exact ⟨[], event, rfl, of⟩
      · exact deeper further

end Selected

end Logs
