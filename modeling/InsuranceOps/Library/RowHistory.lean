/-
This file develops how the rows of a table evolve when none is ever deleted:
every row is still there at its place, has moved along a relation, and the new
rows come after the old ones. Appending and updating rows are such moves, moves
compose, and a row that is looked up by a key the relation keeps is found again
in a later form.
-/

import InsuranceOps.Library.Table
import Mathlib.Data.List.Forall2

namespace Relational

variable {Row : Type} {relates : Row → Row → Prop} {before middle after : List Row}

/-- The old rows moved along the relation, each at its place, and new rows follow them. -/
def Evolves (relates : Row → Row → Prop) (before after : List Row) : Prop :=
  ∃ kept added, after = kept ++ added ∧ List.Forall₂ relates before kept

theorem evolves_append (reflexive : ∀ row, relates row row) (rows added : List Row) :
    Evolves relates rows (rows ++ added) :=
  ⟨rows, added, rfl, List.forall₂_same.mpr fun row _ => reflexive row⟩

theorem evolves_refl (reflexive : ∀ row, relates row row) (rows : List Row) :
    Evolves relates rows rows :=
  ⟨rows, [], (List.append_nil rows).symm, List.forall₂_same.mpr fun row _ => reflexive row⟩

/-- Rows are updated along the relation. -/
theorem evolves_updateRows (reflexive : ∀ row, relates row row) {selects : Row → Bool}
    {change : Row → Row} {rows : List Row}
    (moves : ∀ row ∈ rows, selects row = true → relates row (change row)) :
    Evolves relates rows (updateRows selects change rows) := by
  refine ⟨_, [], (List.append_nil _).symm, ?_⟩
  rw [updateRows, List.forall₂_map_right_iff]
  refine List.forall₂_same.mpr fun row stored => ?_
  by_cases selected : selects row = true
  · rw [if_pos selected]
    exact moves row stored selected
  · rw [if_neg selected]
    exact reflexive row

theorem forall₂_compose
    (transitive : ∀ old between row, relates old between → relates between row →
      relates old row) {last : List Row}
    (first : List.Forall₂ relates before middle) (second : List.Forall₂ relates middle last) :
    List.Forall₂ relates before last := by
  induction first generalizing last with
  | nil => exact second
  | cons here _ inductionHypothesis =>
    cases second with
    | cons next rest => exact .cons (transitive _ _ _ here next) (inductionHypothesis rest)

/-- What was added first moves along with the rest. -/
theorem Evolves.trans
    (transitive : ∀ old between row, relates old between → relates between row →
      relates old row)
    (first : Evolves relates before middle) (second : Evolves relates middle after) :
    Evolves relates before after := by
  obtain ⟨kept, added, rfl, moved⟩ := first
  obtain ⟨later, new, rfl, movedLater⟩ := second
  have early := List.forall₂_take kept.length movedLater
  rw [List.take_left] at early
  refine ⟨later.take kept.length, later.drop kept.length ++ new, ?_,
    forall₂_compose transitive moved early⟩
  rw [← List.append_assoc, List.take_append_drop]

/-- Every old row has a later form. -/
theorem Evolves.exists_mem (evolves : Evolves relates before after) {old : Row}
    (stored : old ∈ before) : ∃ row ∈ after, relates old row := by
  obtain ⟨kept, added, rfl, moved⟩ := evolves
  obtain ⟨index, bound, rfl⟩ := List.getElem_of_mem stored
  obtain ⟨length, each⟩ := List.forall₂_iff_get.mp moved
  exact ⟨kept.get ⟨index, length ▸ bound⟩, List.mem_append_left _ (List.getElem_mem _),
    each index bound (length ▸ bound)⟩

/-- A row looked up by a key the relation keeps is found again, in a later form. -/
theorem Evolves.find? {Key : Type} [DecidableEq Key] {column : Row → Key}
    (keeps : ∀ old row, relates old row → column row = column old)
    (evolves : Evolves relates before after) {key : Key} {old : Row}
    (found : before.find? (fun row => column row = key) = some old) :
    ∃ row, after.find? (fun row => column row = key) = some row ∧ relates old row := by
  obtain ⟨kept, added, rfl, moved⟩ := evolves
  suffices early : ∃ row, kept.find? (fun row => column row = key) = some row ∧
      relates old row by
    obtain ⟨row, foundRow, later⟩ := early
    exact ⟨row, by rw [List.find?_append, foundRow, Option.some_or], later⟩
  induction moved with
  | nil => cases found
  | @cons first next _ _ here _ inductionHypothesis =>
    by_cases same : column first = key
    · have sameNext : column next = key := (keeps _ _ here).trans same
      rw [List.find?_cons_of_pos (by simpa using same), Option.some.injEq] at found
      rw [← found]
      exact ⟨next, List.find?_cons_of_pos (by simpa using sameNext), here⟩
    · have other : column next ≠ key := fun equal => same ((keeps _ _ here).symm.trans equal)
      rw [List.find?_cons_of_neg (by simpa using same)] at found
      rw [List.find?_cons_of_neg (by simpa using other)]
      exact inductionHypothesis found

/-! ### What new rows are -/

/-- The old rows moved along the relation, each at its place, and new rows of a certain kind follow
them. -/
def EvolvesWith (relates : Row → Row → Prop) (new : Row → Prop) (before after : List Row) : Prop :=
  ∃ kept added, after = kept ++ added ∧ List.Forall₂ relates before kept ∧ ∀ row ∈ added, new row

variable {new : Row → Prop}

theorem EvolvesWith.evolves (evolves : EvolvesWith relates new before after) :
    Evolves relates before after := by
  obtain ⟨kept, added, same, moved, -⟩ := evolves
  exact ⟨kept, added, same, moved⟩

theorem evolvesWith_append (reflexive : ∀ row, relates row row) (rows : List Row)
    {added : List Row} (allowed : ∀ row ∈ added, new row) :
    EvolvesWith relates new rows (rows ++ added) :=
  ⟨rows, added, rfl, List.forall₂_same.mpr fun row _ => reflexive row, allowed⟩

theorem evolvesWith_refl (reflexive : ∀ row, relates row row) (rows : List Row) :
    EvolvesWith relates new rows rows :=
  ⟨rows, [], (List.append_nil rows).symm, List.forall₂_same.mpr fun row _ => reflexive row,
    fun _ member => absurd member List.not_mem_nil⟩

theorem evolvesWith_updateRows (reflexive : ∀ row, relates row row) {selects : Row → Bool}
    {change : Row → Row} {rows : List Row}
    (moves : ∀ row ∈ rows, selects row = true → relates row (change row)) :
    EvolvesWith relates new rows (updateRows selects change rows) := by
  refine ⟨_, [], (List.append_nil _).symm, ?_, fun _ member => absurd member List.not_mem_nil⟩
  rw [updateRows, List.forall₂_map_right_iff]
  refine List.forall₂_same.mpr fun row stored => ?_
  by_cases selected : selects row = true
  · rw [if_pos selected]
    exact moves row stored selected
  · rw [if_neg selected]
    exact reflexive row

/-- A row that is updated moved along the relation if the table did. -/
theorem EvolvesWith.selected {Key : Type} [DecidableEq Key] (column : Row → Key)
    (identified : ∀ old row, relates old row → column row = column old) {selects : Row → Bool}
    {change : Row → Row} {rows : List Row}
    (evolves : EvolvesWith relates new rows (updateRows selects change rows))
    (keeps : ∀ row, column (change row) = column row) {key : Key} {row : Row}
    (found : rows.find? (fun row => column row = key) = some row)
    (chosen : selects row = true) : relates row (change row) := by
  obtain ⟨later, lookup, moved⟩ := evolves.evolves.find? identified found
  rw [find?_updateRows column selects change keeps, found, Option.map_some, if_pos chosen]
    at lookup
  rw [Option.some.inj lookup]
  exact moved

/-- Where keys are unique, updating the row with a key is a move of that row. -/
theorem evolvesWith_update_iff {Key : Type} [DecidableEq Key] (column : Row → Key)
    (reflexive : ∀ row, relates row row)
    (identified : ∀ old row, relates old row → column row = column old) {change : Row → Row}
    (keeps : ∀ row, column (change row) = column row) {rows : List Row}
    (distinct : (rows.map column).Nodup) {key : Key} {row : Row}
    (found : rows.find? (fun row => column row = key) = some row) :
    EvolvesWith relates new rows (updateRows (fun row => column row = key) change rows) ↔
      relates row (change row) := by
  constructor
  · exact fun evolves => evolves.selected column identified keeps found
      (decide_eq_true (mem_of_find? column found).2)
  · intro moves
    refine evolvesWith_updateRows reflexive fun other stored selected => ?_
    obtain rfl := eq_of_find? column distinct found stored (of_decide_eq_true selected)
    exact moves

/-- What held of the old rows and of the new ones holds of all, where the relation keeps it. -/
theorem EvolvesWith.forall_mem {holds : Row → Prop}
    (evolves : EvolvesWith relates new before after)
    (keeps : ∀ old row, relates old row → holds old → holds row)
    (allowed : ∀ row, new row → holds row) (held : ∀ row ∈ before, holds row) :
    ∀ row ∈ after, holds row := by
  obtain ⟨kept, added, rfl, moved, fresh⟩ := evolves
  intro row stored
  rcases List.mem_append.mp stored with later | added
  · obtain ⟨index, bound, rfl⟩ := List.getElem_of_mem later
    obtain ⟨length, each⟩ := List.forall₂_iff_get.mp moved
    exact keeps _ _ (each index (length ▸ bound) bound) (held _ (List.getElem_mem _))
  · exact allowed row (fresh row added)

/-! ### Where rows come from -/

/-- Every later row is a later form of an old one, or a new one of a certain kind. -/
def Originates (relates : Row → Row → Prop) (new : Row → Prop) (before after : List Row) : Prop :=
  ∀ row ∈ after, (∃ old ∈ before, relates old row) ∨ new row

theorem originates_refl (reflexive : ∀ row, relates row row) {new : Row → Prop}
    (rows : List Row) : Originates relates new rows rows :=
  fun row stored => .inl ⟨row, stored, reflexive row⟩

theorem originates_append (reflexive : ∀ row, relates row row) {new : Row → Prop}
    {rows added : List Row} (allowed : ∀ row ∈ added, new row) :
    Originates relates new rows (rows ++ added) := by
  intro row stored
  rcases List.mem_append.mp stored with old | fresh
  · exact .inl ⟨row, old, reflexive row⟩
  · exact .inr (allowed row fresh)

theorem originates_updateRows (reflexive : ∀ row, relates row row) {new : Row → Prop}
    {selects : Row → Bool} {change : Row → Row} {rows : List Row}
    (moves : ∀ row ∈ rows, selects row = true → relates row (change row) ∨ new (change row)) :
    Originates relates new rows (updateRows selects change rows) := by
  intro row stored
  obtain ⟨old, oldStored, rfl⟩ := mem_updateRows.mp stored
  by_cases selected : selects old = true
  · rw [if_pos selected]
    exact (moves old oldStored selected).imp_left fun moved => ⟨old, oldStored, moved⟩
  · rw [if_neg selected]
    exact .inl ⟨old, oldStored, reflexive old⟩

/-- What held of the old rows and of the new ones holds of all, where later forms keep it. -/
theorem Originates.forall_mem {new holds : Row → Prop}
    (origin : Originates relates new before after)
    (keeps : ∀ old row, relates old row → holds old → holds row)
    (allowed : ∀ row, new row → holds row) (held : ∀ row ∈ before, holds row) :
    ∀ row ∈ after, holds row := by
  intro row stored
  rcases origin row stored with ⟨old, oldStored, later⟩ | fresh
  · exact keeps old row later (held old oldStored)
  · exact allowed row fresh

end Relational
