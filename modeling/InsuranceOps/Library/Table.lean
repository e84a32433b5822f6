/-
This file develops database tables as lists of rows with unique constraints. A
table carries the proof that no two of its rows agree on the columns of a
constraint, so a table that violates its schema cannot be built: inserting
either refuses the row and names the constraint, or appends it, and updating
rewrites rows without touching a constrained column. The rules say what both
do to the rows, to a lookup by key and to a selection by columns the update
leaves alone.
-/

import Mathlib.Logic.Function.Basic
import Mathlib.Data.List.Nodup
import Mathlib.Tactic.TypeStar

namespace Relational

/-- A unique constraint of a table: its name and the columns no two rows may agree on. -/
structure UniqueKey (Row Name : Type) where
  name : Name
  Key : Type
  [decidable : DecidableEq Key]
  key : Row → Key

attribute [instance] UniqueKey.decidable

/-- A table: its rows in insertion order, with every unique constraint satisfied. -/
structure Table {Row Name : Type} (keys : List (UniqueKey Row Name)) where
  rows : List Row
  distinct : ∀ unique ∈ keys, (rows.map unique.key).Nodup

variable {Row Name : Type} {keys : List (UniqueKey Row Name)}

/-- The empty table. -/
def Table.empty : Table keys := ⟨[], fun _ _ => List.nodup_nil⟩

@[simp] theorem Table.empty_rows : (Table.empty : Table keys).rows = [] := rfl

/-! ### Insertion -/

/-- The first constraint a new row violates. -/
def Table.violated (table : Table keys) (row : Row) : Option (UniqueKey Row Name) :=
  keys.find? fun unique => table.rows.any fun other => unique.key other = unique.key row

theorem Table.violated_none {table : Table keys} {row : Row}
    (free : table.violated row = none) {unique : UniqueKey Row Name} (member : unique ∈ keys)
    {other : Row} (stored : other ∈ table.rows) : unique.key other ≠ unique.key row := by
  have absent := List.find?_eq_none.mp free unique member
  simp only [List.any_eq_true, decide_eq_true_eq, not_exists, not_and] at absent
  exact absent other stored

theorem Table.append_distinct (table : Table keys) (row : Row)
    (free : table.violated row = none) :
    ∀ unique ∈ keys, ((table.rows ++ [row]).map unique.key).Nodup := by
  intro unique member
  rw [List.map_append, List.map_singleton, List.nodup_append]
  refine ⟨table.distinct unique member, List.nodup_singleton _, ?_⟩
  intro first stored second new
  obtain ⟨other, otherStored, rfl⟩ := List.mem_map.mp stored
  rw [List.mem_singleton.mp new]
  exact Table.violated_none free member otherStored

/-- Insert a row, or name the constraint that refuses it. -/
def Table.insert (table : Table keys) (row : Row) : Except Name (Table keys) :=
  match free : table.violated row with
  | some unique => .error unique.name
  | none => .ok ⟨table.rows ++ [row], table.append_distinct row free⟩

/-- A successful insertion appends the row, which clashes with no stored row. -/
theorem Table.insert_ok {table next : Table keys} {row : Row}
    (inserted : table.insert row = .ok next) :
    next.rows = table.rows ++ [row] ∧
      ∀ unique ∈ keys, ∀ other ∈ table.rows, unique.key other ≠ unique.key row := by
  unfold Table.insert at inserted
  split at inserted
  · cases inserted
  · rename_i free
    cases inserted
    exact ⟨rfl, fun unique member other stored => Table.violated_none free member stored⟩

/-- A refused insertion names a constraint on which a stored row clashes with the new one. -/
theorem Table.insert_error {table : Table keys} {row : Row} {name : Name}
    (refused : table.insert row = .error name) :
    ∃ unique ∈ keys, unique.name = name ∧
      ∃ other ∈ table.rows, unique.key other = unique.key row := by
  unfold Table.insert at refused
  split at refused
  · rename_i unique clash
    cases refused
    have found := List.find?_some clash
    simp only [List.any_eq_true, decide_eq_true_eq] at found
    exact ⟨unique, List.mem_of_find?_eq_some clash, rfl, found⟩
  · cases refused

/-! ### Update -/

/-- Change the selected rows of a list. -/
def updateRows (selects : Row → Bool) (change : Row → Row) (rows : List Row) : List Row :=
  rows.map fun row => if selects row then change row else row

theorem updateRows_map {Column : Type*} (selects : Row → Bool) (change : Row → Row)
    (column : Row → Column) (keeps : ∀ row, column (change row) = column row)
    (rows : List Row) : (updateRows selects change rows).map column = rows.map column := by
  unfold updateRows
  rw [List.map_map]
  refine List.map_congr_left fun row _ => ?_
  show column (if selects row then change row else row) = column row
  split
  · exact keeps row
  · rfl

theorem mem_updateRows {selects : Row → Bool} {change : Row → Row} {rows : List Row}
    {row : Row} :
    row ∈ updateRows selects change rows ↔
      ∃ old ∈ rows, (if selects old then change old else old) = row :=
  List.mem_map

@[simp] theorem updateRows_length (selects : Row → Bool) (change : Row → Row)
    (rows : List Row) : (updateRows selects change rows).length = rows.length :=
  List.length_map _

/-- A row the update does not select is still there. -/
theorem mem_updateRows_of_not {selects : Row → Bool} {change : Row → Row} {rows : List Row}
    {row : Row} (stored : row ∈ rows) (other : selects row = false) :
    row ∈ updateRows selects change rows :=
  mem_updateRows.mpr ⟨row, stored, by rw [if_neg (by rw [other]; decide)]⟩

/-- A row the update selects is there in its changed form. -/
theorem mem_updateRows_of_selects {selects : Row → Bool} {change : Row → Row}
    {rows : List Row} {row : Row} (stored : row ∈ rows) (selected : selects row = true) :
    change row ∈ updateRows selects change rows :=
  mem_updateRows.mpr ⟨row, stored, by rw [if_pos selected]⟩

/-- Selecting by columns the update keeps commutes with the update. -/
theorem filter_updateRows (selects : Row → Bool) (change : Row → Row) (keep : Row → Bool)
    (keeps : ∀ row, keep (change row) = keep row) (rows : List Row) :
    (updateRows selects change rows).filter keep =
      updateRows selects change (rows.filter keep) := by
  unfold updateRows
  rw [List.filter_map]
  refine congrArg _ (List.filter_congr fun row _ => ?_)
  show keep (if selects row then change row else row) = keep row
  split
  · exact keeps row
  · rfl

/-- An update that selects no row of the list changes nothing. -/
theorem updateRows_of_not (selects : Row → Bool) (change : Row → Row) (rows : List Row)
    (none : ∀ row ∈ rows, selects row = false) : updateRows selects change rows = rows := by
  unfold updateRows
  conv_rhs => rw [← List.map_id rows]
  refine List.map_congr_left fun row member => ?_
  show (if selects row then change row else row) = row
  rw [if_neg (by rw [none row member]; decide)]

theorem updateRows_append (selects : Row → Bool) (change : Row → Row) (first second : List Row) :
    updateRows selects change (first ++ second) =
      updateRows selects change first ++ updateRows selects change second :=
  List.map_append

/-- Updating the row just appended, when no earlier row is selected. -/
theorem updateRows_concat (selects : Row → Bool) (change : Row → Row) (rows : List Row)
    (row : Row) (none : ∀ other ∈ rows, selects other = false) (selected : selects row = true) :
    updateRows selects change (rows ++ [row]) = rows ++ [change row] := by
  rw [updateRows_append, updateRows_of_not selects change rows none]
  exact congrArg (fun changed => rows ++ [changed]) (if_pos selected)

/-- Two updates of the same rows, one after the other, are one update. -/
theorem updateRows_updateRows (selects : Row → Bool) (first second : Row → Row)
    (keeps : ∀ row, selects (first row) = selects row) (rows : List Row) :
    updateRows selects second (updateRows selects first rows) =
      updateRows selects (fun row => second (first row)) rows := by
  unfold updateRows
  rw [List.map_map]
  refine List.map_congr_left fun row _ => ?_
  show (if selects (if selects row then first row else row) then _ else _) = _
  by_cases selected : selects row = true
  · simp only [keeps row, selected, if_true]
  · simp only [if_neg selected]

theorem updateRows_id (selects : Row → Bool) (rows : List Row) :
    updateRows selects id rows = rows := by
  unfold updateRows
  simp only [id_eq, ite_self, List.map_id']

/-- Update the selected rows by a change that keeps every constrained column. -/
def Table.update (table : Table keys) (selects : Row → Bool) (change : Row → Row)
    (keeps : ∀ unique ∈ keys, ∀ row, unique.key (change row) = unique.key row) : Table keys :=
  ⟨updateRows selects change table.rows, fun unique member => by
    rw [updateRows_map selects change unique.key (keeps unique member)]
    exact table.distinct unique member⟩

@[simp] theorem Table.update_rows (table : Table keys) (selects : Row → Bool)
    (change : Row → Row)
    (keeps : ∀ unique ∈ keys, ∀ row, unique.key (change row) = unique.key row) :
    (table.update selects change keeps).rows = updateRows selects change table.rows := rfl

/-! ### Lookup by key -/

section Lookup

variable {Key : Type} [DecidableEq Key] (column : Row → Key)

/-- With distinct keys, a stored row is the one a lookup by its key finds. -/
theorem find?_of_mem {rows : List Row} (distinct : (rows.map column).Nodup) {row : Row}
    (stored : row ∈ rows) : rows.find? (fun other => column other = column row) = some row := by
  obtain ⟨before, after, rfl⟩ := List.append_of_mem stored
  rw [List.map_append, List.map_cons, List.nodup_append] at distinct
  have earlier : before.find? (fun other => column other = column row) = none := by
    refine List.find?_eq_none.mpr fun other member => ?_
    have different := distinct.2.2 _ (List.mem_map_of_mem member) _ List.mem_cons_self
    simpa using different
  rw [List.find?_append, earlier, Option.none_or, List.find?_cons_of_pos (by simp)]

theorem mem_of_find? {rows : List Row} {key : Key} {row : Row}
    (found : rows.find? (fun other => column other = key) = some row) :
    row ∈ rows ∧ column row = key :=
  ⟨List.mem_of_find?_eq_some found, by simpa using List.find?_some found⟩

/-- Two rows with one key are the same row. -/
theorem eq_of_find? {rows : List Row} (distinct : (rows.map column).Nodup) {key : Key}
    {row other : Row} (found : rows.find? (fun row => column row = key) = some row)
    (stored : other ∈ rows) (same : column other = key) : other = row := by
  have lookup := find?_of_mem column distinct stored
  rw [same, found] at lookup
  exact (Option.some.inj lookup).symm

/-- An update by key that also asks for a condition is the plain update when the row with that
key meets the condition, and nothing otherwise. -/
theorem updateRows_and_of_find? {rows : List Row} (distinct : (rows.map column).Nodup) {key : Key}
    {row : Row} (found : rows.find? (fun row => column row = key) = some row)
    (meets : Row → Prop) [DecidablePred meets] (change : Row → Row) :
    updateRows (fun other => column other = key ∧ meets other) change rows =
      if meets row then updateRows (fun other => column other = key) change rows else rows := by
  by_cases met : meets row
  · rw [if_pos met]
    refine List.map_congr_left fun other stored => ?_
    by_cases same : column other = key
    · rw [eq_of_find? column distinct found stored same]
      simp only [met, and_true]
    · simp only [same, false_and]
  · rw [if_neg met]
    refine updateRows_of_not _ _ _ fun other stored => decide_eq_false ?_
    rintro ⟨same, holds⟩
    rw [eq_of_find? column distinct found stored same] at holds
    exact met holds

/-- A row after an update by key is the row with that key in its changed form, or one with another
key. -/
theorem of_mem_updateRows_key {rows : List Row} {key : Key} {row other : Row}
    {change : Row → Row} (only : ∀ old ∈ rows, column old = key → old = row)
    (member : other ∈ updateRows (fun old => column old = key) change rows) :
    other = change row ∨ other ∈ rows ∧ column other ≠ key := by
  obtain ⟨old, stored, changed⟩ := mem_updateRows.mp member
  by_cases selected : column old = key
  · rw [if_pos (decide_eq_true selected), only old stored selected] at changed
    exact .inl changed.symm
  · rw [if_neg (by rwa [decide_eq_true_eq])] at changed
    rw [← changed]
    exact .inr ⟨stored, selected⟩

/-- A lookup by a key the update keeps finds the updated form of the row it found before. -/
theorem find?_updateRows (selects : Row → Bool) (change : Row → Row)
    (keeps : ∀ row, column (change row) = column row) (rows : List Row) (key : Key) :
    (updateRows selects change rows).find? (fun row => column row = key) =
      (rows.find? fun row => column row = key).map
        fun row => if selects row then change row else row := by
  unfold updateRows
  rw [List.find?_map]
  refine congrArg _ (congrArg (fun test => rows.find? test) (funext fun row => ?_))
  show decide (column (if selects row then change row else row) = key) =
    decide (column row = key)
  split
  · rw [keeps row]
  · rfl

/-- The lookups by key after the row under one key changed. -/
theorem find?_updateRows_key {rows : List Row} {key : Key} {row : Row} (change : Row → Row)
    (keeps : ∀ row, column (change row) = column row)
    (found : rows.find? (fun row => column row = key) = some row) :
    (fun other => (updateRows (fun row => column row = key) change rows).find?
        fun row => column row = other) =
      Function.update (fun other => rows.find? fun row => column row = other) key
        (some (change row)) := by
  funext other
  rw [find?_updateRows column _ change keeps]
  by_cases same : other = key
  · rw [same, Function.update_self, found, Option.map_some, if_pos]
    exact decide_eq_true (mem_of_find? column found).2
  · rw [Function.update_of_ne same]
    cases stored : rows.find? fun row => column row = other with
    | none => rfl
    | some row =>
      rw [Option.map_some, if_neg]
      rw [(mem_of_find? column stored).2, decide_eq_true_eq]
      exact same

/-- Changing the row under one key moves the number of rows that count by that row alone. -/
theorem countP_updateRows_key {rows : List Row} (distinct : (rows.map column).Nodup) {key : Key}
    {row : Row} (found : rows.find? (fun row => column row = key) = some row)
    (change : Row → Row) (counts : Row → Bool) :
    (updateRows (fun other => column other = key) change rows).countP counts +
        (if counts row then 1 else 0) =
      rows.countP counts + if counts (change row) then 1 else 0 := by
  obtain ⟨stored, rfl⟩ := mem_of_find? column found
  obtain ⟨before, after, rfl⟩ := List.append_of_mem stored
  rw [List.map_append, List.map_cons, List.nodup_append, List.nodup_cons] at distinct
  obtain ⟨-, ⟨notAfter, -⟩, apart⟩ := distinct
  have earlier : updateRows (fun other => column other = column row) change before = before :=
    updateRows_of_not _ _ _ fun other member =>
      decide_eq_false (apart _ (List.mem_map_of_mem member) _ List.mem_cons_self)
  have later : updateRows (fun other => column other = column row) change after = after :=
    updateRows_of_not _ _ _ fun other member => decide_eq_false fun same =>
      notAfter (List.mem_map.mpr ⟨other, member, same⟩)
  have here : updateRows (fun other => column other = column row) change (row :: after) =
      change row :: after := by
    conv_rhs => rw [← later]
    exact congrArg (fun first => first :: _) (if_pos (decide_eq_true rfl))
  rw [updateRows_append, earlier, here, List.countP_append, List.countP_append, List.countP_cons,
    List.countP_cons]
  omega

end Lookup

end Relational
