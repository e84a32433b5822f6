/-
This file develops rows under row locks at isolation level READ COMMITTED. A
row has a committed version and, while a transaction holds its lock, the
version that transaction will leave; a locking read leaves the version it
found. Only the holder of the lock may write the row, so two transactions can
never have changed one row at a time. A commit installs the versions of the
rows the transaction holds, a rollback drops them, and neither touches another
row.
-/

import Mathlib.Logic.Function.Basic

namespace RowLocks

/-- A row: its committed version, and the transaction that holds its lock with the version it will
leave. -/
structure Cell (Row : Type) where
  committed : Option Row
  lock : Option (Nat × Option Row)

variable {Row : Type}

namespace Cell

/-- The version a statement of the transaction sees. -/
def visible (cell : Cell Row) (index : Nat) : Option Row :=
  match cell.lock with
  | some (holder, version) => if holder = index then version else cell.committed
  | none => cell.committed

/-- No other transaction holds the lock, so a write does not wait. -/
def free (cell : Cell Row) (index : Nat) : Bool :=
  match cell.lock with
  | some (holder, _) => holder = index
  | none => true

/-- The transaction locks the row and leaves this version of it. -/
def write (cell : Cell Row) (index : Nat) (version : Option Row) : Cell Row :=
  { cell with lock := some (index, version) }

/-- The transaction changes the row; a row that is not stored, or that another transaction holds,
it cannot change. -/
def change (cell : Cell Row) (index : Nat) (change : Row → Row) : Option (Cell Row) :=
  match cell.visible index, cell.free index with
  | some row, true => some (cell.write index (some (change row)))
  | _, _ => none

/-- The transaction commits. -/
def commit (index : Nat) (cell : Cell Row) : Cell Row :=
  match cell.lock with
  | some (holder, version) => if holder = index then ⟨version, none⟩ else cell
  | none => cell

/-- The transaction rolls back. -/
def rollback (index : Nat) (cell : Cell Row) : Cell Row :=
  match cell.lock with
  | some (holder, _) => if holder = index then ⟨cell.committed, none⟩ else cell
  | none => cell

variable {cell : Cell Row} {index other : Nat} {version : Option Row}

@[simp] theorem committed_write (cell : Cell Row) (index : Nat) (version : Option Row) :
    (cell.write index version).committed = cell.committed := rfl

@[simp] theorem lock_write (cell : Cell Row) (index : Nat) (version : Option Row) :
    (cell.write index version).lock = some (index, version) := rfl

/-- A row that is free for a transaction is held by no other one. -/
theorem free_iff : cell.free index = true ↔
    ∀ holder version, cell.lock = some (holder, version) → holder = index := by
  unfold free
  split
  · rename_i holder version held
    rw [decide_eq_true_eq]
    constructor
    · intro same other version' found
      rw [held] at found
      cases found
      exact same
    · exact fun only => only holder version held
  · rename_i unheld
    simp [unheld]

theorem visible_of_held (held : cell.lock = some (index, version)) :
    cell.visible index = version := by
  simp [visible, held]

theorem visible_of_not_held (unheld : ∀ version, cell.lock ≠ some (index, version)) :
    cell.visible index = cell.committed := by
  unfold visible
  split
  · rename_i holder version held
    rw [if_neg]
    rintro rfl
    exact unheld version held
  · rfl

theorem commit_of_held (held : cell.lock = some (index, version)) :
    cell.commit index = ⟨version, none⟩ := by
  simp [commit, held]

theorem commit_of_not_held (unheld : ∀ version, cell.lock ≠ some (index, version)) :
    cell.commit index = cell := by
  unfold commit
  split
  · rename_i holder version held
    rw [if_neg]
    rintro rfl
    exact unheld version held
  · rfl

theorem rollback_of_not_held (unheld : ∀ version, cell.lock ≠ some (index, version)) :
    cell.rollback index = cell := by
  unfold rollback
  split
  · rename_i holder version held
    rw [if_neg]
    rintro rfl
    exact unheld version held
  · rfl

@[simp] theorem commit_unlocked (index : Nat) (version : Option Row) :
    commit index ⟨version, none⟩ = ⟨version, none⟩ := rfl

theorem change_eq_some {change : Row → Row} {next : Cell Row} :
    cell.change index change = some next ↔
      ∃ row, cell.visible index = some row ∧ cell.free index = true ∧
        next = cell.write index (some (change row)) := by
  unfold Cell.change
  split
  · rename_i row seen isFree
    simp [seen, isFree, eq_comm]
  · rename_i blocked
    constructor
    · nofun
    · rintro ⟨row, seen, isFree, -⟩
      exact absurd isFree (blocked row seen)

/-- A row held by another transaction is not held by this one. -/
theorem not_held_of_held (held : cell.lock = some (other, version)) (different : other ≠ index) :
    ∀ found, cell.lock ≠ some (index, found) := by
  intro found own
  rw [held] at own
  cases own
  exact different rfl

@[simp] theorem committed_rollback (index : Nat) (cell : Cell Row) :
    (cell.rollback index).committed = cell.committed := by
  unfold rollback
  split
  · split <;> rfl
  · rfl

/-- Behind its rollback a transaction sees what is committed. -/
theorem visible_rollback (index : Nat) (cell : Cell Row) :
    (cell.rollback index).visible index = cell.committed := by
  unfold rollback
  split
  · rename_i holder version held
    split
    · rfl
    · rename_i different
      simp only [visible, held, if_neg different]
  · rename_i unheld
    simp only [visible, unheld]

/-- The end of a transaction releases its own lock and no other. -/
theorem lock_release_iff (ended : Option Row → Cell Row)
    (released : ∀ found, (ended found).lock = none) :
    (match cell.lock with
      | some (holder, found) => if holder = index then ended found else cell
      | none => cell).lock = some (other, version) ↔
        cell.lock = some (other, version) ∧ other ≠ index := by
  split
  · rename_i holder found held
    by_cases same : holder = index
    · rw [if_pos same, held, released]
      constructor
      · nofun
      · rintro ⟨equal, different⟩
        cases equal
        exact absurd same different
    · rw [if_neg same, held]
      constructor
      · intro equal
        refine ⟨equal, ?_⟩
        cases equal
        exact same
      · exact And.left
  · rename_i unheld
    simp [unheld]

/-- What another transaction holds stays as it is at a commit. -/
theorem lock_commit_iff :
    (cell.commit index).lock = some (other, version) ↔
      cell.lock = some (other, version) ∧ other ≠ index :=
  lock_release_iff (fun found => ⟨found, none⟩) fun _ => rfl

/-- What another transaction holds stays as it is at a rollback. -/
theorem lock_rollback_iff :
    (cell.rollback index).lock = some (other, version) ↔
      cell.lock = some (other, version) ∧ other ≠ index :=
  lock_release_iff (fun _ => ⟨cell.committed, none⟩) fun _ => rfl

/-- The only transaction commits the one row it holds. -/
theorem commit_update {Key : Type} [DecidableEq Key] (rows : Key → Option Row) (key : Key)
    (index : Nat) (found version : Option Row) :
    (fun id => (Function.update (fun id => (⟨rows id, none⟩ : Cell Row)) key
        ⟨found, some (index, version)⟩ id).commit index) =
      fun id => ⟨Function.update rows key version id, none⟩ := by
  funext id
  by_cases same : id = key
  · subst same
    rw [Function.update_self, Function.update_self]
    exact commit_of_held rfl
  · rw [Function.update_of_ne same, Function.update_of_ne same]
    rfl

/-! ### A write to one of many rows -/

section Rows

variable {Key : Type} [DecidableEq Key] {rows : Key → Cell Row} {key place : Key}
  {holder : Nat} {found : Option Row}

theorem committed_update_write (rows : Key → Cell Row) (key place : Key) (index : Nat)
    (version : Option Row) :
    (Function.update rows key ((rows key).write index version) place).committed =
      (rows place).committed := by
  by_cases same : place = key
  · rw [same, Function.update_self, committed_write]
  · rw [Function.update_of_ne same]

/-- A lock after a write is the one the write took or an older one on another row. -/
theorem lock_of_update_write
    (held : (Function.update rows key ((rows key).write index version) place).lock =
      some (holder, found)) :
    (place = key ∧ holder = index) ∨ place ≠ key ∧ (rows place).lock = some (holder, found) := by
  by_cases same : place = key
  · rw [same, Function.update_self, lock_write] at held
    cases held
    exact .inl ⟨same, rfl⟩
  · rw [Function.update_of_ne same] at held
    exact .inr ⟨same, held⟩

/-- What another transaction holds stays as it is at a write, which has waited for the row. -/
theorem lock_update_write (isFree : (rows key).free index = true) (different : holder ≠ index)
    (held : (rows place).lock = some (holder, found)) :
    (Function.update rows key ((rows key).write index version) place).lock =
      some (holder, found) := by
  rw [Function.update_of_ne]
  · exact held
  · intro same
    rw [same] at held
    exact different (free_iff.mp isFree holder found held)

end Rows

/-! ### What a transaction does to a row -/

/-- One statement of a transaction, or its end, leaves a row as it is, writes it, or releases it. -/
inductive Moves (index : Nat) (cell : Cell Row) : Cell Row → Prop
  | stays : Moves index cell cell
  | writes (isFree : cell.free index = true) (version : Option Row) :
    Moves index cell (cell.write index version)
  | commits : Moves index cell (cell.commit index)
  | rollsBack : Moves index cell (cell.rollback index)

namespace Moves

variable {next : Cell Row}

/-- What another transaction holds stays as it is. -/
theorem lock_iff (moves : Moves index cell next) (different : other ≠ index) :
    next.lock = some (other, version) ↔ cell.lock = some (other, version) := by
  cases moves with
  | stays => exact Iff.rfl
  | writes isFree written =>
    constructor
    · intro held
      cases held
      exact absurd rfl different
    · intro held
      exact absurd (free_iff.mp isFree other version held) different
  | commits => exact lock_commit_iff.trans (and_iff_left different)
  | rollsBack => exact lock_rollback_iff.trans (and_iff_left different)

/-- The committed version only changes at the commit of the transaction that holds the row. -/
theorem committed_or (moves : Moves index cell next) :
    next.committed = cell.committed ∨
      ∃ version, cell.lock = some (index, version) ∧ next = ⟨version, none⟩ := by
  cases moves with
  | stays => exact .inl rfl
  | writes isFree written => exact .inl rfl
  | commits =>
    by_cases held : ∃ version, cell.lock = some (index, version)
    · obtain ⟨version, held⟩ := held
      exact .inr ⟨version, held, commit_of_held held⟩
    · rw [commit_of_not_held fun version own => held ⟨version, own⟩]
      exact .inl rfl
  | rollsBack => exact .inl (committed_rollback index cell)

/-- What another transaction sees only changes when another version is committed. -/
theorem visible_of_committed (moves : Moves index cell next) (different : other ≠ index)
    (same : next.committed = cell.committed) : next.visible other = cell.visible other := by
  by_cases held : ∃ version, cell.lock = some (other, version)
  · obtain ⟨version, held⟩ := held
    rw [visible_of_held held, visible_of_held ((moves.lock_iff different).mpr held)]
  · rw [visible_of_not_held fun version own => held ⟨version, own⟩,
      visible_of_not_held fun version own => held ⟨version, (moves.lock_iff different).mp own⟩,
      same]

/-- A row another transaction holds keeps its committed version. -/
theorem committed_of_held (moves : Moves index cell next) (different : other ≠ index)
    (held : cell.lock = some (other, version)) : next.committed = cell.committed := by
  refine moves.committed_or.resolve_right ?_
  rintro ⟨_, own, -⟩
  exact not_held_of_held held different _ own

end Moves

/-- A commit leaves what the transaction sees. -/
theorem committed_commit (index : Nat) (cell : Cell Row) :
    (cell.commit index).committed = cell.visible index := by
  by_cases held : ∃ version, cell.lock = some (index, version)
  · obtain ⟨version, held⟩ := held
    rw [commit_of_held held, visible_of_held held]
  · rw [commit_of_not_held fun version own => held ⟨version, own⟩,
      visible_of_not_held fun version own => held ⟨version, own⟩]

/-- What a transaction sees of the rows behind its own write. -/
theorem visible_update_write {Key : Type} [DecidableEq Key] (rows : Key → Cell Row) (key : Key)
    (index : Nat) (version : Option Row) :
    (fun place =>
      (Function.update rows key ((rows key).write index version) place).visible index) =
      Function.update (fun place => (rows place).visible index) key version := by
  funext place
  by_cases same : place = key
  · rw [same, Function.update_self, Function.update_self]
    exact visible_of_held rfl
  · rw [Function.update_of_ne same, Function.update_of_ne same]

theorem moves_update_write {Key : Type} [DecidableEq Key] {rows : Key → Cell Row} {key : Key}
    (isFree : (rows key).free index = true) (version : Option Row) (place : Key) :
    Moves index (rows place)
      (Function.update rows key ((rows key).write index version) place) := by
  by_cases same : place = key
  · rw [same, Function.update_self]
    exact .writes isFree version
  · rw [Function.update_of_ne same]
    exact .stays

end Cell

end RowLocks
