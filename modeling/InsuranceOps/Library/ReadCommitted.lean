/-
This file develops concurrent transactions over insert-only rows at isolation
level READ COMMITTED. A statement of a transaction sees every row committed
before it and the transaction's own inserts; a row lock is held until the
transaction ends; an insert that clashes with a visible row on a unique key is
refused, and one that clashes with an uncommitted row of another transaction
has to wait. The one fact a unique key gives is that no two rows agree on it,
whether committed or not and whichever transactions inserted them, and every
step preserves it.
-/

import Mathlib.Data.List.Nodup
import Mathlib.Logic.Function.Basic

namespace ReadCommitted

/-- One transaction: the rows it has inserted and not committed, the locks it holds, whether a
statement of it was refused, and what its program remembers between statements. -/
structure Txn (Row Lock Memory : Type) where
  own : List Row
  held : List Lock
  failed : Bool
  memory : Memory

/-- The committed rows and every transaction. -/
structure State (Row Lock Memory : Type) where
  committed : List Row
  txn : Nat → Txn Row Lock Memory

variable {Row Lock Memory Key : Type}

namespace State

/-- What a statement of the transaction sees. -/
def visible (state : State Row Lock Memory) (index : Nat) : List Row :=
  state.committed ++ (state.txn index).own

/-- A transaction that has done nothing. -/
def fresh (memory : Memory) : Txn Row Lock Memory := ⟨[], [], false, memory⟩

/-- Nothing is stored and nothing is running. -/
def initial (memory : Memory) : State Row Lock Memory := ⟨[], fun _ => fresh memory⟩

/-- Replace one transaction. -/
def set (state : State Row Lock Memory) (index : Nat) (txn : Txn Row Lock Memory) :
    State Row Lock Memory :=
  { state with txn := Function.update state.txn index txn }

/-- The program of a transaction goes on, with the locks it now holds. -/
def proceed (state : State Row Lock Memory) (index : Nat) (held : List Lock) (memory : Memory) :
    State Row Lock Memory :=
  state.set index { state.txn index with held := held, memory := memory }

/-- A transaction inserts a row. -/
def insert (state : State Row Lock Memory) (index : Nat) (row : Row) (memory : Memory) :
    State Row Lock Memory :=
  state.set index
    { state.txn index with own := (state.txn index).own ++ [row], memory := memory }

/-- A statement of a transaction is refused. -/
def fail (state : State Row Lock Memory) (index : Nat) : State Row Lock Memory :=
  state.set index { state.txn index with failed := true }

/-- The transaction commits: its rows become visible to all and its locks are released. -/
def commit (state : State Row Lock Memory) (index : Nat) (memory : Memory) :
    State Row Lock Memory :=
  { committed := state.committed ++ (state.txn index).own
    txn := Function.update state.txn index (fresh memory) }

/-- The transaction rolls back: its rows and its locks are gone. -/
def rollback (state : State Row Lock Memory) (index : Nat) (memory : Memory) :
    State Row Lock Memory :=
  state.set index (fresh memory)

/-- No other transaction holds the lock. -/
def LockFree (state : State Row Lock Memory) (index : Nat) (lock : Lock) : Prop :=
  ∀ other, other ≠ index → lock ∉ (state.txn other).held

/-- The insert clashes with no visible row and with no uncommitted row of another
transaction, so it is neither refused nor does it wait. -/
structure Insertable (key : Row → Key) (state : State Row Lock Memory) (index : Nat)
    (row : Row) : Prop where
  unseen : ∀ stored ∈ state.visible index, key stored ≠ key row
  unawaited : ∀ other, other ≠ index → ∀ stored ∈ (state.txn other).own, key stored ≠ key row

/-- No two rows agree on the key, committed or not, whichever transactions inserted them. -/
structure Separate (key : Row → Key) (state : State Row Lock Memory) : Prop where
  visible : ∀ index, ((state.visible index).map key).Nodup
  apart : ∀ first second, first ≠ second → ∀ row ∈ (state.txn first).own,
    ∀ other ∈ (state.txn second).own, key row ≠ key other

/-! ### What each step does to the rows -/

@[simp] theorem visible_initial (memory : Memory) (index : Nat) :
    (initial memory : State Row Lock Memory).visible index = [] := rfl

@[simp] theorem set_txn_self (state : State Row Lock Memory) (index : Nat)
    (txn : Txn Row Lock Memory) : (state.set index txn).txn index = txn :=
  Function.update_self _ _ _

theorem set_txn_of_ne (state : State Row Lock Memory) {index other : Nat}
    (txn : Txn Row Lock Memory) (different : other ≠ index) :
    (state.set index txn).txn other = state.txn other :=
  Function.update_of_ne different _ _

@[simp] theorem set_committed (state : State Row Lock Memory) (index : Nat)
    (txn : Txn Row Lock Memory) : (state.set index txn).committed = state.committed := rfl

theorem visible_set_of_ne (state : State Row Lock Memory) {index other : Nat}
    (txn : Txn Row Lock Memory) (different : other ≠ index) :
    (state.set index txn).visible other = state.visible other := by
  rw [visible, set_txn_of_ne state txn different]
  rfl

/-- Replacing a transaction by one with the same inserts changes what nobody sees. -/
theorem visible_set (state : State Row Lock Memory) (index : Nat) (txn : Txn Row Lock Memory)
    (same : txn.own = (state.txn index).own) (other : Nat) :
    (state.set index txn).visible other = state.visible other := by
  by_cases equal : other = index
  · rw [equal, visible, set_txn_self, same]
    rfl
  · exact visible_set_of_ne state txn equal

@[simp] theorem visible_insert_self (state : State Row Lock Memory) (index : Nat) (row : Row)
    (memory : Memory) :
    (state.insert index row memory).visible index = state.visible index ++ [row] := by
  rw [visible, insert, set_txn_self]
  exact (List.append_assoc _ _ _).symm

theorem visible_insert_of_ne (state : State Row Lock Memory) {index other : Nat} (row : Row)
    (memory : Memory) (different : other ≠ index) :
    (state.insert index row memory).visible other = state.visible other :=
  visible_set_of_ne state _ different

@[simp] theorem visible_rollback_self (state : State Row Lock Memory) (index : Nat)
    (memory : Memory) : (state.rollback index memory).visible index = state.committed := by
  rw [visible, rollback, set_txn_self]
  exact List.append_nil _

@[simp] theorem commit_txn_self (state : State Row Lock Memory) (index : Nat)
    (memory : Memory) : (state.commit index memory).txn index = fresh memory :=
  Function.update_self _ _ _

theorem commit_txn_of_ne (state : State Row Lock Memory) {index other : Nat} (memory : Memory)
    (different : other ≠ index) : (state.commit index memory).txn other = state.txn other :=
  Function.update_of_ne different _ _

@[simp] theorem visible_commit_self (state : State Row Lock Memory) (index : Nat)
    (memory : Memory) : (state.commit index memory).visible index = state.visible index := by
  rw [visible, commit_txn_self]
  exact List.append_nil _

theorem visible_commit_of_ne (state : State Row Lock Memory) {index other : Nat}
    (memory : Memory) (different : other ≠ index) :
    (state.commit index memory).visible other =
      state.visible index ++ (state.txn other).own := by
  rw [visible, commit_txn_of_ne state memory different]
  rfl

/-! ### A transaction that runs alone never waits -/

/-- Every other transaction has done nothing. -/
def Alone (memory : Memory) (state : State Row Lock Memory) (index : Nat) : Prop :=
  ∀ other, other ≠ index → state.txn other = fresh memory

theorem alone_initial (memory : Memory) (index : Nat) :
    Alone memory (initial memory : State Row Lock Memory) index := fun _ _ => rfl

theorem Alone.insertable {memory : Memory} {state : State Row Lock Memory} {index : Nat}
    (alone : Alone memory state index) (key : Row → Key) (row : Row)
    (unseen : ∀ stored ∈ state.visible index, key stored ≠ key row) :
    Insertable key state index row := by
  refine ⟨unseen, fun other different stored member => ?_⟩
  rw [alone other different] at member
  exact absurd member List.not_mem_nil

/-! ### A unique key separates all rows -/

theorem separate_initial (key : Row → Key) (memory : Memory) :
    Separate key (initial memory : State Row Lock Memory) where
  visible _ := List.nodup_nil
  apart _ _ _ _ member := absurd member List.not_mem_nil

/-- Steps that change no transaction's inserts preserve the separation. -/
theorem Separate.set {key : Row → Key} {state : State Row Lock Memory}
    (separate : Separate key state) (index : Nat) (txn : Txn Row Lock Memory)
    (fewer : txn.own <+: (state.txn index).own) : Separate key (state.set index txn) := by
  have ownSub (other : Nat) : ((state.set index txn).txn other).own <+: (state.txn other).own := by
    by_cases equal : other = index
    · rw [equal, set_txn_self]
      exact fewer
    · exact (set_txn_of_ne state txn equal).symm ▸ List.prefix_rfl
  constructor
  · intro other
    refine (separate.visible other).sublist (List.Sublist.map key ?_)
    exact (List.Sublist.refl _).append (ownSub other).sublist
  · intro first second different row member other otherMember
    exact separate.apart first second different row ((ownSub first).subset member) other
      ((ownSub second).subset otherMember)

theorem Separate.insert {key : Row → Key} {state : State Row Lock Memory}
    (separate : Separate key state) (index : Nat) (row : Row) (memory : Memory)
    (insertable : Insertable key state index row) :
    Separate key (state.insert index row memory) := by
  have ownSelf : ((state.insert index row memory).txn index).own =
      (state.txn index).own ++ [row] := by
    rw [State.insert, set_txn_self]
  have ownOther {other : Nat} (different : other ≠ index) :
      ((state.insert index row memory).txn other).own = (state.txn other).own := by
    rw [State.insert, set_txn_of_ne state _ different]
  constructor
  · intro other
    by_cases equal : other = index
    · rw [equal, visible_insert_self, List.map_append, List.map_singleton, List.nodup_append]
      refine ⟨separate.visible index, List.nodup_singleton _, ?_⟩
      intro first stored second new
      obtain ⟨storedRow, member, rfl⟩ := List.mem_map.mp stored
      rw [List.mem_singleton.mp new]
      exact insertable.unseen storedRow member
    · rw [visible_insert_of_ne state row memory equal]
      exact separate.visible other
  · intro first second different stored member other otherMember
    by_cases firstSame : first = index
    · subst firstSame
      rw [ownSelf] at member
      rw [ownOther different.symm] at otherMember
      rcases List.mem_append.mp member with old | new
      · exact separate.apart first second different stored old other otherMember
      · rw [List.mem_singleton.mp new]
        exact (insertable.unawaited second different.symm other otherMember).symm
    · rw [ownOther firstSame] at member
      by_cases secondSame : second = index
      · subst secondSame
        rw [ownSelf] at otherMember
        rcases List.mem_append.mp otherMember with old | new
        · exact separate.apart first second different stored member other old
        · rw [List.mem_singleton.mp new]
          exact insertable.unawaited first firstSame stored member
      · rw [ownOther secondSame] at otherMember
        exact separate.apart first second different stored member other otherMember

theorem Separate.commit {key : Row → Key} {state : State Row Lock Memory}
    (separate : Separate key state) (index : Nat) (memory : Memory) :
    Separate key (state.commit index memory) := by
  have ownOther (other : Nat) :
      ((state.commit index memory).txn other).own <+: (state.txn other).own := by
    by_cases equal : other = index
    · rw [equal, commit_txn_self]
      exact List.nil_prefix
    · exact (commit_txn_of_ne state memory equal).symm ▸ List.prefix_rfl
  constructor
  · intro other
    by_cases equal : other = index
    · rw [equal, visible_commit_self]
      exact separate.visible index
    · rw [visible_commit_of_ne state memory equal, List.map_append, List.nodup_append]
      have ownNodup : ((state.txn other).own.map key).Nodup :=
        (separate.visible other).sublist ((List.sublist_append_right _ _).map key)
      refine ⟨separate.visible index, ownNodup, ?_⟩
      intro first stored second new
      obtain ⟨storedRow, member, rfl⟩ := List.mem_map.mp stored
      obtain ⟨newRow, newMember, rfl⟩ := List.mem_map.mp new
      rcases List.mem_append.mp member with old | mine
      · have whole := separate.visible other
        rw [State.visible, List.map_append, List.nodup_append] at whole
        exact whole.2.2 _ (List.mem_map_of_mem old) _ (List.mem_map_of_mem newMember)
      · exact separate.apart index other (Ne.symm equal) storedRow mine newRow newMember
  · intro first second different row member other otherMember
    exact separate.apart first second different row ((ownOther first).subset member) other
      ((ownOther second).subset otherMember)

theorem Separate.rollback {key : Row → Key} {state : State Row Lock Memory}
    (separate : Separate key state) (index : Nat) (memory : Memory) :
    Separate key (state.rollback index memory) :=
  separate.set index _ List.nil_prefix

end State

end ReadCommitted
