/-
This file develops session-level advisory locks. A lock belongs to the owner
that took it: the owner can take it again, which counts, and gives it back by
unlocking it as often; nobody else can take it, and unlocking it without owning
it does nothing. It comes free by itself only when its owner is gone.
-/

import Mathlib.Logic.Basic

namespace AdvisoryLock

/-- A lock that is held: its owner, and how often the owner has taken it. -/
structure Grant (Owner : Type) where
  owner : Owner
  depth : Nat

/-- A lock, free or held. -/
abbrev Lock (Owner : Type) := Option (Grant Owner)

variable {Owner : Type}

namespace Lock

/-- The owner holds the lock. -/
def HeldBy (lock : Lock Owner) (owner : Owner) : Prop := ∃ depth, lock = some ⟨owner, depth⟩

/-- The owner disappears, and the lock with it if the owner held it. -/
def disconnect (gone : Owner → Bool) : Lock Owner → Lock Owner
  | none => none
  | some grant => if gone grant.owner then none else some grant

variable [DecidableEq Owner]

/-- Take the lock without waiting. -/
def tryLock (owner : Owner) : Lock Owner → Option (Lock Owner)
  | none => some (some ⟨owner, 1⟩)
  | some grant => if grant.owner = owner then some (some ⟨owner, grant.depth + 1⟩) else none

/-- Give the lock back once. -/
def unlock (owner : Owner) : Lock Owner → Lock Owner
  | none => none
  | some grant =>
    if grant.owner = owner then
      if grant.depth ≤ 1 then none else some ⟨owner, grant.depth - 1⟩
    else some grant

variable {lock next : Lock Owner} {owner other : Owner}

omit [DecidableEq Owner] in
/-- A lock has one owner. -/
theorem HeldBy.unique (held : lock.HeldBy owner) (again : lock.HeldBy other) : owner = other := by
  obtain ⟨depth, held⟩ := held
  obtain ⟨_, again⟩ := again
  rw [held] at again
  cases again
  rfl

theorem heldBy_of_tryLock (taken : tryLock owner lock = some next) : next.HeldBy owner := by
  unfold tryLock at taken
  split at taken
  · cases taken
    exact ⟨1, rfl⟩
  · split at taken
    · cases taken
      exact ⟨_, rfl⟩
    · cases taken

/-- A lock can be taken when it is free, and by its owner. -/
theorem tryLock_some (taken : tryLock owner lock = some next) :
    lock = none ∧ next = some ⟨owner, 1⟩ ∨ lock.HeldBy owner := by
  unfold tryLock at taken
  split at taken
  · cases taken
    exact .inl ⟨rfl, rfl⟩
  · rename_i grant
    split at taken
    · rename_i same
      exact .inr ⟨grant.depth, by rw [← same]⟩
    · cases taken

/-- Unlocking without owning the lock does nothing. -/
theorem unlock_of_not_heldBy (unheld : ¬lock.HeldBy owner) : unlock owner lock = lock := by
  unfold unlock
  split
  · rfl
  · rename_i grant
    rw [if_neg]
    rintro rfl
    exact unheld ⟨grant.depth, rfl⟩

theorem unlock_once : unlock owner (some ⟨owner, 1⟩) = none := by
  rw [unlock, if_pos rfl, if_pos (Nat.le_refl 1)]

/-- What another owner holds stays held. -/
theorem HeldBy.unlock_of_ne (held : lock.HeldBy other) (different : other ≠ owner) :
    (unlock owner lock).HeldBy other := by
  rwa [unlock_of_not_heldBy fun own => different (held.unique own)]

omit [DecidableEq Owner] in
theorem HeldBy.disconnect (held : lock.HeldBy owner) {gone : Owner → Bool}
    (stays : gone owner = false) : (disconnect gone lock).HeldBy owner := by
  obtain ⟨depth, rfl⟩ := held
  refine ⟨depth, ?_⟩
  rw [Lock.disconnect, stays]
  rfl

omit [DecidableEq Owner] in
theorem of_disconnect {gone : Owner → Bool} {grant : Grant Owner}
    (kept : disconnect gone lock = some grant) :
    lock = some grant ∧ gone grant.owner = false := by
  unfold Lock.disconnect at kept
  split at kept
  · cases kept
  · split at kept
    · cases kept
    · rename_i stays
      cases kept
      exact ⟨rfl, Bool.eq_false_iff.mpr stays⟩

omit [DecidableEq Owner] in
theorem HeldBy.of_disconnect {gone : Owner → Bool}
    (held : (Lock.disconnect gone lock).HeldBy owner) : lock.HeldBy owner ∧ gone owner = false := by
  obtain ⟨depth, held⟩ := held
  obtain ⟨before, stays⟩ := Lock.of_disconnect held
  exact ⟨⟨depth, before⟩, stays⟩

end Lock

end AdvisoryLock
