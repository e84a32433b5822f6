/-
This file develops a file system as processes see it through system calls: names
refer to inodes, an open file refers to its inode whatever becomes of the name,
opening for writing truncates a file in place or creates a new one, and a rename
moves a name in one step. The rules say what each call leaves as it was.
-/

import Mathlib.Logic.Function.Basic

namespace Files

/-- The inodes that names refer to, what is in the inodes, and the first one never used. -/
structure Disk (Name : Type) where
  names : Name → Option Nat
  contents : Nat → List UInt8
  next : Nat

/-! ### Writing and reading -/

/-- Contents after a write at a position; a gap before it reads as zeros. -/
def overwrite (old : List UInt8) (offset : Nat) (chunk : List UInt8) : List UInt8 :=
  (old ++ List.replicate (offset - old.length) 0).take offset ++ chunk ++
    old.drop (offset + chunk.length)

/-- Chunk by chunk the contents become a longer part of the data. -/
theorem overwrite_take {data : List UInt8} {offset : Nat} (fits : offset ≤ data.length)
    (count : Nat) :
    overwrite (data.take offset) offset ((data.drop offset).take count) =
      data.take (offset + ((data.drop offset).take count).length) := by
  have length : (data.take offset).length = offset := List.length_take_of_le fits
  have within : (data.take offset).length ≤ offset + ((data.drop offset).take count).length := by
    rw [length]
    exact Nat.le_add_right _ _
  have chunk : (data.drop offset).take ((data.drop offset).take count).length =
      (data.drop offset).take count := by
    rw [List.length_take, ← List.take_eq_take_min]
  rw [overwrite, length, Nat.sub_self, List.replicate_zero, List.append_nil, List.take_take,
    Nat.min_self, List.drop_eq_nil_of_le within, List.append_nil, List.take_add, chunk]

namespace Disk

variable {Name : Type}

/-- Write a chunk into an open file. -/
def writeAt (disk : Disk Name) (inode offset : Nat) (chunk : List UInt8) : Disk Name :=
  { disk with
    contents := Function.update disk.contents inode
      (overwrite (disk.contents inode) offset chunk) }

/-- Read at most so many bytes of an open file. -/
def readAt (disk : Disk Name) (inode offset count : Nat) : List UInt8 :=
  ((disk.contents inode).drop offset).take count

/-- Names refer to inodes in use. -/
def Allocated (disk : Disk Name) : Prop :=
  ∀ name inode, disk.names name = some inode → inode < disk.next

theorem writeAt_contents_self (disk : Disk Name) (inode offset : Nat) (chunk : List UInt8) :
    (disk.writeAt inode offset chunk).contents inode =
      overwrite (disk.contents inode) offset chunk := Function.update_self _ _ _

theorem writeAt_contents_of_ne (disk : Disk Name) {inode other : Nat} (different : other ≠ inode)
    (offset : Nat) (chunk : List UInt8) :
    (disk.writeAt inode offset chunk).contents other = disk.contents other :=
  Function.update_of_ne different _ _

/-! ### Names -/

variable [DecidableEq Name]

/-- Open a file for writing, empty: its own inode where the name has one, else a new one. -/
def openTruncated (disk : Disk Name) (name : Name) : Disk Name × Nat :=
  match disk.names name with
  | some inode => ({ disk with contents := Function.update disk.contents inode [] }, inode)
  | none =>
    ({ names := Function.update disk.names name (some disk.next)
       contents := Function.update disk.contents disk.next []
       next := disk.next + 1 }, disk.next)

/-- Move a file to another name, over the file that has it. -/
def rename (disk : Disk Name) (source target : Name) : Option (Disk Name) :=
  (disk.names source).map fun inode =>
    { disk with
      names := Function.update (Function.update disk.names source none) target (some inode) }

/-- Remove a name. -/
def unlink (disk : Disk Name) (name : Name) : Option (Disk Name) :=
  (disk.names name).map fun _ => { disk with names := Function.update disk.names name none }

variable {disk : Disk Name} {name : Name}

theorem openTruncated_names_self : (disk.openTruncated name).1.names name =
    some (disk.openTruncated name).2 := by
  unfold openTruncated
  cases stored : disk.names name with
  | some inode => exact stored
  | none => exact Function.update_self _ _ _

theorem openTruncated_names_of_ne {other : Name} (different : other ≠ name) :
    (disk.openTruncated name).1.names other = disk.names other := by
  unfold openTruncated
  cases disk.names name with
  | some inode => rfl
  | none => exact Function.update_of_ne different _ _

theorem openTruncated_contents_self :
    (disk.openTruncated name).1.contents (disk.openTruncated name).2 = [] := by
  unfold openTruncated
  cases disk.names name <;> exact Function.update_self _ _ _

/-- Opening a file leaves the other files in use alone. -/
theorem openTruncated_of_ne {inode : Nat} (used : inode < disk.next)
    (different : disk.names name ≠ some inode) :
    inode < (disk.openTruncated name).1.next ∧ (disk.openTruncated name).2 ≠ inode ∧
      (disk.openTruncated name).1.contents inode = disk.contents inode := by
  unfold openTruncated
  cases stored : disk.names name with
  | some own =>
    have apart : inode ≠ own := fun same => different (same ▸ stored)
    exact ⟨used, apart.symm, Function.update_of_ne apart _ _⟩
  | none =>
    have apart : inode ≠ disk.next := Nat.ne_of_lt used
    exact ⟨Nat.lt_succ_of_lt used, apart.symm, Function.update_of_ne apart _ _⟩

theorem openTruncated_allocated (allocated : disk.Allocated) :
    (disk.openTruncated name).1.Allocated := by
  intro other inode refers
  by_cases same : other = name
  · subst same
    rw [openTruncated_names_self] at refers
    cases refers
    unfold openTruncated
    cases stored : disk.names other with
    | some own => exact allocated other own stored
    | none => exact Nat.lt_succ_self _
  · rw [openTruncated_names_of_ne same] at refers
    have used := allocated other inode refers
    unfold openTruncated
    cases disk.names name with
    | some own => exact used
    | none => exact Nat.lt_succ_of_lt used

theorem rename_eq_some {source : Name} {inode : Nat} (stored : disk.names source = some inode)
    (target : Name) : disk.rename source target = some
      { disk with
        names :=
          Function.update (Function.update disk.names source none) target (some inode) } := by
  rw [rename, stored]
  rfl

theorem rename_eq_none {source : Name} (missing : disk.names source = none) (target : Name) :
    disk.rename source target = none := by
  rw [rename, missing]
  rfl

/-! ### One name for each inode -/

/-- No inode has two names. -/
def Apart (disk : Disk Name) : Prop :=
  ∀ first second inode, disk.names first = some inode → disk.names second = some inode →
    first = second

theorem openTruncated_apart (apart : disk.Apart) (allocated : disk.Allocated) :
    (disk.openTruncated name).1.Apart := by
  -- The inode of the name is its own already, or a new one that no name refers to.
  have own {other : Name} (different : other ≠ name)
      (refers : disk.names other = some (disk.openTruncated name).2) : False := by
    unfold openTruncated at refers
    cases stored : disk.names name with
    | some inode =>
      rw [stored] at refers
      exact different (apart other name inode refers stored)
    | none =>
      rw [stored] at refers
      exact Nat.lt_irrefl _ (allocated other _ refers)
  intro first second inode firstRefers secondRefers
  by_cases isFirst : first = name <;> by_cases isSecond : second = name
  · rw [isFirst, isSecond]
  · rw [isFirst, openTruncated_names_self] at firstRefers
    cases firstRefers
    rw [openTruncated_names_of_ne isSecond] at secondRefers
    exact (own isSecond secondRefers).elim
  · rw [isSecond, openTruncated_names_self] at secondRefers
    cases secondRefers
    rw [openTruncated_names_of_ne isFirst] at firstRefers
    exact (own isFirst firstRefers).elim
  · rw [openTruncated_names_of_ne isFirst] at firstRefers
    rw [openTruncated_names_of_ne isSecond] at secondRefers
    exact apart first second inode firstRefers secondRefers

/-- Dropping a name leaves the others apart. -/
theorem apart_update_none (apart : disk.Apart) (name : Name) :
    ({ disk with names := Function.update disk.names name none } : Disk Name).Apart := by
  intro first second inode firstRefers secondRefers
  dsimp only at firstRefers secondRefers
  have kept {other : Name} (refers : Function.update disk.names name none other = some inode) :
      disk.names other = some inode := by
    by_cases same : other = name
    · rw [same, Function.update_self] at refers
      cases refers
    · rwa [Function.update_of_ne same] at refers
  exact apart first second inode (kept firstRefers) (kept secondRefers)

/-- A rename moves the only name of an inode. -/
theorem rename_apart (apart : disk.Apart) {source target : Name} {inode : Nat}
    (stored : disk.names source = some inode) :
    ({ disk with
       names := Function.update (Function.update disk.names source none) target (some inode) } :
      Disk Name).Apart := by
  have moved {other : Name} {place : Nat}
      (refers : Function.update (Function.update disk.names source none) target (some inode) other =
        some place) : other = target ∧ place = inode ∨
          other ≠ target ∧ place ≠ inode ∧ disk.names other = some place := by
    by_cases isTarget : other = target
    · rw [isTarget, Function.update_self] at refers
      exact .inl ⟨isTarget, (Option.some.inj refers).symm⟩
    · rw [Function.update_of_ne isTarget] at refers
      by_cases isSource : other = source
      · rw [isSource, Function.update_self] at refers
        cases refers
      · rw [Function.update_of_ne isSource] at refers
        refine .inr ⟨isTarget, fun same => isSource ?_, refers⟩
        exact apart other source inode (same ▸ refers) stored
  intro first second place firstRefers secondRefers
  rcases moved firstRefers with ⟨firstTarget, same⟩ | ⟨-, different, firstOld⟩ <;>
    rcases moved secondRefers with ⟨secondTarget, sameToo⟩ | ⟨-, differentToo, secondOld⟩
  · rw [firstTarget, secondTarget]
  · exact absurd same differentToo
  · exact absurd sameToo different
  · exact apart first second place firstOld secondOld

end Disk

end Files
