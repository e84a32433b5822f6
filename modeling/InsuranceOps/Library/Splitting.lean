/-
This file splits a list at a separator, from the left and at most so many times.
A part without the separator is split off as it stands, and every list that has
the separator is such a part before another list.
-/

import Mathlib.Data.List.TakeWhile

namespace Splitting

variable {Item : Type} [DecidableEq Item] (separator : Item)

/-- The parts between the first separators, and the rest as the last part. -/
def split : Nat → List Item → List (List Item)
  | 0, items => [items]
  | count + 1, items =>
    match items.dropWhile (· ≠ separator) with
    | [] => [items]
    | _ :: rest => items.takeWhile (· ≠ separator) :: split count rest

variable {separator}

theorem split_of_not_mem {items : List Item} (absent : separator ∉ items) (count : Nat) :
    split separator count items = [items] := by
  cases count with
  | zero => rfl
  | succ count =>
    have none : items.dropWhile (· ≠ separator) = [] := List.dropWhile_eq_nil_iff.mpr
      fun item member => decide_eq_true fun same => absent (same ▸ member)
    rw [split, none]

/-- A part without separators is the first one. -/
theorem split_append {part : List Item} (absent : separator ∉ part) (rest : List Item)
    (count : Nat) :
    split separator (count + 1) (part ++ separator :: rest) =
      part :: split separator count rest := by
  have apart : ∀ item ∈ part, decide (item ≠ separator) = true :=
    fun item member => decide_eq_true fun same => absent (same ▸ member)
  rw [split, List.dropWhile_append_of_pos apart, List.takeWhile_append_of_pos apart,
    List.dropWhile_cons_of_neg (by simp), List.takeWhile_cons_of_neg (by simp), List.append_nil]

variable (separator)

/-- Every list either has no separator or is split at its first one. -/
theorem exists_split (items : List Item) :
    separator ∉ items ∨
      ∃ part rest, separator ∉ part ∧ items = part ++ separator :: rest := by
  by_cases member : separator ∈ items
  · obtain ⟨part, rest, parts, absent⟩ := List.eq_append_cons_of_mem member
    exact .inr ⟨part, rest, absent, parts⟩
  · exact .inl member

end Splitting
