/-
This file develops counts over places that total at most one: a token that is
at one place or at none. The count stays so when the token moves, when it goes
away, and when one appears where there was none; and a place that counts one
is the only one that does.
-/

import Mathlib.Logic.Function.Basic

namespace OneToken

variable {Place : Type} {count after : Place → Nat}

/-- All places together count at most one. -/
def Single (count : Place → Nat) : Prop :=
  ∀ first second, 0 < count first → 0 < count second → first = second ∧ count first = 1

theorem single_of_zero (zero : ∀ place, count place = 0) : Single count := by
  intro first second positive
  rw [zero first] at positive
  exact absurd positive (Nat.lt_irrefl 0)

/-- Where one place counts, no other does. -/
theorem Single.eq_zero (single : Single count) {place other : Place} (here : 0 < count place)
    (different : other ≠ place) : count other = 0 := by
  by_contra positive
  exact different (single other place (Nat.pos_of_ne_zero positive) here).1

/-- A count that nowhere exceeds a single one is single. -/
theorem Single.mono (single : Single count) (fewer : ∀ place, after place ≤ count place) :
    Single after := by
  intro first second firstPositive secondPositive
  have here := Nat.lt_of_lt_of_le firstPositive (fewer first)
  obtain ⟨same, one⟩ := single first second here (Nat.lt_of_lt_of_le secondPositive (fewer second))
  exact ⟨same, Nat.le_antisymm (one ▸ fewer first) firstPositive⟩

/-- A count that is one at one place and zero elsewhere is single. -/
theorem single_of_one (place : Place) (one : after place ≤ 1)
    (others : ∀ other, other ≠ place → after other = 0) : Single after := by
  have here : ∀ other, 0 < after other → other = place := by
    intro other positive
    by_contra different
    rw [others other different] at positive
    exact absurd positive (Nat.lt_irrefl 0)
  intro first second firstPositive secondPositive
  obtain rfl := here first firstPositive
  exact ⟨(here second secondPositive).symm, Nat.le_antisymm one firstPositive⟩

/-- A count that was zero everywhere becomes one at one place. -/
theorem single_of_added (place : Place) (zero : ∀ other, count other = 0)
    (added : after place = count place + 1)
    (others : ∀ other, other ≠ place → after other = count other) : Single after :=
  single_of_one place (Nat.le_of_eq (by rw [added, zero place])) fun other different =>
    (others other different).trans (zero other)

/-- The token moves from one place to another. -/
theorem Single.move (single : Single count) {source target : Place} (here : 0 < count source)
    (apart : target ≠ source) (left : after source + 1 = count source)
    (reached : after target = count target + 1)
    (others : ∀ other, other ≠ source → other ≠ target → after other = count other) :
    Single after := by
  refine single_of_one target ?_ fun other different => ?_
  · exact Nat.le_of_eq (by rw [reached, single.eq_zero here apart])
  · by_cases same : other = source
    · rw [same]
      have one := (single source source here here).2
      omega
    · rw [others other same different, single.eq_zero here same]

/-- How a count may change: it goes down, it moves from one place to another, or, where that is
allowed, it appears at a place while nothing counted. -/
inductive Flow (fresh : Prop) (count after : Place → Nat) : Prop
  | shrinks (fewer : ∀ place, after place ≤ count place)
  | moves (source target : Place) (here : 0 < count source) (apart : target ≠ source)
      (left : after source + 1 = count source) (reached : after target = count target + 1)
      (others : ∀ other, other ≠ source → other ≠ target → after other = count other)
  | appears (allowed : fresh) (target : Place) (zero : ∀ place, count place = 0)
      (reached : after target = count target + 1)
      (others : ∀ other, other ≠ target → after other = count other)

variable {fresh : Prop}

theorem Flow.of_eq (same : ∀ place, after place = count place) : Flow fresh count after :=
  .shrinks fun place => Nat.le_of_eq (same place)

theorem Flow.single (flow : Flow fresh count after) (single : Single count) : Single after := by
  cases flow with
  | shrinks fewer => exact single.mono fewer
  | moves _ _ here apart left reached others => exact single.move here apart left reached others
  | appears _ target zero reached others => exact single_of_added target zero reached others

/-- A count that is zero everywhere and may not appear stays zero. -/
theorem Flow.zero (flow : Flow fresh count after) (zero : ∀ place, count place = 0)
    (stale : ¬fresh) : ∀ place, after place = 0 := by
  cases flow with
  | shrinks fewer => exact fun place => Nat.le_zero.mp (zero place ▸ fewer place)
  | moves source _ here => exact absurd (zero source) (Nat.ne_of_gt here)
  | appears allowed => exact absurd allowed stale

end OneToken
