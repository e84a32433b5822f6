/-
This file develops fixed-width positional notation: the digits of a number in a
base, high digit first and as many as asked for, and the number a list of
digits spells. Reading the digits back gives the number up to the width.
-/

import Mathlib.Algebra.Group.Nat.Defs

namespace Positional

/-- The lowest digits of a number, as many as asked for, high digit first. -/
def digits (base : Nat) : Nat → Nat → List Nat
  | 0, _ => []
  | count + 1, value => digits base count (value / base) ++ [value % base]

/-- The number a list of digits spells. -/
def read (base : Nat) (digits : List Nat) : Nat :=
  digits.foldl (fun value digit => base * value + digit) 0

@[simp] theorem digits_length (base count value : Nat) :
    (digits base count value).length = count := by
  induction count generalizing value with
  | zero => rfl
  | succ count inductionHypothesis =>
    rw [digits, List.length_append, inductionHypothesis, List.length_singleton]

theorem digits_lt {base : Nat} (positive : 0 < base) (count value : Nat) :
    ∀ digit ∈ digits base count value, digit < base := by
  induction count generalizing value with
  | zero => exact fun digit member => absurd member List.not_mem_nil
  | succ count inductionHypothesis =>
    intro digit member
    rcases List.mem_append.mp member with high | low
    · exact inductionHypothesis _ digit high
    · rw [List.mem_singleton.mp low]
      exact Nat.mod_lt _ positive

theorem read_concat (base : Nat) (high : List Nat) (low : Nat) :
    read base (high ++ [low]) = base * read base high + low := by
  rw [read, List.foldl_append]
  rfl

/-- Reading the digits of a number gives back its residue at that width. -/
theorem read_digits (base count value : Nat) :
    read base (digits base count value) = value % base ^ count := by
  induction count generalizing value with
  | zero => rw [Nat.pow_zero, Nat.mod_one]; rfl
  | succ count inductionHypothesis =>
    rw [digits, read_concat, inductionHypothesis, Nat.pow_succ', Nat.mod_mul, Nat.add_comm]

/-- Numbers that fit the width are told apart by their digits. -/
theorem digits_injective {base count first second : Nat} (firstFits : first < base ^ count)
    (secondFits : second < base ^ count)
    (same : digits base count first = digits base count second) : first = second := by
  rw [← Nat.mod_eq_of_lt firstFits, ← Nat.mod_eq_of_lt secondFits, ← read_digits, ← read_digits,
    same]

end Positional
