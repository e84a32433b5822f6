/-
This file finds the places where an expression matches in a text. A match is
told by the text it leaves behind; a search finds one exactly where some place of
the text has one; and the matches that do not overlap have the lengths of their
first readings.
-/

import InsuranceOps.Library.Continuation
import InsuranceOps.Library.Scanning

namespace Backtracking

open Scanning

variable {Symbol : Type} {expression : Expression Symbol} {text : List Symbol}

/-! ### Literal texts -/

/-- A text and nothing else. -/
def exactly [BEq Symbol] : List Symbol → Expression Symbol
  | [] => .repeated (fun _ => false) 0 none
  | symbol :: rest => .seq (.one (symbol == ·)) (exactly rest)

theorem ahead_exactly {Result : Type} [BEq Symbol] (part : List Symbol)
    (next : List Symbol → Option Result) : (exactly part).ahead next text =
      if part.isPrefixOf text then next (text.drop part.length) else none := by
  induction part generalizing text with
  | nil =>
    rw [exactly, ahead_repeated fun _ _ accepted => (Bool.false_ne_true accepted).elim]
    cases text <;> rfl
  | cons symbol rest inductionHypothesis =>
    rw [exactly, ahead_seq]
    cases text with
    | nil => rfl
    | cons first text =>
      rw [ahead_one_cons, inductionHypothesis, List.isPrefixOf, List.length_cons,
        List.drop_succ_cons]
      cases symbol == first <;> rfl

/-! ### Matches -/

/-- The text behind the match at the start of a text. -/
def Expression.leaves (expression : Expression Symbol) (text : List Symbol) :
    Option (List Symbol) :=
  expression.ahead some text

theorem leaves_eq : expression.leaves text =
    (expression.readings text).head?.map fun reading => text.drop reading.consumed := by
  unfold Expression.leaves Expression.ahead
  cases expression.readings text <;> rfl

/-- The length of the match at the start of a text. -/
def Expression.matchLength (expression : Expression Symbol) (text : List Symbol) : Option Nat :=
  (expression.readings text).head?.map Reading.consumed

/-- A match is as long as what it does not leave behind. -/
theorem matchLength_eq_some_iff {count : Nat} : expression.matchLength text = some count ↔
    ∃ before behind, text = before ++ behind ∧ before.length = count ∧
      expression.leaves text = some behind := by
  rw [leaves_eq, Expression.matchLength]
  cases head : (expression.readings text).head? with
  | none => simp
  | some reading =>
    have within := (readings_within expression text reading (List.mem_of_head? head)).consumed
    simp only [Option.map_some, Option.some.injEq]
    constructor
    · rintro rfl
      exact ⟨text.take reading.consumed, _, (List.take_append_drop _ _).symm,
        List.length_take_of_le within, rfl⟩
    · rintro ⟨before, behind, rfl, rfl, left⟩
      have lengths := congrArg List.length left
      rw [List.length_drop, List.length_append] at lengths
      rw [List.length_append] at within
      omega

/-- The starts of the matches that `re.finditer` gives, of an expression that is not empty. -/
def Expression.finditer (expression : Expression Symbol) (text : List Symbol) : List Nat :=
  starts expression.matchLength 0 0 text

/-- A search finds an expression that is not empty where a place of the text has a match. -/
theorem search_isSome (never : expression.readings [] = []) :
    (expression.search text).isSome = found (fun text => (expression.leaves text).isSome) text := by
  unfold found
  induction text with
  | nil =>
    rw [Expression.search, never]
    rfl
  | cons symbol rest inductionHypothesis =>
    rw [Expression.search, foundBefore, List.append_nil, leaves_eq, Option.isSome_map]
    cases (expression.readings (symbol :: rest)).head? with
    | none => exact (Option.isSome_map ..).trans inductionHypothesis
    | some reading => rfl

end Backtracking
