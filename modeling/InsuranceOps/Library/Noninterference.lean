/-
This file develops noninterference for a deterministic system that answers its
actions. Some actions are observed and some are hidden. When the states can be
related so that hidden actions change nothing the relation sees, all other
actions act alike on related states, and observed actions are answered alike,
then the observed answers are the same with the hidden actions removed.
-/

import Mathlib.Data.List.Basic

namespace Noninterference

variable {State Action Answer : Type*} (step : State → Action → State × Option Answer)

/-- The answers of the observed actions of a history. -/
def answers (observed : Action → Bool) : State → List Action → List Answer
  | _, [] => []
  | state, action :: rest =>
    (if observed action then (step state action).2.toList else []) ++
      answers observed (step state action).1 rest

/-- A relation of states under which hidden actions cannot be seen. -/
structure Unwinding (observed hidden : Action → Bool) (same : State → State → Prop) : Prop where
  /-- No observed action is hidden. -/
  visible : ∀ action, observed action = true → hidden action = false
  hides : ∀ first second action, hidden action = true → same first second →
    same (step first action).1 second
  keeps : ∀ first second action, hidden action = false → same first second →
    same (step first action).1 (step second action).1
  agrees : ∀ first second action, observed action = true → same first second →
    (step first action).2 = (step second action).2

/-- Observed answers do not depend on the hidden actions of the history. -/
theorem Unwinding.answers_purged {step : State → Action → State × Option Answer}
    {observed hidden : Action → Bool} {same : State → State → Prop}
    (unwinding : Unwinding step observed hidden same) {first second : State}
    (related : same first second) (history : List Action) :
    answers step observed first history =
      answers step observed second (history.filter fun action => !hidden action) := by
  induction history generalizing first second with
  | nil => rfl
  | cons action rest inductionHypothesis =>
    cases secret : hidden action with
    | true =>
      have unseen : observed action = false := by
        by_contra seen
        rw [Bool.not_eq_false] at seen
        exact absurd (unwinding.visible action seen) (by rw [secret]; decide)
      rw [List.filter_cons_of_neg (by rw [secret]; decide), answers, unseen]
      exact inductionHypothesis (unwinding.hides first second action secret related)
    | false =>
      rw [List.filter_cons_of_pos (by rw [secret]; decide), answers, answers,
        inductionHypothesis (unwinding.keeps first second action secret related)]
      cases seen : observed action with
      | true => rw [unwinding.agrees first second action seen related]
      | false => rfl

end Noninterference
