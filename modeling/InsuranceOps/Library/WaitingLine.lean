/-
This file develops waiting lines in a transition system. A line is read off the
state; a step takes items from its front and puts items behind its end. What
the steps of a run take from the line, in their order, and what waits in the
end is then what waited at the start followed by what came in since: nothing
overtakes, nothing is taken twice and nothing is dropped. A step that serves
the line takes as many items as it can, so a line is served in the order in
which it waits.
-/

import InsuranceOps.Library.Transition
import Mathlib.Data.List.Infix

namespace Transition

variable {State Label Item : Type*} (step : State → Label → State)

/-- What the steps of a run give, in their order, each at the state it is taken in. -/
def collect (gives : State → Label → List Item) : State → List Label → List Item
  | _, [] => []
  | state, label :: rest => gives state label ++ collect gives (step state label) rest

variable {line : State → List Item} {joins leaves : State → Label → List Item}
  {meets : State → Label → Prop} {serves : State → Label → Bool} {size : Nat}

/-- A condition that every step meets in every state is met by every run. -/
theorem along_of_always (always : ∀ state label, meets state label) (start : State)
    (labels : List Label) : Along step meets start labels := by
  induction labels generalizing start with
  | nil => exact trivial
  | cons label rest inductionHypothesis =>
    exact ⟨always start label, inductionHypothesis (step start label)⟩

/-- Where every step takes items from the front of a line and puts items behind its end, the items
taken by a run and those still waiting are the ones that waited and the ones that came in, in
order. -/
theorem collect_in_order (invariant : State → Prop)
    (preserved : ∀ state label, invariant state → meets state label →
      invariant (step state label))
    (balanced : ∀ state label, invariant state → meets state label →
      line state ++ joins state label = leaves state label ++ line (step state label))
    (start : State) (initial : invariant start) (labels : List Label)
    (met : Along step meets start labels) :
    line start ++ collect step joins start labels =
      collect step leaves start labels ++ line (run step start labels) := by
  induction labels generalizing start with
  | nil => exact List.append_nil _
  | cons label rest inductionHypothesis =>
    have later := inductionHypothesis _ (preserved start label initial met.1) met.2
    calc line start ++ (joins start label ++ collect step joins (step start label) rest)
        = leaves start label ++
            (line (step start label) ++ collect step joins (step start label) rest) := by
          rw [← List.append_assoc, balanced start label initial met.1, List.append_assoc]
      _ = leaves start label ++ collect step leaves (step start label) rest ++
            line (run step (step start label) rest) := by
          rw [later, List.append_assoc]

/-- A line whose serving steps take a number of items each, or all there are, is served in the
order in which it waits. -/
theorem take_prefix_collect (invariant : State → Prop)
    (preserved : ∀ state label, invariant state → meets state label →
      invariant (step state label))
    (balanced : ∀ state label, invariant state → meets state label →
      line state ++ joins state label = leaves state label ++ line (step state label))
    (served : ∀ state label, invariant state → meets state label →
      leaves state label = if serves state label then (line state).take size else [])
    (start : State) (initial : invariant start) (labels : List Label)
    (met : Along step meets start labels) :
    (line start).take (size * tally step serves start labels) <+:
      collect step leaves start labels := by
  induction labels generalizing start with
  | nil => exact List.nil_prefix
  | cons label rest inductionHypothesis =>
    have later := inductionHypothesis _ (preserved start label initial met.1) met.2
    have here := balanced start label initial met.1
    rw [collect, tally]
    rw [served start label initial met.1] at here ⊢
    split at here
    · rename_i serving
      have waiting : line (step start label) = (line start).drop size ++ joins start label := by
        refine List.append_cancel_left (here.symm.trans ?_)
        rw [← List.append_assoc, List.take_append_drop]
      have front : ((line start).drop size).take (size * tally step serves (step start label) rest)
          <+: collect step leaves (step start label) rest := by
        rw [waiting] at later
        exact (List.IsPrefix.take (List.prefix_append _ _) _).trans later
      rw [if_pos serving, if_pos serving, Nat.mul_add, Nat.mul_one, List.take_add]
      exact List.prefix_append_right_inj _ |>.mpr front
    · rename_i idle
      rw [if_neg idle, if_neg idle, Nat.zero_add, List.nil_append]
      rw [← List.nil_append (line (step start label)), ← here] at later
      exact (List.IsPrefix.take (List.prefix_append _ _) _).trans later

end Transition
