/-
This file develops the runs of a deterministic transition system. A system is
one function from a state and a label to the next state; a run is the list of
labels taken from a start state. The rules say what a run preserves from what
one step preserves: an invariant, an invariant under a condition that every
step of the run meets at the state it is taken in, and a relation between the
start and the end of the run.
-/

import Mathlib.Order.Defs.Unbundled

namespace Transition

variable {State Label : Type*} (step : State → Label → State)

/-- The state a run of labels ends in. -/
def run (start : State) (labels : List Label) : State :=
  labels.foldl step start

/-- Every step of the run meets the condition at the state it is taken in. -/
def Along (meets : State → Label → Prop) : State → List Label → Prop
  | _, [] => True
  | state, label :: rest => meets state label ∧ Along meets (step state label) rest

/-- The property holds in the start state and in every state the run reaches. -/
def Throughout (property : State → Prop) : State → List Label → Prop
  | state, [] => property state
  | state, label :: rest => property state ∧ Throughout property (step state label) rest

/-- How many steps of the run are counted at the state they are taken in. -/
def tally (counts : State → Label → Bool) : State → List Label → Nat
  | _, [] => 0
  | state, label :: rest =>
    (if counts state label then 1 else 0) + tally counts (step state label) rest

instance decidableAlong (meets : State → Label → Prop)
    [decidable : ∀ state label, Decidable (meets state label)] :
    ∀ start labels, Decidable (Along step meets start labels)
  | _, [] => .isTrue trivial
  | start, label :: rest =>
    have := decidableAlong meets (step start label) rest
    inferInstanceAs (Decidable (meets start label ∧ Along step meets (step start label) rest))

@[simp] theorem run_nil (start : State) : run step start [] = start := rfl

@[simp] theorem run_cons (start : State) (label : Label) (rest : List Label) :
    run step start (label :: rest) = run step (step start label) rest := rfl

theorem run_append (start : State) (first second : List Label) :
    run step start (first ++ second) = run step (run step start first) second :=
  List.foldl_append

theorem along_append (meets : State → Label → Prop) (start : State)
    (first second : List Label) :
    Along step meets start (first ++ second) ↔
      Along step meets start first ∧ Along step meets (run step start first) second := by
  induction first generalizing start with
  | nil => simp only [List.nil_append, Along, run_nil, true_and]
  | cons label rest inductionHypothesis =>
    simp only [List.cons_append, Along, run_cons, inductionHypothesis, and_assoc]

/-- A condition that asks for less is met by every run that meets one asking for more. -/
theorem along_mono {weak strong : State → Label → Prop}
    (implies : ∀ state label, strong state label → weak state label) (start : State)
    (labels : List Label) (met : Along step strong start labels) :
    Along step weak start labels := by
  induction labels generalizing start with
  | nil => exact trivial
  | cons label rest inductionHypothesis =>
    exact ⟨implies start label met.1, inductionHypothesis _ met.2⟩

/-- An invariant that one step preserves whenever it meets the condition holds at the end of
every run whose steps all meet the condition. Every state a run passes through is the end of
one of its initial segments, so it holds there too. -/
theorem run_invariant (invariant : State → Prop) {meets : State → Label → Prop}
    (preserved : ∀ state label, invariant state → meets state label →
      invariant (step state label))
    (start : State) (initial : invariant start) (labels : List Label)
    (met : Along step meets start labels) : invariant (run step start labels) := by
  induction labels generalizing start with
  | nil => exact initial
  | cons label rest inductionHypothesis =>
    exact inductionHypothesis _ (preserved start label initial met.1) met.2

/-- Two conditions that agree on every step are met by the same runs. -/
theorem along_congr {first second : State → Label → Prop}
    (agree : ∀ state label, first state label ↔ second state label) (start : State)
    (labels : List Label) : Along step first start labels ↔ Along step second start labels :=
  ⟨along_mono step (fun state label => (agree state label).mp) start labels,
    along_mono step (fun state label => (agree state label).mpr) start labels⟩

/-- Where an invariant that steps meeting one condition preserve makes every step meet another one,
a run whose steps all meet the first condition meets the second. -/
theorem along_of_invariant (invariant : State → Prop) {meets implied : State → Label → Prop}
    (preserved : ∀ state label, invariant state → meets state label →
      invariant (step state label))
    (implies : ∀ state label, invariant state → meets state label → implied state label)
    (start : State) (initial : invariant start) (labels : List Label)
    (met : Along step meets start labels) : Along step implied start labels := by
  induction labels generalizing start with
  | nil => exact trivial
  | cons label rest inductionHypothesis =>
    exact ⟨implies start label initial met.1,
      inductionHypothesis _ (preserved start label initial met.1) met.2⟩

/-- A reflexive and transitive relation that holds across every step meeting the condition
holds between the start and the end of every run whose steps all meet it. -/
theorem run_relates (relates : State → State → Prop) {meets : State → Label → Prop}
    (reflexive : ∀ state, relates state state)
    (transitive : ∀ first second third, relates first second → relates second third →
      relates first third)
    (across : ∀ state label, meets state label → relates state (step state label))
    (start : State) (labels : List Label) (met : Along step meets start labels) :
    relates start (run step start labels) := by
  induction labels generalizing start with
  | nil => exact reflexive start
  | cons label rest inductionHypothesis =>
    exact transitive _ _ _ (across start label met.1) (inductionHypothesis _ met.2)

/-- The unconditional form: an invariant every step preserves holds at the end of every run. -/
theorem run_invariant_always (invariant : State → Prop)
    (preserved : ∀ state label, invariant state → invariant (step state label))
    (start : State) (initial : invariant start) (labels : List Label) :
    invariant (run step start labels) :=
  List.foldlRecOn labels step initial fun state holds label _ => preserved state label holds

/-- Where, under an invariant, one step keeps a property exactly when it meets the condition, a run
that starts with both has the property throughout exactly when all its steps meet the condition. The
invariant need only be kept as long as the property holds. -/
theorem throughout_iff_along_of_invariant (invariant : State → Prop) {property : State → Prop}
    {meets : State → Label → Prop}
    (preserved : ∀ state label, invariant state → property state → invariant (step state label))
    (kept : ∀ state label, invariant state → property state →
      (property (step state label) ↔ meets state label))
    (start : State) (initial : invariant start) (holds : property start) (labels : List Label) :
    Throughout step property start labels ↔ Along step meets start labels := by
  induction labels generalizing start with
  | nil => exact iff_of_true holds trivial
  | cons label rest inductionHypothesis =>
    have next := kept start label initial holds
    have invariantNext := preserved start label initial holds
    constructor
    · rintro ⟨-, later⟩
      have holdsNext : property (step start label) := by
        cases rest with
        | nil => exact later
        | cons _ _ => exact later.1
      exact ⟨next.mp holdsNext, (inductionHypothesis _ invariantNext holdsNext).mp later⟩
    · rintro ⟨met, later⟩
      exact ⟨holds, (inductionHypothesis _ invariantNext (next.mpr met)).mpr later⟩

/-- Where one step keeps a property exactly when it meets the condition, a run that starts with the
property has it throughout exactly when all its steps meet the condition. -/
theorem throughout_iff_along {property : State → Prop} {meets : State → Label → Prop}
    (kept : ∀ state label, property state → (property (step state label) ↔ meets state label))
    (start : State) (initial : property start) (labels : List Label) :
    Throughout step property start labels ↔ Along step meets start labels :=
  throughout_iff_along_of_invariant step (fun _ => True) (fun _ _ _ _ => trivial)
    (fun state label _ holds => kept state label holds) start trivial initial labels

theorem tally_append (counts : State → Label → Bool) (start : State) (first second : List Label) :
    tally step counts start (first ++ second) =
      tally step counts start first + tally step counts (run step start first) second := by
  induction first generalizing start with
  | nil => simp only [List.nil_append, tally, run_nil, Nat.zero_add]
  | cons label rest inductionHypothesis =>
    simp only [List.cons_append, tally, run_cons, inductionHypothesis, Nat.add_assoc]

/-- Where an invariant rules the counted steps out, a run counts none. -/
theorem tally_eq_zero (invariant : State → Prop) {counts : State → Label → Bool}
    (preserved : ∀ state label, invariant state → invariant (step state label))
    (uncounted : ∀ state label, invariant state → counts state label = false)
    (start : State) (initial : invariant start) (labels : List Label) :
    tally step counts start labels = 0 := by
  induction labels generalizing start with
  | nil => rfl
  | cons label rest inductionHypothesis =>
    rw [tally, uncounted start label initial, inductionHypothesis _ (preserved start label initial)]
    rfl

/-- A measure that every step raises by one when it is counted, and leaves alone otherwise, counts
the steps of a run. -/
theorem measure_eq_add_tally (invariant : State → Prop) (measure : State → Nat)
    {meets : State → Label → Prop} {counts : State → Label → Bool}
    (preserved : ∀ state label, invariant state → meets state label →
      invariant (step state label))
    (raises : ∀ state label, invariant state → meets state label →
      measure (step state label) = measure state + if counts state label then 1 else 0)
    (start : State) (initial : invariant start) (labels : List Label)
    (met : Along step meets start labels) :
    measure (run step start labels) = measure start + tally step counts start labels := by
  induction labels generalizing start with
  | nil => rfl
  | cons label rest inductionHypothesis =>
    rw [run_cons, inductionHypothesis _ (preserved start label initial met.1) met.2,
      raises start label initial met.1, tally, Nat.add_assoc]

/-- Where every counted step uses up what no step brings back, a run counts at most one. -/
theorem tally_le_one (invariant available : State → Prop) {counts : State → Label → Bool}
    (preserved : ∀ state label, invariant state → invariant (step state label))
    (gone : ∀ state label, invariant state → ¬available state → ¬available (step state label))
    (uses : ∀ state label, invariant state → counts state label = true →
      available state ∧ ¬available (step state label))
    (start : State) (initial : invariant start) (labels : List Label) :
    tally step counts start labels ≤ 1 := by
  induction labels generalizing start with
  | nil => exact Nat.zero_le 1
  | cons label rest inductionHypothesis =>
    have next := preserved start label initial
    unfold tally
    split
    · rename_i counted
      have none := tally_eq_zero step (fun state => invariant state ∧ ¬available state)
        (fun state label both => ⟨preserved state label both.1, gone state label both.1 both.2⟩)
        (fun state label both => Bool.eq_false_iff.mpr fun again =>
          both.2 (uses state label both.1 again).1)
        (step start label) ⟨next, (uses start label initial counted).2⟩ rest
      exact Nat.le_of_eq (by rw [none])
    · rw [Nat.zero_add]
      exact inductionHypothesis _ next

/-- A run that leaves a property, where a step can only leave it for another one, passes through
that one. -/
theorem passes_through (invariant before between : State → Prop)
    (preserved : ∀ state label, invariant state → invariant (step state label))
    (across : ∀ state label, invariant state → before state →
      before (step state label) ∨ between (step state label))
    (start : State) (initial : invariant start) (inside : before start) (labels : List Label)
    (left : ¬before (run step start labels)) :
    ∃ first second, labels = first ++ second ∧ between (run step start first) := by
  induction labels generalizing start with
  | nil => exact absurd inside left
  | cons label rest inductionHypothesis =>
    rcases across start label initial inside with stays | leaves
    · obtain ⟨first, second, split, reached⟩ :=
        inductionHypothesis _ (preserved start label initial) stays left
      exact ⟨label :: first, second, by rw [split, List.cons_append], reached⟩
    · exact ⟨[label], rest, rfl, leaves⟩

/-- Repeating a run that ends where it starts. -/
theorem tally_replicate {counts : State → Label → Bool} {start : State} {cycle : List Label}
    (closed : run step start cycle = start) (times : Nat) :
    tally step counts start (List.replicate times cycle).flatten =
      times * tally step counts start cycle := by
  induction times with
  | zero => simp [tally]
  | succ times inductionHypothesis =>
    rw [List.replicate_succ, List.flatten_cons, tally_append, closed, inductionHypothesis,
      Nat.succ_mul, Nat.add_comm]

/-- Repeating a run that ends where it starts and meets a condition. -/
theorem along_replicate {meets : State → Label → Prop} {start : State} {cycle : List Label}
    (closed : run step start cycle = start) (met : Along step meets start cycle) (times : Nat) :
    Along step meets start (List.replicate times cycle).flatten := by
  induction times with
  | zero => exact trivial
  | succ times inductionHypothesis =>
    rw [List.replicate_succ, List.flatten_cons, along_append, closed]
    exact ⟨met, inductionHypothesis⟩

end Transition
