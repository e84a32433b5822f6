/-
This file develops computations that may fail: what it means for a sequence of
them to succeed or to fail, and for a loop of them over a list.
-/

import Mathlib.Logic.Basic

namespace Fallible

variable {Error State Input Output : Type}

/-- A sequence succeeds when its first part does and the rest does on its result. -/
theorem bind_eq_ok {first : Except Error State} {rest : State → Except Error Output}
    {output : Output} :
    first >>= rest = .ok output ↔ ∃ state, first = .ok state ∧ rest state = .ok output := by
  cases first with
  | error failure =>
    constructor
    · intro equal
      cases equal
    · rintro ⟨_, equal, _⟩
      cases equal
  | ok state =>
    constructor
    · exact fun equal => ⟨state, rfl, equal⟩
    · rintro ⟨_, same, equal⟩
      cases same
      exact equal

/-- A sequence fails when its first part does or the rest does on its result. -/
theorem bind_eq_error {first : Except Error State} {rest : State → Except Error Output}
    {failure : Error} :
    first >>= rest = .error failure ↔
      first = .error failure ∨ ∃ state, first = .ok state ∧ rest state = .error failure := by
  cases first with
  | error other =>
    constructor
    · intro equal
      cases equal
      exact .inl rfl
    · rintro (equal | ⟨_, equal, _⟩)
      · cases equal
        rfl
      · cases equal
  | ok state =>
    constructor
    · exact fun equal => .inr ⟨state, rfl, equal⟩
    · rintro (equal | ⟨_, same, equal⟩)
      · cases equal
      · cases same
        exact equal

/-- A successful loop carries a relation between the inputs done so far and the state reached. -/
theorem foldlM_ok {step : State → Input → Except Error State}
    (reached : List Input → State → Prop)
    (extended : ∀ done state input next, reached done state → step state input = .ok next →
      reached (done ++ [input]) next)
    {inputs : List Input} {start last : State} (initial : reached [] start)
    (looped : inputs.foldlM step start = .ok last) : reached inputs last := by
  have general (done : List Input) (state : State) (holds : reached done state)
      (rest : List Input) (ran : rest.foldlM step state = .ok last) :
      reached (done ++ rest) last := by
    induction rest generalizing done state with
    | nil =>
      cases ran
      rw [List.append_nil]
      exact holds
    | cons input rest inductionHypothesis =>
      obtain ⟨next, stepped, remaining⟩ := bind_eq_ok.mp ran
      have shifted := inductionHypothesis _ next (extended done state input next holds stepped)
        remaining
      rwa [List.append_assoc, List.singleton_append] at shifted
  exact general [] start initial inputs looped

/-- A failed loop failed at one input, after the ones before it succeeded. -/
theorem foldlM_error {step : State → Input → Except Error State} {inputs : List Input}
    {start : State} {failure : Error} (looped : inputs.foldlM step start = .error failure) :
    ∃ before input after state, inputs = before ++ input :: after ∧
      before.foldlM step start = .ok state ∧ step state input = .error failure := by
  induction inputs generalizing start with
  | nil => cases looped
  | cons input rest inductionHypothesis =>
    rcases bind_eq_error.mp looped with failed | ⟨next, stepped, remaining⟩
    · exact ⟨[], input, rest, start, rfl, rfl, failed⟩
    · obtain ⟨before, other, after, state, rfl, ran, failed⟩ := inductionHypothesis remaining
      exact ⟨input :: before, other, after, state, rfl, bind_eq_ok.mpr ⟨next, stepped, ran⟩, failed⟩

/-! ### Loops that succeed -/

/-- What was written item by item is read back item by item. -/
theorem mapM_map_ok {read : Output → Except Error Input} {write : Input → Output}
    (written : ∀ input, read (write input) = .ok input) (inputs : List Input) :
    (inputs.map write).mapM read = .ok inputs := by
  induction inputs with
  | nil => rfl
  | cons input rest inductionHypothesis =>
    rw [List.map_cons, List.mapM_cons, written, inductionHypothesis]
    rfl

/-- A loop that takes in the output of each input ends where the loop over the outputs ends. -/
theorem foldlM_of_mapM {process : Input → Except Error Output} {inputs : List Input}
    {outputs : List Output} (processed : inputs.mapM process = .ok outputs)
    (add : State → Output → State) (start : State) :
    inputs.foldlM (fun state input => do
      let output ← process input
      return add state output) start = .ok (outputs.foldl add start) := by
  induction inputs generalizing outputs start with
  | nil =>
    cases processed
    rfl
  | cons input rest inductionHypothesis =>
    rw [List.mapM_cons] at processed
    obtain ⟨output, first, processed⟩ := bind_eq_ok.mp processed
    obtain ⟨others, remaining, same⟩ := bind_eq_ok.mp processed
    cases same
    rw [List.foldlM_cons, first]
    exact inductionHypothesis remaining (add start output)

/-! ### Failures a computation avoids -/

/-- The computation does not fail with a failure of the given kind. -/
def Avoids (bad : Error → Prop) (computation : Except Error State) : Prop :=
  ∀ failure, computation = .error failure → ¬bad failure

theorem avoids_ok (bad : Error → Prop) (state : State) :
    Avoids bad (.ok state : Except Error State) := by
  intro failure failed
  cases failed

theorem avoids_error {bad : Error → Prop} {failure : Error} (good : ¬bad failure) :
    Avoids bad (.error failure : Except Error State) := by
  intro other failed
  cases failed
  exact good

/-- A computation that avoids every failure succeeds. -/
theorem exists_ok_of_avoids {computation : Except Error State}
    (never : Avoids (fun _ => True) computation) : ∃ state, computation = .ok state := by
  cases computation with
  | error failure => exact absurd trivial (never failure rfl)
  | ok state => exact ⟨state, rfl⟩

/-- A sequence avoids what its first part avoids and the rest avoids on its result. -/
theorem avoids_bind {bad : Error → Prop} {first : Except Error State}
    {rest : State → Except Error Output} (firstAvoids : Avoids bad first)
    (restAvoids : ∀ state, first = .ok state → Avoids bad (rest state)) :
    Avoids bad (first >>= rest) := by
  intro failure failed
  rcases bind_eq_error.mp failed with firstFailed | ⟨state, succeeded, restFailed⟩
  · exact firstAvoids failure firstFailed
  · exact restAvoids state succeeded failure restFailed

/-- A loop avoids what each step avoids in the state the earlier inputs lead to. -/
theorem avoids_foldlM {bad : Error → Prop} {step : State → Input → Except Error State}
    {inputs : List Input} {start : State}
    (stepAvoids : ∀ before input after state, inputs = before ++ input :: after →
      before.foldlM step start = .ok state → Avoids bad (step state input)) :
    Avoids bad (inputs.foldlM step start) := by
  intro failure failed
  obtain ⟨before, input, after, state, split, ran, stepFailed⟩ := foldlM_error failed
  exact stepAvoids before input after state split ran failure stepFailed

end Fallible
