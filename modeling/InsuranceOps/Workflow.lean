/-
This file models workflow definitions, the registry that holds them, the retry
policy with its backoff, and the result a step handler returns. A backoff
delay lies between zero and the smaller of the cap and the doubled base delay.
-/

import InsuranceOps.Json
import Mathlib.Data.List.Induction

namespace InsuranceOps

/-! ### Retry policy -/

/-- Configuration for exponential backoff with jitter. -/
structure RetryPolicy where
  baseDelayS : ℚ := 2
  capS : ℚ := 60
  jitter : String := "full"
  deriving DecidableEq

/-- A draw of `random()`, from zero to one. -/
abbrev UnitDraw := { fraction : ℚ // 0 ≤ fraction ∧ fraction ≤ 1 }

/-- The delay before jitter: `min(cap_s, base_delay_s * 2^(attempt_number - 1))`. -/
def RetryPolicy.raw (policy : RetryPolicy) (attemptNumber : Nat) : ℚ :=
  min policy.capS (policy.baseDelayS * 2 ^ ((attemptNumber : Int) - 1))

/-- Compute the backoff delay for a retry attempt; `uniform(0, raw)` is a fraction of `raw`. -/
def computeBackoffDelay (policy : RetryPolicy) (attemptNumber : Nat) (draw : UnitDraw) : ℚ :=
  if policy.jitter = "full" then draw.val * policy.raw attemptNumber
  else policy.raw attemptNumber

/-- With non-negative settings the delay lies between zero and the raw delay. -/
theorem computeBackoffDelay_mem (policy : RetryPolicy) (attemptNumber : Nat) (draw : UnitDraw)
    (base : 0 ≤ policy.baseDelayS) (cap : 0 ≤ policy.capS) :
    0 ≤ computeBackoffDelay policy attemptNumber draw ∧
      computeBackoffDelay policy attemptNumber draw ≤ policy.raw attemptNumber := by
  have raw : 0 ≤ policy.raw attemptNumber :=
    le_min cap (mul_nonneg base (zpow_nonneg (by norm_num) _))
  unfold computeBackoffDelay
  split
  · exact ⟨mul_nonneg draw.property.1 raw, mul_le_of_le_one_left raw draw.property.2⟩
  · exact ⟨raw, le_rfl⟩

/-! ### Definitions and the registry -/

/-- Definition of a single step within a workflow. -/
structure StepDefinition where
  stepName : String
  handlerName : String
  stepIndex : Int
  maxAttempts : Int := 3
  escalateOnFailure : Bool := false
  retryPolicy : RetryPolicy := {}

/-- A complete workflow definition with ordered steps. -/
structure WorkflowDefinition where
  workflowName : String
  workflowVersion : String
  steps : List StepDefinition := []
  deadlineSeconds : Int := 3600

/-- The registered definitions, in the order they were registered. -/
abbrev WorkflowRegistry := List WorkflowDefinition

/-- Look up a workflow definition by name and version. -/
def WorkflowRegistry.get (registry : WorkflowRegistry) (workflowName workflowVersion : String) :
    Option WorkflowDefinition :=
  registry.find? fun definition =>
    definition.workflowName = workflowName ∧ definition.workflowVersion = workflowVersion

/-- The latest registered version of a workflow: the first one with the highest version string. -/
def WorkflowRegistry.getLatest (registry : WorkflowRegistry) (workflowName : String) :
    Option WorkflowDefinition :=
  (registry.filter fun definition => definition.workflowName = workflowName).foldl
    (fun best definition => match best with
      | none => some definition
      | some other =>
        if other.workflowVersion < definition.workflowVersion then some definition else best)
    none

/-- Looking for the latest version among some definitions finds one. -/
theorem foldl_latest_ne_none (first : WorkflowDefinition) (rest : List WorkflowDefinition) :
    (first :: rest).foldl (fun best definition => match best with
      | none => some definition
      | some other =>
        if other.workflowVersion < definition.workflowVersion then some definition else best)
      none ≠ none := by
  rw [List.foldl_cons]
  generalize first = best
  induction rest generalizing best with
  | nil => nofun
  | cons definition rest inductionHypothesis =>
    rw [List.foldl_cons]
    dsimp only
    split
    · exact inductionHypothesis definition
    · exact inductionHypothesis best

/-- The latest version of a workflow is what its own name and version look up. -/
theorem WorkflowRegistry.get_of_getLatest {registry : WorkflowRegistry} {workflowName : String}
    {definition : WorkflowDefinition} (found : registry.getLatest workflowName = some definition) :
    registry.get workflowName definition.workflowVersion = some definition := by
  suffices first : (registry.filter fun other => other.workflowName = workflowName).find?
      (fun other => other.workflowVersion = definition.workflowVersion) = some definition by
    rw [List.find?_filter] at first
    simpa only [WorkflowRegistry.get, Bool.decide_and, Bool.decide_eq_true] using first
  unfold WorkflowRegistry.getLatest at found
  generalize registry.filter (fun other => other.workflowName = workflowName) = listed at found
  -- The best so far has no greater version before it, and is the first one with its own.
  suffices best : (∀ other ∈ listed, ¬definition.workflowVersion < other.workflowVersion) ∧
      listed.find? (fun other => other.workflowVersion = definition.workflowVersion) =
        some definition from best.2
  induction listed using List.reverseRecOn generalizing definition with
  | nil => cases found
  | append_singleton earlier last inductionHypothesis =>
    rw [List.foldl_append, List.foldl_cons, List.foldl_nil] at found
    split at found
    · rename_i unfound
      cases found
      cases earlier with
      | nil =>
        refine ⟨fun other member => ?_, List.find?_cons_of_pos (decide_eq_true rfl)⟩
        rw [List.mem_singleton.mp member]
        exact String.lt_irrefl _
      | cons first rest =>
        exact absurd unfound (foldl_latest_ne_none first rest)
    · rename_i other sofar
      obtain ⟨greatest, first⟩ := inductionHypothesis sofar
      split at found
      · rename_i later
        cases found
        refine ⟨fun candidate member smaller => ?_, ?_⟩
        · rcases List.mem_append.mp member with old | new
          · exact greatest candidate old (String.lt_trans later smaller)
          · rw [List.mem_singleton.mp new] at smaller
            exact String.lt_irrefl _ smaller
        · rw [List.find?_append, List.find?_eq_none.mpr, Option.none_or,
            List.find?_cons_of_pos (by simp)]
          intro candidate member
          simp only [decide_eq_true_eq]
          intro same
          exact greatest candidate member (same ▸ later)
      · rename_i notLater
        obtain rfl : other = definition := Option.some.inj (sofar.symm.trans found)
        refine ⟨fun candidate member => ?_, ?_⟩
        · rcases List.mem_append.mp member with old | new
          · exact greatest candidate old
          · rw [List.mem_singleton.mp new]
            exact notLater
        · rw [List.find?_append, first, Option.some_or]

/-- The handler a definition names for a step; without a definition, the step's own name. -/
def handlerNameFor (definition : Option WorkflowDefinition) (stepName : String) : String :=
  match definition.bind fun found => found.steps.find? fun step => step.stepName = stepName with
  | some step => step.handlerName
  | none => stepName

/-! ### Step results -/

/-- Outcome of a step execution. -/
inductive StepStatus where
  | succeeded
  | failedRetryable
  | failedTerminal
  | escalate
  deriving DecidableEq

/-- Result returned by a step handler. -/
structure StepResult where
  status : StepStatus
  output : Option JsonObject := none
  errorCode : Option String := none
  errorDetail : Option String := none

/-- The error code of a failure; an empty code counts as none, as `or` has it. -/
def StepResult.reasonCode (result : StepResult) (otherwise : String) : String :=
  match result.errorCode with
  | some "" | none => otherwise
  | some code => code

/-! ### The registered workflow -/

/-- The definition registered at import time. -/
def claimIntakeV1 : WorkflowDefinition where
  workflowName := "claim_intake"
  workflowVersion := "v1"
  deadlineSeconds := 3600
  steps := [
    { stepName := "ingest", handlerName := "ingest", stepIndex := 0, maxAttempts := 1 },
    { stepName := "extract", handlerName := "extract", stepIndex := 1, maxAttempts := 3,
      escalateOnFailure := true, retryPolicy := { capS := 30 } },
    { stepName := "validate", handlerName := "validate", stepIndex := 2, maxAttempts := 1,
      escalateOnFailure := true },
    { stepName := "route", handlerName := "route", stepIndex := 3, maxAttempts := 2 },
    { stepName := "complete", handlerName := "complete", stepIndex := 4, maxAttempts := 1 }]

end InsuranceOps
