/-
This file asks whether what a human decides about a case reaches the steps that
follow. The later steps read the outputs of the succeeded attempts before them.
Both ways of resolving a case keep the answer in the case and add an attempt
without an output, and the worker stores no output either: where every attempt
has an output only if one of its step had it before, no attempt of the platform
ever has one, and a later step reads nothing.
-/

import InsuranceOps.FinishedRuns
import InsuranceOps.Outcomes

namespace InsuranceOps

open Relational WorkflowOrchestrator

/-! ### What a resolution should hand on -/

/-- An output is an object with the fields of an override. -/
def Json.HoldsFields (override : JsonObject) : Json → Prop
  | .object fields => ∀ entry ∈ override, JsonObject.get? fields entry.1 = some entry.2
  | _ => False

/-- A resolved case gives an override: the route stores it under `override`, the orchestrator stores
the payload it is given. -/
def EscalationCaseModel.Gives (row : EscalationCaseModel) (override : JsonObject) : Prop :=
  row.state = .resolved ∧ override ≠ [] ∧ ∃ payload ∈ row.resolutionPayload,
    payload = override ∨ JsonObject.get? payload "override" = some (.object override)

instance (row : EscalationCaseModel) (override : JsonObject) : Decidable (row.Gives override) :=
  inferInstanceAs (Decidable (_ ∧ _ ∧ _))

/-- A later step reads an output of the step that holds the fields of the override. -/
def OverrideReaches (loads : String → Option Json) (db : Database) (step later : StepModel)
    (override : JsonObject) : Prop :=
  ∃ output, (loadPreviousOutputs loads db step.workflowRunId later.stepName).get? step.stepName =
    some output ∧ output.HoldsFields override

/-- Every override of a resolved case reaches every later step of the run. -/
def OverridesReach (loads : String → Option Json) (db : Database) : Prop :=
  ∀ row ∈ db.contents.escalationCases, ∀ override, row.Gives override →
    ∀ step ∈ db.contents.steps, step.stepId = row.stepId →
      ∀ later ∈ db.contents.stepsOf step.workflowRunId, step.stepIndex < later.stepIndex →
        OverrideReaches loads db step later override

/-! ### Outputs come from outputs -/

/-- Every later attempt has no output, or one that an earlier attempt of its step had. -/
def InheritsOutputs (before after : Contents) : Prop :=
  ∀ attempt ∈ after.stepAttempts, attempt.outputRef = none ∨
    ∃ old ∈ before.stepAttempts, old.stepId = attempt.stepId ∧ old.outputRef = attempt.outputRef

namespace InheritsOutputs

variable {before middle after : Contents}

theorem of_same (same : after.stepAttempts = before.stepAttempts) :
    InheritsOutputs before after :=
  fun attempt stored => .inr ⟨attempt, same ▸ stored, rfl, rfl⟩

theorem refl (contents : Contents) : InheritsOutputs contents contents := of_same rfl

theorem trans (first : InheritsOutputs before middle) (second : InheritsOutputs middle after) :
    InheritsOutputs before after := by
  intro attempt stored
  rcases second attempt stored with none | ⟨between, betweenStored, sameStep, sameOutput⟩
  · exact .inl none
  rcases first between betweenStored with none | ⟨old, oldStored, oldStep, oldOutput⟩
  · exact .inl (sameOutput.symm.trans none)
  · exact .inr ⟨old, oldStored, oldStep.trans sameStep, oldOutput.trans sameOutput⟩

/-- A new attempt has no output. -/
theorem of_append {attempt : StepAttemptModel} (empty : attempt.outputRef = none)
    (appended : after.stepAttempts = before.stepAttempts ++ [attempt]) :
    InheritsOutputs before after := by
  intro other stored
  rw [appended] at stored
  rcases List.mem_append.mp stored with old | new
  · exact .inr ⟨other, old, rfl, rfl⟩
  · rw [List.mem_singleton.mp new]
    exact .inl empty

/-- A change of attempts that keeps an output or clears it. -/
theorem of_update {selects : StepAttemptModel → Bool}
    (change : StepAttemptModel → StepAttemptModel)
    (keeps : ∀ row, (change row).stepId = row.stepId)
    (clears : ∀ row, (change row).outputRef = none ∨ (change row).outputRef = row.outputRef)
    (updated : after.stepAttempts = updateRows selects change before.stepAttempts) :
    InheritsOutputs before after := by
  intro attempt stored
  rw [updated] at stored
  obtain ⟨old, oldStored, rfl⟩ := mem_updateRows.mp stored
  by_cases selected : selects old = true
  · rw [if_pos selected]
    exact (clears old).imp_right fun same => ⟨old, oldStored, (keeps old).symm, same.symm⟩
  · rw [if_neg selected]
    exact .inr ⟨old, oldStored, rfl, rfl⟩

end InheritsOutputs

/-! ### The orchestrator and the routes -/

section Operations

variable {registry : WorkflowRegistry} {db next : Database} {draws : Draws}
  {state : WorkflowRunState} {run : WorkflowRunModel} {steps : List StepModel}
  {currentStep : StepModel} {stepResult : StepResult} {reasonCode : String} {now : Timestamp}
  {newId : UUID} {random : UnitDraw} {event : EventDraw} {principal : ApiKeyPrincipal}

theorem started_inherits {new : NewRun} (started : Started db next new) :
    InheritsOutputs db.contents next.contents := by
  obtain ⟨_, _, _, attempt⟩ := started.attempt
  exact .of_append (by rw [attempt]; rfl) (congrArg Contents.stepAttempts started.contents)

theorem handleSucceeded_inherits
    (ran : handleSucceeded registry db run steps currentStep now newId event = .ok (next, state)) :
    InheritsOutputs db.contents next.contents := by
  rcases handleSucceeded_ok ran with ⟨-, -, contents⟩ | ⟨successor, -, -, -, contents⟩
  · exact .of_same (by rw [contents])
  · exact .of_append rfl (by rw [contents])

theorem handleFailedTerminal_inherits
    (ran : handleFailedTerminal db run currentStep stepResult now newId event =
      .ok (next, state)) : InheritsOutputs db.contents next.contents := by
  rcases handleFailedTerminal_ok ran with ⟨-, created⟩ | ⟨-, -, contents⟩
  · obtain ⟨-, -, contents⟩ := createEscalation_ok created
    exact .of_same (by rw [contents]; rfl)
  · exact .of_same (by rw [contents])

theorem advanceWorkflow_inherits {workflowRunId : UUID} {completedStepName : String}
    (ran : advanceWorkflow registry db draws workflowRunId completedStepName stepResult =
      .ok (next, state)) : InheritsOutputs db.contents next.contents := by
  obtain ⟨run, currentStep, -, -, handled⟩ := advanceWorkflow_ok ran
  cases status : stepResult.status with
  | succeeded =>
    rw [status] at handled
    exact handleSucceeded_inherits handled
  | failedRetryable =>
    rw [status] at handled
    rcases handleFailedRetryable_ok handled with ⟨-, -, -, contents⟩ | ⟨-, failed⟩
    · exact .of_append rfl (by rw [contents])
    · exact handleFailedTerminal_inherits failed
  | failedTerminal =>
    rw [status] at handled
    exact handleFailedTerminal_inherits handled
  | escalate =>
    rw [status] at handled
    obtain ⟨-, -, contents⟩ := createEscalation_ok handled
    exact .of_same (by rw [contents])

/-- Resuming adds a human attempt, and no output with it. -/
theorem resumeAfterEscalation_inherits {escalationId : UUID} {resolutionPayload : JsonObject}
    {actor : String}
    (ran : resumeAfterEscalation registry db draws escalationId resolutionPayload actor =
      .ok (next, state)) : InheritsOutputs db.contents next.contents := by
  obtain ⟨_, currentStep, _, -, -, -, -, resumed, contents, handled⟩ := resumeAfterEscalation_ok ran
  have human : InheritsOutputs db.contents resumed.contents :=
    .of_append rfl (by rw [contents])
  exact human.trans (handleSucceeded_inherits handled)

theorem OrchestratorCall.inherits {call : OrchestratorCall}
    (ran : call.perform registry db draws = .ok next) :
    InheritsOutputs db.contents next.contents := by
  cases call with
  | startWorkflowRun workflowName workflowVersion documentIds actor correlationId deadline =>
    obtain ⟨_, ran⟩ := OrchestratorCall.perform_start ran
    obtain ⟨new, started, -⟩ := startWorkflowRun_ok ran
    exact started_inherits started
  | advanceWorkflow workflowRunId completedStepName stepResult =>
    obtain ⟨_, ran⟩ := OrchestratorCall.perform_advance ran
    exact advanceWorkflow_inherits ran
  | resumeAfterEscalation escalationId resolutionPayload actor =>
    obtain ⟨_, ran⟩ := OrchestratorCall.perform_resume ran
    exact resumeAfterEscalation_inherits ran
  | cancelWorkflow workflowRunId actor reason =>
    obtain ⟨_, -, -, contents⟩ := cancelWorkflow_ok ran
    exact .of_same (by rw [contents])

theorem RouteRequest.inherits {request : RouteRequest}
    (ran : request.perform registry db draws principal = .ok next) :
    InheritsOutputs db.contents next.contents := by
  cases request with
  | createWorkflowRun body =>
    obtain ⟨_, ran⟩ := RouteRequest.perform_create ran
    obtain ⟨new, started, -⟩ := createWorkflowRun_ok ran
    exact started_inherits started
  | cancelWorkflowRun workflowRunId body =>
    obtain ⟨_, _, -, -, contents⟩ := cancelWorkflowRun_ok ran
    exact .of_same (by rw [contents])
  | claimEscalation escalationId =>
    obtain ⟨_, _, -, -, contents⟩ := claimEscalation_ok ran
    exact .of_same (by rw [contents])
  | resolveEscalation escalationId body =>
    obtain ⟨_, _, _, -, -, -, contents⟩ := resolveEscalation_ok ran
    exact .of_append rfl (by rw [contents])
  | rejectEscalation escalationId body =>
    obtain ⟨_, _, _, -, -, contents⟩ := rejectEscalation_ok ran
    exact .of_same (by rw [contents])

end Operations

/-! ### The worker -/

section Worker

variable {loads : String → Option Json} {handle : String → StepContext → HandlerReturn}

/-- An outcome clears the output of its attempt or leaves it alone. -/
theorem TaskOutcome.attemptChange_outputRef {outcome : TaskOutcome} {now : Timestamp}
    {change : StepAttemptModel → StepAttemptModel}
    (written : outcome.attemptChange now = some change) (row : StepAttemptModel) :
    (change row).stepId = row.stepId ∧
      ((change row).outputRef = none ∨ (change row).outputRef = row.outputRef) := by
  cases outcome with
  | success output =>
    cases output with
    | none => cases written; exact ⟨rfl, .inl rfl⟩
    | some _ => cases written
  | failRetryable errorCode errorDetail => cases written; exact ⟨rfl, .inr rfl⟩
  | failTerminal errorCode errorDetail => cases written; exact ⟨rfl, .inr rfl⟩

theorem committed_inherits (db : Database) (draws : Draws) (workerId : String)
    (payload : JsonObject) :
    InheritsOutputs db.contents
      (committed db (processTask loads handle db draws workerId payload)).contents := by
  cases processed : processTask loads handle db draws workerId payload with
  | error failure => exact .refl _
  | ok disposition =>
    cases disposition with
    | deadLetter => exact .refl _
    | alreadyTerminal => exact .refl _
    | written flushed =>
      obtain ⟨rows, outcome, -, -, -, written⟩ := processTask_steps processed
      obtain ⟨change, changes, contents⟩ := writeOutcome_contents written
      have begun : InheritsOutputs db.contents (db.updateStepAttempt rows.attempt.stepAttemptId
          (StepAttemptModel.begin (draws.now 0))).contents :=
        .of_update (StepAttemptModel.begin (draws.now 0)) (fun _ => rfl) (fun _ => .inr rfl) rfl
      show InheritsOutputs db.contents flushed.contents
      exact begun.trans (.of_update change
        (fun row => (TaskOutcome.attemptChange_outputRef changes row).1)
        (fun row => (TaskOutcome.attemptChange_outputRef changes row).2)
        (by rw [contents]))

theorem workerIteration_inherits (draws : Draws) (workerId : String) (db : Database)
    (queue : TaskQueue) : InheritsOutputs db.contents
      (workerIteration loads handle draws workerId db queue).1.contents := by
  cases claim : queue.claim workerId with
  | none =>
    unfold workerIteration
    rw [claim]
    exact .refl _
  | some claimed =>
    rw [workerIteration_some claim, settle_fst]
    exact committed_inherits db draws workerId claimed.1

end Worker

/-! ### Runs of the platform -/

variable (registry : WorkflowRegistry) (loads : String → Option Json)

theorem commit_inherits {db : Database} {flushed : Except Failure Database}
    (inherits : ∀ next, flushed = .ok next → InheritsOutputs db.contents next.contents) :
    InheritsOutputs db.contents (commit db flushed).contents :=
  commit_induction (fun next => InheritsOutputs db.contents next.contents) (.refl _) inherits

/-- No event of the platform stores an output. -/
theorem SystemEvent.step_inherits (platform : Platform) (event : SystemEvent) :
    InheritsOutputs platform.db.contents
      (SystemEvent.step registry loads platform event).db.contents := by
  cases event with
  | platform event =>
    cases event with
    | request made principal draws =>
      exact commit_inherits fun next ran => RouteRequest.inherits ran
    | relay draws =>
      have same : (relayBatch draws platform.db platform.queue).1.contents.stepAttempts =
          platform.db.contents.stepAttempts := by
        rw [(relayBatch_handedOver draws platform.queue platform.db).contents]
      exact .of_same same
    | schedule acquired now => exact .refl _
    | work workerId returned draws => exact workerIteration_inherits draws workerId _ _
    | reap visibilityTimeout now workerIds => exact .refl _
  | call made draws => exact commit_inherits fun next ran => OrchestratorCall.inherits ran
  | reap workerId target payload => exact .refl _
  | requeueFromDlq payload =>
    by_cases held : payload ∈ platform.queue.lists .dlq
    · rw [SystemEvent.step, if_pos held]
      exact .refl _
    · rw [SystemEvent.step, if_neg held]
      exact .refl _
  | dropFromDlq payload => exact .refl _

theorem run_inherits (start : Platform) (events : List SystemEvent) :
    InheritsOutputs start.db.contents
      (Transition.run (SystemEvent.step registry loads) start events).db.contents :=
  Transition.run_invariant_always (SystemEvent.step registry loads)
    (fun platform => InheritsOutputs start.db.contents platform.db.contents)
    (fun platform event inherited => inherited.trans
      (SystemEvent.step_inherits registry loads platform event)) start (.refl _) events

/-- Where no attempt has an output, no step reads one. -/
theorem loadPreviousOutputs_nil {db : Database}
    (empty : ∀ attempt ∈ db.contents.stepAttempts, attempt.outputRef = none)
    (workflowRunId : UUID) (stepName : String) :
    loadPreviousOutputs loads db workflowRunId stepName = [] := by
  have unread (stepId : UUID) : outputOf loads db stepId = none := by
    unfold outputOf
    split
    · rfl
    · rename_i attempt found
      have stored := List.mem_of_find?_eq_some found
      rw [Database.listAttempts_eq, List.mem_insertionSort, List.mem_filter] at stored
      rw [empty attempt stored.1]
      rfl
  unfold loadPreviousOutputs
  split
  · rfl
  · simp only [unread]
    exact List.foldl_fixed _

/-- Where no attempt has an output, no override reaches a later step. -/
theorem not_overrideReaches {db : Database}
    (empty : ∀ attempt ∈ db.contents.stepAttempts, attempt.outputRef = none)
    (step later : StepModel) (override : JsonObject) :
    ¬OverrideReaches loads db step later override := by
  rintro ⟨output, read, -⟩
  rw [loadPreviousOutputs_nil loads empty] at read
  cases read

/-- In every state of the platform, no override of a resolved case reaches a later step of the run.
Later steps read the outputs of attempts, and no event gives an attempt an output unless another one
of its step had it before. -/
theorem override_never_reaches (documents : List UUID) (events : List SystemEvent) :
    let db := (Transition.run (SystemEvent.step registry loads) (.empty documents) events).db
    ∀ row ∈ db.contents.escalationCases, ∀ override, row.Gives override →
      ∀ step ∈ db.contents.steps, step.stepId = row.stepId →
        ∀ later ∈ db.contents.stepsOf step.workflowRunId, step.stepIndex < later.stepIndex →
          ¬OverrideReaches loads db step later override := by
  intro db row _ override _ step _ _ later _ _
  refine not_overrideReaches loads (fun attempt stored => ?_) step later override
  rcases run_inherits registry loads (.empty documents) events attempt stored with
    none | ⟨old, oldStored, -⟩
  · exact none
  · exact absurd oldStored List.not_mem_nil

/-! ### An override that is lost -/

/-- The second step of a run fails terminally, and an operator claims its case. -/
def extractClaimed : List SystemEvent := [
  .call (.startWorkflowRun "claim_intake" "v1" [] "api" "c" none) (numberedDraws 1),
  .call (.advanceWorkflow 100 "ingest" { status := .succeeded }) (numberedDraws 2),
  .call (.advanceWorkflow 100 "extract" { status := .failedTerminal }) (numberedDraws 3),
  .platform (.request (.claimEscalation 300) ⟨"key", "operator", "label"⟩ (numberedDraws 4))]

/-- The value the operator puts in place of the extracted one. -/
def policyNumber : JsonObject := [("policy_number", .string "P-1")]

/-- The operator resolves the case through the route. -/
def routeResolves : SystemEvent :=
  .platform (.request (.resolveEscalation 300 { override := some policyNumber, notes := "" })
    ⟨"key", "operator", "label"⟩ (numberedDraws 5))

/-- The case is resolved through the orchestrator. -/
def orchestratorResumes : SystemEvent :=
  .call (.resumeAfterEscalation 300 policyNumber "api_key:operator:key") (numberedDraws 5)

def resolvedBy (event : SystemEvent) : Database :=
  (Transition.run (SystemEvent.step [claimIntakeV1] fun _ => none) (.empty [])
    (extractClaimed ++ [event])).db

/-- A case is resolved with the override, and a step follows its step. -/
def GivesOverride (db : Database) : Prop :=
  ∃ row ∈ db.contents.escalationCases, row.Gives policyNumber ∧ ∃ step ∈ db.contents.steps,
    step.stepId = row.stepId ∧ ∃ later ∈ db.contents.stepsOf step.workflowRunId,
      step.stepIndex < later.stepIndex

instance (db : Database) : Decidable (GivesOverride db) :=
  inferInstanceAs (Decidable (∃ row ∈ db.contents.escalationCases, _))

/-- A case is resolved with the override, and a step that follows its step does not read it. -/
def LosesOverride (db : Database) : Prop :=
  ∃ row ∈ db.contents.escalationCases, row.Gives policyNumber ∧ ∃ step ∈ db.contents.steps,
    step.stepId = row.stepId ∧ ∃ later ∈ db.contents.stepsOf step.workflowRunId,
      step.stepIndex < later.stepIndex ∧
        ¬OverrideReaches (fun _ => none) db step later policyNumber

theorem override_never_reaches_extract :
    LosesOverride (resolvedBy routeResolves) ∧ LosesOverride (resolvedBy orchestratorResumes) := by
  obtain ⟨routed, resumed⟩ : GivesOverride (resolvedBy routeResolves) ∧
      GivesOverride (resolvedBy orchestratorResumes) := by decide +kernel
  obtain ⟨row, stored, gives, step, stepStored, same, later, laterStored, behind⟩ := routed
  obtain ⟨other, otherStored, otherGives, otherStep, otherStepStored, otherSame, otherLater,
    otherLaterStored, otherBehind⟩ := resumed
  exact ⟨⟨row, stored, gives, step, stepStored, same, later, laterStored, behind,
    override_never_reaches [claimIntakeV1] (fun _ => none) [] (extractClaimed ++ [routeResolves])
      row stored _ gives step stepStored same later laterStored behind⟩,
    other, otherStored, otherGives, otherStep, otherStepStored, otherSame, otherLater,
    otherLaterStored, otherBehind,
    override_never_reaches [claimIntakeV1] (fun _ => none) []
      (extractClaimed ++ [orchestratorResumes]) other otherStored _ otherGives otherStep
      otherStepStored otherSame otherLater otherLaterStored otherBehind⟩

/-- The states of the steps, the attempts with their outputs, and what `validate` reads. -/
def validateReads (db : Database) :
    List StepState × List (StepState × Option String) × JsonObject :=
  (db.contents.steps.map fun step => step.state,
    db.contents.stepAttempts.map fun attempt => (attempt.state, attempt.outputRef),
    loadPreviousOutputs (fun _ => none) db 100 "validate")

/-- After the route the step is still failed, after the orchestrator it has succeeded; either way
the human attempt has no output and `validate` reads nothing. -/
theorem override_lost :
    validateReads (resolvedBy routeResolves) =
      ([.succeeded, .failedTerminal, .queued, .queued, .queued],
        [(.queued, none), (.queued, none), (.succeeded, none)], []) ∧
    validateReads (resolvedBy orchestratorResumes) =
      ([.succeeded, .succeeded, .queued, .queued, .queued],
        [(.queued, none), (.queued, none), (.succeeded, none), (.queued, none)], []) ∧
    ¬OverridesReach (fun _ => none) (resolvedBy routeResolves) ∧
    ¬OverridesReach (fun _ => none) (resolvedBy orchestratorResumes) := by
  have lost {event : SystemEvent} (given : GivesOverride (resolvedBy event) ∧
      ∀ attempt ∈ (resolvedBy event).contents.stepAttempts, attempt.outputRef = none) :
      ¬OverridesReach (fun _ => none) (resolvedBy event) := by
    obtain ⟨⟨row, stored, gives, step, stepStored, same, later, laterStored, behind⟩, empty⟩ :=
      given
    intro reach
    exact not_overrideReaches _ empty step later policyNumber
      (reach row stored _ gives step stepStored same later laterStored behind)
  refine And.imp_right (And.imp_right (And.imp lost lost)) ?_
  decide +kernel

end InsuranceOps
