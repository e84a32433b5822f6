/-
This file models the workflow orchestrator: starting a run, advancing it on a
step's result, resuming it after a human resolution and cancelling it. Each
operation reads the database, writes several tables in one transaction and
either commits all of it or, when a statement is refused or an error raised,
leaves nothing behind.
-/

import InsuranceOps.Models

namespace InsuranceOps

/-- What one call draws from its surroundings: successive readings of the clock, successive
`uuid4()` and `uuid7()` identifiers, and one draw of `random()`. -/
structure Draws where
  now : Nat → Timestamp
  uuid4 : Nat → UUID
  uuid7 : Nat → UUID
  random : UnitDraw

/-- The draw of an audit event: its identifier and its reading of the clock. -/
def Draws.event (draws : Draws) (index reading : Nat) : EventDraw :=
  ⟨draws.uuid7 index, draws.now reading⟩

/-- A row that was looked up, or the error raised when it is missing. -/
def orRaise {Found : Type} (found : Option Found) (failure : Failure) : Except Failure Found :=
  match found with
  | some row => .ok row
  | none => .error failure

theorem orRaise_ok {Found : Type} {found : Option Found} {failure : Failure} {row : Found} :
    orRaise found failure = .ok row ↔ found = some row := by
  cases found with
  | none => simp [orRaise]
  | some other => simp [orRaise]

theorem orRaise_error {Found : Type} {found : Option Found} {failure raised : Failure} :
    orRaise found failure = .error raised ↔ found = none ∧ failure = raised := by
  cases found with
  | none => simp [orRaise]
  | some other => simp [orRaise]

/-! ### JSON of payloads -/

/-- An identifier as `str(uuid)`. -/
def Json.ofId (id : UUID) : Json := .string id.str

/-- An optional text, `None` as `null`. -/
def Json.ofText : Option String → Json
  | some text => .string text
  | none => .null

/-- A list of texts. -/
def Json.ofTexts (texts : List String) : Json := .array (texts.map .string)

/-! ### Attribute changes -/

namespace StepModel

abbrev succeed (now : Timestamp) (row : StepModel) : StepModel :=
  { row with state := .succeeded, endedAt := some now }

abbrev failTerminal (now : Timestamp) (row : StepModel) : StepModel :=
  { row with state := .failedTerminal, endedAt := some now }

abbrev failRetryable (row : StepModel) : StepModel := { row with state := .failedRetryable }

variable (now : Timestamp) (row : StepModel)

theorem succeed_keeps : (row.succeed now).stepId = row.stepId ∧
    (row.succeed now).workflowRunId = row.workflowRunId ∧
    (row.succeed now).stepIndex = row.stepIndex ∧ (row.succeed now).stepName = row.stepName :=
  ⟨rfl, rfl, rfl, rfl⟩

theorem failTerminal_keeps : (row.failTerminal now).stepId = row.stepId ∧
    (row.failTerminal now).workflowRunId = row.workflowRunId ∧
    (row.failTerminal now).stepIndex = row.stepIndex ∧
    (row.failTerminal now).stepName = row.stepName :=
  ⟨rfl, rfl, rfl, rfl⟩

theorem failRetryable_keeps : row.failRetryable.stepId = row.stepId ∧
    row.failRetryable.workflowRunId = row.workflowRunId ∧
    row.failRetryable.stepIndex = row.stepIndex ∧ row.failRetryable.stepName = row.stepName :=
  ⟨rfl, rfl, rfl, rfl⟩

end StepModel

namespace WorkflowRunModel

abbrev pointTo (stepId : UUID) (row : WorkflowRunModel) : WorkflowRunModel :=
  { row with currentStepId := some stepId }

abbrev start (now : Timestamp) (row : WorkflowRunModel) : WorkflowRunModel :=
  { row with state := .running, version := 1, updatedAt := now }

abbrev moveTo (stepId : UUID) (now : Timestamp) (row : WorkflowRunModel) :
    WorkflowRunModel :=
  { row with currentStepId := some stepId, updatedAt := now }

abbrev complete (now : Timestamp) (row : WorkflowRunModel) : WorkflowRunModel :=
  { row with state := .completed, version := row.version + 1, updatedAt := now }

abbrev cancel (now : Timestamp) (row : WorkflowRunModel) : WorkflowRunModel :=
  { row with state := .cancelled, version := row.version + 1, updatedAt := now }

theorem cancel_keeps (draws : Draws) (row : WorkflowRunModel) :
    (row.cancel (draws.now 0)).workflowRunId = row.workflowRunId := rfl

abbrev awaitHuman (result : StepResult) (now : Timestamp) (row : WorkflowRunModel) :
    WorkflowRunModel :=
  { row with
    state := .awaitingHuman
    version := row.version + 1
    updatedAt := now
    lastErrorCode := result.errorCode
    lastErrorDetail := result.errorDetail }

abbrev fail (result : StepResult) (now : Timestamp) (row : WorkflowRunModel) :
    WorkflowRunModel :=
  { row with
    state := .failed
    version := row.version + 1
    updatedAt := now
    lastErrorCode := result.errorCode
    lastErrorDetail := result.errorDetail }

abbrev resume (now : Timestamp) (row : WorkflowRunModel) : WorkflowRunModel :=
  { row with
    state := .running
    version := row.version + 1
    updatedAt := now
    lastErrorCode := none
    lastErrorDetail := none }

end WorkflowRunModel

/-- The resolution of a case; who decided what, and when. -/
abbrev EscalationCaseModel.decide (state : EscalationState) (actor : String)
    (resolutionPayload : JsonObject) (now : Timestamp) (row : EscalationCaseModel) :
    EscalationCaseModel :=
  { row with
    state := state
    resolvedBy := some actor
    resolvedAt := some now
    resolutionPayload := some resolutionPayload }

namespace WorkflowOrchestrator

variable (registry : WorkflowRegistry) (db : Database) (draws : Draws)

/-! ### Rows and events -/

/-- The year of a `datetime` is one from 1 to 9999. -/
def isDatetime (time : Timestamp) : Bool := -62135596800 ≤ time ∧ time < 253402300800

/-- `now + timedelta(seconds=...)`. -/
def addSeconds (now : Timestamp) (seconds : Int) : Except Failure Timestamp :=
  if isDatetime (now + seconds) then .ok (now + seconds) else .error (.exception "OverflowError")

theorem addSeconds_ok {now later : Timestamp} {seconds : Int} :
    addSeconds now seconds = .ok later ↔ isDatetime (now + seconds) = true ∧
      later = now + seconds := by
  unfold addSeconds
  split
  · rename_i within
    exact ⟨fun same => ⟨within, (Except.ok.inj same).symm⟩, fun same => congrArg _ same.2.symm⟩
  · rename_i beyond
    exact ⟨nofun, fun same => absurd same.1 beyond⟩

/-- A run that has not started. -/
def pendingRun (workflowRunId : UUID) (workflowName workflowVersion createdBy : String)
    (now deadlineAt : Timestamp) : WorkflowRunModel :=
  { workflowRunId := workflowRunId
    workflowName := workflowName
    workflowVersion := workflowVersion
    state := .pending
    version := 0
    createdAt := now
    updatedAt := now
    deadlineAt := deadlineAt
    createdBy := createdBy }

/-- The rows attaching documents to a run. -/
def documentRows (workflowRunId : UUID) (documentIds : List UUID) (now : Timestamp) :
    List WorkflowRunDocumentModel :=
  documentIds.map fun documentId =>
    { workflowRunId := workflowRunId, documentId := documentId, attachedAt := now }

/-- The step rows of a definition, one for each step in tuple order. -/
def stepRows (definition : WorkflowDefinition) (workflowRunId : UUID) (now : Timestamp)
    (stepId : Nat → UUID) : List StepModel :=
  definition.steps.mapIdx fun index step =>
    { stepId := stepId index
      workflowRunId := workflowRunId
      stepName := step.stepName
      stepIndex := step.stepIndex
      state := .queued
      maxAttempts := step.maxAttempts
      escalateOnFailure := step.escalateOnFailure
      retryPolicy := step.retryPolicy
      createdAt := now }

/-- An attempt the orchestrator schedules. -/
def queuedAttempt (stepAttemptId stepId : UUID) (stepAttemptNumber : Nat)
    (scheduledFor : Option Timestamp) (now : Timestamp) : StepAttemptModel :=
  { stepAttemptId := stepAttemptId
    stepId := stepId
    stepAttemptNumber := stepAttemptNumber
    state := .queued
    origin := .system
    scheduledFor := scheduledFor
    createdAt := now }

/-- The synthetic attempt that stands for a human resolution. -/
def humanAttempt (stepAttemptId stepId : UUID) (stepAttemptNumber : Nat) (now : Timestamp) :
    StepAttemptModel :=
  { stepAttemptId := stepAttemptId
    stepId := stepId
    stepAttemptNumber := stepAttemptNumber
    state := .succeeded
    origin := .human
    startedAt := some now
    endedAt := some now
    createdAt := now }

/-- The outbox row of a task; its `outbox_id` is drawn when it is inserted. -/
def outboxRow (workflowRunId stepId stepAttemptId : UUID) (payload : JsonObject)
    (scheduledFor now : Timestamp) : TasksOutboxModel :=
  { outboxId := 0
    workflowRunId := workflowRunId
    stepId := stepId
    stepAttemptId := stepAttemptId
    payload := payload
    scheduledFor := scheduledFor
    createdAt := now }

/-- The task payload of an attempt scheduled after the first one. -/
def taskPayload (workflowRun : WorkflowRunModel) (step : StepModel) (stepAttemptId : UUID) :
    JsonObject := [
  ("workflow_run_id", .ofId workflowRun.workflowRunId),
  ("workflow_name", .string workflowRun.workflowName),
  ("workflow_version", .string workflowRun.workflowVersion),
  ("step_id", .ofId step.stepId),
  ("step_attempt_id", .ofId stepAttemptId),
  ("step_name", .string step.stepName),
  ("handler_name", .string (handlerNameFor
    (registry.get workflowRun.workflowName workflowRun.workflowVersion) step.stepName)),
  ("correlation_id", .string ""),
  ("document_ids", .ofTexts (db.getDocumentIds workflowRun.workflowRunId))]

/-- An open case for a step. -/
def escalationRow (escalationId workflowRunId stepId : UUID) (result : StepResult)
    (reasonCode : String) (now : Timestamp) : EscalationCaseModel :=
  { escalationId := escalationId
    workflowRunId := workflowRunId
    stepId := stepId
    state := .opened
    reasonCode := reasonCode
    reasonDetail := result.errorDetail
    expiresAt := now + 86400
    createdAt := now }

def completedEvent (workflowRunId : UUID) (step : StepModel) : AppendCall :=
  { workflowRunId := workflowRunId
    eventType := "workflow_run.completed"
    actor := "worker:orchestrator"
    payload := [("final_step", .string step.stepName)]
    stepId := some step.stepId }

def advancedEvent (workflowRunId : UUID) (step next : StepModel) (nextAttemptId : UUID) :
    AppendCall :=
  { workflowRunId := workflowRunId
    eventType := "step.advanced"
    actor := "worker:orchestrator"
    payload := [("from_step", .string step.stepName), ("to_step", .string next.stepName)]
    stepId := some next.stepId
    stepAttemptId := some nextAttemptId }

def retryScheduledEvent (workflowRunId : UUID) (step : StepModel) (attemptNumber : Nat)
    (delay : ℚ) (result : StepResult) (newAttemptId : UUID) : AppendCall :=
  { workflowRunId := workflowRunId
    eventType := "step_attempt.retry_scheduled"
    actor := "worker:orchestrator"
    payload := [
      ("step_name", .string step.stepName),
      ("attempt_number", .int attemptNumber),
      ("delay_seconds", .float delay),
      ("error_code", .ofText result.errorCode),
      ("error_detail", .ofText result.errorDetail)]
    stepId := some step.stepId
    stepAttemptId := some newAttemptId }

def escalationCreatedEvent (workflowRunId : UUID) (step : StepModel) (escalationId : UUID)
    (reasonCode : String) (result : StepResult) : AppendCall :=
  { workflowRunId := workflowRunId
    eventType := "escalation.created"
    actor := "worker:orchestrator"
    payload := [
      ("escalation_id", .ofId escalationId),
      ("step_name", .string step.stepName),
      ("reason_code", .string reasonCode),
      ("reason_detail", .ofText result.errorDetail)]
    stepId := some step.stepId }

def failedEvent (workflowRunId : UUID) (step : StepModel) (result : StepResult) : AppendCall :=
  { workflowRunId := workflowRunId
    eventType := "workflow_run.failed"
    actor := "worker:orchestrator"
    payload := [
      ("step_name", .string step.stepName),
      ("error_code", .ofText result.errorCode),
      ("error_detail", .ofText result.errorDetail)]
    stepId := some step.stepId }

def resolvedEvent (workflowRunId : UUID) (step : StepModel) (escalationId : UUID)
    (resolutionPayload : JsonObject) (actor : String) (syntheticAttemptId : UUID) : AppendCall :=
  { workflowRunId := workflowRunId
    eventType := "escalation.resolved"
    actor := actor
    payload := [
      ("escalation_id", .ofId escalationId),
      ("step_name", .string step.stepName),
      ("resolution_payload", .object resolutionPayload)]
    stepId := some step.stepId
    stepAttemptId := some syntheticAttemptId }

def cancelledEvent (workflowRunId : UUID) (actor : String) (reason : Option String)
    (previousState : WorkflowRunState) : AppendCall :=
  { workflowRunId := workflowRunId
    eventType := "workflow_run.cancelled"
    actor := actor
    payload := [
      ("reason", .ofText reason),
      ("previous_state", .string previousState.value)] }

/-! ### Starting a run -/

/-- Insert the rows attaching documents to a run. -/
def insertDocuments (rows : List WorkflowRunDocumentModel) : Except Failure Database :=
  rows.foldlM (fun db row => db.insertWorkflowRunDocument row) db

/-- Insert multiple steps. -/
def insertSteps (rows : List StepModel) : Except Failure Database :=
  rows.foldlM (fun db row => db.insertStep row) db

/-- `deadline_seconds or definition.deadline_seconds`. -/
def effectiveDeadline (deadlineSeconds : Option Int) (definition : WorkflowDefinition) : Int :=
  match deadlineSeconds with
  | none | some 0 => definition.deadlineSeconds
  | some seconds => seconds

/-- The first step of a definition with the row made for it. -/
def firstStep (rows : List StepModel) (definition : WorkflowDefinition) :
    Option (StepModel × StepDefinition) :=
  match rows, definition.steps with
  | row :: _, step :: _ => some (row, step)
  | _, _ => none

/-- Start a new workflow run. -/
def startWorkflowRun (workflowName workflowVersion : String) (documentIds : List UUID)
    (actor correlationId : String) (deadlineSeconds : Option Int) :
    Except Failure (Database × UUID) := do
  let definition ← orRaise (registry.get workflowName workflowVersion)
    (.valueError s!"Workflow definition not found: {workflowName} {workflowVersion}")
  let now := draws.now 0
  let deadline := effectiveDeadline deadlineSeconds definition
  let workflowRunId := draws.uuid4 0
  let deadlineAt ← addSeconds now deadline
  let db ← db.insertWorkflowRun
    (pendingRun workflowRunId workflowName workflowVersion actor now deadlineAt)
  let db ← insertDocuments db (documentRows workflowRunId documentIds now)
  let rows := stepRows definition workflowRunId now fun index => draws.uuid4 (index + 1)
  let db ← insertSteps db rows
  let (first, firstDefinition) ← orRaise (firstStep rows definition) .indexError
  let firstAttemptId := draws.uuid4 (rows.length + 1)
  let db ← db.insertStepAttempt (queuedAttempt firstAttemptId first.stepId 1 none now)
  let db := db.updateWorkflowRun workflowRunId (WorkflowRunModel.pointTo first.stepId)
  let db ← db.insertTasksOutbox (outboxRow workflowRunId first.stepId firstAttemptId [
    ("workflow_run_id", .ofId workflowRunId),
    ("workflow_name", .string workflowName),
    ("workflow_version", .string workflowVersion),
    ("step_id", .ofId first.stepId),
    ("step_attempt_id", .ofId firstAttemptId),
    ("step_name", .string first.stepName),
    ("handler_name", .string firstDefinition.handlerName),
    ("correlation_id", .string correlationId),
    ("document_ids", .ofTexts (documentIds.map UUID.str))] now now)
  let db ← db.appendAuditEvent
    { workflowRunId := workflowRunId
      eventType := "workflow_run.started"
      actor := actor
      payload := [
        ("workflow_name", .string workflowName),
        ("workflow_version", .string workflowVersion),
        ("document_ids", .ofTexts (documentIds.map UUID.str)),
        ("correlation_id", .string correlationId),
        ("deadline_seconds", .int deadline)] } (draws.event 0 1)
  let db := db.updateWorkflowRun workflowRunId (WorkflowRunModel.start (draws.now 2))
  return (db, workflowRunId)

/-! ### The outcomes of a step -/

/-- The step that follows another one: the first listed with the next index. -/
def nextStep (steps : List StepModel) (currentStep : StepModel) : Option StepModel :=
  steps.find? fun step => step.stepIndex = currentStep.stepIndex + 1

/-- Handle a succeeded step: advance to next step or complete. -/
def handleSucceeded (workflowRun : WorkflowRunModel) (steps : List StepModel)
    (currentStep : StepModel) (now : Timestamp) (nextAttemptId : UUID) (event : EventDraw) :
    Except Failure (Database × WorkflowRunState) :=
  let db := db.updateStep currentStep.stepId (StepModel.succeed now)
  match nextStep steps currentStep with
  | none => do
    let db := db.updateWorkflowRun workflowRun.workflowRunId (WorkflowRunModel.complete now)
    let db ← db.appendAuditEvent (completedEvent workflowRun.workflowRunId currentStep) event
    return (db, .completed)
  | some next => do
    let db ← db.insertStepAttempt (queuedAttempt nextAttemptId next.stepId 1 none now)
    let db := db.updateWorkflowRun workflowRun.workflowRunId
      (WorkflowRunModel.moveTo next.stepId now)
    let db ← db.insertTasksOutbox (outboxRow workflowRun.workflowRunId next.stepId nextAttemptId
      (taskPayload registry db workflowRun next nextAttemptId) now now)
    let db ← db.appendAuditEvent
      (advancedEvent workflowRun.workflowRunId currentStep next nextAttemptId) event
    return (db, .running)

/-- Open an escalation case for a step and put the run in `awaiting_human`. -/
def createEscalation (workflowRun : WorkflowRunModel) (currentStep : StepModel)
    (stepResult : StepResult) (reasonCode : String) (now : Timestamp) (escalationId : UUID)
    (event : EventDraw) : Except Failure (Database × WorkflowRunState) := do
  let db ← db.insertEscalationCase (escalationRow escalationId workflowRun.workflowRunId
    currentStep.stepId stepResult reasonCode now)
  let db := db.updateWorkflowRun workflowRun.workflowRunId
    (WorkflowRunModel.awaitHuman stepResult now)
  let db ← db.appendAuditEvent (escalationCreatedEvent workflowRun.workflowRunId currentStep
    escalationId reasonCode stepResult) event
  return (db, .awaitingHuman)

/-- Handle a terminal failure: escalate or fail the workflow. -/
def handleFailedTerminal (workflowRun : WorkflowRunModel) (currentStep : StepModel)
    (stepResult : StepResult) (now : Timestamp) (escalationId : UUID) (event : EventDraw) :
    Except Failure (Database × WorkflowRunState) :=
  let db := db.updateStep currentStep.stepId (StepModel.failTerminal now)
  if currentStep.escalateOnFailure then
    createEscalation db workflowRun currentStep stepResult
      (stepResult.reasonCode "STEP_FAILED_TERMINAL") now escalationId event
  else do
    let db := db.updateWorkflowRun workflowRun.workflowRunId
      (WorkflowRunModel.fail stepResult now)
    let db ← db.appendAuditEvent (failedEvent workflowRun.workflowRunId currentStep stepResult)
      event
    return (db, .failed)

/-- Handle a retryable failure: retry or escalate/fail. -/
def handleFailedRetryable (workflowRun : WorkflowRunModel) (currentStep : StepModel)
    (stepResult : StepResult) (now : Timestamp) (newId : UUID) (random : UnitDraw)
    (event : EventDraw) : Except Failure (Database × WorkflowRunState) :=
  let attemptCount := (db.listAttempts currentStep.stepId).length
  if attemptCount < currentStep.maxAttempts then do
    let delay := computeBackoffDelay currentStep.retryPolicy attemptCount random
    let scheduledFor := now + delay
    let db ← db.insertStepAttempt
      (queuedAttempt newId currentStep.stepId (attemptCount + 1) (some scheduledFor) now)
    let db := db.updateStep currentStep.stepId StepModel.failRetryable
    let db ← db.insertTasksOutbox (outboxRow workflowRun.workflowRunId currentStep.stepId newId
      (taskPayload registry db workflowRun currentStep newId) scheduledFor now)
    let db ← db.appendAuditEvent (retryScheduledEvent workflowRun.workflowRunId currentStep
      (attemptCount + 1) delay stepResult newId) event
    return (db, .running)
  else handleFailedTerminal db workflowRun currentStep stepResult now newId event

/-- Handle an explicit escalation request from a step. -/
def handleEscalate (workflowRun : WorkflowRunModel) (currentStep : StepModel)
    (stepResult : StepResult) (now : Timestamp) (escalationId : UUID) (event : EventDraw) :
    Except Failure (Database × WorkflowRunState) :=
  createEscalation db workflowRun currentStep stepResult
    (stepResult.reasonCode "STEP_ESCALATED") now escalationId event

/-- Advance a workflow run based on the outcome of a completed step. -/
def advanceWorkflow (workflowRunId : UUID) (completedStepName : String)
    (stepResult : StepResult) : Except Failure (Database × WorkflowRunState) := do
  let workflowRun ← orRaise (db.getWorkflowRun workflowRunId)
    (.valueError s!"WorkflowRun not found: {workflowRunId.str}")
  let steps := db.listSteps workflowRunId
  let currentStep ← orRaise (db.getStepByRunAndName workflowRunId completedStepName)
    (.valueError s!"Step not found: {completedStepName} in run {workflowRunId.str}")
  let now := draws.now 0
  match stepResult.status with
  | .succeeded =>
    handleSucceeded registry db workflowRun steps currentStep now (draws.uuid4 0)
      (draws.event 0 1)
  | .failedRetryable =>
    handleFailedRetryable registry db workflowRun currentStep stepResult now (draws.uuid4 0)
      draws.random (draws.event 0 1)
  | .failedTerminal =>
    handleFailedTerminal db workflowRun currentStep stepResult now (draws.uuid4 0)
      (draws.event 0 1)
  | .escalate =>
    handleEscalate db workflowRun currentStep stepResult now (draws.uuid4 0) (draws.event 0 1)

/-! ### Resuming and cancelling -/

/-- Resume a workflow after escalation resolution. -/
def resumeAfterEscalation (escalationId : UUID) (resolutionPayload : JsonObject)
    (actor : String) : Except Failure (Database × WorkflowRunState) := do
  let escalation ← orRaise (db.getEscalationCase escalationId)
    (.valueError s!"EscalationCase not found: {escalationId.str}")
  let currentStep ← orRaise (db.getStep escalation.stepId)
    (.valueError s!"Step not found: {escalation.stepId.str}")
  let workflowRun ← orRaise (db.getWorkflowRun escalation.workflowRunId)
    (.valueError s!"WorkflowRun not found: {escalation.workflowRunId.str}")
  let now := draws.now 0
  let db := db.updateEscalationCase escalationId
    (EscalationCaseModel.decide .resolved actor resolutionPayload now)
  let existingAttempts := db.listAttempts currentStep.stepId
  let syntheticAttemptId := draws.uuid4 0
  let db ← db.insertStepAttempt
    (humanAttempt syntheticAttemptId currentStep.stepId (existingAttempts.length + 1) now)
  let db := db.updateStep currentStep.stepId (StepModel.succeed now)
  let db := db.updateWorkflowRun workflowRun.workflowRunId (WorkflowRunModel.resume now)
  let db ← db.appendAuditEvent (resolvedEvent workflowRun.workflowRunId currentStep escalationId
    resolutionPayload actor syntheticAttemptId) (draws.event 0 1)
  let steps := db.listSteps workflowRun.workflowRunId
  handleSucceeded registry db workflowRun steps currentStep now (draws.uuid4 1)
    (draws.event 1 2)

/-- The states a run can be cancelled in. -/
def cancellable : WorkflowRunState → Bool
  | .running | .awaitingHuman => true
  | _ => false

theorem cancellable_not_terminal {state : WorkflowRunState} (can : cancellable state = true) :
    state.isTerminal = false := by
  cases state <;> first | rfl | cases can

/-- Cancel a workflow run. -/
def cancelWorkflow (workflowRunId : UUID) (actor : String) (reason : Option String) :
    Except Failure Database := do
  let workflowRun ← orRaise (db.getWorkflowRun workflowRunId)
    (.valueError s!"WorkflowRun not found: {workflowRunId.str}")
  if cancellable workflowRun.state then
    let db := db.updateWorkflowRun workflowRunId (WorkflowRunModel.cancel (draws.now 0))
    db.appendAuditEvent (cancelledEvent workflowRunId actor reason workflowRun.state)
      (draws.event 0 1)
  else
    .error (.valueError (s!"Cannot cancel WorkflowRun in state '{workflowRun.state.value}'. " ++
      "Cancellable states: ['awaiting_human', 'running']"))

end WorkflowOrchestrator

end InsuranceOps
