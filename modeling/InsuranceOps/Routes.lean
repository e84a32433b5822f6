/-
This file models the API routes that write runs and escalation cases: creating
and cancelling a run, and claiming, resolving and rejecting a case. A request
is served inside one transaction that commits when the handler returns; a
refused statement or an error response leaves nothing behind.
-/

import InsuranceOps.Orchestrator

namespace InsuranceOps

open WorkflowOrchestrator

/-! ### Principals -/

/-- Authenticated principal from API key validation. -/
structure ApiKeyPrincipal where
  apiKeyId : String
  role : String
  label : String

/-- The canonical actor string for this principal. -/
def ApiKeyPrincipal.actorString (principal : ApiKeyPrincipal) : String :=
  s!"api_key:{principal.role}:{principal.apiKeyId}"

/-- The dependency that enforces role-based access. -/
def requiresRole (roles : List String) (principal : ApiKeyPrincipal) : Except Failure Unit :=
  if principal.role ∈ roles then .ok ()
  else .error (.httpException 403
    s!"Role '{principal.role}' is not authorized for this endpoint")

/-! ### Request bodies -/

/-- Request model for creating a workflow run. -/
structure WorkflowRunCreate where
  workflowName : String
  workflowVersion : Option String := none
  documentIds : List UUID
  inputs : JsonObject := []

/-- Request model for cancelling a workflow run. -/
structure CancelRequest where
  reason : Option String := none
  notes : Option String := none

/-- Request model for resolving an escalation. -/
structure ResolveRequest where
  approve : Option Bool := none
  override : Option JsonObject := none
  notes : String

/-- Request model for rejecting an escalation. -/
structure RejectRequest where
  reasonCode : String
  notes : String

/-- An optional flag, `None` as `null`. -/
def Json.ofFlag : Option Bool → Json
  | some flag => .bool flag
  | none => .null

/-- An optional object, `None` as `null`. -/
def Json.ofObject : Option JsonObject → Json
  | some entries => .object entries
  | none => .null

/-! ### Attribute changes -/

namespace WorkflowRunModel

abbrev startAt (stepId : UUID) (row : WorkflowRunModel) : WorkflowRunModel :=
  { row with currentStepId := some stepId, state := .running, version := 1 }

abbrev resumeWaiting (now : Timestamp) (row : WorkflowRunModel) : WorkflowRunModel :=
  { row with state := .running, version := row.version + 1, updatedAt := now }

abbrev rejectCase (notes : String) (now : Timestamp) (row : WorkflowRunModel) :
    WorkflowRunModel :=
  { row with
    state := .failed
    version := row.version + 1
    updatedAt := now
    lastErrorCode := some "ESCALATION_REJECTED"
    lastErrorDetail := some notes }

end WorkflowRunModel

abbrev EscalationCaseModel.claim (actor : String) (now : Timestamp) (row : EscalationCaseModel) :
    EscalationCaseModel :=
  { row with state := .claimed, claimedBy := some actor, claimedAt := some now }

variable (registry : WorkflowRegistry) (db : Database) (draws : Draws)

/-! ### Workflow runs -/

/-- The definition a request asks for: the given version, or the latest one. -/
def requestedDefinition (body : WorkflowRunCreate) : Option WorkflowDefinition :=
  match body.workflowVersion with
  | none | some "" => registry.getLatest body.workflowName
  | some version => registry.get body.workflowName version

/-- Create a new workflow run with steps, first step attempt, and outbox entry. -/
def createWorkflowRun (body : WorkflowRunCreate) (principal : ApiKeyPrincipal) :
    Except Failure (Database × UUID) := do
  requiresRole ["operator", "supervisor"] principal
  let definition ← orRaise (requestedDefinition registry body)
    (.httpException 422 s!"Unknown workflow: {body.workflowName}")
  let workflowVersion := definition.workflowVersion
  let now := draws.now 0
  let workflowRunId := draws.uuid4 0
  let deadlineAt ← addSeconds now definition.deadlineSeconds
  let db ← db.insertWorkflowRun (pendingRun workflowRunId body.workflowName workflowVersion
    principal.actorString now deadlineAt)
  let db ← insertDocuments db (documentRows workflowRunId body.documentIds now)
  let rows := stepRows definition workflowRunId now fun index => draws.uuid4 (index + 1)
  let db ← insertSteps db rows
  let (first, firstDefinition) ← orRaise (firstStep rows definition) .indexError
  let stepAttemptId := draws.uuid4 (rows.length + 1)
  let db ← db.insertStepAttempt (queuedAttempt stepAttemptId first.stepId 1 (some now) now)
  let db := db.updateWorkflowRun workflowRunId (WorkflowRunModel.startAt first.stepId)
  let db ← db.insertTasksOutbox (outboxRow workflowRunId first.stepId stepAttemptId [
    ("workflow_run_id", .ofId workflowRunId),
    ("step_id", .ofId first.stepId),
    ("step_attempt_id", .ofId stepAttemptId),
    ("step_name", .string first.stepName),
    ("handler_name", .string firstDefinition.handlerName),
    ("workflow_name", .string body.workflowName),
    ("workflow_version", .string workflowVersion),
    ("attempt_number", .int 1),
    ("document_ids", .ofTexts (body.documentIds.map UUID.str))] now now)
  let db ← db.appendAuditEvent
    { workflowRunId := workflowRunId
      eventType := "workflow_run.started"
      actor := principal.actorString
      payload := [
        ("workflow_name", .string body.workflowName),
        ("workflow_version", .string workflowVersion),
        ("document_ids", .ofTexts (body.documentIds.map UUID.str)),
        ("inputs", .object body.inputs)] } (draws.event 0 1)
  return (db, workflowRunId)

/-- Cancel a workflow run (supervisor only). The optimistic update finds the version it has just
read, since nothing runs in between here. -/
def cancelWorkflowRun (workflowRunId : UUID) (body : CancelRequest)
    (principal : ApiKeyPrincipal) : Except Failure Database := do
  requiresRole ["supervisor"] principal
  let run ← orRaise (db.getWorkflowRun workflowRunId)
    (.httpException 404 "Workflow run not found")
  if cancellable run.state then
    let db := db.updateWorkflowRun workflowRunId (WorkflowRunModel.cancel (draws.now 0))
      (WorkflowRunModel.cancel_keeps draws)
    db.appendAuditEvent
      { workflowRunId := workflowRunId
        eventType := "workflow_run.cancelled"
        actor := principal.actorString
        payload := [
          ("reason", .string (body.reason.getD "")),
          ("notes", .string (body.notes.getD ""))] } (draws.event 0 1)
  else
    .error (.httpException 409
      s!"Workflow run in state '{run.state.value}' cannot be cancelled")

/-! ### Escalations -/

/-- Atomically claim an open escalation with optimistic guard. -/
def claimEscalation (escalationId : UUID) (principal : ApiKeyPrincipal) :
    Except Failure Database := do
  requiresRole ["operator", "supervisor"] principal
  let now := draws.now 0
  let found ← orRaise (db.getEscalationCase escalationId)
    (.httpException 404 "Escalation not found")
  if found.state = .opened then
    let db := db.updateEscalationCase escalationId
      (EscalationCaseModel.claim principal.actorString now)
    db.appendAuditEvent
      { workflowRunId := found.workflowRunId
        eventType := "escalation.claimed"
        actor := principal.actorString
        payload := [("escalation_id", .ofId escalationId)] } (draws.event 0 1)
  else
    .error (.httpException 409
      s!"Escalation is in state '{found.state.value}' and cannot be claimed")

/-- The case a principal has claimed and now decides. -/
def claimedCase (escalationId : UUID) (principal : ApiKeyPrincipal) (verb : String) :
    Except Failure EscalationCaseModel := do
  let esc ← orRaise (db.getEscalationCase escalationId)
    (.httpException 404 "Escalation not found")
  if esc.state ≠ .claimed then
    .error (.httpException 409 s!"Escalation in state '{esc.state.value}' cannot be {verb}")
  else if esc.claimedBy ≠ some principal.actorString then
    .error (.httpException 403 "Escalation is claimed by a different actor")
  else
    return esc

/-- Resume the run of a resolved case if it is waiting for a human. -/
def resumeWaitingRun (workflowRunId : UUID) (now : Timestamp) : Database :=
  match db.getWorkflowRun workflowRunId with
  | some run =>
    if run.state = .awaitingHuman then
      db.updateWorkflowRun workflowRunId (WorkflowRunModel.resumeWaiting now)
    else db
  | none => db

/-- Fail the run of a rejected case if it is running or waiting for a human. -/
def failOpenRun (workflowRunId : UUID) (notes : String) (now : Timestamp) : Database :=
  match db.getWorkflowRun workflowRunId with
  | some run =>
    if run.state = .running ∨ run.state = .awaitingHuman then
      db.updateWorkflowRun workflowRunId (WorkflowRunModel.rejectCase notes now)
    else db
  | none => db

/-- Resolve a claimed escalation, create synthetic StepAttempt, resume WorkflowRun. -/
def resolveEscalation (escalationId : UUID) (body : ResolveRequest)
    (principal : ApiKeyPrincipal) : Except Failure Database := do
  requiresRole ["operator", "supervisor"] principal
  let esc ← claimedCase db escalationId principal "resolved"
  let now := draws.now 0
  let db := db.updateEscalationCase escalationId
    (EscalationCaseModel.decide .resolved principal.actorString [
      ("approve", .ofFlag body.approve),
      ("override", .ofObject body.override),
      ("notes", .string body.notes)] now)
  let stepAttemptId := draws.uuid4 0
  let db ← db.insertStepAttempt (humanAttempt stepAttemptId esc.stepId 99 now)
  let db := resumeWaitingRun db esc.workflowRunId now
  db.appendAuditEvent
    { workflowRunId := esc.workflowRunId
      eventType := "escalation.resolved"
      actor := principal.actorString
      payload := [("escalation_id", .ofId escalationId), ("notes", .string body.notes)]
      stepId := some esc.stepId
      stepAttemptId := some stepAttemptId } (draws.event 0 1)

/-- Reject a claimed escalation, transition WorkflowRun to failed. -/
def rejectEscalation (escalationId : UUID) (body : RejectRequest)
    (principal : ApiKeyPrincipal) : Except Failure Database := do
  requiresRole ["operator", "supervisor"] principal
  let esc ← claimedCase db escalationId principal "rejected"
  let now := draws.now 0
  let db := db.updateEscalationCase escalationId
    (EscalationCaseModel.decide .rejected principal.actorString [
      ("reason_code", .string body.reasonCode),
      ("notes", .string body.notes)] now)
  let db := failOpenRun db esc.workflowRunId body.notes now
  db.appendAuditEvent
    { workflowRunId := esc.workflowRunId
      eventType := "escalation.rejected"
      actor := principal.actorString
      payload := [
        ("escalation_id", .ofId escalationId),
        ("reason_code", .string body.reasonCode),
        ("notes", .string body.notes)]
      stepId := some esc.stepId } (draws.event 0 1)

end InsuranceOps
