/-
This file puts the orchestrator's calls and the routes' requests together as
the labels of a transition system on databases: an operation runs in one
transaction, which commits when it returns and rolls back when it raises.
-/

import InsuranceOps.RouteEffects
import InsuranceOps.Library.Transition

namespace InsuranceOps

open WorkflowOrchestrator

/-- A call of the workflow orchestrator. -/
inductive OrchestratorCall where
  | startWorkflowRun (workflowName workflowVersion : String) (documentIds : List UUID)
      (actor correlationId : String) (deadlineSeconds : Option Int)
  | advanceWorkflow (workflowRunId : UUID) (completedStepName : String) (stepResult : StepResult)
  | resumeAfterEscalation (escalationId : UUID) (resolutionPayload : JsonObject) (actor : String)
  | cancelWorkflow (workflowRunId : UUID) (actor : String) (reason : Option String)

/-- A request to one of the routes that write runs or cases. -/
inductive RouteRequest where
  | createWorkflowRun (body : WorkflowRunCreate)
  | cancelWorkflowRun (workflowRunId : UUID) (body : CancelRequest)
  | claimEscalation (escalationId : UUID)
  | resolveEscalation (escalationId : UUID) (body : ResolveRequest)
  | rejectEscalation (escalationId : UUID) (body : RejectRequest)

/-- A write to the database: an orchestrator call, or a request with its principal. -/
inductive Operation where
  | call (made : OrchestratorCall)
  | request (made : RouteRequest) (principal : ApiKeyPrincipal)

variable (registry : WorkflowRegistry) (db : Database) (draws : Draws)

/-- The database an orchestrator call flushes, or what it raises. -/
def OrchestratorCall.perform : OrchestratorCall → Except Failure Database
  | .startWorkflowRun workflowName workflowVersion documentIds actor correlationId deadline => do
    let (next, _) ← WorkflowOrchestrator.startWorkflowRun registry db draws workflowName
      workflowVersion documentIds actor correlationId deadline
    return next
  | .advanceWorkflow workflowRunId completedStepName stepResult => do
    let (next, _) ← WorkflowOrchestrator.advanceWorkflow registry db draws workflowRunId
      completedStepName stepResult
    return next
  | .resumeAfterEscalation escalationId resolutionPayload actor => do
    let (next, _) ← WorkflowOrchestrator.resumeAfterEscalation registry db draws escalationId
      resolutionPayload actor
    return next
  | .cancelWorkflow workflowRunId actor reason =>
    WorkflowOrchestrator.cancelWorkflow db draws workflowRunId actor reason

/-- The database a request flushes, or what it raises. -/
def RouteRequest.perform (principal : ApiKeyPrincipal) : RouteRequest → Except Failure Database
  | .createWorkflowRun body => do
    let (next, _) ← InsuranceOps.createWorkflowRun registry db draws body principal
    return next
  | .cancelWorkflowRun workflowRunId body =>
    InsuranceOps.cancelWorkflowRun db draws workflowRunId body principal
  | .claimEscalation escalationId => InsuranceOps.claimEscalation db draws escalationId principal
  | .resolveEscalation escalationId body =>
    InsuranceOps.resolveEscalation db draws escalationId body principal
  | .rejectEscalation escalationId body =>
    InsuranceOps.rejectEscalation db draws escalationId body principal

def Operation.perform : Operation → Except Failure Database
  | .call made => made.perform registry db draws
  | .request made principal => made.perform registry db draws principal

/-- The database after a transaction: what it flushed, or the old one when it raised. -/
def commit (db : Database) (flushed : Except Failure Database) : Database :=
  match flushed with
  | .ok next => next
  | .error _ => db

/-- A property holds after a transaction if it held before and the flushed database has it. -/
theorem commit_induction {db : Database} {flushed : Except Failure Database}
    (property : Database → Prop) (before : property db)
    (after : ∀ next, flushed = .ok next → property next) : property (commit db flushed) := by
  cases flushed with
  | error failure => exact before
  | ok next => exact after next rfl

/-- The step of the system of operations. -/
def Operation.step (db : Database) (operation : Operation × Draws) : Database :=
  commit db (operation.1.perform registry db operation.2)

/-- The step of the system of orchestrator calls. -/
def OrchestratorCall.step (db : Database) (call : OrchestratorCall × Draws) : Database :=
  commit db (call.1.perform registry db call.2)

/-- Draws of the `n`th call of a run: later calls read a later clock and draw other identifiers. -/
def numberedDraws (n : Nat) : Draws where
  now reading := 10 * n + reading
  uuid4 index := BitVec.ofNat 128 (100 * n + index)
  uuid7 index := BitVec.ofNat 128 (100 * n + index)
  random := ⟨0, le_refl 0, zero_le_one⟩

variable {registry db draws} {next : Database}

theorem OrchestratorCall.perform_start {workflowName workflowVersion : String}
    {documentIds : List UUID} {actor correlationId : String} {deadline : Option Int}
    (ran : (OrchestratorCall.startWorkflowRun workflowName workflowVersion documentIds actor
      correlationId deadline).perform registry db draws = .ok next) :
    ∃ workflowRunId, WorkflowOrchestrator.startWorkflowRun registry db draws workflowName
      workflowVersion documentIds actor correlationId deadline = .ok (next, workflowRunId) := by
  obtain ⟨⟨flushed, workflowRunId⟩, ran, same⟩ := Fallible.bind_eq_ok.mp ran
  cases same
  exact ⟨workflowRunId, ran⟩

theorem OrchestratorCall.perform_advance {workflowRunId : UUID} {completedStepName : String}
    {stepResult : StepResult}
    (ran : (OrchestratorCall.advanceWorkflow workflowRunId completedStepName stepResult).perform
      registry db draws = .ok next) :
    ∃ state, WorkflowOrchestrator.advanceWorkflow registry db draws workflowRunId
      completedStepName stepResult = .ok (next, state) := by
  obtain ⟨⟨flushed, state⟩, ran, same⟩ := Fallible.bind_eq_ok.mp ran
  cases same
  exact ⟨state, ran⟩

theorem OrchestratorCall.perform_resume {escalationId : UUID} {resolutionPayload : JsonObject}
    {actor : String}
    (ran : (OrchestratorCall.resumeAfterEscalation escalationId resolutionPayload actor).perform
      registry db draws = .ok next) :
    ∃ state, WorkflowOrchestrator.resumeAfterEscalation registry db draws escalationId
      resolutionPayload actor = .ok (next, state) := by
  obtain ⟨⟨flushed, state⟩, ran, same⟩ := Fallible.bind_eq_ok.mp ran
  cases same
  exact ⟨state, ran⟩

theorem RouteRequest.perform_create {principal : ApiKeyPrincipal} {body : WorkflowRunCreate}
    (ran : (RouteRequest.createWorkflowRun body).perform registry db draws principal = .ok next) :
    ∃ workflowRunId, InsuranceOps.createWorkflowRun registry db draws body principal =
      .ok (next, workflowRunId) := by
  obtain ⟨⟨flushed, workflowRunId⟩, ran, same⟩ := Fallible.bind_eq_ok.mp ran
  cases same
  exact ⟨workflowRunId, ran⟩

end InsuranceOps
