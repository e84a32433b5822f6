/-
This file compares the two ways of resolving an escalation. The orchestrator
marks the step succeeded, clears the errors of the run and goes on with the
next step or completes the run; the route only sets the run back to running and
adds an attempt numbered 99. Whatever the database holds, the two never leave
the same state behind.
-/

import InsuranceOps.Operations

namespace InsuranceOps

open Relational WorkflowOrchestrator

/-! ### What a resolution leaves behind -/

/-- The columns of a run that a resolution is about. -/
structure RunOutcome where
  workflowRunId : UUID
  state : WorkflowRunState
  version : Nat
  currentStepId : Option UUID
  lastErrorCode : Option String
  lastErrorDetail : Option String
  deriving DecidableEq

def WorkflowRunModel.outcome (run : WorkflowRunModel) : RunOutcome :=
  ⟨run.workflowRunId, run.state, run.version, run.currentStepId, run.lastErrorCode,
    run.lastErrorDetail⟩

def runOutcomes (rows : Contents) : List RunOutcome :=
  rows.workflowRuns.map WorkflowRunModel.outcome

/-- The states of the steps, and whether they have ended. -/
def stepOutcomes (rows : Contents) : List (UUID × StepState × Bool) :=
  rows.steps.map fun step => (step.stepId, step.state, step.endedAt.isSome)

/-- The attempts without their identifiers and times. -/
def attemptOutcomes (rows : Contents) : List (UUID × Nat × StepState × AttemptOrigin) :=
  rows.stepAttempts.map fun attempt => (attempt.stepId, attempt.stepAttemptNumber, attempt.state,
    attempt.origin)

/-- The runs and the steps of the outbox rows. -/
def taskOutcomes (rows : Contents) : List (UUID × UUID) :=
  rows.tasksOutbox.map fun task => (task.workflowRunId, task.stepId)

/-- The case is stored as resolved. -/
def CaseResolved (rows : Contents) (escalationId : UUID) : Prop :=
  ∃ esc ∈ rows.escalationCases, esc.escalationId = escalationId ∧ esc.state = .resolved

/-- Both databases have the case resolved, and they are the same up to fresh identifiers, times and
the texts of payloads. -/
structure ResolvedAlike (escalationId : UUID) (routed resumed : Contents) : Prop where
  routedCase : CaseResolved routed escalationId
  resumedCase : CaseResolved resumed escalationId
  runs : runOutcomes routed = runOutcomes resumed
  steps : stepOutcomes routed = stepOutcomes resumed
  attempts : attemptOutcomes routed = attemptOutcomes resumed
  tasks : taskOutcomes routed = taskOutcomes resumed

/-! ### The two ways differ -/

variable {registry : WorkflowRegistry} {db next : Database} {draws : Draws}
  {principal : ApiKeyPrincipal} {escalationId : UUID} {esc : EscalationCaseModel}
  {run : WorkflowRunModel}

/-- A refused call leaves the case claimed. -/
theorem not_caseResolved_of_claimed (found : db.getEscalationCase escalationId = some esc)
    (claimed : esc.state = .claimed) : ¬CaseResolved db.contents escalationId := by
  rintro ⟨other, stored, same, resolved⟩
  have one := eq_of_find? (fun row : EscalationCaseModel => row.escalationId)
    db.escalationCases_distinct found stored same
  rw [one, claimed] at resolved
  cases resolved

/-- The route writes no outbox row and sets the waiting run back to running. -/
theorem resolveEscalation_leaves {body : ResolveRequest}
    (found : db.getEscalationCase escalationId = some esc)
    (foundRun : db.getWorkflowRun esc.workflowRunId = some run)
    (waiting : run.state = .awaitingHuman)
    (ran : resolveEscalation db draws escalationId body principal = .ok next) :
    next.contents.tasksOutbox = db.contents.tasksOutbox ∧
      ∃ row ∈ next.contents.workflowRuns, row.workflowRunId = run.workflowRunId ∧
        row.state = .running := by
  obtain ⟨own, answer, call, lookup, -, -, contents⟩ := resolveEscalation_ok ran
  obtain rfl : esc = own := Option.some.inj (found.symm.trans lookup)
  have selected : decide (run.workflowRunId = esc.workflowRunId ∧ run.state = .awaitingHuman) =
      true := decide_eq_true ⟨Database.getWorkflowRun_identified foundRun, waiting⟩
  rw [contents]
  exact ⟨rfl, _, mem_updateRows_of_selects (List.mem_of_find?_eq_some foundRun) selected, rfl, rfl⟩

/-- The orchestrator writes an outbox row, or completes the run. -/
theorem resumeAfterEscalation_leaves {resolutionPayload : JsonObject} {actor : String}
    {state : WorkflowRunState} (found : db.getEscalationCase escalationId = some esc)
    (foundRun : db.getWorkflowRun esc.workflowRunId = some run)
    (ran : resumeAfterEscalation registry db draws escalationId resolutionPayload actor =
      .ok (next, state)) :
    (∃ task, next.contents.tasksOutbox = db.contents.tasksOutbox ++ [task]) ∨
      ∀ row ∈ next.contents.workflowRuns, row.workflowRunId = run.workflowRunId →
        row.state = .completed := by
  obtain ⟨own, currentStep, workflowRun, lookup, -, foundOwn, -, resumed, contents, ran⟩ :=
    resumeAfterEscalation_ok ran
  obtain rfl : esc = own := Option.some.inj (found.symm.trans lookup)
  obtain rfl : run = workflowRun := Option.some.inj (foundRun.symm.trans foundOwn)
  have tasks : resumed.contents.tasksOutbox = db.contents.tasksOutbox := by rw [contents]
  rcases handleSucceeded_ok ran with ⟨-, -, ended⟩ | ⟨successor, -, -, -, moved⟩
  · refine .inr fun row stored same => ?_
    rw [ended] at stored
    obtain ⟨old, -, rfl⟩ := mem_updateRows.mp stored
    by_cases selected : old.workflowRunId = run.workflowRunId
    · rw [if_pos (decide_eq_true selected)]
    · rw [if_neg (by simpa using selected)] at same
      exact absurd same selected
  · refine .inl ⟨{ outboxRow run.workflowRunId successor.stepId (draws.uuid4 1)
      (taskPayload registry resumed run successor (draws.uuid4 1)) (draws.now 0) (draws.now 0) with
        outboxId := resumed.contents.outboxSequence + 1 }, ?_⟩
    rw [moved, ← tasks]

/-- In no database in which a case is claimed by the acting principal and its run waits for a human
do the route and the orchestrator resolve the case alike. The route leaves the run running and the
outbox as it was; the orchestrator adds a task or completes the run. -/
theorem resolutions_differ (registry : WorkflowRegistry) (db : Database)
    (routeDraws resumeDraws : Draws) (escalationId : UUID) (body : ResolveRequest)
    (resolutionPayload : JsonObject) (principal : ApiKeyPrincipal) (esc : EscalationCaseModel)
    (run : WorkflowRunModel) (found : db.getEscalationCase escalationId = some esc)
    (claimed : esc.state = .claimed ∧ esc.claimedBy = some principal.actorString)
    (foundRun : db.getWorkflowRun esc.workflowRunId = some run)
    (waiting : run.state = .awaitingHuman) :
    ¬ResolvedAlike escalationId
      (Operation.step registry db (.request (.resolveEscalation escalationId body) principal,
        routeDraws)).contents
      (Operation.step registry db (.call (.resumeAfterEscalation escalationId resolutionPayload
        principal.actorString), resumeDraws)).contents := by
  have unresolved := not_caseResolved_of_claimed found claimed.1
  intro alike
  cases routed : (Operation.request (.resolveEscalation escalationId body) principal).perform
      registry db routeDraws with
  | error failure =>
    have resolved := alike.routedCase
    simp only [Operation.step, routed, commit] at resolved
    exact unresolved resolved
  | ok afterRoute =>
    cases resumed : (Operation.call (.resumeAfterEscalation escalationId resolutionPayload
        principal.actorString)).perform registry db resumeDraws with
    | error failure =>
      have resolved := alike.resumedCase
      simp only [Operation.step, resumed, commit] at resolved
      exact unresolved resolved
    | ok afterResume =>
      simp only [Operation.step, routed, resumed, commit] at alike
      obtain ⟨unsent, row, stored, identified, running⟩ :=
        resolveEscalation_leaves found foundRun waiting routed
      obtain ⟨state, ran⟩ := OrchestratorCall.perform_resume resumed
      rcases resumeAfterEscalation_leaves found foundRun ran with ⟨task, sent⟩ | completed
      · have lengths := congrArg List.length alike.tasks
        simp only [taskOutcomes, unsent, sent, List.length_map, List.length_append,
          List.length_singleton] at lengths
        omega
      · have listed : row.outcome ∈ runOutcomes afterResume.contents :=
          alike.runs ▸ List.mem_map_of_mem stored
        obtain ⟨other, otherStored, same⟩ := List.mem_map.mp listed
        simp only [WorkflowRunModel.outcome, RunOutcome.mk.injEq] at same
        have ended := completed other otherStored (same.1.trans identified)
        rw [same.2.1, running] at ended
        cases ended

/-! ### A claimed case -/

/-- The extract step of a run of the registered workflow has failed, and an operator has claimed
its case. -/
def claimedCaseState : Database :=
  Transition.run (Operation.step [claimIntakeV1]) (.empty []) [
    (.call (.startWorkflowRun "claim_intake" "v1" [] "api" "c" none), numberedDraws 1),
    (.call (.advanceWorkflow 100 "ingest" { status := .succeeded }), numberedDraws 2),
    (.call (.advanceWorkflow 100 "extract" { status := .failedTerminal, errorCode := "E" }),
      numberedDraws 3),
    (.request (.claimEscalation 300) ⟨"key", "operator", "label"⟩, numberedDraws 4)]

theorem resolutions_differ_extract :
    ¬ResolvedAlike 300
      (Operation.step [claimIntakeV1] claimedCaseState (.request (.resolveEscalation 300
        { approve := some true, notes := "" }) ⟨"key", "operator", "label"⟩,
          numberedDraws 5)).contents
      (Operation.step [claimIntakeV1] claimedCaseState (.call (.resumeAfterEscalation 300
        [("approve", .bool true)] "api_key:operator:key"), numberedDraws 5)).contents := by
  obtain ⟨foundCase, foundRun⟩ :
      (claimedCaseState.getEscalationCase 300).map (fun esc =>
        (esc.state, esc.claimedBy, esc.workflowRunId)) =
          some (.claimed, some "api_key:operator:key", 100) ∧
      (claimedCaseState.getWorkflowRun 100).map (fun run => run.state) = some .awaitingHuman := by
    decide +kernel
  obtain ⟨esc, found, same⟩ := Option.map_eq_some_iff.mp foundCase
  obtain ⟨run, runFound, waiting⟩ := Option.map_eq_some_iff.mp foundRun
  obtain ⟨state, heldBy, ofRun⟩ : _ ∧ _ ∧ _ := by simpa only [Prod.mk.injEq] using same
  exact resolutions_differ [claimIntakeV1] claimedCaseState (numberedDraws 5) (numberedDraws 5) 300
    { approve := some true, notes := "" } [("approve", .bool true)] ⟨"key", "operator", "label"⟩
    esc run found ⟨state, heldBy⟩ (ofRun ▸ runFound) waiting

/-- The route leaves the run running with its error, the step failed, attempt number 99 and no next
attempt; the orchestrator clears the error, marks the step succeeded, numbers the attempt 2 and
schedules the next step. -/
theorem resolve_leaves_step_failed :
    let routed := (Operation.step [claimIntakeV1] claimedCaseState (.request
      (.resolveEscalation 300 { notes := "" }) ⟨"key", "operator", "label"⟩,
        numberedDraws 5)).contents
    let resumed := (Operation.step [claimIntakeV1] claimedCaseState (.call
      (.resumeAfterEscalation 300 [] "api_key:operator:key"), numberedDraws 5)).contents
    runOutcomes routed = [⟨100, .running, 3, some 102, some "E", none⟩] ∧
      runOutcomes resumed = [⟨100, .running, 3, some 103, none, none⟩] ∧
      (stepOutcomes routed)[1]? = some (102, .failedTerminal, true) ∧
      (stepOutcomes resumed)[1]? = some (102, .succeeded, true) ∧
      (attemptOutcomes routed).drop 2 = [(102, 99, .succeeded, .human)] ∧
      (attemptOutcomes resumed).drop 2 =
        [(102, 2, .succeeded, .human), (103, 1, .queued, .system)] ∧
      ¬ResolvedAlike 300 routed resumed := by
  have unlike {first second : Contents}
      (lengths : (attemptOutcomes first).length ≠ (attemptOutcomes second).length) :
      ¬ResolvedAlike 300 first second := fun alike =>
    lengths (congrArg List.length alike.attempts)
  -- The parts are decided together, so that the two states are computed once.
  refine And.imp_right (And.imp_right (And.imp_right (And.imp_right (And.imp_right
    (And.imp_right unlike))))) ?_
  decide +kernel

end InsuranceOps
