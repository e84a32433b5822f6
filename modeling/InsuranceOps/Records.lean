/-
This file says what the system never takes back while transactions commit one
after the other. Whatever the orchestrator, the routes, the relay, the
scheduler, the workers, the reaper and the operators do, no row is deleted or
moved: attachments and audit events are only added, every other row keeps what
identifies it, a run changes its state only with a higher version, a finished
attempt and a sent task stay as they are, and a case that left `open` keeps its
claim.
-/

import InsuranceOps.FinishedRuns
import InsuranceOps.Outcomes
import InsuranceOps.Library.RowHistory

namespace InsuranceOps

open Relational WorkflowOrchestrator

/-! ### Later forms of a row -/

/-- A later form of a run: it keeps what it was created with, and its state and its last error
change only when its version grows. -/
structure WorkflowRunModel.Follows (old row : WorkflowRunModel) : Prop where
  identity : (row.workflowRunId, row.workflowName, row.workflowVersion) =
    (old.workflowRunId, old.workflowName, old.workflowVersion)
  created : (row.createdAt, row.createdBy, row.deadlineAt) =
    (old.createdAt, old.createdBy, old.deadlineAt)
  version : old.version < row.version ∨ row.version = old.version ∧ row.state = old.state ∧
    row.lastErrorCode = old.lastErrorCode ∧ row.lastErrorDetail = old.lastErrorDetail

/-- A later form of a step: it keeps its place in its run and its settings. -/
structure StepModel.Follows (old row : StepModel) : Prop where
  identity : (row.stepId, row.workflowRunId, row.stepName, row.stepIndex) =
    (old.stepId, old.workflowRunId, old.stepName, old.stepIndex)
  settings : (row.maxAttempts, row.escalateOnFailure, row.retryPolicy, row.createdAt) =
    (old.maxAttempts, old.escalateOnFailure, old.retryPolicy, old.createdAt)

/-- A later form of an attempt: it keeps what it was created with, and a finished one does not
change at all. -/
structure StepAttemptModel.Follows (old row : StepAttemptModel) : Prop where
  identity : (row.stepAttemptId, row.stepId, row.stepAttemptNumber, row.origin) =
    (old.stepAttemptId, old.stepId, old.stepAttemptNumber, old.origin)
  created : (row.scheduledFor, row.createdAt) = (old.scheduledFor, old.createdAt)
  finished : old.state.isFinished = true → row = old

/-- A later form of a task: it keeps its payload and its due time, its attempts are only counted
up, and one that was sent does not change at all. -/
structure TasksOutboxModel.Follows (old row : TasksOutboxModel) : Prop where
  same : row.SameTask old
  due : (row.scheduledFor, row.createdAt) = (old.scheduledFor, old.createdAt)
  attempts : old.attempts ≤ row.attempts
  sent : old.enqueuedAt ≠ none → row = old

/-- A later form of a case: it keeps what it was opened with, and once it is not open any more it
stays so and keeps its claim. -/
structure EscalationCaseModel.Follows (old row : EscalationCaseModel) : Prop where
  identity : (row.escalationId, row.workflowRunId, row.stepId) =
    (old.escalationId, old.workflowRunId, old.stepId)
  opened : (row.reasonCode, row.reasonDetail, row.expiresAt, row.createdAt) =
    (old.reasonCode, old.reasonDetail, old.expiresAt, old.createdAt)
  claim : old.state ≠ .opened → row.state ≠ .opened ∧ row.claimedBy = old.claimedBy ∧
    row.claimedAt = old.claimedAt

theorem WorkflowRunModel.follows_refl (row : WorkflowRunModel) : row.Follows row :=
  ⟨rfl, rfl, .inr ⟨rfl, rfl, rfl, rfl⟩⟩

theorem StepModel.follows_refl (row : StepModel) : row.Follows row := ⟨rfl, rfl⟩

theorem StepAttemptModel.follows_refl (row : StepAttemptModel) : row.Follows row :=
  ⟨rfl, rfl, fun _ => rfl⟩

theorem TasksOutboxModel.follows_refl (row : TasksOutboxModel) : row.Follows row :=
  ⟨.refl row, rfl, le_rfl, fun _ => rfl⟩

theorem EscalationCaseModel.follows_refl (row : EscalationCaseModel) : row.Follows row :=
  ⟨rfl, rfl, fun left => ⟨left, rfl, rfl⟩⟩

theorem WorkflowRunModel.Follows.trans (old between row : WorkflowRunModel)
    (first : old.Follows between) (second : between.Follows row) : old.Follows row where
  identity := second.identity.trans first.identity
  created := second.created.trans first.created
  version := by
    rcases first.version with grown | ⟨same, state, code, detail⟩ <;>
      rcases second.version with grownLater | ⟨sameLater, stateLater, codeLater, detailLater⟩
    · exact .inl (grown.trans grownLater)
    · exact .inl (sameLater ▸ grown)
    · exact .inl (same ▸ grownLater)
    · exact .inr ⟨sameLater.trans same, stateLater.trans state, codeLater.trans code,
        detailLater.trans detail⟩

theorem StepModel.Follows.trans (old between row : StepModel) (first : old.Follows between)
    (second : between.Follows row) : old.Follows row :=
  ⟨second.identity.trans first.identity, second.settings.trans first.settings⟩

theorem StepAttemptModel.Follows.trans (old between row : StepAttemptModel)
    (first : old.Follows between) (second : between.Follows row) : old.Follows row where
  identity := second.identity.trans first.identity
  created := second.created.trans first.created
  finished ended := by
    obtain rfl := first.finished ended
    exact second.finished ended

theorem TasksOutboxModel.Follows.trans (old between row : TasksOutboxModel)
    (first : old.Follows between) (second : between.Follows row) : old.Follows row where
  same := second.same.trans first.same
  due := second.due.trans first.due
  attempts := first.attempts.trans second.attempts
  sent enqueued := by
    obtain rfl := first.sent enqueued
    exact second.sent enqueued

theorem EscalationCaseModel.Follows.trans (old between row : EscalationCaseModel)
    (first : old.Follows between) (second : between.Follows row) : old.Follows row where
  identity := second.identity.trans first.identity
  opened := second.opened.trans first.opened
  claim left := by
    obtain ⟨leftBetween, claimedBy, claimedAt⟩ := first.claim left
    obtain ⟨leftLater, claimedByLater, claimedAtLater⟩ := second.claim leftBetween
    exact ⟨leftLater, claimedByLater.trans claimedBy, claimedAtLater.trans claimedAt⟩

/-! ### Later forms of the database -/

/-- Nothing the earlier rows record was taken back. -/
structure RecordsKept (before after : Contents) : Prop where
  documents : after.documents = before.documents
  runs : Evolves WorkflowRunModel.Follows before.workflowRuns after.workflowRuns
  attachments : Evolves Eq before.workflowRunDocuments after.workflowRunDocuments
  steps : Evolves StepModel.Follows before.steps after.steps
  attempts : Evolves StepAttemptModel.Follows before.stepAttempts after.stepAttempts
  tasks : Evolves TasksOutboxModel.Follows before.tasksOutbox after.tasksOutbox
  cases : Evolves EscalationCaseModel.Follows before.escalationCases after.escalationCases
  events : Evolves Eq before.auditEvents after.auditEvents

theorem RecordsKept.refl (contents : Contents) : RecordsKept contents contents where
  documents := rfl
  runs := evolves_refl WorkflowRunModel.follows_refl _
  attachments := evolves_refl (fun _ => rfl) _
  steps := evolves_refl StepModel.follows_refl _
  attempts := evolves_refl StepAttemptModel.follows_refl _
  tasks := evolves_refl TasksOutboxModel.follows_refl _
  cases := evolves_refl EscalationCaseModel.follows_refl _
  events := evolves_refl (fun _ => rfl) _

theorem RecordsKept.trans {before middle after : Contents} (first : RecordsKept before middle)
    (second : RecordsKept middle after) : RecordsKept before after where
  documents := second.documents.trans first.documents
  runs := first.runs.trans WorkflowRunModel.Follows.trans second.runs
  attachments := first.attachments.trans (fun _ _ _ => Eq.trans) second.attachments
  steps := first.steps.trans StepModel.Follows.trans second.steps
  attempts := first.attempts.trans StepAttemptModel.Follows.trans second.attempts
  tasks := first.tasks.trans TasksOutboxModel.Follows.trans second.tasks
  cases := first.cases.trans EscalationCaseModel.Follows.trans second.cases
  events := first.events.trans (fun _ _ _ => Eq.trans) second.events

section Moves

variable {runs : List WorkflowRunModel} {steps : List StepModel}
  {cases : List EscalationCaseModel}

/-- An update of runs that keeps what they were created with and counts their version up. -/
theorem evolves_runs {selects : WorkflowRunModel → Bool}
    (change : WorkflowRunModel → WorkflowRunModel)
    (moves : ∀ row : WorkflowRunModel, row.Follows (change row)) :
    Evolves WorkflowRunModel.Follows runs (updateRows selects change runs) :=
  evolves_updateRows WorkflowRunModel.follows_refl fun row _ _ => moves row

theorem evolves_steps {selects : StepModel → Bool} (change : StepModel → StepModel)
    (moves : ∀ row : StepModel, row.Follows (change row)) :
    Evolves StepModel.Follows steps (updateRows selects change steps) :=
  evolves_updateRows StepModel.follows_refl fun row _ _ => moves row

theorem evolves_events (events : List AuditEventModel) (call : AppendCall) (draw : EventDraw) :
    Evolves Eq events (appendAuditEvent events call draw) :=
  evolves_append (fun _ => rfl) _ _

/-- A change of runs that counts the version up. -/
theorem WorkflowRunModel.Follows.of_grown {old row : WorkflowRunModel}
    (identity : (row.workflowRunId, row.workflowName, row.workflowVersion) =
      (old.workflowRunId, old.workflowName, old.workflowVersion))
    (created : (row.createdAt, row.createdBy, row.deadlineAt) =
      (old.createdAt, old.createdBy, old.deadlineAt))
    (grown : row.version = old.version + 1) : old.Follows row :=
  ⟨identity, created, .inl (grown ▸ Nat.lt_succ_self _)⟩

end Moves

/-! ### The orchestrator -/

section Operations

variable {registry : WorkflowRegistry} {db next : Database} {draws : Draws}
  {state : WorkflowRunState} {run : WorkflowRunModel} {listed : List StepModel}
  {currentStep : StepModel} {stepResult : StepResult} {reasonCode : String} {now : Timestamp}
  {newId : UUID} {random : UnitDraw} {event : EventDraw} {principal : ApiKeyPrincipal}

theorem started_kept {new : NewRun} (started : Started db next new) :
    RecordsKept db.contents next.contents := by
  rw [started.contents]
  exact { RecordsKept.refl db.contents with
    runs := evolves_append WorkflowRunModel.follows_refl _ _
    attachments := evolves_append (fun _ => rfl) _ _
    steps := evolves_append StepModel.follows_refl _ _
    attempts := evolves_append StepAttemptModel.follows_refl _ _
    tasks := evolves_append TasksOutboxModel.follows_refl _ _
    events := evolves_events _ _ _ }

theorem handleSucceeded_kept
    (ran : handleSucceeded registry db run listed currentStep now newId event =
      .ok (next, state)) : RecordsKept db.contents next.contents := by
  have succeeds (row : StepModel) : row.Follows (row.succeed now) := ⟨rfl, rfl⟩
  rcases handleSucceeded_ok ran with ⟨-, -, contents⟩ | ⟨successor, -, -, -, contents⟩
  · rw [contents]
    exact { RecordsKept.refl db.contents with
      runs := evolves_runs (WorkflowRunModel.complete now) fun _ => .of_grown rfl rfl rfl
      steps := evolves_steps (StepModel.succeed now) succeeds
      events := evolves_events _ _ _ }
  · rw [contents]
    exact { RecordsKept.refl db.contents with
      runs := evolves_runs (WorkflowRunModel.moveTo successor.stepId now)
        fun _ => ⟨rfl, rfl, .inr ⟨rfl, rfl, rfl, rfl⟩⟩
      steps := evolves_steps (StepModel.succeed now) succeeds
      attempts := evolves_append StepAttemptModel.follows_refl _ _
      tasks := evolves_append TasksOutboxModel.follows_refl _ _
      events := evolves_events _ _ _ }

theorem createEscalation_kept
    (ran : createEscalation db run currentStep stepResult reasonCode now newId event =
      .ok (next, state)) : RecordsKept db.contents next.contents := by
  obtain ⟨-, -, contents⟩ := createEscalation_ok ran
  rw [contents]
  exact { RecordsKept.refl db.contents with
    runs := evolves_runs (WorkflowRunModel.awaitHuman stepResult now)
      fun _ => .of_grown rfl rfl rfl
    cases := evolves_append EscalationCaseModel.follows_refl _ _
    events := evolves_events _ _ _ }

theorem handleFailedTerminal_kept
    (ran : handleFailedTerminal db run currentStep stepResult now newId event =
      .ok (next, state)) : RecordsKept db.contents next.contents := by
  have fails (row : StepModel) : row.Follows (row.failTerminal now) := ⟨rfl, rfl⟩
  rcases handleFailedTerminal_ok ran with ⟨-, created⟩ | ⟨-, -, contents⟩
  · have failed : RecordsKept db.contents
        (db.updateStep currentStep.stepId (StepModel.failTerminal now)).contents :=
      { RecordsKept.refl db.contents with
        steps := evolves_steps (StepModel.failTerminal now) fails }
    exact failed.trans (createEscalation_kept created)
  · rw [contents]
    exact { RecordsKept.refl db.contents with
      runs := evolves_runs (WorkflowRunModel.fail stepResult now)
        fun _ => .of_grown rfl rfl rfl
      steps := evolves_steps (StepModel.failTerminal now) fails
      events := evolves_events _ _ _ }

theorem handleFailedRetryable_kept
    (ran : handleFailedRetryable registry db run currentStep stepResult now newId random event =
      .ok (next, state)) : RecordsKept db.contents next.contents := by
  rcases handleFailedRetryable_ok ran with ⟨-, -, -, contents⟩ | ⟨-, failed⟩
  · rw [contents]
    exact { RecordsKept.refl db.contents with
      steps := evolves_steps StepModel.failRetryable fun _ => ⟨rfl, rfl⟩
      attempts := evolves_append StepAttemptModel.follows_refl _ _
      tasks := evolves_append TasksOutboxModel.follows_refl _ _
      events := evolves_events _ _ _ }
  · exact handleFailedTerminal_kept failed

theorem advanceWorkflow_kept {workflowRunId : UUID} {completedStepName : String}
    (ran : advanceWorkflow registry db draws workflowRunId completedStepName stepResult =
      .ok (next, state)) : RecordsKept db.contents next.contents := by
  obtain ⟨run, currentStep, -, -, handled⟩ := advanceWorkflow_ok ran
  cases status : stepResult.status with
  | succeeded =>
    rw [status] at handled
    exact handleSucceeded_kept handled
  | failedRetryable =>
    rw [status] at handled
    exact handleFailedRetryable_kept handled
  | failedTerminal =>
    rw [status] at handled
    exact handleFailedTerminal_kept handled
  | escalate =>
    rw [status] at handled
    exact createEscalation_kept handled

/-- Deciding a case takes it out of `open` and leaves its claim alone. -/
theorem EscalationCaseModel.Follows.of_decided {verdict : EscalationState}
    (closed : verdict ≠ .opened) (actor : String) (payload : JsonObject) (now : Timestamp)
    (row : EscalationCaseModel) : row.Follows (row.decide verdict actor payload now) :=
  ⟨rfl, rfl, fun _ => ⟨closed, rfl, rfl⟩⟩

/-- What a resolution writes before the step is handled as succeeded. -/
theorem resumed_kept {resumed : Database} {escalationId : UUID} {resolutionPayload : JsonObject}
    {actor : String} {attempt : StepAttemptModel} {workflowRunId : UUID} {call : AppendCall}
    (contents : resumed.contents = { db.contents with
      escalationCases := updateRows (fun row => row.escalationId = escalationId)
        (EscalationCaseModel.decide .resolved actor resolutionPayload now)
        db.contents.escalationCases
      stepAttempts := db.contents.stepAttempts ++ [attempt]
      steps := updateRows (fun row => row.stepId = currentStep.stepId) (StepModel.succeed now)
        db.contents.steps
      workflowRuns := updateRows (fun row => row.workflowRunId = workflowRunId)
        (WorkflowRunModel.resume now) db.contents.workflowRuns
      auditEvents := appendAuditEvent db.contents.auditEvents call event }) :
    RecordsKept db.contents resumed.contents := by
  rw [contents]
  exact { RecordsKept.refl db.contents with
    runs := evolves_runs (WorkflowRunModel.resume now) fun _ => .of_grown rfl rfl rfl
    steps := evolves_steps (StepModel.succeed now) fun _ => ⟨rfl, rfl⟩
    attempts := evolves_append StepAttemptModel.follows_refl _ _
    cases := evolves_updateRows EscalationCaseModel.follows_refl
      fun row _ _ => .of_decided (by decide) actor resolutionPayload now row
    events := evolves_events _ _ _ }

theorem resumeAfterEscalation_kept {escalationId : UUID} {resolutionPayload : JsonObject}
    {actor : String}
    (ran : resumeAfterEscalation registry db draws escalationId resolutionPayload actor =
      .ok (next, state)) : RecordsKept db.contents next.contents := by
  obtain ⟨_, currentStep, _, -, -, -, -, resumed, contents, handled⟩ := resumeAfterEscalation_ok ran
  exact (resumed_kept contents).trans (handleSucceeded_kept handled)

theorem OrchestratorCall.kept {call : OrchestratorCall}
    (ran : call.perform registry db draws = .ok next) : RecordsKept db.contents next.contents := by
  cases call with
  | startWorkflowRun workflowName workflowVersion documentIds actor correlationId deadline =>
    obtain ⟨_, ran⟩ := OrchestratorCall.perform_start ran
    obtain ⟨new, started, -⟩ := startWorkflowRun_ok ran
    exact started_kept started
  | advanceWorkflow workflowRunId completedStepName stepResult =>
    obtain ⟨_, ran⟩ := OrchestratorCall.perform_advance ran
    exact advanceWorkflow_kept ran
  | resumeAfterEscalation escalationId resolutionPayload actor =>
    obtain ⟨_, ran⟩ := OrchestratorCall.perform_resume ran
    exact resumeAfterEscalation_kept ran
  | cancelWorkflow workflowRunId actor reason =>
    obtain ⟨_, -, -, contents⟩ := cancelWorkflow_ok ran
    rw [contents]
    exact { RecordsKept.refl db.contents with
      runs := evolves_runs (WorkflowRunModel.cancel (draws.now 0))
        fun _ => .of_grown rfl rfl rfl
      events := evolves_events _ _ _ }

/-! ### The routes -/

theorem RouteRequest.kept {request : RouteRequest}
    (ran : request.perform registry db draws principal = .ok next) :
    RecordsKept db.contents next.contents := by
  cases request with
  | createWorkflowRun body =>
    obtain ⟨_, ran⟩ := RouteRequest.perform_create ran
    obtain ⟨new, started, -⟩ := createWorkflowRun_ok ran
    exact started_kept started
  | cancelWorkflowRun workflowRunId body =>
    obtain ⟨_, _, -, -, contents⟩ := cancelWorkflowRun_ok ran
    rw [contents]
    exact { RecordsKept.refl db.contents with
      runs := evolves_runs (WorkflowRunModel.cancel (draws.now 0))
        fun _ => .of_grown rfl rfl rfl
      events := evolves_events _ _ _ }
  | claimEscalation escalationId =>
    obtain ⟨found, _, lookup, opened, contents⟩ := claimEscalation_ok ran
    rw [contents]
    exact { RecordsKept.refl db.contents with
      cases := evolves_updateRows EscalationCaseModel.follows_refl fun row stored selected => by
        obtain rfl := eq_of_find? (fun row : EscalationCaseModel => row.escalationId)
          db.escalationCases_distinct lookup stored (of_decide_eq_true selected)
        exact ⟨rfl, rfl, fun left => absurd opened left⟩
      events := evolves_events _ _ _ }
  | resolveEscalation escalationId body =>
    obtain ⟨_, _, _, -, -, -, contents⟩ := resolveEscalation_ok ran
    rw [contents]
    exact { RecordsKept.refl db.contents with
      runs := evolves_runs (WorkflowRunModel.resumeWaiting (draws.now 0))
        fun _ => .of_grown rfl rfl rfl
      attempts := evolves_append StepAttemptModel.follows_refl _ _
      cases := evolves_updateRows EscalationCaseModel.follows_refl
        fun row _ _ => .of_decided (by decide) _ _ (draws.now 0) row
      events := evolves_events _ _ _ }
  | rejectEscalation escalationId body =>
    obtain ⟨_, _, _, -, -, contents⟩ := rejectEscalation_ok ran
    rw [contents]
    exact { RecordsKept.refl db.contents with
      runs := evolves_runs (WorkflowRunModel.rejectCase body.notes (draws.now 0))
        fun _ => .of_grown rfl rfl rfl
      cases := evolves_updateRows EscalationCaseModel.follows_refl
        fun row _ _ => .of_decided (by decide) _ _ (draws.now 0) row
      events := evolves_events _ _ _ }

end Operations

/-! ### The worker -/

section Worker

variable {loads : String → Option Json} {handle : String → StepContext → HandlerReturn}

/-- An outcome keeps the step, the number and the origin of its attempt. -/
theorem TaskOutcome.attemptChange_keeps {outcome : TaskOutcome} {now : Timestamp}
    {change : StepAttemptModel → StepAttemptModel}
    (written : outcome.attemptChange now = some change) (row : StepAttemptModel) :
    (change row).stepId = row.stepId ∧ (change row).stepAttemptNumber = row.stepAttemptNumber ∧
      (change row).origin = row.origin := by
  cases outcome with
  | success output =>
    cases output with
    | none =>
      cases written
      exact ⟨rfl, rfl, rfl⟩
    | some _ => cases written
  | failRetryable errorCode errorDetail =>
    cases written
    exact ⟨rfl, rfl, rfl⟩
  | failTerminal errorCode errorDetail =>
    cases written
    exact ⟨rfl, rfl, rfl⟩

/-- Marking an unfinished attempt and writing its outcome keeps what it was created with. -/
theorem StepAttemptModel.Follows.of_outcome {outcome : TaskOutcome} {begun ended : Timestamp}
    {change : StepAttemptModel → StepAttemptModel}
    (written : outcome.attemptChange ended = some change) {row : StepAttemptModel}
    (unfinished : row.state.isFinished = false) : row.Follows (change (row.begin begun)) := by
  have unended : row.state.isFinished ≠ true := by
    rw [unfinished]
    exact Bool.false_ne_true
  cases outcome with
  | success output =>
    cases output with
    | none =>
      cases written
      exact ⟨rfl, rfl, fun finished => absurd finished unended⟩
    | some _ => cases written
  | failRetryable errorCode errorDetail =>
    cases written
    exact ⟨rfl, rfl, fun finished => absurd finished unended⟩
  | failTerminal errorCode errorDetail =>
    cases written
    exact ⟨rfl, rfl, fun finished => absurd finished unended⟩

theorem StepModel.Follows.of_outcome (outcome : TaskOutcome) (now : Timestamp)
    (row : StepModel) : row.Follows (outcome.stepChange now row) := by
  cases outcome <;> exact ⟨rfl, rfl⟩

theorem committed_kept (db : Database) (draws : Draws) (workerId : String)
    (payload : JsonObject) : RecordsKept db.contents
      (committed db (processTask loads handle db draws workerId payload)).contents := by
  cases processed : processTask loads handle db draws workerId payload with
  | error failure => exact .refl _
  | ok disposition =>
    cases disposition with
    | deadLetter => exact .refl _
    | alreadyTerminal => exact .refl _
    | written flushed =>
      obtain ⟨rows, outcome, loaded, unfinished, -, written⟩ := processTask_steps processed
      obtain ⟨change, changes, contents⟩ := writeOutcome_contents written
      obtain ⟨found, -, -⟩ := loadRows_ok loaded
      rw [Database.contents_updateStepAttempt] at contents
      dsimp only at contents
      rw [updateRows_updateRows _ (StepAttemptModel.begin (draws.now 0)) change fun _ => rfl]
        at contents
      show RecordsKept db.contents flushed.contents
      rw [contents]
      exact { RecordsKept.refl db.contents with
        steps := evolves_steps (outcome.stepChange (draws.now 1)) (.of_outcome outcome _)
        attempts := evolves_updateRows StepAttemptModel.follows_refl fun row stored selected => by
          obtain rfl := eq_of_find? (fun row : StepAttemptModel => row.stepAttemptId)
            db.stepAttempts_distinct found stored (of_decide_eq_true selected)
          exact .of_outcome changes unfinished
        events := evolves_events _ _ _ }

theorem workerIteration_kept (draws : Draws) (workerId : String) (db : Database)
    (queue : TaskQueue) : RecordsKept db.contents
      (workerIteration loads handle draws workerId db queue).1.contents := by
  cases claim : queue.claim workerId with
  | none =>
    unfold workerIteration
    rw [claim]
    exact .refl _
  | some claimed =>
    rw [workerIteration_some claim, settle_fst]
    exact committed_kept db draws workerId claimed.1

end Worker

/-! ### The relay -/

section Relay

variable (draws : RelayDraws)

/-- Relaying an entry changes no row but its own, which was still pending. -/
theorem relayEntry_kept {db next : Database} (index : Nat) {entry : TasksOutboxModel}
    {queue : TaskQueue} (pending : ∀ row ∈ db.contents.tasksOutbox, row.outboxId = entry.outboxId →
      row.enqueuedAt = none) (relayed : (relayEntry draws index entry db queue).1 = .ok next) :
    RecordsKept db.contents next.contents ∧
      ∀ row ∈ next.contents.tasksOutbox, row.outboxId = entry.outboxId ∨
        row ∈ db.contents.tasksOutbox := by
  have moved (change : TasksOutboxModel → TasksOutboxModel)
      (keeps : ∀ row, (change row).outboxId = row.outboxId)
      (moves : ∀ row : TasksOutboxModel, row.enqueuedAt = none → row.Follows (change row)) :
      RecordsKept db.contents (db.updateTasksOutbox entry.outboxId change keeps).contents ∧
        ∀ row ∈ (db.updateTasksOutbox entry.outboxId change keeps).contents.tasksOutbox,
          row.outboxId = entry.outboxId ∨ row ∈ db.contents.tasksOutbox := by
    refine ⟨{ RecordsKept.refl db.contents with
      tasks := evolves_updateRows TasksOutboxModel.follows_refl fun row stored selected =>
        moves row (pending row stored (of_decide_eq_true selected)) }, fun row stored => ?_⟩
    obtain ⟨old, oldStored, rfl⟩ := mem_updateRows.mp stored
    by_cases selected : old.outboxId = entry.outboxId
    · rw [if_pos (decide_eq_true selected)]
      exact .inl ((keeps old).trans selected)
    · rw [if_neg (by simpa using selected)]
      exact .inr oldStored
  unfold relayEntry at relayed
  split at relayed
  · cases relayed
    exact moved _ _ fun row unsent =>
      ⟨⟨rfl, rfl, rfl, rfl, rfl⟩, rfl, le_rfl, fun sent => absurd unsent sent⟩
  · unfold Database.incrementAttempts at relayed
    split at relayed
    · cases relayed
      exact moved _ _ fun row unsent =>
        ⟨⟨rfl, rfl, rfl, rfl, rfl⟩, rfl, Nat.le_succ _, fun sent => absurd unsent sent⟩
    · cases relayed

theorem relayEntries_kept {db next : Database} (index : Nat) {entries : List TasksOutboxModel}
    {queue : TaskQueue} (distinct : (entries.map fun entry => entry.outboxId).Nodup)
    (pending : ∀ entry ∈ entries, ∀ row ∈ db.contents.tasksOutbox,
      row.outboxId = entry.outboxId → row.enqueuedAt = none)
    (relayed : (relayEntries draws index entries db queue).1 = .ok next) :
    RecordsKept db.contents next.contents := by
  induction entries generalizing index db queue with
  | nil =>
    cases relayed
    exact .refl _
  | cons entry rest inductionHypothesis =>
    rw [List.map_cons, List.nodup_cons] at distinct
    unfold relayEntries at relayed
    obtain ⟨flushed, pushed, result⟩ : ∃ flushed pushed,
        relayEntry draws index entry db queue = (flushed, pushed) := ⟨_, _, rfl⟩
    rw [result] at relayed
    cases flushed with
    | error failure => cases relayed
    | ok middle =>
      obtain ⟨kept, others⟩ := relayEntry_kept draws index (pending entry List.mem_cons_self)
        (congrArg Prod.fst result)
      refine kept.trans (inductionHypothesis (index + 1) distinct.2 ?_ relayed)
      intro other member row stored same
      rcases others row stored with own | old
      · exact absurd (List.mem_map.mpr ⟨other, member, same.symm.trans own⟩) distinct.1
      · exact pending other (List.mem_cons_of_mem _ member) row old same

theorem relayBatch_kept (db : Database) (queue : TaskQueue) :
    RecordsKept db.contents (relayBatch draws db queue).1.contents := by
  unfold relayBatch
  split
  · refine commit_induction (fun next => RecordsKept db.contents next.contents) (.refl _)
      fun next relayed => relayEntries_kept draws 0 (getPending_distinct db 100) ?_ relayed
    intro entry member row stored same
    obtain ⟨entryStored, unsent⟩ := mem_getPending member
    have found := find?_of_mem (fun row : TasksOutboxModel => row.outboxId)
      db.tasksOutbox_distinct entryStored
    obtain rfl := eq_of_find? (fun row : TasksOutboxModel => row.outboxId)
      db.tasksOutbox_distinct found stored same
    exact unsent
  · exact .refl _

end Relay

/-! ### Runs of the system -/

variable (registry : WorkflowRegistry) (loads : String → Option Json)

theorem SystemEvent.step_kept (platform : Platform) (event : SystemEvent) :
    RecordsKept platform.db.contents
      (SystemEvent.step registry loads platform event).db.contents := by
  cases event with
  | platform event =>
    cases event with
    | request made principal draws =>
      exact commit_induction (fun next => RecordsKept platform.db.contents next.contents) (.refl _)
        fun next ran => RouteRequest.kept ran
    | relay draws => exact relayBatch_kept draws _ _
    | schedule acquired now => exact .refl _
    | work workerId returned draws => exact workerIteration_kept draws workerId _ _
    | reap visibilityTimeout now workerIds => exact .refl _
  | call made draws =>
    exact commit_induction (fun next => RecordsKept platform.db.contents next.contents) (.refl _)
      fun next ran => OrchestratorCall.kept ran
  | reap workerId target payload => exact .refl _
  | requeueFromDlq payload =>
    rw [SystemEvent.step]
    split <;> exact .refl _
  | dropFromDlq payload => exact .refl _

/-- Transactions commit one after the other. Then whatever the processes, the routes and the
operators do, no row of the tables is deleted or moved, documents, attachments and audit events are
never changed, and every other row is a later form of what it was. The operations only append rows
and update columns in place, so each is checked column by column. Overlapping transactions are not
covered: a stale flush takes back a state. -/
theorem records_kept (start : Platform) (events : List SystemEvent) :
    RecordsKept start.db.contents
      (Transition.run (SystemEvent.step registry loads) start events).db.contents :=
  Transition.run_invariant_always (SystemEvent.step registry loads)
    (fun platform => RecordsKept start.db.contents platform.db.contents)
    (fun platform event kept => kept.trans (SystemEvent.step_kept registry loads platform event))
    start (.refl _) events

/-- So a case that was claimed once is never claimed by another principal. -/
theorem claim_kept (start : Platform) (events : List SystemEvent) (escalationId : UUID)
    (claimed : EscalationCaseModel)
    (found : start.db.getEscalationCase escalationId = some claimed)
    (left : claimed.state ≠ .opened) :
    ∃ later, (Transition.run (SystemEvent.step registry loads) start events).db.getEscalationCase
      escalationId = some later ∧ later.state ≠ .opened ∧ later.claimedBy = claimed.claimedBy := by
  have keyed (old row : EscalationCaseModel) (follows : old.Follows row) :
      row.escalationId = old.escalationId := congrArg Prod.fst follows.identity
  obtain ⟨later, foundLater, follows⟩ := (records_kept registry loads start events).cases.find?
    keyed found
  obtain ⟨leftLater, claimedBy, -⟩ := follows.claim left
  exact ⟨later, foundLater, leftLater, claimedBy⟩

end InsuranceOps
