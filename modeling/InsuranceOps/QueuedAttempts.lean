/-
This file follows attempts that wait for a worker. Whatever writes the database,
the relay apart, adds pending rows to the outbox and changes none that is
stored; an attempt becomes queued when it is created, in the transaction that
adds its row, and never again.
-/

import InsuranceOps.Platform

namespace InsuranceOps

open Relational WorkflowOrchestrator

/-- The outbox grew by pending rows, no attempt is gone, and every attempt that is queued was queued
before or is new and has a new row addressed to it. -/
structure Schedules (before after : Contents) : Prop where
  kept : ∀ task ∈ before.tasksOutbox, task ∈ after.tasksOutbox
  pending : ∀ task ∈ after.tasksOutbox, task ∈ before.tasksOutbox ∨ task.enqueuedAt = none
  attempts : ∀ old ∈ before.stepAttempts,
    ∃ later ∈ after.stepAttempts, later.stepAttemptId = old.stepAttemptId
  queued : ∀ attempt ∈ after.stepAttempts, attempt.state = .queued →
    (∃ old ∈ before.stepAttempts, old.stepAttemptId = attempt.stepAttemptId ∧
      old.state = .queued) ∨
    (∀ old ∈ before.stepAttempts, old.stepAttemptId ≠ attempt.stepAttemptId) ∧
      ∃ task ∈ after.tasksOutbox, task ∉ before.tasksOutbox ∧ task.Addressed ∧
        task.stepAttemptId = attempt.stepAttemptId

namespace Schedules

variable {before middle after : Contents}

/-- The outbox is as it was, and no attempt is gone or became queued. -/
theorem of_attempts (tasks : after.tasksOutbox = before.tasksOutbox)
    (attempts : ∀ old ∈ before.stepAttempts,
      ∃ later ∈ after.stepAttempts, later.stepAttemptId = old.stepAttemptId)
    (queued : ∀ attempt ∈ after.stepAttempts, attempt.state = .queued →
      ∃ old ∈ before.stepAttempts, old.stepAttemptId = attempt.stepAttemptId ∧
        old.state = .queued) : Schedules before after where
  kept _ stored := tasks ▸ stored
  pending _ stored := .inl (tasks ▸ stored)
  attempts := attempts
  queued attempt stored isQueued := .inl (queued attempt stored isQueued)

theorem of_same (tasks : after.tasksOutbox = before.tasksOutbox)
    (attempts : after.stepAttempts = before.stepAttempts) : Schedules before after :=
  of_attempts tasks (fun attempt stored => ⟨attempt, attempts ▸ stored, rfl⟩)
    fun attempt stored isQueued => ⟨attempt, attempts ▸ stored, rfl, isQueued⟩

theorem refl (contents : Contents) : Schedules contents contents := of_same rfl rfl

theorem trans (first : Schedules before middle) (second : Schedules middle after) :
    Schedules before after where
  kept task stored := second.kept task (first.kept task stored)
  pending task stored := (second.pending task stored).elim (first.pending task) .inr
  attempts old stored := by
    obtain ⟨between, betweenStored, same⟩ := first.attempts old stored
    obtain ⟨later, laterStored, sameLater⟩ := second.attempts between betweenStored
    exact ⟨later, laterStored, sameLater.trans same⟩
  queued attempt stored isQueued := by
    rcases second.queued attempt stored isQueued with
      ⟨between, betweenStored, same, betweenQueued⟩ |
      ⟨fresh, task, taskStored, new, addressed, names⟩
    · rcases first.queued between betweenStored betweenQueued with
        ⟨old, oldStored, sameOld, oldQueued⟩ | ⟨fresh, task, taskStored, new, addressed, names⟩
      · exact .inl ⟨old, oldStored, sameOld.trans same, oldQueued⟩
      · exact .inr ⟨fun old oldStored => same ▸ fresh old oldStored, task,
          second.kept task taskStored, new, addressed, names.trans same⟩
    · refine .inr ⟨fun old oldStored sameOld => ?_, task, taskStored,
        fun old => new (first.kept task old), addressed, names⟩
      obtain ⟨between, betweenStored, same⟩ := first.attempts old oldStored
      exact fresh between betweenStored (same.trans sameOld)

/-- A finished attempt is added, as a human resolution does. -/
theorem of_append {attempt : StepAttemptModel} (finished : attempt.state ≠ .queued)
    (tasks : after.tasksOutbox = before.tasksOutbox)
    (attempts : after.stepAttempts = before.stepAttempts ++ [attempt]) :
    Schedules before after := by
  refine of_attempts tasks (fun old stored => ⟨old, ?_, rfl⟩) fun other stored isQueued => ?_
  · rw [attempts]
    exact List.mem_append_left _ stored
  · rw [attempts] at stored
    rcases List.mem_append.mp stored with old | new
    · exact ⟨other, old, rfl, isQueued⟩
    · rw [List.mem_singleton.mp new] at isQueued
      exact absurd isQueued finished

/-- Attempts are changed, and none of them to queued. -/
theorem of_update {selects : StepAttemptModel → Bool}
    (change : StepAttemptModel → StepAttemptModel)
    (keeps : ∀ row, (change row).stepAttemptId = row.stepAttemptId ∧ (change row).state ≠ .queued)
    (tasks : after.tasksOutbox = before.tasksOutbox)
    (attempts : after.stepAttempts = updateRows selects change before.stepAttempts) :
    Schedules before after := by
  refine of_attempts tasks (fun old stored => ?_) fun attempt stored isQueued => ?_
  · refine ⟨_, attempts ▸ mem_updateRows.mpr ⟨old, stored, rfl⟩, ?_⟩
    split
    · exact (keeps old).1
    · rfl
  · rw [attempts] at stored
    obtain ⟨old, oldStored, rfl⟩ := mem_updateRows.mp stored
    split at isQueued
    · exact absurd isQueued (keeps old).2
    · rename_i unselected
      rw [if_neg unselected]
      exact ⟨old, oldStored, rfl, isQueued⟩

/-- An attempt is scheduled: its row is added along with it. -/
theorem of_scheduled {db next : Database} {task : TasksOutboxModel} {attempt : StepAttemptModel}
    (identified : ∀ other ∈ db.contents.stepAttempts,
      other.stepAttemptId ≠ attempt.stepAttemptId)
    (pending : task.enqueuedAt = none) (addressed : task.Addressed)
    (names : task.stepAttemptId = attempt.stepAttemptId)
    (tasks : next.contents.tasksOutbox = db.contents.tasksOutbox ++ [task])
    (attempts : next.contents.stepAttempts = db.contents.stepAttempts ++ [attempt]) :
    Schedules db.contents next.contents where
  kept old stored := by
    rw [tasks]
    exact List.mem_append_left _ stored
  pending other stored := by
    rw [tasks] at stored
    refine (List.mem_append.mp stored).imp_right fun new => ?_
    rw [List.mem_singleton.mp new]
    exact pending
  attempts old stored := by
    rw [attempts]
    exact ⟨old, List.mem_append_left _ stored, rfl⟩
  queued other stored isQueued := by
    rw [attempts] at stored
    rcases List.mem_append.mp stored with old | new
    · exact .inl ⟨other, old, rfl, isQueued⟩
    · have distinct := next.tasksOutbox_distinct
      rw [tasks, List.map_append, List.nodup_append] at distinct
      rw [tasks, List.mem_singleton.mp new]
      exact .inr ⟨identified, task, List.mem_append_right _ List.mem_cons_self,
        fun old => distinct.2.2 _ (List.mem_map_of_mem old) _ List.mem_cons_self rfl, addressed,
        names⟩

end Schedules

/-! ### The orchestrator and the routes -/

section Operations

variable {registry : WorkflowRegistry} {db next : Database} {draws : Draws}
  {state : WorkflowRunState} {run : WorkflowRunModel} {steps : List StepModel}
  {currentStep : StepModel} {stepResult : StepResult} {reasonCode : String} {now : Timestamp}
  {newId : UUID} {random : UnitDraw} {event : EventDraw} {principal : ApiKeyPrincipal}

theorem started_schedules {new : NewRun} (started : Started db next new) :
    Schedules db.contents next.contents :=
  .of_scheduled started.identified started.pending started.addressed started.task.2.2
    (by rw [started.contents]) (by rw [started.contents])

theorem handleSucceeded_schedules
    (ran : handleSucceeded registry db run steps currentStep now newId event = .ok (next, state)) :
    Schedules db.contents next.contents := by
  rcases handleSucceeded_ok ran with ⟨-, -, contents⟩ | ⟨successor, -, -, admitted, contents⟩
  · exact .of_same (by rw [contents]) (by rw [contents])
  · refine .of_scheduled admitted.identified ?_ ?_ ?_ (congrArg Contents.tasksOutbox contents)
      (congrArg Contents.stepAttempts contents)
    · rfl
    · exact ⟨rfl, rfl, rfl⟩
    · rfl

theorem handleFailedTerminal_schedules
    (ran : handleFailedTerminal db run currentStep stepResult now newId event =
      .ok (next, state)) : Schedules db.contents next.contents := by
  rcases handleFailedTerminal_ok ran with ⟨-, created⟩ | ⟨-, -, contents⟩
  · obtain ⟨-, -, contents⟩ := createEscalation_ok created
    exact .of_same (by rw [contents]; rfl) (by rw [contents]; rfl)
  · exact .of_same (by rw [contents]) (by rw [contents])

theorem advanceWorkflow_schedules {workflowRunId : UUID} {completedStepName : String}
    (ran : advanceWorkflow registry db draws workflowRunId completedStepName stepResult =
      .ok (next, state)) : Schedules db.contents next.contents := by
  obtain ⟨run, currentStep, -, -, handled⟩ := advanceWorkflow_ok ran
  cases status : stepResult.status with
  | succeeded =>
    rw [status] at handled
    exact handleSucceeded_schedules handled
  | failedRetryable =>
    rw [status] at handled
    rcases handleFailedRetryable_ok handled with ⟨-, -, admitted, contents⟩ | ⟨-, failed⟩
    · refine .of_scheduled admitted.identified ?_ ?_ ?_ (congrArg Contents.tasksOutbox contents)
        (congrArg Contents.stepAttempts contents)
      · rfl
      · exact ⟨rfl, rfl, rfl⟩
      · rfl
    · exact handleFailedTerminal_schedules failed
  | failedTerminal =>
    rw [status] at handled
    exact handleFailedTerminal_schedules handled
  | escalate =>
    rw [status] at handled
    obtain ⟨-, -, contents⟩ := createEscalation_ok handled
    exact .of_same (by rw [contents]) (by rw [contents])

theorem resumeAfterEscalation_schedules {escalationId : UUID} {resolutionPayload : JsonObject}
    {actor : String}
    (ran : resumeAfterEscalation registry db draws escalationId resolutionPayload actor =
      .ok (next, state)) : Schedules db.contents next.contents := by
  obtain ⟨_, currentStep, _, -, -, -, -, resumed, contents, handled⟩ := resumeAfterEscalation_ok ran
  have human : Schedules db.contents resumed.contents := by
    refine .of_append ?_ (by rw [contents]) (congrArg Contents.stepAttempts contents)
    exact nofun
  exact human.trans (handleSucceeded_schedules handled)

theorem OrchestratorCall.schedules {call : OrchestratorCall}
    (ran : call.perform registry db draws = .ok next) :
    Schedules db.contents next.contents := by
  cases call with
  | startWorkflowRun workflowName workflowVersion documentIds actor correlationId deadline =>
    obtain ⟨_, ran⟩ := OrchestratorCall.perform_start ran
    obtain ⟨new, started, -⟩ := startWorkflowRun_ok ran
    exact started_schedules started
  | advanceWorkflow workflowRunId completedStepName stepResult =>
    obtain ⟨_, ran⟩ := OrchestratorCall.perform_advance ran
    exact advanceWorkflow_schedules ran
  | resumeAfterEscalation escalationId resolutionPayload actor =>
    obtain ⟨_, ran⟩ := OrchestratorCall.perform_resume ran
    exact resumeAfterEscalation_schedules ran
  | cancelWorkflow workflowRunId actor reason =>
    obtain ⟨_, -, -, contents⟩ := cancelWorkflow_ok ran
    exact .of_same (by rw [contents]) (by rw [contents])

theorem RouteRequest.schedules {request : RouteRequest}
    (ran : request.perform registry db draws principal = .ok next) :
    Schedules db.contents next.contents := by
  cases request with
  | createWorkflowRun body =>
    obtain ⟨_, ran⟩ := RouteRequest.perform_create ran
    obtain ⟨new, started, -⟩ := createWorkflowRun_ok ran
    exact started_schedules started
  | cancelWorkflowRun workflowRunId body =>
    obtain ⟨_, _, -, -, contents⟩ := cancelWorkflowRun_ok ran
    exact .of_same (by rw [contents]) (by rw [contents])
  | claimEscalation escalationId =>
    obtain ⟨_, _, -, -, contents⟩ := claimEscalation_ok ran
    exact .of_same (by rw [contents]) (by rw [contents])
  | resolveEscalation escalationId body =>
    obtain ⟨_, _, _, -, -, -, contents⟩ := resolveEscalation_ok ran
    refine .of_append ?_ (by rw [contents]) (congrArg Contents.stepAttempts contents)
    exact nofun
  | rejectEscalation escalationId body =>
    obtain ⟨_, _, _, -, -, contents⟩ := rejectEscalation_ok ran
    exact .of_same (by rw [contents]) (by rw [contents])

theorem Operation.step_schedules (registry : WorkflowRegistry) (db : Database)
    (operation : Operation × Draws) :
    Schedules db.contents (Operation.step registry db operation).contents := by
  refine commit_induction (fun next => Schedules db.contents next.contents) (.refl _)
    fun next ran => ?_
  match operation, ran with
  | (.call _, _), ran => exact OrchestratorCall.schedules ran
  | (.request _ _, _), ran => exact RouteRequest.schedules ran

end Operations

/-! ### The worker -/

section Worker

variable {loads : String → Option Json} {handle : String → StepContext → HandlerReturn}

theorem TaskOutcome.attemptState_ne_queued (outcome : TaskOutcome) :
    outcome.attemptState ≠ .queued := by
  cases outcome <;> exact nofun

/-- Processing a task ends its attempt and queues none. -/
theorem processTask_schedules {db flushed : Database} {draws : Draws} {workerId : String}
    {payload : JsonObject}
    (processed : processTask loads handle db draws workerId payload = .ok (.written flushed)) :
    Schedules db.contents flushed.contents := by
  obtain ⟨rows, outcome, -, -, -, written⟩ := processTask_steps processed
  obtain ⟨change, changes, contents⟩ := writeOutcome_contents written
  have begun : Schedules db.contents (db.updateStepAttempt rows.attempt.stepAttemptId
      (StepAttemptModel.begin (draws.now 0))).contents :=
    .of_update (StepAttemptModel.begin (draws.now 0)) (fun _ => ⟨rfl, nofun⟩) rfl rfl
  refine begun.trans (.of_update change (fun row =>
    ⟨TaskOutcome.attemptChange_stepAttemptId changes row, ?_⟩) (by rw [contents])
    (by rw [contents]))
  rw [TaskOutcome.attemptChange_state changes row]
  exact outcome.attemptState_ne_queued

end Worker

end InsuranceOps
