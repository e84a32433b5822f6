/-
This file asks whether work is still done for a run that is completed, failed or
cancelled. A task of the run may wait in the ready list, the delayed set, an
inflight list or the dead letters when the run ends, and is delivered at any
time afterwards. The worker loads the run with the task and never looks at its
state: what keeps it from work is the state of the attempt alone.
-/

import InsuranceOps.Commands
import InsuranceOps.Cursor
import InsuranceOps.Platform

namespace InsuranceOps

open ListStore Relational

/-! ### The platform with its reaper and its operators -/

/-- A step of the platform, a call of the orchestrator, or a move of a task by the reaper or an
operator. A transaction is one step, so each one commits before the next begins, and Redis loses
nothing. -/
inductive SystemEvent where
  | platform (event : PlatformEvent)
  | call (made : OrchestratorCall) (draws : Draws)
  | reap (workerId : String) (target : MoveTarget) (payload : JsonObject)
  | requeueFromDlq (payload : JsonObject)
  | dropFromDlq (payload : JsonObject)

/-- The step of the platform with its reaper and its operators. The reaper works from a snapshot of
an inflight list, so the task it moves need not be there any more. -/
def SystemEvent.step (registry : WorkflowRegistry) (loads : String → Option Json)
    (platform : Platform) : SystemEvent → Platform
  | .platform event => platform.step registry loads event
  | .call made draws =>
    ⟨commit platform.db (made.perform registry platform.db draws), platform.queue⟩
  | .reap workerId target payload =>
    ⟨platform.db, (platform.queue.lrem (.inflight workerId) payload).lpush target.key payload⟩
  | .requeueFromDlq payload =>
    if payload ∈ platform.queue.lists .dlq then
      ⟨platform.db, (platform.queue.lrem .dlq payload).lpush .ready payload⟩
    else platform
  | .dropFromDlq payload => ⟨platform.db, platform.queue.lrem .dlq payload⟩

/-! ### Work -/

/-- Whether processing a task calls a handler. -/
def callsHandler (db : Database) (payload : JsonObject) : Bool :=
  match loadRows db payload with
  | .ok (some rows) =>
    !rows.attempt.state.isFinished && (documentIds payload).isOk &&
      match getHandler (handlerName payload rows.step.stepName) with
      | .ok (some _) => true
      | _ => false
  | _ => false

/-- The attempts of a run. -/
def Contents.attemptsOfRun (contents : Contents) (workflowRunId : UUID) : List StepAttemptModel :=
  contents.stepAttempts.filter fun row =>
    (contents.stepsOf workflowRunId).any fun step => step.stepId = row.stepId

/-- A worker takes a task of a run that is completed, failed or cancelled from the ready list. -/
structure TakesFinished (platform : Platform) (workerId : String) (payload : JsonObject)
    (claimed : TaskQueue) (workflowRunId : UUID) : Prop where
  claim : platform.queue.claim workerId = some (payload, claimed)
  named : readId payload "workflow_run_id" = .ok (some workflowRunId)
  terminal : (platform.db.getWorkflowRun workflowRunId).any fun run => run.state.isTerminal

/-- A worker did no work for a task: it called no handler, the attempts, the steps and the audit
events of the run are as they were, and the task is gone from the inflight list. -/
structure NoWork (before after : Platform) (workerId : String) (payload : JsonObject)
    (claimed : TaskQueue) (workflowRunId : UUID) : Prop where
  handler : callsHandler before.db payload = false
  attempts : after.db.contents.attemptsOfRun workflowRunId =
    before.db.contents.attemptsOfRun workflowRunId
  steps : after.db.contents.stepsOf workflowRunId = before.db.contents.stepsOf workflowRunId
  events : eventsOf after.db.contents.auditEvents workflowRunId =
    eventsOf before.db.contents.auditEvents workflowRunId
  queue : after.queue = claimed.ack workerId payload

/-- The rows a task names are stored, and its attempt is succeeded, terminally failed or skipped. -/
def AttemptFinished (db : Database) (payload : JsonObject) : Prop :=
  ∃ stepAttemptId stepId workflowRunId attempt step run,
    readId payload "step_attempt_id" = .ok (some stepAttemptId) ∧
    readId payload "step_id" = .ok (some stepId) ∧
    readId payload "workflow_run_id" = .ok (some workflowRunId) ∧
    db.getStepAttempt stepAttemptId = some attempt ∧ db.getStep stepId = some step ∧
    db.getWorkflowRun workflowRunId = some run ∧ attempt.state.isFinished = true

/-- No work is done for a finished run by this event. -/
def NoWorkForFinished (registry : WorkflowRegistry) (loads : String → Option Json)
    (platform : Platform) : SystemEvent → Prop
  | .platform (.work workerId returned draws) =>
    ∀ payload claimed workflowRunId,
      TakesFinished platform workerId payload claimed workflowRunId →
        NoWork platform (platform.step registry loads (.work workerId returned draws)) workerId
          payload claimed workflowRunId
  | _ => True

/-- A task of a finished run that this event delivers names a finished attempt. -/
def FinishedAtDelivery (platform : Platform) : SystemEvent → Prop
  | .platform (.work workerId _ _) =>
    ∀ payload claimed workflowRunId,
      TakesFinished platform workerId payload claimed workflowRunId →
        AttemptFinished platform.db payload
  | _ => True

/-! ### What decides about work -/

section Processing

variable {loads : String → Option Json} {handle : String → StepContext → HandlerReturn}
  {db : Database} {draws : Draws} {workerId : String} {payload : JsonObject}

theorem attemptFinished_iff :
    AttemptFinished db payload ↔
      ∃ rows, loadRows db payload = .ok (some rows) ∧ rows.attempt.state.isFinished = true := by
  constructor
  · rintro ⟨stepAttemptId, stepId, workflowRunId, attempt, step, run, attemptNamed, stepNamed,
      runNamed, foundAttempt, foundStep, foundRun, finished⟩
    exact ⟨⟨attempt, step, run⟩, loadRows_some_iff.mpr ⟨stepAttemptId, stepId, workflowRunId,
      ⟨attemptNamed, stepNamed, runNamed⟩, foundAttempt, foundStep, foundRun⟩, finished⟩
  · rintro ⟨rows, loaded, finished⟩
    obtain ⟨stepAttemptId, stepId, workflowRunId, ⟨attemptNamed, stepNamed, runNamed⟩,
      foundAttempt, foundStep, foundRun⟩ := loadRows_some_iff.mp loaded
    exact ⟨stepAttemptId, stepId, workflowRunId, rows.attempt, rows.step, rows.run, attemptNamed,
      stepNamed, runNamed, foundAttempt, foundStep, foundRun, finished⟩

/-- A task of a finished attempt is acknowledged at once. -/
theorem processTask_of_finished {rows : TaskRows} (loaded : loadRows db payload = .ok (some rows))
    (finished : rows.attempt.state.isFinished = true) :
    processTask loads handle db draws workerId payload = .ok .alreadyTerminal := by
  unfold processTask
  rw [loaded]
  show (if rows.attempt.state.isFinished = true then _ else _) = _
  rw [if_pos finished]
  rfl

/-- Writing an outcome adds an event to the run the task names. -/
theorem eventsOf_written {next : Database} {workflowRunId : UUID}
    (named : readId payload "workflow_run_id" = .ok (some workflowRunId))
    (processed : processTask loads handle db draws workerId payload = .ok (.written next)) :
    eventsOf next.contents.auditEvents workflowRunId ≠
      eventsOf db.contents.auditEvents workflowRunId := by
  obtain ⟨rows, outcome, loaded, -, -, written⟩ := processTask_steps processed
  obtain ⟨change, -, contents⟩ := writeOutcome_contents written
  obtain ⟨_, _, ofRun, ⟨-, -, runNamed⟩, -, -, foundRun⟩ := loadRows_some_iff.mp loaded
  cases runNamed.symm.trans named
  have identified := Database.getWorkflowRun_identified foundRun
  subst identified
  rw [congrArg Contents.auditEvents contents]
  show eventsOf (db.contents.auditEvents ++ [_]) _ ≠ _
  rw [eventsOf_append, ne_eq, List.append_right_eq_self]
  exact (eventsOf_singleton_self _).trans_ne (List.cons_ne_nil _ _)

end Processing

/-! ### Deliveries of tasks of finished runs -/

section Deliveries

variable {platform : Platform} {workerId : String} {payload : JsonObject} {claimed : TaskQueue}
  {workflowRunId : UUID}

/-- A claimed task is in the worker's inflight list, so its removal changes the queue. -/
theorem ack_ne_of_claim (claim : platform.queue.claim workerId = some (payload, claimed)) :
    claimed.ack workerId payload ≠ claimed := by
  unfold TaskQueue.claim Store.rpoplpush at claim
  split at claim
  · cases claim
  · cases claim
    intro same
    have lists := congrFun (congrArg Store.lists same) (.inflight workerId)
    simp [TaskQueue.ack, Store.lrem, Store.lpush] at lists

/-- A task that goes to the dead letters is not only removed from the inflight list. -/
theorem ack_moveToDlq_ne (queue : TaskQueue) (workerId : String) (payload : JsonObject) :
    (queue.moveToDlq payload).ack workerId payload ≠ queue.ack workerId payload := by
  intro same
  have lists := congrFun (congrArg Store.lists same) .dlq
  simp [TaskQueue.ack, TaskQueue.moveToDlq, Store.lrem, Store.lpush] at lists

/-- A worker that takes a task of a finished run does no work for it if and only if the attempt is
finished as well. -/
theorem noWork_iff {registry : WorkflowRegistry} {loads : String → Option Json}
    {returned : HandlerReturn} {draws : Draws}
    (takes : TakesFinished platform workerId payload claimed workflowRunId) :
    NoWork platform (platform.step registry loads (.work workerId returned draws)) workerId
      payload claimed workflowRunId ↔ AttemptFinished platform.db payload := by
  have stepped : platform.step registry loads (.work workerId returned draws) =
      ⟨_, _⟩ := congrArg (fun worked : Database × TaskQueue => (⟨worked.1, worked.2⟩ : Platform))
    (workerIteration_some takes.claim)
  rw [stepped, attemptFinished_iff]
  constructor
  · intro noWork
    cases processed : processTask loads (fun _ _ => returned) platform.db draws workerId
      payload with
    | error failure =>
      rw [processed] at noWork
      exact absurd noWork.queue.symm (ack_ne_of_claim takes.claim)
    | ok disposition =>
      rw [processed] at noWork
      cases disposition with
      | deadLetter => exact absurd noWork.queue (ack_moveToDlq_ne claimed workerId payload)
      | alreadyTerminal => exact processTask_alreadyTerminal processed
      | written next => exact absurd noWork.events (eventsOf_written takes.named processed)
  · rintro ⟨rows, loaded, finished⟩
    rw [processTask_of_finished loaded finished]
    refine ⟨?_, rfl, rfl, rfl, rfl⟩
    simp only [callsHandler, loaded, finished, Bool.not_true, Bool.false_and]

/-- The attempt alone decides: in every run of the platform, each delivery of a task of a completed,
failed or cancelled run does no work if and only if each of them names an attempt that is succeeded,
terminally failed or skipped. -/
theorem no_work_for_finished_runs (registry : WorkflowRegistry) (loads : String → Option Json)
    (start : Platform) (events : List SystemEvent) :
    Transition.Along (SystemEvent.step registry loads) (NoWorkForFinished registry loads) start
        events ↔
      Transition.Along (SystemEvent.step registry loads) FinishedAtDelivery start events := by
  have each (platform : Platform) (event : SystemEvent) :
      NoWorkForFinished registry loads platform event ↔ FinishedAtDelivery platform event := by
    match event with
    | .platform (.work workerId returned draws) =>
      exact forall₃_congr fun payload claimed workflowRunId => forall_congr' noWork_iff
    | .platform (.request _ _ _) | .platform (.relay _) | .platform (.schedule _ _)
    | .platform (.reap _ _ _) | .call _ _ | .reap _ _ _ | .requeueFromDlq _ | .dropFromDlq _ =>
      exact Iff.rfl
  exact ⟨Transition.along_mono _ (fun platform event => (each platform event).mp) start events,
    Transition.along_mono _ (fun platform event => (each platform event).mpr) start events⟩

end Deliveries

/-! ### A cancelled run -/

/-- A run is created, its first task is relayed, and the run is cancelled. -/
def cancelledEvents : List SystemEvent :=
  firstTaskRelayed.map .platform ++ [
    .platform (.request (.cancelWorkflowRun 100 {}) ⟨"key", "supervisor", "label"⟩
      (numberedDraws 2))]

/-- The worker that takes the task calls the handler of the first step of the cancelled run. -/
theorem cancelled_run_is_worked_on :
    ¬Transition.Along (SystemEvent.step [claimIntakeV1] fun _ => none)
      (NoWorkForFinished [claimIntakeV1] fun _ => none) (.empty []) (cancelledEvents ++
        [.platform (.work "w" (.returned { status := .succeeded }) (numberedDraws 3))]) := by
  intro idle
  obtain ⟨-, idle, -⟩ := (Transition.along_append _ _ _ _ _).mp idle
  generalize reached : Transition.run (SystemEvent.step [claimIntakeV1] fun _ => none) (.empty [])
    cancelledEvents = platform at idle
  have delivered : (platform.queue.claim "w").map (fun task =>
      ((readId task.1 "workflow_run_id").toOption, callsHandler platform.db task.1)) =
        some (some (some 100), true) := by
    rw [← reached]
    decide +kernel
  have terminal : (platform.db.getWorkflowRun 100).any (fun run => run.state.isTerminal) := by
    rw [← reached]
    decide +kernel
  obtain ⟨⟨payload, claimed⟩, claim, same⟩ := Option.map_eq_some_iff.mp delivered
  obtain ⟨named, calls⟩ := Prod.mk.inj same
  have ofRun : readId payload "workflow_run_id" = .ok (some 100) := by
    cases read : readId payload "workflow_run_id" with
    | error failure =>
      rw [read] at named
      cases named
    | ok id =>
      rw [read] at named
      cases named
      rfl
  have noWork := idle payload claimed 100 ⟨claim, ofRun, terminal⟩
  exact Bool.false_ne_true (noWork.handler.symm.trans calls)

end InsuranceOps
