/-
This file compares what the worker commits for a step's result with what the
platform means by it. The orchestrator escalates, fails or reschedules a failed
step; the worker records the failure in the attempt and the step alone, so it
never does. A success with an output is not committed at all, since the output
is bound to a text column as it is.
-/

import InsuranceOps.Cursor
import InsuranceOps.Platform

namespace InsuranceOps

open Relational WorkflowOrchestrator

/-- The database after a task was processed. -/
def committed (db : Database) : Except Failure Disposition → Database
  | .ok (.written flushed) => flushed
  | _ => db

/-- Settling a processed task leaves this database. -/
theorem settle_fst (db : Database) (claimed : TaskQueue) (workerId : String)
    (payload : JsonObject) (processed : Except Failure Disposition) :
    (settle db claimed workerId payload processed).1 = committed db processed := by
  cases processed with
  | error failure => rfl
  | ok disposition => cases disposition <;> rfl

variable {registry : WorkflowRegistry} {db next : Database} {draws : Draws}
  {run : WorkflowRunModel} {step : StepModel} {result : StepResult}

/-! ### The prescribed outcome of a failure -/

/-- The state of a run, if it is stored. -/
def Database.runState (db : Database) (workflowRunId : UUID) : Option WorkflowRunState :=
  (db.getWorkflowRun workflowRunId).map fun row => row.state

/-- The run waits for a human, with exactly one open case for the step. -/
def Escalated (after : Database) (run : WorkflowRunModel) (step : StepModel) : Prop :=
  after.runState run.workflowRunId = some .awaitingHuman ∧
    ((after.contents.casesAt run.workflowRunId step.stepId).filter
      fun row => row.state = .opened).length = 1

/-- The run keeps running, with a new queued attempt of the step and its task in the outbox. -/
def Rescheduled (before after : Database) (run : WorkflowRunModel) (step : StepModel) : Prop :=
  after.runState run.workflowRunId = some .running ∧
    ∃ attempt ∈ after.contents.stepAttempts, attempt.stepId = step.stepId ∧
      attempt.state = .queued ∧
      (∀ old ∈ before.contents.stepAttempts, old.stepAttemptId ≠ attempt.stepAttemptId) ∧
      ∃ task ∈ after.contents.tasksOutbox, task.stepAttemptId = attempt.stepAttemptId ∧
        task.enqueuedAt = none

/-- What a terminal failure of a step leaves: an escalation if the step asks for it, else a failed
run. -/
def EndedByFailure (after : Database) (run : WorkflowRunModel) (step : StepModel) : Prop :=
  if step.escalateOnFailure then Escalated after run step
  else after.runState run.workflowRunId = some .failed

/-- What a result other than success leaves of a run and a step. -/
def Prescribed (before after : Database) (run : WorkflowRunModel) (step : StepModel) :
    StepStatus → Prop
  | .succeeded => True
  | .escalate => Escalated after run step
  | .failedTerminal => EndedByFailure after run step
  | .failedRetryable =>
    if ((before.listAttempts step.stepId).length : Int) < step.maxAttempts then
      Rescheduled before after run step
    else EndedByFailure after run step

/-! ### The orchestrator's outcomes -/

theorem runState_updated (change : WorkflowRunModel → WorkflowRunModel)
    (keeps : ∀ row, (change row).workflowRunId = row.workflowRunId)
    (updated : next.contents.workflowRuns = updateRows
      (fun row => row.workflowRunId = run.workflowRunId) change db.contents.workflowRuns)
    (found : db.getWorkflowRun run.workflowRunId = some run) :
    next.runState run.workflowRunId = some (change run).state := by
  rw [Database.runState, Database.getWorkflowRun_updated change updated keeps found]
  rfl

theorem runState_kept (kept : next.contents.workflowRuns = db.contents.workflowRuns)
    (found : db.getWorkflowRun run.workflowRunId = some run) :
    next.runState run.workflowRunId = some run.state := by
  rw [Database.runState, Database.getWorkflowRun_eq, kept]
  exact congrArg (Option.map fun row : WorkflowRunModel => row.state) found

theorem createEscalation_escalated {reasonCode : String} {now : Timestamp} {escalationId : UUID}
    {event : EventDraw} {state : WorkflowRunState}
    (ran : createEscalation db run step result reasonCode now escalationId event =
      .ok (next, state))
    (found : db.getWorkflowRun run.workflowRunId = some run) : Escalated next run step := by
  obtain ⟨-, admitted, contents⟩ := createEscalation_ok ran
  refine ⟨runState_updated (WorkflowRunModel.awaitHuman result now) (fun _ => rfl)
    (congrArg Contents.workflowRuns contents) found, ?_⟩
  have none : db.contents.casesAt run.workflowRunId step.stepId = [] := by
    refine List.eq_nil_iff_forall_not_mem.mpr fun other member => ?_
    obtain ⟨owned, here⟩ := mem_casesAt.mp member
    obtain ⟨stored, ofRun⟩ := mem_casesOf.mp owned
    exact admitted.single other stored ofRun here
  have cases : next.contents.casesAt run.workflowRunId step.stepId =
      db.contents.casesAt run.workflowRunId step.stepId ++
        [escalationRow escalationId run.workflowRunId step.stepId result reasonCode now] := by
    rw [contents]
    simp only [Contents.casesAt, Contents.casesOf, List.filter_append, escalationRow,
      List.filter_cons, List.filter_nil, decide_true, if_true]
  rw [cases, none]
  rfl

theorem handleFailedTerminal_ended {now : Timestamp} {newId : UUID} {event : EventDraw}
    {state : WorkflowRunState} (found : db.getWorkflowRun run.workflowRunId = some run)
    (ran : handleFailedTerminal db run step result now newId event = .ok (next, state)) :
    EndedByFailure next run step := by
  rcases handleFailedTerminal_ok ran with ⟨escalates, ran⟩ | ⟨plain, -, contents⟩
  · rw [EndedByFailure, if_pos escalates]
    exact createEscalation_escalated ran found
  · rw [EndedByFailure, if_neg (by rw [plain]; exact Bool.false_ne_true)]
    exact runState_updated (WorkflowRunModel.fail result now) (fun _ => rfl)
      (congrArg Contents.workflowRuns contents) found

/-- A call of `advance_workflow` that succeeds leaves what is prescribed for the result. -/
theorem advanceWorkflow_prescribed {state : WorkflowRunState}
    (found : db.getWorkflowRun run.workflowRunId = some run) (running : run.state = .running)
    (named : db.getStepByRunAndName run.workflowRunId step.stepName = some step)
    (ran : advanceWorkflow registry db draws run.workflowRunId step.stepName result =
      .ok (next, state)) : Prescribed db next run step result.status := by
  obtain ⟨foundRun, foundStep, sameRun, sameStep, ran⟩ := advanceWorkflow_ok ran
  rw [found, Option.some.injEq] at sameRun
  rw [named, Option.some.injEq] at sameStep
  subst sameRun sameStep
  cases status : result.status with
  | succeeded => trivial
  | escalate =>
    simp only [status] at ran
    exact createEscalation_escalated ran found
  | failedTerminal =>
    simp only [status] at ran
    exact handleFailedTerminal_ended found ran
  | failedRetryable =>
    simp only [status] at ran
    rcases handleFailedRetryable_ok ran with ⟨budget, -, admitted, contents⟩ | ⟨spent, ran⟩
    · rw [Prescribed, if_pos budget]
      rw [Rescheduled, runState_kept (by rw [contents]) found, running, contents]
      exact ⟨rfl, _, List.mem_append_right _ List.mem_cons_self, rfl, rfl, admitted.identified, _,
        List.mem_append_right _ List.mem_cons_self, rfl, rfl⟩
    · rw [Prescribed, if_neg (not_lt.mpr spent)]
      exact handleFailedTerminal_ended found ran

/-! ### The worker's outcomes -/

variable {loads : String → Option Json} {handle : String → StepContext → HandlerReturn}
  {workerId : String} {payload : JsonObject} {rows : TaskRows}

/-- What processing a task leaves alone: the runs, the cases, the outbox, and which attempts there
are. -/
structure WorkerFrame (db after : Database) : Prop where
  runs : after.contents.workflowRuns = db.contents.workflowRuns
  cases : after.contents.escalationCases = db.contents.escalationCases
  attempts : ∀ later ∈ after.contents.stepAttempts, ∃ attempt ∈ db.contents.stepAttempts,
    attempt.stepAttemptId = later.stepAttemptId

theorem committed_frame (db : Database) (draws : Draws) (workerId : String)
    (payload : JsonObject) :
    WorkerFrame db (committed db (processTask loads handle db draws workerId payload)) := by
  have same : WorkerFrame db db := ⟨rfl, rfl, fun later stored => ⟨later, stored, rfl⟩⟩
  cases processed : processTask loads handle db draws workerId payload with
  | error failure => exact same
  | ok disposition =>
    cases disposition with
    | deadLetter => exact same
    | alreadyTerminal => exact same
    | written flushed =>
      obtain ⟨rows, outcome, -, -, -, -, reported⟩ := processTask_written processed
      obtain ⟨change, keeps, updated⟩ := reported.attempts
      refine ⟨?_, ?_, fun later stored => ?_⟩
      · show flushed.contents.workflowRuns = _
        rw [reported.others]
      · show flushed.contents.escalationCases = _
        rw [reported.others]
      · have changed : later ∈ flushed.contents.stepAttempts := stored
        rw [updated] at changed
        obtain ⟨attempt, attemptStored, rfl⟩ := mem_updateRows.mp changed
        refine ⟨attempt, attemptStored, ?_⟩
        split
        · exact (keeps attempt).1.symm
        · rfl

/-- A run that is running is neither escalated nor failed by the worker, and no step of it is
rescheduled. -/
theorem WorkerFrame.not_prescribed {after : Database} (frame : WorkerFrame db after)
    (found : db.getWorkflowRun run.workflowRunId = some run) (running : run.state = .running)
    {status : StepStatus} (failure : status ≠ .succeeded) :
    ¬Prescribed db after run step status := by
  have state := runState_kept frame.runs found
  rw [running] at state
  have notEscalated : ¬Escalated after run step := by
    rintro ⟨awaiting, -⟩
    rw [state] at awaiting
    cases awaiting
  have notEnded : ¬EndedByFailure after run step := by
    unfold EndedByFailure
    split
    · exact notEscalated
    · rw [state]
      nofun
  have notRescheduled : ¬Rescheduled db after run step := by
    rintro ⟨-, attempt, stored, -, -, fresh, -⟩
    obtain ⟨old, oldStored, same⟩ := frame.attempts attempt stored
    exact fresh old oldStored same
  cases status with
  | succeeded => exact absurd rfl failure
  | escalate => exact notEscalated
  | failedTerminal => exact notEnded
  | failedRetryable =>
    rw [Prescribed]
    split
    · exact notRescheduled
    · exact notEnded

/-- Whatever result other than success the handler of a task returns, the worker commits nothing of
what is prescribed for it. It writes the attempt, the step and the audit log only, and each
prescription asks for another state of the run or for a new attempt. -/
theorem processTask_never_prescribed (loads : String → Option Json) (db : Database)
    (draws : Draws) (workerId : String) (payload : JsonObject) (rows : TaskRows)
    (result : StepResult) (loaded : loadRows db payload = .ok (some rows))
    (running : rows.run.state = .running) (failure : result.status ≠ .succeeded) :
    ¬Prescribed db (committed db (processTask loads (fun _ _ => .returned result) db draws workerId
      payload)) rows.run rows.step result.status :=
  (committed_frame db draws workerId payload).not_prescribed (loadRows_ok loaded).2.2 running
    failure

/-! ### A first task that fails -/

/-- The platform with the first task of a new run ready. -/
def firstTaskReady : Platform :=
  Transition.run (Platform.step [claimIntakeV1] fun _ => none) (.empty []) firstTaskRelayed

/-- The payload of the ready task. -/
def firstPayload : JsonObject := ((firstTaskReady.queue.lists .ready).getLast?).getD []

/-- The database after a worker processed the task with this result. -/
def firstCommitted (result : StepResult) : Database :=
  committed firstTaskReady.db (processTask (fun _ => none) (fun _ _ => .returned result)
    firstTaskReady.db (numberedDraws 3) "w" firstPayload)

/-- The database after the orchestrator advanced the run with this result. -/
def firstAdvanced (result : StepResult) : Database :=
  OrchestratorCall.step [claimIntakeV1] firstTaskReady.db
    (.advanceWorkflow 100 "ingest" result, numberedDraws 3)

/-- The rows of the task are stored: a running run and a queued attempt. -/
theorem firstPayload_loads :
    ∃ rows, loadRows firstTaskReady.db firstPayload = .ok (some rows) ∧
      rows.run.state = .running ∧ rows.attempt.state = .queued := by
  have states : (loadRows firstTaskReady.db firstPayload).toOption.join.map
      (fun rows => (rows.run.state, rows.attempt.state)) = some (.running, .queued) := by
    decide +kernel
  cases loads : loadRows firstTaskReady.db firstPayload with
  | error failure =>
    rw [loads] at states
    cases states
  | ok found =>
    rw [loads] at states
    cases found with
    | none => cases states
    | some rows =>
      have both := Option.some.inj states
      exact ⟨rows, rfl, congrArg Prod.fst both, congrArg Prod.snd both⟩

/-- A worker does not even begin to escalate. -/
theorem processTask_never_prescribed_escalate :
    ∃ rows, loadRows firstTaskReady.db firstPayload = .ok (some rows) ∧
      rows.run.state = .running ∧
      ¬Prescribed firstTaskReady.db (firstCommitted { status := .escalate }) rows.run rows.step
        .escalate := by
  obtain ⟨rows, loaded, running, -⟩ := firstPayload_loads
  exact ⟨rows, loaded, running,
    processTask_never_prescribed _ _ _ _ _ rows _ loaded running (by decide)⟩

/-- The orchestrator escalates the first step and waits for a human; the worker records a terminal
failure and the run stays running without a case. -/
theorem worker_misses_escalation :
    firstTaskReady.db.runState 100 = some .running ∧
    (firstAdvanced { status := .escalate }).runState 100 = some .awaitingHuman ∧
    ((firstAdvanced { status := .escalate }).contents.casesAt 100 101).length = 1 ∧
    (firstCommitted { status := .escalate }).runState 100 = some .running ∧
    (firstCommitted { status := .escalate }).contents.escalationCases.length = 0 ∧
    (firstCommitted { status := .escalate }).contents.stepAttempts.map (fun row => row.state) =
      [.failedTerminal] := by
  decide +kernel

/-! ### Outputs of successes -/

/-- A success with an output was committed: the attempt and the step succeeded, one audit event was
written, and every later step of the run reads the output under the step's name. -/
def OutputSurvives (loads : String → Option Json) (before after : Database) (rows : TaskRows)
    (output : JsonObject) : Prop :=
  (after.getStepAttempt rows.attempt.stepAttemptId).map (fun row => row.state) = some .succeeded ∧
    (after.getStep rows.step.stepId).map (fun row => row.state) = some .succeeded ∧
    after.contents.auditEvents.length = before.contents.auditEvents.length + 1 ∧
    ∀ later ∈ after.contents.steps, later.workflowRunId = rows.run.workflowRunId →
      rows.step.stepIndex < later.stepIndex →
      (loadPreviousOutputs loads after rows.run.workflowRunId later.stepName).get?
        rows.step.stepName = some (.object output)

/-- Whatever is committed for a handler that returns an output, the attempt has not succeeded. -/
theorem committed_not_succeeded (output : JsonObject)
    (loaded : loadRows db payload = .ok (some rows))
    (unfinished : rows.attempt.state.isFinished = false)
    (returns : ∀ name context, (handle name context).outcome = .success (some output)) :
    ((committed db (processTask loads handle db draws workerId payload)).getStepAttempt
      rows.attempt.stepAttemptId).map (fun row => row.state) ≠ some .succeeded := by
  have before : (db.getStepAttempt rows.attempt.stepAttemptId).map (fun row => row.state) ≠
      some .succeeded := by
    rw [(loadRows_ok loaded).1, Option.map_some, ne_eq, Option.some.injEq]
    intro succeeded
    rw [succeeded] at unfinished
    cases unfinished
  cases processed : processTask loads handle db draws workerId payload with
  | error failure => exact before
  | ok disposition =>
    cases disposition with
    | deadLetter => exact before
    | alreadyTerminal => exact before
    | written flushed =>
      obtain ⟨others, outcome, reloaded, -, ⟨-, unknown | called⟩, plain, reported⟩ :=
        processTask_written processed
      · cases loaded.symm.trans reloaded
        rw [committed, reported.getStepAttempt (loadRows_ok loaded).1, ne_eq, Option.some.injEq]
        intro succeeded
        cases outcome with
        | success output => exact unknown.2 output rfl
        | failRetryable errorCode errorDetail => cases succeeded
        | failTerminal errorCode errorDetail => cases succeeded
      · obtain ⟨name, context, -, same⟩ := called
        exact absurd (same.trans (returns name context)) (plain output)

/-- Whatever output object the handler of a task returns, the worker does not commit the success.
Bound as it is to a text column, the output makes the flush fail, and the commit with it. -/
theorem output_never_survives (loads : String → Option Json) (db : Database) (draws : Draws)
    (workerId : String) (payload : JsonObject) (rows : TaskRows) (result : StepResult)
    (output : JsonObject) (loaded : loadRows db payload = .ok (some rows))
    (unfinished : rows.attempt.state.isFinished = false) (succeeded : result.status = .succeeded)
    (hasOutput : result.output = some output) :
    ¬OutputSurvives loads db (committed db (processTask loads (fun _ _ => .returned result) db draws
      workerId payload)) rows output := by
  rintro ⟨attempt, -⟩
  have outcome : (HandlerReturn.returned result).outcome = .success (some output) := by
    rw [HandlerReturn.outcome, StepResult.outcome, succeeded, hasOutput]
  exact committed_not_succeeded output loaded unfinished (fun _ _ => outcome) attempt

/-- The output of the handler for the first step. -/
def documentCount : StepResult :=
  { status := .succeeded, output := some [("document_count", .int 0)] }

theorem output_never_survives_documentCount :
    ∃ rows, loadRows firstTaskReady.db firstPayload = .ok (some rows) ∧
      rows.attempt.state = .queued ∧
      ¬OutputSurvives (fun _ => none) firstTaskReady.db (firstCommitted documentCount) rows
        [("document_count", .int 0)] := by
  obtain ⟨rows, loaded, -, queued⟩ := firstPayload_loads
  exact ⟨rows, loaded, queued, output_never_survives _ _ _ _ _ rows documentCount _ loaded
    (by rw [queued]; rfl) rfl rfl⟩

/-- The first step's handler succeeds with an output; the attempt stays queued, no audit event is
written, and the next step would find no output. -/
theorem documentCount_lost :
    (firstCommitted documentCount).contents.stepAttempts.map (fun row => row.state) = [.queued] ∧
    (firstCommitted documentCount).contents.auditEvents.length =
      firstTaskReady.db.contents.auditEvents.length ∧
    (loadPreviousOutputs (fun _ => none) (firstCommitted documentCount) 100 "extract").get?
      "ingest" = none := by
  decide +kernel

end InsuranceOps
