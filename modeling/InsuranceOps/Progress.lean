/-
This file settles when a running run is never stranded. Starting a run leaves
an attempt with its task in the outbox, and the relay, the scheduler and the
queue hand the task on; but a worker iteration that writes an outcome ends the
attempt and schedules nothing after it. A run whose tasks the worker never
finishes keeps its task; one written outcome strands it.
-/

import InsuranceOps.Platform

namespace InsuranceOps

open Relational WorkflowOrchestrator

/-! ### Tracked platforms -/

/-- Some attempt of the run is queued or in progress, and its task is pending in the outbox or has
a copy in the queue. -/
def Represented (platform : Platform) (run : WorkflowRunModel) : Prop :=
  ∃ step ∈ platform.db.contents.steps, step.workflowRunId = run.workflowRunId ∧
    ∃ attempt ∈ platform.db.contents.stepAttempts, attempt.stepId = step.stepId ∧
      (attempt.state = .queued ∨ attempt.state = .inProgress) ∧
      ∃ task ∈ platform.db.contents.tasksOutbox, task.stepAttemptId = attempt.stepAttemptId ∧
        task.UnderWay platform.queue

/-- Every running run is represented. -/
def NoneStranded (platform : Platform) : Prop :=
  ∀ run ∈ platform.db.contents.workflowRuns, run.state = .running → Represented platform run

/-- A task names stored rows that belong together: an attempt of its step, and a step of its
run. -/
structure Linked (rows : Contents) (task : TasksOutboxModel) : Prop where
  addressed : task.Addressed
  attempt : ∃ attempt ∈ rows.stepAttempts,
    attempt.stepAttemptId = task.stepAttemptId ∧ attempt.stepId = task.stepId
  step : ∃ step ∈ rows.steps, step.stepId = task.stepId ∧ step.workflowRunId = task.workflowRunId

/-- No case exists, every task is linked, every copy in the queue is one of a stored task, and no
running run is stranded. -/
structure Tracked (platform : Platform) : Prop where
  noCases : platform.db.contents.escalationCases = []
  linked : ∀ task ∈ platform.db.contents.tasksOutbox, Linked platform.db.contents task
  copies : ∀ payload, platform.queue.Holds payload →
    ∃ task ∈ platform.db.contents.tasksOutbox, ∃ claimedAt, payload = task.copy claimedAt
  represented : NoneStranded platform

theorem tracked_empty (documents : List UUID) : Tracked (.empty documents) where
  noCases := rfl
  linked _ stored := absurd stored List.not_mem_nil
  copies payload held := absurd held (ListStore.Store.not_holds_empty payload)
  represented _ stored := absurd stored List.not_mem_nil

variable {db next : Database} {queue after : TaskQueue}

/-! ### Handing over -/

/-- Handing tasks over keeps a platform tracked. -/
theorem Tracked.handedOver (tracked : Tracked ⟨db, queue⟩)
    (handed : HandedOver db next queue after) : Tracked ⟨next, after⟩ where
  noCases := by
    rw [handed.contents]
    exact tracked.noCases
  linked row stored := by
    obtain ⟨task, taskStored, same⟩ := handed.backward row stored
    have linked := tracked.linked task taskStored
    rw [handed.contents]
    refine ⟨linked.addressed.of_same same, ?_, ?_⟩
    · rw [same.stepAttemptId, same.stepId]
      exact linked.attempt
    · rw [same.stepId, same.workflowRunId]
      exact linked.step
  copies payload held := by
    have copied : ∃ task ∈ db.contents.tasksOutbox, ∃ claimedAt, payload = task.copy claimedAt := by
      rcases handed.gained payload held with old | new
      · exact tracked.copies payload old
      · exact new
    obtain ⟨task, stored, claimedAt, rfl⟩ := copied
    obtain ⟨row, rowStored, same, -⟩ := handed.forward task stored
    exact ⟨row, rowStored, claimedAt, (same.copy claimedAt).symm⟩
  represented run stored running := by
    rw [handed.contents] at stored
    obtain ⟨step, stepStored, ofRun, attempt, attemptStored, ofStep, live, task, taskStored, named,
      underWay⟩ := tracked.represented run stored running
    obtain ⟨row, rowStored, same, kept⟩ := handed.forward task taskStored
    refine ⟨step, ?_, ofRun, attempt, ?_, ofStep, live, row, rowStored,
      same.stepAttemptId.trans named, kept underWay⟩
    · rw [handed.contents]
      exact stepStored
    · rw [handed.contents]
      exact attemptStored

/-! ### Requests -/

theorem Linked.mono {rows others : Contents} {task : TasksOutboxModel}
    (steps : ∀ step ∈ rows.steps, step ∈ others.steps)
    (attempts : ∀ attempt ∈ rows.stepAttempts, attempt ∈ others.stepAttempts)
    (linked : Linked rows task) : Linked others task where
  addressed := linked.addressed
  attempt := linked.attempt.imp fun attempt ⟨stored, same⟩ => ⟨attempts attempt stored, same⟩
  step := linked.step.imp fun step ⟨stored, same⟩ => ⟨steps step stored, same⟩

/-- A new run is represented by its first attempt, and the other runs keep what represents them. -/
theorem Tracked.started {new : NewRun} (tracked : Tracked ⟨db, queue⟩)
    (started : Started db next new) : Tracked ⟨next, queue⟩ := by
  have firstMember : new.first ∈ new.steps := List.mem_of_mem_head? started.first
  have ofRun : new.first.workflowRunId = new.run.workflowRunId := by
    obtain ⟨now, stepId, rows⟩ := started.rows
    exact (stepRows_mem (rows ▸ firstMember)).1
  obtain ⟨attemptId, scheduledFor, now, attempt⟩ := started.attempt
  obtain ⟨taskRun, taskStep, taskAttempt⟩ := started.task
  have attemptStep : new.attempt.stepId = new.first.stepId := by rw [attempt]; rfl
  constructor
  · rw [started.contents]
    exact tracked.noCases
  · rw [started.contents]
    intro task stored
    rcases List.mem_append.mp stored with old | added
    · exact (tracked.linked task old).mono (fun _ => List.mem_append_left _)
        fun _ => List.mem_append_left _
    · rw [List.mem_singleton.mp added]
      exact ⟨started.addressed,
        ⟨new.attempt, List.mem_append_right _ List.mem_cons_self, taskAttempt.symm,
          attemptStep.trans taskStep.symm⟩,
        ⟨new.first, List.mem_append_right _ firstMember, taskStep.symm, ofRun.trans taskRun.symm⟩⟩
  · rw [started.contents]
    intro payload held
    obtain ⟨task, stored, copied⟩ := tracked.copies payload held
    exact ⟨task, List.mem_append_left _ stored, copied⟩
  · intro run stored running
    rw [started.contents] at stored
    unfold Represented
    rw [started.contents]
    rcases List.mem_append.mp stored with old | added
    · obtain ⟨step, stepStored, ofRun, attempt, attemptStored, ofStep, live, task, taskStored,
        named⟩ := tracked.represented run old running
      exact ⟨step, List.mem_append_left _ stepStored, ofRun, attempt,
        List.mem_append_left _ attemptStored, ofStep, live, task,
        List.mem_append_left _ taskStored, named⟩
    · rw [List.mem_singleton.mp added]
      exact ⟨new.first, List.mem_append_right _ firstMember, ofRun, new.attempt,
        List.mem_append_right _ List.mem_cons_self, attemptStep, .inl (by rw [attempt]; rfl),
        new.task, List.mem_append_right _ List.mem_cons_self, taskAttempt, .inl started.pending⟩

/-- Runs that are running afterwards were running before, and no other table changed but the
audit log. -/
theorem Tracked.ofRuns {runs : List WorkflowRunModel} {events : List AuditEventModel}
    (tracked : Tracked ⟨db, queue⟩)
    (contents : next.contents = { db.contents with workflowRuns := runs, auditEvents := events })
    (before : ∀ run ∈ runs, run.state = .running → ∃ old ∈ db.contents.workflowRuns,
      old.workflowRunId = run.workflowRunId ∧ old.state = .running) : Tracked ⟨next, queue⟩ := by
  constructor
  · rw [contents]
    exact tracked.noCases
  · rw [contents]
    intro task stored
    have linked := tracked.linked task stored
    exact ⟨linked.addressed, linked.attempt, linked.step⟩
  · rw [contents]
    exact tracked.copies
  · intro run stored running
    rw [contents] at stored
    obtain ⟨old, oldStored, same, oldRunning⟩ := before run stored running
    have represented := tracked.represented old oldStored oldRunning
    unfold Represented at represented ⊢
    rw [contents, ← same]
    exact represented

theorem Tracked.getEscalationCase (tracked : Tracked ⟨db, queue⟩) (escalationId : UUID) :
    db.getEscalationCase escalationId = none := by
  rw [Database.getEscalationCase_eq, show db.contents.escalationCases = [] from tracked.noCases]
  rfl

/-- A request that succeeds starts or cancels a run, for there is no case to claim or decide. -/
theorem Tracked.request {registry : WorkflowRegistry} {draws : Draws}
    {principal : ApiKeyPrincipal} {made : RouteRequest} (tracked : Tracked ⟨db, queue⟩)
    (ran : made.perform registry db draws principal = .ok next) : Tracked ⟨next, queue⟩ := by
  cases made with
  | createWorkflowRun body =>
    obtain ⟨workflowRunId, ran⟩ := RouteRequest.perform_create ran
    obtain ⟨new, started, -⟩ := createWorkflowRun_ok ran
    exact tracked.started started
  | cancelWorkflowRun workflowRunId body =>
    obtain ⟨run, call, -, -, contents⟩ := cancelWorkflowRun_ok ran
    refine tracked.ofRuns contents fun run stored running => ?_
    obtain ⟨old, oldStored, rfl⟩ := mem_updateRows.mp stored
    by_cases selected : old.workflowRunId = workflowRunId
    · rw [if_pos (decide_eq_true selected)] at running
      cases running
    · rw [if_neg (by simpa using selected)] at running ⊢
      exact ⟨old, oldStored, rfl, running⟩
  | claimEscalation escalationId =>
    obtain ⟨found, call, lookup, -⟩ := claimEscalation_ok ran
    rw [tracked.getEscalationCase] at lookup
    cases lookup
  | resolveEscalation escalationId body =>
    obtain ⟨found, answer, call, lookup, -⟩ := resolveEscalation_ok ran
    rw [tracked.getEscalationCase] at lookup
    cases lookup
  | rejectEscalation escalationId body =>
    obtain ⟨found, answer, call, lookup, -⟩ := rejectEscalation_ok ran
    rw [tracked.getEscalationCase] at lookup
    cases lookup

/-! ### The worker -/

/-- The rows a worker iteration may have touched: the attempt of its task only in other columns than
its identifiers, and no other attempt, run, case or task. -/
structure Touched (db next : Database) (stepAttemptId : UUID) : Prop where
  attempts : ∀ attempt ∈ db.contents.stepAttempts, ∃ later ∈ next.contents.stepAttempts,
    later.stepAttemptId = attempt.stepAttemptId ∧ later.stepId = attempt.stepId ∧
      (attempt.stepAttemptId ≠ stepAttemptId → later = attempt)
  steps : ∀ step ∈ db.contents.steps, ∃ later ∈ next.contents.steps,
    later.stepId = step.stepId ∧ later.workflowRunId = step.workflowRunId
  runs : next.contents.workflowRuns = db.contents.workflowRuns
  cases : next.contents.escalationCases = db.contents.escalationCases
  tasks : next.contents.tasksOutbox = db.contents.tasksOutbox

theorem touched_refl (db : Database) (stepAttemptId : UUID) : Touched db db stepAttemptId where
  attempts attempt stored := ⟨attempt, stored, rfl, rfl, fun _ => rfl⟩
  steps step stored := ⟨step, stored, rfl, rfl⟩
  runs := rfl
  cases := rfl
  tasks := rfl

theorem Reported.touched {rows : TaskRows} {outcome : TaskOutcome}
    (reported : Reported db next rows outcome) :
    Touched db next rows.attempt.stepAttemptId where
  attempts attempt stored := by
    obtain ⟨change, keeps, updated⟩ := reported.attempts
    rw [updated]
    by_cases same : attempt.stepAttemptId = rows.attempt.stepAttemptId
    · exact ⟨change attempt, mem_updateRows_of_selects stored (decide_eq_true same),
        (keeps attempt).1, (keeps attempt).2.1, fun other => absurd same other⟩
    · exact ⟨attempt, mem_updateRows_of_not stored (decide_eq_false same), rfl, rfl, fun _ => rfl⟩
  steps step stored := by
    obtain ⟨change, keeps, updated⟩ := reported.steps
    rw [updated]
    by_cases same : step.stepId = rows.step.stepId
    · exact ⟨change step, mem_updateRows_of_selects stored (decide_eq_true same), keeps step⟩
    · exact ⟨step, mem_updateRows_of_not stored (decide_eq_false same), rfl, rfl⟩
  runs := by rw [reported.others]
  cases := by rw [reported.others]
  tasks := by rw [reported.others]

section Worker

variable {payload : JsonObject} {rows : TaskRows}

/-- A copy of a linked task loads the rows the task names. -/
theorem Linked.loadRows {task : TasksOutboxModel} {claimedAt : String}
    (linked : Linked db.contents task)
    (loaded : InsuranceOps.loadRows db (task.copy claimedAt) = .ok (some rows)) :
    db.getStepAttempt task.stepAttemptId = some rows.attempt ∧
      db.getStep task.stepId = some rows.step ∧
      db.getWorkflowRun task.workflowRunId = some rows.run :=
  loadRows_addressed ((task.copy_get? claimedAt (by decide)).trans linked.addressed.run)
    ((task.copy_get? claimedAt (by decide)).trans linked.addressed.step)
    (linked.addressed.copy_attempt claimedAt) loaded

/-- When a task's attempt is finished or its run is not running, no running run is represented by
that attempt. -/
theorem Linked.attempt_ne {task : TasksOutboxModel} {run : WorkflowRunModel} {step : StepModel}
    {attempt : StepAttemptModel} (linked : Linked db.contents task)
    (foundAttempt : db.getStepAttempt task.stepAttemptId = some rows.attempt)
    (foundStep : db.getStep task.stepId = some rows.step)
    (foundRun : db.getWorkflowRun task.workflowRunId = some rows.run)
    (idle : rows.attempt.state.isFinished = true ∨ rows.run.state ≠ .running)
    (runStored : run ∈ db.contents.workflowRuns) (running : run.state = .running)
    (stepStored : step ∈ db.contents.steps) (ofRun : step.workflowRunId = run.workflowRunId)
    (attemptStored : attempt ∈ db.contents.stepAttempts) (ofStep : attempt.stepId = step.stepId)
    (live : attempt.state = .queued ∨ attempt.state = .inProgress) :
    attempt.stepAttemptId ≠ task.stepAttemptId := by
  intro same
  have attemptEq := eq_of_find? (fun row : StepAttemptModel => row.stepAttemptId)
    db.stepAttempts_distinct foundAttempt attemptStored same
  rcases idle with finished | stopped
  · rw [← attemptEq] at finished
    rcases live with queued | inProgress
    · rw [queued] at finished
      cases finished
    · rw [inProgress] at finished
      cases finished
  · obtain ⟨own, ownStored, ownSame, ownStep⟩ := linked.attempt
    obtain ⟨place, placeStored, placeSame, placeRun⟩ := linked.step
    have ownEq := eq_of_find? (fun row : StepAttemptModel => row.stepAttemptId)
      db.stepAttempts_distinct foundAttempt ownStored ownSame
    have stepSame : step.stepId = task.stepId := by
      rw [← ofStep, attemptEq, ← ownEq, ownStep]
    have stepEq := eq_of_find? (fun row : StepModel => row.stepId) db.steps_distinct foundStep
      stepStored stepSame
    have placeEq := eq_of_find? (fun row : StepModel => row.stepId) db.steps_distinct foundStep
      placeStored placeSame
    have runEq := eq_of_find? (fun row : WorkflowRunModel => row.workflowRunId)
      db.workflowRuns_distinct foundRun runStored (by rw [← ofRun, stepEq, ← placeEq, placeRun])
    rw [← runEq] at stopped
    exact stopped running

/-- Acknowledging a task whose attempt is finished or whose run is not running strands no run. -/
theorem Tracked.acknowledged (tracked : Tracked ⟨db, queue⟩) (workerId : String)
    (held : queue.Holds payload) (loaded : loadRows db payload = .ok (some rows))
    (idle : rows.attempt.state.isFinished = true ∨ rows.run.state ≠ .running)
    (touched : Touched db next rows.attempt.stepAttemptId) :
    Tracked ⟨next, queue.ack workerId payload⟩ := by
  obtain ⟨named, namedStored, claimedAt, rfl⟩ := tracked.copies payload held
  have namedLinked := tracked.linked named namedStored
  obtain ⟨foundAttempt, foundStep, foundRun⟩ := namedLinked.loadRows loaded
  have identified : rows.attempt.stepAttemptId = named.stepAttemptId :=
    (mem_of_find? (fun row : StepAttemptModel => row.stepAttemptId) foundAttempt).2
  constructor
  · exact touched.cases.trans tracked.noCases
  · intro task stored
    rw [touched.tasks] at stored
    have linked := tracked.linked task stored
    obtain ⟨attempt, attemptStored, attemptSame, ofStep⟩ := linked.attempt
    obtain ⟨step, stepStored, stepSame, ofRun⟩ := linked.step
    obtain ⟨laterAttempt, laterStored, keptId, keptStep, -⟩ :=
      touched.attempts attempt attemptStored
    obtain ⟨laterStep, laterStepStored, keptStepId, keptRun⟩ := touched.steps step stepStored
    exact ⟨linked.addressed,
      ⟨laterAttempt, laterStored, keptId.trans attemptSame, keptStep.trans ofStep⟩,
      ⟨laterStep, laterStepStored, keptStepId.trans stepSame, keptRun.trans ofRun⟩⟩
  · intro payload stillHeld
    rw [touched.tasks]
    exact tracked.copies payload (TaskQueue.holds_of_ack queue stillHeld)
  · intro run stored running
    rw [touched.runs] at stored
    obtain ⟨step, stepStored, ofRun, attempt, attemptStored, ofStep, live, task, taskStored, ofTask,
      underWay⟩ := tracked.represented run stored running
    have other := namedLinked.attempt_ne foundAttempt foundStep foundRun idle stored running
      stepStored ofRun attemptStored ofStep live
    obtain ⟨later, laterStored, -, -, same⟩ := touched.attempts attempt attemptStored
    rw [same (identified ▸ other)] at laterStored
    obtain ⟨laterStep, laterStepStored, keptStepId, keptRun⟩ := touched.steps step stepStored
    refine ⟨laterStep, laterStepStored, keptRun.trans ofRun, attempt, laterStored,
      ofStep.trans keptStepId.symm, live, task, touched.tasks ▸ taskStored, ofTask, ?_⟩
    refine underWay.imp_right fun ⟨pushedAt, copied⟩ =>
      ⟨pushedAt, TaskQueue.holds_ack_of_ne queue workerId ?_ copied⟩
    intro equal
    have fields := (tracked.linked task taskStored).addressed.copy_attempt pushedAt
    rw [equal, namedLinked.addressed.copy_attempt claimedAt, Option.some.injEq, Json.ofId,
      Json.ofId, Json.string.injEq] at fields
    exact other (ofTask.symm.trans (UUID.str_injective fields).symm)

end Worker

/-! ### Runs of the platform -/

/-- Whether what a handler returned is a success with an output object. -/
def HandlerReturn.hasOutput : HandlerReturn → Bool
  | .returned result => result.status = .succeeded && result.output.isSome
  | .raised _ => false

/-- Whether a worker writes an outcome for a task of these rows: its document IDs can be parsed,
and its handler is unknown or returns anything but a success with an output object. -/
def writesOutcome (payload : JsonObject) (rows : TaskRows) (returned : HandlerReturn) : Bool :=
  !rows.attempt.state.isFinished && (documentIds payload).isOk &&
    match getHandler (handlerName payload rows.step.stepName) with
    | .ok none => true
    | .ok (some _) => !returned.hasOutput
    | .error _ => false

/-- Whether the event is a worker iteration that writes an outcome for a task of a running run. -/
def strandsRun (platform : Platform) : PlatformEvent → Bool
  | .work _ returned _ =>
    match (platform.queue.lists .ready).getLast? with
    | none => false
    | some payload =>
      match loadRows platform.db payload with
      | .ok (some rows) => rows.run.state = .running && writesOutcome payload rows returned
      | _ => false
  | _ => false

theorem HandlerReturn.outcome_hasOutput {returned : HandlerReturn}
    (hasOutput : returned.hasOutput = true) :
    ∃ output, returned.outcome = .success (some output) := by
  cases returned with
  | raised text => cases hasOutput
  | returned result =>
    obtain ⟨succeeded, isSome⟩ : result.status = .succeeded ∧ result.output.isSome = true := by
      simpa [HandlerReturn.hasOutput] using hasOutput
    obtain ⟨output, found⟩ := Option.isSome_iff_exists.mp isSome
    refine ⟨output, ?_⟩
    show result.outcome = _
    rw [StepResult.outcome, succeeded, found]

/-- A written outcome is one the condition foresees. -/
theorem OutcomeOf.writesOutcome {payload : JsonObject} {rows : TaskRows}
    {returned : HandlerReturn} {outcome : TaskOutcome}
    (outcomeOf : OutcomeOf (fun _ _ => returned) payload rows.step.stepName outcome)
    (unfinished : rows.attempt.state.isFinished = false)
    (plain : ∀ output, outcome ≠ .success (some output)) :
    InsuranceOps.writesOutcome payload rows returned = true := by
  obtain ⟨⟨documents, parsed⟩, unknown | ⟨name, context, found, same⟩⟩ := outcomeOf
  · simp only [InsuranceOps.writesOutcome, unfinished, parsed, unknown.1, Except.isOk,
      Except.toBool, Bool.not_false, Bool.and_true]
  · have noOutput : returned.hasOutput = false := by
      cases hasOutput : returned.hasOutput with
      | false => rfl
      | true =>
        obtain ⟨output, success⟩ := HandlerReturn.outcome_hasOutput hasOutput
        exact absurd (same.trans success) (plain output)
    simp only [InsuranceOps.writesOutcome, unfinished, parsed, found, noOutput, Except.isOk,
      Except.toBool, Bool.not_false, Bool.and_true]

/-- A worker iteration that writes no outcome for a running run strands none. -/
theorem Tracked.work {loads : String → Option Json} {workerId : String} {returned : HandlerReturn}
    {draws : Draws} (tracked : Tracked ⟨db, queue⟩)
    (spared : strandsRun ⟨db, queue⟩ (.work workerId returned draws) = false) :
    Tracked ⟨(workerIteration loads (fun _ _ => returned) draws workerId db queue).1,
      (workerIteration loads (fun _ _ => returned) draws workerId db queue).2⟩ := by
  cases claim : queue.claim workerId with
  | none =>
    unfold workerIteration
    rw [claim]
    exact tracked
  | some task =>
    obtain ⟨payload, claimed⟩ := task
    rw [workerIteration_some claim]
    obtain ⟨ready, moved⟩ := TaskQueue.claim_some queue claim
    have held : claimed.Holds payload :=
      (moved payload).mpr (.inl ⟨.ready, List.mem_of_getLast? ready⟩)
    have taken : Tracked ⟨db, claimed⟩ := tracked.handedOver
      (.of_queue db (fun other => (moved other).mpr) fun other now => .inl ((moved other).mp now))
    cases processed : processTask loads (fun _ _ => returned) db draws workerId payload with
    | error failure => exact taken
    | ok disposition =>
      cases disposition with
      | deadLetter =>
        exact taken.handedOver
          (.of_queue db (fun other => TaskQueue.holds_ack_moveToDlq claimed workerId)
            fun other now => .inl (TaskQueue.holds_of_ack_moveToDlq claimed now held))
      | alreadyTerminal =>
        obtain ⟨rows, loaded, finished⟩ := processTask_alreadyTerminal processed
        exact taken.acknowledged workerId held loaded (.inl finished) (touched_refl db _)
      | written next =>
        obtain ⟨rows, outcome, loaded, unfinished, outcomeOf, plain, reported⟩ :=
          processTask_written processed
        refine taken.acknowledged workerId held loaded (.inr fun running => ?_) reported.touched
        have writes := outcomeOf.writesOutcome unfinished plain
        simp only [strandsRun, ready, loaded, running, writes, decide_true, Bool.and_true] at spared
        cases spared

/-- One step that is not a written outcome of a running run keeps a platform tracked. -/
theorem Tracked.step (registry : WorkflowRegistry) (loads : String → Option Json)
    (platform : Platform) (event : PlatformEvent) (tracked : Tracked platform)
    (spared : strandsRun platform event = false) :
    Tracked (Platform.step registry loads platform event) := by
  obtain ⟨db, queue⟩ := platform
  cases event with
  | request made principal draws =>
    exact commit_induction (fun next => Tracked ⟨next, queue⟩) tracked
      fun next ran => tracked.request ran
  | relay draws => exact tracked.handedOver (relayBatch_handedOver draws queue db)
  | schedule acquired now =>
    exact tracked.handedOver (schedulerPass_handedOver queue acquired now db)
  | work workerId returned draws => exact tracked.work spared
  | reap visibilityTimeout now workerIds =>
    exact tracked.handedOver (reaperPass_handedOver visibilityTimeout now queue workerIds db)

/-- In every run of the platform in which no worker iteration writes an outcome for a running run,
every running run has a queued or started attempt whose task is pending in the outbox or has a copy
in the queue. Every event hands the task of a running run on from the outbox to the queue and within
it, except a written outcome, which ends its attempt. -/
theorem no_stranded_run (registry : WorkflowRegistry) (loads : String → Option Json)
    (documents : List UUID) (events : List PlatformEvent)
    (spared : Transition.Along (Platform.step registry loads)
      (fun platform event => strandsRun platform event = false) (.empty documents) events) :
    NoneStranded (Transition.run (Platform.step registry loads) (.empty documents) events) :=
  (Transition.run_invariant (Platform.step registry loads) Tracked (Tracked.step registry loads)
    (.empty documents) (tracked_empty documents) events spared).represented

/-! ### A stranded run -/

/-- The platform after a worker ran the first task of a new run with this result. -/
def workedOn (result : StepResult) : Platform :=
  Transition.run (Platform.step [claimIntakeV1] fun _ => none) (.empty [])
    (firstTaskRelayed ++ [.work "w" (.returned result) (numberedDraws 3)])

/-- A worker whose handler returns an output leaves the task inflight, so the run keeps it. -/
theorem no_stranded_run_abandoned :
    NoneStranded (workedOn { status := .succeeded, output := some [] }) :=
  no_stranded_run [claimIntakeV1] (fun _ => none) [] _
    ⟨by decide +kernel, by decide +kernel, by decide +kernel, trivial⟩

/-- A running run is stranded where every attempt has ended. -/
theorem not_noneStranded_of_ended {platform : Platform}
    (running : ∃ run ∈ platform.db.contents.workflowRuns, run.state = .running)
    (ended : ∀ attempt ∈ platform.db.contents.stepAttempts,
      attempt.state ≠ .queued ∧ attempt.state ≠ .inProgress) : ¬NoneStranded platform := by
  intro allRepresented
  obtain ⟨run, stored, isRunning⟩ := running
  obtain ⟨-, -, -, attempt, attemptStored, -, queued | inProgress, -⟩ :=
    allRepresented run stored isRunning
  · exact (ended attempt attemptStored).1 queued
  · exact (ended attempt attemptStored).2 inProgress

/-- A success of the first step without output and a terminal failure of it each leave the run
running, with no attempt left to work on. -/
theorem first_outcome_strands :
    ¬NoneStranded (workedOn { status := .succeeded }) ∧
      ¬NoneStranded (workedOn { status := .failedTerminal }) :=
  ⟨not_noneStranded_of_ended (by decide +kernel) (by decide +kernel),
    not_noneStranded_of_ended (by decide +kernel) (by decide +kernel)⟩

end InsuranceOps
