/-
This file settles how far the deployed processes take a run. The routes create
and cancel runs, the relay and the scheduler hand tasks over, and the worker
writes what became of a task; none of them calls the orchestrator after the
first task. So in every state they reach a run is running or cancelled, its
first step is the only one that was ever attempted, and no case exists that a
human could claim.
-/

import InsuranceOps.Records

namespace InsuranceOps

open Relational WorkflowOrchestrator

/-! ### Confined rows -/

/-- The rows of runs that never got past their first step. -/
structure FirstStepsOnly (rows : Contents) : Prop where
  cases : rows.escalationCases = []
  runs : ∀ run ∈ rows.workflowRuns, (run.state = .running ∧ run.version = 1) ∨
    (run.state = .cancelled ∧ run.version = 2)
  single : rows.stepAttempts.map (fun attempt => some attempt.stepId) =
    rows.workflowRuns.map fun run => run.currentStepId
  first : ∀ attempt ∈ rows.stepAttempts,
    attempt.stepAttemptNumber = 1 ∧ attempt.origin = .system
  waiting : ∀ step ∈ rows.steps, step.state = .queued ∨
    ∃ run ∈ rows.workflowRuns, run.currentStepId = some step.stepId

/-- The rows are confined, and the tasks in the outbox and in the queue are for current steps. -/
structure Confined (platform : Platform) : Prop where
  rows : FirstStepsOnly platform.db.contents
  tasks : ∀ task ∈ platform.db.contents.tasksOutbox, task.Addressed ∧
    ∃ run ∈ platform.db.contents.workflowRuns, run.currentStepId = some task.stepId
  copies : ∀ payload, platform.queue.Holds payload →
    ∃ task ∈ platform.db.contents.tasksOutbox, ∃ claimedAt, payload = task.copy claimedAt

theorem confined_empty (documents : List UUID) : Confined (.empty documents) where
  rows := ⟨rfl, fun _ stored => absurd stored List.not_mem_nil, rfl,
    fun _ stored => absurd stored List.not_mem_nil, fun _ stored => absurd stored List.not_mem_nil⟩
  tasks _ stored := absurd stored List.not_mem_nil
  copies payload held := absurd held (ListStore.Store.not_holds_empty payload)

variable {db next : Database} {queue after : TaskQueue}

/-! ### Handing over -/

theorem Confined.handedOver (confined : Confined ⟨db, queue⟩)
    (handed : HandedOver db next queue after) : Confined ⟨next, after⟩ where
  rows := by
    rw [handed.contents]
    exact ⟨confined.rows.cases, confined.rows.runs, confined.rows.single, confined.rows.first,
      confined.rows.waiting⟩
  tasks row stored := by
    obtain ⟨task, taskStored, same⟩ := handed.backward row stored
    obtain ⟨addressed, current⟩ := confined.tasks task taskStored
    rw [handed.contents, same.stepId]
    exact ⟨addressed.of_same same, current⟩
  copies payload held := by
    have copied : ∃ task ∈ db.contents.tasksOutbox, ∃ claimedAt, payload = task.copy claimedAt := by
      rcases handed.gained payload held with old | new
      · exact confined.copies payload old
      · exact new
    obtain ⟨task, stored, claimedAt, rfl⟩ := copied
    obtain ⟨row, rowStored, same, -⟩ := handed.forward task stored
    exact ⟨row, rowStored, claimedAt, (same.copy claimedAt).symm⟩

/-! ### Requests -/

/-- A new run comes with one attempt and one task, both for its current step. -/
theorem Confined.started {new : NewRun} {registry : WorkflowRegistry}
    (confined : Confined ⟨db, queue⟩) (started : Started db next new)
    (described : new.Described registry) : Confined ⟨next, queue⟩ := by
  obtain ⟨attemptId, scheduledFor, now, attempt⟩ := started.attempt
  have attemptStep : new.attempt.stepId = new.first.stepId := by
    rw [attempt]
    rfl
  constructor
  · rw [started.contents]
    constructor
    · exact confined.rows.cases
    · intro run stored
      rcases List.mem_append.mp stored with old | added
      · exact confined.rows.runs run old
      · rw [List.mem_singleton.mp added]
        exact .inl ⟨started.running, described.version⟩
    · rw [List.map_append, List.map_append, confined.rows.single, List.map_singleton,
        List.map_singleton, started.current, attemptStep]
    · intro row stored
      rcases List.mem_append.mp stored with old | added
      · exact confined.rows.first row old
      · rw [List.mem_singleton.mp added, attempt]
        exact ⟨rfl, rfl⟩
    · intro step stored
      rcases List.mem_append.mp stored with old | added
      · exact (confined.rows.waiting step old).imp_right fun ⟨run, runStored, current⟩ =>
          ⟨run, List.mem_append_left _ runStored, current⟩
      · obtain ⟨time, stepId, rows⟩ := started.rows
        exact .inl (stepRows_mem (rows ▸ added)).2
  · rw [started.contents]
    intro task stored
    rcases List.mem_append.mp stored with old | added
    · obtain ⟨addressed, run, runStored, current⟩ := confined.tasks task old
      exact ⟨addressed, run, List.mem_append_left _ runStored, current⟩
    · rw [List.mem_singleton.mp added, started.task.2.1]
      exact ⟨started.addressed, new.run, List.mem_append_right _ List.mem_cons_self,
        started.current⟩
  · rw [started.contents]
    intro payload held
    obtain ⟨task, stored, copied⟩ := confined.copies payload held
    exact ⟨task, List.mem_append_left _ stored, copied⟩

/-- Cancelling moves a running run, whose version was one. -/
theorem Confined.cancelled {workflowRunId : UUID} {draws : Draws} {body : CancelRequest}
    {principal : ApiKeyPrincipal} (confined : Confined ⟨db, queue⟩)
    (ran : cancelWorkflowRun db draws workflowRunId body principal = .ok next) :
    Confined ⟨next, queue⟩ := by
  obtain ⟨found, call, lookup, can, contents⟩ := cancelWorkflowRun_ok ran
  have currents : next.contents.workflowRuns.map (fun run => run.currentStepId) =
      db.contents.workflowRuns.map fun run => run.currentStepId := by
    rw [contents]
    exact updateRows_map _ (WorkflowRunModel.cancel (draws.now 0)) _ (fun _ => rfl) _
  have kept {stepId : UUID} (current : ∃ run ∈ db.contents.workflowRuns,
      run.currentStepId = some stepId) :
      ∃ run ∈ next.contents.workflowRuns, run.currentStepId = some stepId := by
    rw [← List.mem_map, currents]
    exact List.mem_map.mpr current
  constructor
  · constructor
    · rw [contents]
      exact confined.rows.cases
    · rw [contents]
      intro run stored
      obtain ⟨old, oldStored, rfl⟩ := mem_updateRows.mp stored
      by_cases selected : old.workflowRunId = workflowRunId
      · rw [if_pos (decide_eq_true selected)]
        obtain rfl := eq_of_find? (fun row : WorkflowRunModel => row.workflowRunId)
          db.workflowRuns_distinct lookup oldStored selected
        rcases confined.rows.runs old oldStored with running | cancelled
        · exact .inr ⟨rfl, congrArg (· + 1) running.2⟩
        · rw [cancelled.1] at can
          cases can
      · rw [if_neg (by simpa using selected)]
        exact confined.rows.runs old oldStored
    · rw [currents, contents]
      exact confined.rows.single
    · rw [contents]
      exact confined.rows.first
    · intro step stored
      rw [contents] at stored
      exact (confined.rows.waiting step stored).imp_right kept
  · intro task stored
    rw [contents] at stored
    exact (confined.tasks task stored).imp_right kept
  · rw [contents]
    exact confined.copies

theorem FirstStepsOnly.getEscalationCase (confined : FirstStepsOnly db.contents)
    (escalationId : UUID) : db.getEscalationCase escalationId = none := by
  rw [Database.getEscalationCase_eq, confined.cases]
  rfl

/-- Whether a request is about an escalation case. -/
def RouteRequest.aboutCase : RouteRequest → Bool
  | .claimEscalation _ | .resolveEscalation _ _ | .rejectEscalation _ _ => true
  | .createWorkflowRun _ | .cancelWorkflowRun _ _ => false

/-- Without a case, no request about one succeeds. -/
theorem FirstStepsOnly.refuses {registry : WorkflowRegistry} {draws : Draws}
    {principal : ApiKeyPrincipal} {made : RouteRequest} (confined : FirstStepsOnly db.contents)
    (about : made.aboutCase = true) : made.perform registry db draws principal ≠ .ok next := by
  intro ran
  cases made with
  | createWorkflowRun body => cases about
  | cancelWorkflowRun workflowRunId body => cases about
  | claimEscalation escalationId =>
    obtain ⟨found, call, lookup, -⟩ := claimEscalation_ok ran
    rw [confined.getEscalationCase] at lookup
    cases lookup
  | resolveEscalation escalationId body =>
    obtain ⟨found, answer, call, lookup, -⟩ := resolveEscalation_ok ran
    rw [confined.getEscalationCase] at lookup
    cases lookup
  | rejectEscalation escalationId body =>
    obtain ⟨found, answer, call, lookup, -⟩ := rejectEscalation_ok ran
    rw [confined.getEscalationCase] at lookup
    cases lookup

theorem Confined.request {registry : WorkflowRegistry} {draws : Draws}
    {principal : ApiKeyPrincipal} {made : RouteRequest} (confined : Confined ⟨db, queue⟩)
    (ran : made.perform registry db draws principal = .ok next) : Confined ⟨next, queue⟩ := by
  cases made with
  | createWorkflowRun body =>
    obtain ⟨workflowRunId, ran⟩ := RouteRequest.perform_create ran
    obtain ⟨new, started, described, -⟩ := createWorkflowRun_writes ran
    exact confined.started started described
  | cancelWorkflowRun workflowRunId body => exact confined.cancelled ran
  | claimEscalation escalationId => exact absurd ran (confined.rows.refuses rfl)
  | resolveEscalation escalationId body => exact absurd ran (confined.rows.refuses rfl)
  | rejectEscalation escalationId body => exact absurd ran (confined.rows.refuses rfl)

/-! ### The worker -/

/-- Changes of attempts that keep their step, number and origin keep the rows confined, and so do
changes of steps some run points to. -/
theorem FirstStepsOnly.reported {attempts : StepAttemptModel → Bool} {stepId : UUID}
    {attemptChange : StepAttemptModel → StepAttemptModel} {stepChange : StepModel → StepModel}
    {events : List AuditEventModel} (confined : FirstStepsOnly db.contents)
    (contents : next.contents = { db.contents with
      stepAttempts := updateRows attempts attemptChange db.contents.stepAttempts
      steps := updateRows (fun row => row.stepId = stepId) stepChange db.contents.steps
      auditEvents := events })
    (attemptKeeps : ∀ row, (attemptChange row).stepId = row.stepId ∧
      (attemptChange row).stepAttemptNumber = row.stepAttemptNumber ∧
      (attemptChange row).origin = row.origin)
    (stepKeeps : ∀ row, (stepChange row).stepId = row.stepId)
    (current : ∃ run ∈ db.contents.workflowRuns, run.currentStepId = some stepId) :
    FirstStepsOnly next.contents := by
  rw [contents]
  constructor
  · exact confined.cases
  · exact confined.runs
  · rw [← confined.single]
    exact updateRows_map attempts attemptChange (fun attempt => some attempt.stepId)
      (fun row => congrArg some (attemptKeeps row).1) _
  · intro attempt stored
    obtain ⟨old, oldStored, rfl⟩ := mem_updateRows.mp stored
    split
    · rw [(attemptKeeps old).2.1, (attemptKeeps old).2.2]
      exact confined.first old oldStored
    · exact confined.first old oldStored
  · intro step stored
    obtain ⟨old, oldStored, rfl⟩ := mem_updateRows.mp stored
    by_cases selected : old.stepId = stepId
    · rw [if_pos (decide_eq_true selected), stepKeeps, selected]
      exact .inr current
    · rw [if_neg (by simpa using selected)]
      exact confined.waiting old oldStored

/-- A written outcome touches the attempt and the step of its task, which is some run's current
step. -/
theorem Confined.written {loads : String → Option Json}
    {handle : String → StepContext → HandlerReturn} {draws : Draws} {workerId : String}
    {payload : JsonObject} (confined : Confined ⟨db, queue⟩) (held : queue.Holds payload)
    (processed : processTask loads handle db draws workerId payload = .ok (.written next)) :
    Confined ⟨next, queue⟩ := by
  obtain ⟨rows, outcome, loaded, -, -, written⟩ := processTask_steps processed
  obtain ⟨change, changes, contents⟩ := writeOutcome_contents written
  obtain ⟨task, stored, claimedAt, rfl⟩ := confined.copies payload held
  obtain ⟨addressed, current⟩ := confined.tasks task stored
  have named : rows.step.stepId = task.stepId := by
    obtain ⟨-, found, -⟩ := loadRows_addressed
      ((task.copy_get? claimedAt (by decide)).trans addressed.run)
      ((task.copy_get? claimedAt (by decide)).trans addressed.step)
      (addressed.copy_attempt claimedAt) loaded
    exact (mem_of_find? (fun row : StepModel => row.stepId) found).2
  rw [Database.contents_updateStepAttempt] at contents
  dsimp only at contents
  rw [updateRows_updateRows _ (StepAttemptModel.begin (draws.now 0)) change fun _ => rfl]
    at contents
  constructor
  · exact confined.rows.reported contents (fun row => outcome.attemptChange_keeps changes
      (row.begin (draws.now 0))) (outcome.stepChange_stepId (draws.now 1)) (named ▸ current)
  · rw [contents]
    exact confined.tasks
  · rw [contents]
    exact confined.copies

theorem Confined.work {loads : String → Option Json} {workerId : String}
    {returned : HandlerReturn} {draws : Draws} (confined : Confined ⟨db, queue⟩) :
    Confined ⟨(workerIteration loads (fun _ _ => returned) draws workerId db queue).1,
      (workerIteration loads (fun _ _ => returned) draws workerId db queue).2⟩ := by
  cases claim : queue.claim workerId with
  | none =>
    unfold workerIteration
    rw [claim]
    exact confined
  | some task =>
    obtain ⟨payload, claimed⟩ := task
    rw [workerIteration_some claim]
    obtain ⟨ready, moved⟩ := TaskQueue.claim_some queue claim
    have held : claimed.Holds payload :=
      (moved payload).mpr (.inl ⟨.ready, List.mem_of_getLast? ready⟩)
    have taken : Confined ⟨db, claimed⟩ := confined.handedOver
      (.of_queue db (fun other => (moved other).mpr) fun other now => .inl ((moved other).mp now))
    have acknowledged {later : Database} (reached : Confined ⟨later, claimed⟩) :
        Confined ⟨later, claimed.ack workerId payload⟩ :=
      ⟨reached.rows, reached.tasks, fun other stillHeld =>
        reached.copies other (TaskQueue.holds_of_ack claimed stillHeld)⟩
    cases processed : processTask loads (fun _ _ => returned) db draws workerId payload with
    | error failure => exact taken
    | ok disposition =>
      cases disposition with
      | deadLetter =>
        exact taken.handedOver
          (.of_queue db (fun other => TaskQueue.holds_ack_moveToDlq claimed workerId)
            fun other now => .inl (TaskQueue.holds_of_ack_moveToDlq claimed now held))
      | alreadyTerminal => exact acknowledged taken
      | written next => exact acknowledged (taken.written held processed)

/-! ### Runs of the platform -/

theorem Confined.step (registry : WorkflowRegistry) (loads : String → Option Json)
    (platform : Platform) (event : PlatformEvent) (confined : Confined platform) :
    Confined (Platform.step registry loads platform event) := by
  obtain ⟨db, queue⟩ := platform
  cases event with
  | request made principal draws =>
    exact commit_induction (fun next => Confined ⟨next, queue⟩) confined
      fun next ran => confined.request ran
  | relay draws => exact confined.handedOver (relayBatch_handedOver draws queue db)
  | schedule acquired now =>
    exact confined.handedOver (schedulerPass_handedOver queue acquired now db)
  | work workerId returned draws => exact confined.work
  | reap visibilityTimeout now workerIds =>
    exact confined.handedOver (reaperPass_handedOver visibilityTimeout now queue workerIds db)

/-- Whatever the routes, the relay, the scheduler, the worker and the reaper do, in whatever order:
every run is running at its first version or cancelled at its second, each run has the one attempt
it was created with, every step but the runs' current ones is still queued, and no request about an
escalation case succeeds. Only a new run adds an attempt, for its first step, and every task in the
outbox or the queue names a run's current step, so a worker never gets another one to write. -/
theorem platform_confined (registry : WorkflowRegistry) (loads : String → Option Json)
    (documents : List UUID) (events : List PlatformEvent) :
    let reached := Transition.run (Platform.step registry loads) (.empty documents) events
    FirstStepsOnly reached.db.contents ∧
      ∀ (made : RouteRequest) (principal : ApiKeyPrincipal) (draws : Draws) (next : Database),
        made.aboutCase = true → made.perform registry reached.db draws principal ≠ .ok next := by
  have confined := Transition.run_invariant_always (Platform.step registry loads) Confined
    (Confined.step registry loads) (.empty documents) (confined_empty documents) events
  exact ⟨confined.rows, fun made principal draws next about => confined.rows.refuses about⟩

end InsuranceOps
