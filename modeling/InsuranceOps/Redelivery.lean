/-
This file models any number of deliveries of tasks to workers whose statements
interleave at isolation level READ COMMITTED. A worker reads the attempt once,
without a lock, and marks it later; so the row it marks may meanwhile have got
an outcome, and an attempt whose outcome is a retryable failure is taken up
again. As long as no worker marks an attempt that has an outcome, each attempt
gets at most one, and it never changes.
-/

import InsuranceOps.Worker
import InsuranceOps.Library.OneToken
import InsuranceOps.Library.RowLocks
import InsuranceOps.Library.Transition

namespace InsuranceOps

open RowLocks OneToken Relational

/-! ### Outcomes -/

/-- The states an outcome leaves an attempt in. -/
def StepState.hasOutcome : StepState → Bool
  | .succeeded | .failedRetryable | .failedTerminal => true
  | .queued | .inProgress | .skipped => false

/-- How many outcomes a log records for an attempt. -/
def outcomeCount (log : List AuditEventModel) (stepAttemptId : UUID) : Nat :=
  log.countP fun event => event.eventType ∈ outcomeTypes ∧ event.stepAttemptId = some stepAttemptId

/-- A task as a worker has parsed it. -/
structure ClaimedTask where
  stepAttemptId : UUID
  stepId : UUID
  workflowRunId : UUID
  stepName : Json
  workerId : String

/-- The audit event of an outcome of a task. -/
def TaskOutcome.call (outcome : TaskOutcome) (task : ClaimedTask) : AppendCall :=
  { workflowRunId := task.workflowRunId
    eventType := outcome.eventType
    actor := s!"worker:main:{task.workerId}"
    payload := outcome.eventPayload task.stepName
    stepId := some task.stepId
    stepAttemptId := some task.stepAttemptId }

theorem TaskOutcome.attemptChange_hasOutcome {outcome : TaskOutcome} {now : Timestamp}
    {change : StepAttemptModel → StepAttemptModel}
    (written : outcome.attemptChange now = some change) (row : StepAttemptModel) :
    (change row).state.hasOutcome = true := by
  rw [outcome.attemptChange_state written]
  cases outcome <;> rfl

theorem TaskOutcome.eventType_mem (outcome : TaskOutcome) : outcome.eventType ∈ outcomeTypes := by
  cases outcome <;> simp [outcomeTypes, eventType]

/-! ### Statements -/

/-- How far a worker is with the task it was delivered. -/
inductive DeliveryPhase where
  | idle
  | delivered (task : ClaimedTask)
  | attemptRead (task : ClaimedTask) (attempt : Option StepAttemptModel)
  | stepRead (task : ClaimedTask) (attempt : Option StepAttemptModel) (step : Option StepModel)
  | ready (task : ClaimedTask)
  | marked (task : ClaimedTask)
  | handled (task : ClaimedTask) (outcome : TaskOutcome)
  | attemptWritten (task : ClaimedTask) (outcome : TaskOutcome)
  | stepWritten (task : ClaimedTask) (outcome : TaskOutcome)
  | runLocked (task : ClaimedTask) (outcome : TaskOutcome)
  | latestRead (task : ClaimedTask) (outcome : TaskOutcome) (latest : Option AuditEventModel)
  | appended (task : ClaimedTask)

/-- One statement of a worker, or what happens between two of them: a delivery, the return of the
handler, or a rollback by an exception or a crash. -/
inductive DeliveryAction where
  | deliver (task : ClaimedTask)
  | readAttempt
  | readStep
  | readRun
  | mark (now : Timestamp)
  | handle (outcome : TaskOutcome)
  | writeAttempt (now : Timestamp)
  | writeStep (now : Timestamp)
  | lockRun
  | readLatest
  | insertEvent (draw : EventDraw)
  | commit
  | rollback

/-- The rows the workers touch and the workers. The events of a run are written under the lock of
its row, so they are kept with it. -/
structure DeliveryState where
  attempts : UUID → Cell StepAttemptModel
  steps : UUID → Cell StepModel
  runs : UUID → Cell (List AuditEventModel)
  phase : Nat → DeliveryPhase

namespace DeliveryState

variable (state : DeliveryState) (index : Nat)

/-- A worker moves on. -/
def proceed (phase : DeliveryPhase) : DeliveryState :=
  { state with phase := Function.update state.phase index phase }

/-- A worker changes an attempt that is stored, once no other worker holds it. -/
def updateAttempt (stepAttemptId : UUID) (change : StepAttemptModel → StepAttemptModel)
    (phase : DeliveryPhase) : DeliveryState :=
  let cell := state.attempts stepAttemptId
  match cell.visible index, cell.free index with
  | some row, true =>
    { state with
      attempts := Function.update state.attempts stepAttemptId
        (cell.write index (some (change row)))
      phase := Function.update state.phase index phase }
  | _, _ => state

/-- A worker changes a step that is stored, once no other worker holds it. -/
def updateStep (stepId : UUID) (change : StepModel → StepModel) (phase : DeliveryPhase) :
    DeliveryState :=
  let cell := state.steps stepId
  match cell.visible index, cell.free index with
  | some row, true =>
    { state with
      steps := Function.update state.steps stepId (cell.write index (some (change row)))
      phase := Function.update state.phase index phase }
  | _, _ => state

/-- A worker locks a run that is stored, once no other worker holds it, and leaves these events of
it. -/
def updateRun (workflowRunId : UUID) (change : List AuditEventModel → List AuditEventModel)
    (phase : DeliveryPhase) : DeliveryState :=
  let cell := state.runs workflowRunId
  match cell.visible index, cell.free index with
  | some events, true =>
    { state with
      runs := Function.update state.runs workflowRunId (cell.write index (some (change events)))
      phase := Function.update state.phase index phase }
  | _, _ => state

/-- A worker's transaction commits. -/
def commit : DeliveryState where
  attempts id := (state.attempts id).commit index
  steps id := (state.steps id).commit index
  runs id := (state.runs id).commit index
  phase := Function.update state.phase index .idle

/-- A worker's transaction rolls back. -/
def rollback : DeliveryState where
  attempts id := (state.attempts id).rollback index
  steps id := (state.steps id).rollback index
  runs id := (state.runs id).rollback index
  phase := Function.update state.phase index .idle

/-- The last of the three reads decides whether the task is taken up: all rows are stored and the
attempt is not finished. -/
def takeUp (task : ClaimedTask) : Option StepAttemptModel → Option StepModel →
    Option (List AuditEventModel) → DeliveryPhase
  | some attempt, some _, some _ => if attempt.state.isFinished then .idle else .ready task
  | _, _, _ => .idle

/-- One action of one worker; a statement that has to wait, or is not its next one, does
nothing. -/
def step (state : DeliveryState) : Nat × DeliveryAction → DeliveryState
  | (index, .rollback) => state.rollback index
  | (index, action) =>
    match state.phase index, action with
    | .idle, .deliver task => state.proceed index (.delivered task)
    | .delivered task, .readAttempt =>
      state.proceed index (.attemptRead task ((state.attempts task.stepAttemptId).visible index))
    | .attemptRead task attempt, .readStep =>
      state.proceed index (.stepRead task attempt ((state.steps task.stepId).visible index))
    | .stepRead task attempt step, .readRun =>
      state.proceed index (takeUp task attempt step ((state.runs task.workflowRunId).visible index))
    | .ready task, .mark now =>
      state.updateAttempt index task.stepAttemptId (StepAttemptModel.begin now) (.marked task)
    | .marked task, .handle outcome => state.proceed index (.handled task outcome)
    | .handled task outcome, .writeAttempt now =>
      match outcome.attemptChange now with
      | some change =>
        state.updateAttempt index task.stepAttemptId change (.attemptWritten task outcome)
      | none => state
    | .attemptWritten task outcome, .writeStep now =>
      state.updateStep index task.stepId (outcome.stepChange now) (.stepWritten task outcome)
    | .stepWritten task outcome, .lockRun =>
      state.updateRun index task.workflowRunId id (.runLocked task outcome)
    | .runLocked task outcome, .readLatest =>
      state.proceed index (.latestRead task outcome
        (((state.runs task.workflowRunId).visible index).bind fun events =>
          getLatestForRun events task.workflowRunId))
    | .latestRead task outcome latest, .insertEvent draw =>
      state.updateRun index task.workflowRunId
        (fun events => events ++ [nextAuditEvent latest (outcome.call task) draw]) (.appended task)
    | .appended _, .commit => state.commit index
    | _, _ => state

end DeliveryState

/-! ### A delivery without interference -/

/-- The committed rows before any of the deliveries. -/
def DeliveryState.initial (attempts : UUID → Option StepAttemptModel)
    (steps : UUID → Option StepModel) (runs : UUID → Option (List AuditEventModel)) :
    DeliveryState where
  attempts id := ⟨attempts id, none⟩
  steps id := ⟨steps id, none⟩
  runs id := ⟨runs id, none⟩
  phase _ := .idle

/-- The rows of a database before any of the deliveries. -/
def DeliveryState.ofDatabase (db : Database) : DeliveryState :=
  .initial db.getStepAttempt db.getStep fun workflowRunId =>
    (db.getWorkflowRun workflowRunId).map fun _ => eventsOf db.contents.auditEvents workflowRunId

/-- A worker is delivered a task and reads its rows. -/
def takesUp (index : Nat) (task : ClaimedTask) : List (Nat × DeliveryAction) :=
  [(index, .deliver task), (index, .readAttempt), (index, .readStep), (index, .readRun)]

/-- A worker that has read the rows of its task brings it to an outcome. -/
def brings (index : Nat) (outcome : TaskOutcome) (started ended : Timestamp) (draw : EventDraw) :
    List (Nat × DeliveryAction) :=
  [(index, .mark started), (index, .handle outcome), (index, .writeAttempt ended),
    (index, .writeStep ended), (index, .lockRun), (index, .readLatest),
    (index, .insertEvent draw), (index, .commit)]

/-- What the statements of a worker leave when no other worker's come between them. -/
theorem run_deliveryStatements {attempts : UUID → Option StepAttemptModel}
    {steps : UUID → Option StepModel} {runs : UUID → Option (List AuditEventModel)}
    {index : Nat} {task : ClaimedTask} {outcome : TaskOutcome} {started ended : Timestamp}
    {draw : EventDraw} {attempt : StepAttemptModel} {step : StepModel}
    {events : List AuditEventModel} {change : StepAttemptModel → StepAttemptModel}
    (attemptStored : attempts task.stepAttemptId = some attempt)
    (stepStored : steps task.stepId = some step)
    (runStored : runs task.workflowRunId = some events)
    (unfinished : attempt.state.isFinished = false)
    (written : outcome.attemptChange ended = some change) :
    Transition.run DeliveryState.step (.initial attempts steps runs)
        (takesUp index task ++ brings index outcome started ended draw) =
      .initial (Function.update attempts task.stepAttemptId (some (change (attempt.begin started))))
        (Function.update steps task.stepId (some (outcome.stepChange ended step)))
        (Function.update runs task.workflowRunId (some (events ++
          [nextAuditEvent (getLatestForRun events task.workflowRunId) (outcome.call task)
            draw]))) := by
  simp [takesUp, brings, DeliveryState.step, DeliveryState.proceed, DeliveryState.initial,
    DeliveryState.takeUp, DeliveryState.updateAttempt, DeliveryState.updateStep,
    DeliveryState.updateRun, DeliveryState.commit, Cell.visible, Cell.free, Cell.write,
    Cell.commit_update, attemptStored, stepStored, runStored, unfinished, written]

/-- A delivery no other worker interferes with does what an iteration of the worker does. -/
theorem run_ofDatabase {loads : String → Option Json}
    {handle : String → StepContext → HandlerReturn} {db next : Database} {draws : Draws}
    {workerId : String} {payload : JsonObject}
    (processed : processTask loads handle db draws workerId payload = .ok (.written next))
    (index : Nat) :
    ∃ task outcome, task.workerId = workerId ∧
      Transition.run DeliveryState.step (.ofDatabase db) (takesUp index task ++
        brings index outcome (draws.now 0) (draws.now 1) (draws.event 0 2)) = .ofDatabase next := by
  obtain ⟨rows, outcome, found, unfinished, -, written⟩ := processTask_steps processed
  obtain ⟨attemptStored, stepStored, runStored⟩ := loadRows_ok found
  obtain ⟨change, changes, contents⟩ := writeOutcome_contents written
  let task : ClaimedTask := ⟨rows.attempt.stepAttemptId, rows.step.stepId,
    rows.run.workflowRunId, (payload.get? "step_name").getD (.string "unknown"), workerId⟩
  refine ⟨task, outcome, rfl, ?_⟩
  refine (run_deliveryStatements attemptStored stepStored (by rw [runStored]; rfl) unfinished
    changes).trans ?_
  have attempts : next.contents.stepAttempts = updateRows
      (fun row => row.stepAttemptId = rows.attempt.stepAttemptId)
      (fun row => change (row.begin (draws.now 0))) db.contents.stepAttempts := by
    rw [contents]
    exact updateRows_updateRows _ (StepAttemptModel.begin (draws.now 0)) change
      (fun _ => rfl) _
  have steps : next.contents.steps = updateRows (fun row => row.stepId = rows.step.stepId)
      (outcome.stepChange (draws.now 1)) db.contents.steps := by rw [contents]; rfl
  have runs : next.contents.workflowRuns = db.contents.workflowRuns := by rw [contents]; rfl
  have events : next.contents.auditEvents = appendAuditEvent db.contents.auditEvents
      (outcome.call task) (draws.event 0 2) := by rw [contents]; rfl
  unfold DeliveryState.ofDatabase
  congr 1
  · rw [show next.getStepAttempt = fun id => next.contents.stepAttempts.find?
      fun row => row.stepAttemptId = id from rfl, attempts]
    exact (find?_updateRows_key (fun row : StepAttemptModel => row.stepAttemptId)
      (fun row => change (row.begin (draws.now 0)))
      (fun row => TaskOutcome.attemptChange_stepAttemptId changes _) attemptStored).symm
  · rw [show next.getStep = fun id => next.contents.steps.find? fun row => row.stepId = id
      from rfl, steps]
    exact (find?_updateRows_key (fun row : StepModel => row.stepId) _
      (outcome.stepChange_stepId _) stepStored).symm
  · funext workflowRunId
    rw [show next.getWorkflowRun workflowRunId = db.getWorkflowRun workflowRunId from
      congrArg (fun stored => stored.find? fun row : WorkflowRunModel =>
        row.workflowRunId = workflowRunId) runs, events, eventsOf_append_nextAuditEvent]
    by_cases same : workflowRunId = rows.run.workflowRunId
    · subst same
      rw [Function.update_self, runStored, if_pos (by rfl)]
      rfl
    · rw [Function.update_of_ne same,
        if_neg (show workflowRunId ≠ (outcome.call task).workflowRunId from same)]

/-! ### One outcome for each attempt -/

/-- The committed events of a run. -/
def DeliveryState.committedLog (state : DeliveryState) (workflowRunId : UUID) :
    List AuditEventModel :=
  (state.runs workflowRunId).committed.getD []

/-- At most one outcome of each attempt is recorded, and only of attempts that have one. -/
structure OneOutcome (state : DeliveryState) : Prop where
  single : ∀ stepAttemptId, Single fun workflowRunId =>
    outcomeCount (state.committedLog workflowRunId) stepAttemptId
  ended : ∀ stepAttemptId workflowRunId,
    0 < outcomeCount (state.committedLog workflowRunId) stepAttemptId →
      ∃ row, (state.attempts stepAttemptId).committed = some row ∧ row.state.hasOutcome = true

/-- Attempts with an outcome are as they were. -/
def KeepsOutcomes (state next : DeliveryState) : Prop :=
  ∀ stepAttemptId row, (state.attempts stepAttemptId).committed = some row →
    row.state.hasOutcome = true → (next.attempts stepAttemptId).committed = some row

/-- The action is a mark of an attempt that has an outcome. -/
def marksEnded (state : DeliveryState) : Nat × DeliveryAction → Bool
  | (index, .mark _) =>
    match state.phase index with
    | .ready task =>
      (state.attempts task.stepAttemptId).committed.any fun row => row.state.hasOutcome
    | _ => false
  | _ => false

/-! ### What a worker holds -/

/-- How much a worker's transaction has written. -/
inductive WriteStage where
  | marked
  | recorded
  | locked
  | appended
  deriving DecidableEq

/-- The task a worker's transaction is writing for. -/
def DeliveryPhase.writing : DeliveryPhase → Option (ClaimedTask × WriteStage)
  | .marked task | .handled task _ => some (task, .marked)
  | .attemptWritten task _ | .stepWritten task _ => some (task, .recorded)
  | .runLocked task _ | .latestRead task _ _ => some (task, .locked)
  | .appended task => some (task, .appended)
  | .idle | .delivered _ | .attemptRead _ _ | .stepRead _ _ _ | .ready _ => none

/-- What a worker that is writing for a task holds: the attempt, which has no committed outcome, and
from some point on the run with the events it will leave. -/
structure Holds (state : DeliveryState) (index : Nat) (task : ClaimedTask) (stage : WriteStage) :
    Prop where
  pending : ∀ row, (state.attempts task.stepAttemptId).committed = some row →
    row.state.hasOutcome = false
  attempt : ∃ row, (state.attempts task.stepAttemptId).lock = some (index, some row) ∧
    (stage ≠ .marked → row.state.hasOutcome = true)
  locked : stage = .locked → ∃ log, (state.runs task.workflowRunId).committed = some log ∧
    (state.runs task.workflowRunId).lock = some (index, some log)
  appended : stage = .appended → ∃ log event,
    (state.runs task.workflowRunId).committed = some log ∧
    (state.runs task.workflowRunId).lock = some (index, some (log ++ [event])) ∧
    event.eventType ∈ outcomeTypes ∧ event.stepAttemptId = some task.stepAttemptId

/-- Outcomes are single, and what a transaction holds is what its task calls for. -/
structure Guarded (state : DeliveryState) : Prop where
  outcome : OneOutcome state
  heldAttempt : ∀ stepAttemptId index version,
    (state.attempts stepAttemptId).lock = some (index, version) →
      ∃ task stage, (state.phase index).writing = some (task, stage) ∧
        task.stepAttemptId = stepAttemptId
  heldRun : ∀ workflowRunId index version,
    (state.runs workflowRunId).lock = some (index, version) →
      ∃ task stage, (state.phase index).writing = some (task, stage) ∧
        task.workflowRunId = workflowRunId ∧ (stage = .locked ∨ stage = .appended)
  holds : ∀ index task stage, (state.phase index).writing = some (task, stage) →
    Holds state index task stage

variable {state : DeliveryState}

/-- A worker moves on without a write that matters. -/
theorem Guarded.proceed (guarded : Guarded state) (index : Nat) {phase : DeliveryPhase}
    (same : phase.writing = (state.phase index).writing) : Guarded (state.proceed index phase) := by
  have writing (other : Nat) :
      ((state.proceed index phase).phase other).writing = (state.phase other).writing := by
    show (Function.update state.phase index phase other).writing = _
    by_cases equal : other = index
    · rw [equal, Function.update_self, same]
    · rw [Function.update_of_ne equal]
  refine ⟨⟨guarded.outcome.single, guarded.outcome.ended⟩, ?_, ?_, ?_⟩
  · intro stepAttemptId other version held
    rw [writing]
    exact guarded.heldAttempt stepAttemptId other version held
  · intro workflowRunId other version held
    rw [writing]
    exact guarded.heldRun workflowRunId other version held
  · intro other task stage written
    rw [writing] at written
    have holds := guarded.holds other task stage written
    exact ⟨holds.pending, holds.attempt, holds.locked, holds.appended⟩

/-- A step row was written, which no claim about outcomes reads. -/
theorem Guarded.updateStep (guarded : Guarded state) (index : Nat) (stepId : UUID)
    (change : StepModel → StepModel) {phase : DeliveryPhase}
    (same : phase.writing = (state.phase index).writing) :
    Guarded (state.updateStep index stepId change phase) := by
  unfold DeliveryState.updateStep
  dsimp only
  split
  · have moved := guarded.proceed index same
    refine ⟨⟨moved.outcome.single, moved.outcome.ended⟩, moved.heldAttempt, moved.heldRun, ?_⟩
    intro other task stage written
    have holds := moved.holds other task stage written
    exact ⟨holds.pending, holds.attempt, holds.locked, holds.appended⟩
  · exact guarded

/-- A worker writes its attempt, which has no committed outcome. -/
theorem Guarded.updateAttempt (guarded : Guarded state) {index : Nat} {task : ClaimedTask}
    {stage : WriteStage} {change : StepAttemptModel → StepAttemptModel} {phase : DeliveryPhase}
    (before : (state.phase index).writing = none ∨
      (state.phase index).writing = some (task, .marked))
    (after : phase.writing = some (task, stage)) (early : stage = .marked ∨ stage = .recorded)
    (pending : ∀ row, (state.attempts task.stepAttemptId).committed = some row →
      row.state.hasOutcome = false)
    (outcome : stage = .recorded → ∀ row, (change row).state.hasOutcome = true) :
    Guarded (state.updateAttempt index task.stepAttemptId change phase) := by
  unfold DeliveryState.updateAttempt
  dsimp only
  split
  · rename_i row _ isFree
    have committed (stepAttemptId : UUID) := Cell.committed_update_write state.attempts
      task.stepAttemptId stepAttemptId index (some (change row))
    -- What the worker itself had written before is at most a mark of the same attempt.
    have own (owned : ClaimedTask) (ownedStage : WriteStage)
        (written : (state.phase index).writing = some (owned, ownedStage)) :
        owned = task ∧ ownedStage = .marked := by
      rcases before with unwritten | marked
      · rw [unwritten] at written
        cases written
      · rw [marked] at written
        cases written
        exact ⟨rfl, rfl⟩
    refine ⟨⟨guarded.outcome.single, ?_⟩, ?_, ?_, ?_⟩
    · intro stepAttemptId workflowRunId positive
      obtain ⟨old, stored, ended⟩ := guarded.outcome.ended stepAttemptId workflowRunId positive
      exact ⟨old, (committed stepAttemptId).trans stored, ended⟩
    · intro stepAttemptId other version held
      dsimp only at held ⊢
      rcases Cell.lock_of_update_write held with ⟨equal, rfl⟩ | ⟨different, held⟩
      · rw [Function.update_self]
        exact ⟨task, stage, after, equal.symm⟩
      · obtain ⟨owned, ownedStage, written, same⟩ := guarded.heldAttempt _ _ _ held
        by_cases self : other = index
        · rw [self] at written
          rw [(own owned ownedStage written).1] at same
          exact absurd same.symm different
        · rw [Function.update_of_ne self]
          exact ⟨owned, ownedStage, written, same⟩
    · intro workflowRunId other version held
      obtain ⟨owned, ownedStage, written, same, late⟩ := guarded.heldRun _ _ _ held
      by_cases self : other = index
      · rw [self] at written
        rw [(own owned ownedStage written).2] at late
        rcases late with impossible | impossible <;> cases impossible
      · dsimp only
        rw [Function.update_of_ne self]
        exact ⟨owned, ownedStage, written, same, late⟩
    · intro other owned ownedStage written
      dsimp only at written
      by_cases self : other = index
      · rw [self, Function.update_self, after] at written
        cases written
        refine ⟨fun old stored => pending old ((committed _).symm.trans stored), ?_, ?_, ?_⟩
        · refine ⟨change row, ?_, fun unmarked => ?_⟩
          · dsimp only
            rw [self, Function.update_self, Cell.lock_write]
          · exact outcome (early.resolve_left unmarked) row
        · rintro rfl
          rcases early with impossible | impossible <;> cases impossible
        · rintro rfl
          rcases early with impossible | impossible <;> cases impossible
      · rw [Function.update_of_ne self] at written
        have holds := guarded.holds other owned ownedStage written
        obtain ⟨version, held, ended⟩ := holds.attempt
        exact ⟨fun old stored => holds.pending old ((committed _).symm.trans stored),
          ⟨version, Cell.lock_update_write isFree self held, ended⟩, holds.locked,
          holds.appended⟩
  · exact guarded

/-- A worker that has not added its event yet sees the committed events of its run. -/
theorem Guarded.committed_run_of_visible (guarded : Guarded state) {index : Nat}
    {task : ClaimedTask} {stage : WriteStage} {events : List AuditEventModel}
    (written : (state.phase index).writing = some (task, stage))
    (early : stage = .recorded ∨ stage = .locked)
    (seen : (state.runs task.workflowRunId).visible index = some events) :
    (state.runs task.workflowRunId).committed = some events := by
  rcases early with recorded | locked
  · rw [Cell.visible_of_not_held] at seen
    · exact seen
    · intro version held
      obtain ⟨_, _, own, -, late⟩ := guarded.heldRun _ _ _ held
      rw [written, recorded] at own
      cases own
      rcases late with impossible | impossible <;> cases impossible
  · obtain ⟨log, committed, held⟩ := (guarded.holds index task stage written).locked locked
    rw [Cell.visible_of_held held] at seen
    exact committed.trans seen

/-- A worker writes the row of its run: it locks it, or adds the event of its outcome. -/
theorem Guarded.updateRun (guarded : Guarded state) {index : Nat} {task : ClaimedTask}
    {earlier stage : WriteStage} {change : List AuditEventModel → List AuditEventModel}
    {phase : DeliveryPhase} (before : (state.phase index).writing = some (task, earlier))
    (after : phase.writing = some (task, stage))
    (writes : (earlier = .recorded ∧ stage = .locked ∧ change = id) ∨
      (earlier = .locked ∧ stage = .appended ∧ ∃ event : AuditEventModel,
        change = (fun events => events ++ [event]) ∧ event.eventType ∈ outcomeTypes ∧
          event.stepAttemptId = some task.stepAttemptId)) :
    Guarded (state.updateRun index task.workflowRunId change phase) := by
  unfold DeliveryState.updateRun
  dsimp only
  split
  · rename_i events seen isFree
    have own := guarded.holds index task earlier before
    have stored := guarded.committed_run_of_visible before
      (writes.imp (fun both => both.1) fun both => both.1) seen
    have committed (workflowRunId : UUID) := Cell.committed_update_write state.runs
      task.workflowRunId workflowRunId index (some (change events))
    have logs (workflowRunId : UUID) : ((Function.update state.runs task.workflowRunId
        ((state.runs task.workflowRunId).write index (some (change events)))
          workflowRunId).committed).getD [] = state.committedLog workflowRunId :=
      congrArg (fun log => log.getD []) (committed workflowRunId)
    have late : stage = .locked ∨ stage = .appended :=
      writes.imp (fun both => both.2.1) fun both => both.2.1
    refine ⟨⟨?_, ?_⟩, ?_, ?_, ?_⟩
    · intro stepAttemptId
      simp only [DeliveryState.committedLog, logs]
      exact guarded.outcome.single stepAttemptId
    · intro stepAttemptId workflowRunId
      simp only [DeliveryState.committedLog, logs]
      exact guarded.outcome.ended stepAttemptId workflowRunId
    · intro stepAttemptId other version held
      obtain ⟨owned, ownedStage, written, same⟩ := guarded.heldAttempt _ _ _ held
      dsimp only
      by_cases self : other = index
      · rw [self, before] at written
        cases written
        rw [self, Function.update_self]
        exact ⟨task, stage, after, same⟩
      · rw [Function.update_of_ne self]
        exact ⟨owned, ownedStage, written, same⟩
    · intro workflowRunId other version held
      dsimp only at held ⊢
      rcases Cell.lock_of_update_write held with ⟨equal, rfl⟩ | ⟨different, held⟩
      · rw [Function.update_self]
        exact ⟨task, stage, after, equal.symm, late⟩
      · obtain ⟨owned, ownedStage, written, same, ownedLate⟩ := guarded.heldRun _ _ _ held
        by_cases self : other = index
        · rw [self, before] at written
          cases written
          exact absurd same.symm different
        · rw [Function.update_of_ne self]
          exact ⟨owned, ownedStage, written, same, ownedLate⟩
    · intro other owned ownedStage written
      dsimp only at written
      by_cases self : other = index
      · rw [self, Function.update_self, after] at written
        cases written
        obtain ⟨row, held, ended⟩ := own.attempt
        have unmarked : earlier ≠ .marked := by
          rintro rfl
          rcases writes with ⟨impossible, -⟩ | ⟨impossible, -⟩ <;> cases impossible
        refine ⟨own.pending, ⟨row, self ▸ held, fun _ => ended unmarked⟩, ?_, ?_⟩
        · rintro rfl
          rcases writes with ⟨-, -, rfl⟩ | ⟨-, impossible, -⟩
          · refine ⟨events, (committed _).trans stored, ?_⟩
            dsimp only
            rw [self, Function.update_self, Cell.lock_write]
            rfl
          · cases impossible
        · rintro rfl
          rcases writes with ⟨-, impossible, -⟩ | ⟨-, -, event, rfl, outcome⟩
          · cases impossible
          · refine ⟨events, event, (committed _).trans stored, ?_, outcome⟩
            dsimp only
            rw [self, Function.update_self, Cell.lock_write]
      · rw [Function.update_of_ne self] at written
        have holds := guarded.holds other owned ownedStage written
        refine ⟨holds.pending, holds.attempt, fun isLocked => ?_, fun isAppended => ?_⟩
        · obtain ⟨log, logStored, held⟩ := holds.locked isLocked
          exact ⟨log, (committed _).trans logStored, Cell.lock_update_write isFree self held⟩
        · obtain ⟨log, event, logStored, held, outcome⟩ := holds.appended isAppended
          exact ⟨log, event, (committed _).trans logStored,
            Cell.lock_update_write isFree self held, outcome⟩
  · exact guarded

/-- A worker without a lock has no say in what its commit or rollback leaves of a row that
another worker holds. -/
theorem Guarded.others (guarded : Guarded state) {index other : Nat} {owned : ClaimedTask}
    {ownedStage : WriteStage} (written : (state.phase other).writing = some (owned, ownedStage))
    (different : other ≠ index) {next : DeliveryState}
    (attempts : (∀ version, (state.attempts owned.stepAttemptId).lock ≠ some (index, version)) →
      next.attempts owned.stepAttemptId = state.attempts owned.stepAttemptId)
    (runs : (∀ version, (state.runs owned.workflowRunId).lock ≠ some (index, version)) →
      next.runs owned.workflowRunId = state.runs owned.workflowRunId) :
    Holds next other owned ownedStage := by
  have holds := guarded.holds other owned ownedStage written
  obtain ⟨row, held, ended⟩ := holds.attempt
  have sameAttempt := attempts (Cell.not_held_of_held held different)
  refine ⟨fun old stored => holds.pending old (sameAttempt ▸ stored),
    ⟨row, sameAttempt.symm ▸ held, ended⟩, fun isLocked => ?_, fun isAppended => ?_⟩
  · obtain ⟨log, stored, runHeld⟩ := holds.locked isLocked
    rw [runs (Cell.not_held_of_held runHeld different)]
    exact ⟨log, stored, runHeld⟩
  · obtain ⟨log, event, stored, runHeld, outcome⟩ := holds.appended isAppended
    rw [runs (Cell.not_held_of_held runHeld different)]
    exact ⟨log, event, stored, runHeld, outcome⟩

/-- A worker's transaction ends: its locks are gone and it is idle. -/
theorem Guarded.ends (guarded : Guarded state) (index : Nat) {next : DeliveryState}
    (outcome : OneOutcome next)
    (phase : next.phase = Function.update state.phase index .idle)
    (attemptLock : ∀ stepAttemptId other version,
      (next.attempts stepAttemptId).lock = some (other, version) ↔
        (state.attempts stepAttemptId).lock = some (other, version) ∧ other ≠ index)
    (runLock : ∀ workflowRunId other version,
      (next.runs workflowRunId).lock = some (other, version) ↔
        (state.runs workflowRunId).lock = some (other, version) ∧ other ≠ index)
    (attempts : ∀ stepAttemptId,
      (∀ version, (state.attempts stepAttemptId).lock ≠ some (index, version)) →
        next.attempts stepAttemptId = state.attempts stepAttemptId)
    (runs : ∀ workflowRunId,
      (∀ version, (state.runs workflowRunId).lock ≠ some (index, version)) →
        next.runs workflowRunId = state.runs workflowRunId) : Guarded next := by
  have others (other : Nat) (different : other ≠ index) : next.phase other = state.phase other := by
    rw [phase, Function.update_of_ne different]
  refine ⟨outcome, ?_, ?_, ?_⟩
  · intro stepAttemptId other version held
    obtain ⟨before, different⟩ := (attemptLock stepAttemptId other version).mp held
    rw [others other different]
    exact guarded.heldAttempt stepAttemptId other version before
  · intro workflowRunId other version held
    obtain ⟨before, different⟩ := (runLock workflowRunId other version).mp held
    rw [others other different]
    exact guarded.heldRun workflowRunId other version before
  · intro other owned ownedStage written
    by_cases self : other = index
    · rw [self, phase, Function.update_self] at written
      cases written
    · rw [others other self] at written
      exact guarded.others written self (attempts _) (runs _)

/-- A rollback leaves what is committed. -/
theorem Guarded.rollback (guarded : Guarded state) (index : Nat) :
    Guarded (state.rollback index) := by
  refine guarded.ends index ⟨?_, ?_⟩ rfl (fun _ _ _ => Cell.lock_rollback_iff)
    (fun _ _ _ => Cell.lock_rollback_iff) (fun _ => Cell.rollback_of_not_held)
    fun _ => Cell.rollback_of_not_held
  · simpa [DeliveryState.committedLog, DeliveryState.rollback] using guarded.outcome.single
  · simpa [DeliveryState.committedLog, DeliveryState.rollback] using guarded.outcome.ended

theorem outcomeCount_append_outcome {event : AuditEventModel} {stepAttemptId : UUID}
    (outcome : event.eventType ∈ outcomeTypes) (about : event.stepAttemptId = some stepAttemptId)
    (log : List AuditEventModel) (other : UUID) :
    outcomeCount (log ++ [event]) other =
      outcomeCount log other + if other = stepAttemptId then 1 else 0 := by
  unfold outcomeCount
  rw [List.countP_append, List.countP_singleton]
  by_cases same : other = stepAttemptId
  · simp [same, outcome, about]
  · simp [same, about, Ne.symm same]

/-- What a commit of a worker that has appended its event leaves. -/
theorem Guarded.committed (guarded : Guarded state) {index : Nat} {task : ClaimedTask}
    (written : (state.phase index).writing = some (task, .appended)) :
    (∃ row, ((state.commit index).attempts task.stepAttemptId).committed = some row ∧
      row.state.hasOutcome = true) ∧
    (∀ stepAttemptId, stepAttemptId ≠ task.stepAttemptId →
      (state.commit index).attempts stepAttemptId = state.attempts stepAttemptId) ∧
    (∃ event : AuditEventModel,
      (state.commit index).committedLog task.workflowRunId =
        state.committedLog task.workflowRunId ++ [event] ∧
      event.eventType ∈ outcomeTypes ∧ event.stepAttemptId = some task.stepAttemptId) ∧
    ∀ workflowRunId, workflowRunId ≠ task.workflowRunId →
      (state.commit index).committedLog workflowRunId = state.committedLog workflowRunId := by
  have holds := guarded.holds index task .appended written
  refine ⟨?_, ?_, ?_, ?_⟩
  · obtain ⟨row, held, ended⟩ := holds.attempt
    refine ⟨row, ?_, ended nofun⟩
    show ((state.attempts task.stepAttemptId).commit index).committed = some row
    rw [Cell.commit_of_held held]
  · intro stepAttemptId different
    refine Cell.commit_of_not_held fun version held => ?_
    obtain ⟨owned, stage, own, same⟩ := guarded.heldAttempt _ _ _ held
    rw [written] at own
    cases own
    exact different same.symm
  · obtain ⟨log, event, stored, held, outcome⟩ := holds.appended rfl
    refine ⟨event, ?_, outcome⟩
    show ((state.runs task.workflowRunId).commit index).committed.getD [] =
      (state.runs task.workflowRunId).committed.getD [] ++ [event]
    rw [Cell.commit_of_held held, stored]
    rfl
  · intro workflowRunId different
    refine congrArg (fun cell : Cell _ => cell.committed.getD [])
      (Cell.commit_of_not_held fun version held => ?_)
    obtain ⟨owned, stage, own, same, -⟩ := guarded.heldRun _ _ _ held
    rw [written] at own
    cases own
    exact different same.symm

/-- The first outcome of an attempt is committed. -/
theorem Guarded.commit (guarded : Guarded state) {index : Nat} {task : ClaimedTask}
    (written : (state.phase index).writing = some (task, .appended)) :
    Guarded (state.commit index) := by
  have holds := guarded.holds index task .appended written
  obtain ⟨⟨row, stored, ended⟩, otherAttempts, ⟨event, log, outcome, about⟩, otherLogs⟩ :=
    guarded.committed written
  have count (stepAttemptId workflowRunId : UUID)
      (different : stepAttemptId ≠ task.stepAttemptId) :
      outcomeCount ((state.commit index).committedLog workflowRunId) stepAttemptId =
        outcomeCount (state.committedLog workflowRunId) stepAttemptId := by
    by_cases same : workflowRunId = task.workflowRunId
    · rw [same, log, outcomeCount_append_outcome outcome about, if_neg different, Nat.add_zero]
    · rw [otherLogs workflowRunId same]
  -- The attempt of the task has no outcome yet, so no log counts one.
  have zero (workflowRunId : UUID) :
      outcomeCount (state.committedLog workflowRunId) task.stepAttemptId = 0 := by
    by_contra positive
    obtain ⟨old, oldStored, oldEnded⟩ := guarded.outcome.ended task.stepAttemptId workflowRunId
      (Nat.pos_of_ne_zero positive)
    rw [holds.pending old oldStored] at oldEnded
    cases oldEnded
  refine guarded.ends index ⟨?_, ?_⟩ rfl (fun _ _ _ => Cell.lock_commit_iff)
    (fun _ _ _ => Cell.lock_commit_iff) (fun _ => Cell.commit_of_not_held)
    fun _ => Cell.commit_of_not_held
  · intro stepAttemptId
    by_cases same : stepAttemptId = task.stepAttemptId
    · rw [same]
      refine single_of_added task.workflowRunId zero ?_ fun other different => ?_
      · rw [log, outcomeCount_append_outcome outcome about, if_pos rfl]
      · rw [otherLogs other different]
    · exact (guarded.outcome.single stepAttemptId).mono fun workflowRunId =>
        Nat.le_of_eq (count stepAttemptId workflowRunId same)
  · intro stepAttemptId workflowRunId positive
    by_cases same : stepAttemptId = task.stepAttemptId
    · exact ⟨row, same.symm ▸ stored, ended⟩
    · rw [count stepAttemptId workflowRunId same] at positive
      rw [otherAttempts stepAttemptId same]
      exact guarded.outcome.ended stepAttemptId workflowRunId positive

/-! ### Every action -/

theorem KeepsOutcomes.of_committed {next : DeliveryState}
    (same : ∀ stepAttemptId, (next.attempts stepAttemptId).committed =
      (state.attempts stepAttemptId).committed) : KeepsOutcomes state next :=
  fun stepAttemptId _ stored _ => (same stepAttemptId).trans stored

theorem KeepsOutcomes.trans {next last : DeliveryState} (first : KeepsOutcomes state next)
    (second : KeepsOutcomes next last) : KeepsOutcomes state last :=
  fun stepAttemptId row stored ended =>
    second stepAttemptId row (first stepAttemptId row stored ended) ended

theorem committed_updateAttempt (state : DeliveryState) (index : Nat) (written : UUID)
    (change : StepAttemptModel → StepAttemptModel) (phase : DeliveryPhase) (stepAttemptId : UUID) :
    ((state.updateAttempt index written change phase).attempts stepAttemptId).committed =
      (state.attempts stepAttemptId).committed := by
  unfold DeliveryState.updateAttempt
  dsimp only
  split
  · exact Cell.committed_update_write _ _ _ _ _
  · rfl

@[simp] theorem attempts_updateStep (state : DeliveryState) (index : Nat) (stepId : UUID)
    (change : StepModel → StepModel) (phase : DeliveryPhase) :
    (state.updateStep index stepId change phase).attempts = state.attempts := by
  unfold DeliveryState.updateStep
  dsimp only
  split <;> rfl

@[simp] theorem attempts_updateRun (state : DeliveryState) (index : Nat) (workflowRunId : UUID)
    (change : List AuditEventModel → List AuditEventModel) (phase : DeliveryPhase) :
    (state.updateRun index workflowRunId change phase).attempts = state.attempts := by
  unfold DeliveryState.updateRun
  dsimp only
  split <;> rfl

/-- A commit overwrites no outcome: the attempt a worker holds has none. -/
theorem Guarded.keepsOutcomes_commit (guarded : Guarded state) {index : Nat} {task : ClaimedTask}
    (written : (state.phase index).writing = some (task, .appended)) :
    KeepsOutcomes state (state.commit index) := by
  have holds := guarded.holds index task .appended written
  obtain ⟨-, otherAttempts, -, -⟩ := guarded.committed written
  intro stepAttemptId row stored ended
  have different : stepAttemptId ≠ task.stepAttemptId := by
    rintro rfl
    rw [holds.pending row stored] at ended
    cases ended
  rw [otherAttempts stepAttemptId different]
  exact stored

theorem takeUp_writing (task : ClaimedTask) (attempt : Option StepAttemptModel)
    (step : Option StepModel) (run : Option (List AuditEventModel)) :
    (DeliveryState.takeUp task attempt step run).writing = none := by
  unfold DeliveryState.takeUp
  split
  · split <;> rfl
  · rfl

/-- One action keeps what the workers hold and every outcome. -/
theorem Guarded.step (guarded : Guarded state) (label : Nat × DeliveryAction)
    (pending : marksEnded state label = false) :
    Guarded (state.step label) ∧ KeepsOutcomes state (state.step label) := by
  have unchanged : Guarded state ∧ KeepsOutcomes state state :=
    ⟨guarded, .of_committed fun _ => rfl⟩
  have proceeds (index : Nat) (phase : DeliveryPhase)
      (same : phase.writing = (state.phase index).writing) :
      Guarded (state.proceed index phase) ∧ KeepsOutcomes state (state.proceed index phase) :=
    ⟨guarded.proceed index same, .of_committed fun _ => rfl⟩
  have updatesRun (index : Nat) (workflowRunId : UUID)
      (change : List AuditEventModel → List AuditEventModel) (phase : DeliveryPhase)
      (kept : Guarded (state.updateRun index workflowRunId change phase)) :
      Guarded (state.updateRun index workflowRunId change phase) ∧
        KeepsOutcomes state (state.updateRun index workflowRunId change phase) :=
    ⟨kept, .of_committed fun _ => by rw [attempts_updateRun]⟩
  obtain ⟨index, action⟩ := label
  unfold DeliveryState.step
  split
  · rename_i ended same
    cases same
    exact ⟨guarded.rollback _, .of_committed fun _ => Cell.committed_rollback _ _⟩
  · rename_i _ _ _ same
    cases same
    split
    · rename_i idle _
      exact proceeds _ _ (by rw [idle]; rfl)
    · rename_i delivered _
      exact proceeds _ _ (by rw [delivered]; rfl)
    · rename_i attemptRead _
      exact proceeds _ _ (by rw [attemptRead]; rfl)
    · rename_i stepRead _
      exact proceeds _ _ (by rw [stepRead]; exact takeUp_writing _ _ _ _)
    · rename_i ready _
      simp only [marksEnded, ready, Option.any_eq_false] at pending
      exact ⟨guarded.updateAttempt (.inl (by rw [ready]; rfl)) rfl (.inl rfl) pending nofun,
        .of_committed (committed_updateAttempt _ _ _ _ _)⟩
    · rename_i marked _
      exact proceeds _ _ (by rw [marked]; rfl)
    · rename_i task _ _ handled _
      split
      · rename_i change written
        have before : (state.phase index).writing = some (task, .marked) := by
          rw [handled]
          rfl
        exact ⟨guarded.updateAttempt (.inr before) rfl (.inr rfl)
            (guarded.holds _ _ _ before).pending
            fun _ => TaskOutcome.attemptChange_hasOutcome written,
          .of_committed (committed_updateAttempt _ _ _ _ _)⟩
      · exact unchanged
    · rename_i attemptWritten _
      exact ⟨guarded.updateStep _ _ _ (by rw [attemptWritten]; rfl),
        .of_committed fun _ => by rw [attempts_updateStep]⟩
    · rename_i stepWritten _
      exact updatesRun _ _ _ _
        (guarded.updateRun (by rw [stepWritten]; rfl) rfl (.inl ⟨rfl, rfl, rfl⟩))
    · rename_i runLocked _
      exact proceeds _ _ (by rw [runLocked]; rfl)
    · rename_i latestRead _
      refine updatesRun _ _ _ _
        (guarded.updateRun (by rw [latestRead]; rfl) rfl (.inr ⟨rfl, rfl, _, rfl, ?_, rfl⟩))
      exact TaskOutcome.eventType_mem _
    · rename_i task appended _
      have written : (state.phase index).writing = some (task, .appended) := by
        rw [appended]
        rfl
      exact ⟨guarded.commit written, guarded.keepsOutcomes_commit written⟩
    · exact unchanged

/-! ### Every run -/

theorem guarded_initial {attempts : UUID → Option StepAttemptModel}
    {steps : UUID → Option StepModel} {runs : UUID → Option (List AuditEventModel)}
    (outcome : OneOutcome (.initial attempts steps runs)) :
    Guarded (.initial attempts steps runs) where
  outcome := outcome
  heldAttempt _ _ _ held := by cases held
  heldRun _ _ _ held := by cases held
  holds _ _ _ written := by cases written

open Transition in
/-- However the statements of the workers interleave, as long as no worker marks an attempt that has
an outcome, every attempt has at most one at every point, and from there on it stays as it is. An
attempt gets an outcome by a mark only, and marks on attempts that have one are excluded, so the
first one stays. -/
theorem one_outcome_per_attempt (attempts : UUID → Option StepAttemptModel)
    (steps : UUID → Option StepModel) (runs : UUID → Option (List AuditEventModel))
    (outcome : OneOutcome (.initial attempts steps runs))
    (first second : List (Nat × DeliveryAction))
    (pending : Along DeliveryState.step (fun state label => marksEnded state label = false)
      (.initial attempts steps runs) (first ++ second)) :
    OneOutcome (run DeliveryState.step (.initial attempts steps runs) (first ++ second)) ∧
      KeepsOutcomes (run DeliveryState.step (.initial attempts steps runs) first)
        (run DeliveryState.step (.initial attempts steps runs) (first ++ second)) := by
  rw [along_append] at pending
  rw [run_append]
  have middle : Guarded (run DeliveryState.step (.initial attempts steps runs) first) :=
    run_invariant DeliveryState.step Guarded
      (fun _ label guarded met => (guarded.step label met).1) _ (guarded_initial outcome) first
      pending.1
  generalize run DeliveryState.step (.initial attempts steps runs) first = reached at *
  have last := run_invariant DeliveryState.step
    (fun state => Guarded state ∧ KeepsOutcomes reached state)
    (fun state label both met =>
      let next := both.1.step label met
      ⟨next.1, both.2.trans next.2⟩)
    reached ⟨middle, .of_committed fun _ => rfl⟩ second pending.2
  exact ⟨last.1.outcome, last.2⟩

/-- The first task of a run. -/
def firstTask : ClaimedTask :=
  { stepAttemptId := 3, stepId := 2, workflowRunId := 1, stepName := .string "ingest",
    workerId := "w" }

/-- The rows of the first task before any delivery. -/
def undelivered : DeliveryState :=
  .initial
    (fun id => if id = 3 then
      some { stepAttemptId := 3, stepId := 2, stepAttemptNumber := 1, state := .queued,
             origin := .system, createdAt := 0 }
      else none)
    (fun id => if id = 2 then
      some { stepId := 2, workflowRunId := 1, stepName := "ingest", stepIndex := 0,
             state := .queued, maxAttempts := 3, escalateOnFailure := true, retryPolicy := {},
             createdAt := 0 }
      else none)
    fun id => if id = 1 then some [] else none

/-- A worker brings the first task to an outcome. -/
def bringsFirst (index : Nat) (outcome : TaskOutcome) : List (Nat × DeliveryAction) :=
  brings index outcome 1 2 ⟨9, 3⟩

/-- The first task is delivered to a worker, which brings it to an outcome. -/
def firstDelivery (index : Nat) (outcome : TaskOutcome) : List (Nat × DeliveryAction) :=
  takesUp index firstTask ++ bringsFirst index outcome

theorem oneOutcome_undelivered : OneOutcome undelivered := by
  have none (workflowRunId stepAttemptId : UUID) :
      outcomeCount (undelivered.committedLog workflowRunId) stepAttemptId = 0 := by
    show outcomeCount ((if workflowRunId = 1 then some [] else Option.none).getD []) _ = 0
    split <;> rfl
  refine ⟨fun stepAttemptId => single_of_zero fun workflowRunId => none workflowRunId _, ?_⟩
  intro stepAttemptId workflowRunId positive
  rw [none] at positive
  exact absurd positive (Nat.lt_irrefl 0)

open Transition in
/-- A redelivery of a task whose attempt succeeded is not taken up. -/
theorem one_outcome_per_attempt_redelivered :
    OneOutcome (run DeliveryState.step undelivered
        (firstDelivery 0 (.success none) ++ firstDelivery 1 (.success none))) ∧
      KeepsOutcomes (run DeliveryState.step undelivered (firstDelivery 0 (.success none)))
        (run DeliveryState.step undelivered
          (firstDelivery 0 (.success none) ++ firstDelivery 1 (.success none))) :=
  one_outcome_per_attempt _ _ _ oneOutcome_undelivered _ _ (by decide +kernel)

/-- The first task after its attempt failed retryably. -/
def failedOnce : DeliveryState :=
  Transition.run DeliveryState.step undelivered
    (firstDelivery 0 (.failRetryable (some "TIMEOUT") none))

/-- The same task delivered again and brought to a success. -/
def redeliveredAfterFailure : DeliveryState :=
  Transition.run DeliveryState.step failedOnce (firstDelivery 1 (.success none))

/-- Two workers both read the rows of the first task before either of them marks its attempt. -/
def readByBoth : DeliveryState :=
  Transition.run DeliveryState.step undelivered
    (takesUp 0 firstTask ++ takesUp 1 firstTask ++ bringsFirst 0 (.success none) ++
      bringsFirst 1 (.failTerminal (some "HANDLER_ERROR") none))

theorem not_oneOutcome_of_lt {state : DeliveryState} (workflowRunId stepAttemptId : UUID)
    (more : 1 < outcomeCount (state.committedLog workflowRunId) stepAttemptId) :
    ¬OneOutcome state := by
  intro outcome
  have positive := Nat.lt_trans Nat.zero_lt_one more
  have one := (outcome.single stepAttemptId workflowRunId workflowRunId positive positive).2
  exact absurd more (Nat.not_lt_of_le (Nat.le_of_eq one))

/-- A redelivery after a retryable failure overwrites the failure and records a second outcome, and
two workers that both read the attempt before either marks it record two outcomes. -/
theorem second_outcome_recorded :
    ¬OneOutcome redeliveredAfterFailure ∧ ¬KeepsOutcomes failedOnce redeliveredAfterFailure ∧
      ¬OneOutcome readByBoth := by
  refine ⟨not_oneOutcome_of_lt 1 3 (by decide +kernel), ?_,
    not_oneOutcome_of_lt 1 3 (by decide +kernel)⟩
  intro keeps
  have failed : (failedOnce.attempts 3).committed.map (fun row => row.state) =
      some .failedRetryable := by decide +kernel
  have succeeded : (redeliveredAfterFailure.attempts 3).committed.map (fun row => row.state) =
      some .succeeded := by decide +kernel
  obtain ⟨row, stored, state⟩ := Option.map_eq_some_iff.mp failed
  rw [keeps 3 row stored (by rw [state]; rfl), Option.map_some, state] at succeeded
  cases succeeded

end InsuranceOps
