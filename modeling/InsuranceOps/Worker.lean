/-
This file models one iteration of the worker loop: claiming a task, loading
the rows it names, running the step handler and writing the outcome in one
transaction, then acknowledging the task. What a handler returns is up to the
handler; what the worker makes of it is modelled in full. The statements at the
end say which rows an iteration can change: the attempt and the step of the
task, and nothing of the run, its cases, its other attempts or the outbox.
-/

import InsuranceOps.OrchestratorEffects
import InsuranceOps.Queue

namespace InsuranceOps

open Relational

/-! ### Reading a task -/

/-- `UUID(text)` in a task payload. -/
def parseId (text : String) : Except Failure UUID :=
  orRaise (uuidOfText text.toList) (.valueError "badly formed hexadecimal UUID string")

/-- `UUID(value) if value else None`, for the value under a key. -/
def readId (payload : JsonObject) (key : String) : Except Failure (Option UUID) :=
  match payload.get? key with
  | none => .ok none
  | some value =>
    if value.truthy then
      match value with
      | .string text => (parseId text).map some
      | _ => .error (.exception "AttributeError")
    else .ok none

/-- The rows a task names. -/
structure TaskRows where
  attempt : StepAttemptModel
  step : StepModel
  run : WorkflowRunModel

/-- Load the rows a task names, if it names three identifiers and the rows are stored. -/
def loadRows (db : Database) (payload : JsonObject) : Except Failure (Option TaskRows) := do
  let stepAttemptId ← readId payload "step_attempt_id"
  let stepId ← readId payload "step_id"
  let workflowRunId ← readId payload "workflow_run_id"
  match stepAttemptId.bind db.getStepAttempt, stepId.bind db.getStep,
    workflowRunId.bind db.getWorkflowRun with
  | some attempt, some step, some run => return some ⟨attempt, step, run⟩
  | _, _, _ => return none

/-- The states in which an attempt is not taken up again. -/
def StepState.isFinished : StepState → Bool
  | .succeeded | .failedTerminal | .skipped => true
  | .queued | .inProgress | .failedRetryable => false

/-! ### The context of a handler -/

/-- The items iterating over a JSON value yields. -/
def iterated : Json → Except Failure (List Json)
  | .array items => .ok items
  | .object entries => .ok (entries.map fun entry => .string entry.1)
  | .string text => .ok (text.toList.map fun char => .string (String.singleton char))
  | _ => .error (.exception "TypeError")

/-- `UUID(d) if isinstance(d, str) else d`. -/
def documentId : Json → Except Failure (UUID ⊕ Json)
  | .string text => (parseId text).map .inl
  | value => .ok (.inr value)

/-- The document IDs of a task. -/
def documentIds (payload : JsonObject) : Except Failure (List (UUID ⊕ Json)) := do
  let raw ← iterated ((payload.get? "document_ids").getD (.array []))
  raw.mapM documentId

/-- Context passed to a step handler for execution. -/
structure StepContext where
  workflowRunId : UUID
  stepId : UUID
  stepAttemptId : UUID
  stepName : String
  workflowName : Json
  documentIds : List (UUID ⊕ Json)
  correlationId : Json
  previousOutputs : JsonObject

/-- What running a handler gives: a result, or an exception with its text. -/
inductive HandlerReturn where
  | returned (result : StepResult)
  | raised (text : String)

section Previous

variable (loads : String → Option Json) (db : Database)

/-- The output of a step's latest succeeded attempt: its decoded text, or the text itself where
`json.loads` raises. -/
def outputOf (stepId : UUID) : Option Json :=
  match (db.listAttempts stepId).find? fun attempt => attempt.state = .succeeded with
  | none => none
  | some attempt => attempt.outputRef.map fun text => (loads text).getD (.string text)

/-- Load `output_ref` from all preceding succeeded steps. -/
def loadPreviousOutputs (workflowRunId : UUID) (currentStepName : String) : JsonObject :=
  match db.getStepByRunAndName workflowRunId currentStepName with
  | none => []
  | some currentStep =>
    ((db.listSteps workflowRunId).filter fun step =>
      step.stepIndex < currentStep.stepIndex ∧ step.state = .succeeded).foldl
        (fun outputs step => match outputOf loads db step.stepId with
          | some output => outputs.set step.stepName output
          | none => outputs) []

end Previous

/-! ### Running a handler -/

/-- The names in the handler map. -/
def handlerMap : List String := ["ingest", "extract", "validate", "route", "complete"]

/-- Look a handler up by name: `none` stands for `KeyError`, and an unhashable name raises. -/
def getHandler : Json → Except Failure (Option String)
  | .string name => .ok (if name ∈ handlerMap then some name else none)
  | .array _ | .object _ => .error (.exception "TypeError")
  | _ => .ok none

/-- `str(value)` of a hashable value. -/
def Json.str : Json → String
  | .null => "None"
  | .bool true => "True"
  | .bool false => "False"
  | .string text => text
  | value => String.ofList value.dumps

/-- The outcome of a step as the worker sees it. -/
inductive TaskOutcome where
  | success (outputRef : Option JsonObject)
  | failRetryable (errorCode errorDetail : Option String)
  | failTerminal (errorCode errorDetail : Option String)
  deriving DecidableEq

/-- Map a handler's result to the worker's outcomes. -/
def StepResult.outcome (result : StepResult) : TaskOutcome :=
  match result.status with
  | .succeeded => .success result.output
  | .failedRetryable => .failRetryable result.errorCode result.errorDetail
  | .escalate =>
    .failTerminal (some (result.reasonCode "ESCALATION_REQUESTED")) result.errorDetail
  | .failedTerminal => .failTerminal result.errorCode result.errorDetail

/-- The outcome of running a handler. -/
def HandlerReturn.outcome : HandlerReturn → TaskOutcome
  | .returned result => result.outcome
  | .raised text => .failRetryable (some "HANDLER_EXCEPTION") (some text)

variable (loads : String → Option Json) (handle : String → StepContext → HandlerReturn)

/-- The name a task gives for its handler. -/
def handlerName (payload : JsonObject) (stepName : String) : Json :=
  (payload.get? "handler_name").getD (.string stepName)

/-- Execute the appropriate step handler via the handler registry. -/
def executeStepHandler (db : Database) (rows : TaskRows) (payload : JsonObject) :
    Except Failure TaskOutcome := do
  let documentIds ← documentIds payload
  let context : StepContext :=
    { workflowRunId := rows.run.workflowRunId
      stepId := rows.step.stepId
      stepAttemptId := rows.attempt.stepAttemptId
      stepName := rows.step.stepName
      workflowName := (payload.get? "workflow_name").getD (.string "unknown")
      documentIds := documentIds
      correlationId := (payload.get? "correlation_id").getD (.string "")
      previousOutputs := loadPreviousOutputs loads db rows.run.workflowRunId rows.step.stepName }
  match ← getHandler (handlerName payload rows.step.stepName) with
  | none =>
    let name := (handlerName payload rows.step.stepName).str
    return .failTerminal (some "HANDLER_NOT_FOUND")
      (some s!"No handler registered for '{name}'")
  | some name => return (handle name context).outcome

/-! ### Writing an outcome -/

namespace StepAttemptModel

abbrev begin (now : Timestamp) (row : StepAttemptModel) : StepAttemptModel :=
  { row with state := .inProgress, startedAt := some now }

abbrev succeed (now : Timestamp) (row : StepAttemptModel) : StepAttemptModel :=
  { row with state := .succeeded, endedAt := some now, outputRef := none }

abbrev fail (state : StepState) (errorCode errorDetail : Option String) (now : Timestamp)
    (row : StepAttemptModel) : StepAttemptModel :=
  { row with
    state := state
    endedAt := some now
    errorCode := errorCode
    errorDetail := errorDetail }

theorem begin_keeps (draws : Draws) (row : StepAttemptModel) :
    (row.begin (draws.now 0)).stepAttemptId = row.stepAttemptId ∧
      (row.begin (draws.now 0)).stepId = row.stepId ∧
      (row.begin (draws.now 0)).stepAttemptNumber = row.stepAttemptNumber :=
  ⟨rfl, rfl, rfl⟩

theorem succeed_keeps (now : Timestamp) (row : StepAttemptModel) :
    (row.succeed now).stepAttemptId = row.stepAttemptId ∧
      (row.succeed now).stepId = row.stepId ∧
      (row.succeed now).stepAttemptNumber = row.stepAttemptNumber :=
  ⟨rfl, rfl, rfl⟩

theorem fail_keeps (state : StepState) (errorCode errorDetail : Option String) (now : Timestamp)
    (row : StepAttemptModel) :
    (row.fail state errorCode errorDetail now).stepAttemptId = row.stepAttemptId ∧
      (row.fail state errorCode errorDetail now).stepId = row.stepId ∧
      (row.fail state errorCode errorDetail now).stepAttemptNumber = row.stepAttemptNumber :=
  ⟨rfl, rfl, rfl⟩

end StepAttemptModel

/-- The audit event of an outcome. -/
def outcomeEvent (rows : TaskRows) (eventType workerId : String) (payload : JsonObject) :
    AppendCall :=
  { workflowRunId := rows.run.workflowRunId
    eventType := eventType
    actor := s!"worker:main:{workerId}"
    payload := payload
    stepId := some rows.step.stepId
    stepAttemptId := some rows.attempt.stepAttemptId }

/-- Write an outcome. A success binds its output to the text column `output_ref` as it is, and the
driver refuses a value that is not a string. -/
def writeOutcome (db : Database) (rows : TaskRows) (workerId : String) (stepName : Json)
    (now : Timestamp) (event : EventDraw) : TaskOutcome → Except Failure Database
  | .success (some _) => .error (.database (.invalidParameter "step_attempts.output_ref"))
  | .success none =>
    let db := db.updateStepAttempt rows.attempt.stepAttemptId (StepAttemptModel.succeed now)
    let db := db.updateStep rows.step.stepId (StepModel.succeed now) (StepModel.succeed_keeps now)
    db.appendAuditEvent (outcomeEvent rows "step_attempt.succeeded" workerId
      [("step_name", stepName), ("outcome", .string "success")]) event
  | .failRetryable errorCode errorDetail =>
    let db := db.updateStepAttempt rows.attempt.stepAttemptId
      (StepAttemptModel.fail .failedRetryable errorCode errorDetail now)
    let db := db.updateStep rows.step.stepId StepModel.failRetryable StepModel.failRetryable_keeps
    db.appendAuditEvent (outcomeEvent rows "step_attempt.failed_retryable" workerId
      [("step_name", stepName), ("error_code", .ofText errorCode),
        ("error_detail", .ofText errorDetail)]) event
  | .failTerminal errorCode errorDetail =>
    let db := db.updateStepAttempt rows.attempt.stepAttemptId
      (StepAttemptModel.fail .failedTerminal errorCode errorDetail now)
    let db := db.updateStep rows.step.stepId (StepModel.failTerminal now)
      (StepModel.failTerminal_keeps now)
    db.appendAuditEvent (outcomeEvent rows "step_attempt.failed_terminal" workerId
      [("step_name", stepName), ("error_code", .ofText errorCode),
        ("error_detail", .ofText errorDetail)]) event

/-- The types of the audit events of outcomes. -/
def outcomeTypes : List String :=
  ["step_attempt.succeeded", "step_attempt.failed_retryable", "step_attempt.failed_terminal"]

namespace TaskOutcome

/-- The type of the audit event of an outcome. -/
def eventType : TaskOutcome → String
  | .success _ => "step_attempt.succeeded"
  | .failRetryable _ _ => "step_attempt.failed_retryable"
  | .failTerminal _ _ => "step_attempt.failed_terminal"

/-- The payload of the audit event of an outcome. -/
def eventPayload (stepName : Json) : TaskOutcome → JsonObject
  | .success _ => [("step_name", stepName), ("outcome", .string "success")]
  | .failRetryable errorCode errorDetail | .failTerminal errorCode errorDetail =>
    [("step_name", stepName), ("error_code", .ofText errorCode),
      ("error_detail", .ofText errorDetail)]

/-- The change of the attempt an outcome writes; the driver refuses an output object. -/
def attemptChange (now : Timestamp) : TaskOutcome → Option (StepAttemptModel → StepAttemptModel)
  | .success (some _) => none
  | .success none => some (StepAttemptModel.succeed now)
  | .failRetryable errorCode errorDetail =>
    some (StepAttemptModel.fail .failedRetryable errorCode errorDetail now)
  | .failTerminal errorCode errorDetail =>
    some (StepAttemptModel.fail .failedTerminal errorCode errorDetail now)

/-- The change of the step an outcome writes. -/
def stepChange (now : Timestamp) : TaskOutcome → StepModel → StepModel
  | .success _ => StepModel.succeed now
  | .failRetryable _ _ => StepModel.failRetryable
  | .failTerminal _ _ => StepModel.failTerminal now

/-- The state an outcome puts the attempt in. -/
def attemptState : TaskOutcome → StepState
  | .success _ => .succeeded
  | .failRetryable _ _ => .failedRetryable
  | .failTerminal _ _ => .failedTerminal

theorem attemptChange_state {outcome : TaskOutcome} {now : Timestamp}
    {change : StepAttemptModel → StepAttemptModel}
    (written : outcome.attemptChange now = some change) (row : StepAttemptModel) :
    (change row).state = outcome.attemptState := by
  cases outcome with
  | success output =>
    cases output with
    | none => cases written; rfl
    | some _ => cases written
  | failRetryable errorCode errorDetail => cases written; rfl
  | failTerminal errorCode errorDetail => cases written; rfl

theorem attemptChange_stepAttemptId {outcome : TaskOutcome} {now : Timestamp}
    {change : StepAttemptModel → StepAttemptModel}
    (written : outcome.attemptChange now = some change) (row : StepAttemptModel) :
    (change row).stepAttemptId = row.stepAttemptId := by
  cases outcome with
  | success output =>
    cases output with
    | none => cases written; rfl
    | some _ => cases written
  | failRetryable errorCode errorDetail => cases written; rfl
  | failTerminal errorCode errorDetail => cases written; rfl

theorem stepChange_stepId (outcome : TaskOutcome) (now : Timestamp) (row : StepModel) :
    (outcome.stepChange now row).stepId = row.stepId := by
  cases outcome <;> rfl

end TaskOutcome

/-! ### An iteration -/

/-- How a claimed task is disposed of when no exception is raised. -/
inductive Disposition where
  | deadLetter
  | alreadyTerminal
  | written (flushed : Database)

/-- Process a single claimed task. -/
def processTask (db : Database) (draws : Draws) (workerId : String) (payload : JsonObject) :
    Except Failure Disposition := do
  match ← loadRows db payload with
  | none => return .deadLetter
  | some rows =>
    if rows.attempt.state.isFinished then return .alreadyTerminal
    else do
      let db := db.updateStepAttempt rows.attempt.stepAttemptId
        (StepAttemptModel.begin (draws.now 0))
      let outcome ← executeStepHandler loads handle db rows payload
      let stepName := (payload.get? "step_name").getD (.string "unknown")
      let flushed ← writeOutcome db rows workerId stepName (draws.now 1) (draws.event 0 2) outcome
      return .written flushed

/-- Commit and acknowledge a task, move it to the dead letters, or leave it inflight when an
exception was raised. -/
def settle (db : Database) (claimed : TaskQueue) (workerId : String) (payload : JsonObject) :
    Except Failure Disposition → Database × TaskQueue
  | .error _ => (db, claimed)
  | .ok .deadLetter => (db, (claimed.moveToDlq payload).ack workerId payload)
  | .ok .alreadyTerminal => (db, claimed.ack workerId payload)
  | .ok (.written flushed) => (flushed, claimed.ack workerId payload)

/-- Claim a task and process it; without a ready task nothing happens. -/
def workerIteration (draws : Draws) (workerId : String) (db : Database) (queue : TaskQueue) :
    Database × TaskQueue :=
  match queue.claim workerId with
  | none => (db, queue)
  | some (payload, claimed) =>
    settle db claimed workerId payload (processTask loads handle db draws workerId payload)

/-! ### What an iteration does -/

section Effects

variable {loads handle} {db next : Database} {draws : Draws} {workerId : String}
  {payload : JsonObject} {rows : TaskRows} {stepName : Json} {now : Timestamp} {event : EventDraw}
  {outcome : TaskOutcome}

theorem workerIteration_some {queue claimed : TaskQueue}
    (claim : queue.claim workerId = some (payload, claimed)) :
    workerIteration loads handle draws workerId db queue = settle db claimed workerId payload
      (processTask loads handle db draws workerId payload) := by
  unfold workerIteration
  rw [claim]

/-- An outcome was written: the attempt ended in its state, the step may have changed, an audit
event may have been added, and nothing else changed. -/
structure Reported (db next : Database) (rows : TaskRows) (outcome : TaskOutcome) : Prop where
  attempts : ∃ change : StepAttemptModel → StepAttemptModel,
    (∀ row, (change row).stepAttemptId = row.stepAttemptId ∧ (change row).stepId = row.stepId ∧
      (change row).state = outcome.attemptState) ∧
    next.contents.stepAttempts =
      updateRows (fun row => row.stepAttemptId = rows.attempt.stepAttemptId) change
        db.contents.stepAttempts
  steps : ∃ change : StepModel → StepModel,
    (∀ row, (change row).stepId = row.stepId ∧
      (change row).workflowRunId = row.workflowRunId) ∧
    next.contents.steps =
      updateRows (fun row => row.stepId = rows.step.stepId) change db.contents.steps
  others : next.contents = { db.contents with
    stepAttempts := next.contents.stepAttempts
    steps := next.contents.steps
    auditEvents := next.contents.auditEvents }

theorem Reported.of_appended (attemptChange : StepAttemptModel → StepAttemptModel)
    (stepChange : StepModel → StepModel) {call : AppendCall} (attemptKeeps stepKeeps)
    (ended : ∀ row, (attemptChange row).state = outcome.attemptState)
    (appended : ((db.updateStepAttempt rows.attempt.stepAttemptId attemptChange
      attemptKeeps).updateStep rows.step.stepId stepChange stepKeeps).appendAuditEvent call event =
        .ok next) : Reported db next rows outcome where
  attempts := ⟨attemptChange, fun row => ⟨(attemptKeeps row).1, (attemptKeeps row).2.1, ended row⟩,
    by simp only [Database.appendAuditEvent_ok appended, Database.contents_updateStep,
      Database.contents_updateStepAttempt]⟩
  steps := ⟨stepChange, fun row => ⟨(stepKeeps row).1, (stepKeeps row).2.1⟩,
    by simp only [Database.appendAuditEvent_ok appended, Database.contents_updateStep,
      Database.contents_updateStepAttempt]⟩
  others := by
    simp only [Database.appendAuditEvent_ok appended, Database.contents_updateStep,
      Database.contents_updateStepAttempt]

/-- Marking the attempt as in progress first changes nothing more. -/
theorem Reported.of_begun (reported : Reported (db.updateStepAttempt rows.attempt.stepAttemptId
    (StepAttemptModel.begin now)) next rows outcome) : Reported db next rows outcome where
  attempts := by
    obtain ⟨change, keeps, updated⟩ := reported.attempts
    refine ⟨fun row => change (row.begin now), fun row => keeps (row.begin now), ?_⟩
    rw [updated]
    exact updateRows_updateRows _ (StepAttemptModel.begin now) change (fun _ => rfl) _
  steps := reported.steps
  others := reported.others

/-- The attempt of the task is in the state of the outcome. -/
theorem Reported.getStepAttempt (reported : Reported db next rows outcome)
    (found : db.getStepAttempt rows.attempt.stepAttemptId = some rows.attempt) :
    (next.getStepAttempt rows.attempt.stepAttemptId).map (fun row => row.state) =
      some outcome.attemptState := by
  obtain ⟨change, keeps, updated⟩ := reported.attempts
  have lookup := find?_updateRows (fun row : StepAttemptModel => row.stepAttemptId)
    (fun row => row.stepAttemptId = rows.attempt.stepAttemptId) change (fun row => (keeps row).1)
    db.contents.stepAttempts rows.attempt.stepAttemptId
  rw [← updated, show db.contents.stepAttempts.find? _ = some rows.attempt from found,
    Option.map_some, if_pos (decide_eq_true rfl)] at lookup
  rw [show next.getStepAttempt rows.attempt.stepAttemptId = _ from lookup, Option.map_some,
    (keeps rows.attempt).2.2]

/-- Only an outcome without an output object is written. -/
theorem writeOutcome_ok
    (written : writeOutcome db rows workerId stepName now event outcome = .ok next) :
    (∀ output, outcome ≠ .success (some output)) ∧ Reported db next rows outcome := by
  unfold writeOutcome at written
  split at written
  · cases written
  · exact ⟨nofun, .of_appended (StepAttemptModel.succeed now) (StepModel.succeed now) _ _
      (fun _ => rfl) written⟩
  · rename_i errorCode errorDetail
    exact ⟨nofun, .of_appended (StepAttemptModel.fail .failedRetryable errorCode errorDetail now)
      StepModel.failRetryable _ _ (fun _ => rfl) written⟩
  · rename_i errorCode errorDetail
    exact ⟨nofun, .of_appended (StepAttemptModel.fail .failedTerminal errorCode errorDetail now)
      (StepModel.failTerminal now) _ _ (fun _ => rfl) written⟩

/-- The rows an outcome leaves, as one change of the attempt, one of the step and one event. -/
theorem writeOutcome_contents
    (written : writeOutcome db rows workerId stepName now event outcome = .ok next) :
    ∃ change, outcome.attemptChange now = some change ∧
      next.contents = { db.contents with
        stepAttempts := updateRows (fun row => row.stepAttemptId = rows.attempt.stepAttemptId)
          change db.contents.stepAttempts
        steps := updateRows (fun row => row.stepId = rows.step.stepId) (outcome.stepChange now)
          db.contents.steps
        auditEvents := appendAuditEvent db.contents.auditEvents (outcomeEvent rows
          outcome.eventType workerId (outcome.eventPayload stepName)) event } := by
  unfold writeOutcome at written
  split at written
  · cases written
  all_goals
    refine ⟨_, rfl, ?_⟩
    simp only [Database.appendAuditEvent_ok written, Database.contents_updateStep,
      Database.contents_updateStepAttempt]
    rfl

/-- An outcome is that of an unknown handler name or that of the handler that was called. -/
def OutcomeOf (handle : String → StepContext → HandlerReturn) (payload : JsonObject)
    (stepName : String) (outcome : TaskOutcome) : Prop :=
  (∃ documents, documentIds payload = .ok documents) ∧
    ((getHandler (handlerName payload stepName) = .ok none ∧ ∀ output, outcome ≠ .success output) ∨
    ∃ name context, getHandler (handlerName payload stepName) = .ok (some name) ∧
      outcome = (handle name context).outcome)

theorem executeStepHandler_ok
    (executed : executeStepHandler loads handle db rows payload = .ok outcome) :
    OutcomeOf handle payload rows.step.stepName outcome := by
  obtain ⟨documents, parsed, executed⟩ := Fallible.bind_eq_ok.mp executed
  obtain ⟨handler, found, executed⟩ := Fallible.bind_eq_ok.mp executed
  refine ⟨⟨documents, parsed⟩, ?_⟩
  cases handler with
  | none =>
    cases executed
    exact .inl ⟨found, nofun⟩
  | some name =>
    cases executed
    exact .inr ⟨name, _, found, rfl⟩

/-- A task whose outcome was written named stored rows of an unfinished attempt, which it marked
before its handler ran. -/
theorem processTask_steps
    (processed : processTask loads handle db draws workerId payload = .ok (.written next)) :
    ∃ rows outcome, loadRows db payload = .ok (some rows) ∧
      rows.attempt.state.isFinished = false ∧
      executeStepHandler loads handle (db.updateStepAttempt rows.attempt.stepAttemptId
        (StepAttemptModel.begin (draws.now 0))) rows payload = .ok outcome ∧
      writeOutcome (db.updateStepAttempt rows.attempt.stepAttemptId
        (StepAttemptModel.begin (draws.now 0))) rows workerId
          ((payload.get? "step_name").getD (.string "unknown")) (draws.now 1) (draws.event 0 2)
          outcome = .ok next := by
  obtain ⟨loaded, found, processed⟩ := Fallible.bind_eq_ok.mp processed
  cases loaded with
  | none => cases processed
  | some rows =>
    cases finished : rows.attempt.state.isFinished with
    | true =>
      simp only [finished, if_true] at processed
      cases processed
    | false =>
      simp only [finished, Bool.false_eq_true, if_false] at processed
      obtain ⟨outcome, executed, processed⟩ := Fallible.bind_eq_ok.mp processed
      obtain ⟨flushed, written, processed⟩ := Fallible.bind_eq_ok.mp processed
      cases processed
      exact ⟨rows, outcome, found, finished, executed, written⟩

/-- The outcome of such a task had no output object. -/
theorem processTask_written
    (processed : processTask loads handle db draws workerId payload = .ok (.written next)) :
    ∃ rows outcome, loadRows db payload = .ok (some rows) ∧
      rows.attempt.state.isFinished = false ∧
      OutcomeOf handle payload rows.step.stepName outcome ∧
      (∀ output, outcome ≠ .success (some output)) ∧ Reported db next rows outcome := by
  obtain ⟨rows, outcome, found, finished, executed, written⟩ := processTask_steps processed
  obtain ⟨plain, reported⟩ := writeOutcome_ok written
  exact ⟨rows, outcome, found, finished, executeStepHandler_ok executed, plain, reported.of_begun⟩

theorem processTask_alreadyTerminal
    (processed : processTask loads handle db draws workerId payload = .ok .alreadyTerminal) :
    ∃ rows, loadRows db payload = .ok (some rows) ∧ rows.attempt.state.isFinished = true := by
  obtain ⟨loaded, found, processed⟩ := Fallible.bind_eq_ok.mp processed
  cases loaded with
  | none => cases processed
  | some rows =>
    cases finished : rows.attempt.state.isFinished with
    | true => exact ⟨rows, found, finished⟩
    | false =>
      simp only [finished, Bool.false_eq_true, if_false] at processed
      obtain ⟨_, -, processed⟩ := Fallible.bind_eq_ok.mp processed
      obtain ⟨_, -, processed⟩ := Fallible.bind_eq_ok.mp processed
      cases processed

/-! ### The rows a task names -/

theorem UUID.str_ne_empty (id : UUID) : id.str ≠ "" := by
  intro empty
  have chars := congrArg String.toList empty
  rw [UUID.str, String.toList_ofList] at chars
  simp [UUID.text] at chars

theorem readId_ofId {key : String} {id : UUID} (named : payload.get? key = some (.ofId id)) :
    readId payload key = .ok (some id) := by
  have truthy : (Json.string id.str).truthy = true := by
    unfold Json.truthy
    split <;> simp_all [UUID.str_ne_empty]
  have parsed : parseId id.str = .ok id := orRaise_ok.mpr (uuidOfText_str id)
  simp only [readId, named, Json.ofId, truthy, if_true, parsed]
  rfl

/-- A task that names its rows so loads the ones that are stored. -/
theorem loadRows_eq {stepAttemptId stepId workflowRunId : Option UUID}
    (attemptNamed : readId payload "step_attempt_id" = .ok stepAttemptId)
    (stepNamed : readId payload "step_id" = .ok stepId)
    (runNamed : readId payload "workflow_run_id" = .ok workflowRunId) :
    loadRows db payload = .ok (match stepAttemptId.bind db.getStepAttempt, stepId.bind db.getStep,
      workflowRunId.bind db.getWorkflowRun with
      | some attempt, some step, some run => some ⟨attempt, step, run⟩
      | _, _, _ => none) := by
  unfold loadRows
  rw [attemptNamed, stepNamed, runNamed]
  dsimp only [bind, Except.bind]
  cases stepAttemptId.bind db.getStepAttempt <;> cases stepId.bind db.getStep <;>
    cases workflowRunId.bind db.getWorkflowRun <;> rfl

/-- A task loads the rows it names, if it names all three and they are stored. -/
theorem loadRows_some_iff :
    loadRows db payload = .ok (some rows) ↔
      ∃ stepAttemptId stepId workflowRunId,
        (readId payload "step_attempt_id" = .ok (some stepAttemptId) ∧
          readId payload "step_id" = .ok (some stepId) ∧
          readId payload "workflow_run_id" = .ok (some workflowRunId)) ∧
        db.getStepAttempt stepAttemptId = some rows.attempt ∧ db.getStep stepId = some rows.step ∧
        db.getWorkflowRun workflowRunId = some rows.run := by
  constructor
  · intro loaded
    obtain ⟨stepAttemptId, attemptNamed, loaded⟩ := Fallible.bind_eq_ok.mp loaded
    obtain ⟨stepId, stepNamed, loaded⟩ := Fallible.bind_eq_ok.mp loaded
    obtain ⟨workflowRunId, runNamed, loaded⟩ := Fallible.bind_eq_ok.mp loaded
    split at loaded
    · rename_i attempt step run foundAttempt foundStep foundRun
      cases loaded
      obtain ⟨ofAttempt, rfl, lookAttempt⟩ := Option.bind_eq_some_iff.mp foundAttempt
      obtain ⟨ofStep, rfl, lookStep⟩ := Option.bind_eq_some_iff.mp foundStep
      obtain ⟨ofRun, rfl, lookRun⟩ := Option.bind_eq_some_iff.mp foundRun
      exact ⟨ofAttempt, ofStep, ofRun, ⟨attemptNamed, stepNamed, runNamed⟩, lookAttempt, lookStep,
        lookRun⟩
    · cases loaded
  · rintro ⟨stepAttemptId, stepId, workflowRunId, ⟨attemptNamed, stepNamed, runNamed⟩, lookAttempt,
      lookStep, lookRun⟩
    rw [loadRows_eq attemptNamed stepNamed runNamed]
    simp only [Option.bind_some, lookAttempt, lookStep, lookRun]

/-- The rows a task loads are stored under their identifiers. -/
theorem loadRows_ok (loaded : loadRows db payload = .ok (some rows)) :
    db.getStepAttempt rows.attempt.stepAttemptId = some rows.attempt ∧
      db.getStep rows.step.stepId = some rows.step ∧
      db.getWorkflowRun rows.run.workflowRunId = some rows.run := by
  obtain ⟨stepAttemptId, stepId, workflowRunId, -, lookAttempt, lookStep, lookRun⟩ :=
    loadRows_some_iff.mp loaded
  refine ⟨?_, ?_, ?_⟩
  · rw [(mem_of_find? (fun row : StepAttemptModel => row.stepAttemptId) lookAttempt).2]
    exact lookAttempt
  · rw [(mem_of_find? (fun row : StepModel => row.stepId) lookStep).2]
    exact lookStep
  · rw [(mem_of_find? (fun row : WorkflowRunModel => row.workflowRunId) lookRun).2]
    exact lookRun

/-- A task whose payload is addressed to a run, a step and an attempt loads their rows. -/
theorem loadRows_addressed {workflowRunId stepId stepAttemptId : UUID}
    (run : payload.get? "workflow_run_id" = some (.ofId workflowRunId))
    (step : payload.get? "step_id" = some (.ofId stepId))
    (attempt : payload.get? "step_attempt_id" = some (.ofId stepAttemptId))
    (loaded : loadRows db payload = .ok (some rows)) :
    db.getStepAttempt stepAttemptId = some rows.attempt ∧ db.getStep stepId = some rows.step ∧
      db.getWorkflowRun workflowRunId = some rows.run := by
  obtain ⟨ofAttempt, ofStep, ofRun, ⟨attemptNamed, stepNamed, runNamed⟩, looked⟩ :=
    loadRows_some_iff.mp loaded
  cases (readId_ofId attempt).symm.trans attemptNamed
  cases (readId_ofId step).symm.trans stepNamed
  cases (readId_ofId run).symm.trans runNamed
  exact looked

end Effects

end InsuranceOps
