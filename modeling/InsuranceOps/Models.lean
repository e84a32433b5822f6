/-
This file models the platform's tables: the columns its code reads and writes,
the states and unique constraints of each table, and the database they make
up. A row is inserted when it passes the table's checks, clashes with no stored
row, and refers to stored rows; otherwise the statement fails and names the
constraint. Attribute changes are flushed as updates that keep every
constrained column.
-/

import InsuranceOps.Audit
import InsuranceOps.Workflow
import InsuranceOps.Library.Table
import InsuranceOps.Library.Fallible

namespace InsuranceOps

open Relational

/-! ### States -/

/-- The states `ck_workflow_runs_state` allows. -/
inductive WorkflowRunState where
  | pending
  | running
  | awaitingHuman
  | completed
  | failed
  | cancelled
  deriving DecidableEq

/-- The stored text of a run state. -/
def WorkflowRunState.value : WorkflowRunState → String
  | .pending => "pending"
  | .running => "running"
  | .awaitingHuman => "awaiting_human"
  | .completed => "completed"
  | .failed => "failed"
  | .cancelled => "cancelled"

/-- Whether the state is one of `TERMINAL_STATES`. -/
def WorkflowRunState.isTerminal : WorkflowRunState → Bool
  | .completed | .failed | .cancelled => true
  | .pending | .running | .awaitingHuman => false

/-- The states `ck_steps_state` and `ck_step_attempts_state` allow. -/
inductive StepState where
  | queued
  | inProgress
  | succeeded
  | failedRetryable
  | failedTerminal
  | skipped
  deriving DecidableEq

/-- The origins `ck_step_attempts_origin` allows. -/
inductive AttemptOrigin where
  | system
  | human
  | reaper
  | replay
  deriving DecidableEq

/-- The states `ck_escalation_cases_state` allows; a case starts as `open`. -/
inductive EscalationState where
  | opened
  | claimed
  | resolved
  | rejected
  | expired
  deriving DecidableEq

/-- The stored text of a case state. -/
def EscalationState.value : EscalationState → String
  | .opened => "open"
  | .claimed => "claimed"
  | .resolved => "resolved"
  | .rejected => "rejected"
  | .expired => "expired"

/-! ### Rows -/

/-- A row of `workflow_runs`. -/
structure WorkflowRunModel where
  workflowRunId : UUID
  workflowName : String
  workflowVersion : String
  state : WorkflowRunState
  version : Nat
  currentStepId : Option UUID := none
  createdAt : Timestamp
  updatedAt : Timestamp
  deadlineAt : Timestamp
  createdBy : String
  lastErrorCode : Option String := none
  lastErrorDetail : Option String := none

/-- A row of `workflow_run_documents`. -/
structure WorkflowRunDocumentModel where
  workflowRunId : UUID
  documentId : UUID
  attachedAt : Timestamp

/-- A row of `steps`. -/
structure StepModel where
  stepId : UUID
  workflowRunId : UUID
  stepName : String
  stepIndex : Int
  state : StepState
  maxAttempts : Int
  escalateOnFailure : Bool
  retryPolicy : RetryPolicy
  createdAt : Timestamp
  endedAt : Option Timestamp := none

/-- A row of `step_attempts`. -/
structure StepAttemptModel where
  stepAttemptId : UUID
  stepId : UUID
  stepAttemptNumber : Nat
  state : StepState
  origin : AttemptOrigin
  outputRef : Option String := none
  errorCode : Option String := none
  errorDetail : Option String := none
  startedAt : Option Timestamp := none
  endedAt : Option Timestamp := none
  scheduledFor : Option Timestamp := none
  createdAt : Timestamp

/-- A row of `tasks_outbox`. -/
structure TasksOutboxModel where
  outboxId : Nat
  workflowRunId : UUID
  stepId : UUID
  stepAttemptId : UUID
  payload : JsonObject
  scheduledFor : Timestamp
  enqueuedAt : Option Timestamp := none
  attempts : Nat := 0
  lastError : Option String := none
  createdAt : Timestamp

/-- A row of `escalation_cases`. -/
structure EscalationCaseModel where
  escalationId : UUID
  workflowRunId : UUID
  stepId : UUID
  state : EscalationState
  reasonCode : String
  reasonDetail : Option String
  claimedBy : Option String := none
  claimedAt : Option Timestamp := none
  resolvedBy : Option String := none
  resolvedAt : Option Timestamp := none
  resolutionPayload : Option JsonObject := none
  expiresAt : Timestamp
  createdAt : Timestamp

/-! ### Constraints -/

/-- The unique constraints, primary keys among them. -/
inductive UniqueConstraint where
  | workflowRunsPkey
  | workflowRunDocumentsPkey
  | stepsPkey
  | uqStepsRunIndex
  | uqStepsRunName
  | stepAttemptsPkey
  | uqStepAttemptsStepNumber
  | tasksOutboxPkey
  | escalationCasesPkey
  | uqEscalationCasesRunStep
  | auditEventsPkey
  | uqAuditEventsRunSeq
  deriving DecidableEq

def workflowRunKeys : List (UniqueKey WorkflowRunModel UniqueConstraint) :=
  [{ name := .workflowRunsPkey, Key := UUID, key := fun row => row.workflowRunId }]

def workflowRunDocumentKeys : List (UniqueKey WorkflowRunDocumentModel UniqueConstraint) :=
  [{ name := .workflowRunDocumentsPkey, Key := UUID × UUID,
     key := fun row => (row.workflowRunId, row.documentId) }]

def stepKeys : List (UniqueKey StepModel UniqueConstraint) :=
  [{ name := .stepsPkey, Key := UUID, key := fun row => row.stepId },
   { name := .uqStepsRunIndex, Key := UUID × Int,
     key := fun row => (row.workflowRunId, row.stepIndex) },
   { name := .uqStepsRunName, Key := UUID × String,
     key := fun row => (row.workflowRunId, row.stepName) }]

def stepAttemptKeys : List (UniqueKey StepAttemptModel UniqueConstraint) :=
  [{ name := .stepAttemptsPkey, Key := UUID, key := fun row => row.stepAttemptId },
   { name := .uqStepAttemptsStepNumber, Key := UUID × Nat,
     key := fun row => (row.stepId, row.stepAttemptNumber) }]

def tasksOutboxKeys : List (UniqueKey TasksOutboxModel UniqueConstraint) :=
  [{ name := .tasksOutboxPkey, Key := Nat, key := fun row => row.outboxId }]

def escalationCaseKeys : List (UniqueKey EscalationCaseModel UniqueConstraint) :=
  [{ name := .escalationCasesPkey, Key := UUID, key := fun row => row.escalationId },
   { name := .uqEscalationCasesRunStep, Key := UUID × UUID,
     key := fun row => (row.workflowRunId, row.stepId) }]

def auditEventKeys : List (UniqueKey AuditEventModel UniqueConstraint) :=
  [{ name := .auditEventsPkey, Key := UUID, key := fun row => row.auditEventId },
   { name := .uqAuditEventsRunSeq, Key := UUID × Int,
     key := fun row => (row.workflowRunId, row.seqInRun) }]

/-- A statement the database refuses. -/
inductive DatabaseError where
  | uniqueViolation (violated : UniqueConstraint)
  | checkViolation (violated : String)
  | foreignKeyViolation (column : String)
  | invalidParameter (column : String)
  deriving DecidableEq

/-- What a call can raise; the session it ran in is rolled back. -/
inductive Failure where
  | database (error : DatabaseError)
  | valueError (message : String)
  | indexError
  | exception (name : String)
  | httpException (statusCode : Nat) (detail : String)
  deriving DecidableEq

/-- Insert a row that passes its checks, is unique, and refers to stored rows. -/
def insertInto {Row : Type} {keys : List (UniqueKey Row UniqueConstraint)} (table : Table keys)
    (row : Row) (checks references : List (String × Bool)) : Except Failure (Table keys) :=
  match checks.find? fun check => !check.2 with
  | some check => .error (.database (.checkViolation check.1))
  | none => match table.insert row with
    | .error violated => .error (.database (.uniqueViolation violated))
    | .ok next => match references.find? fun reference => !reference.2 with
      | some reference => .error (.database (.foreignKeyViolation reference.1))
      | none => .ok next

/-- What a successful insert says. -/
structure Inserted {Row : Type} {keys : List (UniqueKey Row UniqueConstraint)}
    (table next : Table keys) (row : Row) (checks references : List (String × Bool)) : Prop where
  rows : next.rows = table.rows ++ [row]
  unique : ∀ key ∈ keys, ∀ other ∈ table.rows, key.key other ≠ key.key row
  checked : ∀ check ∈ checks, check.2 = true
  refers : ∀ reference ∈ references, reference.2 = true

theorem insertInto_ok {Row : Type} {keys : List (UniqueKey Row UniqueConstraint)}
    {table next : Table keys} {row : Row} {checks references : List (String × Bool)}
    (inserted : insertInto table row checks references = .ok next) :
    Inserted table next row checks references := by
  unfold insertInto at inserted
  split at inserted
  · cases inserted
  · rename_i checked
    split at inserted
    · cases inserted
    · rename_i result stored
      split at inserted
      · cases inserted
      · rename_i refers
        cases inserted
        obtain ⟨rows, unique⟩ := Table.insert_ok stored
        refine ⟨rows, unique, fun check member => ?_, fun reference member => ?_⟩
        · simpa using List.find?_eq_none.mp checked check member
        · simpa using List.find?_eq_none.mp refers reference member

/-- A unique violation names a constraint on which a stored row clashes with the new one. -/
theorem insertInto_uniqueViolation {Row : Type} {keys : List (UniqueKey Row UniqueConstraint)}
    {table : Table keys} {row : Row} {checks references : List (String × Bool)}
    {violated : UniqueConstraint}
    (refused : insertInto table row checks references =
      .error (.database (.uniqueViolation violated))) :
    ∃ key ∈ keys, key.name = violated ∧ ∃ other ∈ table.rows, key.key other = key.key row := by
  unfold insertInto at refused
  split at refused
  · cases refused
  · split at refused
    · rename_i name clash
      cases refused
      exact Table.insert_error clash
    · split at refused <;> cases refused

/-! ### The database -/

/-- The tables. Of a document only its identifier is read. -/
structure Database where
  documents : List UUID
  workflowRuns : Table workflowRunKeys
  workflowRunDocuments : Table workflowRunDocumentKeys
  steps : Table stepKeys
  stepAttempts : Table stepAttemptKeys
  tasksOutbox : Table tasksOutboxKeys
  outboxSequence : Nat
  escalationCases : Table escalationCaseKeys
  auditEvents : Table auditEventKeys

namespace Database

/-- A database with some ingested documents and no run. -/
def empty (documents : List UUID) : Database where
  documents := documents
  workflowRuns := .empty
  workflowRunDocuments := .empty
  steps := .empty
  stepAttempts := .empty
  tasksOutbox := .empty
  outboxSequence := 0
  escalationCases := .empty
  auditEvents := .empty

variable (db : Database)

/-! ### Reading -/

/-- Get a workflow run by its ID. -/
def getWorkflowRun (workflowRunId : UUID) : Option WorkflowRunModel :=
  db.workflowRuns.rows.find? fun row => row.workflowRunId = workflowRunId

/-- Get a step by its ID. -/
def getStep (stepId : UUID) : Option StepModel :=
  db.steps.rows.find? fun row => row.stepId = stepId

/-- Get a step attempt by its ID. -/
def getStepAttempt (stepAttemptId : UUID) : Option StepAttemptModel :=
  db.stepAttempts.rows.find? fun row => row.stepAttemptId = stepAttemptId

/-- Get an escalation case by its ID. -/
def getEscalationCase (escalationId : UUID) : Option EscalationCaseModel :=
  db.escalationCases.rows.find? fun row => row.escalationId = escalationId

/-- List steps for a workflow run ordered by `step_index`. -/
def listSteps (workflowRunId : UUID) : List StepModel :=
  (db.steps.rows.filter fun row => row.workflowRunId = workflowRunId).insertionSort
    fun first second => first.stepIndex ≤ second.stepIndex

/-- Get a step by workflow run ID and step name. -/
def getStepByRunAndName (workflowRunId : UUID) (stepName : String) : Option StepModel :=
  db.steps.rows.find? fun row => row.workflowRunId = workflowRunId ∧ row.stepName = stepName

/-- List attempts for a step ordered by attempt number descending. -/
def listAttempts (stepId : UUID) : List StepAttemptModel :=
  (db.stepAttempts.rows.filter fun row => row.stepId = stepId).insertionSort
    fun first second => second.stepAttemptNumber ≤ first.stepAttemptNumber

/-- The texts of the document IDs associated with a workflow run. -/
def getDocumentIds (workflowRunId : UUID) : List String :=
  (db.workflowRunDocuments.rows.filter fun row => row.workflowRunId = workflowRunId).map
    fun row => row.documentId.str

def hasRun (workflowRunId : UUID) : Bool :=
  db.workflowRuns.rows.any fun row => row.workflowRunId = workflowRunId

def hasStep (stepId : UUID) : Bool := db.steps.rows.any fun row => row.stepId = stepId

def hasStepAttempt (stepAttemptId : UUID) : Bool :=
  db.stepAttempts.rows.any fun row => row.stepAttemptId = stepAttemptId

/-! ### Inserting -/

/-- A `TEXT` column refuses U+0000. -/
def insertWorkflowRun (row : WorkflowRunModel) : Except Failure Database := do
  let workflowRuns ← insertInto db.workflowRuns row
    [("workflow_runs.workflow_name", storableText row.workflowName),
     ("workflow_runs.workflow_version", storableText row.workflowVersion),
     ("workflow_runs.created_by", storableText row.createdBy)] []
  return { db with workflowRuns := workflowRuns }

def insertWorkflowRunDocument (row : WorkflowRunDocumentModel) : Except Failure Database := do
  let workflowRunDocuments ← insertInto db.workflowRunDocuments row []
    [("workflow_run_documents.workflow_run_id", db.hasRun row.workflowRunId),
     ("workflow_run_documents.document_id", db.documents.contains row.documentId)]
  return { db with workflowRunDocuments := workflowRunDocuments }

/-- The step index is an `INTEGER`, so a larger one is refused as well. -/
def insertStep (row : StepModel) : Except Failure Database := do
  let steps ← insertInto db.steps row
    [("integer", row.stepIndex ≤ 2147483647),
     ("steps.step_name", storableText row.stepName),
     ("steps.retry_policy", storableText row.retryPolicy.jitter),
     ("ck_steps_step_index_nonneg", 0 ≤ row.stepIndex),
     ("ck_steps_max_attempts_range", 1 ≤ row.maxAttempts ∧ row.maxAttempts ≤ 10)]
    [("steps.workflow_run_id", db.hasRun row.workflowRunId)]
  return { db with steps := steps }

/-- The attempt number is a `SMALLINT`, so a larger one is refused as well. -/
def insertStepAttempt (row : StepAttemptModel) : Except Failure Database := do
  let stepAttempts ← insertInto db.stepAttempts row
    [("ck_step_attempts_number_positive", 1 ≤ row.stepAttemptNumber),
     ("smallint", row.stepAttemptNumber ≤ 32767)]
    [("step_attempts.step_id", db.hasStep row.stepId)]
  return { db with stepAttempts := stepAttempts }

/-- The next value of the outbox sequence becomes the row's `outbox_id`. A transaction runs from its
first statement to its commit with no other in between here, so rows have the numbers in the order
of the commits. -/
def insertTasksOutbox (row : TasksOutboxModel) : Except Failure Database := do
  let tasksOutbox ← insertInto db.tasksOutbox { row with outboxId := db.outboxSequence + 1 }
    [("tasks_outbox.payload", (Json.object row.payload).storable),
     ("ck_tasks_outbox_attempts_range", row.attempts ≤ 10)]
    [("tasks_outbox.workflow_run_id", db.hasRun row.workflowRunId),
     ("tasks_outbox.step_id", db.hasStep row.stepId),
     ("tasks_outbox.step_attempt_id", db.hasStepAttempt row.stepAttemptId)]
  return { db with tasksOutbox := tasksOutbox, outboxSequence := db.outboxSequence + 1 }

def insertEscalationCase (row : EscalationCaseModel) : Except Failure Database := do
  let escalationCases ← insertInto db.escalationCases row
    [("escalation_cases.reason_code", storableText row.reasonCode),
     ("escalation_cases.reason_detail", row.reasonDetail.all storableText)]
    [("escalation_cases.workflow_run_id", db.hasRun row.workflowRunId),
     ("escalation_cases.step_id", db.hasStep row.stepId)]
  return { db with escalationCases := escalationCases }

/-- `append_audit_event` within the current transaction. -/
def appendAuditEvent (call : AppendCall) (draw : EventDraw) : Except Failure Database := do
  let latest := getLatestForRun db.auditEvents.rows call.workflowRunId
  let event := nextAuditEvent latest call draw
  let auditEvents ← insertInto db.auditEvents event
    [("audit_events.actor", storableText event.actor),
     ("audit_events.payload", (Json.object event.payload).storable),
     ("ck_audit_events_prev_hash_len", event.prevEventHash.all fun hash => hash.length = 32),
     ("ck_audit_events_hash_len", event.eventHash.length = 32)]
    [("audit_events.workflow_run_id", db.hasRun event.workflowRunId),
     ("audit_events.step_id", event.stepId.all db.hasStep),
     ("audit_events.step_attempt_id", event.stepAttemptId.all db.hasStepAttempt)]
  return { db with auditEvents := auditEvents }

/-! ### Updating -/

/-- Flush changed attributes of a run. -/
def updateWorkflowRun (workflowRunId : UUID) (change : WorkflowRunModel → WorkflowRunModel)
    (keeps : ∀ row, (change row).workflowRunId = row.workflowRunId := by intro row; rfl) :
    Database :=
  { db with
    workflowRuns := db.workflowRuns.update (fun row => row.workflowRunId = workflowRunId) change
      (List.forall_mem_singleton.mpr keeps) }

/-- Flush changed attributes of a step. -/
def updateStep (stepId : UUID) (change : StepModel → StepModel)
    (keeps : ∀ row, (change row).stepId = row.stepId ∧
      (change row).workflowRunId = row.workflowRunId ∧ (change row).stepIndex = row.stepIndex ∧
      (change row).stepName = row.stepName := by intro row; exact ⟨rfl, rfl, rfl, rfl⟩) :
    Database :=
  { db with
    steps := db.steps.update (fun row => row.stepId = stepId) change (by
      simp only [stepKeys, List.forall_mem_cons, List.not_mem_nil, false_implies, implies_true,
        and_true, Prod.mk.injEq]
      exact ⟨fun row => (keeps row).1, fun row => ⟨(keeps row).2.1, (keeps row).2.2.1⟩,
        fun row => ⟨(keeps row).2.1, (keeps row).2.2.2⟩⟩) }

/-- Flush changed attributes of an attempt. -/
def updateStepAttempt (stepAttemptId : UUID) (change : StepAttemptModel → StepAttemptModel)
    (keeps : ∀ row, (change row).stepAttemptId = row.stepAttemptId ∧
      (change row).stepId = row.stepId ∧
      (change row).stepAttemptNumber = row.stepAttemptNumber := by
        intro row; exact ⟨rfl, rfl, rfl⟩) : Database :=
  { db with
    stepAttempts := db.stepAttempts.update (fun row => row.stepAttemptId = stepAttemptId) change (by
      simp only [stepAttemptKeys, List.forall_mem_cons, List.not_mem_nil, false_implies,
        implies_true, and_true, Prod.mk.injEq]
      exact ⟨fun row => (keeps row).1, fun row => ⟨(keeps row).2.1, (keeps row).2.2⟩⟩) }

/-- Update the outbox rows with one id. -/
def updateTasksOutbox (outboxId : Nat) (change : TasksOutboxModel → TasksOutboxModel)
    (keeps : ∀ row, (change row).outboxId = row.outboxId := by intro row; rfl) : Database :=
  { db with
    tasksOutbox := db.tasksOutbox.update (fun row => row.outboxId = outboxId) change
      (List.forall_mem_singleton.mpr keeps) }

/-- Flush changed attributes of an escalation case. -/
def updateEscalationCase (escalationId : UUID)
    (change : EscalationCaseModel → EscalationCaseModel)
    (keeps : ∀ row, (change row).escalationId = row.escalationId ∧
      (change row).workflowRunId = row.workflowRunId ∧ (change row).stepId = row.stepId := by
        intro row; exact ⟨rfl, rfl, rfl⟩) : Database :=
  { db with
    escalationCases := db.escalationCases.update (fun row => row.escalationId = escalationId)
      change (by
        simp only [escalationCaseKeys, List.forall_mem_cons, List.not_mem_nil, false_implies,
          implies_true, and_true, Prod.mk.injEq]
        exact ⟨fun row => (keeps row).1, fun row => ⟨(keeps row).2.1, (keeps row).2.2⟩⟩) }

/-! ### What a statement does to the rows -/

end Database

/-- The rows of every table. -/
structure Contents where
  documents : List UUID
  workflowRuns : List WorkflowRunModel
  workflowRunDocuments : List WorkflowRunDocumentModel
  steps : List StepModel
  stepAttempts : List StepAttemptModel
  tasksOutbox : List TasksOutboxModel
  outboxSequence : Nat
  escalationCases : List EscalationCaseModel
  auditEvents : List AuditEventModel

namespace Database

/-- The rows a database holds. -/
def contents (db : Database) : Contents where
  documents := db.documents
  workflowRuns := db.workflowRuns.rows
  workflowRunDocuments := db.workflowRunDocuments.rows
  steps := db.steps.rows
  stepAttempts := db.stepAttempts.rows
  tasksOutbox := db.tasksOutbox.rows
  outboxSequence := db.outboxSequence
  escalationCases := db.escalationCases.rows
  auditEvents := db.auditEvents.rows

/-- A step row the database accepts. -/
structure StepAdmitted (db : Database) (row : StepModel) : Prop where
  run : db.hasRun row.workflowRunId = true
  texts : storableText row.stepName = true ∧ storableText row.retryPolicy.jitter = true
  index : 0 ≤ row.stepIndex ∧ row.stepIndex ≤ 2147483647
  attempts : 1 ≤ row.maxAttempts ∧ row.maxAttempts ≤ 10
  identified : ∀ other ∈ db.contents.steps, other.stepId ≠ row.stepId
  indexed : ∀ other ∈ db.contents.steps, other.workflowRunId = row.workflowRunId →
    other.stepIndex ≠ row.stepIndex
  named : ∀ other ∈ db.contents.steps, other.workflowRunId = row.workflowRunId →
    other.stepName ≠ row.stepName

/-- An attempt row the database accepts. -/
structure AttemptAdmitted (db : Database) (row : StepAttemptModel) : Prop where
  step : db.hasStep row.stepId = true
  number : 1 ≤ row.stepAttemptNumber ∧ row.stepAttemptNumber ≤ 32767
  identified : ∀ other ∈ db.contents.stepAttempts, other.stepAttemptId ≠ row.stepAttemptId
  numbered : ∀ other ∈ db.contents.stepAttempts, other.stepId = row.stepId →
    other.stepAttemptNumber ≠ row.stepAttemptNumber

/-- A case row the database accepts. -/
structure CaseAdmitted (db : Database) (row : EscalationCaseModel) : Prop where
  run : db.hasRun row.workflowRunId = true
  step : db.hasStep row.stepId = true
  identified : ∀ other ∈ db.contents.escalationCases, other.escalationId ≠ row.escalationId
  single : ∀ other ∈ db.contents.escalationCases, other.workflowRunId = row.workflowRunId →
    other.stepId ≠ row.stepId

section Statements

variable {db next : Database}

theorem insertWorkflowRun_ok {row : WorkflowRunModel}
    (inserted : db.insertWorkflowRun row = .ok next) :
    (∀ other ∈ db.contents.workflowRuns, other.workflowRunId ≠ row.workflowRunId) ∧
      next.contents = { db.contents with workflowRuns := db.contents.workflowRuns ++ [row] } := by
  obtain ⟨table, stored, same⟩ := Fallible.bind_eq_ok.mp inserted
  cases same
  have said := insertInto_ok stored
  refine ⟨fun other member => said.unique _ (List.mem_singleton_self _) other member, ?_⟩
  exact congrArg (fun rows => { db.contents with workflowRuns := rows }) said.rows

theorem insertWorkflowRunDocument_ok {row : WorkflowRunDocumentModel}
    (inserted : db.insertWorkflowRunDocument row = .ok next) :
    row.documentId ∈ db.contents.documents ∧
      next.contents = { db.contents with
        workflowRunDocuments := db.contents.workflowRunDocuments ++ [row] } := by
  obtain ⟨table, stored, same⟩ := Fallible.bind_eq_ok.mp inserted
  cases same
  have said := insertInto_ok stored
  have refers := said.refers
  simp only [List.forall_mem_cons] at refers
  exact ⟨List.contains_iff_mem.mp refers.2.1,
    congrArg (fun rows => { db.contents with workflowRunDocuments := rows }) said.rows⟩

theorem insertStep_ok {row : StepModel} (inserted : db.insertStep row = .ok next) :
    StepAdmitted db row ∧
      next.contents = { db.contents with steps := db.contents.steps ++ [row] } := by
  obtain ⟨table, stored, same⟩ := Fallible.bind_eq_ok.mp inserted
  cases same
  have said := insertInto_ok stored
  have unique := said.unique
  have checked := said.checked
  simp only [stepKeys, List.forall_mem_cons, ne_eq, Prod.mk.injEq, not_and] at unique
  simp only [List.forall_mem_cons, decide_eq_true_eq] at checked
  obtain ⟨integer, name, jitter, index, attempts, -⟩ := checked
  refine ⟨⟨said.refers _ (List.mem_singleton_self _), ⟨name, jitter⟩, ⟨index, integer⟩, attempts,
    unique.1, unique.2.1, unique.2.2.1⟩, ?_⟩
  exact congrArg (fun rows => { db.contents with steps := rows }) said.rows

theorem insertStepAttempt_ok {row : StepAttemptModel}
    (inserted : db.insertStepAttempt row = .ok next) :
    AttemptAdmitted db row ∧
      next.contents = { db.contents with stepAttempts := db.contents.stepAttempts ++ [row] } := by
  obtain ⟨table, stored, same⟩ := Fallible.bind_eq_ok.mp inserted
  cases same
  have said := insertInto_ok stored
  have unique := said.unique
  have checked := said.checked
  simp only [stepAttemptKeys, List.forall_mem_cons, ne_eq, Prod.mk.injEq, not_and] at unique
  simp only [List.forall_mem_cons, decide_eq_true_eq] at checked
  refine ⟨⟨said.refers _ (List.mem_singleton_self _), ⟨checked.1, checked.2.1⟩, unique.1,
    unique.2.1⟩, ?_⟩
  exact congrArg (fun rows => { db.contents with stepAttempts := rows }) said.rows

theorem insertTasksOutbox_ok {row : TasksOutboxModel}
    (inserted : db.insertTasksOutbox row = .ok next) :
    next.contents = { db.contents with
      tasksOutbox := db.contents.tasksOutbox ++
        [{ row with outboxId := db.contents.outboxSequence + 1 }]
      outboxSequence := db.contents.outboxSequence + 1 } := by
  obtain ⟨table, stored, same⟩ := Fallible.bind_eq_ok.mp inserted
  cases same
  exact congrArg (fun rows => { db.contents with
    tasksOutbox := rows, outboxSequence := db.contents.outboxSequence + 1 })
    (insertInto_ok stored).rows

theorem insertEscalationCase_ok {row : EscalationCaseModel}
    (inserted : db.insertEscalationCase row = .ok next) :
    CaseAdmitted db row ∧
      next.contents = { db.contents with
        escalationCases := db.contents.escalationCases ++ [row] } := by
  obtain ⟨table, stored, same⟩ := Fallible.bind_eq_ok.mp inserted
  cases same
  have said := insertInto_ok stored
  have unique := said.unique
  have refers := said.refers
  simp only [escalationCaseKeys, List.forall_mem_cons, ne_eq, Prod.mk.injEq, not_and] at unique
  simp only [List.forall_mem_cons] at refers
  refine ⟨⟨refers.1, refers.2.1, unique.1, unique.2.1⟩, ?_⟩
  exact congrArg (fun rows => { db.contents with escalationCases := rows }) said.rows

theorem appendAuditEvent_ok {call : AppendCall} {draw : EventDraw}
    (appended : db.appendAuditEvent call draw = .ok next) :
    next.contents = { db.contents with
      auditEvents := InsuranceOps.appendAuditEvent db.contents.auditEvents call draw } := by
  obtain ⟨table, stored, same⟩ := Fallible.bind_eq_ok.mp appended
  cases same
  exact congrArg (fun rows => { db.contents with auditEvents := rows }) (insertInto_ok stored).rows

/-- A row that is inserted is storable. -/
theorem insertWorkflowRun_storable {row : WorkflowRunModel}
    (inserted : db.insertWorkflowRun row = .ok next) :
    storableText row.workflowName = true ∧ storableText row.workflowVersion = true ∧
      storableText row.createdBy = true := by
  obtain ⟨table, stored, -⟩ := Fallible.bind_eq_ok.mp inserted
  have checked := (insertInto_ok stored).checked
  simp only [List.forall_mem_cons] at checked
  exact ⟨checked.1, checked.2.1, checked.2.2.1⟩

theorem insertTasksOutbox_storable {row : TasksOutboxModel}
    (inserted : db.insertTasksOutbox row = .ok next) :
    (Json.object row.payload).storable = true := by
  obtain ⟨table, stored, -⟩ := Fallible.bind_eq_ok.mp inserted
  exact (insertInto_ok stored).checked _ List.mem_cons_self

theorem appendAuditEvent_storable {call : AppendCall} {draw : EventDraw}
    (appended : db.appendAuditEvent call draw = .ok next) :
    (Json.object call.payload).storable = true := by
  obtain ⟨table, stored, -⟩ := Fallible.bind_eq_ok.mp appended
  exact (insertInto_ok stored).checked _ (List.mem_cons_of_mem _ List.mem_cons_self)

/-- An event is only appended for a run that is stored. -/
theorem appendAuditEvent_stored {call : AppendCall} {draw : EventDraw}
    (appended : db.appendAuditEvent call draw = .ok next) :
    ∃ run, db.getWorkflowRun call.workflowRunId = some run := by
  obtain ⟨table, stored, -⟩ := Fallible.bind_eq_ok.mp appended
  have refers := (insertInto_ok stored).refers
  simp only [List.forall_mem_cons] at refers
  exact Option.isSome_iff_exists.mp (List.find?_isSome.mpr (List.any_eq_true.mp refers.1))

variable (db)

@[simp] theorem contents_updateWorkflowRun (workflowRunId : UUID)
    (change : WorkflowRunModel → WorkflowRunModel)
    (keeps : ∀ row, (change row).workflowRunId = row.workflowRunId) :
    (db.updateWorkflowRun workflowRunId change keeps).contents = { db.contents with
      workflowRuns := updateRows (fun row => row.workflowRunId = workflowRunId) change
        db.contents.workflowRuns } := rfl

@[simp] theorem contents_updateStep (stepId : UUID) (change : StepModel → StepModel)
    (keeps : ∀ row, (change row).stepId = row.stepId ∧
      (change row).workflowRunId = row.workflowRunId ∧ (change row).stepIndex = row.stepIndex ∧
      (change row).stepName = row.stepName) :
    (db.updateStep stepId change keeps).contents = { db.contents with
      steps := updateRows (fun row => row.stepId = stepId) change db.contents.steps } := rfl

@[simp] theorem contents_updateStepAttempt (stepAttemptId : UUID)
    (change : StepAttemptModel → StepAttemptModel)
    (keeps : ∀ row, (change row).stepAttemptId = row.stepAttemptId ∧
      (change row).stepId = row.stepId ∧
      (change row).stepAttemptNumber = row.stepAttemptNumber) :
    (db.updateStepAttempt stepAttemptId change keeps).contents = { db.contents with
      stepAttempts := updateRows (fun row => row.stepAttemptId = stepAttemptId) change
        db.contents.stepAttempts } := rfl

@[simp] theorem contents_updateTasksOutbox (outboxId : Nat)
    (change : TasksOutboxModel → TasksOutboxModel)
    (keeps : ∀ row, (change row).outboxId = row.outboxId) :
    (db.updateTasksOutbox outboxId change keeps).contents = { db.contents with
      tasksOutbox := updateRows (fun row => row.outboxId = outboxId) change
        db.contents.tasksOutbox } := rfl

@[simp] theorem contents_updateEscalationCase (escalationId : UUID)
    (change : EscalationCaseModel → EscalationCaseModel)
    (keeps : ∀ row, (change row).escalationId = row.escalationId ∧
      (change row).workflowRunId = row.workflowRunId ∧ (change row).stepId = row.stepId) :
    (db.updateEscalationCase escalationId change keeps).contents = { db.contents with
      escalationCases := updateRows (fun row => row.escalationId = escalationId) change
        db.contents.escalationCases } := rfl

end Statements

end Database

end InsuranceOps
