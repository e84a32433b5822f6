/-
This file compares what the two ways of starting a run leave behind. It is the
same once the identifiers one of them drew are renamed to those of the other and
times and payload texts are set aside. What the worker and the reaper read off
the two tasks differs in one field: the route's task names no correlation id.
-/

import InsuranceOps.Relay
import InsuranceOps.Worker
import InsuranceOps.Commands
import InsuranceOps.StartPlans
import InsuranceOps.Library.Renaming

namespace InsuranceOps

open Relational WorkflowOrchestrator Fallible

/-! ### States up to identifiers, times and texts -/

variable (rename : UUID → UUID)

/-- The row with other identifiers, its times set aside but for the distance of its deadline. -/
def WorkflowRunModel.upTo (row : WorkflowRunModel) : WorkflowRunModel :=
  { row with
    workflowRunId := rename row.workflowRunId
    currentStepId := row.currentStepId.map rename
    createdAt := 0
    updatedAt := 0
    deadlineAt := row.deadlineAt - row.createdAt }

def WorkflowRunDocumentModel.upTo (row : WorkflowRunDocumentModel) : WorkflowRunDocumentModel :=
  { row with workflowRunId := rename row.workflowRunId, attachedAt := 0 }

def StepModel.upTo (row : StepModel) : StepModel :=
  { row with
    stepId := rename row.stepId
    workflowRunId := rename row.workflowRunId
    createdAt := 0
    endedAt := row.endedAt.map fun _ => 0 }

/-- The row with other identifiers. Only the route stamps `scheduled_for` of a first attempt, a
time nothing reads, so it is set aside whether it is there or not. -/
def StepAttemptModel.upTo (row : StepAttemptModel) : StepAttemptModel :=
  { row with
    stepAttemptId := rename row.stepAttemptId
    stepId := rename row.stepId
    startedAt := row.startedAt.map fun _ => 0
    endedAt := row.endedAt.map fun _ => 0
    scheduledFor := none
    createdAt := 0 }

/-- The row with other identifiers and without its payload, which its readers are asked about. -/
def TasksOutboxModel.upTo (row : TasksOutboxModel) : TasksOutboxModel :=
  { row with
    workflowRunId := rename row.workflowRunId
    stepId := rename row.stepId
    stepAttemptId := rename row.stepAttemptId
    payload := []
    scheduledFor := row.scheduledFor - row.createdAt
    enqueuedAt := row.enqueuedAt.map fun _ => 0
    createdAt := 0 }

def EscalationCaseModel.upTo (row : EscalationCaseModel) : EscalationCaseModel :=
  { row with
    escalationId := rename row.escalationId
    workflowRunId := rename row.workflowRunId
    stepId := rename row.stepId }

/-- The row with other identifiers and without its payload and the hashes made of it. -/
def AuditEventModel.upTo (row : AuditEventModel) : AuditEventModel :=
  { row with
    auditEventId := rename row.auditEventId
    workflowRunId := rename row.workflowRunId
    stepId := row.stepId.map rename
    stepAttemptId := row.stepAttemptId.map rename
    payload := []
    occurredAt := 0
    prevEventHash := row.prevEventHash.map fun _ => []
    eventHash := [] }

/-- The rows with other identifiers, their times and payload texts set aside. -/
def Contents.upTo (contents : Contents) : Contents where
  documents := contents.documents
  workflowRuns := contents.workflowRuns.map (WorkflowRunModel.upTo rename)
  workflowRunDocuments :=
    contents.workflowRunDocuments.map (WorkflowRunDocumentModel.upTo rename)
  steps := contents.steps.map (StepModel.upTo rename)
  stepAttempts := contents.stepAttempts.map (StepAttemptModel.upTo rename)
  tasksOutbox := contents.tasksOutbox.map (TasksOutboxModel.upTo rename)
  outboxSequence := contents.outboxSequence
  escalationCases := contents.escalationCases.map (EscalationCaseModel.upTo rename)
  auditEvents := contents.auditEvents.map (AuditEventModel.upTo rename)

section Fixed

variable {rename}

theorem map_of_fixes {found : Option UUID} (fixes : ∀ id ∈ found.toList, rename id = id) :
    found.map rename = found.map id := by
  cases found with
  | none => rfl
  | some id => exact congrArg some (fixes id (List.mem_singleton_self id))

/-- A renaming that leaves the identifiers of some rows alone leaves the rows alone. -/
theorem Contents.upTo_of_fixes {contents : Contents}
    (fixes : ∀ id ∈ contents.ids, rename id = id) : contents.upTo rename = contents.upTo id := by
  simp only [Contents.ids, List.forall_mem_append, List.forall_mem_flatMap, List.forall_mem_map]
    at fixes
  obtain ⟨⟨⟨⟨⟨⟨runs, documents⟩, steps⟩, attempts⟩, tasks⟩, cases⟩, events⟩ := fixes
  unfold Contents.upTo
  congr 1
  · refine List.map_congr_left fun row member => ?_
    simp only [WorkflowRunModel.ids, List.forall_mem_cons] at runs
    simp only [WorkflowRunModel.upTo, (runs row member).1, map_of_fixes (runs row member).2, id]
  · refine List.map_congr_left fun row member => ?_
    simp only [WorkflowRunDocumentModel.upTo, documents row member, id]
  · refine List.map_congr_left fun row member => ?_
    simp only [StepModel.ids, List.forall_mem_cons] at steps
    simp only [StepModel.upTo, (steps row member).1, (steps row member).2.1, id]
  · refine List.map_congr_left fun row member => ?_
    simp only [StepAttemptModel.ids, List.forall_mem_cons] at attempts
    simp only [StepAttemptModel.upTo, (attempts row member).1, (attempts row member).2.1, id]
  · refine List.map_congr_left fun row member => ?_
    simp only [TasksOutboxModel.ids, List.forall_mem_cons] at tasks
    simp only [TasksOutboxModel.upTo, (tasks row member).1, (tasks row member).2.1,
      (tasks row member).2.2.1, id]
  · refine List.map_congr_left fun row member => ?_
    simp only [EscalationCaseModel.ids, List.forall_mem_cons] at cases
    simp only [EscalationCaseModel.upTo, (cases row member).1, (cases row member).2.1,
      (cases row member).2.2.1, id]
  · refine List.map_congr_left fun row member => ?_
    simp only [AuditEventModel.ids, List.forall_mem_cons, List.forall_mem_append] at events
    simp only [AuditEventModel.upTo, (events row member).1, (events row member).2.1,
      map_of_fixes (events row member).2.2.1, map_of_fixes (events row member).2.2.2, id]

end Fixed
/-! ### What both leave behind -/

/-- The rows of two starts are the same up to identifiers, times and texts. -/
structure WorkflowOrchestrator.NewRun.SameUpTo (rename : UUID → UUID) (new other : NewRun) :
    Prop where
  run : new.run.upTo rename = other.run.upTo id
  documents : new.documents.map (WorkflowRunDocumentModel.upTo rename) =
    other.documents.map (WorkflowRunDocumentModel.upTo id)
  steps : new.steps.map (StepModel.upTo rename) = other.steps.map (StepModel.upTo id)
  attempt : new.attempt.upTo rename = other.attempt.upTo id
  task : new.task.upTo rename = other.task.upTo id
  event : (nextAuditEvent none new.call new.draw).upTo rename =
    (nextAuditEvent none other.call other.draw).upTo id

section Comparison

variable {rename} {db first second : Database} {new other : NewRun}

/-- Starts of the same rows leave the same state. -/
theorem started_upTo (started : Started db first new) (otherStarted : Started db second other)
    (fixes : ∀ id ∈ db.contents.ids, rename id = id) (same : new.SameUpTo rename other)
    (unheard : getLatestForRun db.contents.auditEvents new.call.workflowRunId = none)
    (otherUnheard : getLatestForRun db.contents.auditEvents other.call.workflowRunId = none) :
    first.contents.upTo rename = second.contents.upTo id := by
  have old := Contents.upTo_of_fixes fixes
  simp only [Contents.upTo, Contents.mk.injEq] at old
  obtain ⟨-, runs, documents, steps, attempts, tasks, -, cases, events⟩ := old
  rw [started.contents, otherStarted.contents]
  simp only [Contents.upTo, List.map_append, List.map_singleton, InsuranceOps.appendAuditEvent,
    unheard, otherUnheard, runs, documents, steps, attempts, tasks, cases, events, same.run,
    same.documents, same.steps, same.attempt, same.task, same.event]

variable {definition : WorkflowDefinition} {routeDraws callDraws : Draws}
  {body : WorkflowRunCreate} {principal : ApiKeyPrincipal} {correlationId : String}

/-- The step rows of two starts of one definition are the same. -/
theorem stepRows_upTo {runId otherRunId : UUID} {now otherNow : Timestamp}
    {stepId otherStepId : Nat → UUID} (run : rename runId = otherRunId)
    (moved : ∀ index < definition.steps.length, rename (stepId index) = otherStepId index) :
    (stepRows definition runId now stepId).map (StepModel.upTo rename) =
      (stepRows definition otherRunId otherNow otherStepId).map (StepModel.upTo id) := by
  refine List.ext_getElem ?_ fun index bound _ => ?_
  · rw [List.length_map, List.length_map, stepRows_length, stepRows_length]
  · rw [List.length_map, stepRows_length] at bound
    simp only [stepRows, List.getElem_map, List.getElem_mapIdx, StepModel.upTo, run,
      moved index bound, id]

/-- The two plans name the same first step, and write the same rows. -/
theorem plans_sameUpTo
    (moved : ∀ index < definition.steps.length + 2,
      rename (routeDraws.uuid4 index) = callDraws.uuid4 index)
    (movedEvent : rename (routeDraws.uuid7 0) = callDraws.uuid7 0) (number : Nat)
    {first other : StepModel} {firstDefinition otherDefinition : StepDefinition}
    (found : firstStep ((routePlan routeDraws definition body principal).steps routeDraws)
      definition = some (first, firstDefinition))
    (otherFound : firstStep ((callPlan callDraws definition body.workflowName body.documentIds
      principal.actorString correlationId).steps callDraws) definition =
        some (other, otherDefinition)) :
    rename first.stepId = other.stepId ∧ first.stepName = other.stepName ∧
      firstDefinition = otherDefinition ∧
      ((routePlan routeDraws definition body principal).newRun routeDraws number id first
        firstDefinition).SameUpTo rename ((callPlan callDraws definition body.workflowName
          body.documentIds principal.actorString correlationId).newRun callDraws number
            (WorkflowRunModel.start (callDraws.now 2)) other otherDefinition) := by
  have run := moved 0 (by omega)
  have steps : ((routePlan routeDraws definition body principal).steps routeDraws).map
      (StepModel.upTo rename) = ((callPlan callDraws definition body.workflowName body.documentIds
        principal.actorString correlationId).steps callDraws).map (StepModel.upTo id) :=
    stepRows_upTo run fun index (bound : index < definition.steps.length) =>
      moved (index + 1) (by omega)
  obtain ⟨head, definitionHead⟩ := firstStep_eq_some found
  obtain ⟨otherHead, otherDefinitionHead⟩ := firstStep_eq_some otherFound
  have heads := congrArg List.head? steps
  rw [List.head?_map, List.head?_map, head, otherHead, Option.map_some, Option.map_some,
    Option.some.injEq] at heads
  have stepId := congrArg StepModel.stepId heads
  have stepName := congrArg StepModel.stepName heads
  simp only [StepModel.upTo, id] at stepId stepName
  have sameDefinition : firstDefinition = otherDefinition :=
    Option.some.inj (definitionHead.symm.trans otherDefinitionHead)
  have length := stepRows_length definition
  have attemptId : rename ((routePlan routeDraws definition body principal).attemptId routeDraws) =
      (callPlan callDraws definition body.workflowName body.documentIds principal.actorString
        correlationId).attemptId callDraws := by
    simp only [StartPlan.attemptId, StartPlan.steps, routePlan, callPlan, length]
    exact moved _ (by omega)
  refine ⟨stepId, stepName, sameDefinition, ⟨?_, ?_, steps, ?_, ?_, ?_⟩⟩
  · simp only [StartPlan.newRun, StartPlan.pending, routePlan, callPlan, pendingRun,
      WorkflowRunModel.upTo, WorkflowRunModel.startAt, WorkflowRunModel.start,
      WorkflowRunModel.pointTo, Option.map_some, add_sub_cancel_left, run, stepId, id]
  · simp only [StartPlan.newRun, StartPlan.documents, routePlan, callPlan, documentRows,
      List.map_map, Function.comp_def, WorkflowRunDocumentModel.upTo, run, id]
  · simp only [StartPlan.newRun, StartPlan.attempt, queuedAttempt, StepAttemptModel.upTo, attemptId,
      stepId, Option.map_none, id]
  · simp only [StartPlan.newRun, StartPlan.task, outboxRow, TasksOutboxModel.upTo, attemptId, run,
      stepId, sub_self, Option.map_none, id]
  · simp only [StartPlan.newRun, StartPlan.call, routePlan, callPlan, nextAuditEvent, Draws.event,
      AuditEventModel.upTo, run, movedEvent, Option.map_none, id]

end Comparison

/-! ### What the worker and the reaper read -/

section Readers

variable (loads : String → Option Json) (db : Database)

/-- The context a worker builds for a task. -/
def stepContext (rows : TaskRows) (payload : JsonObject) : Except Failure StepContext := do
  let documentIds ← documentIds payload
  return {
    workflowRunId := rows.run.workflowRunId
    stepId := rows.step.stepId
    stepAttemptId := rows.attempt.stepAttemptId
    stepName := rows.step.stepName
    workflowName := (payload.get? "workflow_name").getD (.string "unknown")
    documentIds := documentIds
    correlationId := (payload.get? "correlation_id").getD (.string "")
    previousOutputs := loadPreviousOutputs loads db rows.run.workflowRunId rows.step.stepName }

/-- Executing a handler builds the context and looks the handler up by the name in the task. -/
theorem executeStepHandler_eq (handle : String → StepContext → HandlerReturn) (rows : TaskRows)
    (payload : JsonObject) :
    executeStepHandler loads handle db rows payload = do
      let context ← stepContext loads db rows payload
      match ← getHandler (handlerName payload rows.step.stepName) with
      | none =>
        let name := (handlerName payload rows.step.stepName).str
        return .failTerminal (some "HANDLER_NOT_FOUND")
          (some s!"No handler registered for '{name}'")
      | some name => return (handle name context).outcome := by
  simp only [stepContext, bind_assoc, pure_bind]
  rfl

/-- The context and the handler name a worker reads off a task that names stored rows. -/
def workerReads (payload : JsonObject) : Except Failure (Option (StepContext × Json)) := do
  match ← loadRows db payload with
  | none => return none
  | some rows =>
    let context ← stepContext loads db rows payload
    return some (context, handlerName payload rows.step.stepName)

/-- The attempt number and the number of attempts the reaper reads off a task. -/
def reaperReads (payload : JsonObject) : Json × Json :=
  ((payload.get? "attempt_number").getD (.int 1), (payload.get? "max_attempts").getD (.int 3))

/-- The stamp of a copy is nothing the reaper counts attempts by. -/
theorem reaperReads_copy (task : TasksOutboxModel) (claimedAt : String) :
    reaperReads (task.copy claimedAt) = reaperReads task.payload := by
  unfold reaperReads
  rw [task.copy_get? claimedAt (by decide), task.copy_get? claimedAt (by decide)]

/-- The same context with other identifiers. -/
def StepContext.upTo (rename : UUID → UUID) (context : StepContext) : StepContext :=
  { context with
    workflowRunId := rename context.workflowRunId
    stepId := rename context.stepId
    stepAttemptId := rename context.stepAttemptId }

variable {loads db} {next : Database}

theorem mapM_documentId (ids : List UUID) :
    ((ids.map UUID.str).map Json.string).mapM documentId =
      (.ok (ids.map .inl) : Except Failure (List (UUID ⊕ Json))) := by
  induction ids with
  | nil => rfl
  | cons id rest inductionHypothesis =>
    have parsed : parseId id.str = .ok id := orRaise_ok.mpr (uuidOfText_str id)
    rw [List.map_cons, List.map_cons, List.mapM_cons, inductionHypothesis, documentId, parsed]
    rfl

/-- The document ids of a task that lists their texts. -/
theorem documentIds_ofTexts {payload : JsonObject} {ids : List UUID}
    (listed : payload.get? "document_ids" = some (.ofTexts (ids.map UUID.str))) :
    documentIds payload = .ok (ids.map .inl) := by
  rw [documentIds, listed]
  exact mapM_documentId ids

/-- A run none of whose steps has succeeded has no previous outputs. -/
theorem loadPreviousOutputs_eq_nil {workflowRunId : UUID}
    (unfinished : ∀ step ∈ db.contents.steps, step.workflowRunId = workflowRunId →
      step.state ≠ .succeeded) (stepName : String) :
    loadPreviousOutputs loads db workflowRunId stepName = [] := by
  unfold loadPreviousOutputs
  split
  · rfl
  · rw [List.filter_eq_nil_iff.mpr]
    · rfl
    · intro step listed
      obtain ⟨stored, owner⟩ := Database.mem_listSteps.mp listed
      simp [unfinished step stored owner]

/-- What a worker reads off the first task of a new run. -/
theorem workerReads_started (loads : String → Option Json) {new : NewRun}
    (started : Started db next new)
    (foreign : ∀ step ∈ db.contents.steps, step.workflowRunId ≠ new.run.workflowRunId)
    (ids : List UUID)
    (workflowName correlationId handler : Json)
    (listed : new.task.payload.get? "document_ids" = some (.ofTexts (ids.map UUID.str)))
    (named : (new.task.payload.get? "workflow_name").getD (.string "unknown") = workflowName)
    (correlated : (new.task.payload.get? "correlation_id").getD (.string "") = correlationId)
    (handled : (new.task.payload.get? "handler_name").getD (.string new.first.stepName) = handler)
    (claimedAt : String) :
    workerReads loads next (new.task.copy claimedAt) = .ok (some ({
      workflowRunId := new.run.workflowRunId
      stepId := new.first.stepId
      stepAttemptId := new.attempt.stepAttemptId
      stepName := new.first.stepName
      workflowName := workflowName
      documentIds := ids.map .inl
      correlationId := correlationId
      previousOutputs := [] }, handler)) := by
  obtain ⟨ofRun, ofStep, ofAttempt⟩ := started.task
  have read (key : String) (unstamped : key ≠ "claimed_at") :
      (new.task.copy claimedAt).get? key = new.task.payload.get? key :=
    new.task.copy_get? claimedAt unstamped
  have attempts : next.contents.stepAttempts = db.contents.stepAttempts ++ [new.attempt] := by
    rw [started.contents]
  have runs : next.contents.workflowRuns = db.contents.workflowRuns ++ [new.run] := by
    rw [started.contents]
  have steps : next.contents.steps = db.contents.steps ++ new.steps := by
    rw [started.contents]
  have firstMember := List.mem_of_mem_head? started.first
  have attempt : next.getStepAttempt new.attempt.stepAttemptId = some new.attempt :=
    find?_of_mem (fun row : StepAttemptModel => row.stepAttemptId) next.stepAttempts_distinct
      (attempts ▸ List.mem_append_right _ (List.mem_singleton_self _))
  have step : next.getStep new.first.stepId = some new.first :=
    find?_of_mem (fun row : StepModel => row.stepId) next.steps_distinct
      (steps ▸ List.mem_append_right _ firstMember)
  have run : next.getWorkflowRun new.run.workflowRunId = some new.run :=
    find?_of_mem (fun row : WorkflowRunModel => row.workflowRunId) next.workflowRuns_distinct
      (runs ▸ List.mem_append_right _ (List.mem_singleton_self _))
  have loaded : loadRows next (new.task.copy claimedAt) =
      .ok (some ⟨new.attempt, new.first, new.run⟩) := by
    refine loadRows_some_iff.mpr ⟨new.attempt.stepAttemptId, new.first.stepId,
      new.run.workflowRunId, ⟨readId_ofId ?_, readId_ofId ?_, readId_ofId ?_⟩, attempt, step, run⟩
    · rw [read _ (by decide), started.addressed.attempt, ofAttempt]
    · rw [read _ (by decide), started.addressed.step, ofStep]
    · rw [read _ (by decide), started.addressed.run, ofRun]
  have documents : documentIds (new.task.copy claimedAt) = .ok (ids.map .inl) :=
    documentIds_ofTexts ((read _ (by decide)).trans listed)
  have outputs : loadPreviousOutputs loads next new.run.workflowRunId new.first.stepName = [] := by
    refine loadPreviousOutputs_eq_nil ?_ _
    rw [steps]
    refine List.forall_mem_append.mpr ⟨fun other old owner => absurd owner (foreign other old),
      fun other member _ => ?_⟩
    obtain ⟨now, stepId, rows⟩ := started.rows
    rw [(stepRows_mem (rows ▸ member)).2]
    nofun
  unfold workerReads stepContext
  rw [loaded]
  dsimp only [bind, Except.bind]
  rw [documents]
  dsimp only [bind, Except.bind, pure, Except.pure, handlerName]
  rw [outputs, read _ (by decide), read _ (by decide), read _ (by decide), named, correlated,
    handled]

end Readers

/-! ### The two ways of starting a run -/

/-- The copies of two tasks tell a worker the same context and handler, and the reaper the same
numbers, whenever they were relayed. -/
structure ReadAlike (rename : UUID → UUID) (first second : Database)
    (task other : TasksOutboxModel) : Prop where
  worker : ∀ loads claimedAt otherClaimedAt, ∃ context otherContext handler,
    workerReads loads first (task.copy claimedAt) = .ok (some (context, handler)) ∧
    workerReads loads second (other.copy otherClaimedAt) = .ok (some (otherContext, handler)) ∧
    context.upTo rename = otherContext
  reaper : ∀ claimedAt otherClaimedAt,
    reaperReads (task.copy claimedAt) = reaperReads (other.copy otherClaimedAt)

/-- Two starts of a run leave the same state up to a renaming of the identifiers they drew, and
tasks that are read alike. -/
def LeaveTheSame (db first second : Database) : Prop :=
  ∃ rename : Equiv.Perm UUID, (∀ id ∈ db.contents.ids, rename id = id) ∧
    first.contents.upTo rename = second.contents.upTo id ∧
    ∃ new other, Started db first new ∧ Started db second other ∧
      new.call.eventType = "workflow_run.started" ∧
      ReadAlike rename first second new.task other.task

/-- Two calls agree: both raise, or both succeed and leave the same. -/
def StartsAgree (db : Database) : Except Failure (Database × UUID) →
    Except Failure (Database × UUID) → Prop
  | .ok (first, _), .ok (second, _) => LeaveTheSame db first second
  | .error _, .error _ => True
  | _, _ => False

/-- What the database asks of a start in either way: storable texts, steps that meet their
constraints, and a free number for the outbox row. -/
structure Accepts (db : Database) (definition : WorkflowDefinition) (workflowName actor : String) :
    Prop where
  texts : storableText workflowName = true ∧
    storableText definition.workflowVersion = true ∧ storableText actor = true
  storable : definition.Storable
  handler : ∀ step ∈ definition.steps.head?, storableText step.handlerName = true
  numbered : ∀ row ∈ db.contents.tasksOutbox, row.outboxId ≠ db.contents.outboxSequence + 1

/-- What it asks of the route's start: the deadline is a `datetime`, and the inputs are storable. -/
structure RouteTakes (db : Database) (draws : Draws) (definition : WorkflowDefinition)
    (body : WorkflowRunCreate) (principal : ApiKeyPrincipal) : Prop where
  accepts : Accepts db definition body.workflowName principal.actorString
  deadline : isDatetime (draws.now 0 + definition.deadlineSeconds) = true
  inputs : (Json.object body.inputs).storable = true

/-- What it asks of the orchestrator's start: the deadline is a `datetime`, and the correlation id
is storable. -/
structure CallTakes (db : Database) (draws : Draws) (definition : WorkflowDefinition)
    (body : WorkflowRunCreate) (principal : ApiKeyPrincipal) (correlationId : String) : Prop where
  accepts : Accepts db definition body.workflowName principal.actorString
  deadline : isDatetime (draws.now 0 + definition.deadlineSeconds) = true
  correlation : storableText correlationId = true

section Agreement

variable {registry : WorkflowRegistry} {db next : Database} {draws : Draws}
  {definition : WorkflowDefinition} {body : WorkflowRunCreate} {principal : ApiKeyPrincipal}
  {correlationId : String} {workflowRunId : UUID}

/-- The route's start writes the rows of its plan. -/
theorem createWorkflowRun_plan (admitted : principal.role ∈ ["operator", "supervisor"])
    (requested : requestedDefinition registry body = some definition)
    (ran : createWorkflowRun registry db draws body principal = .ok (next, workflowRunId)) :
    ∃ first firstDefinition,
      firstStep ((routePlan draws definition body principal).steps draws) definition =
        some (first, firstDefinition) ∧
      Started db next ((routePlan draws definition body principal).newRun draws
        (db.contents.outboxSequence + 1) id first firstDefinition) := by
  rw [createWorkflowRun_eq db draws admitted requested] at ran
  obtain ⟨audited, inserted, done⟩ := Fallible.bind_eq_ok.mp ran
  cases done
  exact StartPlan.inserts_started inserted id (by rw [updateRows_id]) (fun _ => rfl)
    (fun _ _ => rfl) (fun _ _ => rfl) fun _ _ => ⟨rfl, rfl, rfl⟩

/-- The orchestrator's start writes the rows of its plan. -/
theorem startWorkflowRun_plan
    (registered : registry.get body.workflowName definition.workflowVersion = some definition)
    (ran : startWorkflowRun registry db draws body.workflowName definition.workflowVersion
      body.documentIds principal.actorString correlationId none = .ok (next, workflowRunId)) :
    ∃ first firstDefinition,
      firstStep ((callPlan draws definition body.workflowName body.documentIds
        principal.actorString correlationId).steps draws) definition =
          some (first, firstDefinition) ∧
      Started db next ((callPlan draws definition body.workflowName body.documentIds
        principal.actorString correlationId).newRun draws (db.contents.outboxSequence + 1)
          (WorkflowRunModel.start (draws.now 2)) first firstDefinition) := by
  rw [startWorkflowRun_eq db draws registered] at ran
  obtain ⟨audited, inserted, done⟩ := Fallible.bind_eq_ok.mp ran
  cases done
  exact StartPlan.inserts_started inserted (WorkflowRunModel.start (draws.now 2))
    (Database.contents_updateWorkflowRun _ _ _ _) (fun _ => rfl) (fun _ _ => rfl)
    (fun _ _ => rfl) fun _ _ => ⟨rfl, rfl, rfl⟩

/-- An object is storable when its keys and its values are. -/
theorem storable_object (entries : JsonObject) : (Json.object entries).storable = true ↔
    (∀ entry ∈ entries, storableText entry.1 = true) ∧
      ∀ entry ∈ entries, entry.2.storable = true := by
  rw [Json.storable, Json.everywhere_object, Json.textsStorable, List.all_eq_true]
  exact Iff.rfl

theorem storable_string (text : String) : (Json.string text).storable = storableText text := rfl

theorem storableText_str (id : UUID) : storableText id.str = true := by
  rw [storableText_iff, UUID.str, String.toList_ofList]
  intro member
  rcases id.text_plain _ member with dash | digit
  · exact absurd dash (by decide)
  · exact digit (by decide)

theorem storable_ofId (id : UUID) : (Json.ofId id).storable = true := storableText_str id

theorem storable_int (value : Int) : (Json.int value).storable = true := rfl

theorem storable_ofTexts (ids : List UUID) :
    (Json.ofTexts (ids.map UUID.str)).storable = true := by
  refine (Json.everywhere_array _ _).mpr ⟨rfl, fun item member => ?_⟩
  obtain ⟨text, listed, rfl⟩ := List.mem_map.mp member
  obtain ⟨id, -, rfl⟩ := List.mem_map.mp listed
  exact storableText_str id

/-- The step name and the handler name of the first task. -/
theorem first_storable {plan : StartPlan} {first : StepModel} {firstDefinition : StepDefinition}
    (storable : plan.definition.Storable)
    (handler : ∀ step ∈ plan.definition.steps.head?, storableText step.handlerName = true)
    (found : firstStep (plan.steps draws) plan.definition = some (first, firstDefinition)) :
    storableText first.stepName = true ∧ storableText firstDefinition.handlerName = true := by
  obtain ⟨head, definitionHead⟩ := firstStep_eq_some found
  exact ⟨(stepRows_ranges storable (List.mem_of_mem_head? head)).2.2.1, handler _ definitionHead⟩

/-- The route's rows are taken exactly when they meet what the database asks of them. -/
theorem routePlan_taken_iff (stepped : definition.steps ≠ []) :
    (routePlan draws definition body principal).Taken db draws ↔
      RouteTakes db draws definition body principal := by
  have taskKeys : ∀ key ∈ ["workflow_run_id", "step_id", "step_attempt_id", "step_name",
      "handler_name", "workflow_name", "workflow_version", "attempt_number", "document_ids"],
      storableText key = true := by decide
  have auditKeys : ∀ key ∈ ["workflow_name", "workflow_version", "document_ids", "inputs"],
      storableText key = true := by decide
  constructor
  · intro taken
    obtain ⟨first, firstDefinition, found⟩ :=
      (routePlan draws definition body principal).exists_firstStep draws stepped
    have task := ((storable_object _).mp (taken.task first firstDefinition found)).2
    have audited := ((storable_object _).mp taken.audited).2
    simp only [routePlan, List.forall_mem_cons, storable_string] at task audited
    refine ⟨⟨taken.texts, taken.storable, fun step head => ?_, taken.numbered⟩, taken.deadline,
      audited.2.2.2.1⟩
    cases head.symm.trans (firstStep_eq_some found).2
    exact task.2.2.2.2.1
  · rintro ⟨⟨texts, storable, handler, numbered⟩, deadline, inputs⟩
    refine ⟨deadline, texts, storable, numbered, fun first firstDefinition found => ?_, ?_⟩
    · obtain ⟨stepName, handlerName⟩ := first_storable storable handler found
      refine (storable_object _).mpr ⟨fun entry member => taskKeys _ (List.mem_map_of_mem member),
        ?_⟩
      simp only [routePlan, List.forall_mem_cons, storable_string, storable_ofId, storable_int,
        storable_ofTexts]
      exact ⟨trivial, trivial, trivial, stepName, handlerName, texts.1, texts.2.1, trivial, trivial,
        List.forall_mem_nil _⟩
    · refine (storable_object _).mpr ⟨fun entry member => auditKeys _ (List.mem_map_of_mem member),
        ?_⟩
      simp only [routePlan, List.forall_mem_cons, storable_string, storable_ofTexts]
      exact ⟨texts.1, texts.2.1, trivial, inputs, List.forall_mem_nil _⟩

/-- The orchestrator's rows are taken exactly when they meet what the database asks of them. -/
theorem callPlan_taken_iff (stepped : definition.steps ≠ []) :
    (callPlan draws definition body.workflowName body.documentIds principal.actorString
      correlationId).Taken db draws ↔
        CallTakes db draws definition body principal correlationId := by
  have taskKeys : ∀ key ∈ ["workflow_run_id", "workflow_name", "workflow_version", "step_id",
      "step_attempt_id", "step_name", "handler_name", "correlation_id", "document_ids"],
      storableText key = true := by decide
  have auditKeys : ∀ key ∈ ["workflow_name", "workflow_version", "document_ids", "correlation_id",
      "deadline_seconds"], storableText key = true := by decide
  constructor
  · intro taken
    obtain ⟨first, firstDefinition, found⟩ :=
      (callPlan draws definition body.workflowName body.documentIds principal.actorString
        correlationId).exists_firstStep draws stepped
    have task := ((storable_object _).mp (taken.task first firstDefinition found)).2
    simp only [callPlan, List.forall_mem_cons, storable_string] at task
    refine ⟨⟨taken.texts, taken.storable, fun step head => ?_, taken.numbered⟩, taken.deadline,
      task.2.2.2.2.2.2.2.1⟩
    cases head.symm.trans (firstStep_eq_some found).2
    exact task.2.2.2.2.2.2.1
  · rintro ⟨⟨texts, storable, handler, numbered⟩, deadline, correlation⟩
    refine ⟨deadline, texts, storable, numbered, fun first firstDefinition found => ?_, ?_⟩
    · obtain ⟨stepName, handlerName⟩ := first_storable storable handler found
      refine (storable_object _).mpr ⟨fun entry member => taskKeys _ (List.mem_map_of_mem member),
        ?_⟩
      simp only [callPlan, List.forall_mem_cons, storable_string, storable_ofId, storable_ofTexts]
      exact ⟨trivial, texts.1, texts.2.1, trivial, trivial, stepName, handlerName, correlation,
        trivial, List.forall_mem_nil _⟩
    · refine (storable_object _).mpr ⟨fun entry member => auditKeys _ (List.mem_map_of_mem member),
        ?_⟩
      simp only [callPlan, List.forall_mem_cons, storable_string, storable_int, storable_ofTexts]
      exact ⟨texts.1, texts.2.1, trivial, correlation, trivial, List.forall_mem_nil _⟩

/-- A renaming carries the identifiers one start draws to those another one draws, and leaves
those of the rows in place. -/
theorem exists_renaming {contents : Contents} {routeDraws callDraws : Draws}
    (routeFresh : routeDraws.FreshFor definition contents)
    (callFresh : callDraws.FreshFor definition contents) :
    ∃ rename : Equiv.Perm UUID, (∀ id ∈ contents.ids, rename id = id) ∧
      (∀ index < definition.steps.length + 2,
        rename (routeDraws.uuid4 index) = callDraws.uuid4 index) ∧
      rename (routeDraws.uuid7 0) = callDraws.uuid7 0 := by
  have sameLength : (routeDraws.drawn definition).length = (callDraws.drawn definition).length := by
    simp only [Draws.drawn, List.length_append, List.length_map]
    rfl
  obtain ⟨rename, carried, fixes⟩ := Renaming.exists_perm (fun id => id ∈ contents.ids) sameLength
    routeFresh.distinct callFresh.distinct routeFresh.unused callFresh.unused
  rw [Draws.drawn, Draws.drawn, List.map_append] at carried
  obtain ⟨numbered, event⟩ := List.append_inj carried (by simp only [List.length_map])
  rw [List.map_map] at numbered
  refine ⟨rename, fixes, fun index bound => ?_, (List.cons.inj event).1⟩
  exact List.map_inj_left.mp numbered index (List.mem_range.mpr bound)

/-- The new task of a start is the last one in the outbox. -/
theorem started_task_eq {new other : NewRun} (started : Started db next new)
    (otherStarted : Started db next other) : new.task = other.task := by
  have tasks : db.contents.tasksOutbox ++ [new.task] = db.contents.tasksOutbox ++ [other.task] := by
    have same := started.contents.symm.trans otherStarted.contents
    exact congrArg Contents.tasksOutbox same
  exact List.singleton_inj.mp (List.append_cancel_left tasks)

variable {routeDraws callDraws : Draws}
  (admitted : principal.role ∈ ["operator", "supervisor"])
  (requested : requestedDefinition registry body = some definition)
  (stepped : definition.steps ≠ []) (distinct : body.documentIds.Nodup)
  (stored : ∀ id ∈ body.documentIds, id ∈ db.contents.documents)

include admitted requested stepped distinct stored

theorem createWorkflowRun_succeeds (fresh : draws.FreshFor definition db.contents)
    (taken : (routePlan draws definition body principal).Taken db draws) :
    ∃ next, createWorkflowRun registry db draws body principal = .ok (next, draws.uuid4 0) := by
  obtain ⟨next, inserted⟩ := exists_ok_of_avoids (StartPlan.inserts_succeed
    (routePlan draws definition body principal) fresh stepped distinct stored taken)
  exact ⟨next, by rw [createWorkflowRun_eq db draws admitted requested, inserted]; rfl⟩

omit admitted in
theorem startWorkflowRun_succeeds (principal : ApiKeyPrincipal) (correlationId : String)
    (fresh : draws.FreshFor definition db.contents)
    (taken : (callPlan draws definition body.workflowName body.documentIds principal.actorString
      correlationId).Taken db draws) :
    ∃ next, startWorkflowRun registry db draws body.workflowName definition.workflowVersion
      body.documentIds principal.actorString correlationId none = .ok (next, draws.uuid4 0) := by
  obtain ⟨next, inserted⟩ := exists_ok_of_avoids (StartPlan.inserts_succeed
    (callPlan draws definition body.workflowName body.documentIds principal.actorString
      correlationId) fresh stepped distinct stored taken)
  exact ⟨_, by
    rw [startWorkflowRun_eq db draws (requestedDefinition_registered requested), inserted]; rfl⟩

variable (registry db definition body principal correlationId)

/-- Where the database takes the rows of both starts, both succeed, and what they leave is the same
exactly when the request has no correlation id. -/
theorem startsAgree_of_taken (routeFresh : routeDraws.FreshFor definition db.contents)
    (callFresh : callDraws.FreshFor definition db.contents)
    (taken : (routePlan routeDraws definition body principal).Taken db routeDraws)
    (otherTaken : (callPlan callDraws definition body.workflowName body.documentIds
      principal.actorString correlationId).Taken db callDraws) :
    StartsAgree db (createWorkflowRun registry db routeDraws body principal)
      (startWorkflowRun registry db callDraws body.workflowName definition.workflowVersion
        body.documentIds principal.actorString correlationId none) ↔ correlationId = "" := by
  obtain ⟨first, firstRan⟩ := createWorkflowRun_succeeds admitted requested stepped distinct stored
    routeFresh taken
  obtain ⟨second, secondRan⟩ := startWorkflowRun_succeeds requested stepped distinct stored
    principal correlationId callFresh otherTaken
  obtain ⟨head, headDefinition, found, started⟩ :=
    createWorkflowRun_plan admitted requested firstRan
  obtain ⟨otherHead, otherDefinition, otherFound, otherStarted⟩ :=
    startWorkflowRun_plan (requestedDefinition_registered requested) secondRan
  have lacks := routeFresh.lacks 0 (by omega)
  have otherLacks := callFresh.lacks 0 (by omega)
  have reads (loads : String → Option Json) (claimedAt : String) :=
    workerReads_started loads started lacks.stepRuns body.documentIds (.string body.workflowName)
      (.string "") (.string headDefinition.handlerName) rfl rfl rfl rfl claimedAt
  have otherReads (loads : String → Option Json) (claimedAt : String) :=
    workerReads_started loads otherStarted otherLacks.stepRuns body.documentIds
      (.string body.workflowName) (.string correlationId) (.string otherDefinition.handlerName) rfl
      rfl rfl rfl claimedAt
  rw [firstRan, secondRan]
  constructor
  · rintro ⟨rename, -, -, new, other, newStarted, otherNewStarted, -, alike⟩
    obtain ⟨context, otherContext, handler, read, otherRead, same⟩ :=
      alike.worker (fun _ => none) "" ""
    rw [started_task_eq newStarted started, reads] at read
    rw [started_task_eq otherNewStarted otherStarted, otherReads] at otherRead
    have unnamed : Json.string "" = context.correlationId := congrArg
      (fun pair : StepContext × Json => pair.1.correlationId)
      (Option.some.inj (Except.ok.inj read))
    have named : Json.string correlationId = otherContext.correlationId := congrArg
      (fun pair : StepContext × Json => pair.1.correlationId)
      (Option.some.inj (Except.ok.inj otherRead))
    have correlation : (context.upTo rename).correlationId = otherContext.correlationId :=
      congrArg StepContext.correlationId same
    exact Json.string.inj (named.trans (correlation.symm.trans unnamed.symm))
  · rintro rfl
    obtain ⟨rename, fixes, moved, movedEvent⟩ := exists_renaming routeFresh callFresh
    obtain ⟨stepId, stepName, rfl, same⟩ := plans_sameUpTo moved movedEvent
      (db.contents.outboxSequence + 1) found otherFound
    have state : first.contents.upTo rename = second.contents.upTo id :=
      started_upTo started otherStarted fixes same (getLatestForRun_eq_none lacks.eventRuns)
        (getLatestForRun_eq_none otherLacks.eventRuns)
    refine ⟨rename, fixes, state, _, _, started, otherStarted, rfl, ?_, ?_⟩
    · intro loads claimedAt otherClaimedAt
      refine ⟨_, _, _, reads loads claimedAt, otherReads loads otherClaimedAt, ?_⟩
      rw [StepContext.upTo, StepContext.mk.injEq]
      exact ⟨congrArg WorkflowRunModel.workflowRunId same.run, stepId,
        congrArg StepAttemptModel.stepAttemptId same.attempt, stepName, rfl, rfl, rfl, rfl⟩
    · intro claimedAt otherClaimedAt
      rw [reaperReads_copy, reaperReads_copy]
      exact (show reaperReads _ = (.int 1, .int 3) from rfl).trans
        (show (Json.int 1, Json.int 3) = reaperReads _ from rfl)

omit stepped distinct stored in
/-- A start whose rows the database does not take raises. -/
theorem createWorkflowRun_refused
    (refused : ¬(routePlan draws definition body principal).Taken db draws) :
    ∃ failure, createWorkflowRun registry db draws body principal = .error failure := by
  cases ran : createWorkflowRun registry db draws body principal with
  | error failure => exact ⟨failure, rfl⟩
  | ok result =>
    rw [createWorkflowRun_eq db draws admitted requested] at ran
    obtain ⟨audited, inserted, -⟩ := Fallible.bind_eq_ok.mp ran
    exact absurd (StartPlan.taken_of_inserts inserted) refused

omit admitted stepped distinct stored in
theorem startWorkflowRun_refused
    (refused : ¬(callPlan draws definition body.workflowName body.documentIds
      principal.actorString correlationId).Taken db draws) :
    ∃ failure, startWorkflowRun registry db draws body.workflowName definition.workflowVersion
      body.documentIds principal.actorString correlationId none = .error failure := by
  cases ran : startWorkflowRun registry db draws body.workflowName definition.workflowVersion
    body.documentIds principal.actorString correlationId none with
  | error failure => exact ⟨failure, rfl⟩
  | ok result =>
    rw [startWorkflowRun_eq db draws (requestedDefinition_registered requested)] at ran
    obtain ⟨audited, inserted, -⟩ := Fallible.bind_eq_ok.mp ran
    exact absurd (StartPlan.taken_of_inserts inserted) refused

end Agreement

/-! ### A claim with one document -/

/-- A request for a run of `claim_intake` on one document. -/
def oneDocument : WorkflowRunCreate where
  workflowName := "claim_intake"
  documentIds := [7]

/-- Draws whose event identifiers differ from the others. -/
def separateDraws (n : Nat) : Draws :=
  { numberedDraws n with uuid7 := fun index => BitVec.ofNat 128 (1000 + 100 * n + index) }

theorem separateDraws_fresh (n : Nat) (small : n ≤ 2) :
    (separateDraws n).FreshFor claimIntakeV1 (Database.empty [7]).contents where
  distinct := by
    obtain rfl | rfl | rfl : n = 0 ∨ n = 1 ∨ n = 2 := by omega
    all_goals decide
  unused _ _ := List.not_mem_nil

theorem claimIntakeV1_accepts :
    Accepts (.empty [7]) claimIntakeV1 "claim_intake" "api_key:operator:key" where
  texts := by decide
  storable := ⟨by decide, by decide, by decide, by decide, by decide⟩
  handler := by decide
  numbered _ stored := absurd stored List.not_mem_nil

theorem oneDocument_taken : RouteTakes (.empty [7]) (separateDraws 1) claimIntakeV1 oneDocument
    ⟨"key", "operator", "label"⟩ where
  accepts := claimIntakeV1_accepts
  deadline := by decide +kernel
  inputs := by decide

theorem oneDocument_takenToo (correlationId : String)
    (storable : storableText correlationId = true) :
    CallTakes (.empty [7]) (separateDraws 2) claimIntakeV1 oneDocument
      ⟨"key", "operator", "label"⟩ correlationId where
  accepts := claimIntakeV1_accepts
  deadline := by decide +kernel
  correlation := storable

end InsuranceOps
