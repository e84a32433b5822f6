/-
This file takes apart the two ways of starting a run, the route that creates one
and the orchestrator's call. Both make the same inserts and differ in what they
put into the attempt, the task and the event. With fresh identifiers the inserts
go through exactly when the steps of the definition meet the constraints of
their table and the outbox has a number to give.
-/

import InsuranceOps.RouteEffects
import InsuranceOps.UniqueConstraints

namespace InsuranceOps

open Relational WorkflowOrchestrator Fallible

/-! ### The inserts of a start -/

/-- What the two ways of starting a run differ in, and what they share. -/
structure StartPlan where
  definition : WorkflowDefinition
  workflowName : String
  documentIds : List UUID
  actor : String
  scheduledFor : Option Timestamp
  change : UUID → WorkflowRunModel → WorkflowRunModel
  keeps : ∀ stepId row, (change stepId row).workflowRunId = row.workflowRunId
  payload : UUID → StepModel → StepDefinition → JsonObject
  audited : JsonObject

namespace StartPlan

variable (db : Database) (draws : Draws) (plan : StartPlan)

def pending (deadlineAt : Timestamp) : WorkflowRunModel :=
  pendingRun (draws.uuid4 0) plan.workflowName plan.definition.workflowVersion plan.actor
    (draws.now 0) deadlineAt

def documents : List WorkflowRunDocumentModel :=
  documentRows (draws.uuid4 0) plan.documentIds (draws.now 0)

def steps : List StepModel :=
  stepRows plan.definition (draws.uuid4 0) (draws.now 0) fun index => draws.uuid4 (index + 1)

def attemptId : UUID := draws.uuid4 ((plan.steps draws).length + 1)

def attempt (first : StepModel) : StepAttemptModel :=
  queuedAttempt (plan.attemptId draws) first.stepId 1 plan.scheduledFor (draws.now 0)

def task (first : StepModel) (firstDefinition : StepDefinition) : TasksOutboxModel :=
  outboxRow (draws.uuid4 0) first.stepId (plan.attemptId draws)
    (plan.payload (plan.attemptId draws) first firstDefinition) (draws.now 0) (draws.now 0)

def call : AppendCall :=
  { workflowRunId := draws.uuid4 0
    eventType := "workflow_run.started"
    actor := plan.actor
    payload := plan.audited }

/-- The inserts both ways of starting a run make, in their order. -/
def inserts : Except Failure Database := do
  let deadlineAt ← addSeconds (draws.now 0) plan.definition.deadlineSeconds
  let db ← db.insertWorkflowRun (plan.pending draws deadlineAt)
  let db ← insertDocuments db (plan.documents draws)
  let db ← insertSteps db (plan.steps draws)
  let (first, firstDefinition) ← orRaise (firstStep (plan.steps draws) plan.definition) .indexError
  let db ← db.insertStepAttempt (plan.attempt draws first)
  let db := db.updateWorkflowRun (draws.uuid4 0) (plan.change first.stepId)
    (plan.keeps first.stepId)
  let db ← db.insertTasksOutbox (plan.task draws first firstDefinition)
  db.appendAuditEvent (plan.call draws) (draws.event 0 1)

end StartPlan

/-! ### The two plans -/

section Plans

variable (db : Database) (draws : Draws) (definition : WorkflowDefinition)

/-- How the route starts a run. -/
def routePlan (body : WorkflowRunCreate) (principal : ApiKeyPrincipal) : StartPlan where
  definition := definition
  workflowName := body.workflowName
  documentIds := body.documentIds
  actor := principal.actorString
  scheduledFor := some (draws.now 0)
  change := WorkflowRunModel.startAt
  keeps _ _ := rfl
  payload stepAttemptId first firstDefinition := [
    ("workflow_run_id", .ofId (draws.uuid4 0)),
    ("step_id", .ofId first.stepId),
    ("step_attempt_id", .ofId stepAttemptId),
    ("step_name", .string first.stepName),
    ("handler_name", .string firstDefinition.handlerName),
    ("workflow_name", .string body.workflowName),
    ("workflow_version", .string definition.workflowVersion),
    ("attempt_number", .int 1),
    ("document_ids", .ofTexts (body.documentIds.map UUID.str))]
  audited := [
    ("workflow_name", .string body.workflowName),
    ("workflow_version", .string definition.workflowVersion),
    ("document_ids", .ofTexts (body.documentIds.map UUID.str)),
    ("inputs", .object body.inputs)]

/-- How the orchestrator starts a run. -/
def callPlan (workflowName : String) (documentIds : List UUID) (actor correlationId : String) :
    StartPlan where
  definition := definition
  workflowName := workflowName
  documentIds := documentIds
  actor := actor
  scheduledFor := none
  change := WorkflowRunModel.pointTo
  keeps _ _ := rfl
  payload stepAttemptId first firstDefinition := [
    ("workflow_run_id", .ofId (draws.uuid4 0)),
    ("workflow_name", .string workflowName),
    ("workflow_version", .string definition.workflowVersion),
    ("step_id", .ofId first.stepId),
    ("step_attempt_id", .ofId stepAttemptId),
    ("step_name", .string first.stepName),
    ("handler_name", .string firstDefinition.handlerName),
    ("correlation_id", .string correlationId),
    ("document_ids", .ofTexts (documentIds.map UUID.str))]
  audited := [
    ("workflow_name", .string workflowName),
    ("workflow_version", .string definition.workflowVersion),
    ("document_ids", .ofTexts (documentIds.map UUID.str)),
    ("correlation_id", .string correlationId),
    ("deadline_seconds", .int definition.deadlineSeconds)]

variable {registry : WorkflowRegistry} {definition}

/-- An admitted request for a registered definition makes the inserts of the route's plan. -/
theorem createWorkflowRun_eq {body : WorkflowRunCreate} {principal : ApiKeyPrincipal}
    (admitted : principal.role ∈ ["operator", "supervisor"])
    (requested : requestedDefinition registry body = some definition) :
    createWorkflowRun registry db draws body principal = do
      let next ← (routePlan draws definition body principal).inserts db draws
      return (next, draws.uuid4 0) := by
  simp only [createWorkflowRun, requiresRole, if_pos admitted, requested, orRaise,
    StartPlan.inserts, bind_assoc]
  rfl

/-- A call for a registered definition makes the inserts of the orchestrator's plan. -/
theorem startWorkflowRun_eq {workflowName : String} {documentIds : List UUID}
    {actor correlationId : String}
    (registered : registry.get workflowName definition.workflowVersion = some definition) :
    startWorkflowRun registry db draws workflowName definition.workflowVersion documentIds actor
        correlationId none = do
      let next ← (callPlan draws definition workflowName documentIds actor correlationId).inserts
        db draws
      return (next.updateWorkflowRun (draws.uuid4 0) (WorkflowRunModel.start (draws.now 2)),
        draws.uuid4 0) := by
  simp only [startWorkflowRun, registered, orRaise, StartPlan.inserts, bind_assoc]
  rfl

end Plans

/-! ### Inserts that succeed -/

/-- The computation succeeds: it avoids every failure. -/
def Succeeds {Result : Type} (computation : Except Failure Result) : Prop :=
  Avoids (fun _ => True) computation

/-- A row that passes its checks, is unique and refers to stored rows is inserted. -/
theorem insertInto_succeeds {Row : Type} {keys : List (UniqueKey Row UniqueConstraint)}
    {table : Table keys} {row : Row} {checks references : List (String × Bool)}
    (checked : ∀ check ∈ checks, check.2 = true)
    (unique : ∀ key ∈ keys, ∀ other ∈ table.rows, key.key other ≠ key.key row)
    (refers : ∀ reference ∈ references, reference.2 = true) :
    Succeeds (insertInto table row checks references) := by
  intro failure failed _
  unfold insertInto at failed
  split at failed
  · rename_i check found
    have fails := List.find?_some found
    rw [checked check (List.mem_of_find?_eq_some found)] at fails
    cases fails
  · split at failed
    · rename_i violated refused
      obtain ⟨key, member, -, other, stored, clash⟩ := Table.insert_error refused
      exact unique key member other stored clash
    · split at failed
      · rename_i reference found
        have fails := List.find?_some found
        rw [refers reference (List.mem_of_find?_eq_some found)] at fails
        cases fails
      · cases failed

section Inserts

variable {db : Database}

theorem Database.hasRun_iff {workflowRunId : UUID} :
    db.hasRun workflowRunId = true ↔
      ∃ row ∈ db.contents.workflowRuns, row.workflowRunId = workflowRunId := by
  rw [Database.hasRun, List.any_eq_true]
  simp only [decide_eq_true_eq]
  exact Iff.rfl

theorem Database.hasStepAttempt_iff {stepAttemptId : UUID} :
    db.hasStepAttempt stepAttemptId = true ↔
      ∃ row ∈ db.contents.stepAttempts, row.stepAttemptId = stepAttemptId := by
  rw [Database.hasStepAttempt, List.any_eq_true]
  simp only [decide_eq_true_eq]
  exact Iff.rfl

theorem insertWorkflowRun_succeeds {row : WorkflowRunModel}
    (unused : ∀ other ∈ db.contents.workflowRuns, other.workflowRunId ≠ row.workflowRunId)
    (texts : storableText row.workflowName = true ∧ storableText row.workflowVersion = true ∧
      storableText row.createdBy = true) :
    Succeeds (db.insertWorkflowRun row) := by
  refine avoids_bind (insertInto_succeeds ?_ ?_ (List.forall_mem_nil _)) fun _ _ => avoids_ok _ _
  · simp only [List.forall_mem_cons]
    exact ⟨texts.1, texts.2.1, texts.2.2, List.forall_mem_nil _⟩
  · simp only [workflowRunKeys, List.forall_mem_singleton]
    exact unused

theorem insertWorkflowRunDocument_succeeds {row : WorkflowRunDocumentModel}
    (run : db.hasRun row.workflowRunId = true) (document : row.documentId ∈ db.contents.documents)
    (unused : ∀ other ∈ db.contents.workflowRunDocuments,
      other.workflowRunId = row.workflowRunId → other.documentId ≠ row.documentId) :
    Succeeds (db.insertWorkflowRunDocument row) := by
  refine avoids_bind (insertInto_succeeds (List.forall_mem_nil _) ?_ ?_) fun _ _ => avoids_ok _ _
  · simp only [workflowRunDocumentKeys, List.forall_mem_singleton, ne_eq, Prod.mk.injEq, not_and]
    exact unused
  · simp only [List.forall_mem_cons]
    exact ⟨run, List.contains_iff_mem.mpr document, List.forall_mem_nil _⟩

theorem insertStep_succeeds {row : StepModel} (admitted : Database.StepAdmitted db row) :
    Succeeds (db.insertStep row) := by
  refine avoids_bind (insertInto_succeeds ?_ ?_ ?_) fun _ _ => avoids_ok _ _
  · simp only [List.forall_mem_cons, decide_eq_true_eq]
    exact ⟨admitted.index.2, admitted.texts.1, admitted.texts.2, admitted.index.1,
      admitted.attempts, List.forall_mem_nil _⟩
  · simp only [stepKeys, List.forall_mem_cons, ne_eq, Prod.mk.injEq, not_and]
    exact ⟨admitted.identified, admitted.indexed, admitted.named, List.forall_mem_nil _⟩
  · exact List.forall_mem_singleton.mpr admitted.run

theorem insertStepAttempt_succeeds {row : StepAttemptModel}
    (admitted : Database.AttemptAdmitted db row) : Succeeds (db.insertStepAttempt row) := by
  refine avoids_bind (insertInto_succeeds ?_ ?_ ?_) fun _ _ => avoids_ok _ _
  · simp only [List.forall_mem_cons, decide_eq_true_eq]
    exact ⟨admitted.number.1, admitted.number.2, List.forall_mem_nil _⟩
  · simp only [stepAttemptKeys, List.forall_mem_cons, ne_eq, Prod.mk.injEq, not_and]
    exact ⟨admitted.identified, admitted.numbered, List.forall_mem_nil _⟩
  · exact List.forall_mem_singleton.mpr admitted.step

theorem insertTasksOutbox_succeeds {row : TasksOutboxModel} (attempts : row.attempts ≤ 10)
    (payload : (Json.object row.payload).storable = true)
    (unused : ∀ other ∈ db.contents.tasksOutbox,
      other.outboxId ≠ db.contents.outboxSequence + 1)
    (run : db.hasRun row.workflowRunId = true) (step : db.hasStep row.stepId = true)
    (attempt : db.hasStepAttempt row.stepAttemptId = true) :
    Succeeds (db.insertTasksOutbox row) := by
  refine avoids_bind (insertInto_succeeds ?_ ?_ ?_) fun _ _ => avoids_ok _ _
  · simp only [List.forall_mem_cons, decide_eq_true_eq]
    exact ⟨payload, attempts, List.forall_mem_nil _⟩
  · simp only [tasksOutboxKeys, List.forall_mem_singleton]
    exact unused
  · simp only [List.forall_mem_cons]
    exact ⟨run, step, attempt, List.forall_mem_nil _⟩

/-- The latest event of a run that has none. -/
theorem getLatestForRun_eq_none {events : List AuditEventModel} {workflowRunId : UUID}
    (unheard : ∀ event ∈ events, event.workflowRunId ≠ workflowRunId) :
    getLatestForRun events workflowRunId = none := by
  have silent : eventsOf events workflowRunId = [] :=
    List.filter_eq_nil_iff.mpr fun event member => by simpa using unheard event member
  rw [getLatestForRun, silent]
  rfl

/-- The first event of a run, about no step, is appended when its identifier is new. -/
theorem appendAuditEvent_succeeds {call : AppendCall} {draw : EventDraw}
    (run : db.hasRun call.workflowRunId = true)
    (unheard : ∀ event ∈ db.contents.auditEvents, event.workflowRunId ≠ call.workflowRunId)
    (unused : ∀ event ∈ db.contents.auditEvents, event.auditEventId ≠ draw.auditEventId)
    (texts : storableText call.actor = true ∧ (Json.object call.payload).storable = true)
    (noStep : call.stepId = none) (noAttempt : call.stepAttemptId = none) :
    Succeeds (db.appendAuditEvent call draw) := by
  have latest : getLatestForRun db.auditEvents.rows call.workflowRunId = none :=
    getLatestForRun_eq_none unheard
  refine avoids_bind (insertInto_succeeds ?_ ?_ ?_) fun _ _ => avoids_ok _ _
  · rw [latest]
    simp only [List.forall_mem_cons, decide_eq_true_eq]
    exact ⟨texts.1, texts.2, rfl, Sha256.digest_length _, List.forall_mem_nil _⟩
  · simp only [auditEventKeys, List.forall_mem_cons, ne_eq, Prod.mk.injEq, not_and]
    exact ⟨unused, fun other stored owner => absurd owner (unheard other stored),
      List.forall_mem_nil _⟩
  · simp only [nextAuditEvent, noStep, noAttempt, List.forall_mem_cons]
    exact ⟨run, rfl, rfl, List.forall_mem_nil _⟩

end Inserts

/-! ### The identifiers of the rows -/

def WorkflowRunModel.ids (row : WorkflowRunModel) : List UUID :=
  row.workflowRunId :: row.currentStepId.toList

def StepModel.ids (row : StepModel) : List UUID := [row.stepId, row.workflowRunId]

def StepAttemptModel.ids (row : StepAttemptModel) : List UUID := [row.stepAttemptId, row.stepId]

def TasksOutboxModel.ids (row : TasksOutboxModel) : List UUID :=
  [row.workflowRunId, row.stepId, row.stepAttemptId]

def EscalationCaseModel.ids (row : EscalationCaseModel) : List UUID :=
  [row.escalationId, row.workflowRunId, row.stepId]

def AuditEventModel.ids (row : AuditEventModel) : List UUID :=
  row.auditEventId :: row.workflowRunId :: (row.stepId.toList ++ row.stepAttemptId.toList)

/-- The drawn identifiers the rows mention. -/
def Contents.ids (contents : Contents) : List UUID :=
  contents.workflowRuns.flatMap WorkflowRunModel.ids ++
    contents.workflowRunDocuments.map (fun row => row.workflowRunId) ++
    contents.steps.flatMap StepModel.ids ++ contents.stepAttempts.flatMap StepAttemptModel.ids ++
    contents.tasksOutbox.flatMap TasksOutboxModel.ids ++
    contents.escalationCases.flatMap EscalationCaseModel.ids ++
    contents.auditEvents.flatMap AuditEventModel.ids

/-! ### When a start succeeds -/

/-- The identifiers a start draws: one for the run, one for each step, one for the attempt, and
one for the event. -/
def Draws.drawn (draws : Draws) (definition : WorkflowDefinition) : List UUID :=
  (List.range (definition.steps.length + 2)).map draws.uuid4 ++ [draws.uuid7 0]

/-- The identifiers a start draws are distinct, and no row mentions one of them. -/
structure Draws.FreshFor (draws : Draws) (definition : WorkflowDefinition)
    (contents : Contents) : Prop where
  distinct : (draws.drawn definition).Nodup
  unused : ∀ id ∈ draws.drawn definition, id ∉ contents.ids

/-- The steps of a definition meet the constraints of the table of steps. -/
structure WorkflowDefinition.Storable (definition : WorkflowDefinition) : Prop where
  indices : ∀ step ∈ definition.steps, 0 ≤ step.stepIndex ∧ step.stepIndex ≤ 2147483647
  attempts : ∀ step ∈ definition.steps, 1 ≤ step.maxAttempts ∧ step.maxAttempts ≤ 10
  texts : ∀ step ∈ definition.steps,
    storableText step.stepName = true ∧ storableText step.retryPolicy.jitter = true
  indexed : (definition.steps.map fun step => step.stepIndex).Nodup
  named : (definition.steps.map fun step => step.stepName).Nodup

/-- The database takes the rows of a start: the deadline is a `datetime`, the texts and payloads
are storable, the steps meet their constraints, and the number the outbox sequence gives next is
free. -/
structure StartPlan.Taken (db : Database) (draws : Draws) (plan : StartPlan) : Prop where
  deadline : isDatetime (draws.now 0 + plan.definition.deadlineSeconds) = true
  texts : storableText plan.workflowName = true ∧
    storableText plan.definition.workflowVersion = true ∧ storableText plan.actor = true
  storable : plan.definition.Storable
  numbered : ∀ row ∈ db.contents.tasksOutbox, row.outboxId ≠ db.contents.outboxSequence + 1
  task : ∀ first firstDefinition,
    firstStep (plan.steps draws) plan.definition = some (first, firstDefinition) →
      (Json.object (plan.payload (plan.attemptId draws) first firstDefinition)).storable = true
  audited : (Json.object plan.audited).storable = true

section Fresh

variable {contents : Contents} {draws : Draws} {definition : WorkflowDefinition} {id : UUID}

theorem Draws.uuid4_mem_drawn {index : Nat} (bound : index < definition.steps.length + 2) :
    draws.uuid4 index ∈ draws.drawn definition :=
  List.mem_append_left _ (List.mem_map_of_mem (List.mem_range.mpr bound))

theorem Draws.uuid7_mem_drawn : draws.uuid7 0 ∈ draws.drawn definition :=
  List.mem_append_right _ (List.mem_singleton_self _)

/-- Draws of `uuid4()` at two places differ. -/
theorem Draws.FreshFor.uuid4_injective (fresh : draws.FreshFor definition contents)
    (first second : Nat) (firstBound : first < definition.steps.length + 2)
    (secondBound : second < definition.steps.length + 2)
    (same : draws.uuid4 first = draws.uuid4 second) : first = second :=
  List.inj_on_of_nodup_map (List.nodup_append.mp fresh.distinct).1
    (List.mem_range.mpr firstBound) (List.mem_range.mpr secondBound) same

/-- An identifier no row mentions is none of the rows' own and none they belong to. -/
structure Contents.Lacks (contents : Contents) (id : UUID) : Prop where
  runs : ∀ row ∈ contents.workflowRuns, row.workflowRunId ≠ id
  documents : ∀ row ∈ contents.workflowRunDocuments, row.workflowRunId ≠ id
  steps : ∀ row ∈ contents.steps, row.stepId ≠ id
  stepRuns : ∀ row ∈ contents.steps, row.workflowRunId ≠ id
  attempts : ∀ row ∈ contents.stepAttempts, row.stepAttemptId ≠ id
  attemptSteps : ∀ row ∈ contents.stepAttempts, row.stepId ≠ id
  events : ∀ row ∈ contents.auditEvents, row.auditEventId ≠ id
  eventRuns : ∀ row ∈ contents.auditEvents, row.workflowRunId ≠ id

theorem Contents.lacks_of_not_mem (unused : id ∉ contents.ids) : contents.Lacks id := by
  have absent {mentioned : UUID} (member : mentioned ∈ contents.ids) : mentioned ≠ id :=
    fun same => unused (same ▸ member)
  refine ⟨fun row stored => absent ?_, fun row stored => absent ?_, fun row stored => absent ?_,
    fun row stored => absent ?_, fun row stored => absent ?_, fun row stored => absent ?_,
    fun row stored => absent ?_, fun row stored => absent ?_⟩
  all_goals
    simp only [Contents.ids, List.mem_append, List.mem_flatMap, List.mem_map]
  · exact .inl (.inl (.inl (.inl (.inl (.inl ⟨row, stored, List.mem_cons_self⟩)))))
  · exact .inl (.inl (.inl (.inl (.inl (.inr ⟨row, stored, rfl⟩)))))
  · exact .inl (.inl (.inl (.inl (.inr ⟨row, stored, List.mem_cons_self⟩))))
  · exact .inl (.inl (.inl (.inl (.inr ⟨row, stored, List.mem_cons_of_mem _
      List.mem_cons_self⟩))))
  · exact .inl (.inl (.inl (.inr ⟨row, stored, List.mem_cons_self⟩)))
  · exact .inl (.inl (.inl (.inr ⟨row, stored, List.mem_cons_of_mem _ List.mem_cons_self⟩)))
  · exact .inr ⟨row, stored, List.mem_cons_self⟩
  · exact .inr ⟨row, stored, List.mem_cons_of_mem _ List.mem_cons_self⟩

theorem Draws.FreshFor.lacks (fresh : draws.FreshFor definition contents) (index : Nat)
    (bound : index < definition.steps.length + 2) : contents.Lacks (draws.uuid4 index) :=
  Contents.lacks_of_not_mem (fresh.unused _ (Draws.uuid4_mem_drawn bound))

end Fresh

/-- The rows of a definition carry the indices, the numbers of attempts and the texts of its
steps. -/
theorem stepRows_ranges {definition : WorkflowDefinition} (storable : definition.Storable)
    {workflowRunId : UUID} {now : Timestamp} {stepId : Nat → UUID} {row : StepModel}
    (member : row ∈ stepRows definition workflowRunId now stepId) :
    (0 ≤ row.stepIndex ∧ row.stepIndex ≤ 2147483647) ∧
      (1 ≤ row.maxAttempts ∧ row.maxAttempts ≤ 10) ∧
      storableText row.stepName = true ∧ storableText row.retryPolicy.jitter = true := by
  obtain ⟨index, bound, rfl⟩ := List.mem_mapIdx.mp member
  exact ⟨storable.indices _ (List.getElem_mem bound), storable.attempts _ (List.getElem_mem bound),
    storable.texts _ (List.getElem_mem bound)⟩

/-- A column that no two step rows of a run share. -/
theorem nodup_of_runColumn {Column : Type} (column : StepModel → Column) {old new : List StepModel}
    {workflowRunId : UUID} (owned : ∀ row ∈ new, row.workflowRunId = workflowRunId)
    (distinct : ((old ++ new).map fun row => (row.workflowRunId, column row)).Nodup) :
    (new.map column).Nodup := by
  rw [List.map_append, List.nodup_append] at distinct
  have paired : new.map (fun row => (row.workflowRunId, column row)) =
      (new.map column).map (Prod.mk workflowRunId) := by
    rw [List.map_map]
    exact List.map_congr_left fun row member => by rw [owned row member]; rfl
  exact List.Nodup.of_map _ (paired ▸ distinct.2.1)

/-- The steps of a definition whose rows were inserted are storable. -/
theorem storable_of_insertSteps {attached stepped : Database} {definition : WorkflowDefinition}
    {workflowRunId : UUID} {now : Timestamp} {stepId : Nat → UUID}
    (inserted : insertSteps attached (stepRows definition workflowRunId now stepId) =
      .ok stepped) : definition.Storable := by
  obtain ⟨contents, admitted⟩ := insertSteps_admitted inserted
  have steps : stepped.steps.rows =
      attached.steps.rows ++ stepRows definition workflowRunId now stepId :=
    congrArg Contents.steps contents
  have owned : ∀ row ∈ stepRows definition workflowRunId now stepId,
      row.workflowRunId = workflowRunId := fun row member => (stepRows_mem member).1
  have row (step : StepDefinition) (member : step ∈ definition.steps) :
      ∃ row ∈ stepRows definition workflowRunId now stepId, row.stepIndex = step.stepIndex ∧
        row.maxAttempts = step.maxAttempts ∧ row.stepName = step.stepName ∧
        row.retryPolicy = step.retryPolicy := by
    obtain ⟨index, bound, rfl⟩ := List.mem_iff_getElem.mp member
    exact ⟨_, List.mem_mapIdx.mpr ⟨index, bound, rfl⟩, rfl, rfl, rfl, rfl⟩
  have columns := stepRows_map definition workflowRunId now stepId
  have indices := congrArg (List.map Prod.fst) columns
  have names := congrArg (List.map Prod.snd) columns
  rw [List.map_map, List.map_map] at indices names
  have indexed := nodup_of_runColumn (fun row => row.stepIndex) owned
    (steps ▸ stepped.steps.distinct _ (List.mem_cons_of_mem _ List.mem_cons_self))
  have named := nodup_of_runColumn (fun row => row.stepName) owned
    (steps ▸ stepped.steps.distinct _ (List.mem_cons_of_mem _ (List.mem_cons_of_mem _
      List.mem_cons_self)))
  refine ⟨fun step member => ?_, fun step member => ?_, fun step member => ?_, ?_, ?_⟩
  · obtain ⟨row, listed, same, -⟩ := row step member
    obtain ⟨_, admits⟩ := admitted row listed
    exact same ▸ admits.index
  · obtain ⟨row, listed, -, same, -⟩ := row step member
    obtain ⟨_, admits⟩ := admitted row listed
    exact same ▸ admits.attempts
  · obtain ⟨row, listed, -, -, name, policy⟩ := row step member
    obtain ⟨_, admits⟩ := admitted row listed
    exact name ▸ policy ▸ admits.texts
  · exact (show (stepRows definition workflowRunId now stepId).map (fun row => row.stepIndex) =
      definition.steps.map fun step => step.stepIndex from indices) ▸ indexed
  · exact (show (stepRows definition workflowRunId now stepId).map (fun row => row.stepName) =
      definition.steps.map fun step => step.stepName from names) ▸ named

namespace StartPlan

variable {db : Database} {draws : Draws} {plan : StartPlan}

theorem steps_columns :
    (plan.steps draws).map (fun row => row.stepIndex) =
        plan.definition.steps.map (fun step => step.stepIndex) ∧
      (plan.steps draws).map (fun row => row.stepName) =
        plan.definition.steps.map fun step => step.stepName := by
  have columns := stepRows_map plan.definition (draws.uuid4 0) (draws.now 0) fun index =>
    draws.uuid4 (index + 1)
  have indices := congrArg (List.map Prod.fst) columns
  have names := congrArg (List.map Prod.snd) columns
  rw [List.map_map, List.map_map] at indices names
  exact ⟨indices, names⟩

/-- The documents of a start are attached when they are stored and named once each. -/
theorem insertDocuments_succeeds {created : Database} {workflowRunId : UUID} {now : Timestamp}
    {documentIds : List UUID} (run : created.hasRun workflowRunId = true)
    (unattached : ∀ row ∈ created.contents.workflowRunDocuments, row.workflowRunId ≠ workflowRunId)
    (distinct : documentIds.Nodup) (stored : ∀ id ∈ documentIds, id ∈ created.contents.documents) :
    Succeeds (insertDocuments created (documentRows workflowRunId documentIds now)) := by
  refine avoids_foldlM fun before row after reached split ran => ?_
  have inserted : insertDocuments created before = .ok reached := ran
  have contents := insertDocuments_ok inserted
  have member : row ∈ documentRows workflowRunId documentIds now :=
    split ▸ List.mem_append_right _ List.mem_cons_self
  have listed : (documentRows workflowRunId documentIds now).map (fun row => row.documentId) =
      documentIds := by
    rw [documentRows, List.map_map]
    exact List.map_id _
  have owned := documentRows_run row member
  refine insertWorkflowRunDocument_succeeds ?_ ?_ ?_
  · obtain ⟨other, otherStored, same⟩ := Database.hasRun_iff.mp run
    refine Database.hasRun_iff.mpr ⟨other, ?_, same.trans owned.symm⟩
    rw [contents]
    exact otherStored
  · rw [contents]
    exact stored _ (listed ▸ List.mem_map_of_mem member)
  · rw [contents, owned]
    refine List.forall_mem_append.mpr ⟨fun other old same => absurd same (unattached other old),
      fun other earlier _ => ?_⟩
    exact ne_of_split (by rw [listed]; exact distinct) split other earlier

/-- The steps of a storable definition are inserted for a new run under new identifiers. -/
theorem insertSteps_succeeds {attached : Database} {definition : WorkflowDefinition}
    {workflowRunId : UUID} {now : Timestamp} {stepId : Nat → UUID}
    (storable : definition.Storable) (run : attached.hasRun workflowRunId = true)
    (foreign : ∀ other ∈ attached.contents.steps, other.workflowRunId ≠ workflowRunId)
    (fresh : ∀ row ∈ stepRows definition workflowRunId now stepId,
      ∀ other ∈ attached.contents.steps, other.stepId ≠ row.stepId)
    (identified : ((stepRows definition workflowRunId now stepId).map fun row => row.stepId).Nodup)
    (indexed : ((stepRows definition workflowRunId now stepId).map
      fun row => row.stepIndex).Nodup)
    (named : ((stepRows definition workflowRunId now stepId).map fun row => row.stepName).Nodup) :
    Succeeds (insertSteps attached (stepRows definition workflowRunId now stepId)) := by
  refine avoids_foldlM fun before row after reached split ran => ?_
  have inserted : insertSteps attached before = .ok reached := ran
  have contents := (insertSteps_ok inserted).1
  have member : row ∈ stepRows definition workflowRunId now stepId :=
    split ▸ List.mem_append_right _ List.mem_cons_self
  have owned := (stepRows_mem member).1
  have ranges := stepRows_ranges storable member
  refine insertStep_succeeds ⟨?_, ranges.2.2, ranges.1, ranges.2.1, ?_, ?_, ?_⟩
  · obtain ⟨other, stored, same⟩ := Database.hasRun_iff.mp run
    refine Database.hasRun_iff.mpr ⟨other, ?_, same.trans owned.symm⟩
    rw [contents]
    exact stored
  · rw [contents]
    exact List.forall_mem_append.mpr ⟨fresh row member, ne_of_split identified split⟩
  · rw [contents, owned]
    exact List.forall_mem_append.mpr
      ⟨fun other stored owner => absurd owner (foreign other stored), fun other earlier _ =>
        ne_of_split indexed split other earlier⟩
  · rw [contents, owned]
    exact List.forall_mem_append.mpr
      ⟨fun other stored owner => absurd owner (foreign other stored), fun other earlier _ =>
        ne_of_split named split other earlier⟩

/-- With at least one step there is a first one. -/
theorem exists_firstStep (plan : StartPlan) (draws : Draws)
    (stepped : plan.definition.steps ≠ []) :
    ∃ first firstDefinition, firstStep (plan.steps draws) plan.definition =
      some (first, firstDefinition) := by
  obtain ⟨step, rest, listed⟩ := List.exists_cons_of_ne_nil stepped
  obtain ⟨first, others, rows⟩ : ∃ first others, plan.steps draws = first :: others := by
    rw [steps, stepRows, listed, List.mapIdx_cons]
    exact ⟨_, _, rfl⟩
  refine ⟨first, step, ?_⟩
  unfold firstStep
  rw [rows, listed]

/-- A start with fresh identifiers whose rows the database takes succeeds. -/
theorem inserts_succeed (plan : StartPlan) (fresh : draws.FreshFor plan.definition db.contents)
    (stepped : plan.definition.steps ≠ []) (distinct : plan.documentIds.Nodup)
    (stored : ∀ id ∈ plan.documentIds, id ∈ db.contents.documents)
    (taken : plan.Taken db draws) : Succeeds (plan.inserts db draws) := by
  have lacks := fresh.lacks 0 (by omega)
  have identifiers : ∀ row ∈ plan.steps draws, db.contents.Lacks row.stepId := by
    intro row member
    obtain ⟨index, bound, rfl⟩ := List.mem_mapIdx.mp member
    exact fresh.lacks _ (by omega)
  refine avoids_bind ?_ fun deadlineAt _ => ?_
  · rw [addSeconds_ok.mpr ⟨taken.deadline, rfl⟩]
    exact avoids_ok _ _
  refine avoids_bind (insertWorkflowRun_succeeds lacks.runs taken.texts)
    fun created runInserted => ?_
  have createdContents := (Database.insertWorkflowRun_ok runInserted).2
  have createdRun : created.hasRun (draws.uuid4 0) = true :=
    Database.hasRun_iff.mpr ⟨plan.pending draws deadlineAt, by
      rw [createdContents]
      exact List.mem_append_right _ (List.mem_singleton_self _), rfl⟩
  refine avoids_bind (insertDocuments_succeeds createdRun ?_ distinct ?_)
    fun attached documentsInserted => ?_
  · rw [createdContents]
    exact lacks.documents
  · rw [createdContents]
    exact stored
  have attachedContents := insertDocuments_ok documentsInserted
  have attachedRun : attached.hasRun (draws.uuid4 0) = true := by
    rw [Database.hasRun_iff, attachedContents]
    exact Database.hasRun_iff.mp createdRun
  have attachedSteps : attached.contents.steps = db.contents.steps := by
    rw [attachedContents, createdContents]
  refine avoids_bind (insertSteps_succeeds taken.storable attachedRun ?_ ?_
    (stepRows_identified ?_) ?_ ?_) fun stepped' stepsInserted => ?_
  · rw [attachedSteps]
    exact lacks.stepRuns
  · rw [attachedSteps]
    exact fun row member => (identifiers row member).steps
  · intro first firstBound second secondBound same
    have equal := fresh.uuid4_injective (first + 1) (second + 1) (by omega) (by omega) same
    omega
  · exact steps_columns.1 ▸ taken.storable.indexed
  · exact steps_columns.2 ▸ taken.storable.named
  have steppedContents := (insertSteps_ok stepsInserted).1
  obtain ⟨first, firstDefinition, firstFound⟩ := plan.exists_firstStep draws stepped
  rw [firstFound]
  refine avoids_bind (avoids_ok _ _) fun pair pairFound => ?_
  cases pairFound
  have firstMember := List.mem_of_mem_head? (firstStep_eq_some firstFound).1
  have attemptLacks := fresh.lacks (plan.definition.steps.length + 1) (by omega)
  have attemptNamed : plan.attemptId draws = draws.uuid4 (plan.definition.steps.length + 1) := by
    rw [attemptId, steps, stepRows_length]
  have oldAttempts : stepped'.contents.stepAttempts = db.contents.stepAttempts := by
    rw [steppedContents, attachedContents, createdContents]
  have firstStored : stepped'.hasStep first.stepId = true :=
    Database.hasStep_iff.mpr ⟨first, by
      rw [steppedContents]
      exact List.mem_append_right _ firstMember, rfl⟩
  refine avoids_bind (insertStepAttempt_succeeds ⟨firstStored,
    ⟨le_rfl, show 1 ≤ 32767 by decide⟩, ?_, ?_⟩) fun attempted attemptInserted => ?_
  · rw [oldAttempts]
    exact fun other old same => attemptLacks.attempts other old (same.trans attemptNamed)
  · rw [oldAttempts]
    exact fun other old owner =>
      absurd owner ((identifiers first firstMember).attemptSteps other old)
  have attemptedContents := (Database.insertStepAttempt_ok attemptInserted).2
  -- The run is still stored once it points to its first step.
  have updatedRun : (attempted.updateWorkflowRun (draws.uuid4 0) (plan.change first.stepId)
      (plan.keeps first.stepId)).hasRun (draws.uuid4 0) = true := by
    obtain ⟨row, rowStored, same⟩ := Database.hasRun_iff.mp attachedRun
    refine Database.hasRun_iff.mpr ⟨plan.change first.stepId row, ?_,
      (plan.keeps first.stepId row).trans same⟩
    rw [Database.contents_updateWorkflowRun, attemptedContents, steppedContents]
    exact mem_updateRows_of_selects rowStored (decide_eq_true same)
  refine avoids_bind (insertTasksOutbox_succeeds (Nat.zero_le _)
    (taken.task first firstDefinition firstFound) ?_ updatedRun ?_ ?_) fun queued enqueued => ?_
  · rw [Database.contents_updateWorkflowRun, attemptedContents, steppedContents, attachedContents,
      createdContents]
    exact taken.numbered
  · rw [Database.hasStep_iff, Database.contents_updateWorkflowRun, attemptedContents]
    exact Database.hasStep_iff.mp firstStored
  · rw [Database.hasStepAttempt_iff, Database.contents_updateWorkflowRun, attemptedContents]
    exact ⟨_, List.mem_append_right _ (List.mem_singleton_self _), rfl⟩
  have queuedContents := Database.insertTasksOutbox_ok enqueued
  have events : queued.contents.auditEvents = db.contents.auditEvents := by
    rw [queuedContents, Database.contents_updateWorkflowRun, attemptedContents, steppedContents,
      attachedContents, createdContents]
  refine appendAuditEvent_succeeds ?_ ?_ ?_ ⟨taken.texts.2.2, taken.audited⟩ rfl rfl
  · rw [Database.hasRun_iff, queuedContents]
    exact Database.hasRun_iff.mp updatedRun
  · rw [events]
    exact lacks.eventRuns
  · rw [events]
    exact (Contents.lacks_of_not_mem (fresh.unused _ Draws.uuid7_mem_drawn)).events

/-- What a start has written, the database takes. -/
theorem taken_of_inserts {audited : Database} (inserted : plan.inserts db draws = .ok audited) :
    plan.Taken db draws := by
  obtain ⟨deadlineAt, within, ran⟩ := Fallible.bind_eq_ok.mp inserted
  obtain ⟨created, runInserted, ran⟩ := Fallible.bind_eq_ok.mp ran
  obtain ⟨attached, documentsInserted, ran⟩ := Fallible.bind_eq_ok.mp ran
  obtain ⟨stepped, stepsInserted, ran⟩ := Fallible.bind_eq_ok.mp ran
  obtain ⟨⟨first, firstDefinition⟩, firstFound, ran⟩ := Fallible.bind_eq_ok.mp ran
  obtain ⟨attempted, attemptInserted, ran⟩ := Fallible.bind_eq_ok.mp ran
  obtain ⟨queued, enqueued, appended⟩ := Fallible.bind_eq_ok.mp ran
  refine ⟨(addSeconds_ok.mp within).1, Database.insertWorkflowRun_storable runInserted,
    storable_of_insertSteps stepsInserted, fun row stored => ?_,
    fun other otherDefinition found => ?_, Database.appendAuditEvent_storable appended⟩
  · have outbox : attempted.contents.tasksOutbox = db.contents.tasksOutbox ∧
        attempted.contents.outboxSequence = db.contents.outboxSequence := by
      rw [(Database.insertStepAttempt_ok attemptInserted).2, (insertSteps_ok stepsInserted).1,
        insertDocuments_ok documentsInserted, (Database.insertWorkflowRun_ok runInserted).2]
      exact ⟨rfl, rfl⟩
    have tasks : queued.tasksOutbox.rows = _ :=
      congrArg Contents.tasksOutbox (Database.insertTasksOutbox_ok enqueued)
    have distinct := queued.tasksOutbox.distinct _ List.mem_cons_self
    rw [tasks, Database.contents_updateWorkflowRun, outbox.1, outbox.2, List.map_append,
      List.nodup_append] at distinct
    exact distinct.2.2 _ (List.mem_map_of_mem stored) _ List.mem_cons_self
  · cases (orRaise_ok.mp firstFound).symm.trans found
    exact Database.insertTasksOutbox_storable enqueued

/-- The rows a start writes, with the number its outbox row gets and the last change of the run. -/
def newRun (draws : Draws) (plan : StartPlan) (number : Nat)
    (last : WorkflowRunModel → WorkflowRunModel) (first : StepModel)
    (firstDefinition : StepDefinition) : NewRun where
  definition := plan.definition
  run := last (plan.change first.stepId
    (plan.pending draws (draws.now 0 + plan.definition.deadlineSeconds)))
  documents := plan.documents draws
  steps := plan.steps draws
  first := first
  attempt := plan.attempt draws first
  task := { plan.task draws first firstDefinition with outboxId := number }
  call := plan.call draws
  draw := draws.event 0 1

/-- The inserts of a start and a last change of its run make a start of a run. -/
theorem inserts_started {audited next : Database} (inserted : plan.inserts db draws = .ok audited)
    (last : WorkflowRunModel → WorkflowRunModel)
    (ended : next.contents = { audited.contents with
      workflowRuns := updateRows (fun row => row.workflowRunId = draws.uuid4 0) last
        audited.contents.workflowRuns })
    (kept : ∀ row, (last row).workflowRunId = row.workflowRunId)
    (running : ∀ stepId row, (last (plan.change stepId row)).state = .running)
    (current : ∀ stepId row, (last (plan.change stepId row)).currentStepId = some stepId)
    (addressed : ∀ first firstDefinition, (plan.task draws first firstDefinition).Addressed) :
    ∃ first firstDefinition,
      firstStep (plan.steps draws) plan.definition = some (first, firstDefinition) ∧
      Started db next
        (newRun draws plan (db.contents.outboxSequence + 1) last first firstDefinition) := by
  obtain ⟨deadlineAt, within, ran⟩ := Fallible.bind_eq_ok.mp inserted
  obtain ⟨-, rfl⟩ := addSeconds_ok.mp within
  obtain ⟨created, runInserted, ran⟩ := Fallible.bind_eq_ok.mp ran
  obtain ⟨attached, documentsInserted, ran⟩ := Fallible.bind_eq_ok.mp ran
  obtain ⟨stepped, stepsInserted, ran⟩ := Fallible.bind_eq_ok.mp ran
  obtain ⟨⟨first, firstDefinition⟩, firstFound, ran⟩ := Fallible.bind_eq_ok.mp ran
  obtain ⟨attempted, attemptInserted, ran⟩ := Fallible.bind_eq_ok.mp ran
  obtain ⟨queued, enqueued, appended⟩ := Fallible.bind_eq_ok.mp ran
  refine ⟨first, firstDefinition, orRaise_ok.mp firstFound, ?_⟩
  exact started_of_inserts last (plan.keeps first.stepId) rfl runInserted documentsInserted
    stepsInserted (orRaise_ok.mp firstFound) attemptInserted enqueued appended ended
    ((kept _).trans (plan.keeps _ _)) (running _ _) (current _ _) rfl (addressed _ _)
    ⟨rfl, rfl, rfl⟩

end StartPlan

end InsuranceOps
