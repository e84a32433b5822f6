/-
This file says what each operation of the orchestrator does to the rows when it
succeeds: which rows it found, which rows the database admitted, and the
contents it leaves behind, every other table unchanged. Later files reason
about the operations through these statements alone.
-/

import InsuranceOps.Orchestrator

namespace InsuranceOps

open Relational

namespace Database

/-! ### Keys -/

theorem workflowRuns_distinct (db : Database) :
    (db.contents.workflowRuns.map fun row => row.workflowRunId).Nodup :=
  db.workflowRuns.distinct _ List.mem_cons_self

theorem steps_distinct (db : Database) : (db.contents.steps.map fun row => row.stepId).Nodup :=
  db.steps.distinct _ List.mem_cons_self

theorem stepAttempts_distinct (db : Database) :
    (db.contents.stepAttempts.map fun row => row.stepAttemptId).Nodup :=
  db.stepAttempts.distinct _ List.mem_cons_self

theorem escalationCases_distinct (db : Database) :
    (db.contents.escalationCases.map fun row => row.escalationId).Nodup :=
  db.escalationCases.distinct _ List.mem_cons_self

/-! ### Reads that only depend on the rows -/

theorem getWorkflowRun_eq (db : Database) (workflowRunId : UUID) :
    db.getWorkflowRun workflowRunId =
      db.contents.workflowRuns.find? fun row => row.workflowRunId = workflowRunId := rfl

theorem getEscalationCase_eq (db : Database) (escalationId : UUID) :
    db.getEscalationCase escalationId =
      db.contents.escalationCases.find? fun row => row.escalationId = escalationId := rfl

theorem listSteps_eq (db : Database) (workflowRunId : UUID) :
    db.listSteps workflowRunId =
      (db.contents.steps.filter fun row => row.workflowRunId = workflowRunId).insertionSort
        fun first second => first.stepIndex ≤ second.stepIndex := rfl

theorem listAttempts_eq (db : Database) (stepId : UUID) :
    db.listAttempts stepId =
      (db.contents.stepAttempts.filter fun row => row.stepId = stepId).insertionSort
        fun first second => second.stepAttemptNumber ≤ first.stepAttemptNumber := rfl

theorem getDocumentIds_congr {first second : Database}
    (same : first.contents.workflowRunDocuments = second.contents.workflowRunDocuments) :
    first.getDocumentIds = second.getDocumentIds := by
  funext workflowRunId
  exact congrArg (fun rows : List WorkflowRunDocumentModel =>
    (rows.filter fun row => row.workflowRunId = workflowRunId).map
      fun row => row.documentId.str) same

theorem mem_listSteps {db : Database} {workflowRunId : UUID} {step : StepModel} :
    step ∈ db.listSteps workflowRunId ↔
      step ∈ db.contents.steps ∧ step.workflowRunId = workflowRunId := by
  rw [listSteps_eq, List.mem_insertionSort, List.mem_filter, decide_eq_true_eq]

/-- An update of the steps that keeps their run and index updates the listed steps. -/
theorem listSteps_updateRows {first second : Database} {selects : StepModel → Bool}
    {change : StepModel → StepModel}
    (updated : second.contents.steps = updateRows selects change first.contents.steps)
    (keeps : ∀ row, (change row).workflowRunId = row.workflowRunId ∧
      (change row).stepIndex = row.stepIndex)
    (workflowRunId : UUID) :
    second.listSteps workflowRunId = updateRows selects change (first.listSteps workflowRunId) := by
  have run (row : StepModel) : decide ((change row).workflowRunId = workflowRunId) =
      decide (row.workflowRunId = workflowRunId) := by
    rw [(keeps row).1]
  have index (row : StepModel) :
      (if selects row then change row else row).stepIndex = row.stepIndex := by
    split
    · exact (keeps row).2
    · rfl
  rw [listSteps_eq, listSteps_eq, updated, filter_updateRows selects change _ run]
  exact (List.map_insertionSort _ _ _ _ fun one _ other _ => by rw [index one, index other]).symm

/-- An update of the runs that keeps their identifiers updates the run looked up. -/
theorem getWorkflowRun_updateRows {first second : Database} {selects : WorkflowRunModel → Bool}
    {change : WorkflowRunModel → WorkflowRunModel}
    (updated : second.contents.workflowRuns =
      updateRows selects change first.contents.workflowRuns)
    (keeps : ∀ row, (change row).workflowRunId = row.workflowRunId) (workflowRunId : UUID) :
    second.getWorkflowRun workflowRunId = (first.getWorkflowRun workflowRunId).map
      fun row => if selects row then change row else row := by
  rw [getWorkflowRun_eq, getWorkflowRun_eq, updated]
  exact find?_updateRows (fun row => row.workflowRunId) selects change keeps _ workflowRunId

theorem getWorkflowRun_identified {db : Database} {workflowRunId : UUID} {run : WorkflowRunModel}
    (found : db.getWorkflowRun workflowRunId = some run) : run.workflowRunId = workflowRunId :=
  (mem_of_find? (fun row : WorkflowRunModel => row.workflowRunId) found).2

theorem getWorkflowRun_updated {first second : Database} {workflowRunId : UUID}
    {run : WorkflowRunModel} (change : WorkflowRunModel → WorkflowRunModel)
    (updated : second.contents.workflowRuns =
      updateRows (fun row => row.workflowRunId = workflowRunId) change first.contents.workflowRuns)
    (keeps : ∀ row, (change row).workflowRunId = row.workflowRunId)
    (found : first.getWorkflowRun workflowRunId = some run) :
    second.getWorkflowRun workflowRunId = some (change run) := by
  rw [getWorkflowRun_updateRows updated keeps, found, Option.map_some,
    if_pos (decide_eq_true (getWorkflowRun_identified found))]

theorem hasStep_congr {first second : Database}
    (same : first.contents.steps.map (fun row => row.stepId) =
      second.contents.steps.map fun row => row.stepId) : first.hasStep = second.hasStep := by
  funext stepId
  have read (db : Database) : db.hasStep stepId =
      (db.contents.steps.map fun row => row.stepId).any fun id => id = stepId := by
    rw [List.any_map]
    rfl
  rw [read, read, same]

/-- Updating a step keeps the steps there are. -/
theorem hasStep_updateStep (db : Database) (stepId : UUID) (change : StepModel → StepModel)
    (keeps : ∀ row, (change row).stepId = row.stepId ∧
      (change row).workflowRunId = row.workflowRunId ∧ (change row).stepIndex = row.stepIndex ∧
      (change row).stepName = row.stepName) :
    (db.updateStep stepId change keeps).hasStep = db.hasStep :=
  hasStep_congr (updateRows_map _ change _ (fun row => (keeps row).1) _)

theorem hasStep_iff {db : Database} {stepId : UUID} :
    db.hasStep stepId = true ↔ ∃ row ∈ db.contents.steps, row.stepId = stepId := by
  rw [hasStep, List.any_eq_true]
  simp only [decide_eq_true_eq]
  exact Iff.rfl

end Database

/-- The payload of a task names the run, the step and the attempt of its row. -/
structure TasksOutboxModel.Addressed (task : TasksOutboxModel) : Prop where
  run : task.payload.get? "workflow_run_id" = some (.ofId task.workflowRunId)
  step : task.payload.get? "step_id" = some (.ofId task.stepId)
  attempt : task.payload.get? "step_attempt_id" = some (.ofId task.stepAttemptId)

namespace WorkflowOrchestrator

variable {registry : WorkflowRegistry} {db next : Database} {draws : Draws}
  {state : WorkflowRunState} {workflowRun : WorkflowRunModel} {steps : List StepModel}
  {currentStep : StepModel} {stepResult : StepResult} {reasonCode : String} {now : Timestamp}
  {newId : UUID} {random : UnitDraw} {event : EventDraw}

theorem taskPayload_congr {first second : Database}
    (same : first.contents.workflowRunDocuments = second.contents.workflowRunDocuments) :
    taskPayload registry first = taskPayload registry second := by
  funext workflowRun step stepAttemptId
  rw [taskPayload, taskPayload, Database.getDocumentIds_congr same]

/-! ### Starting a run -/

theorem insertDocuments_ok {rows : List WorkflowRunDocumentModel}
    (inserted : insertDocuments db rows = .ok next) :
    next.contents = { db.contents with
      workflowRunDocuments := db.contents.workflowRunDocuments ++ rows } := by
  refine Fallible.foldlM_ok (fun done reached => reached.contents = { db.contents with
    workflowRunDocuments := db.contents.workflowRunDocuments ++ done }) ?_ ?_ inserted
  · intro done reached row following holds stored
    rw [(Database.insertWorkflowRunDocument_ok stored).2, holds, List.append_assoc]
  · rw [List.append_nil]

/-- Only stored documents are attached. -/
theorem insertDocuments_stored {rows : List WorkflowRunDocumentModel}
    (inserted : insertDocuments db rows = .ok next) :
    ∀ row ∈ rows, row.documentId ∈ db.contents.documents := by
  refine (Fallible.foldlM_ok (fun done reached => (∀ row ∈ done, row.documentId ∈
    db.contents.documents) ∧ reached.contents.documents = db.contents.documents) ?_
    ⟨List.forall_mem_nil _, rfl⟩ inserted).1
  intro done reached row following holds stored
  obtain ⟨attached, contents⟩ := Database.insertWorkflowRunDocument_ok stored
  refine ⟨List.forall_mem_append.mpr ⟨holds.1, List.forall_mem_singleton.mpr ?_⟩, ?_⟩
  · exact holds.2 ▸ attached
  · rw [contents]
    exact holds.2

/-- A successful insert of several steps appends them all, each admitted in its turn. -/
theorem insertSteps_admitted {rows : List StepModel} (inserted : insertSteps db rows = .ok next) :
    next.contents = { db.contents with steps := db.contents.steps ++ rows } ∧
      ∀ row ∈ rows, ∃ before, Database.StepAdmitted before row := by
  refine Fallible.foldlM_ok (fun done reached =>
    reached.contents = { db.contents with steps := db.contents.steps ++ done } ∧
      ∀ row ∈ done, ∃ before, Database.StepAdmitted before row) ?_ ?_ inserted
  · rintro done reached row following ⟨holds, admitted⟩ stored
    obtain ⟨admits, contents⟩ := Database.insertStep_ok stored
    refine ⟨by rw [contents, holds, List.append_assoc], List.forall_mem_append.mpr ⟨admitted, ?_⟩⟩
    exact List.forall_mem_singleton.mpr ⟨reached, admits⟩
  · exact ⟨by rw [List.append_nil], List.forall_mem_nil _⟩

/-- The steps that are inserted are within the allowed ranges. -/
theorem insertSteps_ok {rows : List StepModel} (inserted : insertSteps db rows = .ok next) :
    next.contents = { db.contents with steps := db.contents.steps ++ rows } ∧
      ∀ row ∈ rows, 0 ≤ row.stepIndex ∧ 1 ≤ row.maxAttempts ∧ row.maxAttempts ≤ 10 := by
  obtain ⟨contents, admitted⟩ := insertSteps_admitted inserted
  refine ⟨contents, fun row member => ?_⟩
  obtain ⟨before, admits⟩ := admitted row member
  exact ⟨admits.index.1, admits.attempts⟩

theorem stepRows_mem {definition : WorkflowDefinition} {workflowRunId : UUID} {now : Timestamp}
    {stepId : Nat → UUID} {row : StepModel}
    (member : row ∈ stepRows definition workflowRunId now stepId) :
    row.workflowRunId = workflowRunId ∧ row.state = .queued := by
  obtain ⟨index, bound, rfl⟩ := List.mem_mapIdx.mp member
  exact ⟨rfl, rfl⟩

theorem firstStep_eq_some {rows : List StepModel} {definition : WorkflowDefinition}
    {first : StepModel} {firstDefinition : StepDefinition}
    (found : firstStep rows definition = some (first, firstDefinition)) :
    rows.head? = some first ∧ definition.steps.head? = some firstDefinition := by
  unfold firstStep at found
  split at found
  · rename_i row rest step others rowsShape stepsShape
    cases found
    exact ⟨rfl, by rw [stepsShape]; rfl⟩
  · cases found

/-- New steps carry identifiers no stored step has. -/
theorem step_fresh {rows : List StepModel}
    (inserted : next.contents.steps = db.contents.steps ++ rows) {step : StepModel}
    (member : step ∈ rows) : db.hasStep step.stepId = false := by
  rw [Bool.eq_false_iff, ne_eq, Database.hasStep_iff]
  rintro ⟨other, stored, same⟩
  have distinct := next.steps.distinct _ List.mem_cons_self
  rw [show next.steps.rows = db.contents.steps ++ rows from inserted, List.map_append,
    List.nodup_append] at distinct
  exact distinct.2.2 _ (List.mem_map_of_mem stored) _ (List.mem_map_of_mem member) same

/-- The rows a start writes. -/
structure NewRun where
  definition : WorkflowDefinition
  run : WorkflowRunModel
  documents : List WorkflowRunDocumentModel
  steps : List StepModel
  first : StepModel
  attempt : StepAttemptModel
  task : TasksOutboxModel
  call : AppendCall
  draw : EventDraw

/-- A start of a run committed: the rows it wrote and what holds of them. -/
structure Started (db next : Database) (new : NewRun) : Prop where
  fresh : ∀ other ∈ db.contents.workflowRuns, other.workflowRunId ≠ new.run.workflowRunId
  contents : next.contents = { db.contents with
    workflowRuns := db.contents.workflowRuns ++ [new.run]
    workflowRunDocuments := db.contents.workflowRunDocuments ++ new.documents
    steps := db.contents.steps ++ new.steps
    stepAttempts := db.contents.stepAttempts ++ [new.attempt]
    tasksOutbox := db.contents.tasksOutbox ++ [new.task]
    outboxSequence := db.contents.outboxSequence + 1
    auditEvents := appendAuditEvent db.contents.auditEvents new.call new.draw }
  attached : ∀ row ∈ new.documents, row.documentId ∈ db.contents.documents
  unknown : ∀ step ∈ new.steps, db.hasStep step.stepId = false
  ranges : ∀ step ∈ new.steps, 0 ≤ step.stepIndex ∧ 1 ≤ step.maxAttempts ∧ step.maxAttempts ≤ 10
  identified : ∀ other ∈ db.contents.stepAttempts,
    other.stepAttemptId ≠ new.attempt.stepAttemptId
  first : new.steps.head? = some new.first
  rows : ∃ now stepId, new.steps = stepRows new.definition new.run.workflowRunId now stepId
  running : new.run.state = .running
  current : new.run.currentStepId = some new.first.stepId
  attempt : ∃ attemptId scheduledFor now,
    new.attempt = queuedAttempt attemptId new.first.stepId 1 scheduledFor now
  pending : new.task.enqueuedAt = none
  addressed : new.task.Addressed
  task : new.task.workflowRunId = new.run.workflowRunId ∧ new.task.stepId = new.first.stepId ∧
    new.task.stepAttemptId = new.attempt.stepAttemptId

/-- The inserts a start makes, in their order, followed by a last change of the new run. -/
theorem started_of_inserts {created attached stepped attempted queued audited : Database}
    {definition : WorkflowDefinition} {pending : WorkflowRunModel}
    {documents : List WorkflowRunDocumentModel} {stepId : Nat → UUID} {first : StepModel}
    {firstDefinition : StepDefinition} {attemptId : UUID} {scheduledFor : Option Timestamp}
    {task : TasksOutboxModel} {call : AppendCall} {draw : EventDraw} {workflowRunId : UUID}
    {change : WorkflowRunModel → WorkflowRunModel} (last : WorkflowRunModel → WorkflowRunModel)
    (keeps : ∀ row, (change row).workflowRunId = row.workflowRunId)
    (identifier : pending.workflowRunId = workflowRunId)
    (runInserted : db.insertWorkflowRun pending = .ok created)
    (documentsInserted : insertDocuments created documents = .ok attached)
    (stepsInserted : insertSteps attached (stepRows definition workflowRunId now stepId) =
      .ok stepped)
    (firstFound : firstStep (stepRows definition workflowRunId now stepId) definition =
      some (first, firstDefinition))
    (attemptInserted : stepped.insertStepAttempt
      (queuedAttempt attemptId first.stepId 1 scheduledFor now) = .ok attempted)
    (enqueued : (attempted.updateWorkflowRun workflowRunId change keeps).insertTasksOutbox task =
      .ok queued)
    (appended : queued.appendAuditEvent call draw = .ok audited)
    (ended : next.contents = { audited.contents with
      workflowRuns := updateRows (fun row => row.workflowRunId = workflowRunId) last
        audited.contents.workflowRuns })
    (kept : (last (change pending)).workflowRunId = workflowRunId)
    (running : (last (change pending)).state = .running)
    (current : (last (change pending)).currentStepId = some first.stepId)
    (unsent : task.enqueuedAt = none) (addressed : task.Addressed)
    (about : task.workflowRunId = workflowRunId ∧ task.stepId = first.stepId ∧
      task.stepAttemptId = attemptId) :
    Started db next {
      definition := definition
      run := last (change pending)
      documents := documents
      steps := stepRows definition workflowRunId now stepId
      first := first
      attempt := queuedAttempt attemptId first.stepId 1 scheduledFor now
      task := { task with outboxId := db.contents.outboxSequence + 1 }
      call := call
      draw := draw } := by
  obtain ⟨fresh, createdContents⟩ := Database.insertWorkflowRun_ok runInserted
  have attachedContents := insertDocuments_ok documentsInserted
  obtain ⟨steppedContents, ranges⟩ := insertSteps_ok stepsInserted
  obtain ⟨admitted, attemptedContents⟩ := Database.insertStepAttempt_ok attemptInserted
  have steps : stepped.contents.steps =
      db.contents.steps ++ stepRows definition workflowRunId now stepId := by
    rw [steppedContents, attachedContents, createdContents]
  have attempts : stepped.contents.stepAttempts = db.contents.stepAttempts := by
    rw [steppedContents, attachedContents, createdContents]
  have unselected : ∀ other ∈ db.contents.workflowRuns,
      decide (other.workflowRunId = workflowRunId) = false :=
    fun other member => decide_eq_false (identifier ▸ fresh other member)
  have selected : decide ((change pending).workflowRunId = workflowRunId) = true :=
    decide_eq_true ((keeps pending).trans identifier)
  exact {
    fresh := fun other member => by
      rw [kept, ← identifier]
      exact fresh other member
    contents := by
      simp only [ended, Database.appendAuditEvent_ok appended,
        Database.insertTasksOutbox_ok enqueued, Database.contents_updateWorkflowRun,
        attemptedContents, steppedContents, attachedContents, createdContents]
      rw [updateRows_concat _ _ _ _ unselected (decide_eq_true identifier),
        updateRows_concat _ _ _ _ unselected selected]
    attached := fun row member => by
      have stored := insertDocuments_stored documentsInserted row member
      rwa [createdContents] at stored
    unknown := fun step member => step_fresh steps member
    ranges := ranges
    identified := attempts ▸ admitted.identified
    first := (firstStep_eq_some firstFound).1
    rows := ⟨now, stepId, by rw [kept]⟩
    running := running
    current := current
    attempt := ⟨attemptId, scheduledFor, now, rfl⟩
    pending := unsent
    addressed := ⟨addressed.run, addressed.step, addressed.attempt⟩
    task := ⟨about.1.trans kept.symm, about.2⟩ }

/-- The new run is one of its definition, and its first task and its event are about it. -/
structure NewRun.Described (registry : WorkflowRegistry) (new : NewRun) : Prop where
  registered : registry.get new.run.workflowName new.run.workflowVersion = some new.definition
  version : new.run.version = 1
  documents : ∀ row ∈ new.documents, row.workflowRunId = new.run.workflowRunId
  stepName : new.task.payload.get? "step_name" = some (.string new.first.stepName)
  handler : new.task.payload.get? "handler_name" =
    some (.string (handlerNameFor (some new.definition) new.first.stepName))
  taskDocuments : new.task.payload.get? "document_ids" =
    some (.ofTexts (new.documents.map fun row => row.documentId.str))
  scheduled : ∀ time, new.attempt.scheduledFor = some time → new.task.scheduledFor = time
  about : new.call.workflowRunId = new.run.workflowRunId
  started : new.call.eventType = "workflow_run.started"

/-- The handler of the first task is the one its definition gives to the first step. -/
theorem handlerNameFor_first {definition : WorkflowDefinition} {workflowRunId : UUID}
    {stepId : Nat → UUID} {first : StepModel} {firstDefinition : StepDefinition}
    (found : firstStep (stepRows definition workflowRunId now stepId) definition =
      some (first, firstDefinition)) :
    handlerNameFor (some definition) first.stepName = firstDefinition.handlerName := by
  obtain ⟨rowFirst, definitionFirst⟩ := firstStep_eq_some found
  obtain ⟨rest, listed⟩ := List.head?_eq_some_iff.mp definitionFirst
  have named : first.stepName = firstDefinition.stepName := by
    rw [stepRows, listed, List.mapIdx_cons, List.head?_cons, Option.some.injEq] at rowFirst
    rw [← rowFirst]
  rw [handlerNameFor, Option.bind_some, listed, named, List.find?_cons_of_pos (by simp)]

theorem documentRows_texts (workflowRunId : UUID) (documentIds : List UUID) :
    (documentRows workflowRunId documentIds now).map (fun row => row.documentId.str) =
      documentIds.map UUID.str := by
  rw [documentRows, List.map_map]
  rfl

theorem documentRows_run {workflowRunId : UUID} {documentIds : List UUID} :
    ∀ row ∈ documentRows workflowRunId documentIds now, row.workflowRunId = workflowRunId := by
  intro row member
  obtain ⟨documentId, -, rfl⟩ := List.mem_map.mp member
  rfl

/-- A start writes a new run, and its task and event describe that run. -/
theorem startWorkflowRun_writes {workflowName workflowVersion : String} {documentIds : List UUID}
    {actor correlationId : String} {deadlineSeconds : Option Int} {workflowRunId : UUID}
    (ran : startWorkflowRun registry db draws workflowName workflowVersion documentIds actor
      correlationId deadlineSeconds = .ok (next, workflowRunId)) :
    ∃ new, Started db next new ∧ new.Described registry ∧
      new.run.workflowRunId = workflowRunId ∧
      registry.get workflowName workflowVersion = some new.definition := by
  obtain ⟨definition, found, ran⟩ := Fallible.bind_eq_ok.mp ran
  obtain ⟨deadlineAt, -, ran⟩ := Fallible.bind_eq_ok.mp ran
  obtain ⟨created, runInserted, ran⟩ := Fallible.bind_eq_ok.mp ran
  obtain ⟨attached, documentsInserted, ran⟩ := Fallible.bind_eq_ok.mp ran
  obtain ⟨stepped, stepsInserted, ran⟩ := Fallible.bind_eq_ok.mp ran
  obtain ⟨⟨first, firstDefinition⟩, firstFound, ran⟩ := Fallible.bind_eq_ok.mp ran
  obtain ⟨attempted, attemptInserted, ran⟩ := Fallible.bind_eq_ok.mp ran
  obtain ⟨queued, enqueued, ran⟩ := Fallible.bind_eq_ok.mp ran
  obtain ⟨audited, appended, done⟩ := Fallible.bind_eq_ok.mp ran
  cases done
  have started := started_of_inserts (WorkflowRunModel.start (draws.now 2)) _ rfl runInserted
    documentsInserted stepsInserted (orRaise_ok.mp firstFound) attemptInserted enqueued appended
    (Database.contents_updateWorkflowRun audited (draws.uuid4 0)
      (WorkflowRunModel.start (draws.now 2)) fun _ => rfl) rfl rfl rfl rfl ⟨rfl, rfl, rfl⟩
    ⟨rfl, rfl, rfl⟩
  have handler := handlerNameFor_first (orRaise_ok.mp firstFound)
  refine ⟨_, started, ⟨orRaise_ok.mp found, rfl, documentRows_run, rfl, ?_, ?_, nofun, rfl, rfl⟩,
    rfl, orRaise_ok.mp found⟩
  · rw [handler]
    rfl
  · rw [documentRows_texts]
    rfl

theorem startWorkflowRun_ok {workflowName workflowVersion : String} {documentIds : List UUID}
    {actor correlationId : String} {deadlineSeconds : Option Int} {workflowRunId : UUID}
    (ran : startWorkflowRun registry db draws workflowName workflowVersion documentIds actor
      correlationId deadlineSeconds = .ok (next, workflowRunId)) :
    ∃ new, Started db next new ∧ new.run.workflowRunId = workflowRunId ∧
      registry.get workflowName workflowVersion = some new.definition := by
  obtain ⟨new, started, -, written⟩ := startWorkflowRun_writes ran
  exact ⟨new, started, written⟩

/-! ### The outcomes of a step -/

theorem nextStep_mem {workflowRunId : UUID} {successor : StepModel}
    (found : nextStep (db.listSteps workflowRunId) currentStep = some successor) :
    successor ∈ db.contents.steps ∧ successor.workflowRunId = workflowRunId ∧
      successor.stepIndex = currentStep.stepIndex + 1 := by
  obtain ⟨listed, index⟩ := mem_of_find? (fun row : StepModel => row.stepIndex) found
  exact ⟨(Database.mem_listSteps.mp listed).1, (Database.mem_listSteps.mp listed).2, index⟩

/-- An update of the steps that keeps their run and index updates the step that follows. -/
theorem nextStep_updateRows {first second : Database} {selects : StepModel → Bool}
    {change : StepModel → StepModel}
    (updated : second.contents.steps = updateRows selects change first.contents.steps)
    (keeps : ∀ row, (change row).workflowRunId = row.workflowRunId ∧
      (change row).stepIndex = row.stepIndex)
    (workflowRunId : UUID) :
    nextStep (second.listSteps workflowRunId) currentStep =
      (nextStep (first.listSteps workflowRunId) currentStep).map
        fun row => if selects row then change row else row := by
  rw [Database.listSteps_updateRows updated keeps]
  exact find?_updateRows (fun row : StepModel => row.stepIndex) selects change
    (fun row => (keeps row).2) _ (currentStep.stepIndex + 1)

/-- A success completes the run when no step follows; else it schedules the first attempt of the
step that follows. -/
theorem handleSucceeded_ok
    (ran : handleSucceeded registry db workflowRun steps currentStep now newId event =
      .ok (next, state)) :
    (nextStep steps currentStep = none ∧ state = .completed ∧
      next.contents = { db.contents with
        steps := updateRows (fun row => row.stepId = currentStep.stepId)
          (StepModel.succeed now) db.contents.steps
        workflowRuns := updateRows (fun row => row.workflowRunId = workflowRun.workflowRunId)
          (WorkflowRunModel.complete now) db.contents.workflowRuns
        auditEvents := appendAuditEvent db.contents.auditEvents
          (completedEvent workflowRun.workflowRunId currentStep) event }) ∨
    ∃ successor, nextStep steps currentStep = some successor ∧ state = .running ∧
      Database.AttemptAdmitted db (queuedAttempt newId successor.stepId 1 none now) ∧
      next.contents = { db.contents with
        steps := updateRows (fun row => row.stepId = currentStep.stepId)
          (StepModel.succeed now) db.contents.steps
        stepAttempts := db.contents.stepAttempts ++
          [queuedAttempt newId successor.stepId 1 none now]
        workflowRuns := updateRows (fun row => row.workflowRunId = workflowRun.workflowRunId)
          (WorkflowRunModel.moveTo successor.stepId now) db.contents.workflowRuns
        tasksOutbox := db.contents.tasksOutbox ++ [{ outboxRow workflowRun.workflowRunId
          successor.stepId newId (taskPayload registry db workflowRun successor newId) now now with
            outboxId := db.contents.outboxSequence + 1 }]
        outboxSequence := db.contents.outboxSequence + 1
        auditEvents := appendAuditEvent db.contents.auditEvents
          (advancedEvent workflowRun.workflowRunId currentStep successor newId) event } := by
  unfold handleSucceeded at ran
  cases successor : nextStep steps currentStep with
  | none =>
    simp only [successor] at ran
    obtain ⟨audited, appended, done⟩ := Fallible.bind_eq_ok.mp ran
    cases done
    exact .inl ⟨rfl, rfl, Database.appendAuditEvent_ok appended⟩
  | some next =>
    simp only [successor] at ran
    obtain ⟨attempted, inserted, ran⟩ := Fallible.bind_eq_ok.mp ran
    obtain ⟨queued, enqueued, ran⟩ := Fallible.bind_eq_ok.mp ran
    obtain ⟨audited, appended, done⟩ := Fallible.bind_eq_ok.mp ran
    cases done
    obtain ⟨admitted, attemptedContents⟩ := Database.insertStepAttempt_ok inserted
    have payload : taskPayload registry (attempted.updateWorkflowRun workflowRun.workflowRunId
        (WorkflowRunModel.moveTo next.stepId now)) = taskPayload registry db :=
      taskPayload_congr (by simp only [Database.contents_updateWorkflowRun, attemptedContents,
        Database.contents_updateStep])
    refine .inr ⟨next, rfl, rfl, ⟨?_, admitted.number, admitted.identified, admitted.numbered⟩, ?_⟩
    · have step := admitted.step
      rwa [Database.hasStep_updateStep] at step
    · simp only [Database.appendAuditEvent_ok appended, Database.insertTasksOutbox_ok enqueued,
        Database.contents_updateWorkflowRun, attemptedContents, Database.contents_updateStep,
        payload]

/-- An escalation opens a case and puts the run in `awaiting_human`. -/
theorem createEscalation_ok
    (ran : createEscalation db workflowRun currentStep stepResult reasonCode now newId event =
      .ok (next, state)) :
    state = .awaitingHuman ∧
      Database.CaseAdmitted db (escalationRow newId workflowRun.workflowRunId currentStep.stepId
        stepResult reasonCode now) ∧
      next.contents = { db.contents with
        escalationCases := db.contents.escalationCases ++ [escalationRow newId
          workflowRun.workflowRunId currentStep.stepId stepResult reasonCode now]
        workflowRuns := updateRows (fun row => row.workflowRunId = workflowRun.workflowRunId)
          (WorkflowRunModel.awaitHuman stepResult now) db.contents.workflowRuns
        auditEvents := appendAuditEvent db.contents.auditEvents (escalationCreatedEvent
          workflowRun.workflowRunId currentStep newId reasonCode stepResult) event } := by
  obtain ⟨opened, inserted, ran⟩ := Fallible.bind_eq_ok.mp ran
  obtain ⟨audited, appended, done⟩ := Fallible.bind_eq_ok.mp ran
  cases done
  obtain ⟨admitted, openedContents⟩ := Database.insertEscalationCase_ok inserted
  refine ⟨rfl, admitted, ?_⟩
  simp only [Database.appendAuditEvent_ok appended, Database.contents_updateWorkflowRun,
    openedContents]

/-- A terminal failure escalates when the step asks for it; else it fails the run. -/
theorem handleFailedTerminal_ok
    (ran : handleFailedTerminal db workflowRun currentStep stepResult now newId event =
      .ok (next, state)) :
    (currentStep.escalateOnFailure = true ∧
      createEscalation (db.updateStep currentStep.stepId (StepModel.failTerminal now)) workflowRun
        currentStep stepResult (stepResult.reasonCode "STEP_FAILED_TERMINAL") now newId event =
          .ok (next, state)) ∨
    (currentStep.escalateOnFailure = false ∧ state = .failed ∧
      next.contents = { db.contents with
        steps := updateRows (fun row => row.stepId = currentStep.stepId)
          (StepModel.failTerminal now) db.contents.steps
        workflowRuns := updateRows (fun row => row.workflowRunId = workflowRun.workflowRunId)
          (WorkflowRunModel.fail stepResult now) db.contents.workflowRuns
        auditEvents := appendAuditEvent db.contents.auditEvents
          (failedEvent workflowRun.workflowRunId currentStep stepResult) event }) := by
  unfold handleFailedTerminal at ran
  cases escalates : currentStep.escalateOnFailure with
  | true =>
    rw [escalates, if_pos rfl] at ran
    exact .inl ⟨rfl, ran⟩
  | false =>
    rw [escalates, if_neg Bool.false_ne_true] at ran
    obtain ⟨audited, appended, done⟩ := Fallible.bind_eq_ok.mp ran
    cases done
    exact .inr ⟨rfl, rfl, Database.appendAuditEvent_ok appended⟩

/-- A retryable failure schedules one more attempt while the budget lasts; else it is terminal. -/
theorem handleFailedRetryable_ok
    (ran : handleFailedRetryable registry db workflowRun currentStep stepResult now newId random
      event = .ok (next, state)) :
    (((db.listAttempts currentStep.stepId).length : Int) < currentStep.maxAttempts ∧
      state = .running ∧
      let count := (db.listAttempts currentStep.stepId).length
      let delay := computeBackoffDelay currentStep.retryPolicy count random
      let attempt := queuedAttempt newId currentStep.stepId (count + 1) (some (now + delay)) now
      Database.AttemptAdmitted db attempt ∧
      next.contents = { db.contents with
        stepAttempts := db.contents.stepAttempts ++ [attempt]
        steps := updateRows (fun row => row.stepId = currentStep.stepId)
          StepModel.failRetryable db.contents.steps
        tasksOutbox := db.contents.tasksOutbox ++ [{ outboxRow workflowRun.workflowRunId
          currentStep.stepId newId (taskPayload registry db workflowRun currentStep newId)
          (now + delay) now with outboxId := db.contents.outboxSequence + 1 }]
        outboxSequence := db.contents.outboxSequence + 1
        auditEvents := appendAuditEvent db.contents.auditEvents
          (retryScheduledEvent workflowRun.workflowRunId currentStep (count + 1) delay stepResult
            newId) event }) ∨
    (currentStep.maxAttempts ≤ ((db.listAttempts currentStep.stepId).length : Int) ∧
      handleFailedTerminal db workflowRun currentStep stepResult now newId event =
        .ok (next, state)) := by
  unfold handleFailedRetryable at ran
  by_cases budget : ((db.listAttempts currentStep.stepId).length : Int) < currentStep.maxAttempts
  · simp only [if_pos budget] at ran
    obtain ⟨attempted, inserted, ran⟩ := Fallible.bind_eq_ok.mp ran
    obtain ⟨queued, enqueued, ran⟩ := Fallible.bind_eq_ok.mp ran
    obtain ⟨audited, appended, done⟩ := Fallible.bind_eq_ok.mp ran
    cases done
    obtain ⟨admitted, attemptedContents⟩ := Database.insertStepAttempt_ok inserted
    have payload : taskPayload registry (attempted.updateStep currentStep.stepId
        StepModel.failRetryable) = taskPayload registry db :=
      taskPayload_congr (by simp only [Database.contents_updateStep, attemptedContents])
    refine .inl ⟨budget, rfl, admitted, ?_⟩
    simp only [Database.appendAuditEvent_ok appended, Database.insertTasksOutbox_ok enqueued,
      Database.contents_updateStep, attemptedContents, payload]
  · simp only [if_neg budget] at ran
    exact .inr ⟨not_lt.mp budget, ran⟩

/-- Advancing looks up the run and the step and handles the step's outcome. -/
theorem advanceWorkflow_ok {workflowRunId : UUID} {completedStepName : String}
    (ran : advanceWorkflow registry db draws workflowRunId completedStepName stepResult =
      .ok (next, state)) :
    ∃ workflowRun currentStep,
      db.getWorkflowRun workflowRunId = some workflowRun ∧
      db.getStepByRunAndName workflowRunId completedStepName = some currentStep ∧
      match stepResult.status with
      | .succeeded => handleSucceeded registry db workflowRun (db.listSteps workflowRunId)
          currentStep (draws.now 0) (draws.uuid4 0) (draws.event 0 1) = .ok (next, state)
      | .failedRetryable => handleFailedRetryable registry db workflowRun currentStep stepResult
          (draws.now 0) (draws.uuid4 0) draws.random (draws.event 0 1) = .ok (next, state)
      | .failedTerminal => handleFailedTerminal db workflowRun currentStep stepResult
          (draws.now 0) (draws.uuid4 0) (draws.event 0 1) = .ok (next, state)
      | .escalate => createEscalation db workflowRun currentStep stepResult
          (stepResult.reasonCode "STEP_ESCALATED") (draws.now 0) (draws.uuid4 0)
          (draws.event 0 1) = .ok (next, state) := by
  obtain ⟨workflowRun, found, ran⟩ := Fallible.bind_eq_ok.mp ran
  obtain ⟨currentStep, named, ran⟩ := Fallible.bind_eq_ok.mp ran
  refine ⟨workflowRun, currentStep, orRaise_ok.mp found, orRaise_ok.mp named, ?_⟩
  cases status : stepResult.status <;> rw [status] at ran <;> exact ran

/-! ### Resuming and cancelling -/

/-- Resuming resolves the case, adds a human attempt, marks the step succeeded and the run
running, and then handles the step as succeeded. -/
theorem resumeAfterEscalation_ok {escalationId : UUID} {resolutionPayload : JsonObject}
    {actor : String}
    (ran : resumeAfterEscalation registry db draws escalationId resolutionPayload actor =
      .ok (next, state)) :
    ∃ escalation currentStep workflowRun,
      db.getEscalationCase escalationId = some escalation ∧
      db.getStep escalation.stepId = some currentStep ∧
      db.getWorkflowRun escalation.workflowRunId = some workflowRun ∧
      let attempt := humanAttempt (draws.uuid4 0) currentStep.stepId
        ((db.listAttempts currentStep.stepId).length + 1) (draws.now 0)
      Database.AttemptAdmitted db attempt ∧
      ∃ resumed : Database,
        resumed.contents = { db.contents with
          escalationCases := updateRows (fun row => row.escalationId = escalationId)
            (EscalationCaseModel.decide .resolved actor resolutionPayload (draws.now 0))
            db.contents.escalationCases
          stepAttempts := db.contents.stepAttempts ++ [attempt]
          steps := updateRows (fun row => row.stepId = currentStep.stepId)
            (StepModel.succeed (draws.now 0)) db.contents.steps
          workflowRuns := updateRows (fun row => row.workflowRunId = workflowRun.workflowRunId)
            (WorkflowRunModel.resume (draws.now 0)) db.contents.workflowRuns
          auditEvents := appendAuditEvent db.contents.auditEvents
            (resolvedEvent workflowRun.workflowRunId currentStep escalationId resolutionPayload
              actor (draws.uuid4 0)) (draws.event 0 1) } ∧
        handleSucceeded registry resumed workflowRun (resumed.listSteps workflowRun.workflowRunId)
          currentStep (draws.now 0) (draws.uuid4 1) (draws.event 1 2) = .ok (next, state) := by
  obtain ⟨escalation, foundCase, ran⟩ := Fallible.bind_eq_ok.mp ran
  obtain ⟨currentStep, foundStep, ran⟩ := Fallible.bind_eq_ok.mp ran
  obtain ⟨workflowRun, foundRun, ran⟩ := Fallible.bind_eq_ok.mp ran
  obtain ⟨attempted, inserted, ran⟩ := Fallible.bind_eq_ok.mp ran
  obtain ⟨resumed, appended, ran⟩ := Fallible.bind_eq_ok.mp ran
  obtain ⟨admitted, attemptedContents⟩ := Database.insertStepAttempt_ok inserted
  refine ⟨escalation, currentStep, workflowRun, orRaise_ok.mp foundCase, orRaise_ok.mp foundStep,
    orRaise_ok.mp foundRun, ⟨admitted.step, admitted.number, admitted.identified,
      admitted.numbered⟩, resumed, ?_, ran⟩
  simp only [Database.appendAuditEvent_ok appended, Database.contents_updateWorkflowRun,
    Database.contents_updateStep, attemptedContents, Database.contents_updateEscalationCase]
  rfl

/-- Cancelling needs a running or waiting run and marks it cancelled. -/
theorem cancelWorkflow_ok {workflowRunId : UUID} {actor : String} {reason : Option String}
    (ran : cancelWorkflow db draws workflowRunId actor reason = .ok next) :
    ∃ workflowRun, db.getWorkflowRun workflowRunId = some workflowRun ∧
      cancellable workflowRun.state = true ∧
      next.contents = { db.contents with
        workflowRuns := updateRows (fun row => row.workflowRunId = workflowRunId)
          (WorkflowRunModel.cancel (draws.now 0)) db.contents.workflowRuns
        auditEvents := appendAuditEvent db.contents.auditEvents
          (cancelledEvent workflowRunId actor reason workflowRun.state) (draws.event 0 1) } := by
  obtain ⟨workflowRun, found, ran⟩ := Fallible.bind_eq_ok.mp ran
  refine ⟨workflowRun, orRaise_ok.mp found, ?_⟩
  by_cases can : cancellable workflowRun.state = true
  · rw [if_pos can] at ran
    exact ⟨can, Database.appendAuditEvent_ok ran⟩
  · rw [if_neg can] at ran
    cases ran

end WorkflowOrchestrator

end InsuranceOps
