/-
This file settles that every scheduled attempt is dispatched exactly once. A
start, a success and a retry each write an attempt and an outbox row that agree
on the run, the step, the handler, the documents and the time; a human
resolution writes an attempt without a row, and no other operation writes
either. So after every sequence of operations each system attempt has one row.
-/

import InsuranceOps.Operations

namespace InsuranceOps

open Relational WorkflowOrchestrator

/-! ### Attempts and their outbox rows -/

/-- The step a run's definition gives this name. -/
def definedStep (registry : WorkflowRegistry) (run : WorkflowRunModel) (stepName : String) :
    Option StepDefinition :=
  (registry.get run.workflowName run.workflowVersion).bind fun definition =>
    definition.steps.find? fun step => step.stepName = stepName

/-- The outbox rows of an attempt. -/
def tasksOf (rows : Contents) (stepAttemptId : UUID) : List TasksOutboxModel :=
  rows.tasksOutbox.filter fun task => task.stepAttemptId = stepAttemptId

/-- An outbox row and its payload agree with the attempt: on the identifiers, on the name and the
handler of the step, on the documents of the run and, for a retry, on the time. -/
structure Dispatches (registry : WorkflowRegistry) (rows : Contents) (task : TasksOutboxModel)
    (attempt : StepAttemptModel) : Prop where
  ofAttempt : task.stepAttemptId = attempt.stepAttemptId
  ofStep : task.stepId = attempt.stepId
  addressed : task.Addressed
  described : ∃ step ∈ rows.steps, step.stepId = task.stepId ∧
    step.workflowRunId = task.workflowRunId ∧
    task.payload.get? "step_name" = some (.string step.stepName) ∧
    ∃ run ∈ rows.workflowRuns, run.workflowRunId = task.workflowRunId ∧
      ∃ definition, definedStep registry run step.stepName = some definition ∧
        task.payload.get? "handler_name" = some (.string definition.handlerName)
  documents : ∃ texts, task.payload.get? "document_ids" = some (.ofTexts texts) ∧
    ∀ text, text ∈ texts ↔ ∃ row ∈ rows.workflowRunDocuments,
      row.workflowRunId = task.workflowRunId ∧ row.documentId.str = text
  scheduled : ∀ time, attempt.scheduledFor = some time → task.scheduledFor = time
  retried : 1 < attempt.stepAttemptNumber → attempt.scheduledFor = some task.scheduledFor

/-- Every system attempt has exactly one outbox row, which agrees with it, and no other attempt has
one. Every step is one its run's definition names, and rows refer to stored runs and attempts. -/
structure Dispatched (registry : WorkflowRegistry) (rows : Contents) : Prop where
  defined : ∀ step ∈ rows.steps, ∃ run ∈ rows.workflowRuns,
    run.workflowRunId = step.workflowRunId ∧
      ∃ definition, definedStep registry run step.stepName = some definition
  attached : ∀ row ∈ rows.workflowRunDocuments, ∃ run ∈ rows.workflowRuns,
    run.workflowRunId = row.workflowRunId
  known : ∀ task ∈ rows.tasksOutbox, ∃ attempt ∈ rows.stepAttempts,
    attempt.stepAttemptId = task.stepAttemptId
  system : ∀ attempt ∈ rows.stepAttempts, attempt.origin = .system →
    ∃ task, tasksOf rows attempt.stepAttemptId = [task] ∧ Dispatches registry rows task attempt
  others : ∀ attempt ∈ rows.stepAttempts, attempt.origin ≠ .system →
    tasksOf rows attempt.stepAttemptId = []

variable {registry : WorkflowRegistry} {first second : Contents}

theorem dispatched_empty (documents : List UUID) :
    Dispatched registry (Database.empty documents).contents where
  defined _ stored := absurd stored List.not_mem_nil
  attached _ stored := absurd stored List.not_mem_nil
  known _ stored := absurd stored List.not_mem_nil
  system _ stored := absurd stored List.not_mem_nil
  others _ stored := absurd stored List.not_mem_nil

/-! ### Names that are kept -/

/-- Steps and runs are kept with their names, and stored runs keep their documents. -/
structure NamesKept (first second : Contents) : Prop where
  steps : ∀ step ∈ first.steps, ∃ later ∈ second.steps, later.stepId = step.stepId ∧
    later.workflowRunId = step.workflowRunId ∧ later.stepName = step.stepName
  runs : ∀ run ∈ first.workflowRuns, ∃ later ∈ second.workflowRuns,
    later.workflowRunId = run.workflowRunId ∧ later.workflowName = run.workflowName ∧
      later.workflowVersion = run.workflowVersion
  documents : ∀ run ∈ first.workflowRuns, ∀ row : WorkflowRunDocumentModel,
    row.workflowRunId = run.workflowRunId →
      (row ∈ second.workflowRunDocuments ↔ row ∈ first.workflowRunDocuments)

theorem definedStep_congr {run other : WorkflowRunModel}
    (name : other.workflowName = run.workflowName)
    (version : other.workflowVersion = run.workflowVersion) (stepName : String) :
    definedStep registry other stepName = definedStep registry run stepName := by
  rw [definedStep, definedStep, name, version]

theorem Dispatches.mono {task : TasksOutboxModel} {attempt : StepAttemptModel}
    (kept : NamesKept first second) (dispatches : Dispatches registry first task attempt) :
    Dispatches registry second task attempt := by
  obtain ⟨step, stepStored, stepId, ofRun, stepName, run, runStored, runId, definition, defined,
    handler⟩ := dispatches.described
  obtain ⟨laterStep, laterStepStored, sameStep, sameRun, sameName⟩ := kept.steps step stepStored
  obtain ⟨laterRun, laterRunStored, sameId, name, version⟩ := kept.runs run runStored
  obtain ⟨texts, listed, documents⟩ := dispatches.documents
  refine { dispatches with
    described := ⟨laterStep, laterStepStored, sameStep.trans stepId, sameRun.trans ofRun, ?_,
      laterRun, laterRunStored, sameId.trans runId, definition, ?_, handler⟩
    documents := ⟨texts, listed, fun text => (documents text).trans ?_⟩ }
  · rw [sameName]
    exact stepName
  · rw [sameName, definedStep_congr name version]
    exact defined
  · refine exists_congr fun row => ?_
    constructor
    · rintro ⟨stored, of, same⟩
      exact ⟨(kept.documents run runStored row (of.trans runId.symm)).mpr stored, of, same⟩
    · rintro ⟨stored, of, same⟩
      exact ⟨(kept.documents run runStored row (of.trans runId.symm)).mp stored, of, same⟩

/-- Steps and runs were updated in columns other than their names. -/
structure Revised (first second : Contents) : Prop where
  steps : ∃ (selects : StepModel → Bool) (change : StepModel → StepModel),
    second.steps = updateRows selects change first.steps ∧
    ∀ row, (change row).stepId = row.stepId ∧ (change row).workflowRunId = row.workflowRunId ∧
      (change row).stepName = row.stepName
  runs : ∃ (selects : WorkflowRunModel → Bool) (change : WorkflowRunModel → WorkflowRunModel),
    second.workflowRuns = updateRows selects change first.workflowRuns ∧
    ∀ row, (change row).workflowRunId = row.workflowRunId ∧
      (change row).workflowName = row.workflowName ∧
      (change row).workflowVersion = row.workflowVersion
  documents : second.workflowRunDocuments = first.workflowRunDocuments

theorem unrevised_steps (rows : List StepModel) :
    ∃ (selects : StepModel → Bool) (change : StepModel → StepModel),
      rows = updateRows selects change rows ∧ ∀ row, (change row).stepId = row.stepId ∧
        (change row).workflowRunId = row.workflowRunId ∧ (change row).stepName = row.stepName :=
  ⟨fun _ => false, id, (updateRows_id _ rows).symm, fun _ => ⟨rfl, rfl, rfl⟩⟩

theorem unrevised_runs (rows : List WorkflowRunModel) :
    ∃ (selects : WorkflowRunModel → Bool) (change : WorkflowRunModel → WorkflowRunModel),
      rows = updateRows selects change rows ∧
        ∀ row, (change row).workflowRunId = row.workflowRunId ∧
          (change row).workflowName = row.workflowName ∧
          (change row).workflowVersion = row.workflowVersion :=
  ⟨fun _ => false, id, (updateRows_id _ rows).symm, fun _ => ⟨rfl, rfl, rfl⟩⟩

theorem Revised.namesKept (revised : Revised first second) : NamesKept first second where
  steps step stored := by
    obtain ⟨selects, change, updated, keeps⟩ := revised.steps
    refine ⟨_, updated ▸ mem_updateRows.mpr ⟨step, stored, rfl⟩, ?_⟩
    split
    · exact keeps step
    · exact ⟨rfl, rfl, rfl⟩
  runs run stored := by
    obtain ⟨selects, change, updated, keeps⟩ := revised.runs
    refine ⟨_, updated ▸ mem_updateRows.mpr ⟨run, stored, rfl⟩, ?_⟩
    split
    · exact keeps run
    · exact ⟨rfl, rfl, rfl⟩
  documents run _ row _ := by rw [revised.documents]

theorem Revised.defined (revised : Revised first second) (dispatched : Dispatched registry first) :
    ∀ step ∈ second.steps, ∃ run ∈ second.workflowRuns, run.workflowRunId = step.workflowRunId ∧
      ∃ definition, definedStep registry run step.stepName = some definition := by
  obtain ⟨selects, change, updated, keeps⟩ := revised.steps
  intro step stored
  rw [updated] at stored
  obtain ⟨old, oldStored, rfl⟩ := mem_updateRows.mp stored
  obtain ⟨run, runStored, ofRun, definition, defined⟩ := dispatched.defined old oldStored
  obtain ⟨later, laterStored, sameId, name, version⟩ := revised.namesKept.runs run runStored
  refine ⟨later, laterStored, ?_, definition, ?_⟩
  · rw [sameId, ofRun]
    split
    · exact (keeps old).2.1.symm
    · rfl
  · rw [definedStep_congr name version, ← defined]
    split
    · rw [(keeps old).2.2]
    · rfl

theorem Revised.attached (revised : Revised first second)
    (dispatched : Dispatched registry first) :
    ∀ row ∈ second.workflowRunDocuments, ∃ run ∈ second.workflowRuns,
      run.workflowRunId = row.workflowRunId := by
  intro row stored
  rw [revised.documents] at stored
  obtain ⟨run, runStored, ofRun⟩ := dispatched.attached row stored
  obtain ⟨later, laterStored, same, -⟩ := revised.namesKept.runs run runStored
  exact ⟨later, laterStored, same.trans ofRun⟩

/-! ### What each write keeps -/

/-- Neither attempts nor outbox rows were written. -/
theorem Dispatched.revise (dispatched : Dispatched registry first)
    (revised : Revised first second) (attempts : second.stepAttempts = first.stepAttempts)
    (tasks : second.tasksOutbox = first.tasksOutbox) : Dispatched registry second where
  defined := revised.defined dispatched
  attached := revised.attached dispatched
  known := by
    rw [attempts, tasks]
    exact dispatched.known
  system attempt stored isSystem := by
    rw [attempts] at stored
    obtain ⟨task, only, dispatches⟩ := dispatched.system attempt stored isSystem
    refine ⟨task, ?_, dispatches.mono revised.namesKept⟩
    rw [tasksOf, tasks]
    exact only
  others attempt stored notSystem := by
    rw [attempts] at stored
    rw [tasksOf, tasks]
    exact dispatched.others attempt stored notSystem

/-- One attempt was added, together with an outbox row when it is a system attempt. -/
theorem Dispatched.append {attempt : StepAttemptModel} {added : List TasksOutboxModel}
    (dispatched : Dispatched registry first) (kept : NamesKept first second)
    (defined : ∀ step ∈ second.steps, ∃ run ∈ second.workflowRuns,
      run.workflowRunId = step.workflowRunId ∧
        ∃ definition, definedStep registry run step.stepName = some definition)
    (attached : ∀ row ∈ second.workflowRunDocuments, ∃ run ∈ second.workflowRuns,
      run.workflowRunId = row.workflowRunId)
    (attempts : second.stepAttempts = first.stepAttempts ++ [attempt])
    (tasks : second.tasksOutbox = first.tasksOutbox ++ added)
    (identified : ∀ other ∈ first.stepAttempts, other.stepAttemptId ≠ attempt.stepAttemptId)
    (own : (attempt.origin = .system ∧ ∃ task, added = [task] ∧
      Dispatches registry second task attempt) ∨ (attempt.origin ≠ .system ∧ added = [])) :
    Dispatched registry second := by
  have addedOf : ∀ task ∈ added, task.stepAttemptId = attempt.stepAttemptId := by
    intro task member
    rcases own with ⟨-, only, rfl, dispatches⟩ | ⟨-, rfl⟩
    · rw [List.mem_singleton.mp member]
      exact dispatches.ofAttempt
    · exact absurd member List.not_mem_nil
  have before : tasksOf first attempt.stepAttemptId = [] := by
    refine List.filter_eq_nil_iff.mpr fun task stored same => ?_
    obtain ⟨other, otherStored, otherSame⟩ := dispatched.known task stored
    exact identified other otherStored (otherSame.trans (of_decide_eq_true same))
  have ownTasks : tasksOf second attempt.stepAttemptId = added := by
    rw [tasksOf, tasks, List.filter_append,
      show first.tasksOutbox.filter _ = [] from before, List.nil_append]
    exact List.filter_eq_self.mpr fun task member => decide_eq_true (addedOf task member)
  have otherTasks : ∀ other ∈ first.stepAttempts,
      tasksOf second other.stepAttemptId = tasksOf first other.stepAttemptId := by
    intro other stored
    have none : (added.filter fun task => task.stepAttemptId = other.stepAttemptId) = [] :=
      List.filter_eq_nil_iff.mpr fun task member same =>
        identified other stored ((of_decide_eq_true same).symm.trans (addedOf task member))
    rw [tasksOf, tasks, List.filter_append, none, List.append_nil]
    rfl
  refine ⟨defined, attached, ?_, ?_, ?_⟩
  · intro task stored
    rw [attempts]
    rw [tasks] at stored
    rcases List.mem_append.mp stored with old | new
    · obtain ⟨other, otherStored, same⟩ := dispatched.known task old
      exact ⟨other, List.mem_append_left _ otherStored, same⟩
    · exact ⟨attempt, List.mem_append_right _ List.mem_cons_self, (addedOf task new).symm⟩
  · intro other stored isSystem
    rw [attempts] at stored
    rcases List.mem_append.mp stored with old | new
    · obtain ⟨task, only, dispatches⟩ := dispatched.system other old isSystem
      exact ⟨task, (otherTasks other old).trans only, dispatches.mono kept⟩
    · obtain rfl := List.mem_singleton.mp new
      rcases own with ⟨-, task, rfl, dispatches⟩ | ⟨notSystem, -⟩
      · exact ⟨task, ownTasks, dispatches⟩
      · exact absurd isSystem notSystem
  · intro other stored notSystem
    rw [attempts] at stored
    rcases List.mem_append.mp stored with old | new
    · exact (otherTasks other old).trans (dispatched.others other old notSystem)
    · obtain rfl := List.mem_singleton.mp new
      rcases own with ⟨isSystem, -⟩ | ⟨-, rfl⟩
      · exact absurd isSystem notSystem
      · exact ownTasks

/-! ### The outcomes of a step -/

section Operations

variable {db next : Database} {draws : Draws} {state : WorkflowRunState}
  {workflowRun : WorkflowRunModel} {steps : List StepModel} {currentStep : StepModel}
  {stepResult : StepResult} {reasonCode : String} {now : Timestamp} {newId : UUID}
  {random : UnitDraw} {event : EventDraw}

theorem Database.workflowRun_unique {run other : WorkflowRunModel}
    (stored : run ∈ db.contents.workflowRuns) (otherStored : other ∈ db.contents.workflowRuns)
    (same : run.workflowRunId = other.workflowRunId) : run = other :=
  eq_of_find? (fun row : WorkflowRunModel => row.workflowRunId) db.workflowRuns_distinct
    (find?_of_mem (fun row : WorkflowRunModel => row.workflowRunId) db.workflowRuns_distinct
      otherStored) stored same

/-- A run is stored under the names an earlier read of it showed. -/
def Named (db : Database) (workflowRun : WorkflowRunModel) : Prop :=
  ∃ run ∈ db.contents.workflowRuns, run.workflowRunId = workflowRun.workflowRunId ∧
    run.workflowName = workflowRun.workflowName ∧
    run.workflowVersion = workflowRun.workflowVersion

theorem handlerNameFor_defined {step : StepDefinition} {stepName : String}
    (defined : definedStep registry workflowRun stepName = some step) :
    handlerNameFor (registry.get workflowRun.workflowName workflowRun.workflowVersion) stepName =
      step.handlerName := by
  rw [handlerNameFor, show Option.bind _ _ = some step from defined]

/-- The task the orchestrator schedules for a stored step of a run dispatches its attempt. -/
theorem dispatches_scheduled {rows : Contents} {step : StepModel} {number : Nat}
    {scheduledFor : Option Timestamp} {time : Timestamp} {outboxId : Nat}
    (dispatched : Dispatched registry db.contents) (named : Named db workflowRun)
    (stored : step ∈ db.contents.steps) (ofRun : step.workflowRunId = workflowRun.workflowRunId)
    (kept : NamesKept db.contents rows)
    (scheduled : ∀ other, scheduledFor = some other → time = other)
    (retried : 1 < number → scheduledFor = some time) :
    Dispatches registry rows { outboxRow workflowRun.workflowRunId step.stepId newId
      (taskPayload registry db workflowRun step newId) time now with outboxId := outboxId }
      (queuedAttempt newId step.stepId number scheduledFor now) := by
  obtain ⟨definedRun, definedStored, definedOf, definition, defined⟩ :=
    dispatched.defined step stored
  obtain ⟨run, runStored, runId, name, version⟩ := named
  obtain rfl := Database.workflowRun_unique definedStored runStored
    (definedOf.trans (ofRun.trans runId.symm))
  have own : definedStep registry workflowRun step.stepName = some definition := by
    rw [← definedStep_congr name version]
    exact defined
  refine Dispatches.mono kept ⟨rfl, rfl, ⟨rfl, rfl, rfl⟩,
    ⟨step, stored, rfl, ofRun, rfl, definedRun, runStored, runId, definition, defined, ?_⟩,
    ⟨db.getDocumentIds workflowRun.workflowRunId, rfl, fun text => ?_⟩, scheduled, retried⟩
  · rw [← handlerNameFor_defined own]
    rfl
  · show text ∈ (db.contents.workflowRunDocuments.filter fun row =>
      row.workflowRunId = workflowRun.workflowRunId).map (fun row => row.documentId.str) ↔ _
    simp only [List.mem_map, List.mem_filter, decide_eq_true_eq, and_assoc]
    rfl

theorem handleSucceeded_dispatched (dispatched : Dispatched registry db.contents)
    (named : Named db workflowRun)
    (listed : ∀ successor, nextStep steps currentStep = some successor →
      successor ∈ db.contents.steps ∧ successor.workflowRunId = workflowRun.workflowRunId)
    (ran : handleSucceeded registry db workflowRun steps currentStep now newId event =
      .ok (next, state)) : Dispatched registry next.contents := by
  rcases handleSucceeded_ok ran with ⟨-, -, contents⟩ |
    ⟨successor, following, -, admitted, contents⟩
  · rw [contents]
    exact dispatched.revise ⟨⟨_, _, rfl, fun _ => ⟨rfl, rfl, rfl⟩⟩,
      ⟨_, _, rfl, fun _ => ⟨rfl, rfl, rfl⟩⟩, rfl⟩ rfl rfl
  · obtain ⟨stored, ofRun⟩ := listed successor following
    have revised : Revised db.contents next.contents := by
      rw [contents]
      exact ⟨⟨_, _, rfl, fun _ => ⟨rfl, rfl, rfl⟩⟩, ⟨_, _, rfl, fun _ => ⟨rfl, rfl, rfl⟩⟩, rfl⟩
    refine dispatched.append revised.namesKept (revised.defined dispatched)
      (revised.attached dispatched) (by rw [contents]) (by rw [contents]) admitted.identified
      (.inl ⟨rfl, _, rfl, ?_⟩)
    exact dispatches_scheduled dispatched named stored ofRun revised.namesKept nofun
      (fun more => absurd more (lt_irrefl 1))

theorem createEscalation_dispatched (dispatched : Dispatched registry db.contents)
    (ran : createEscalation db workflowRun currentStep stepResult reasonCode now newId event =
      .ok (next, state)) : Dispatched registry next.contents := by
  obtain ⟨-, -, contents⟩ := createEscalation_ok ran
  rw [contents]
  exact dispatched.revise ⟨unrevised_steps _, ⟨_, _, rfl, fun _ => ⟨rfl, rfl, rfl⟩⟩, rfl⟩ rfl rfl

theorem handleFailedTerminal_dispatched (dispatched : Dispatched registry db.contents)
    (ran : handleFailedTerminal db workflowRun currentStep stepResult now newId event =
      .ok (next, state)) : Dispatched registry next.contents := by
  rcases handleFailedTerminal_ok ran with ⟨-, ran⟩ | ⟨-, -, contents⟩
  · have marked : Dispatched registry
        (db.updateStep currentStep.stepId (StepModel.failTerminal now)).contents :=
      dispatched.revise ⟨⟨_, _, rfl, fun _ => ⟨rfl, rfl, rfl⟩⟩, unrevised_runs _, rfl⟩ rfl rfl
    exact createEscalation_dispatched marked ran
  · rw [contents]
    exact dispatched.revise ⟨⟨_, _, rfl, fun _ => ⟨rfl, rfl, rfl⟩⟩,
      ⟨_, _, rfl, fun _ => ⟨rfl, rfl, rfl⟩⟩, rfl⟩ rfl rfl

theorem handleFailedRetryable_dispatched (dispatched : Dispatched registry db.contents)
    (named : Named db workflowRun) (stored : currentStep ∈ db.contents.steps)
    (ofRun : currentStep.workflowRunId = workflowRun.workflowRunId)
    (ran : handleFailedRetryable registry db workflowRun currentStep stepResult now newId random
      event = .ok (next, state)) : Dispatched registry next.contents := by
  rcases handleFailedRetryable_ok ran with ⟨-, -, admitted, contents⟩ | ⟨-, ran⟩
  · have revised : Revised db.contents next.contents := by
      rw [contents]
      exact ⟨⟨_, _, rfl, fun _ => ⟨rfl, rfl, rfl⟩⟩, unrevised_runs _, rfl⟩
    refine dispatched.append revised.namesKept (revised.defined dispatched)
      (revised.attached dispatched) (by rw [contents]) (by rw [contents]) admitted.identified
      (.inl ⟨rfl, _, rfl, ?_⟩)
    exact dispatches_scheduled dispatched named stored ofRun revised.namesKept
      (fun _ same => Option.some.inj same) fun _ => rfl
  · exact handleFailedTerminal_dispatched dispatched ran

/-! ### Calls and requests -/

theorem named_of_found {workflowRunId : UUID}
    (found : db.getWorkflowRun workflowRunId = some workflowRun) : Named db workflowRun :=
  ⟨workflowRun, List.mem_of_find?_eq_some found, rfl, rfl, rfl⟩

/-- A start adds a run whose steps its definition names, and dispatches its first attempt. -/
theorem started_dispatched {new : NewRun} (dispatched : Dispatched registry db.contents)
    (started : Started db next new) (described : new.Described registry) :
    Dispatched registry next.contents := by
  have firstMember : new.first ∈ new.steps := List.mem_of_mem_head? started.first
  have defined : ∀ step ∈ new.steps, step.workflowRunId = new.run.workflowRunId ∧
      ∃ definition, definedStep registry new.run step.stepName = some definition := by
    obtain ⟨now, stepId, rows⟩ := started.rows
    intro step member
    rw [rows] at member
    obtain ⟨index, bound, rfl⟩ := List.mem_mapIdx.mp member
    refine ⟨rfl, ?_⟩
    rw [definedStep, described.registered, Option.bind_some]
    refine Option.isSome_iff_exists.mp (List.find?_isSome.mpr ⟨_, List.getElem_mem bound, ?_⟩)
    exact decide_eq_true rfl
  obtain ⟨attemptId, scheduledFor, now, attempt⟩ := started.attempt
  obtain ⟨taskRun, taskStep, taskAttempt⟩ := started.task
  have kept : NamesKept db.contents next.contents := by
    rw [started.contents]
    refine ⟨fun step stored => ⟨step, List.mem_append_left _ stored, rfl, rfl, rfl⟩,
      fun run stored => ⟨run, List.mem_append_left _ stored, rfl, rfl, rfl⟩,
      fun run stored row ofRun => ?_⟩
    rw [List.mem_append, or_iff_left]
    intro added
    exact started.fresh run stored (ofRun.symm.trans (described.documents row added))
  have attempts : next.contents.stepAttempts = db.contents.stepAttempts ++ [new.attempt] := by
    rw [started.contents]
  have tasks : next.contents.tasksOutbox = db.contents.tasksOutbox ++ [new.task] := by
    rw [started.contents]
  refine dispatched.append kept ?_ ?_ attempts tasks started.identified
    (.inl ⟨by rw [attempt]; rfl, _, rfl, ?_⟩)
  · intro step stored
    rw [started.contents] at stored ⊢
    rcases List.mem_append.mp stored with old | added
    · obtain ⟨run, runStored, rest⟩ := dispatched.defined step old
      exact ⟨run, List.mem_append_left _ runStored, rest⟩
    · obtain ⟨ofRun, rest⟩ := defined step added
      exact ⟨new.run, List.mem_append_right _ List.mem_cons_self, ofRun.symm, rest⟩
  · intro row stored
    rw [started.contents] at stored ⊢
    rcases List.mem_append.mp stored with old | added
    · obtain ⟨run, runStored, rest⟩ := dispatched.attached row old
      exact ⟨run, List.mem_append_left _ runStored, rest⟩
    · exact ⟨new.run, List.mem_append_right _ List.mem_cons_self,
        (described.documents row added).symm⟩
  · obtain ⟨ofRun, definition, named⟩ := defined new.first firstMember
    have handler := described.handler
    rw [← described.registered, handlerNameFor_defined named] at handler
    rw [started.contents]
    refine ⟨taskAttempt, taskStep.trans (by rw [attempt]; rfl), started.addressed,
      ⟨new.first, List.mem_append_right _ firstMember, taskStep.symm, ofRun.trans taskRun.symm,
        described.stepName, new.run, List.mem_append_right _ List.mem_cons_self, taskRun.symm,
        definition, named, handler⟩,
      ⟨_, described.taskDocuments, fun text => ?_⟩, described.scheduled,
      fun more => absurd more (by rw [attempt]; exact lt_irrefl 1)⟩
    rw [List.mem_map]
    refine exists_congr fun row => ?_
    rw [List.mem_append, taskRun]
    constructor
    · rintro ⟨added, same⟩
      exact ⟨.inr added, described.documents row added, same⟩
    · rintro ⟨old | added, ofNew, same⟩
      · obtain ⟨run, runStored, runId⟩ := dispatched.attached row old
        exact absurd (runId.trans ofNew) (started.fresh run runStored)
      · exact ⟨added, same⟩

theorem advanceWorkflow_dispatched {workflowRunId : UUID} {completedStepName : String}
    (dispatched : Dispatched registry db.contents)
    (ran : advanceWorkflow registry db draws workflowRunId completedStepName stepResult =
      .ok (next, state)) : Dispatched registry next.contents := by
  obtain ⟨workflowRun, currentStep, found, named, handled⟩ := advanceWorkflow_ok ran
  have identified := Database.getWorkflowRun_identified found
  have stored := List.mem_of_find?_eq_some named
  have ofRun : currentStep.workflowRunId = workflowRun.workflowRunId := by
    have selected := List.find?_some named
    simp only [decide_eq_true_eq] at selected
    exact selected.1.trans identified.symm
  cases status : stepResult.status with
  | succeeded =>
    rw [status] at handled
    refine handleSucceeded_dispatched dispatched (named_of_found found) ?_ handled
    intro successor following
    obtain ⟨member, ofSame, -⟩ := nextStep_mem following
    exact ⟨member, ofSame.trans identified.symm⟩
  | failedRetryable =>
    rw [status] at handled
    exact handleFailedRetryable_dispatched dispatched (named_of_found found) stored ofRun handled
  | failedTerminal =>
    rw [status] at handled
    exact handleFailedTerminal_dispatched dispatched handled
  | escalate =>
    rw [status] at handled
    exact createEscalation_dispatched dispatched handled

/-- The human attempt of a resolution gets no outbox row. -/
theorem Dispatched.human {stepId : UUID} {number : Nat}
    (dispatched : Dispatched registry first) (revised : Revised first second)
    (attempts : second.stepAttempts = first.stepAttempts ++ [humanAttempt newId stepId number now])
    (tasks : second.tasksOutbox = first.tasksOutbox)
    (identified : ∀ other ∈ first.stepAttempts, other.stepAttemptId ≠ newId) :
    Dispatched registry second :=
  dispatched.append revised.namesKept (revised.defined dispatched) (revised.attached dispatched)
    attempts (tasks.trans (List.append_nil _).symm) identified (.inr ⟨nofun, rfl⟩)

theorem resumeAfterEscalation_dispatched {escalationId : UUID} {resolutionPayload : JsonObject}
    {actor : String} (dispatched : Dispatched registry db.contents)
    (ran : resumeAfterEscalation registry db draws escalationId resolutionPayload actor =
      .ok (next, state)) : Dispatched registry next.contents := by
  obtain ⟨escalation, currentStep, workflowRun, -, -, found, admitted, resumed, contents, ran⟩ :=
    resumeAfterEscalation_ok ran
  have revised : Revised db.contents resumed.contents := by
    rw [contents]
    exact ⟨⟨_, _, rfl, fun _ => ⟨rfl, rfl, rfl⟩⟩, ⟨_, _, rfl, fun _ => ⟨rfl, rfl, rfl⟩⟩, rfl⟩
  have tasks : resumed.contents.tasksOutbox = db.contents.tasksOutbox := by rw [contents]
  have between : Dispatched registry resumed.contents :=
    dispatched.human revised (congrArg Contents.stepAttempts contents) tasks admitted.identified
  refine handleSucceeded_dispatched between ?_ (fun successor following => ?_) ran
  · exact revised.namesKept.runs workflowRun (List.mem_of_find?_eq_some found)
  · obtain ⟨member, ofRun, -⟩ := nextStep_mem following
    exact ⟨member, ofRun⟩

theorem OrchestratorCall.perform_dispatched {call : OrchestratorCall}
    (dispatched : Dispatched registry db.contents)
    (ran : call.perform registry db draws = .ok next) : Dispatched registry next.contents := by
  cases call with
  | startWorkflowRun workflowName workflowVersion documentIds actor correlationId deadline =>
    obtain ⟨workflowRunId, ran⟩ := perform_start ran
    obtain ⟨new, started, described, -⟩ := startWorkflowRun_writes ran
    exact started_dispatched dispatched started described
  | advanceWorkflow workflowRunId completedStepName stepResult =>
    obtain ⟨state, ran⟩ := perform_advance ran
    exact advanceWorkflow_dispatched dispatched ran
  | resumeAfterEscalation escalationId resolutionPayload actor =>
    obtain ⟨state, ran⟩ := perform_resume ran
    exact resumeAfterEscalation_dispatched dispatched ran
  | cancelWorkflow workflowRunId actor reason =>
    obtain ⟨workflowRun, -, -, contents⟩ := cancelWorkflow_ok ran
    rw [contents]
    exact dispatched.revise ⟨unrevised_steps _, ⟨_, _, rfl, fun _ => ⟨rfl, rfl, rfl⟩⟩, rfl⟩ rfl rfl

theorem RouteRequest.perform_dispatched {request : RouteRequest} {principal : ApiKeyPrincipal}
    (dispatched : Dispatched registry db.contents)
    (ran : request.perform registry db draws principal = .ok next) :
    Dispatched registry next.contents := by
  cases request with
  | createWorkflowRun body =>
    obtain ⟨workflowRunId, ran⟩ := perform_create ran
    obtain ⟨new, started, described, -⟩ := createWorkflowRun_writes ran
    exact started_dispatched dispatched started described
  | cancelWorkflowRun workflowRunId body =>
    obtain ⟨run, call, -, -, contents⟩ := cancelWorkflowRun_ok ran
    rw [contents]
    exact dispatched.revise ⟨unrevised_steps _, ⟨_, _, rfl, fun _ => ⟨rfl, rfl, rfl⟩⟩, rfl⟩ rfl rfl
  | claimEscalation escalationId =>
    obtain ⟨found, call, -, -, contents⟩ := claimEscalation_ok ran
    rw [contents]
    exact dispatched.revise ⟨unrevised_steps _, unrevised_runs _, rfl⟩ rfl rfl
  | resolveEscalation escalationId body =>
    obtain ⟨esc, answer, call, -, -, admitted, contents⟩ := resolveEscalation_ok ran
    rw [contents]
    exact dispatched.human ⟨unrevised_steps _, ⟨_, _, rfl, fun _ => ⟨rfl, rfl, rfl⟩⟩, rfl⟩ rfl rfl
      admitted.identified
  | rejectEscalation escalationId body =>
    obtain ⟨esc, answer, call, -, -, contents⟩ := rejectEscalation_ok ran
    rw [contents]
    exact dispatched.revise ⟨unrevised_steps _, ⟨_, _, rfl, fun _ => ⟨rfl, rfl, rfl⟩⟩, rfl⟩ rfl rfl

theorem Operation.step_dispatched (registry : WorkflowRegistry) (db : Database)
    (operation : Operation × Draws) (dispatched : Dispatched registry db.contents) :
    Dispatched registry (Operation.step registry db operation).contents := by
  refine commit_induction (fun next => Dispatched registry next.contents) dispatched
    fun next ran => ?_
  match operation, ran with
  | (.call _, _), ran => exact OrchestratorCall.perform_dispatched dispatched ran
  | (.request _ _, _), ran => exact RouteRequest.perform_dispatched dispatched ran

end Operations

/-- Each system attempt has exactly one outbox row, which agrees with it, and no other attempt has
one. -/
def DispatchedOnce (registry : WorkflowRegistry) (rows : Contents) : Prop :=
  ∀ attempt ∈ rows.stepAttempts,
    if attempt.origin = .system then
      ∃ task, tasksOf rows attempt.stepAttemptId = [task] ∧ Dispatches registry rows task attempt
    else tasksOf rows attempt.stepAttemptId = []

/-- After every sequence of orchestrator calls and requests each system attempt is dispatched
exactly once. An operation that writes a system attempt writes its outbox row in the same
transaction, and no other one writes either. -/
theorem dispatched_once (registry : WorkflowRegistry) (documents : List UUID)
    (operations : List (Operation × Draws)) :
    DispatchedOnce registry
      (Transition.run (Operation.step registry) (.empty documents) operations).contents := by
  have dispatched := Transition.run_invariant_always (Operation.step registry)
    (fun db => Dispatched registry db.contents) (Operation.step_dispatched registry)
    (.empty documents) (dispatched_empty documents) operations
  intro attempt stored
  split
  · rename_i isSystem
    exact dispatched.system attempt stored isSystem
  · rename_i notSystem
    exact dispatched.others attempt stored notSystem

end InsuranceOps
