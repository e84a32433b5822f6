/-
This file says that rows which refer to one another belong together. The
foreign keys only ask that a referenced row exists; the code sees to it that a
run's current step, the step of a case, the step and the attempt of a task and
those of an audit event are steps and attempts of the same run. References are
never lost, since rows keep what identifies them, so each operation only has to
answer for the rows it adds or repoints.
-/

import InsuranceOps.Records

namespace InsuranceOps

open Relational WorkflowOrchestrator

/-! ### References -/

namespace Contents

variable (rows : Contents)

def HoldsRun (workflowRunId : UUID) : Prop :=
  ∃ run ∈ rows.workflowRuns, run.workflowRunId = workflowRunId

/-- The step is stored and is one of the run's. -/
def HoldsStep (stepId workflowRunId : UUID) : Prop :=
  ∃ step ∈ rows.steps, step.stepId = stepId ∧ step.workflowRunId = workflowRunId

/-- The attempt is stored and is one of the step's. -/
def HoldsAttempt (stepAttemptId stepId : UUID) : Prop :=
  ∃ attempt ∈ rows.stepAttempts,
    attempt.stepAttemptId = stepAttemptId ∧ attempt.stepId = stepId

end Contents

/-- The run's current step is one of its steps. -/
def WorkflowRunModel.Refers (rows : Contents) (run : WorkflowRunModel) : Prop :=
  ∃ stepId, run.currentStepId = some stepId ∧ rows.HoldsStep stepId run.workflowRunId

/-- The attached document is stored, and so is the run it is attached to. -/
def WorkflowRunDocumentModel.Refers (rows : Contents) (row : WorkflowRunDocumentModel) : Prop :=
  rows.HoldsRun row.workflowRunId ∧ row.documentId ∈ rows.documents

def StepModel.Refers (rows : Contents) (step : StepModel) : Prop :=
  rows.HoldsRun step.workflowRunId

def StepAttemptModel.Refers (rows : Contents) (attempt : StepAttemptModel) : Prop :=
  ∃ workflowRunId, rows.HoldsStep attempt.stepId workflowRunId

/-- The task's payload names its columns, its attempt is one of its step's, and its step is one of
its run's. -/
structure TasksOutboxModel.Refers (rows : Contents) (task : TasksOutboxModel) : Prop where
  addressed : task.Addressed
  attempt : rows.HoldsAttempt task.stepAttemptId task.stepId
  step : rows.HoldsStep task.stepId task.workflowRunId

def EscalationCaseModel.Refers (rows : Contents) (escalation : EscalationCaseModel) :
    Prop :=
  rows.HoldsStep escalation.stepId escalation.workflowRunId

/-- The event's run is stored; the step it names, if any, is one of that run's, and the attempt it
names, if any, one of that step's. -/
structure AuditEventModel.Refers (rows : Contents) (event : AuditEventModel) : Prop where
  run : rows.HoldsRun event.workflowRunId
  step : ∀ stepId ∈ event.stepId, rows.HoldsStep stepId event.workflowRunId
  attempt : ∀ stepAttemptId ∈ event.stepAttemptId, ∃ stepId ∈ event.stepId,
    rows.HoldsAttempt stepAttemptId stepId

/-- Every row refers to rows that belong with it. -/
structure WellReferenced (rows : Contents) : Prop where
  runs : ∀ run ∈ rows.workflowRuns, run.Refers rows
  attachments : ∀ row ∈ rows.workflowRunDocuments, row.Refers rows
  steps : ∀ step ∈ rows.steps, step.Refers rows
  attempts : ∀ attempt ∈ rows.stepAttempts, attempt.Refers rows
  tasks : ∀ task ∈ rows.tasksOutbox, task.Refers rows
  cases : ∀ escalation ∈ rows.escalationCases, escalation.Refers rows
  events : ∀ event ∈ rows.auditEvents, event.Refers rows

/-! ### What a row refers by -/

def WorkflowRunModel.SamePointer (old row : WorkflowRunModel) : Prop :=
  row.workflowRunId = old.workflowRunId ∧ row.currentStepId = old.currentStepId

def StepModel.SameRun (old row : StepModel) : Prop := row.workflowRunId = old.workflowRunId

def StepAttemptModel.SameStep (old row : StepAttemptModel) : Prop := row.stepId = old.stepId

def EscalationCaseModel.SamePlace (old row : EscalationCaseModel) : Prop :=
  row.workflowRunId = old.workflowRunId ∧ row.stepId = old.stepId

theorem WorkflowRunModel.samePointer_refl (row : WorkflowRunModel) : row.SamePointer row :=
  ⟨rfl, rfl⟩

theorem StepModel.sameRun_refl (row : StepModel) : row.SameRun row := rfl

theorem StepModel.Follows.sameRun {old row : StepModel} (follows : old.Follows row) :
    old.SameRun row :=
  congrArg (fun columns : UUID × UUID × String × Int => columns.2.1) follows.identity

theorem StepAttemptModel.sameStep_refl (row : StepAttemptModel) : row.SameStep row := rfl

theorem EscalationCaseModel.samePlace_refl (row : EscalationCaseModel) : row.SamePlace row :=
  ⟨rfl, rfl⟩

/-- Every later row refers to what an old one refers to, or to rows that belong with it. -/
structure Accounted (before after : Contents) : Prop where
  runs : Originates WorkflowRunModel.SamePointer (WorkflowRunModel.Refers after)
    before.workflowRuns after.workflowRuns
  attachments : Originates Eq (WorkflowRunDocumentModel.Refers after)
    before.workflowRunDocuments after.workflowRunDocuments
  steps : Originates StepModel.SameRun (StepModel.Refers after) before.steps after.steps
  attempts : Originates StepAttemptModel.SameStep (StepAttemptModel.Refers after)
    before.stepAttempts after.stepAttempts
  tasks : Originates TasksOutboxModel.SameTask (TasksOutboxModel.Refers after)
    before.tasksOutbox after.tasksOutbox
  cases : Originates EscalationCaseModel.SamePlace (EscalationCaseModel.Refers after)
    before.escalationCases after.escalationCases
  events : Originates Eq (AuditEventModel.Refers after) before.auditEvents after.auditEvents

/-! ### References are never lost -/

section Kept

variable {before after : Contents} (kept : RecordsKept before after)

include kept

theorem RecordsKept.holdsRun {workflowRunId : UUID} (held : before.HoldsRun workflowRunId) :
    after.HoldsRun workflowRunId := by
  obtain ⟨run, stored, same⟩ := held
  obtain ⟨later, laterStored, follows⟩ := kept.runs.exists_mem stored
  exact ⟨later, laterStored, (congrArg Prod.fst follows.identity).trans same⟩

theorem RecordsKept.holdsStep {stepId workflowRunId : UUID}
    (held : before.HoldsStep stepId workflowRunId) : after.HoldsStep stepId workflowRunId := by
  obtain ⟨step, stored, same, ofRun⟩ := held
  obtain ⟨later, laterStored, follows⟩ := kept.steps.exists_mem stored
  exact ⟨later, laterStored, (congrArg Prod.fst follows.identity).trans same,
    (congrArg (fun columns => columns.2.1) follows.identity).trans ofRun⟩

theorem RecordsKept.holdsAttempt {stepAttemptId stepId : UUID}
    (held : before.HoldsAttempt stepAttemptId stepId) :
    after.HoldsAttempt stepAttemptId stepId := by
  obtain ⟨attempt, stored, same, ofStep⟩ := held
  obtain ⟨later, laterStored, follows⟩ := kept.attempts.exists_mem stored
  exact ⟨later, laterStored, (congrArg Prod.fst follows.identity).trans same,
    (congrArg (fun columns => columns.2.1) follows.identity).trans ofStep⟩

/-- The rows stay coherent when every row is accounted for. -/
theorem WellReferenced.of_kept (coherent : WellReferenced before)
    (accounted : Accounted before after) :
    WellReferenced after where
  runs := by
    refine accounted.runs.forall_mem (fun old row ⟨sameRun, pointed⟩ => ?_) (fun _ => id)
      fun run stored => ?_
    · rintro ⟨stepId, current, held⟩
      refine ⟨stepId, pointed.trans current, ?_⟩
      rw [sameRun]
      exact held
    · obtain ⟨stepId, current, held⟩ := coherent.runs run stored
      exact ⟨stepId, current, kept.holdsStep held⟩
  attachments := accounted.attachments.forall_mem (fun _ _ same held => same ▸ held) (fun _ => id)
    fun row stored => (coherent.attachments row stored).imp kept.holdsRun
      fun document => kept.documents ▸ document
  steps := by
    refine accounted.steps.forall_mem (fun old row ofRun held => ?_) (fun _ => id)
      fun step stored => kept.holdsRun (coherent.steps step stored)
    unfold StepModel.Refers
    rw [ofRun]
    exact held
  attempts := by
    refine accounted.attempts.forall_mem (fun old row ofStep held => ?_) (fun _ => id)
      fun attempt stored => (coherent.attempts attempt stored).imp fun _ => kept.holdsStep
    unfold StepAttemptModel.Refers
    rw [ofStep]
    exact held
  tasks := by
    refine accounted.tasks.forall_mem (fun old row same held => ?_) (fun _ => id)
      fun task stored => ?_
    · refine ⟨held.addressed.of_same same.symm, ?_, ?_⟩
      · rw [← same.stepAttemptId, ← same.stepId]
        exact held.attempt
      · rw [← same.stepId, ← same.workflowRunId]
        exact held.step
    · have held := coherent.tasks task stored
      exact ⟨held.addressed, kept.holdsAttempt held.attempt, kept.holdsStep held.step⟩
  cases := by
    refine accounted.cases.forall_mem (fun old row ⟨ofRun, ofStep⟩ held => ?_) (fun _ => id)
      fun escalation stored => kept.holdsStep (coherent.cases escalation stored)
    unfold EscalationCaseModel.Refers
    rw [ofRun, ofStep]
    exact held
  events := by
    refine accounted.events.forall_mem (fun _ _ same held => same ▸ held) (fun _ => id)
      fun event stored => ?_
    have held := coherent.events event stored
    exact ⟨kept.holdsRun held.run, fun stepId named => kept.holdsStep (held.step stepId named),
      fun stepAttemptId named => (held.attempt stepAttemptId named).imp
        fun stepId ⟨step, attempt⟩ => ⟨step, kept.holdsAttempt attempt⟩⟩

end Kept

/-! ### Changes of runs and new rows -/

section Origins

variable {rows after : Contents}

/-- A change that leaves the run's current step alone. -/
theorem originates_runs {new : WorkflowRunModel → Prop} {runs : List WorkflowRunModel}
    {selects : WorkflowRunModel → Bool} (change : WorkflowRunModel → WorkflowRunModel)
    (moves : ∀ row : WorkflowRunModel, row.SamePointer (change row)) :
    Originates WorkflowRunModel.SamePointer new runs (updateRows selects change runs) :=
  originates_updateRows WorkflowRunModel.samePointer_refl fun row _ _ => .inl (moves row)

/-- A change that leaves the step's run alone. -/
theorem originates_steps {new : StepModel → Prop} {steps : List StepModel}
    {selects : StepModel → Bool} (change : StepModel → StepModel)
    (moves : ∀ row : StepModel, row.SameRun (change row)) :
    Originates StepModel.SameRun new steps (updateRows selects change steps) :=
  originates_updateRows StepModel.sameRun_refl fun row _ _ => .inl (moves row)

/-- The event of a call refers to what the call names. -/
theorem originates_events (events : List AuditEventModel) {call : AppendCall} (draw : EventDraw)
    (run : after.HoldsRun call.workflowRunId)
    (step : ∀ stepId ∈ call.stepId, after.HoldsStep stepId call.workflowRunId)
    (attempt : ∀ stepAttemptId ∈ call.stepAttemptId, ∃ stepId ∈ call.stepId,
      after.HoldsAttempt stepAttemptId stepId) :
    Originates Eq (AuditEventModel.Refers after) events (appendAuditEvent events call draw) :=
  originates_append (fun _ => rfl) fun event new => by
    rw [List.mem_singleton.mp new]
    exact ⟨run, step, attempt⟩

/-- An event that names no step and no attempt refers to its run alone. -/
theorem originates_runEvents (events : List AuditEventModel) {call : AppendCall}
    (draw : EventDraw) (run : after.HoldsRun call.workflowRunId)
    (stepless : call.stepId = none ∧ call.stepAttemptId = none) :
    Originates Eq (AuditEventModel.Refers after) events (appendAuditEvent events call draw) := by
  refine originates_events events draw run ?_ ?_
  · rw [stepless.1]
    nofun
  · rw [stepless.2]
    nofun

theorem originates_attempt {workflowRunId : UUID} (attempts : List StepAttemptModel)
    {attempt : StepAttemptModel} (step : after.HoldsStep attempt.stepId workflowRunId) :
    Originates StepAttemptModel.SameStep (StepAttemptModel.Refers after) attempts
      (attempts ++ [attempt]) :=
  originates_append StepAttemptModel.sameStep_refl fun row new => by
    rw [List.mem_singleton.mp new]
    exact ⟨workflowRunId, step⟩

theorem originates_task (tasks : List TasksOutboxModel) {task : TasksOutboxModel}
    (refers : task.Refers after) :
    Originates TasksOutboxModel.SameTask (TasksOutboxModel.Refers after) tasks
      (tasks ++ [task]) :=
  originates_append TasksOutboxModel.SameTask.refl fun row new => by
    rw [List.mem_singleton.mp new]
    exact refers

/-- The cases are changed in other columns than their run and their step. -/
theorem originates_cases {new : EscalationCaseModel → Prop} {cases : List EscalationCaseModel}
    {selects : EscalationCaseModel → Bool} (change : EscalationCaseModel → EscalationCaseModel)
    (moves : ∀ row : EscalationCaseModel, row.SamePlace (change row)) :
    Originates EscalationCaseModel.SamePlace new cases (updateRows selects change cases) :=
  originates_updateRows EscalationCaseModel.samePlace_refl fun row _ _ => .inl (moves row)

end Origins

/-! ### The orchestrator -/

section Operations

variable {registry : WorkflowRegistry} {db next : Database} {draws : Draws}
  {state : WorkflowRunState} {run : WorkflowRunModel} {currentStep : StepModel}
  {stepResult : StepResult} {reasonCode : String} {now : Timestamp} {newId : UUID}
  {random : UnitDraw} {event : EventDraw} {principal : ApiKeyPrincipal}

theorem Database.holdsRun_of_get {workflowRunId : UUID}
    (found : db.getWorkflowRun workflowRunId = some run) :
    db.contents.HoldsRun run.workflowRunId :=
  ⟨run, (mem_of_find? (fun row : WorkflowRunModel => row.workflowRunId) found).1, rfl⟩

/-- A new run refers to its own first step, and its task and its event are about both. -/
theorem WellReferenced.started {new : NewRun} (coherent : WellReferenced db.contents)
    (started : Started db next new) (described : new.Described registry)
    (stepless : new.call.stepId = none ∧ new.call.stepAttemptId = none) :
    WellReferenced next.contents := by
  have kept := started_kept started
  obtain ⟨attemptId, scheduledFor, time, attempt⟩ := started.attempt
  obtain ⟨taskRun, taskStep, taskAttempt⟩ := started.task
  obtain ⟨time, stepId, rows⟩ := started.rows
  have firstMember : new.first ∈ new.steps := List.mem_of_mem_head? started.first
  have run : next.contents.HoldsRun new.run.workflowRunId := by
    rw [started.contents]
    exact ⟨new.run, List.mem_append_right _ List.mem_cons_self, rfl⟩
  have step : next.contents.HoldsStep new.first.stepId new.run.workflowRunId := by
    rw [started.contents]
    exact ⟨new.first, List.mem_append_right _ firstMember, rfl,
      (stepRows_mem (rows ▸ firstMember)).1⟩
  have first : next.contents.HoldsAttempt new.attempt.stepAttemptId new.first.stepId := by
    rw [started.contents]
    exact ⟨new.attempt, List.mem_append_right _ List.mem_cons_self, rfl, by rw [attempt]; rfl⟩
  rw [started.contents] at kept run step first ⊢
  exact WellReferenced.of_kept kept coherent {
    runs := originates_append WorkflowRunModel.samePointer_refl fun row member => by
      rw [List.mem_singleton.mp member]
      exact ⟨new.first.stepId, started.current, step⟩
    attachments := originates_append (fun _ => rfl) fun row member => by
      refine ⟨?_, started.attached row member⟩
      rw [described.documents row member]
      exact run
    steps := originates_append StepModel.sameRun_refl fun row member => by
      unfold StepModel.Refers
      rw [(stepRows_mem (rows ▸ member)).1]
      exact run
    attempts := originates_attempt _ (by rw [attempt]; exact step)
    tasks := originates_task _ ⟨started.addressed, by rw [taskAttempt, taskStep]; exact first,
      by rw [taskStep, taskRun]; exact step⟩
    cases := originates_refl EscalationCaseModel.samePlace_refl _
    events := originates_runEvents _ _ (by rw [described.about]; exact run) stepless }

theorem handleSucceeded_coherent (coherent : WellReferenced db.contents)
    (runHeld : db.contents.HoldsRun run.workflowRunId)
    (stepHeld : db.contents.HoldsStep currentStep.stepId run.workflowRunId)
    (ran : handleSucceeded registry db run (db.listSteps run.workflowRunId) currentStep now newId
      event = .ok (next, state)) : WellReferenced next.contents := by
  have kept := handleSucceeded_kept ran
  rcases handleSucceeded_ok ran with ⟨-, -, contents⟩ | ⟨successor, follows, -, -, contents⟩
  · rw [contents] at kept ⊢
    exact WellReferenced.of_kept kept coherent {
      runs := originates_runs (WorkflowRunModel.complete now) fun _ => ⟨rfl, rfl⟩
      attachments := originates_refl (fun _ => rfl) _
      steps := originates_steps (StepModel.succeed now) fun _ => rfl
      attempts := originates_refl StepAttemptModel.sameStep_refl _
      tasks := originates_refl TasksOutboxModel.SameTask.refl _
      cases := originates_refl EscalationCaseModel.samePlace_refl _
      events := originates_events _ _ (kept.holdsRun runHeld)
        (fun stepId named => Option.some.inj named ▸ kept.holdsStep stepHeld) nofun }
  · obtain ⟨stored, ofRun, -⟩ := nextStep_mem follows
    have successorHeld : db.contents.HoldsStep successor.stepId run.workflowRunId :=
      ⟨successor, stored, rfl, ofRun⟩
    have attemptHeld : next.contents.HoldsAttempt newId successor.stepId := by
      rw [contents]
      exact ⟨_, List.mem_append_right _ List.mem_cons_self, rfl, rfl⟩
    rw [contents] at kept attemptHeld ⊢
    have successorKept := kept.holdsStep successorHeld
    exact WellReferenced.of_kept kept coherent {
      runs := originates_updateRows WorkflowRunModel.samePointer_refl fun row _ selected =>
        .inr ⟨successor.stepId, rfl, by
          rw [show (row.moveTo successor.stepId now).workflowRunId = run.workflowRunId from
            of_decide_eq_true selected]
          exact successorKept⟩
      attachments := originates_refl (fun _ => rfl) _
      steps := originates_steps (StepModel.succeed now) fun _ => rfl
      attempts := originates_attempt _ successorKept
      tasks := originates_task _ ⟨⟨rfl, rfl, rfl⟩, attemptHeld, successorKept⟩
      cases := originates_refl EscalationCaseModel.samePlace_refl _
      events := originates_events _ _ (kept.holdsRun runHeld)
        (fun stepId named => Option.some.inj named ▸ successorKept)
        fun stepAttemptId named => ⟨_, rfl, Option.some.inj named ▸ attemptHeld⟩ }

theorem createEscalation_coherent (coherent : WellReferenced db.contents)
    (runHeld : db.contents.HoldsRun run.workflowRunId)
    (stepHeld : db.contents.HoldsStep currentStep.stepId run.workflowRunId)
    (ran : createEscalation db run currentStep stepResult reasonCode now newId event =
      .ok (next, state)) : WellReferenced next.contents := by
  have kept := createEscalation_kept ran
  obtain ⟨-, -, contents⟩ := createEscalation_ok ran
  rw [contents] at kept ⊢
  exact WellReferenced.of_kept kept coherent {
    runs := originates_runs (WorkflowRunModel.awaitHuman stepResult now) fun _ => ⟨rfl, rfl⟩
    attachments := originates_refl (fun _ => rfl) _
    steps := originates_refl StepModel.sameRun_refl _
    attempts := originates_refl StepAttemptModel.sameStep_refl _
    tasks := originates_refl TasksOutboxModel.SameTask.refl _
    cases := originates_append EscalationCaseModel.samePlace_refl fun row member => by
      rw [List.mem_singleton.mp member]
      exact kept.holdsStep stepHeld
    events := originates_events _ _ (kept.holdsRun runHeld)
      (fun stepId named => Option.some.inj named ▸ kept.holdsStep stepHeld) nofun }

/-- Changing a step's state keeps every reference. -/
theorem WellReferenced.updateStep (coherent : WellReferenced db.contents) (stepId : UUID)
    (change : StepModel → StepModel) (keeps)
    (moves : ∀ row : StepModel, row.Follows (change row)) :
    RecordsKept db.contents (db.updateStep stepId change keeps).contents ∧
      WellReferenced (db.updateStep stepId change keeps).contents := by
  have kept : RecordsKept db.contents (db.updateStep stepId change keeps).contents :=
    { RecordsKept.refl db.contents with steps := evolves_steps change moves }
  exact ⟨kept, WellReferenced.of_kept kept coherent {
    runs := originates_refl WorkflowRunModel.samePointer_refl _
    attachments := originates_refl (fun _ => rfl) _
    steps := originates_steps change fun row => (moves row).sameRun
    attempts := originates_refl StepAttemptModel.sameStep_refl _
    tasks := originates_refl TasksOutboxModel.SameTask.refl _
    cases := originates_refl EscalationCaseModel.samePlace_refl _
    events := originates_refl (fun _ => rfl) _ }⟩

theorem handleFailedTerminal_coherent (coherent : WellReferenced db.contents)
    (runHeld : db.contents.HoldsRun run.workflowRunId)
    (stepHeld : db.contents.HoldsStep currentStep.stepId run.workflowRunId)
    (ran : handleFailedTerminal db run currentStep stepResult now newId event =
      .ok (next, state)) : WellReferenced next.contents := by
  have kept := handleFailedTerminal_kept ran
  rcases handleFailedTerminal_ok ran with ⟨-, created⟩ | ⟨-, -, contents⟩
  · obtain ⟨failed, coherentFailed⟩ := coherent.updateStep currentStep.stepId
      (StepModel.failTerminal now) (fun _ => ⟨rfl, rfl, rfl, rfl⟩) fun _ => ⟨rfl, rfl⟩
    exact createEscalation_coherent coherentFailed (failed.holdsRun runHeld)
      (failed.holdsStep stepHeld) created
  · rw [contents] at kept ⊢
    exact WellReferenced.of_kept kept coherent {
      runs := originates_runs (WorkflowRunModel.fail stepResult now) fun _ => ⟨rfl, rfl⟩
      attachments := originates_refl (fun _ => rfl) _
      steps := originates_steps (StepModel.failTerminal now) fun _ => rfl
      attempts := originates_refl StepAttemptModel.sameStep_refl _
      tasks := originates_refl TasksOutboxModel.SameTask.refl _
      cases := originates_refl EscalationCaseModel.samePlace_refl _
      events := originates_events _ _ (kept.holdsRun runHeld)
        (fun stepId named => Option.some.inj named ▸ kept.holdsStep stepHeld) nofun }

theorem handleFailedRetryable_coherent (coherent : WellReferenced db.contents)
    (runHeld : db.contents.HoldsRun run.workflowRunId)
    (stepHeld : db.contents.HoldsStep currentStep.stepId run.workflowRunId)
    (ran : handleFailedRetryable registry db run currentStep stepResult now newId random event =
      .ok (next, state)) : WellReferenced next.contents := by
  have kept := handleFailedRetryable_kept ran
  rcases handleFailedRetryable_ok ran with ⟨-, -, -, contents⟩ | ⟨-, failed⟩
  · have attemptHeld : next.contents.HoldsAttempt newId currentStep.stepId := by
      rw [contents]
      exact ⟨_, List.mem_append_right _ List.mem_cons_self, rfl, rfl⟩
    rw [contents] at kept attemptHeld ⊢
    have stepKept := kept.holdsStep stepHeld
    exact WellReferenced.of_kept kept coherent {
      runs := originates_refl WorkflowRunModel.samePointer_refl _
      attachments := originates_refl (fun _ => rfl) _
      steps := originates_steps StepModel.failRetryable fun _ => rfl
      attempts := originates_attempt _ stepKept
      tasks := originates_task _ ⟨⟨rfl, rfl, rfl⟩, attemptHeld, stepKept⟩
      cases := originates_refl EscalationCaseModel.samePlace_refl _
      events := originates_events _ _ (kept.holdsRun runHeld)
        (fun stepId named => Option.some.inj named ▸ stepKept)
        fun stepAttemptId named => ⟨_, rfl, Option.some.inj named ▸ attemptHeld⟩ }
  · exact handleFailedTerminal_coherent coherent runHeld stepHeld failed

/-- The step looked up by a run and a name is one of the run's. -/
theorem Database.holdsStep_of_getByName {workflowRunId : UUID} {stepName : String}
    (found : db.getStepByRunAndName workflowRunId stepName = some currentStep) :
    db.contents.HoldsStep currentStep.stepId workflowRunId := by
  have named := List.find?_some found
  simp only [decide_eq_true_eq] at named
  exact ⟨currentStep, List.mem_of_find?_eq_some found, rfl, named.1⟩

theorem advanceWorkflow_coherent {workflowRunId : UUID} {completedStepName : String}
    (coherent : WellReferenced db.contents)
    (ran : advanceWorkflow registry db draws workflowRunId completedStepName stepResult =
      .ok (next, state)) : WellReferenced next.contents := by
  obtain ⟨run, currentStep, found, named, handled⟩ := advanceWorkflow_ok ran
  have runHeld := Database.holdsRun_of_get found
  have stepHeld := Database.holdsStep_of_getByName named
  obtain rfl := Database.getWorkflowRun_identified found
  cases status : stepResult.status with
  | succeeded =>
    rw [status] at handled
    exact handleSucceeded_coherent coherent runHeld stepHeld handled
  | failedRetryable =>
    rw [status] at handled
    exact handleFailedRetryable_coherent coherent runHeld stepHeld handled
  | failedTerminal =>
    rw [status] at handled
    exact handleFailedTerminal_coherent coherent runHeld stepHeld handled
  | escalate =>
    rw [status] at handled
    exact createEscalation_coherent coherent runHeld stepHeld handled

/-- The step of a case is one of the case's run, so a resolution stays within that run. -/
theorem resumeAfterEscalation_coherent {escalationId : UUID} {resolutionPayload : JsonObject}
    {actor : String} (coherent : WellReferenced db.contents)
    (ran : resumeAfterEscalation registry db draws escalationId resolutionPayload actor =
      .ok (next, state)) : WellReferenced next.contents := by
  obtain ⟨escalation, currentStep, run, foundCase, foundStep, foundRun, -, resumed, contents,
    handled⟩ := resumeAfterEscalation_ok ran
  have stepHeld : db.contents.HoldsStep currentStep.stepId run.workflowRunId := by
    rw [(mem_of_find? (fun row : StepModel => row.stepId) foundStep).2,
      Database.getWorkflowRun_identified foundRun]
    exact coherent.cases escalation (mem_of_find?
      (fun row : EscalationCaseModel => row.escalationId) foundCase).1
  have kept := resumed_kept contents
  have attemptHeld : resumed.contents.HoldsAttempt (draws.uuid4 0) currentStep.stepId := by
    rw [contents]
    exact ⟨_, List.mem_append_right _ List.mem_cons_self, rfl, rfl⟩
  have runHeld := Database.holdsRun_of_get foundRun
  suffices reached : WellReferenced resumed.contents from
    handleSucceeded_coherent reached (kept.holdsRun runHeld) (kept.holdsStep stepHeld) handled
  rw [contents] at kept attemptHeld ⊢
  have stepKept := kept.holdsStep stepHeld
  exact WellReferenced.of_kept kept coherent {
    runs := originates_runs (WorkflowRunModel.resume (draws.now 0)) fun _ => ⟨rfl, rfl⟩
    attachments := originates_refl (fun _ => rfl) _
    steps := originates_steps (StepModel.succeed (draws.now 0)) fun _ => rfl
    attempts := originates_attempt _ stepKept
    tasks := originates_refl TasksOutboxModel.SameTask.refl _
    cases := originates_cases (EscalationCaseModel.decide .resolved actor resolutionPayload
      (draws.now 0)) fun _ => ⟨rfl, rfl⟩
    events := originates_events _ _ (kept.holdsRun runHeld)
      (fun stepId named => Option.some.inj named ▸ stepKept)
      fun stepAttemptId named => ⟨_, rfl, Option.some.inj named ▸ attemptHeld⟩ }

/-- A run is cancelled, and an event about the run alone is appended. -/
theorem WellReferenced.cancelled {workflowRunId : UUID} {call : AppendCall} {time : Timestamp}
    (coherent : WellReferenced db.contents)
    (found : db.getWorkflowRun workflowRunId = some run)
    (contents : next.contents = { db.contents with
      workflowRuns := updateRows (fun row => row.workflowRunId = workflowRunId)
        (WorkflowRunModel.cancel time) db.contents.workflowRuns
      auditEvents := appendAuditEvent db.contents.auditEvents call event })
    (about : call.workflowRunId = workflowRunId)
    (stepless : call.stepId = none ∧ call.stepAttemptId = none) : WellReferenced next.contents := by
  have kept : RecordsKept db.contents next.contents := by
    rw [contents]
    exact { RecordsKept.refl db.contents with
      runs := evolves_runs (WorkflowRunModel.cancel time) fun _ => .of_grown rfl rfl rfl
      events := evolves_events _ _ _ }
  have runHeld := Database.holdsRun_of_get found
  rw [Database.getWorkflowRun_identified found] at runHeld
  rw [contents] at kept ⊢
  exact WellReferenced.of_kept kept coherent {
    runs := originates_runs (WorkflowRunModel.cancel time) fun _ => ⟨rfl, rfl⟩
    attachments := originates_refl (fun _ => rfl) _
    steps := originates_refl StepModel.sameRun_refl _
    attempts := originates_refl StepAttemptModel.sameStep_refl _
    tasks := originates_refl TasksOutboxModel.SameTask.refl _
    cases := originates_refl EscalationCaseModel.samePlace_refl _
    events := originates_runEvents _ _ (about ▸ kept.holdsRun runHeld) stepless }

/-! ### The events of the requests -/

/-- The log grew by one event, of a call that names these columns. -/
def LogsCall (db next : Database) (workflowRunId : UUID) (stepId stepAttemptId : Option UUID) :
    Prop :=
  ∃ call draw, next.contents.auditEvents = appendAuditEvent db.contents.auditEvents call draw ∧
    call.workflowRunId = workflowRunId ∧ call.stepId = stepId ∧
    call.stepAttemptId = stepAttemptId

/-- The call whose event was appended names the columns it is known by. -/
theorem LogsCall.columns {workflowRunId : UUID} {stepId stepAttemptId : Option UUID}
    {call : AppendCall} {draw : EventDraw} (logs : LogsCall db next workflowRunId stepId
      stepAttemptId)
    (events : next.contents.auditEvents = appendAuditEvent db.contents.auditEvents call draw) :
    call.workflowRunId = workflowRunId ∧ call.stepId = stepId ∧
      call.stepAttemptId = stepAttemptId := by
  obtain ⟨known, knownDraw, appended, rfl, rfl, rfl⟩ := logs
  have last := (List.cons.inj (List.append_cancel_left (events.symm.trans appended))).1
  exact ⟨congrArg AuditEventModel.workflowRunId last, congrArg AuditEventModel.stepId last,
    congrArg AuditEventModel.stepAttemptId last⟩

/-- The event of a start names neither a step nor an attempt. -/
theorem startWorkflowRun_logs {workflowName workflowVersion : String} {documentIds : List UUID}
    {actor correlationId : String} {deadlineSeconds : Option Int} {workflowRunId : UUID}
    (ran : startWorkflowRun registry db draws workflowName workflowVersion documentIds actor
      correlationId deadlineSeconds = .ok (next, workflowRunId)) :
    LogsCall db next workflowRunId none none := by
  obtain ⟨definition, -, ran⟩ := Fallible.bind_eq_ok.mp ran
  obtain ⟨deadlineAt, -, ran⟩ := Fallible.bind_eq_ok.mp ran
  obtain ⟨created, runInserted, ran⟩ := Fallible.bind_eq_ok.mp ran
  obtain ⟨attached, documentsInserted, ran⟩ := Fallible.bind_eq_ok.mp ran
  obtain ⟨stepped, stepsInserted, ran⟩ := Fallible.bind_eq_ok.mp ran
  obtain ⟨⟨first, firstDefinition⟩, -, ran⟩ := Fallible.bind_eq_ok.mp ran
  obtain ⟨attempted, attemptInserted, ran⟩ := Fallible.bind_eq_ok.mp ran
  obtain ⟨queued, enqueued, ran⟩ := Fallible.bind_eq_ok.mp ran
  obtain ⟨audited, appended, done⟩ := Fallible.bind_eq_ok.mp ran
  cases done
  have events := congrArg Contents.auditEvents (Database.appendAuditEvent_ok appended)
  simp only [Database.insertTasksOutbox_ok enqueued, Database.contents_updateWorkflowRun,
    (Database.insertStepAttempt_ok attemptInserted).2, (insertSteps_ok stepsInserted).1,
    insertDocuments_ok documentsInserted, (Database.insertWorkflowRun_ok runInserted).2] at events
  exact ⟨_, _, events, rfl, rfl, rfl⟩

theorem createWorkflowRun_logs {body : WorkflowRunCreate} {workflowRunId : UUID}
    (ran : createWorkflowRun registry db draws body principal = .ok (next, workflowRunId)) :
    LogsCall db next workflowRunId none none := by
  obtain ⟨_, -, ran⟩ := Fallible.bind_eq_ok.mp ran
  obtain ⟨definition, -, ran⟩ := Fallible.bind_eq_ok.mp ran
  obtain ⟨deadlineAt, -, ran⟩ := Fallible.bind_eq_ok.mp ran
  obtain ⟨created, runInserted, ran⟩ := Fallible.bind_eq_ok.mp ran
  obtain ⟨attached, documentsInserted, ran⟩ := Fallible.bind_eq_ok.mp ran
  obtain ⟨stepped, stepsInserted, ran⟩ := Fallible.bind_eq_ok.mp ran
  obtain ⟨⟨first, firstDefinition⟩, -, ran⟩ := Fallible.bind_eq_ok.mp ran
  obtain ⟨attempted, attemptInserted, ran⟩ := Fallible.bind_eq_ok.mp ran
  obtain ⟨queued, enqueued, ran⟩ := Fallible.bind_eq_ok.mp ran
  obtain ⟨audited, appended, done⟩ := Fallible.bind_eq_ok.mp ran
  cases done
  have events := congrArg Contents.auditEvents (Database.appendAuditEvent_ok appended)
  simp only [Database.insertTasksOutbox_ok enqueued, Database.contents_updateWorkflowRun,
    (Database.insertStepAttempt_ok attemptInserted).2, (insertSteps_ok stepsInserted).1,
    insertDocuments_ok documentsInserted, (Database.insertWorkflowRun_ok runInserted).2] at events
  exact ⟨_, _, events, rfl, rfl, rfl⟩

theorem cancelWorkflowRun_logs {workflowRunId : UUID} {body : CancelRequest}
    (ran : cancelWorkflowRun db draws workflowRunId body principal = .ok next) :
    LogsCall db next workflowRunId none none := by
  obtain ⟨_, -, ran⟩ := Fallible.bind_eq_ok.mp ran
  obtain ⟨run, -, ran⟩ := Fallible.bind_eq_ok.mp ran
  split at ran
  · exact ⟨_, _, congrArg Contents.auditEvents (Database.appendAuditEvent_ok ran), rfl, rfl, rfl⟩
  · cases ran

/-- The event of a claim is about the run of the case. -/
theorem claimEscalation_logs {escalationId : UUID} {found : EscalationCaseModel}
    (ran : claimEscalation db draws escalationId principal = .ok next)
    (lookup : db.getEscalationCase escalationId = some found) :
    LogsCall db next found.workflowRunId none none := by
  obtain ⟨_, -, ran⟩ := Fallible.bind_eq_ok.mp ran
  obtain ⟨other, foundOther, ran⟩ := Fallible.bind_eq_ok.mp ran
  obtain rfl := Option.some.inj (lookup.symm.trans (orRaise_ok.mp foundOther))
  split at ran
  · exact ⟨_, _, congrArg Contents.auditEvents (Database.appendAuditEvent_ok ran), rfl, rfl, rfl⟩
  · cases ran

/-- The event of a resolution also names the step of the case and the attempt it added. -/
theorem resolveEscalation_logs {escalationId : UUID} {body : ResolveRequest}
    {found : EscalationCaseModel}
    (ran : resolveEscalation db draws escalationId body principal = .ok next)
    (lookup : db.getEscalationCase escalationId = some found) :
    LogsCall db next found.workflowRunId (some found.stepId) (some (draws.uuid4 0)) := by
  obtain ⟨_, -, ran⟩ := Fallible.bind_eq_ok.mp ran
  obtain ⟨other, claimed, ran⟩ := Fallible.bind_eq_ok.mp ran
  obtain ⟨attempted, inserted, ran⟩ := Fallible.bind_eq_ok.mp ran
  obtain rfl := Option.some.inj (lookup.symm.trans (claimedCase_ok claimed).1)
  have events := congrArg Contents.auditEvents (Database.appendAuditEvent_ok ran)
  simp only [resumeWaitingRun_contents, (Database.insertStepAttempt_ok inserted).2,
    Database.contents_updateEscalationCase] at events
  exact ⟨_, _, events, rfl, rfl, rfl⟩

theorem rejectEscalation_logs {escalationId : UUID} {body : RejectRequest}
    {found : EscalationCaseModel}
    (ran : rejectEscalation db draws escalationId body principal = .ok next)
    (lookup : db.getEscalationCase escalationId = some found) :
    LogsCall db next found.workflowRunId (some found.stepId) none := by
  obtain ⟨_, -, ran⟩ := Fallible.bind_eq_ok.mp ran
  obtain ⟨other, claimed, ran⟩ := Fallible.bind_eq_ok.mp ran
  obtain rfl := Option.some.inj (lookup.symm.trans (claimedCase_ok claimed).1)
  have events := congrArg Contents.auditEvents (Database.appendAuditEvent_ok ran)
  simp only [failOpenRun_contents, Database.contents_updateEscalationCase] at events
  exact ⟨_, _, events, rfl, rfl, rfl⟩

/-! ### Calls and requests -/

theorem WellReferenced.stepOfCase (coherent : WellReferenced db.contents) {escalationId : UUID}
    {found : EscalationCaseModel} (lookup : db.getEscalationCase escalationId = some found) :
    db.contents.HoldsStep found.stepId found.workflowRunId :=
  coherent.cases found
    (mem_of_find? (fun row : EscalationCaseModel => row.escalationId) lookup).1

theorem WellReferenced.runOfCase (coherent : WellReferenced db.contents) {escalationId : UUID}
    {found : EscalationCaseModel} (lookup : db.getEscalationCase escalationId = some found) :
    db.contents.HoldsRun found.workflowRunId := by
  obtain ⟨step, stored, -, ofRun⟩ := coherent.stepOfCase lookup
  exact ofRun ▸ coherent.steps step stored

theorem OrchestratorCall.coherent {call : OrchestratorCall} (coherent : WellReferenced db.contents)
    (ran : call.perform registry db draws = .ok next) : WellReferenced next.contents := by
  cases call with
  | startWorkflowRun workflowName workflowVersion documentIds actor correlationId deadline =>
    obtain ⟨_, ran⟩ := OrchestratorCall.perform_start ran
    obtain ⟨new, started, described, -⟩ := startWorkflowRun_writes ran
    exact coherent.started started described
      ((startWorkflowRun_logs ran).columns (congrArg Contents.auditEvents started.contents)).2
  | advanceWorkflow workflowRunId completedStepName stepResult =>
    obtain ⟨_, ran⟩ := OrchestratorCall.perform_advance ran
    exact advanceWorkflow_coherent coherent ran
  | resumeAfterEscalation escalationId resolutionPayload actor =>
    obtain ⟨_, ran⟩ := OrchestratorCall.perform_resume ran
    exact resumeAfterEscalation_coherent coherent ran
  | cancelWorkflow workflowRunId actor reason =>
    obtain ⟨_, found, -, contents⟩ := cancelWorkflow_ok ran
    exact coherent.cancelled found contents rfl ⟨rfl, rfl⟩

theorem RouteRequest.coherent {request : RouteRequest} (coherent : WellReferenced db.contents)
    (ran : request.perform registry db draws principal = .ok next) :
    WellReferenced next.contents := by
  have kept := RouteRequest.kept ran
  cases request with
  | createWorkflowRun body =>
    obtain ⟨_, ran⟩ := RouteRequest.perform_create ran
    obtain ⟨new, started, described, -⟩ := createWorkflowRun_writes ran
    exact coherent.started started described
      ((createWorkflowRun_logs ran).columns (congrArg Contents.auditEvents started.contents)).2
  | cancelWorkflowRun workflowRunId body =>
    obtain ⟨_, call, found, -, contents⟩ := cancelWorkflowRun_ok ran
    obtain ⟨about, stepless⟩ :=
      (cancelWorkflowRun_logs ran).columns (congrArg Contents.auditEvents contents)
    exact coherent.cancelled found contents about stepless
  | claimEscalation escalationId =>
    obtain ⟨found, call, lookup, -, contents⟩ := claimEscalation_ok ran
    obtain ⟨about, stepless⟩ :=
      (claimEscalation_logs ran lookup).columns (congrArg Contents.auditEvents contents)
    rw [contents] at kept ⊢
    exact WellReferenced.of_kept kept coherent {
      runs := originates_refl WorkflowRunModel.samePointer_refl _
      attachments := originates_refl (fun _ => rfl) _
      steps := originates_refl StepModel.sameRun_refl _
      attempts := originates_refl StepAttemptModel.sameStep_refl _
      tasks := originates_refl TasksOutboxModel.SameTask.refl _
      cases := originates_cases (EscalationCaseModel.claim principal.actorString (draws.now 0))
        fun _ => ⟨rfl, rfl⟩
      events := originates_runEvents _ _ (about ▸ kept.holdsRun (coherent.runOfCase lookup))
        stepless }
  | resolveEscalation escalationId body =>
    obtain ⟨found, answer, call, lookup, -, -, contents⟩ := resolveEscalation_ok ran
    obtain ⟨about, ofStep, ofAttempt⟩ :=
      (resolveEscalation_logs ran lookup).columns (congrArg Contents.auditEvents contents)
    have attemptHeld : next.contents.HoldsAttempt (draws.uuid4 0) found.stepId := by
      rw [contents]
      exact ⟨_, List.mem_append_right _ List.mem_cons_self, rfl, rfl⟩
    rw [contents] at kept attemptHeld ⊢
    have stepKept := kept.holdsStep (coherent.stepOfCase lookup)
    refine WellReferenced.of_kept kept coherent {
      runs := originates_runs (WorkflowRunModel.resumeWaiting (draws.now 0)) fun _ => ⟨rfl, rfl⟩
      attachments := originates_refl (fun _ => rfl) _
      steps := originates_refl StepModel.sameRun_refl _
      attempts := originates_attempt _ stepKept
      tasks := originates_refl TasksOutboxModel.SameTask.refl _
      cases := originates_cases (EscalationCaseModel.decide .resolved principal.actorString answer
        (draws.now 0)) fun _ => ⟨rfl, rfl⟩
      events := originates_events _ _ (about ▸ kept.holdsRun (coherent.runOfCase lookup))
        (fun stepId named => ?_) fun stepAttemptId named => ?_ }
    · rw [ofStep] at named
      rw [← Option.some.inj named, about]
      exact stepKept
    · rw [ofAttempt] at named
      rw [← Option.some.inj named, ofStep]
      exact ⟨_, rfl, attemptHeld⟩
  | rejectEscalation escalationId body =>
    obtain ⟨found, answer, call, lookup, -, contents⟩ := rejectEscalation_ok ran
    obtain ⟨about, ofStep, ofAttempt⟩ :=
      (rejectEscalation_logs ran lookup).columns (congrArg Contents.auditEvents contents)
    rw [contents] at kept ⊢
    have stepKept := kept.holdsStep (coherent.stepOfCase lookup)
    refine WellReferenced.of_kept kept coherent {
      runs := originates_runs (WorkflowRunModel.rejectCase body.notes (draws.now 0))
        fun _ => ⟨rfl, rfl⟩
      attachments := originates_refl (fun _ => rfl) _
      steps := originates_refl StepModel.sameRun_refl _
      attempts := originates_refl StepAttemptModel.sameStep_refl _
      tasks := originates_refl TasksOutboxModel.SameTask.refl _
      cases := originates_cases (EscalationCaseModel.decide .rejected principal.actorString answer
        (draws.now 0)) fun _ => ⟨rfl, rfl⟩
      events := originates_events _ _ (about ▸ kept.holdsRun (coherent.runOfCase lookup))
        (fun stepId named => ?_) fun stepAttemptId named => ?_ }
    · rw [ofStep] at named
      rw [← Option.some.inj named, about]
      exact stepKept
    · rw [ofAttempt] at named
      cases named

end Operations

/-! ### The worker and the relay -/

/-- The rows are coherent, and whatever the queue holds is a copy of a stored task. -/
structure CoherentPlatform (platform : Platform) : Prop where
  rows : WellReferenced platform.db.contents
  copies : ∀ payload, platform.queue.Holds payload →
    ∃ task ∈ platform.db.contents.tasksOutbox, ∃ claimedAt, payload = task.copy claimedAt

theorem coherentPlatform_empty (documents : List UUID) : CoherentPlatform (.empty documents) where
  rows := ⟨fun _ stored => absurd stored List.not_mem_nil,
    fun _ stored => absurd stored List.not_mem_nil, fun _ stored => absurd stored List.not_mem_nil,
    fun _ stored => absurd stored List.not_mem_nil, fun _ stored => absurd stored List.not_mem_nil,
    fun _ stored => absurd stored List.not_mem_nil, fun _ stored => absurd stored List.not_mem_nil⟩
  copies payload held := absurd held (ListStore.Store.not_holds_empty payload)

section Platform

variable {db next : Database} {queue after : TaskQueue}

/-- Whatever is written, a copy of a stored task stays one. -/
theorem RecordsKept.copies (kept : RecordsKept db.contents next.contents) {payload : JsonObject}
    (copied : ∃ task ∈ db.contents.tasksOutbox, ∃ claimedAt, payload = task.copy claimedAt) :
    ∃ task ∈ next.contents.tasksOutbox, ∃ claimedAt, payload = task.copy claimedAt := by
  obtain ⟨task, stored, claimedAt, rfl⟩ := copied
  obtain ⟨later, laterStored, follows⟩ := kept.tasks.exists_mem stored
  exact ⟨later, laterStored, claimedAt, (follows.same.copy claimedAt).symm⟩

theorem CoherentPlatform.written (coherent : CoherentPlatform ⟨db, queue⟩)
    (kept : RecordsKept db.contents next.contents) (reached : WellReferenced next.contents)
    (held : ∀ payload, after.Holds payload → queue.Holds payload) :
    CoherentPlatform ⟨next, after⟩ :=
  ⟨reached, fun payload stillHeld => kept.copies (coherent.copies payload (held payload stillHeld))⟩

/-- The relay changes how far the delivery of tasks has come, and no reference. -/
theorem CoherentPlatform.relayed (coherent : CoherentPlatform ⟨db, queue⟩) (draws : RelayDraws) :
    CoherentPlatform ⟨(relayBatch draws db queue).1, (relayBatch draws db queue).2⟩ := by
  have handed := relayBatch_handedOver draws queue db
  have kept := relayBatch_kept draws db queue
  refine ⟨?_, fun payload held => ?_⟩
  · have origin := handed.backward
    have contents := handed.contents
    dsimp only
    rw [contents] at kept origin ⊢
    exact WellReferenced.of_kept kept coherent.rows {
      runs := originates_refl WorkflowRunModel.samePointer_refl _
      attachments := originates_refl (fun _ => rfl) _
      steps := originates_refl StepModel.sameRun_refl _
      attempts := originates_refl StepAttemptModel.sameStep_refl _
      tasks := fun row stored => .inl
        ((origin row stored).imp fun task ⟨taskStored, same⟩ => ⟨taskStored, same.symm⟩)
      cases := originates_refl EscalationCaseModel.samePlace_refl _
      events := originates_refl (fun _ => rfl) _ }
  · exact (handed.gained payload held).elim (fun old => kept.copies (coherent.copies payload old))
      kept.copies

/-- The event of an outcome is about the run, the step and the attempt of a stored task. -/
theorem CoherentPlatform.reported {loads : String → Option Json}
    {handle : String → StepContext → HandlerReturn} {draws : Draws} {workerId : String}
    {payload : JsonObject} (coherent : CoherentPlatform ⟨db, queue⟩) (held : queue.Holds payload)
    (processed : processTask loads handle db draws workerId payload = .ok (.written next)) :
    WellReferenced next.contents := by
  have kept : RecordsKept db.contents next.contents := by
    have settled : RecordsKept db.contents
        (committed db (processTask loads handle db draws workerId payload)).contents :=
      committed_kept db draws workerId payload
    rw [processed] at settled
    exact settled
  obtain ⟨rows, outcome, loaded, -, -, written⟩ := processTask_steps processed
  obtain ⟨change, changes, contents⟩ := writeOutcome_contents written
  obtain ⟨task, stored, claimedAt, rfl⟩ := coherent.copies payload held
  have refers := coherent.rows.tasks task stored
  obtain ⟨foundAttempt, foundStep, foundRun⟩ := loadRows_addressed
    ((task.copy_get? claimedAt (by decide)).trans refers.addressed.run)
    ((task.copy_get? claimedAt (by decide)).trans refers.addressed.step)
    (refers.addressed.copy_attempt claimedAt) loaded
  have ofAttempt := (mem_of_find? (fun row : StepAttemptModel => row.stepAttemptId) foundAttempt).2
  have ofStep := (mem_of_find? (fun row : StepModel => row.stepId) foundStep).2
  have ofRun := Database.getWorkflowRun_identified foundRun
  rw [Database.contents_updateStepAttempt] at contents
  dsimp only at contents
  rw [updateRows_updateRows _ (StepAttemptModel.begin (draws.now 0)) change fun _ => rfl]
    at contents
  have runKept : next.contents.HoldsRun rows.run.workflowRunId :=
    kept.holdsRun (Database.holdsRun_of_get foundRun)
  have stepKept : next.contents.HoldsStep rows.step.stepId rows.run.workflowRunId := by
    rw [ofStep, ofRun]
    exact kept.holdsStep refers.step
  have attemptKept : next.contents.HoldsAttempt rows.attempt.stepAttemptId rows.step.stepId := by
    rw [ofAttempt, ofStep]
    exact kept.holdsAttempt refers.attempt
  rw [contents] at kept runKept stepKept attemptKept ⊢
  exact WellReferenced.of_kept kept coherent.rows {
    runs := originates_refl WorkflowRunModel.samePointer_refl _
    attachments := originates_refl (fun _ => rfl) _
    steps := originates_steps (outcome.stepChange (draws.now 1)) fun row =>
      (StepModel.Follows.of_outcome outcome (draws.now 1) row).sameRun
    attempts := originates_updateRows StepAttemptModel.sameStep_refl fun row _ _ =>
      .inl (outcome.attemptChange_keeps changes (row.begin (draws.now 0))).1
    tasks := originates_refl TasksOutboxModel.SameTask.refl _
    cases := originates_refl EscalationCaseModel.samePlace_refl _
    events := originates_events _ _ runKept
      (fun stepId named => Option.some.inj named ▸ stepKept)
      fun stepAttemptId named => ⟨_, rfl, Option.some.inj named ▸ attemptKept⟩ }

theorem CoherentPlatform.work {loads : String → Option Json} {workerId : String}
    {handle : String → StepContext → HandlerReturn} {draws : Draws}
    (coherent : CoherentPlatform ⟨db, queue⟩) :
    CoherentPlatform ⟨(workerIteration loads handle draws workerId db queue).1,
      (workerIteration loads handle draws workerId db queue).2⟩ := by
  cases claim : queue.claim workerId with
  | none =>
    unfold workerIteration
    rw [claim]
    exact coherent
  | some task =>
    obtain ⟨payload, claimed⟩ := task
    have kept : RecordsKept db.contents (settle db claimed workerId payload
        (processTask loads handle db draws workerId payload)).1.contents := by
      rw [settle_fst]
      exact committed_kept db draws workerId payload
    rw [workerIteration_some claim]
    obtain ⟨ready, moved⟩ := TaskQueue.claim_some queue claim
    have held : queue.Holds payload := .inl ⟨.ready, List.mem_of_getLast? ready⟩
    cases processed : processTask loads handle db draws workerId payload with
    | error failure =>
      exact coherent.written (.refl _) coherent.rows fun other => (moved other).mp
    | ok disposition =>
      rw [processed] at kept
      cases disposition with
      | deadLetter =>
        exact coherent.written (.refl _) coherent.rows fun other now => (moved other).mp
          (TaskQueue.holds_of_ack_moveToDlq claimed now ((moved payload).mpr held))
      | alreadyTerminal =>
        exact coherent.written (.refl _) coherent.rows fun other now =>
          (moved other).mp (TaskQueue.holds_of_ack claimed now)
      | written next =>
        exact coherent.written kept (coherent.reported held processed) fun other now =>
          (moved other).mp (TaskQueue.holds_of_ack claimed now)

end Platform

/-! ### Runs of the system -/

section System

variable (registry : WorkflowRegistry) (loads : String → Option Json)

/-- Apart from the reaper, no event puts anything but copies of stored tasks in the queue; what the
reaper moves must be such a copy as well. -/
theorem CoherentPlatform.step {platform : Platform} {event : SystemEvent}
    (coherent : CoherentPlatform platform)
    (reaps : ∀ workerId target payload, event = .reap workerId target payload →
      ∃ task ∈ platform.db.contents.tasksOutbox, ∃ claimedAt, payload = task.copy claimedAt) :
    CoherentPlatform (SystemEvent.step registry loads platform event) := by
  obtain ⟨db, queue⟩ := platform
  cases event with
  | platform event =>
    cases event with
    | request made principal draws =>
      exact commit_induction (fun next => CoherentPlatform ⟨next, queue⟩) coherent
        fun next ran => coherent.written (RouteRequest.kept ran)
          (RouteRequest.coherent coherent.rows ran) fun _ => id
    | relay draws => exact coherent.relayed draws
    | schedule acquired now =>
      refine coherent.written (.refl _) coherent.rows fun payload held => ?_
      rcases (schedulerPass_handedOver queue acquired now (.empty [])).gained payload held with
        old | ⟨task, stored, -⟩
      · exact old
      · exact absurd stored List.not_mem_nil
    | work workerId returned draws => exact coherent.work
    | reap visibilityTimeout now workerIds =>
      exact coherent.written (.refl _) coherent.rows fun payload =>
        (holds_reaperPass visibilityTimeout now workerIds queue payload).mp
  | call made draws =>
    exact commit_induction (fun next => CoherentPlatform ⟨next, queue⟩) coherent
      fun next ran => coherent.written (OrchestratorCall.kept ran)
        (OrchestratorCall.coherent coherent.rows ran) fun _ => id
  | reap workerId target payload =>
    refine ⟨coherent.rows, fun other held => ?_⟩
    rcases (ListStore.Store.holds_lpush _ _ payload other).mp held with rfl | old
    · exact reaps workerId target other rfl
    · exact coherent.copies other (ListStore.Store.holds_of_lrem queue _ payload old)
  | requeueFromDlq payload =>
    rw [SystemEvent.step]
    split
    · rename_i member
      refine coherent.written (.refl _) coherent.rows fun other held => ?_
      rcases (ListStore.Store.holds_lpush _ _ payload other).mp held with rfl | old
      · exact .inl ⟨.dlq, member⟩
      · exact ListStore.Store.holds_of_lrem queue _ payload old
    · exact coherent
  | dropFromDlq payload =>
    exact coherent.written (.refl _) coherent.rows fun other held =>
      ListStore.Store.holds_of_lrem queue _ payload held

/-- Whatever the reaper moves, the queue held at some earlier moment, when it took its snapshot. -/
def ReapsSeen (start : Platform) (events : List SystemEvent) : Prop :=
  ∀ before workerId target payload after,
    events = before ++ .reap workerId target payload :: after →
      ∃ earlier, earlier <+: before ∧
        (Transition.run (SystemEvent.step registry loads) start earlier).queue.Holds payload

/-- In every run of the system, every initial part of it leaves coherent rows: what the queue held
once is a copy of a task that is still stored. -/
theorem coherent_throughout (documents : List UUID) (events : List SystemEvent)
    (seen : ReapsSeen registry loads (.empty documents) events) :
    ∀ earlier, earlier <+: events → CoherentPlatform
      (Transition.run (SystemEvent.step registry loads) (.empty documents) earlier) := by
  induction events using List.reverseRecOn with
  | nil =>
    intro earlier initial
    rw [List.prefix_nil.mp initial]
    exact coherentPlatform_empty documents
  | append_singleton events event inductionHypothesis =>
    have before := inductionHypothesis fun front workerId target payload back split =>
      seen front workerId target payload (back ++ [event]) (by rw [split, List.append_assoc]; rfl)
    intro earlier initial
    rcases List.prefix_concat_iff.mp initial with whole | part
    · rw [whole, Transition.run_append]
      refine (before events (List.prefix_refl _)).step registry loads
        fun workerId target payload reaps => ?_
      obtain ⟨snapshot, ⟨rest, rfl⟩, held⟩ := seen events workerId target payload [] (by rw [reaps])
      rw [Transition.run_append]
      exact (records_kept registry loads _ rest).copies
        ((before snapshot (List.prefix_append _ _)).copies payload held)
    · exact before earlier part

/-- Transactions commit one after the other, and the reaper moves only what the queue held at an
earlier moment. Then every run points to one of its own steps, every attachment names a stored run
and a stored document, every attempt a stored step, every task and every case a step of its own run,
and every audit event a stored run, and, if any, a step of that run and an attempt of that step.
What a copy in the queue names was stored when its task was, and rows keep what identifies them. -/
theorem references_coherent (documents : List UUID) (events : List SystemEvent)
    (seen : ReapsSeen registry loads (.empty documents) events) :
    WellReferenced (Transition.run (SystemEvent.step registry loads) (.empty documents)
      events).db.contents :=
  (coherent_throughout registry loads documents events seen events (List.prefix_refl _)).rows

end System

/-! ### A task the reaper returns -/

/-- The payload the relay pushes for the first task of a run. -/
def relayedPayload : JsonObject :=
  ((Transition.run (SystemEvent.step [claimIntakeV1] fun _ => none) (.empty [])
    (firstTaskRelayed.map .platform)).queue.lists .ready).headD []

/-- The reaper moves the first task of a run after a worker failed on it. -/
def reapedEvents : List SystemEvent :=
  firstTaskRelayed.map .platform ++ [
    .platform (.work "w" (.returned { status := .succeeded, output := some [] }) (numberedDraws 3)),
    .reap "w" .ready relayedPayload]

theorem references_coherent_reaped :
    WellReferenced (Transition.run (SystemEvent.step [claimIntakeV1] fun _ => none) (.empty [])
      reapedEvents).db.contents := by
  refine references_coherent [claimIntakeV1] (fun _ => none) [] reapedEvents ?_
  intro before workerId target payload after same
  have third : before = reapedEvents.take 3 ∧ payload = relayedPayload := by
    rcases before with _ | ⟨one, _ | ⟨two, _ | ⟨three, _ | ⟨four, rest⟩⟩⟩⟩
    · cases same
    · cases same
    · cases same
    · cases same
      exact ⟨rfl, rfl⟩
    · have size := congrArg List.length same
      simp [reapedEvents, firstTaskRelayed] at size
  rw [third.1, third.2]
  refine ⟨firstTaskRelayed.map .platform, ⟨_, rfl⟩, .inl ⟨.ready, ?_⟩⟩
  decide +kernel

end InsuranceOps
