/-
This file proves that no call the platform makes in order violates a unique
constraint of steps, attempts or escalation cases: the numbers, indices and
cases it inserts are always free, and its identifiers are, as far as fresh
draws are. With the frontier invariant this settles what a sequence of
orchestrator calls can do to a run.
-/

import InsuranceOps.Frontier

namespace InsuranceOps

open Relational WorkflowOrchestrator Fallible

/-! ### Violations -/

/-- Whether a constraint is one of steps, step attempts or escalation cases. -/
def UniqueConstraint.isOfStepTables : UniqueConstraint → Bool
  | .stepsPkey | .uqStepsRunIndex | .uqStepsRunName | .stepAttemptsPkey
  | .uqStepAttemptsStepNumber | .escalationCasesPkey | .uqEscalationCasesRunStep => true
  | .workflowRunsPkey | .workflowRunDocumentsPkey | .tasksOutboxPkey | .auditEventsPkey
  | .uqAuditEventsRunSeq => false

/-- A failure that is a violation of a unique constraint of steps, attempts or cases. -/
def Failure.ViolatesUnique (failure : Failure) : Prop :=
  ∃ violated : UniqueConstraint, violated.isOfStepTables = true ∧
    failure = .database (.uniqueViolation violated)

/-- An insert whose row clashes with no stored row on the constraints in question. -/
theorem insertInto_avoids {Row : Type} {keys : List (UniqueKey Row UniqueConstraint)}
    {table : Table keys} {row : Row} {checks references : List (String × Bool)}
    (free : ∀ key ∈ keys, key.name.isOfStepTables = true → ∀ other ∈ table.rows,
      key.key other ≠ key.key row) :
    Avoids Failure.ViolatesUnique (insertInto table row checks references) := by
  rintro _ failed ⟨violated, guarded, rfl⟩
  obtain ⟨key, member, rfl, other, stored, clash⟩ := insertInto_uniqueViolation failed
  exact free key member guarded other stored clash

theorem orRaise_avoids {Found : Type} {found : Option Found} {failure : Failure}
    (other : ∀ violated, failure ≠ .database (.uniqueViolation violated)) :
    Avoids Failure.ViolatesUnique (orRaise found failure) := by
  rintro _ failed ⟨violated, -, rfl⟩
  exact other violated (orRaise_error.mp failed).2

section Inserts

variable {db : Database}

theorem insertWorkflowRun_avoids (row : WorkflowRunModel) :
    Avoids Failure.ViolatesUnique (db.insertWorkflowRun row) := by
  refine avoids_bind (insertInto_avoids ?_) fun _ _ => avoids_ok _ _
  simp only [workflowRunKeys, List.forall_mem_singleton]
  exact nofun

theorem insertWorkflowRunDocument_avoids (row : WorkflowRunDocumentModel) :
    Avoids Failure.ViolatesUnique (db.insertWorkflowRunDocument row) := by
  refine avoids_bind (insertInto_avoids ?_) fun _ _ => avoids_ok _ _
  simp only [workflowRunDocumentKeys, List.forall_mem_singleton]
  exact nofun

theorem insertTasksOutbox_avoids (row : TasksOutboxModel) :
    Avoids Failure.ViolatesUnique (db.insertTasksOutbox row) := by
  refine avoids_bind (insertInto_avoids ?_) fun _ _ => avoids_ok _ _
  simp only [tasksOutboxKeys, List.forall_mem_singleton]
  exact nofun

theorem appendAuditEvent_avoids (call : AppendCall) (draw : EventDraw) :
    Avoids Failure.ViolatesUnique (db.appendAuditEvent call draw) := by
  refine avoids_bind (insertInto_avoids ?_) fun _ _ => avoids_ok _ _
  simp only [auditEventKeys, List.forall_mem_cons]
  exact ⟨fun guarded => absurd guarded (by decide), fun guarded => absurd guarded (by decide),
    List.forall_mem_nil _⟩

theorem insertStep_avoids {row : StepModel}
    (identified : ∀ other ∈ db.contents.steps, other.stepId ≠ row.stepId)
    (indexed : ∀ other ∈ db.contents.steps, other.workflowRunId = row.workflowRunId →
      other.stepIndex ≠ row.stepIndex)
    (named : ∀ other ∈ db.contents.steps, other.workflowRunId = row.workflowRunId →
      other.stepName ≠ row.stepName) : Avoids Failure.ViolatesUnique (db.insertStep row) := by
  refine avoids_bind (insertInto_avoids ?_) fun _ _ => avoids_ok _ _
  simp only [stepKeys, List.forall_mem_cons, ne_eq, Prod.mk.injEq, not_and]
  exact ⟨fun _ => identified, fun _ => indexed, fun _ => named, List.forall_mem_nil _⟩

theorem insertStepAttempt_avoids {row : StepAttemptModel}
    (identified : ∀ other ∈ db.contents.stepAttempts, other.stepAttemptId ≠ row.stepAttemptId)
    (numbered : ∀ other ∈ db.contents.stepAttempts, other.stepId = row.stepId →
      other.stepAttemptNumber ≠ row.stepAttemptNumber) :
    Avoids Failure.ViolatesUnique (db.insertStepAttempt row) := by
  refine avoids_bind (insertInto_avoids ?_) fun _ _ => avoids_ok _ _
  simp only [stepAttemptKeys, List.forall_mem_cons, ne_eq, Prod.mk.injEq, not_and]
  exact ⟨fun _ => identified, fun _ => numbered, List.forall_mem_nil _⟩

theorem insertEscalationCase_avoids {row : EscalationCaseModel}
    (identified : ∀ other ∈ db.contents.escalationCases, other.escalationId ≠ row.escalationId)
    (single : ∀ other ∈ db.contents.escalationCases, other.workflowRunId = row.workflowRunId →
      other.stepId ≠ row.stepId) :
    Avoids Failure.ViolatesUnique (db.insertEscalationCase row) := by
  refine avoids_bind (insertInto_avoids ?_) fun _ _ => avoids_ok _ _
  simp only [escalationCaseKeys, List.forall_mem_cons, ne_eq, Prod.mk.injEq, not_and]
  exact ⟨fun _ => identified, fun _ => single, List.forall_mem_nil _⟩

end Inserts

/-! ### Fresh identifiers -/

/-- The first draws of `uuid4()` differ from each other and from the stored identifiers. -/
structure FreshDraws (db : Database) (uuid4 : Nat → UUID) (count : Nat) : Prop where
  distinct : ∀ first < count, ∀ second < count, uuid4 first = uuid4 second → first = second
  steps : ∀ index < count, ∀ step ∈ db.contents.steps, step.stepId ≠ uuid4 index
  attempts : ∀ index < count, ∀ attempt ∈ db.contents.stepAttempts,
    attempt.stepAttemptId ≠ uuid4 index
  cases : ∀ index < count, ∀ row ∈ db.contents.escalationCases, row.escalationId ≠ uuid4 index

/-- How many identifiers a call draws. -/
def OrchestratorCall.drawCount (registry : WorkflowRegistry) : OrchestratorCall → Nat
  | .startWorkflowRun workflowName workflowVersion _ _ _ _ =>
    (registry.get workflowName workflowVersion).elim 0 fun definition => definition.steps.length + 2
  | .advanceWorkflow _ _ _ => 1
  | .resumeAfterEscalation _ _ _ => 2
  | .cancelWorkflow _ _ _ => 0

/-! ### The outcomes of a step -/

section Outcomes

variable {registry : WorkflowRegistry} {db : Database} {draws : Draws}
  {workflowRun : WorkflowRunModel} {steps : List StepModel} {currentStep : StepModel}
  {stepResult : StepResult} {reasonCode : String} {now : Timestamp} {newId : UUID}
  {random : UnitDraw} {event : EventDraw}

theorem unnumbered_of_attemptsOf {contents : Contents} {stepId : UUID}
    (unattempted : contents.attemptsOf stepId = []) (number : Nat) :
    ∀ other ∈ contents.stepAttempts, other.stepId = stepId → other.stepAttemptNumber ≠ number := by
  intro other stored owner
  have member := mem_attemptsOf.mpr ⟨stored, owner⟩
  rw [unattempted] at member
  exact absurd member List.not_mem_nil

/-- The number after the stored attempts of a step is free. -/
theorem next_number_free (sound : AttemptsSound db.contents) (stepId : UUID) :
    ∀ other ∈ db.contents.stepAttempts, other.stepId = stepId →
      other.stepAttemptNumber ≠ (db.listAttempts stepId).length + 1 := by
  intro other stored owner same
  have listed := List.mem_map_of_mem (f := fun row : StepAttemptModel => row.stepAttemptNumber)
    (mem_attemptsOf.mpr ⟨stored, owner⟩)
  rw [sound.numbered, List.mem_range'_1] at listed
  rw [attemptsOf_length] at same
  omega

theorem handleSucceeded_avoids
    (identified : ∀ other ∈ db.contents.stepAttempts, other.stepAttemptId ≠ newId)
    (unattempted : ∀ successor, nextStep steps currentStep = some successor →
      db.contents.attemptsOf successor.stepId = []) :
    Avoids Failure.ViolatesUnique
      (handleSucceeded registry db workflowRun steps currentStep now newId event) := by
  unfold handleSucceeded
  cases following : nextStep steps currentStep with
  | none => exact avoids_bind (appendAuditEvent_avoids _ _) fun _ _ => avoids_ok _ _
  | some successor =>
    refine avoids_bind (insertStepAttempt_avoids identified
      (unnumbered_of_attemptsOf (unattempted successor following) 1)) fun _ _ => ?_
    exact avoids_bind (insertTasksOutbox_avoids _) fun _ _ =>
      avoids_bind (appendAuditEvent_avoids _ _) fun _ _ => avoids_ok _ _

theorem createEscalation_avoids
    (identified : ∀ other ∈ db.contents.escalationCases, other.escalationId ≠ newId)
    (free : db.contents.casesAt workflowRun.workflowRunId currentStep.stepId = []) :
    Avoids Failure.ViolatesUnique
      (createEscalation db workflowRun currentStep stepResult reasonCode now newId event) := by
  refine avoids_bind (insertEscalationCase_avoids identified fun other stored owner here => ?_)
    fun _ _ => avoids_bind (appendAuditEvent_avoids _ _) fun _ _ => avoids_ok _ _
  have member : other ∈ db.contents.casesAt workflowRun.workflowRunId currentStep.stepId :=
    mem_casesAt.mpr ⟨mem_casesOf.mpr ⟨stored, owner⟩, here⟩
  rw [free] at member
  exact absurd member List.not_mem_nil

theorem handleFailedTerminal_avoids
    (identified : ∀ other ∈ db.contents.escalationCases, other.escalationId ≠ newId)
    (free : db.contents.casesAt workflowRun.workflowRunId currentStep.stepId = []) :
    Avoids Failure.ViolatesUnique
      (handleFailedTerminal db workflowRun currentStep stepResult now newId event) := by
  unfold handleFailedTerminal
  cases currentStep.escalateOnFailure with
  | true => exact createEscalation_avoids identified free
  | false => exact avoids_bind (appendAuditEvent_avoids _ _) fun _ _ => avoids_ok _ _

theorem handleFailedRetryable_avoids (sound : AttemptsSound db.contents)
    (attempts : ∀ other ∈ db.contents.stepAttempts, other.stepAttemptId ≠ newId)
    (cases : ∀ other ∈ db.contents.escalationCases, other.escalationId ≠ newId)
    (free : db.contents.casesAt workflowRun.workflowRunId currentStep.stepId = []) :
    Avoids Failure.ViolatesUnique (handleFailedRetryable registry db workflowRun currentStep
      stepResult now newId random event) := by
  unfold handleFailedRetryable
  by_cases budget : ((db.listAttempts currentStep.stepId).length : Int) < currentStep.maxAttempts
  · simp only [if_pos budget]
    refine avoids_bind (insertStepAttempt_avoids attempts (next_number_free sound _)) fun _ _ => ?_
    exact avoids_bind (insertTasksOutbox_avoids _) fun _ _ =>
      avoids_bind (appendAuditEvent_avoids _ _) fun _ _ => avoids_ok _ _
  · simp only [if_neg budget]
    exact handleFailedTerminal_avoids cases free

end Outcomes

/-! ### Calls -/

section Calls

variable {registry : WorkflowRegistry} {db : Database} {draws : Draws}

/-- The step that follows the current one of a run has no attempt. -/
theorem nextStep_unattempted {run : WorkflowRunModel} {current successor : StepModel}
    (cursor : Cursor db.contents run current)
    (following : nextStep (db.listSteps run.workflowRunId) current = some successor) :
    db.contents.attemptsOf successor.stepId = [] := by
  obtain ⟨stored, owner, index⟩ := nextStep_mem following
  exact (cursor.above successor (mem_stepsOf.mpr ⟨stored, owner⟩) (by omega)).2

theorem advanceWorkflow_avoids {workflowRunId : UUID} {completedStepName : String}
    {stepResult : StepResult} (consistent : Consistent db.contents)
    (orderly : (OrchestratorCall.advanceWorkflow workflowRunId completedStepName
      stepResult).Orderly registry db) (fresh : FreshDraws db draws.uuid4 1) :
    Avoids Failure.ViolatesUnique
      (advanceWorkflow registry db draws workflowRunId completedStepName stepResult) := by
  obtain ⟨run, currentStep, found, running, named, pointed⟩ := orderly
  obtain rfl := Database.getWorkflowRun_identified found
  obtain ⟨current, frontier⟩ := consistent.frontiers run (List.mem_of_find?_eq_some found)
  obtain rfl : currentStep = current := frontier_current frontier pointed
    (List.mem_of_find?_eq_some named)
  have fits := frontier.fits
  rw [running] at fits
  refine avoids_bind (orRaise_avoids nofun) fun row rowFound => ?_
  cases found.symm.trans (orRaise_ok.mp rowFound)
  refine avoids_bind (orRaise_avoids nofun) fun step stepFound => ?_
  cases named.symm.trans (orRaise_ok.mp stepFound)
  cases status : stepResult.status with
  | succeeded =>
    exact handleSucceeded_avoids (fresh.attempts 0 one_pos) fun successor following =>
      nextStep_unattempted frontier.toCursor following
  | failedRetryable =>
    exact handleFailedRetryable_avoids consistent.attempts (fresh.attempts 0 one_pos)
      (fresh.cases 0 one_pos) fits.2
  | failedTerminal => exact handleFailedTerminal_avoids (fresh.cases 0 one_pos) fits.2
  | escalate => exact createEscalation_avoids (fresh.cases 0 one_pos) fits.2

theorem cancelWorkflow_avoids (workflowRunId : UUID) (actor : String) (reason : Option String) :
    Avoids Failure.ViolatesUnique (cancelWorkflow db draws workflowRunId actor reason) := by
  refine avoids_bind (orRaise_avoids nofun) fun run _ => ?_
  by_cases can : cancellable run.state = true
  · rw [if_pos can]
    exact appendAuditEvent_avoids _ _
  · rw [if_neg can]
    exact avoids_error nofun

theorem resumeAfterEscalation_avoids {escalationId : UUID} {resolutionPayload : JsonObject}
    {actor : String} (consistent : Consistent db.contents)
    (orderly : (OrchestratorCall.resumeAfterEscalation escalationId resolutionPayload
      actor).Orderly registry db) (fresh : FreshDraws db draws.uuid4 2) :
    Avoids Failure.ViolatesUnique
      (resumeAfterEscalation registry db draws escalationId resolutionPayload actor) := by
  obtain ⟨row, run, foundCase, unresolved, foundRun, waiting⟩ := orderly
  obtain ⟨current, frontier⟩ := consistent.frontiers run (List.mem_of_find?_eq_some foundRun)
  have here := frontier_unresolved frontier foundCase foundRun unresolved
  refine avoids_bind (orRaise_avoids nofun) fun _ found => ?_
  cases foundCase.symm.trans (orRaise_ok.mp found)
  refine avoids_bind (orRaise_avoids nofun) fun currentStep found => ?_
  obtain ⟨stored, identified⟩ :=
    mem_of_find? (fun row : StepModel => row.stepId) (orRaise_ok.mp found)
  obtain rfl : currentStep = current := List.inj_on_of_nodup_map db.steps_distinct stored
    (mem_stepsOf.mp frontier.stored).1 (identified.trans here)
  refine avoids_bind (orRaise_avoids nofun) fun _ found => ?_
  cases foundRun.symm.trans (orRaise_ok.mp found)
  refine avoids_bind (insertStepAttempt_avoids (fresh.attempts 0 two_pos)
    (next_number_free consistent.attempts _)) fun attempted inserted => ?_
  refine avoids_bind (appendAuditEvent_avoids _ _) fun resumed appended => ?_
  have contents := Database.appendAuditEvent_ok appended
  have attempts := congrArg Contents.stepAttempts contents
  have steps := congrArg Contents.steps contents
  simp only [Database.contents_updateWorkflowRun, Database.contents_updateStep,
    (Database.insertStepAttempt_ok inserted).2, Database.contents_updateEscalationCase]
    at attempts steps
  refine handleSucceeded_avoids ?_ fun successor following => ?_
  · rw [attempts]
    intro other member
    rcases List.mem_append.mp member with old | new
    · exact fresh.attempts 1 one_lt_two other old
    · rw [List.mem_singleton.mp new]
      exact fun same => absurd (fresh.distinct 0 two_pos 1 one_lt_two same) zero_ne_one
  · rw [nextStep_updateRows steps fun _ => ⟨rfl, rfl⟩] at following
    obtain ⟨old, oldFollowing, same⟩ := Option.map_eq_some_iff.mp following
    have sameId : successor.stepId = old.stepId := by
      rw [← same]
      split <;> rfl
    have foreign : currentStep.stepId ≠ old.stepId := by
      intro equal
      obtain ⟨oldStored, -, index⟩ := nextStep_mem oldFollowing
      rw [List.inj_on_of_nodup_map db.steps_distinct oldStored stored equal.symm] at index
      omega
    rw [sameId]
    exact (attemptsOf_append_of_ne attempts foreign).trans
      (nextStep_unattempted frontier.toCursor oldFollowing)

/-! ### Starting a run -/

theorem stepRows_length (definition : WorkflowDefinition) (workflowRunId : UUID) (now : Timestamp)
    (stepId : Nat → UUID) :
    (stepRows definition workflowRunId now stepId).length = definition.steps.length := by
  rw [stepRows, List.length_mapIdx]

theorem stepRows_identified {definition : WorkflowDefinition} {workflowRunId : UUID}
    {now : Timestamp} {stepId : Nat → UUID}
    (distinct : ∀ first < definition.steps.length, ∀ second < definition.steps.length,
      stepId first = stepId second → first = second) :
    ((stepRows definition workflowRunId now stepId).map fun row => row.stepId).Nodup := by
  have identifiers : (stepRows definition workflowRunId now stepId).map (fun row => row.stepId) =
      (List.range definition.steps.length).map stepId := by
    refine List.ext_getElem (by rw [List.length_map, List.length_map, stepRows_length,
      List.length_range]) fun index _ _ => ?_
    rw [List.getElem_map, List.getElem_map, List.getElem_range]
    simp only [stepRows, List.getElem_mapIdx]
  rw [identifiers]
  exact List.nodup_range.map_on fun first firstMember second secondMember =>
    distinct first (List.mem_range.mp firstMember) second (List.mem_range.mp secondMember)

/-- With distinct columns the rows before another one differ from it. -/
theorem ne_of_split {Row Column : Type} {column : Row → Column} {rows before after : List Row}
    {row : Row} (distinct : (rows.map column).Nodup) (split : rows = before ++ row :: after) :
    ∀ other ∈ before, column other ≠ column row := by
  rw [split, List.map_append, List.map_cons, List.nodup_append] at distinct
  exact fun other member => distinct.2.2 _ (List.mem_map_of_mem member) _ List.mem_cons_self

/-- The steps of a new run are inserted without a clash. -/
theorem insertSteps_avoids {rows : List StepModel} (workflowRunId : UUID)
    (foreign : ∀ other ∈ db.contents.steps, other.workflowRunId ≠ workflowRunId)
    (owned : ∀ row ∈ rows, row.workflowRunId = workflowRunId)
    (fresh : ∀ row ∈ rows, ∀ other ∈ db.contents.steps, other.stepId ≠ row.stepId)
    (identified : (rows.map fun row => row.stepId).Nodup)
    (indexed : (rows.map fun row => row.stepIndex).Nodup)
    (named : (rows.map fun row => row.stepName).Nodup) :
    Avoids Failure.ViolatesUnique (insertSteps db rows) := by
  refine avoids_foldlM fun before row after reached split ran => ?_
  have member : row ∈ rows := split ▸ List.mem_append_right _ List.mem_cons_self
  have reachedContents : insertSteps db before = .ok reached := ran
  have steps : reached.contents.steps = db.contents.steps ++ before := by
    rw [(insertSteps_ok reachedContents).1]
  have elsewhere : ∀ other ∈ db.contents.steps, other.workflowRunId ≠ row.workflowRunId := by
    rw [owned row member]
    exact foreign
  refine insertStep_avoids ?_ ?_ ?_
  · rw [steps]
    exact List.forall_mem_append.mpr ⟨fresh row member, ne_of_split identified split⟩
  · rw [steps]
    exact List.forall_mem_append.mpr
      ⟨fun other stored owner => absurd owner (elsewhere other stored), fun other stored _ =>
        ne_of_split indexed split other stored⟩
  · rw [steps]
    exact List.forall_mem_append.mpr
      ⟨fun other stored owner => absurd owner (elsewhere other stored), fun other stored _ =>
        ne_of_split named split other stored⟩

theorem addSeconds_avoids (now : Timestamp) (seconds : Int) :
    Avoids Failure.ViolatesUnique (addSeconds now seconds) := by
  unfold addSeconds
  split
  · exact avoids_ok _ _
  · refine avoids_error ?_
    rintro ⟨_, -, same⟩
    cases same

theorem startWorkflowRun_avoids {workflowName workflowVersion : String} {documentIds : List UUID}
    {actor correlationId : String} {deadline : Option Int} (consistent : Consistent db.contents)
    (orderly : (OrchestratorCall.startWorkflowRun workflowName workflowVersion documentIds actor
      correlationId deadline).Orderly registry db)
    (fresh : FreshDraws db draws.uuid4 ((OrchestratorCall.startWorkflowRun workflowName
      workflowVersion documentIds actor correlationId deadline).drawCount registry)) :
    Avoids Failure.ViolatesUnique (startWorkflowRun registry db draws workflowName workflowVersion
      documentIds actor correlationId deadline) := by
  refine avoids_bind (orRaise_avoids nofun) fun definition found => ?_
  have registered := orRaise_ok.mp found
  have indexed := orderly definition registered
  rw [OrchestratorCall.drawCount, registered, Option.elim_some] at fresh
  refine avoids_bind (addSeconds_avoids _ _) fun deadlineAt _ => ?_
  refine avoids_bind (insertWorkflowRun_avoids _) fun created runInserted => ?_
  refine avoids_bind (avoids_foldlM fun _ _ _ _ _ _ => insertWorkflowRunDocument_avoids _)
    fun attached documentsInserted => ?_
  obtain ⟨unused, createdContents⟩ := Database.insertWorkflowRun_ok runInserted
  have attachedContents := insertDocuments_ok documentsInserted
  have steps : attached.contents.steps = db.contents.steps := by
    rw [attachedContents, createdContents]
  have numbered : ∀ row ∈ stepRows definition (draws.uuid4 0) (draws.now 0)
      (fun index => draws.uuid4 (index + 1)), ∀ other ∈ db.contents.steps,
      other.stepId ≠ row.stepId := by
    intro row member other stored
    obtain ⟨index, bound, rfl⟩ := List.mem_mapIdx.mp member
    exact fresh.steps (index + 1) (by omega) other stored
  refine avoids_bind (insertSteps_avoids (draws.uuid4 0) ?_
    (fun row member => (stepRows_mem member).1) ?_ (stepRows_identified ?_) ?_
    (stepRows_named indexed _ _ _)) fun stepped stepsInserted => ?_
  · rw [steps]
    intro other stored owner
    obtain ⟨run, runStored, owns⟩ := consistent.stepOwners other stored
    exact unused run runStored (owns.trans owner)
  · rw [steps]
    exact numbered
  · intro first firstBound second secondBound same
    have equal := fresh.distinct (first + 1) (by omega) (second + 1) (by omega) same
    omega
  · rw [stepRows_indexed indexed]
    exact indicesBelow_nodup _
  refine avoids_bind (orRaise_avoids nofun) fun pair firstFound => ?_
  obtain ⟨first, firstDefinition⟩ := pair
  have steppedContents := (insertSteps_ok stepsInserted).1
  have attempts : stepped.contents.stepAttempts = db.contents.stepAttempts := by
    rw [steppedContents, attachedContents, createdContents]
  have firstMember := List.mem_of_mem_head? (firstStep_eq_some (orRaise_ok.mp firstFound)).1
  refine avoids_bind (insertStepAttempt_avoids ?_ ?_) fun _ _ =>
    avoids_bind (insertTasksOutbox_avoids _) fun _ _ =>
      avoids_bind (appendAuditEvent_avoids _ _) fun _ _ => avoids_ok _ _
  · rw [attempts, stepRows_length]
    exact fresh.attempts _ (by omega)
  · rw [attempts]
    intro other stored owner
    obtain ⟨old, oldStored, same⟩ := consistent.attempts.referenced other stored
    exact absurd (same.trans owner) (numbered first firstMember old oldStored)

/-- A call made in order with fresh identifiers violates no unique constraint of steps, attempts
or cases. -/
theorem OrchestratorCall.perform_avoids {call : OrchestratorCall}
    (consistent : Consistent db.contents) (orderly : call.Orderly registry db)
    (fresh : FreshDraws db draws.uuid4 (call.drawCount registry)) :
    Avoids Failure.ViolatesUnique (call.perform registry db draws) := by
  cases call with
  | startWorkflowRun workflowName workflowVersion documentIds actor correlationId deadline =>
    exact avoids_bind (startWorkflowRun_avoids consistent orderly fresh) fun _ _ => avoids_ok _ _
  | advanceWorkflow workflowRunId completedStepName stepResult =>
    exact avoids_bind (advanceWorkflow_avoids consistent orderly fresh) fun _ _ => avoids_ok _ _
  | resumeAfterEscalation escalationId resolutionPayload actor =>
    exact avoids_bind (resumeAfterEscalation_avoids consistent orderly fresh)
      fun _ _ => avoids_ok _ _
  | cancelWorkflow workflowRunId actor reason => exact cancelWorkflow_avoids _ _ _

end Calls

/-! ### Every reached state -/

/-- In every state reached by calls made in order, none of which cancels a waiting run, each run
stands at a step as its state says, and the next call made in order violates no unique constraint of
steps, attempts or cases. Attempts are numbered by their count and the steps after the current one
have none, so what the next call inserts is free. -/
theorem orchestrator_frontier (registry : WorkflowRegistry) (documents : List UUID)
    (calls : List (OrchestratorCall × Draws))
    (made : Transition.Along (OrchestratorCall.step registry)
      (fun db call => call.1.Orderly registry db ∧ call.1.cancelsWaiting db = false)
      (.empty documents) calls) :
    let reached := Transition.run (OrchestratorCall.step registry) (.empty documents) calls
    (∀ run ∈ reached.contents.workflowRuns, ∃ current, StandsAt reached.contents run current) ∧
    ∀ (call : OrchestratorCall) (draws : Draws), call.Orderly registry reached →
      FreshDraws reached draws.uuid4 (call.drawCount registry) →
      Avoids Failure.ViolatesUnique (call.perform registry reached draws) := by
  intro reached
  have consistent : Consistent reached.contents :=
    Transition.run_invariant (OrchestratorCall.step registry)
      (fun db => Consistent db.contents) (OrchestratorCall.step_consistent registry)
      (.empty documents) (consistent_empty documents) calls made
  refine ⟨fun run member => ?_, fun call draws orderly fresh => ?_⟩
  · obtain ⟨current, frontier⟩ := consistent.frontiers run member
    exact ⟨current, frontier_standsAt frontier reached.steps_distinct⟩
  · exact OrchestratorCall.perform_avoids consistent orderly fresh

/-! ### An escalated run -/

/-- Whether a run is running and stands at the step with a name. -/
def runsAt (db : Database) (workflowRunId : UUID) (stepName : String) : Bool :=
  (db.getWorkflowRun workflowRunId).any fun run => decide (run.state = .running) &&
    (db.getStepByRunAndName workflowRunId stepName).any fun step =>
      run.currentStepId = some step.stepId

theorem orderly_advance {registry : WorkflowRegistry} {db : Database} {workflowRunId : UUID}
    {completedStepName : String} (stepResult : StepResult)
    (check : runsAt db workflowRunId completedStepName = true) :
    (OrchestratorCall.advanceWorkflow workflowRunId completedStepName stepResult).Orderly
      registry db := by
  obtain ⟨run, found, holds⟩ := (Option.any_eq_true _ _).mp check
  obtain ⟨running, stands⟩ := (Bool.and_eq_true _ _).mp holds
  obtain ⟨step, named, pointed⟩ := (Option.any_eq_true _ _).mp stands
  exact ⟨run, step, found, of_decide_eq_true running, named, of_decide_eq_true pointed⟩

theorem orderly_start {db : Database} (documentIds : List UUID) (actor correlationId : String)
    (deadline : Option Int) :
    (OrchestratorCall.startWorkflowRun "claim_intake" "v1" documentIds actor correlationId
      deadline).Orderly [claimIntakeV1] db := by
  intro definition found
  cases found
  exact ⟨by decide, by decide⟩

/-- A run of the registered workflow whose first step asks for a human. -/
def escalatedCalls : List (OrchestratorCall × Draws) := [
  (.startWorkflowRun "claim_intake" "v1" [] "api" "c" none, numberedDraws 1),
  (.advanceWorkflow 100 "ingest" { status := .escalate }, numberedDraws 2)]

theorem orchestrator_frontier_escalated :
    ∃ run ∈ (Transition.run (OrchestratorCall.step [claimIntakeV1]) (.empty [])
        escalatedCalls).contents.workflowRuns, run.state = .awaitingHuman ∧
      ∃ current, StandsAt (Transition.run (OrchestratorCall.step [claimIntakeV1]) (.empty [])
        escalatedCalls).contents run current := by
  have waiting : ((Transition.run (OrchestratorCall.step [claimIntakeV1]) (.empty [])
      escalatedCalls).getWorkflowRun 100).map (fun run => run.state) = some .awaitingHuman := by
    decide +kernel
  obtain ⟨run, found, state⟩ := Option.map_eq_some_iff.mp waiting
  have stored := List.mem_of_find?_eq_some found
  exact ⟨run, stored, state, (orchestrator_frontier [claimIntakeV1] [] escalatedCalls
    ⟨⟨orderly_start _ _ _ _, rfl⟩, ⟨orderly_advance _ (by decide +kernel), rfl⟩, trivial⟩).1 run
      stored⟩

/-- Cancelling the waiting run leaves its case open: the run is cancelled, and yet its current
step has one unresolved case. -/
theorem cancelled_case_open :
    Transition.Along (OrchestratorCall.step [claimIntakeV1])
      (fun db call => call.1.Orderly [claimIntakeV1] db) (.empty [])
      (escalatedCalls ++ [(.cancelWorkflow 100 "supervisor" none, numberedDraws 3)]) ∧
    ∃ run ∈ (Transition.run (OrchestratorCall.step [claimIntakeV1]) (.empty [])
        (escalatedCalls ++ [(.cancelWorkflow 100 "supervisor" none, numberedDraws 3)])
          ).contents.workflowRuns,
      ∀ current, ¬StandsAt (Transition.run (OrchestratorCall.step [claimIntakeV1]) (.empty [])
        (escalatedCalls ++ [(.cancelWorkflow 100 "supervisor" none, numberedDraws 3)])
          ).contents run current := by
  refine ⟨⟨orderly_start _ _ _ _, orderly_advance _ (by decide +kernel), trivial, trivial⟩, ?_⟩
  generalize reachedIs : Transition.run (OrchestratorCall.step [claimIntakeV1]) (.empty [])
    (escalatedCalls ++ [(.cancelWorkflow 100 "supervisor" none, numberedDraws 3)]) = reached
  have cancelled : (reached.getWorkflowRun 100).map (fun run =>
      (run.state, run.workflowRunId, run.currentStepId)) = some (.cancelled, 100, some 101) := by
    rw [← reachedIs]
    decide +kernel
  have unresolved : ((reached.contents.casesAt 100 101).filter
      fun row => row.state.isUnresolved).length = 1 := by
    rw [← reachedIs]
    decide +kernel
  obtain ⟨run, found, same⟩ := Option.map_eq_some_iff.mp cancelled
  obtain ⟨state, rest⟩ := Prod.mk.inj same
  obtain ⟨identifier, pointer⟩ := Prod.mk.inj rest
  refine ⟨run, List.mem_of_find?_eq_some found, fun current stands => ?_⟩
  have pointed := stands.pointed
  rw [pointer, Option.some.injEq] at pointed
  have awaiting := stands.awaiting.mpr (by rw [identifier, ← pointed]; exact unresolved)
  rw [state] at awaiting
  cases awaiting

end InsuranceOps
