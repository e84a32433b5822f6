/-
This file asks whether a run that is completed, failed or cancelled stays as it
is. The cancel, resolve and reject paths look at the run's state before they
write it; `advance_workflow` and `resume_after_escalation` do not, so a late
step result or a late human resolution moves a terminal run. Apart from those
calls every operation leaves the state and version of terminal runs alone, over
runs of any length.
-/

import InsuranceOps.Operations

namespace InsuranceOps

open Relational WorkflowOrchestrator

/-! ### The calls that write a terminal run -/

/-- Whether a step of a run has an escalation case. -/
def hasCase (db : Database) (workflowRunId stepId : UUID) : Bool :=
  db.escalationCases.rows.any fun row => row.workflowRunId = workflowRunId ∧ row.stepId = stepId

/-- Whether a step has an attempt with a number. -/
def hasNumber (db : Database) (stepId : UUID) (number : Nat) : Bool :=
  db.stepAttempts.rows.any fun row => row.stepId = stepId ∧ row.stepAttemptNumber = number

/-- Whether advancing on a result writes the state of the run: no step follows a success, or a
failure is not retried, unless it would open a second case for the step, which is refused. -/
def writesRun (db : Database) (workflowRunId : UUID) (currentStep : StepModel)
    (stepResult : StepResult) : Bool :=
  let refused := currentStep.escalateOnFailure && hasCase db workflowRunId currentStep.stepId
  match stepResult.status with
  | .succeeded => (nextStep (db.listSteps workflowRunId) currentStep).isNone
  | .failedRetryable =>
    decide (currentStep.maxAttempts ≤ (db.listAttempts currentStep.stepId).length) && !refused
  | .failedTerminal => !refused
  | .escalate => !hasCase db workflowRunId currentStep.stepId

/-- Whether nothing refuses the attempts that resuming after a step inserts. -/
def resumable (db : Database) (workflowRunId : UUID) (currentStep : StepModel) : Bool :=
  !hasNumber db currentStep.stepId ((db.listAttempts currentStep.stepId).length + 1) &&
    (nextStep (db.listSteps workflowRunId) currentStep).all fun step => !hasNumber db step.stepId 1

/-- Whether an operation is a late result or a late resolution that moves a terminal run. -/
def movesTerminal (db : Database) : Operation → Bool
  | .call (.advanceWorkflow workflowRunId completedStepName stepResult) =>
    (db.getWorkflowRun workflowRunId).any fun run => run.state.isTerminal &&
      (db.getStepByRunAndName workflowRunId completedStepName).any fun step =>
        writesRun db workflowRunId step stepResult
  | .call (.resumeAfterEscalation escalationId _ _) =>
    (db.getEscalationCase escalationId).any fun escalation =>
      (db.getWorkflowRun escalation.workflowRunId).any fun run => run.state.isTerminal &&
        (db.getStep escalation.stepId).any fun step => resumable db run.workflowRunId step
  | _ => false

/-! ### What each operation does to the rows of runs -/

/-- Terminal runs keep their state and version from one database to another. -/
def KeepsTerminal (before after : Database) : Prop :=
  ∀ workflowRunId run, before.getWorkflowRun workflowRunId = some run →
    run.state.isTerminal = true → ∃ later, after.getWorkflowRun workflowRunId = some later ∧
      later.state = run.state ∧ later.version = run.version

theorem keepsTerminal_refl (db : Database) : KeepsTerminal db db :=
  fun _ run found _ => ⟨run, found, rfl, rfl⟩

theorem keepsTerminal_trans (first second third : Database) (before : KeepsTerminal first second)
    (after : KeepsTerminal second third) : KeepsTerminal first third := by
  intro workflowRunId run found terminal
  obtain ⟨middle, middleFound, state, version⟩ := before workflowRunId run found terminal
  obtain ⟨later, laterFound, laterState, laterVersion⟩ :=
    after workflowRunId middle middleFound (by rw [state]; exact terminal)
  exact ⟨later, laterFound, laterState.trans state, laterVersion.trans version⟩

variable {registry : WorkflowRegistry} {db next : Database} {draws : Draws}

/-- An update of runs keeps the terminal ones if each of them it selects keeps its state and
version. -/
theorem keepsTerminal_of_updateRows (selects : WorkflowRunModel → Bool)
    (change : WorkflowRunModel → WorkflowRunModel)
    (keeps : ∀ row, (change row).workflowRunId = row.workflowRunId)
    (updated : next.contents.workflowRuns = updateRows selects change db.contents.workflowRuns)
    (spared : ∀ row, db.getWorkflowRun row.workflowRunId = some row →
      row.state.isTerminal = true → selects row = true →
      (change row).state = row.state ∧ (change row).version = row.version) :
    KeepsTerminal db next := by
  intro workflowRunId run found terminal
  have lookup := Database.getWorkflowRun_updateRows updated keeps workflowRunId
  have identified := Database.getWorkflowRun_identified found
  rw [found, Option.map_some] at lookup
  refine ⟨_, lookup, ?_⟩
  by_cases selected : selects run = true
  · rw [if_pos selected]
    exact spared run (by rw [identified]; exact found) terminal selected
  · rw [if_neg selected]
    exact ⟨rfl, rfl⟩

/-- A new run leaves the stored ones alone. -/
theorem keepsTerminal_of_started {new : NewRun} (started : Started db next new) :
    KeepsTerminal db next := by
  intro workflowRunId run found _
  refine ⟨run, ?_, rfl, rfl⟩
  rw [Database.getWorkflowRun_eq] at found ⊢
  rw [started.contents, List.find?_append, found, Option.some_or]

/-! ### Late results -/

theorem hasCase_false_of_admitted {row : EscalationCaseModel}
    (admitted : Database.CaseAdmitted db row) :
    hasCase db row.workflowRunId row.stepId = false := by
  rw [Bool.eq_false_iff, ne_eq, hasCase, List.any_eq_true]
  rintro ⟨other, stored, same⟩
  obtain ⟨sameRun, sameStep⟩ := of_decide_eq_true same
  exact admitted.single other stored sameRun sameStep

theorem hasNumber_iff {stepId : UUID} {number : Nat} :
    hasNumber db stepId number = true ↔
      ∃ row ∈ db.contents.stepAttempts, row.stepId = stepId ∧ row.stepAttemptNumber = number := by
  rw [hasNumber, List.any_eq_true]
  simp only [decide_eq_true_eq]
  exact Iff.rfl

theorem hasNumber_false_of_admitted {row : StepAttemptModel}
    (admitted : Database.AttemptAdmitted db row) :
    hasNumber db row.stepId row.stepAttemptNumber = false := by
  rw [Bool.eq_false_iff, ne_eq, hasNumber_iff]
  rintro ⟨other, stored, sameStep, sameNumber⟩
  exact admitted.numbered other stored sameStep sameNumber

/-- What an operation does to the row of one run: it keeps state and version, or it writes them
and the version grows. -/
def ChangesRun (db next : Database) (workflowRunId : UUID) (writes : Bool) : Prop :=
  ∃ change : WorkflowRunModel → WorkflowRunModel,
    (∀ row, (change row).workflowRunId = row.workflowRunId) ∧
    next.contents.workflowRuns =
      updateRows (fun row => row.workflowRunId = workflowRunId) change db.contents.workflowRuns ∧
    ∀ row, if writes then row.version < (change row).version
      else (change row).state = row.state ∧ (change row).version = row.version

/-- The row of the run after the operation. -/
theorem changesRun_getWorkflowRun {workflowRunId : UUID} {writes : Bool} {run : WorkflowRunModel}
    (changes : ChangesRun db next workflowRunId writes)
    (found : db.getWorkflowRun workflowRunId = some run) :
    ∃ later, next.getWorkflowRun workflowRunId = some later ∧
      if writes then run.version < later.version
      else later.state = run.state ∧ later.version = run.version := by
  obtain ⟨change, keeps, updated, does⟩ := changes
  exact ⟨change run, Database.getWorkflowRun_updated change updated keeps found, does run⟩

section Outcomes

variable {state : WorkflowRunState} {workflowRun : WorkflowRunModel} {steps : List StepModel}
  {currentStep : StepModel} {stepResult : StepResult} {reasonCode : String} {now : Timestamp}
  {newId : UUID} {random : UnitDraw} {event : EventDraw}

theorem handleSucceeded_changesRun
    (ran : handleSucceeded registry db workflowRun steps currentStep now newId event =
      .ok (next, state)) :
    ChangesRun db next workflowRun.workflowRunId (nextStep steps currentStep).isNone := by
  rcases handleSucceeded_ok ran with ⟨last, -, contents⟩ | ⟨successor, found, -, -, contents⟩
  · refine ⟨WorkflowRunModel.complete now, fun _ => rfl, by rw [contents], fun row => ?_⟩
    rw [last]
    exact Nat.lt_succ_self row.version
  · refine ⟨WorkflowRunModel.moveTo successor.stepId now, fun _ => rfl, by rw [contents],
      fun row => ?_⟩
    rw [found]
    exact ⟨rfl, rfl⟩

theorem createEscalation_changesRun
    (ran : createEscalation db workflowRun currentStep stepResult reasonCode now newId event =
      .ok (next, state)) :
    ChangesRun db next workflowRun.workflowRunId
      (!hasCase db workflowRun.workflowRunId currentStep.stepId) := by
  obtain ⟨-, admitted, contents⟩ := createEscalation_ok ran
  refine ⟨WorkflowRunModel.awaitHuman stepResult now, fun _ => rfl, by rw [contents], fun row => ?_⟩
  rw [show hasCase db workflowRun.workflowRunId currentStep.stepId = false from
    hasCase_false_of_admitted admitted]
  exact Nat.lt_succ_self row.version

theorem handleFailedTerminal_changesRun
    (ran : handleFailedTerminal db workflowRun currentStep stepResult now newId event =
      .ok (next, state)) :
    ChangesRun db next workflowRun.workflowRunId (!(currentStep.escalateOnFailure &&
      hasCase db workflowRun.workflowRunId currentStep.stepId)) := by
  rcases handleFailedTerminal_ok ran with ⟨escalates, created⟩ | ⟨fails, -, contents⟩
  · obtain ⟨change, keeps, updated, does⟩ := createEscalation_changesRun created
    rw [escalates, Bool.true_and]
    exact ⟨change, keeps, updated, does⟩
  · refine ⟨WorkflowRunModel.fail stepResult now, fun _ => rfl, by rw [contents], fun row => ?_⟩
    rw [fails]
    exact Nat.lt_succ_self row.version

theorem handleFailedRetryable_changesRun
    (ran : handleFailedRetryable registry db workflowRun currentStep stepResult now newId random
      event = .ok (next, state)) :
    ChangesRun db next workflowRun.workflowRunId
      (decide (currentStep.maxAttempts ≤ (db.listAttempts currentStep.stepId).length) &&
        !(currentStep.escalateOnFailure &&
          hasCase db workflowRun.workflowRunId currentStep.stepId)) := by
  rcases handleFailedRetryable_ok ran with ⟨budget, -, -, contents⟩ | ⟨exhausted, handled⟩
  · refine ⟨id, fun _ => rfl, by rw [contents, updateRows_id], fun row => ?_⟩
    rw [decide_eq_false (not_le.mpr budget), Bool.false_and]
    exact ⟨rfl, rfl⟩
  · rw [decide_eq_true exhausted, Bool.true_and]
    exact handleFailedTerminal_changesRun handled

end Outcomes

/-- Advancing changes the row of its run only, and its state and version only when it is said to
write them. -/
theorem advanceWorkflow_changesRun {workflowRunId : UUID} {completedStepName : String}
    {stepResult : StepResult} {state : WorkflowRunState}
    (ran : advanceWorkflow registry db draws workflowRunId completedStepName stepResult =
      .ok (next, state)) :
    ∃ workflowRun currentStep, db.getWorkflowRun workflowRunId = some workflowRun ∧
      db.getStepByRunAndName workflowRunId completedStepName = some currentStep ∧
      ChangesRun db next workflowRunId (writesRun db workflowRunId currentStep stepResult) := by
  obtain ⟨workflowRun, currentStep, found, named, handled⟩ := advanceWorkflow_ok ran
  obtain rfl := Database.getWorkflowRun_identified found
  refine ⟨workflowRun, currentStep, found, named, ?_⟩
  unfold writesRun
  cases status : stepResult.status with
  | succeeded =>
    rw [status] at handled
    exact handleSucceeded_changesRun handled
  | failedRetryable =>
    rw [status] at handled
    exact handleFailedRetryable_changesRun handled
  | failedTerminal =>
    rw [status] at handled
    exact handleFailedTerminal_changesRun handled
  | escalate =>
    rw [status] at handled
    exact createEscalation_changesRun handled

/-! ### Late resolutions -/

/-- Resuming needs a step nothing refuses to resume after; it puts the run in `running` and then
changes it as a success of the step does. -/
theorem resumeAfterEscalation_changesRun {escalationId : UUID} {resolutionPayload : JsonObject}
    {actor : String} {state : WorkflowRunState}
    (ran : resumeAfterEscalation registry db draws escalationId resolutionPayload actor =
      .ok (next, state)) :
    ∃ escalation currentStep workflowRun resumed writes,
      db.getEscalationCase escalationId = some escalation ∧
      db.getStep escalation.stepId = some currentStep ∧
      db.getWorkflowRun escalation.workflowRunId = some workflowRun ∧
      resumable db workflowRun.workflowRunId currentStep = true ∧
      resumed.contents.workflowRuns = updateRows
        (fun row => row.workflowRunId = workflowRun.workflowRunId)
        (WorkflowRunModel.resume (draws.now 0)) db.contents.workflowRuns ∧
      ChangesRun resumed next workflowRun.workflowRunId writes := by
  obtain ⟨escalation, currentStep, workflowRun, foundCase, foundStep, foundRun, admitted, resumed,
    contents, handled⟩ := resumeAfterEscalation_ok ran
  refine ⟨escalation, currentStep, workflowRun, resumed, _, foundCase, foundStep, foundRun, ?_,
    by rw [contents], handleSucceeded_changesRun handled⟩
  have number : hasNumber db currentStep.stepId
      ((db.listAttempts currentStep.stepId).length + 1) = false :=
    hasNumber_false_of_admitted admitted
  rw [resumable, number, Bool.not_false, Bool.true_and]
  cases following : nextStep (db.listSteps workflowRun.workflowRunId) currentStep with
  | none => rfl
  | some successor =>
    have steps : resumed.contents.steps = updateRows (fun row => row.stepId = currentStep.stepId)
        (StepModel.succeed (draws.now 0)) db.contents.steps := by
      rw [contents]
    have shifted : nextStep (resumed.listSteps workflowRun.workflowRunId) currentStep = _ :=
      nextStep_updateRows steps (fun _ => ⟨rfl, rfl⟩) _
    rw [following, Option.map_some] at shifted
    rcases handleSucceeded_ok handled with ⟨last, -⟩ | ⟨other, found, -, free, -⟩
    · rw [shifted] at last
      cases last
    · rw [shifted] at found
      have sameStep : other.stepId = successor.stepId := by
        rw [← Option.some.inj found]
        split <;> rfl
      have absent : ∀ row ∈ resumed.contents.stepAttempts, row.stepId = other.stepId →
        row.stepAttemptNumber ≠ 1 := free.numbered
      have kept : ∀ row ∈ db.contents.stepAttempts, row ∈ resumed.contents.stepAttempts := by
        rw [contents]
        exact fun row stored => List.mem_append_left _ stored
      rw [Option.all_some, Bool.not_eq_true', Bool.eq_false_iff, ne_eq, hasNumber_iff]
      rintro ⟨row, stored, sameId, numbered⟩
      exact absent row (kept row stored) (sameId.trans sameStep.symm) numbered

/-! ### Runs of operations -/

theorem keepsTerminal_of_changesRun {workflowRunId : UUID} {writes : Bool}
    (changes : ChangesRun db next workflowRunId writes)
    (spared : ∀ run, db.getWorkflowRun workflowRunId = some run → run.state.isTerminal = true →
      writes = false) : KeepsTerminal db next := by
  obtain ⟨change, keeps, updated, does⟩ := changes
  refine keepsTerminal_of_updateRows _ change keeps updated fun row found terminal selected => ?_
  rw [of_decide_eq_true selected] at found
  have kept := does row
  rw [spared row found terminal] at kept
  exact kept

/-- An update of the rows of one run keeps terminal runs when that run is not terminal. -/
theorem keepsTerminal_of_open {workflowRunId : UUID} {run : WorkflowRunModel}
    (found : db.getWorkflowRun workflowRunId = some run) (opened : run.state.isTerminal = false)
    (change : WorkflowRunModel → WorkflowRunModel)
    (keeps : ∀ row, (change row).workflowRunId = row.workflowRunId)
    (updated : next.contents.workflowRuns =
      updateRows (fun row => row.workflowRunId = workflowRunId) change db.contents.workflowRuns) :
    KeepsTerminal db next := by
  refine keepsTerminal_of_updateRows _ change keeps updated fun row lookup terminal selected => ?_
  rw [of_decide_eq_true selected, found] at lookup
  rw [← Option.some.inj lookup, opened] at terminal
  cases terminal

theorem OrchestratorCall.keepsTerminal {call : OrchestratorCall}
    (spared : movesTerminal db (.call call) = false)
    (ran : call.perform registry db draws = .ok next) : KeepsTerminal db next := by
  cases call with
  | startWorkflowRun workflowName workflowVersion documentIds actor correlationId deadline =>
    obtain ⟨_, ran⟩ := OrchestratorCall.perform_start ran
    obtain ⟨new, started, -⟩ := startWorkflowRun_ok ran
    exact keepsTerminal_of_started started
  | advanceWorkflow workflowRunId completedStepName stepResult =>
    obtain ⟨_, ran⟩ := OrchestratorCall.perform_advance ran
    obtain ⟨workflowRun, currentStep, found, named, changes⟩ := advanceWorkflow_changesRun ran
    refine keepsTerminal_of_changesRun changes fun run lookup terminal => ?_
    simpa [movesTerminal, lookup, named, terminal] using spared
  | resumeAfterEscalation escalationId resolutionPayload actor =>
    obtain ⟨_, ran⟩ := OrchestratorCall.perform_resume ran
    obtain ⟨escalation, currentStep, workflowRun, resumed, writes, foundCase, foundStep, foundRun,
      resumes, updated, changes⟩ := resumeAfterEscalation_changesRun ran
    have opened : workflowRun.state.isTerminal = false := by
      simpa [movesTerminal, foundCase, foundStep, foundRun, resumes] using spared
    rw [← Database.getWorkflowRun_identified foundRun] at foundRun
    have resumedKeeps : KeepsTerminal db resumed :=
      keepsTerminal_of_open foundRun opened (WorkflowRunModel.resume (draws.now 0)) (fun _ => rfl)
        updated
    have resumedRun := Database.getWorkflowRun_updated (WorkflowRunModel.resume (draws.now 0))
      updated (fun _ => rfl) foundRun
    refine keepsTerminal_trans _ _ _ resumedKeeps
      (keepsTerminal_of_changesRun changes fun run lookup terminal => ?_)
    rw [resumedRun] at lookup
    rw [← Option.some.inj lookup] at terminal
    cases terminal
  | cancelWorkflow workflowRunId actor reason =>
    obtain ⟨workflowRun, found, can, contents⟩ := cancelWorkflow_ok ran
    exact keepsTerminal_of_open found (cancellable_not_terminal can)
      (WorkflowRunModel.cancel (draws.now 0)) (fun _ => rfl) (by rw [contents])

theorem RouteRequest.keepsTerminal {request : RouteRequest} {principal : ApiKeyPrincipal}
    (ran : request.perform registry db draws principal = .ok next) : KeepsTerminal db next := by
  cases request with
  | createWorkflowRun body =>
    obtain ⟨_, ran⟩ := RouteRequest.perform_create ran
    obtain ⟨new, started, -⟩ := createWorkflowRun_ok ran
    exact keepsTerminal_of_started started
  | cancelWorkflowRun workflowRunId body =>
    obtain ⟨run, _, found, can, contents⟩ := cancelWorkflowRun_ok ran
    exact keepsTerminal_of_open found (cancellable_not_terminal can)
      (WorkflowRunModel.cancel (draws.now 0)) (fun _ => rfl) (by rw [contents])
  | claimEscalation escalationId =>
    obtain ⟨_, _, _, _, contents⟩ := claimEscalation_ok ran
    refine keepsTerminal_of_updateRows (fun _ => false) id (fun _ => rfl)
      (by rw [contents, updateRows_id]) fun _ _ _ selected => ?_
    cases selected
  | resolveEscalation escalationId body =>
    obtain ⟨esc, _, _, _, _, _, contents⟩ := resolveEscalation_ok ran
    refine keepsTerminal_of_updateRows _ (WorkflowRunModel.resumeWaiting (draws.now 0))
      (fun _ => rfl) (by rw [contents]) fun row _ terminal selected => ?_
    rw [(of_decide_eq_true selected).2] at terminal
    cases terminal
  | rejectEscalation escalationId body =>
    obtain ⟨esc, _, _, _, _, contents⟩ := rejectEscalation_ok ran
    refine keepsTerminal_of_updateRows _ (WorkflowRunModel.rejectCase body.notes (draws.now 0))
      (fun _ => rfl) (by rw [contents]) fun row _ terminal selected => ?_
    rcases (of_decide_eq_true selected).2 with running | waiting
    · rw [running] at terminal
      cases terminal
    · rw [waiting] at terminal
      cases terminal

/-- A late result or late resolution that succeeds moves a terminal run. -/
theorem OrchestratorCall.not_keepsTerminal {call : OrchestratorCall}
    (moves : movesTerminal db (.call call) = true)
    (ran : call.perform registry db draws = .ok next) : ¬KeepsTerminal db next := by
  intro keeps
  cases call with
  | startWorkflowRun workflowName workflowVersion documentIds actor correlationId deadline =>
    cases moves
  | cancelWorkflow workflowRunId actor reason => cases moves
  | advanceWorkflow workflowRunId completedStepName stepResult =>
    obtain ⟨_, ran⟩ := OrchestratorCall.perform_advance ran
    obtain ⟨run, currentStep, found, named, changes⟩ := advanceWorkflow_changesRun ran
    obtain ⟨terminal, writes⟩ : run.state.isTerminal = true ∧
        writesRun db workflowRunId currentStep stepResult = true := by
      simpa [movesTerminal, found, named] using moves
    obtain ⟨later, lookup, grown⟩ := changesRun_getWorkflowRun changes found
    obtain ⟨kept, keptLookup, -, version⟩ := keeps workflowRunId run found terminal
    rw [writes, if_pos rfl] at grown
    rw [lookup, Option.some.injEq] at keptLookup
    rw [keptLookup] at grown
    exact absurd version grown.ne'
  | resumeAfterEscalation escalationId resolutionPayload actor =>
    obtain ⟨_, ran⟩ := OrchestratorCall.perform_resume ran
    obtain ⟨escalation, currentStep, run, resumed, writes, foundCase, foundStep, found, -, updated,
      changes⟩ := resumeAfterEscalation_changesRun ran
    obtain ⟨terminal, -⟩ : run.state.isTerminal = true ∧
        resumable db run.workflowRunId currentStep = true := by
      simpa [movesTerminal, foundCase, foundStep, found] using moves
    rw [← Database.getWorkflowRun_identified found] at found
    have resumedRun := Database.getWorkflowRun_updated (WorkflowRunModel.resume (draws.now 0))
      updated (fun _ => rfl) found
    obtain ⟨later, lookup, grown⟩ := changesRun_getWorkflowRun changes resumedRun
    obtain ⟨kept, keptLookup, -, version⟩ := keeps run.workflowRunId run found terminal
    rw [lookup, Option.some.injEq] at keptLookup
    rw [keptLookup] at grown
    have resumedVersion : run.version + 1 ≤ kept.version := by
      cases writes with
      | true => exact grown.le
      | false => exact grown.2.ge
    exact absurd version (Nat.lt_of_succ_le resumedVersion).ne'

/-- One operation that is not a late result or late resolution keeps every terminal run. -/
theorem Operation.step_keepsTerminal (registry : WorkflowRegistry) (db : Database)
    (operation : Operation × Draws) (spared : movesTerminal db operation.1 = false) :
    KeepsTerminal db (Operation.step registry db operation) := by
  refine commit_induction (KeepsTerminal db) (keepsTerminal_refl db) fun next ran => ?_
  obtain ⟨operation, draws⟩ := operation
  cases operation with
  | call made => exact OrchestratorCall.keepsTerminal spared ran
  | request made principal => exact RouteRequest.keepsTerminal ran

/-- In every run of operations none of which is a late result or a late resolution that moves a
terminal run, a run that is once completed, failed or cancelled keeps its state and version. Each
operation is looked at once, and what it keeps of terminal runs is composed along the run. -/
theorem terminal_absorbing (registry : WorkflowRegistry) (start : Database)
    (operations : List (Operation × Draws))
    (spared : Transition.Along (Operation.step registry)
      (fun db operation => movesTerminal db operation.1 = false) start operations)
    (workflowRunId : UUID) (run : WorkflowRunModel)
    (found : start.getWorkflowRun workflowRunId = some run)
    (terminal : run.state.isTerminal = true) :
    ∃ later, (Transition.run (Operation.step registry) start operations).getWorkflowRun
      workflowRunId = some later ∧ later.state = run.state ∧ later.version = run.version :=
  Transition.run_relates (Operation.step registry) KeepsTerminal keepsTerminal_refl
    keepsTerminal_trans (Operation.step_keepsTerminal registry) start operations spared
    workflowRunId run found terminal

/-! ### A cancelled run -/

/-- A run of the registered workflow is started and then cancelled. -/
def cancelledRun : Database :=
  Transition.run (Operation.step [claimIntakeV1]) (.empty []) [
    (.call (.startWorkflowRun "claim_intake" "v1" [] "api" "c" none), numberedDraws 1),
    (.call (.cancelWorkflow 100 "supervisor" none), numberedDraws 2)]

/-- A success of the first step that arrives late schedules the second step, and the run stays
cancelled at its version. -/
theorem terminal_absorbing_lateSuccess :
    ∃ later, (Transition.run (Operation.step [claimIntakeV1]) cancelledRun [
        (.call (.advanceWorkflow 100 "ingest" { status := .succeeded }), numberedDraws 3)]
      ).getWorkflowRun 100 = some later ∧ later.state = .cancelled ∧ later.version = 2 := by
  have cancelled : (cancelledRun.getWorkflowRun 100).map (fun run => (run.state, run.version)) =
      some (.cancelled, 2) := by decide +kernel
  obtain ⟨run, found, same⟩ := Option.map_eq_some_iff.mp cancelled
  obtain ⟨state, version⟩ := Prod.mk.inj same
  have absorbed := terminal_absorbing [claimIntakeV1] cancelledRun
    [(.call (.advanceWorkflow 100 "ingest" { status := .succeeded }), numberedDraws 3)]
    ⟨by decide +kernel, trivial⟩ 100 run found (by rw [state]; rfl)
  rwa [state, version] at absorbed

/-- A terminal failure of the first step that arrives late fails the cancelled run. -/
theorem cancelled_fails_late :
    (cancelledRun.getWorkflowRun 100).map (fun run => (run.state, run.version)) =
      some (.cancelled, 2) ∧
    ((Transition.run (Operation.step [claimIntakeV1]) cancelledRun [
        (.call (.advanceWorkflow 100 "ingest" { status := .failedTerminal }), numberedDraws 3)]
      ).getWorkflowRun 100).map (fun run => (run.state, run.version)) = some (.failed, 3) := by
  decide +kernel

end InsuranceOps
