/-
This file proves the frontier invariant of the orchestrator: in every state
reached by calls made in the order the platform makes them, each run stands at
one step and its state fits that step and the step's escalation cases. A run is
waiting for a human exactly while its step has one unresolved case, as long as
no run is cancelled while it waits: cancelling closes no case.
-/

import InsuranceOps.Cursor

namespace InsuranceOps

open Relational WorkflowOrchestrator

/-! ### The invariant -/

/-- Whether a case still asks for a decision. -/
def EscalationState.isUnresolved : EscalationState → Bool
  | .opened | .claimed => true
  | .resolved | .rejected | .expired => false

/-- What the state of a run says of the step it stands at, whether that step is the last one, and
the cases of the step. -/
def StateFits (state : WorkflowRunState) (current : StepModel) (last : Prop)
    (cases : List EscalationCaseModel) : Prop :=
  match state with
  | .pending => False
  | .running => current.state ≠ .succeeded ∧ cases = []
  | .awaitingHuman => current.state ≠ .succeeded ∧
      ∃ row, cases = [row] ∧ row.state.isUnresolved = true
  | .completed => current.state = .succeeded ∧ last ∧ ∀ row ∈ cases, row.state = .resolved
  | .failed => current.state = .failedTerminal ∧ current.escalateOnFailure = false ∧ cases = []
  | .cancelled => current.state ≠ .succeeded ∧ cases = []

/-- A run stands at a step and its state fits. -/
structure Frontier (contents : Contents) (run : WorkflowRunModel) (current : StepModel) : Prop
    extends Cursor contents run current where
  fits : StateFits run.state current
    (current.stepIndex + 1 = (contents.stepsOf run.workflowRunId).length)
    (contents.casesAt run.workflowRunId current.stepId)

/-- Every run but one is at its frontier, and steps and cases belong to stored runs. -/
structure ConsistentBut (contents : Contents) (workflowRunId : UUID) : Prop where
  attempts : AttemptsSound contents
  stepOwners : ∀ step ∈ contents.steps,
    ∃ run ∈ contents.workflowRuns, run.workflowRunId = step.workflowRunId
  caseOwners : ∀ row ∈ contents.escalationCases,
    ∃ run ∈ contents.workflowRuns, run.workflowRunId = row.workflowRunId
  frontiers : ∀ run ∈ contents.workflowRuns, run.workflowRunId ≠ workflowRunId →
    ∃ current, Frontier contents run current

/-- Every run is at its frontier. -/
structure Consistent (contents : Contents) : Prop where
  attempts : AttemptsSound contents
  stepOwners : ∀ step ∈ contents.steps,
    ∃ run ∈ contents.workflowRuns, run.workflowRunId = step.workflowRunId
  caseOwners : ∀ row ∈ contents.escalationCases,
    ∃ run ∈ contents.workflowRuns, run.workflowRunId = row.workflowRunId
  frontiers : ∀ run ∈ contents.workflowRuns, ∃ current, Frontier contents run current

theorem consistent_but {contents : Contents} (consistent : Consistent contents)
    (workflowRunId : UUID) : ConsistentBut contents workflowRunId :=
  ⟨consistent.attempts, consistent.stepOwners, consistent.caseOwners,
    fun run member _ => consistent.frontiers run member⟩

theorem consistent_empty (documents : List UUID) :
    Consistent (Database.empty documents).contents where
  attempts := attemptsSound_empty documents
  stepOwners _ member := absurd member List.not_mem_nil
  caseOwners _ member := absurd member List.not_mem_nil
  frontiers _ member := absurd member List.not_mem_nil

/-! ### Writes that concern one run -/

variable {registry : WorkflowRegistry} {db next : Database} {draws : Draws}

theorem frontier_frame {before after : Contents} {run : WorkflowRunModel} {current : StepModel}
    (frontier : Frontier before run current) (same : SameRun before after run.workflowRunId) :
    Frontier after run current := by
  refine ⟨cursor_frame frontier.toCursor same, ?_⟩
  rw [same.steps, Contents.casesAt, same.cases]
  exact frontier.fits

/-- A write to the rows of one run keeps the others at their frontiers. -/
theorem consistentBut_of_only {workflowRunId : UUID} (change : WorkflowRunModel → WorkflowRunModel)
    (consistent : ConsistentBut db.contents workflowRunId)
    (only : OnlyRun db.contents next.contents workflowRunId)
    (attempts : AttemptsSound next.contents)
    (runs : next.contents.workflowRuns =
      updateRows (fun row => row.workflowRunId = workflowRunId) change db.contents.workflowRuns)
    (keeps : ∀ row, (change row).workflowRunId = row.workflowRunId)
    (steps : next.contents.steps.map (fun row => row.workflowRunId) =
      db.contents.steps.map fun row => row.workflowRunId)
    (cases : ∀ row ∈ next.contents.escalationCases, row.workflowRunId = workflowRunId ∨
      ∃ old ∈ db.contents.escalationCases, old.workflowRunId = row.workflowRunId)
    {run : WorkflowRunModel} (found : db.getWorkflowRun workflowRunId = some run) :
    ConsistentBut next.contents workflowRunId := by
  have kept : ∀ old ∈ db.contents.workflowRuns,
      ∃ later ∈ next.contents.workflowRuns, later.workflowRunId = old.workflowRunId := by
    rw [runs]
    intro old member
    refine ⟨_, mem_updateRows.mpr ⟨old, member, rfl⟩, ?_⟩
    split
    · exact keeps old
    · rfl
  refine ⟨attempts, fun step member => ?_, fun row member => ?_, fun other member different => ?_⟩
  · have listed := List.mem_map_of_mem (f := fun row : StepModel => row.workflowRunId) member
    rw [steps] at listed
    obtain ⟨old, stored, same⟩ := List.mem_map.mp listed
    obtain ⟨owner, ownerStored, owns⟩ := consistent.stepOwners old stored
    obtain ⟨later, laterStored, sameRun⟩ := kept owner ownerStored
    exact ⟨later, laterStored, sameRun.trans (owns.trans same)⟩
  · rcases cases row member with own | ⟨old, stored, same⟩
    · obtain ⟨later, laterStored, sameRun⟩ := kept run (List.mem_of_find?_eq_some found)
      exact ⟨later, laterStored,
        sameRun.trans ((Database.getWorkflowRun_identified found).trans own.symm)⟩
    · obtain ⟨owner, ownerStored, owns⟩ := consistent.caseOwners old stored
      obtain ⟨later, laterStored, sameRun⟩ := kept owner ownerStored
      exact ⟨later, laterStored, sameRun.trans (owns.trans same)⟩
  · rw [runs] at member
    obtain ⟨old, stored, same⟩ := mem_updateRows.mp member
    by_cases selected : old.workflowRunId = workflowRunId
    · rw [if_pos (decide_eq_true selected)] at same
      rw [← same, keeps old] at different
      exact absurd selected different
    · rw [if_neg (by rwa [decide_eq_true_eq])] at same
      rw [← same]
      obtain ⟨current, frontier⟩ := consistent.frontiers old stored selected
      exact ⟨current, frontier_frame frontier (sameRun_of_only only selected db.steps_distinct)⟩

/-- With the remaining run at its frontier too, every run is. -/
theorem consistent_of_own {workflowRunId : UUID} {run : WorkflowRunModel} {current : StepModel}
    (consistent : ConsistentBut db.contents workflowRunId)
    (found : db.getWorkflowRun workflowRunId = some run)
    (frontier : Frontier db.contents run current) : Consistent db.contents := by
  refine ⟨consistent.attempts, consistent.stepOwners, consistent.caseOwners, fun other member => ?_⟩
  by_cases same : other.workflowRunId = workflowRunId
  · rw [eq_of_find? (fun row : WorkflowRunModel => row.workflowRunId) db.workflowRuns_distinct found
      member same]
    exact ⟨current, frontier⟩
  · exact consistent.frontiers other member same

/-- A write to the rows of one run that leaves it at its frontier. -/
theorem consistent_of_only {workflowRunId : UUID} {run : WorkflowRunModel} {current : StepModel}
    (change : WorkflowRunModel → WorkflowRunModel)
    (consistent : ConsistentBut db.contents workflowRunId)
    (only : OnlyRun db.contents next.contents workflowRunId)
    (attempts : AttemptsSound next.contents)
    (runs : next.contents.workflowRuns =
      updateRows (fun row => row.workflowRunId = workflowRunId) change db.contents.workflowRuns)
    (keeps : ∀ row, (change row).workflowRunId = row.workflowRunId)
    (steps : next.contents.steps.map (fun row => row.workflowRunId) =
      db.contents.steps.map fun row => row.workflowRunId)
    (cases : ∀ row ∈ next.contents.escalationCases, row.workflowRunId = workflowRunId ∨
      ∃ old ∈ db.contents.escalationCases, old.workflowRunId = row.workflowRunId)
    (found : db.getWorkflowRun workflowRunId = some run)
    (frontier : Frontier next.contents (change run) current) : Consistent next.contents :=
  consistent_of_own (consistentBut_of_only change consistent only attempts runs keeps steps cases
    found) (Database.getWorkflowRun_updated change runs keeps found) frontier

/-! ### The outcomes of the current step -/

section Outcomes

variable {state : WorkflowRunState} {run workflowRun : WorkflowRunModel}
  {current currentStep : StepModel} {stepResult : StepResult} {reasonCode : String}
  {now : Timestamp} {newId : UUID} {random : UnitDraw} {event : EventDraw}

/-- Changing the state of the current step leaves every run where it stands. -/
theorem updateStep_cursor (change : StepModel → StepModel)
    (keeps : ∀ row, (change row).stepId = row.stepId ∧
      (change row).workflowRunId = row.workflowRunId ∧ (change row).stepIndex = row.stepIndex ∧
      (change row).stepName = row.stepName)
    (budget : ∀ row, (change row).budget = row.budget)
    (consistent : ConsistentBut db.contents run.workflowRunId)
    (found : db.getWorkflowRun run.workflowRunId = some run)
    (cursor : Cursor db.contents run current) :
    ConsistentBut (db.updateStep current.stepId change keeps).contents run.workflowRunId ∧
      Cursor (db.updateStep current.stepId change keeps).contents run (change current) := by
  have only : OnlyRun db.contents (db.updateStep current.stepId change keeps).contents
      run.workflowRunId :=
    onlyRun_updateStep change rfl (fun row => ⟨(keeps row).1, (keeps row).2.1⟩) rfl rfl
      db.steps_distinct cursor.stored
  have sound : AttemptsSound (db.updateStep current.stepId change keeps).contents :=
    attemptsSound_of_same consistent.attempts rfl (budget_updateRows _ change budget _)
  constructor
  · exact consistentBut_of_only id consistent only sound (updateRows_id _ _).symm (fun _ => rfl)
      (updateRows_map _ change _ (fun row => (keeps row).2.1) _)
      (fun row member => .inr ⟨row, member, rfl⟩) found
  · exact cursor_change change cursor db.steps_distinct rfl rfl
      (stepsOf_updateRows change rfl (fun row => (keeps row).2.1) _)
      (fun row => ⟨(keeps row).1, (keeps row).2.2.1⟩) (fun _ _ => rfl)
      (fun row member => .inr member)

/-- A run is completed whose last step has succeeded and whose cases are resolved. -/
theorem complete_consistent {events : List AuditEventModel}
    (consistent : ConsistentBut db.contents run.workflowRunId)
    (found : db.getWorkflowRun run.workflowRunId = some run)
    (cursor : Cursor db.contents run current) (succeeded : current.state = .succeeded)
    (last : current.stepIndex + 1 = (db.contents.stepsOf run.workflowRunId).length)
    (resolved : ∀ row ∈ db.contents.casesAt run.workflowRunId current.stepId,
      row.state = .resolved)
    (contents : next.contents = { db.contents with
      workflowRuns := updateRows (fun row => row.workflowRunId = run.workflowRunId)
        (WorkflowRunModel.complete now) db.contents.workflowRuns
      auditEvents := events }) : Consistent next.contents := by
  have only : OnlyRun db.contents next.contents run.workflowRunId :=
    onlyRun_of_same _ (by rw [contents]) (by rw [contents]) (by rw [contents])
  have sound : AttemptsSound next.contents :=
    attemptsSound_of_same consistent.attempts (by rw [contents]) (by rw [contents])
  have frontier : Frontier next.contents (WorkflowRunModel.complete now run) current := by
    rw [contents]
    exact ⟨⟨cursor.stored, cursor.pointed, cursor.indexed, cursor.below, cursor.above,
      cursor.placed, cursor.behind⟩, succeeded, last, resolved⟩
  exact consistent_of_only _ consistent only sound (congrArg Contents.workflowRuns contents)
    (fun _ => rfl) (by rw [contents])
    (fun row member => .inr ⟨row, by rwa [contents] at member, rfl⟩) found frontier

/-- A run moves from a step that has succeeded to the next one, which gets its first attempt. -/
theorem moveTo_consistent {successor : StepModel} {tasks : List TasksOutboxModel} {sequence : Nat}
    {events : List AuditEventModel} (consistent : ConsistentBut db.contents run.workflowRunId)
    (found : db.getWorkflowRun run.workflowRunId = some run) (running : run.state = .running)
    (cursor : Cursor db.contents run current) (succeeded : current.state = .succeeded)
    (resolved : ∀ row ∈ db.contents.casesAt run.workflowRunId current.stepId,
      row.state = .resolved)
    (listed : successor ∈ db.contents.stepsOf run.workflowRunId)
    (index : successor.stepIndex = current.stepIndex + 1) (sound : AttemptsSound next.contents)
    (contents : next.contents = { db.contents with
      stepAttempts := db.contents.stepAttempts ++ [queuedAttempt newId successor.stepId 1 none now]
      workflowRuns := updateRows (fun row => row.workflowRunId = run.workflowRunId)
        (WorkflowRunModel.moveTo successor.stepId now) db.contents.workflowRuns
      tasksOutbox := tasks
      outboxSequence := sequence
      auditEvents := events }) : Consistent next.contents := by
  have later : current.stepIndex < successor.stepIndex := by omega
  have attempts : next.contents.stepAttempts = _ := congrArg Contents.stepAttempts contents
  have only : OnlyRun db.contents next.contents run.workflowRunId :=
    onlyRun_appendAttempt (by rw [contents]) attempts (by rw [contents]) listed rfl
  have reached : Cursor next.contents (WorkflowRunModel.moveTo successor.stepId now run)
      successor :=
    cursor_move cursor succeeded resolved listed index rfl rfl (by rw [contents]; rfl)
      (fun stepId foreign => attemptsOf_append_of_ne attempts foreign.symm)
      (by rw [contents]; rfl) db.steps_distinct
  have queued : successor.state = .queued := (cursor.above successor listed later).1
  have unescalated : db.contents.casesAt run.workflowRunId successor.stepId = [] :=
    casesAt_eq_nil cursor db.steps_distinct listed later
  refine consistent_of_only _ consistent only sound (congrArg Contents.workflowRuns contents)
    (fun _ => rfl) (by rw [contents])
    (fun row member => .inr ⟨row, by rwa [contents] at member, rfl⟩) found ⟨reached, ?_⟩
  show StateFits run.state _ _ _
  rw [running, contents]
  exact ⟨by rw [queued]; exact nofun, unescalated⟩

/-- A success of the current step completes the run or moves it to the next step. -/
theorem handleSucceeded_consistent (cursor : Cursor db.contents run current)
    (consistent : ConsistentBut db.contents run.workflowRunId)
    (found : db.getWorkflowRun run.workflowRunId = some run) (running : run.state = .running)
    (resolved : ∀ row ∈ db.contents.casesAt run.workflowRunId current.stepId,
      row.state = .resolved)
    (sameRun : workflowRun.workflowRunId = run.workflowRunId)
    (sameStep : currentStep.stepId = current.stepId)
    (sameIndex : currentStep.stepIndex = current.stepIndex)
    (ran : handleSucceeded registry db workflowRun (db.listSteps run.workflowRunId) currentStep now
      newId event = .ok (next, state)) : Consistent next.contents := by
  have sound := handleSucceeded_attemptsSound consistent.attempts ran
  have sameNext : nextStep (db.listSteps run.workflowRunId) currentStep =
      nextStep (db.listSteps run.workflowRunId) current := by
    rw [nextStep, nextStep, sameIndex]
  let stepped := db.updateStep current.stepId (StepModel.succeed now)
  have steps : stepped.contents.stepsOf run.workflowRunId = updateRows
      (fun row => row.stepId = current.stepId) (StepModel.succeed now)
      (db.contents.stepsOf run.workflowRunId) :=
    stepsOf_updateRows (StepModel.succeed now) rfl (fun _ => rfl) _
  obtain ⟨but, succeeded⟩ : ConsistentBut stepped.contents run.workflowRunId ∧
      Cursor stepped.contents run (StepModel.succeed now current) :=
    updateStep_cursor _ _ (fun _ => rfl) consistent found cursor
  have foundStepped : stepped.getWorkflowRun run.workflowRunId = some run := found
  rcases handleSucceeded_ok ran with ⟨last, -, contents⟩ | ⟨successor, following, -, -, contents⟩
  · rw [sameRun, sameStep] at contents
    rw [sameNext] at last
    have length : (stepped.contents.stepsOf run.workflowRunId).length =
        (db.contents.stepsOf run.workflowRunId).length := by
      rw [steps, updateRows_length]
    exact complete_consistent but foundStepped succeeded rfl
      ((last_of_nextStep_none cursor last).trans (congrArg _ length.symm)) resolved contents
  · rw [sameNext] at following
    rw [sameRun, sameStep] at contents
    obtain ⟨stored, owner, index⟩ := nextStep_mem following
    have other : successor.stepId ≠ current.stepId := by
      intro same
      have equal := List.inj_on_of_nodup_map db.steps_distinct stored
        (mem_stepsOf.mp cursor.stored).1 same
      rw [equal] at index
      omega
    have listed : successor ∈ stepped.contents.stepsOf run.workflowRunId := by
      rw [steps]
      exact mem_updateRows_of_not (mem_stepsOf.mpr ⟨stored, owner⟩) (decide_eq_false other)
    exact moveTo_consistent but foundStepped running succeeded rfl resolved listed index sound
      contents

/-- An escalation opens the only case of the current step. -/
theorem createEscalation_consistent (consistent : ConsistentBut db.contents run.workflowRunId)
    (found : db.getWorkflowRun run.workflowRunId = some run)
    (cursor : Cursor db.contents run current) (unsucceeded : current.state ≠ .succeeded)
    (free : db.contents.casesAt run.workflowRunId current.stepId = [])
    (sameStep : currentStep.stepId = current.stepId)
    (ran : createEscalation db run currentStep stepResult reasonCode now newId event =
      .ok (next, state)) : Consistent next.contents := by
  have sound := createEscalation_attemptsSound consistent.attempts ran
  obtain ⟨-, -, contents⟩ := createEscalation_ok ran
  rw [sameStep] at contents
  let row := escalationRow newId run.workflowRunId current.stepId stepResult reasonCode now
  have cases : next.contents.escalationCases = db.contents.escalationCases ++ [row] := by
    rw [contents]
  have casesOf : next.contents.casesOf run.workflowRunId =
      db.contents.casesOf run.workflowRunId ++ [row] := by
    rw [Contents.casesOf, cases, List.filter_append, List.filter_singleton]
    exact congrArg (fun selected => _ ++ cond selected [row] []) (decide_eq_true rfl)
  have casesAt : next.contents.casesAt run.workflowRunId current.stepId = [row] := by
    rw [Contents.casesAt, casesOf, List.filter_append, ← Contents.casesAt, free, List.nil_append,
      List.filter_singleton]
    exact congrArg (fun selected => cond selected [row] []) (decide_eq_true rfl)
  have only : OnlyRun db.contents next.contents run.workflowRunId :=
    onlyRun_appendCase (by rw [contents]) (by rw [contents]) cases
  have moved : Cursor next.contents (WorkflowRunModel.awaitHuman stepResult now run) current := by
    refine cursor_change id cursor db.steps_distinct rfl rfl (by rw [contents, updateRows_id]; rfl)
      (fun _ => ⟨rfl, rfl⟩) (fun stepId _ => by rw [contents]; rfl) fun other member => ?_
    rw [casesOf] at member
    rcases List.mem_append.mp member with old | new
    · exact .inr old
    · rw [List.mem_singleton.mp new]
      exact .inl rfl
  refine consistent_of_only (WorkflowRunModel.awaitHuman stepResult now) consistent only sound
    (by rw [contents]) (fun _ => rfl) (by rw [contents]) (fun other member => ?_) found ⟨moved, ?_⟩
  · rw [cases] at member
    rcases List.mem_append.mp member with old | new
    · exact .inr ⟨other, old, rfl⟩
    · rw [List.mem_singleton.mp new]
      exact .inl rfl
  · show StateFits .awaitingHuman _ _ (next.contents.casesAt run.workflowRunId current.stepId)
    rw [casesAt]
    exact ⟨unsucceeded, row, rfl, rfl⟩

/-- A terminal failure of the current step escalates or fails the run. -/
theorem handleFailedTerminal_consistent (consistent : Consistent db.contents)
    (found : db.getWorkflowRun run.workflowRunId = some run) (running : run.state = .running)
    (frontier : Frontier db.contents run current)
    (ran : handleFailedTerminal db run current stepResult now newId event = .ok (next, state)) :
    Consistent next.contents := by
  have sound := handleFailedTerminal_attemptsSound consistent.attempts ran
  have fits := frontier.fits
  rw [running] at fits
  let stepped := db.updateStep current.stepId (StepModel.failTerminal now)
  obtain ⟨but, failed⟩ : ConsistentBut stepped.contents run.workflowRunId ∧
      Cursor stepped.contents run (StepModel.failTerminal now current) :=
    updateStep_cursor _ _ (fun _ => rfl) (consistent_but consistent _) found frontier.toCursor
  have foundStepped : stepped.getWorkflowRun run.workflowRunId = some run := found
  rcases handleFailedTerminal_ok ran with ⟨-, created⟩ | ⟨fails, -, contents⟩
  · exact createEscalation_consistent but foundStepped failed nofun fits.2 rfl created
  · have only : OnlyRun stepped.contents next.contents run.workflowRunId :=
      onlyRun_of_same _ (by rw [contents]; rfl) (by rw [contents]; rfl) (by rw [contents]; rfl)
    have moved : Frontier next.contents (WorkflowRunModel.fail stepResult now run)
        (StepModel.failTerminal now current) := by
      rw [contents]
      exact ⟨⟨failed.stored, failed.pointed, failed.indexed, failed.below, failed.above,
        failed.placed, failed.behind⟩, rfl, fails, fits.2⟩
    exact consistent_of_only (WorkflowRunModel.fail stepResult now) but only sound
      (by rw [contents]; rfl) (fun _ => rfl) (by rw [contents]; rfl)
      (fun row member => .inr ⟨row, by rwa [contents] at member, rfl⟩) foundStepped moved

/-- A retry adds an attempt to the current step; without budget the failure is terminal. -/
theorem handleFailedRetryable_consistent (consistent : Consistent db.contents)
    (found : db.getWorkflowRun run.workflowRunId = some run) (running : run.state = .running)
    (frontier : Frontier db.contents run current)
    (ran : handleFailedRetryable registry db run current stepResult now newId random event =
      .ok (next, state)) : Consistent next.contents := by
  have sound := handleFailedRetryable_attemptsSound consistent.attempts
    (mem_stepsOf.mp frontier.stored).1 ran
  have fits := frontier.fits
  rw [running] at fits
  rcases handleFailedRetryable_ok ran with ⟨-, -, -, contents⟩ | ⟨-, failed⟩
  · let stepped := db.updateStep current.stepId StepModel.failRetryable
    obtain ⟨but, retried⟩ : ConsistentBut stepped.contents run.workflowRunId ∧
        Cursor stepped.contents run (StepModel.failRetryable current) :=
      updateStep_cursor _ _ (fun _ => rfl) (consistent_but consistent _) found frontier.toCursor
    have foundStepped : stepped.getWorkflowRun run.workflowRunId = some run := found
    obtain ⟨attempt, attempts, owner⟩ : ∃ attempt,
        next.contents.stepAttempts = stepped.contents.stepAttempts ++ [attempt] ∧
          attempt.stepId = current.stepId :=
      ⟨_, congrArg Contents.stepAttempts contents, rfl⟩
    have only : OnlyRun stepped.contents next.contents run.workflowRunId :=
      onlyRun_appendAttempt (by rw [contents]; rfl) attempts (by rw [contents]; rfl)
        retried.stored owner
    have moved : Cursor next.contents run (StepModel.failRetryable current) :=
      cursor_change id retried stepped.steps_distinct rfl rfl
        (by rw [contents, updateRows_id]; rfl) (fun _ => ⟨rfl, rfl⟩)
        (fun stepId foreign => attemptsOf_append_of_ne attempts (owner ▸ foreign.symm))
        (fun row member => .inr (by rwa [contents] at member))
    refine consistent_of_only id but only sound (by rw [contents, updateRows_id]; rfl)
      (fun _ => rfl) (by rw [contents]; rfl)
      (fun row member => .inr ⟨row, by rwa [contents] at member, rfl⟩) foundStepped ⟨moved, ?_⟩
    show StateFits run.state _ _ _
    rw [running, contents]
    exact ⟨nofun, fits.2⟩
  · exact handleFailedTerminal_consistent consistent found running frontier failed

end Outcomes

/-! ### Starting a run -/

/-- A definition whose steps carry the indices `0..n-1` in order and distinct names. -/
structure WorkflowDefinition.WellIndexed (definition : WorkflowDefinition) : Prop where
  indexed : definition.steps.map (fun step => step.stepIndex) =
    indicesBelow definition.steps.length
  named : (definition.steps.map fun step => step.stepName).Nodup

/-- The rows of a definition carry the indices and names of its steps, in order. -/
theorem stepRows_map (definition : WorkflowDefinition) (workflowRunId : UUID) (now : Timestamp)
    (stepId : Nat → UUID) :
    (stepRows definition workflowRunId now stepId).map (fun row => (row.stepIndex, row.stepName)) =
      definition.steps.map fun step => (step.stepIndex, step.stepName) := by
  refine List.ext_getElem (by rw [List.length_map, List.length_map, stepRows, List.length_mapIdx])
    fun index _ _ => ?_
  rw [List.getElem_map, List.getElem_map]
  simp only [stepRows, List.getElem_mapIdx]

theorem stepRows_indexed {definition : WorkflowDefinition} (indexed : definition.WellIndexed)
    (workflowRunId : UUID) (now : Timestamp) (stepId : Nat → UUID) :
    (stepRows definition workflowRunId now stepId).map (fun row => row.stepIndex) =
      indicesBelow (stepRows definition workflowRunId now stepId).length := by
  have columns := congrArg (List.map Prod.fst)
    (stepRows_map definition workflowRunId now stepId)
  rw [List.map_map, List.map_map] at columns
  have length :
      (stepRows definition workflowRunId now stepId).length = definition.steps.length := by
    rw [stepRows, List.length_mapIdx]
  rw [length]
  exact columns.trans indexed.indexed

theorem stepRows_named {definition : WorkflowDefinition} (indexed : definition.WellIndexed)
    (workflowRunId : UUID) (now : Timestamp) (stepId : Nat → UUID) :
    ((stepRows definition workflowRunId now stepId).map fun row => row.stepName).Nodup := by
  have columns := congrArg (List.map Prod.snd)
    (stepRows_map definition workflowRunId now stepId)
  rw [List.map_map, List.map_map] at columns
  have names : (stepRows definition workflowRunId now stepId).map (fun row => row.stepName) =
      definition.steps.map fun step => step.stepName := columns
  rw [names]
  exact indexed.named

section Started

variable {new : NewRun} (started : Started db next new)
include started

/-- No stored step, and with sound attempts no attempt, refers to a new step. -/
theorem started_unattempted (sound : AttemptsSound db.contents) {step : StepModel}
    (member : step ∈ new.steps) : (∀ old ∈ db.contents.steps, old.stepId ≠ step.stepId) ∧
      db.contents.attemptsOf step.stepId = [] := by
  have unknown := started.unknown step member
  rw [Bool.eq_false_iff, ne_eq, Database.hasStep_iff] at unknown
  refine ⟨fun old stored same => unknown ⟨old, stored, same⟩,
    List.filter_eq_nil_iff.mpr fun attempt made owns => ?_⟩
  obtain ⟨old, stored, same⟩ := sound.referenced attempt made
  exact unknown ⟨old, stored, same.trans (of_decide_eq_true owns)⟩

/-- The steps of a run after another one started. -/
theorem started_stepsOf (other : UUID) : next.contents.stepsOf other =
    db.contents.stepsOf other ++ if other = new.run.workflowRunId then new.steps else [] := by
  obtain ⟨now, stepId, rows⟩ := started.rows
  have owned : ∀ step ∈ new.steps, step.workflowRunId = new.run.workflowRunId := by
    rw [rows]
    exact fun step member => (stepRows_mem member).1
  rw [Contents.stepsOf, started.contents, List.filter_append]
  refine congrArg (fun rest => db.contents.stepsOf other ++ rest) ?_
  by_cases same : other = new.run.workflowRunId
  · rw [if_pos same]
    exact List.filter_eq_self.mpr fun step member =>
      decide_eq_true ((owned step member).trans same.symm)
  · rw [if_neg same]
    exact List.filter_eq_nil_iff.mpr fun step member matched =>
      same ((of_decide_eq_true matched).symm.trans (owned step member))

/-- The first step has index zero. -/
theorem started_first_index (indexed : new.definition.WellIndexed) : new.first.stepIndex = 0 := by
  obtain ⟨now, stepId, rows⟩ := started.rows
  have columns := congrArg List.head? (stepRows_indexed indexed new.run.workflowRunId now stepId)
  rw [← rows, List.head?_map, started.first, Option.map_some, indicesBelow, List.head?_map,
    List.head?_range] at columns
  split at columns
  · cases columns
  · exact Option.some.inj columns

/-- A started run stands at its first step. -/
theorem started_frontier (indexed : new.definition.WellIndexed)
    (consistent : Consistent db.contents) : Frontier next.contents new.run new.first := by
  obtain ⟨now, stepId, rows⟩ := started.rows
  obtain ⟨attemptId, scheduledFor, made, attempt⟩ := started.attempt
  have none : db.contents.stepsOf new.run.workflowRunId = [] := by
    refine List.filter_eq_nil_iff.mpr fun step stored matched => ?_
    obtain ⟨owner, ownerStored, owns⟩ := consistent.stepOwners step stored
    exact started.fresh owner ownerStored (owns.trans (of_decide_eq_true matched))
  have steps : next.contents.stepsOf new.run.workflowRunId = new.steps := by
    rw [started_stepsOf started, none, List.nil_append, if_pos rfl]
  have cases : next.contents.casesOf new.run.workflowRunId = [] := by
    rw [Contents.casesOf, started.contents]
    refine List.filter_eq_nil_iff.mpr fun row stored matched => ?_
    obtain ⟨owner, ownerStored, owns⟩ := consistent.caseOwners row stored
    exact started.fresh owner ownerStored (owns.trans (of_decide_eq_true matched))
  have queued : ∀ step ∈ new.steps, step.state = .queued := by
    rw [rows]
    exact fun step member => (stepRows_mem member).2
  have firstMember : new.first ∈ new.steps := List.mem_of_mem_head? started.first
  have index := started_first_index started indexed
  refine ⟨⟨by rwa [steps], started.current, ?_, ?_, ?_, ?_, ?_⟩, ?_⟩
  · rw [steps, rows]
    exact stepRows_indexed indexed _ _ _
  · rw [steps, index]
    intro step member earlier
    exact absurd earlier (started.ranges step member).1.not_gt
  · rw [steps]
    intro step member later
    have foreign : new.attempt.stepId ≠ step.stepId := by
      rw [attempt]
      intro same
      have distinct := next.steps_distinct
      rw [started.contents, List.map_append, List.nodup_append] at distinct
      rw [List.inj_on_of_nodup_map distinct.2.1 firstMember member same] at later
      exact lt_irrefl _ later
    refine ⟨queued step member, (attemptsOf_append_of_ne ?_ foreign).trans
      (started_unattempted started consistent.attempts member).2⟩
    rw [started.contents]
  · rw [cases]
    exact fun row member => absurd member List.not_mem_nil
  · rw [cases]
    exact fun row member => absurd member List.not_mem_nil
  · rw [started.running, Contents.casesAt, cases]
    exact ⟨by rw [queued _ firstMember]; decide, rfl⟩

theorem started_consistent (indexed : new.definition.WellIndexed)
    (consistent : Consistent db.contents) : Consistent next.contents := by
  have contents := started.contents
  obtain ⟨now, stepId, rows⟩ := started.rows
  obtain ⟨attemptId, scheduledFor, made, attempt⟩ := started.attempt
  have firstMember : new.first ∈ new.steps := List.mem_of_mem_head? started.first
  have kept : ∀ run ∈ db.contents.workflowRuns, run ∈ next.contents.workflowRuns := by
    rw [contents]
    exact fun run member => List.mem_append_left _ member
  refine ⟨started_attemptsSound started consistent.attempts, ?_, ?_, ?_⟩
  · rw [contents]
    intro step member
    rcases List.mem_append.mp member with old | fresh
    · obtain ⟨owner, stored, owns⟩ := consistent.stepOwners step old
      exact ⟨owner, List.mem_append_left _ stored, owns⟩
    · rw [rows] at fresh
      exact ⟨new.run, List.mem_append_right _ (List.mem_singleton_self _),
        (stepRows_mem fresh).1.symm⟩
  · rw [contents]
    intro row member
    obtain ⟨owner, stored, owns⟩ := consistent.caseOwners row member
    exact ⟨owner, List.mem_append_left _ stored, owns⟩
  · intro run member
    rw [contents] at member
    rcases List.mem_append.mp member with old | fresh
    · obtain ⟨current, frontier⟩ := consistent.frontiers run old
      have other := started.fresh run old
      refine ⟨current, frontier_frame frontier ⟨?_, fun step stored => ?_, ?_⟩⟩
      · rw [started_stepsOf started, if_neg other, List.append_nil]
      · refine attemptsOf_append_of_ne (by rw [contents]) fun same => ?_
        rw [attempt] at same
        exact (started_unattempted started consistent.attempts firstMember).1 step
          (mem_stepsOf.mp stored).1 same.symm
      · rw [Contents.casesOf, contents, Contents.casesOf]
    · rw [List.mem_singleton.mp fresh]
      exact ⟨new.first, started_frontier started indexed consistent⟩

end Started

/-! ### Calls in the order the platform makes them -/

/-- The calls the platform makes: it starts runs of well-indexed definitions, advances a running
run on its current step, resumes a waiting run on an unresolved case, and cancels. -/
def OrchestratorCall.Orderly (registry : WorkflowRegistry) (db : Database) :
    OrchestratorCall → Prop
  | .startWorkflowRun workflowName workflowVersion _ _ _ _ =>
    ∀ definition, registry.get workflowName workflowVersion = some definition →
      definition.WellIndexed
  | .advanceWorkflow workflowRunId completedStepName _ => ∃ run step,
    db.getWorkflowRun workflowRunId = some run ∧ run.state = .running ∧
      db.getStepByRunAndName workflowRunId completedStepName = some step ∧
      run.currentStepId = some step.stepId
  | .resumeAfterEscalation escalationId _ _ => ∃ row run,
    db.getEscalationCase escalationId = some row ∧ row.state.isUnresolved = true ∧
      db.getWorkflowRun row.workflowRunId = some run ∧ run.state = .awaitingHuman
  | .cancelWorkflow _ _ _ => True

/-- Whether a call cancels a run that is waiting for a human. -/
def OrchestratorCall.cancelsWaiting (db : Database) : OrchestratorCall → Bool
  | .cancelWorkflow workflowRunId _ _ =>
    (db.getWorkflowRun workflowRunId).any fun run => run.state = .awaitingHuman
  | _ => false

variable {state : WorkflowRunState}

/-- The step a run points to is the one it stands at. -/
theorem frontier_current {run : WorkflowRunModel} {current step : StepModel}
    (frontier : Frontier db.contents run current) (pointed : run.currentStepId = some step.stepId)
    (stored : step ∈ db.contents.steps) : step = current := by
  have same := frontier.pointed
  rw [pointed, Option.some.injEq] at same
  exact List.inj_on_of_nodup_map db.steps_distinct stored (mem_stepsOf.mp frontier.stored).1 same

/-- An unresolved case is a case of the step its run stands at: the earlier ones are resolved. -/
theorem frontier_unresolved {run : WorkflowRunModel} {current : StepModel}
    {row : EscalationCaseModel} {escalationId : UUID} (frontier : Frontier db.contents run current)
    (foundCase : db.getEscalationCase escalationId = some row)
    (foundRun : db.getWorkflowRun row.workflowRunId = some run)
    (unresolved : row.state.isUnresolved = true) : row.stepId = current.stepId := by
  by_contra elsewhere
  have owned : row ∈ db.contents.casesOf run.workflowRunId :=
    mem_casesOf.mpr ⟨List.mem_of_find?_eq_some foundCase,
      (Database.getWorkflowRun_identified foundRun).symm⟩
  rw [frontier.behind row owned elsewhere] at unresolved
  cases unresolved

theorem advanceWorkflow_consistent {workflowRunId : UUID} {completedStepName : String}
    {stepResult : StepResult} (consistent : Consistent db.contents)
    (orderly : (OrchestratorCall.advanceWorkflow workflowRunId completedStepName
      stepResult).Orderly registry db)
    (ran : advanceWorkflow registry db draws workflowRunId completedStepName stepResult =
      .ok (next, state)) : Consistent next.contents := by
  obtain ⟨run, currentStep, found, named, handled⟩ := advanceWorkflow_ok ran
  obtain ⟨_, _, lookup, running, stepLookup, pointed⟩ := orderly
  cases found.symm.trans lookup
  cases named.symm.trans stepLookup
  obtain rfl := Database.getWorkflowRun_identified found
  obtain ⟨current, frontier⟩ := consistent.frontiers run (List.mem_of_find?_eq_some found)
  obtain rfl : currentStep = current :=
    frontier_current frontier pointed (List.mem_of_find?_eq_some named)
  have fits := frontier.fits
  rw [running] at fits
  cases status : stepResult.status with
  | succeeded =>
    rw [status] at handled
    refine handleSucceeded_consistent frontier.toCursor (consistent_but consistent _) found running
      (fun row member => ?_) rfl rfl rfl handled
    rw [fits.2] at member
    exact absurd member List.not_mem_nil
  | failedRetryable =>
    rw [status] at handled
    exact handleFailedRetryable_consistent consistent found running frontier handled
  | failedTerminal =>
    rw [status] at handled
    exact handleFailedTerminal_consistent consistent found running frontier handled
  | escalate =>
    rw [status] at handled
    exact createEscalation_consistent (consistent_but consistent _) found frontier.toCursor fits.1
      fits.2 rfl handled

theorem running_of_cancellable (can : cancellable state = true) (other : state ≠ .awaitingHuman) :
    state = .running := by
  cases state with
  | running => rfl
  | awaitingHuman => exact absurd rfl other
  | pending | completed | failed | cancelled => cases can

theorem cancelWorkflow_consistent {workflowRunId : UUID} {actor : String}
    {reason : Option String} (consistent : Consistent db.contents)
    (spared :
      (OrchestratorCall.cancelWorkflow workflowRunId actor reason).cancelsWaiting db = false)
    (ran : cancelWorkflow db draws workflowRunId actor reason = .ok next) :
    Consistent next.contents := by
  obtain ⟨run, found, can, contents⟩ := cancelWorkflow_ok ran
  obtain rfl := Database.getWorkflowRun_identified found
  obtain ⟨current, frontier⟩ := consistent.frontiers run (List.mem_of_find?_eq_some found)
  have running : run.state = .running := by
    rw [OrchestratorCall.cancelsWaiting, found, Option.any_some, decide_eq_false_iff_not] at spared
    exact running_of_cancellable can spared
  have fits := frontier.fits
  rw [running] at fits
  have only : OnlyRun db.contents next.contents run.workflowRunId :=
    onlyRun_of_same _ (by rw [contents]) (by rw [contents]) (by rw [contents])
  have sound : AttemptsSound next.contents := by
    rw [contents]
    exact attemptsSound_of_same consistent.attempts rfl rfl
  have cancelled : Frontier next.contents (WorkflowRunModel.cancel (draws.now 0) run) current := by
    obtain ⟨⟨stored, pointed, indexed, below, above, placed, behind⟩, -⟩ := frontier
    rw [contents]
    exact ⟨⟨stored, pointed, indexed, below, above, placed, behind⟩, fits⟩
  exact consistent_of_only (WorkflowRunModel.cancel (draws.now 0)) (consistent_but consistent _)
    only sound (by rw [contents]) (fun _ => rfl) (by rw [contents])
    (fun row member => .inr ⟨row, by rwa [contents] at member, rfl⟩) found cancelled

section Resumption

variable {resumed : Database} {resolutionPayload : JsonObject} {actor : String}
  {row : EscalationCaseModel} {run : WorkflowRunModel} {current : StepModel}

/-- A waiting run resumes: its unresolved case is resolved, the human attempt is recorded, its step
has succeeded and the run is running again. -/
structure Resumes (db resumed : Database) (draws : Draws) (resolutionPayload : JsonObject)
    (actor : String) (row : EscalationCaseModel) (run : WorkflowRunModel)
    (current : StepModel) : Prop where
  consistent : Consistent db.contents
  foundCase : db.getEscalationCase row.escalationId = some row
  foundRun : db.getWorkflowRun row.workflowRunId = some run
  frontier : Frontier db.contents run current
  waiting : run.state = .awaitingHuman
  atCurrent : row.stepId = current.stepId
  contents : resumed.contents = { db.contents with
    escalationCases := updateRows (fun other => other.escalationId = row.escalationId)
      (EscalationCaseModel.decide .resolved actor resolutionPayload (draws.now 0))
      db.contents.escalationCases
    stepAttempts := db.contents.stepAttempts ++ [humanAttempt (draws.uuid4 0) current.stepId
      ((db.listAttempts current.stepId).length + 1) (draws.now 0)]
    steps := updateRows (fun step => step.stepId = current.stepId)
      (StepModel.succeed (draws.now 0)) db.contents.steps
    workflowRuns := updateRows (fun other => other.workflowRunId = run.workflowRunId)
      (WorkflowRunModel.resume (draws.now 0)) db.contents.workflowRuns
    auditEvents := appendAuditEvent db.contents.auditEvents
      (resolvedEvent run.workflowRunId current row.escalationId resolutionPayload actor
        (draws.uuid4 0)) (draws.event 0 1) }

variable (resumes : Resumes db resumed draws resolutionPayload actor row run current)

include resumes

theorem Resumes.owner : run.workflowRunId = row.workflowRunId :=
  Database.getWorkflowRun_identified resumes.foundRun

theorem Resumes.found : db.getWorkflowRun run.workflowRunId = some run := by
  rw [resumes.owner]
  exact resumes.foundRun

/-- No other case has the number of the resolved one. -/
theorem Resumes.unique : ∀ other ∈ db.contents.casesOf run.workflowRunId,
    other.escalationId = row.escalationId → other = row := fun _ stored identified =>
  eq_of_find? (fun row : EscalationCaseModel => row.escalationId) db.escalationCases_distinct
    resumes.foundCase (mem_casesOf.mp stored).1 identified

theorem Resumes.casesOf : resumed.contents.casesOf run.workflowRunId =
    updateRows (fun other => other.escalationId = row.escalationId)
      (EscalationCaseModel.decide .resolved actor resolutionPayload (draws.now 0))
      (db.contents.casesOf run.workflowRunId) := by
  rw [Contents.casesOf, resumes.contents]
  exact filter_updateRows _ (EscalationCaseModel.decide .resolved actor resolutionPayload
    (draws.now 0)) _ (fun _ => rfl) _

/-- Every case of the step is resolved: the run waited on a single one. -/
theorem Resumes.resolved : ∀ other ∈ resumed.contents.casesAt run.workflowRunId current.stepId,
    other.state = .resolved := by
  intro other member
  have fits := resumes.frontier.fits
  rw [resumes.waiting] at fits
  obtain ⟨-, only, single, -⟩ := fits
  obtain ⟨owned, atCurrent⟩ := mem_casesAt.mp member
  rw [resumes.casesOf] at owned
  rcases of_mem_updateRows_key _ resumes.unique owned with rfl | ⟨stored, different⟩
  · rfl
  · have both : ∀ other ∈ db.contents.casesAt run.workflowRunId current.stepId, other = only := by
      rw [single]
      exact fun other member => List.mem_singleton.mp member
    have rowStored : row ∈ db.contents.casesAt run.workflowRunId current.stepId :=
      mem_casesAt.mpr ⟨mem_casesOf.mpr ⟨List.mem_of_find?_eq_some resumes.foundCase,
        resumes.owner.symm⟩, resumes.atCurrent⟩
    have equal := (both other (mem_casesAt.mpr ⟨stored, atCurrent⟩)).trans
      (both row rowStored).symm
    exact absurd (congrArg EscalationCaseModel.escalationId equal) different

/-- The human attempt keeps the attempts numbered and within the budget of their step. -/
theorem Resumes.attemptsSound : AttemptsSound resumed.contents := by
  refine humanAttempt_attemptsSound resumes.consistent.attempts
    (mem_stepsOf.mp resumes.frontier.stored).1 (congrArg Contents.stepAttempts resumes.contents) ?_
  rw [resumes.contents]
  exact budget_updateRows _ (StepModel.succeed (draws.now 0)) (fun _ => rfl) _

/-- The other runs stay at their frontiers, and the run stands at its step, which has succeeded:
the step is written first, then the attempt, the case and the run. -/
theorem Resumes.stands : ConsistentBut resumed.contents run.workflowRunId ∧
    Cursor resumed.contents (WorkflowRunModel.resume (draws.now 0) run)
      (StepModel.succeed (draws.now 0) current) := by
  let stepped := db.updateStep current.stepId (StepModel.succeed (draws.now 0))
  obtain ⟨but, succeeded⟩ : ConsistentBut stepped.contents run.workflowRunId ∧
      Cursor stepped.contents run (StepModel.succeed (draws.now 0) current) :=
    updateStep_cursor _ _ (fun _ => rfl) (consistent_but resumes.consistent _) resumes.found
      resumes.frontier.toCursor
  let attempted : Contents := { stepped.contents with
    stepAttempts := db.contents.stepAttempts ++ [humanAttempt (draws.uuid4 0) current.stepId
      ((db.listAttempts current.stepId).length + 1) (draws.now 0)] }
  have cases : resumed.contents.escalationCases = updateRows
      (fun other => other.escalationId = row.escalationId) (EscalationCaseModel.decide .resolved
        actor resolutionPayload (draws.now 0)) attempted.escalationCases := by
    rw [resumes.contents]
    rfl
  have made : OnlyRun stepped.contents attempted run.workflowRunId :=
    onlyRun_appendAttempt rfl rfl rfl succeeded.stored rfl
  have decided : OnlyRun attempted resumed.contents run.workflowRunId := by
    rw [resumes.owner]
    exact onlyRun_updateCase _ (by rw [resumes.contents]; rfl) (by rw [resumes.contents]) cases
      (fun _ => rfl) db.escalationCases_distinct (List.mem_of_find?_eq_some resumes.foundCase)
  have runs : resumed.contents.workflowRuns = updateRows
      (fun other => other.workflowRunId = run.workflowRunId)
      (WorkflowRunModel.resume (draws.now 0)) stepped.contents.workflowRuns := by
    rw [resumes.contents]
    rfl
  constructor
  · refine consistentBut_of_only (WorkflowRunModel.resume (draws.now 0)) but
      (onlyRun_trans made decided) resumes.attemptsSound runs (fun _ => rfl)
      (by rw [resumes.contents]; rfl) (fun other member => .inr ?_) resumes.found
    rw [cases] at member
    obtain ⟨old, stored, changed⟩ := mem_updateRows.mp member
    refine ⟨old, stored, ?_⟩
    rw [← changed]
    split <;> rfl
  · refine cursor_change id succeeded stepped.steps_distinct rfl rfl
      (by rw [resumes.contents, updateRows_id]; rfl) (fun _ => ⟨rfl, rfl⟩)
      (fun stepId foreign => ?_) fun other member => ?_
    · exact attemptsOf_append_of_ne (congrArg Contents.stepAttempts resumes.contents) foreign.symm
    · rw [resumes.casesOf] at member
      rcases of_mem_updateRows_key _ resumes.unique member with rfl | ⟨stored, -⟩
      · exact .inl resumes.atCurrent
      · exact .inr stored

end Resumption

/-- A human resolution of the waiting run's case goes on as a success of the step. -/
theorem resumeAfterEscalation_consistent {escalationId : UUID} {resolutionPayload : JsonObject}
    {actor : String} (consistent : Consistent db.contents)
    (orderly : (OrchestratorCall.resumeAfterEscalation escalationId resolutionPayload
      actor).Orderly registry db)
    (ran : resumeAfterEscalation registry db draws escalationId resolutionPayload actor =
      .ok (next, state)) : Consistent next.contents := by
  obtain ⟨row, currentStep, run, foundCase, foundStep, foundRun, -, resumed, contents, handled⟩ :=
    resumeAfterEscalation_ok ran
  obtain ⟨_, _, lookup, unresolved, runLookup, waiting⟩ := orderly
  cases foundCase.symm.trans lookup
  cases foundRun.symm.trans runLookup
  obtain ⟨-, rfl⟩ := mem_of_find? (fun row : EscalationCaseModel => row.escalationId) foundCase
  obtain ⟨stepStored, stepIdentified⟩ := mem_of_find? (fun row : StepModel => row.stepId) foundStep
  obtain ⟨current, frontier⟩ := consistent.frontiers run (List.mem_of_find?_eq_some foundRun)
  have atCurrent := frontier_unresolved frontier foundCase foundRun unresolved
  obtain rfl : currentStep = current := List.inj_on_of_nodup_map db.steps_distinct stepStored
    (mem_stepsOf.mp frontier.stored).1 (stepIdentified.trans atCurrent)
  have resumes : Resumes db resumed draws resolutionPayload actor row run currentStep :=
    ⟨consistent, foundCase, foundRun, frontier, waiting, atCurrent, contents⟩
  obtain ⟨others, cursor⟩ := resumes.stands
  have resumedRun := Database.getWorkflowRun_updated (WorkflowRunModel.resume (draws.now 0))
    (congrArg Contents.workflowRuns contents) (fun _ => rfl) resumes.found
  exact handleSucceeded_consistent cursor others resumedRun rfl resumes.resolved rfl rfl rfl handled

/-- One call made in order that cancels no waiting run keeps every run at its frontier. -/
theorem OrchestratorCall.step_consistent (registry : WorkflowRegistry) (db : Database)
    (call : OrchestratorCall × Draws) (consistent : Consistent db.contents)
    (made : call.1.Orderly registry db ∧ call.1.cancelsWaiting db = false) :
    Consistent (OrchestratorCall.step registry db call).contents := by
  refine commit_induction (fun reached => Consistent reached.contents) consistent fun next ran => ?_
  obtain ⟨call, draws⟩ := call
  obtain ⟨orderly, spared⟩ := made
  cases call with
  | startWorkflowRun workflowName workflowVersion documentIds actor correlationId deadline =>
    obtain ⟨_, ran⟩ := OrchestratorCall.perform_start ran
    obtain ⟨new, started, -, registered⟩ := startWorkflowRun_ok ran
    exact started_consistent started (orderly new.definition registered) consistent
  | advanceWorkflow workflowRunId completedStepName stepResult =>
    obtain ⟨_, ran⟩ := OrchestratorCall.perform_advance ran
    exact advanceWorkflow_consistent consistent orderly ran
  | resumeAfterEscalation escalationId resolutionPayload actor =>
    obtain ⟨_, ran⟩ := OrchestratorCall.perform_resume ran
    exact resumeAfterEscalation_consistent consistent orderly ran
  | cancelWorkflow workflowRunId actor reason =>
    exact cancelWorkflow_consistent consistent spared ran

/-! ### What the invariant says -/

/-- A run at a step: the steps before it succeeded, the ones after it untouched, and the state of
the run told by the step and its cases. -/
structure StandsAt (contents : Contents) (run : WorkflowRunModel) (current : StepModel) : Prop where
  stored : current ∈ contents.stepsOf run.workflowRunId
  pointed : run.currentStepId = some current.stepId
  below : ∀ step ∈ contents.stepsOf run.workflowRunId, step.stepIndex < current.stepIndex →
    step.state = .succeeded
  above : ∀ step ∈ contents.stepsOf run.workflowRunId, current.stepIndex < step.stepIndex →
    step.state = .queued ∧ contents.attemptsOf step.stepId = []
  completed : run.state = .completed ↔
    current.stepIndex = (contents.stepsOf run.workflowRunId).length - 1 ∧
      ∀ step ∈ contents.stepsOf run.workflowRunId, step.state = .succeeded
  awaiting : run.state = .awaitingHuman ↔ ((contents.casesAt run.workflowRunId
    current.stepId).filter fun row => row.state.isUnresolved).length = 1
  earlier : ∀ row ∈ contents.casesOf run.workflowRunId,
    ∀ step ∈ contents.stepsOf run.workflowRunId, step.stepId = row.stepId →
      step.stepIndex < current.stepIndex → row.state = .resolved
  failed : run.state = .failed →
    current.state = .failedTerminal ∧ current.escalateOnFailure = false

theorem frontier_standsAt {contents : Contents} {run : WorkflowRunModel} {current : StepModel}
    (frontier : Frontier contents run current)
    (distinct : (contents.steps.map fun row => row.stepId).Nodup) :
    StandsAt contents run current := by
  obtain ⟨⟨stored, pointed, indexed, below, above, placed, behind⟩, fits⟩ := frontier
  refine ⟨stored, pointed, below, above, ⟨fun completed => ?_, fun ⟨_, all⟩ => ?_⟩,
    ⟨fun awaiting => ?_, fun one => ?_⟩, fun row member step stepMember same earlier => ?_,
    fun failed => ?_⟩
  · rw [completed] at fits
    obtain ⟨succeeded, last, -⟩ := fits
    refine ⟨by omega, fun step member => ?_⟩
    have bound := ((exists_index indexed).mp ⟨step, member, rfl⟩).2
    rcases lt_or_eq_of_le (show step.stepIndex ≤ current.stepIndex by omega) with before | here
    · exact below step member before
    · rw [eq_of_index indexed member stored here]
      exact succeeded
  · have succeeded := all current stored
    cases state : run.state with
    | completed => rfl
    | pending => rw [state] at fits; exact fits.elim
    | running => rw [state] at fits; exact absurd succeeded fits.1
    | awaitingHuman => rw [state] at fits; exact absurd succeeded fits.1
    | cancelled => rw [state] at fits; exact absurd succeeded fits.1
    | failed =>
      rw [state] at fits
      rw [fits.1] at succeeded
      cases succeeded
  · rw [awaiting] at fits
    obtain ⟨-, row, single, unresolved⟩ := fits
    rw [single, List.filter_singleton, unresolved]
    rfl
  · cases state : run.state with
    | awaitingHuman => rfl
    | pending => rw [state] at fits; exact fits.elim
    | running => rw [state] at fits; rw [fits.2] at one; cases one
    | failed => rw [state] at fits; rw [fits.2.2] at one; cases one
    | cancelled => rw [state] at fits; rw [fits.2] at one; cases one
    | completed =>
      rw [state] at fits
      have none : (contents.casesAt run.workflowRunId current.stepId).filter
          (fun row => row.state.isUnresolved) = [] :=
        List.filter_eq_nil_iff.mpr fun row member => by rw [fits.2.2 row member]; decide
      rw [none] at one
      cases one
  · refine behind row member fun here => ?_
    rw [List.inj_on_of_nodup_map distinct (mem_stepsOf.mp stepMember).1 (mem_stepsOf.mp stored).1
      (same.trans here)] at earlier
    exact lt_irrefl _ earlier
  · rw [failed] at fits
    exact ⟨fits.1, fits.2.1⟩

end InsuranceOps
