/-
This file asks whether a completed run has all its steps behind it. A run
starts at the first step of the definition's tuple, and a success goes on to
the step whose index is one higher; where there is none the run is completed.
Nothing checks that the steps of a definition are numbered so that this walk
comes past all of them. For definitions in which every step but the first one
follows another, it does: the steps succeed in the order of their indices, and
a run is completed only when all of them have.
-/

import InsuranceOps.LiveCases

namespace InsuranceOps

open Relational WorkflowOrchestrator

/-! ### What should hold -/

/-- Every step of the definition has the index of the first one or follows another step. -/
def WorkflowDefinition.Consecutive (definition : WorkflowDefinition) : Prop :=
  ∀ first ∈ definition.steps.head?, ∀ step ∈ definition.steps,
    step.stepIndex = first.stepIndex ∨
      ∃ earlier ∈ definition.steps, earlier.stepIndex + 1 = step.stepIndex

instance (definition : WorkflowDefinition) : Decidable definition.Consecutive :=
  inferInstanceAs (Decidable (∀ first ∈ definition.steps.head?, _))

/-- All steps of a completed run have succeeded. -/
def CompletedSucceeded (contents : Contents) : Prop :=
  ∀ run ∈ contents.workflowRuns, run.state = .completed →
    ∀ step ∈ contents.stepsOf run.workflowRunId, step.state = .succeeded

/-- A step that succeeds comes after the steps of its run that have succeeded before, and those stay
succeeded. -/
structure SucceedsInOrder (before after : Contents) : Prop where
  ordered : ∀ step ∈ after.steps, step.state = .succeeded →
    (∀ old ∈ before.steps, old.stepId = step.stepId → old.state ≠ .succeeded) →
      ∀ other ∈ before.steps, other.workflowRunId = step.workflowRunId →
        other.state = .succeeded → other.stepIndex < step.stepIndex
  kept : ∀ step ∈ before.steps, step.state = .succeeded → step ∈ after.steps

/-- The calls in question: runs of such definitions are started, a running run is advanced on its
current step, and a run is resumed on an unresolved case. -/
def OrchestratorCall.isSequenced (registry : WorkflowRegistry) (db : Database) :
    OrchestratorCall → Bool
  | .startWorkflowRun workflowName workflowVersion _ _ _ _ =>
    (registry.get workflowName workflowVersion).all fun definition => definition.Consecutive
  | .advanceWorkflow workflowRunId completedStepName _ =>
    db.runsStep workflowRunId completedStepName
  | .resumeAfterEscalation escalationId _ _ =>
    (db.getEscalationCase escalationId).any fun row => row.state.isUnresolved
  | .cancelWorkflow _ _ _ => false

/-! ### Where a run stands among its steps -/

/-- A run stands at a step: the steps with lower indices have succeeded, those with higher ones
follow other steps and have not; it is completed when all have succeeded, and its unresolved cases
are those of the step it waits at. -/
structure Stage (steps : List StepModel) (cases : List EscalationCaseModel)
    (run : WorkflowRunModel) (current : StepModel) : Prop where
  stored : current ∈ steps
  pointed : run.currentStepId = some current.stepId
  follows : ∀ step ∈ steps, current.stepIndex < step.stepIndex →
    ∃ earlier ∈ steps, earlier.stepIndex + 1 = step.stepIndex
  below : ∀ step ∈ steps, step.stepIndex < current.stepIndex → step.state = .succeeded
  above : ∀ step ∈ steps, current.stepIndex < step.stepIndex → step.state ≠ .succeeded
  unfinished : run.state ≠ .completed → current.state ≠ .succeeded
  finished : run.state = .completed → ∀ step ∈ steps, step.state = .succeeded
  unresolved : ∀ row ∈ cases, row.state.isUnresolved = true →
    row.stepId = current.stepId ∧ run.state = .awaitingHuman

/-- Every run stands at one of its steps, and steps and cases belong to stored runs. -/
structure Staged (contents : Contents) : Prop where
  stepOwners : ∀ step ∈ contents.steps,
    ∃ run ∈ contents.workflowRuns, run.workflowRunId = step.workflowRunId
  caseOwners : ∀ row ∈ contents.escalationCases,
    ∃ run ∈ contents.workflowRuns, run.workflowRunId = row.workflowRunId
  stages : ∀ run ∈ contents.workflowRuns, ∃ current,
    Stage (contents.stepsOf run.workflowRunId) (contents.casesOf run.workflowRunId) run current

theorem staged_empty (documents : List UUID) : Staged (Database.empty documents).contents where
  stepOwners _ member := absurd member List.not_mem_nil
  caseOwners _ member := absurd member List.not_mem_nil
  stages _ member := absurd member List.not_mem_nil

theorem Staged.completedSucceeded {contents : Contents} (staged : Staged contents) :
    CompletedSucceeded contents := by
  intro run stored completed
  obtain ⟨current, stage⟩ := staged.stages run stored
  exact stage.finished completed

/-! ### The indices of a run -/

/-- Where every higher index follows another one and the next one is missing, there is no higher
index. -/
theorem le_of_follows {indices : List Int} {current : Int}
    (follows : ∀ index ∈ indices, current < index → ∃ earlier ∈ indices, earlier + 1 = index)
    (last : current + 1 ∉ indices) : ∀ index ∈ indices, index ≤ current := by
  have climb : ∀ distance : Nat, ∀ index ∈ indices, index ≠ current + 1 + distance := by
    intro distance
    induction distance with
    | zero =>
      rintro index member rfl
      exact last (by simpa using member)
    | succ distance inductionHypothesis =>
      rintro index member rfl
      obtain ⟨earlier, earlierMember, next⟩ := follows _ member (by omega)
      exact inductionHypothesis earlier earlierMember (by push_cast at next ⊢; omega)
  intro index member
  by_contra higher
  exact climb (index - current - 1).toNat index member (by omega)

/-- Where every index but one follows another, none is lower than that one. -/
theorem ge_of_consecutive {indices : List Int} {first : Int}
    (consecutive : ∀ index ∈ indices, index = first ∨ ∃ earlier ∈ indices, earlier + 1 = index)
    (nonnegative : ∀ index ∈ indices, 0 ≤ index) : ∀ index ∈ indices, first ≤ index := by
  have descend : ∀ height : Nat, (height : Int) ∈ indices → first ≤ height := by
    intro height
    induction height with
    | zero =>
      intro member
      rcases consecutive _ member with same | ⟨earlier, earlierMember, next⟩
      · exact same.ge
      · have bound := nonnegative earlier earlierMember
        omega
    | succ height inductionHypothesis =>
      intro member
      rcases consecutive _ member with same | ⟨earlier, earlierMember, next⟩
      · exact same.ge
      · obtain rfl : earlier = (height : Int) := by
          push_cast at next
          omega
        have bound := inductionHypothesis earlierMember
        push_cast
        omega
  intro index member
  have bound := descend index.toNat (by rwa [Int.toNat_of_nonneg (nonnegative index member)])
  rwa [Int.toNat_of_nonneg (nonnegative index member)] at bound

/-- The steps of a run have different indices. -/
theorem Database.stepIndex_distinct (db : Database) {first second : StepModel}
    (firstStored : first ∈ db.contents.steps) (secondStored : second ∈ db.contents.steps)
    (sameRun : first.workflowRunId = second.workflowRunId)
    (sameIndex : first.stepIndex = second.stepIndex) : first = second :=
  List.inj_on_of_nodup_map
    (db.steps.distinct _ (List.mem_cons_of_mem _ List.mem_cons_self)) firstStored secondStored
    (Prod.ext sameRun sameIndex)

/-- A step of a run has at most one case. -/
theorem Database.case_distinct (db : Database) {first second : EscalationCaseModel}
    (firstStored : first ∈ db.contents.escalationCases)
    (secondStored : second ∈ db.contents.escalationCases)
    (sameRun : first.workflowRunId = second.workflowRunId)
    (sameStep : first.stepId = second.stepId) : first = second :=
  List.inj_on_of_nodup_map
    (db.escalationCases.distinct _ (List.mem_cons_of_mem _ List.mem_cons_self)) firstStored
    secondStored (Prod.ext sameRun sameStep)

namespace Stage

variable {steps : List StepModel} {cases casesAfter : List EscalationCaseModel}
  {run changed : WorkflowRunModel} {current : StepModel}
  (stage : Stage steps cases run current) (change : StepModel → StepModel)
  (keeps : ∀ row, (change row).stepId = row.stepId ∧ (change row).stepIndex = row.stepIndex)
  (distinct : (steps.map fun step => step.stepId).Nodup)
include stage distinct

/-- The steps after the current one changed. -/
theorem of_mem_changed {step : StepModel}
    (member : step ∈ updateRows (fun row => row.stepId = current.stepId) change steps) :
    step = change current ∨ step ∈ steps ∧ step.stepId ≠ current.stepId :=
  of_mem_updateRows_key (fun row : StepModel => row.stepId)
    (fun _ stored same => List.inj_on_of_nodup_map distinct stored stage.stored same) member

include keeps

/-- A step with another index than the current one's did not change. -/
theorem of_mem_elsewhere {step : StepModel}
    (member : step ∈ updateRows (fun row => row.stepId = current.stepId) change steps)
    (elsewhere : step.stepIndex ≠ current.stepIndex) :
    step ∈ steps ∧ step.stepId ≠ current.stepId := by
  rcases stage.of_mem_changed change distinct member with rfl | kept
  · exact absurd (keeps current).2 elsewhere
  · exact kept

/-- The indices are the same as before. -/
theorem follows_changed : ∀ step ∈ updateRows (fun row => row.stepId = current.stepId) change steps,
    current.stepIndex < step.stepIndex →
      ∃ earlier ∈ updateRows (fun row => row.stepId = current.stepId) change steps,
        earlier.stepIndex + 1 = step.stepIndex := by
  intro step member higher
  obtain ⟨stored, -⟩ := stage.of_mem_elsewhere change keeps distinct member higher.ne'
  obtain ⟨earlier, earlierStored, next⟩ := stage.follows step stored higher
  refine ⟨_, mem_updateRows.mpr ⟨earlier, earlierStored, rfl⟩, ?_⟩
  split
  · rw [(keeps earlier).2, next]
  · exact next

/-- The current step changes without succeeding, and the run goes on waiting for it. -/
theorem stay (samePointer : changed.currentStepId = run.currentStepId)
    (going : changed.state ≠ .completed) (unsucceeded : (change current).state ≠ .succeeded)
    (unresolved : ∀ row ∈ casesAfter, row.state.isUnresolved = true →
      row.stepId = current.stepId ∧ changed.state = .awaitingHuman) :
    Stage (updateRows (fun row => row.stepId = current.stepId) change steps) casesAfter changed
      (change current) where
  stored := mem_updateRows_of_selects stage.stored (decide_eq_true rfl)
  pointed := by rw [samePointer, (keeps current).1, stage.pointed]
  follows := by
    rw [(keeps current).2]
    exact stage.follows_changed change keeps distinct
  below step member lower := by
    rw [(keeps current).2] at lower
    exact stage.below step (stage.of_mem_elsewhere change keeps distinct member lower.ne).1 lower
  above step member higher := by
    rw [(keeps current).2] at higher
    exact stage.above step (stage.of_mem_elsewhere change keeps distinct member higher.ne').1 higher
  unfinished _ := unsucceeded
  finished completed := absurd completed going
  unresolved row member live := by
    rw [(keeps current).1]
    exact unresolved row member live

variable (numbered : ∀ first ∈ steps, ∀ second ∈ steps, first.stepIndex = second.stepIndex →
    first = second) (succeeded : (change current).state = .succeeded)
include numbered succeeded

omit keeps in
/-- Once the current step has succeeded, so have all steps up to it. -/
theorem succeeded_upTo {step : StepModel}
    (member : step ∈ updateRows (fun row => row.stepId = current.stepId) change steps)
    (reached : step.stepIndex ≤ current.stepIndex) : step.state = .succeeded := by
  rcases stage.of_mem_changed change distinct member with rfl | ⟨stored, different⟩
  · exact succeeded
  · rcases lt_or_eq_of_le reached with lower | same
    · exact stage.below step stored lower
    · exact absurd (congrArg StepModel.stepId (numbered step stored current stage.stored same))
        different

/-- The current step succeeds and another one follows. -/
theorem advance {successor : StepModel} (stored : successor ∈ steps)
    (next : successor.stepIndex = current.stepIndex + 1)
    (pointed : changed.currentStepId = some successor.stepId) (going : changed.state ≠ .completed)
    (resolved : ∀ row ∈ casesAfter, row.state.isUnresolved = false) :
    Stage (updateRows (fun row => row.stepId = current.stepId) change steps) casesAfter changed
      successor where
  stored := by
    refine mem_updateRows_of_not stored (decide_eq_false fun same => ?_)
    rw [List.inj_on_of_nodup_map distinct stored stage.stored same] at next
    omega
  pointed := pointed
  follows step member higher :=
    stage.follows_changed change keeps distinct step member (by omega)
  below step member lower :=
    stage.succeeded_upTo change distinct numbered succeeded member (by omega)
  above step member higher :=
    stage.above step (stage.of_mem_elsewhere change keeps distinct member (by omega)).1 (by omega)
  unfinished _ := stage.above successor stored (by omega)
  finished completed := absurd completed going
  unresolved row member live := by
    rw [resolved row member] at live
    cases live

/-- The current step succeeds and no step follows: the run is completed. -/
theorem complete (last : ∀ step ∈ steps, step.stepIndex ≠ current.stepIndex + 1)
    (samePointer : changed.currentStepId = run.currentStepId) (closed : changed.state = .completed)
    (resolved : ∀ row ∈ casesAfter, row.state.isUnresolved = false) :
    Stage (updateRows (fun row => row.stepId = current.stepId) change steps) casesAfter changed
      (change current) := by
  have reached : ∀ step ∈ updateRows (fun row => row.stepId = current.stepId) change steps,
      step.stepIndex ≤ current.stepIndex := by
    have highest : ∀ index ∈ steps.map (fun step => step.stepIndex), index ≤ current.stepIndex := by
      refine le_of_follows (fun index member higher => ?_) fun member => ?_
      · obtain ⟨step, stored, rfl⟩ := List.mem_map.mp member
        obtain ⟨earlier, earlierStored, next⟩ := stage.follows step stored higher
        exact ⟨_, List.mem_map_of_mem earlierStored, next⟩
      · obtain ⟨step, stored, same⟩ := List.mem_map.mp member
        exact last step stored same
    intro step member
    obtain ⟨old, stored, rfl⟩ := mem_updateRows.mp member
    have bound := highest _ (List.mem_map_of_mem stored)
    split
    · rwa [(keeps old).2]
    · exact bound
  exact {
    stored := mem_updateRows_of_selects stage.stored (decide_eq_true rfl)
    pointed := by rw [samePointer, (keeps current).1, stage.pointed]
    follows := by
      rw [(keeps current).2]
      exact stage.follows_changed change keeps distinct
    below := fun step member _ =>
      stage.succeeded_upTo change distinct numbered succeeded member (reached step member)
    above := fun step member higher => by
      rw [(keeps current).2] at higher
      exact absurd higher (reached step member).not_gt
    unfinished := fun unclosed => absurd closed unclosed
    finished := fun _ step member =>
      stage.succeeded_upTo change distinct numbered succeeded member (reached step member)
    unresolved := fun row member live => by
      rw [resolved row member] at live
      cases live }

end Stage

/-! ### What an operation does to one run -/

/-- An operation changes the current step and the row of a run, and cases of that run at most. -/
structure RunWrite (db next : Database) (workflowRunId : UUID) (current : StepModel)
    (stepChange : StepModel → StepModel) (runChange : WorkflowRunModel → WorkflowRunModel) :
    Prop where
  steps : next.contents.steps =
    updateRows (fun row => row.stepId = current.stepId) stepChange db.contents.steps
  keepsStep : ∀ row, (stepChange row).stepId = row.stepId ∧
    (stepChange row).workflowRunId = row.workflowRunId ∧
    (stepChange row).stepIndex = row.stepIndex
  runs : next.contents.workflowRuns =
    updateRows (fun row => row.workflowRunId = workflowRunId) runChange db.contents.workflowRuns
  keepsRun : ∀ row, (runChange row).workflowRunId = row.workflowRunId
  cases : ∀ other, other ≠ workflowRunId →
    next.contents.casesOf other = db.contents.casesOf other

namespace RunWrite

variable {db middle next : Database} {workflowRunId : UUID} {current : StepModel}
  {stepChange stepChangeAfter : StepModel → StepModel}
  {runChange runChangeAfter : WorkflowRunModel → WorkflowRunModel}

theorem refl (db : Database) (workflowRunId : UUID) (current : StepModel) :
    RunWrite db db workflowRunId current id id where
  steps := (updateRows_id _ _).symm
  keepsStep _ := ⟨rfl, rfl, rfl⟩
  runs := (updateRows_id _ _).symm
  keepsRun _ := rfl
  cases _ _ := rfl

theorem trans (first : RunWrite db middle workflowRunId current stepChange runChange)
    (second : RunWrite middle next workflowRunId current stepChangeAfter runChangeAfter) :
    RunWrite db next workflowRunId current (fun row => stepChangeAfter (stepChange row))
      (fun row => runChangeAfter (runChange row)) where
  steps := by
    rw [second.steps, first.steps]
    exact updateRows_updateRows _ _ _ (fun row => by rw [(first.keepsStep row).1]) _
  keepsStep row := by
    obtain ⟨step, owner, index⟩ := second.keepsStep (stepChange row)
    obtain ⟨firstStep, firstOwner, firstIndex⟩ := first.keepsStep row
    exact ⟨step.trans firstStep, owner.trans firstOwner, index.trans firstIndex⟩
  runs := by
    rw [second.runs, first.runs]
    exact updateRows_updateRows _ _ _ (fun row => by rw [first.keepsRun row]) _
  keepsRun row := (second.keepsRun _).trans (first.keepsRun row)
  cases other different := (second.cases other different).trans (first.cases other different)

variable (write : RunWrite db next workflowRunId current stepChange runChange)
include write

theorem stepsOf (other : UUID) : next.contents.stepsOf other =
    updateRows (fun row => row.stepId = current.stepId) stepChange (db.contents.stepsOf other) :=
  stepsOf_updateRows stepChange write.steps (fun row => (write.keepsStep row).2.1) other

/-- The steps of other runs stay as they are. -/
theorem stepsOf_other (stored : current ∈ db.contents.stepsOf workflowRunId) {other : UUID}
    (different : other ≠ workflowRunId) :
    next.contents.stepsOf other = db.contents.stepsOf other := by
  rw [write.stepsOf other]
  refine updateRows_of_not _ _ _ fun row member => decide_eq_false fun same => different ?_
  obtain ⟨rowStored, rowRun⟩ := mem_stepsOf.mp member
  obtain ⟨currentStored, currentRun⟩ := mem_stepsOf.mp stored
  rw [← rowRun, List.inj_on_of_nodup_map db.steps_distinct rowStored currentStored same, currentRun]

end RunWrite

section Own

variable {db next : Database} {run : WorkflowRunModel} {current : StepModel}
  {stepChange : StepModel → StepModel} {runChange : WorkflowRunModel → WorkflowRunModel}
  (write : RunWrite db next run.workflowRunId current stepChange runChange)
include write

/-- With the changed run at one of its steps again, every run is. -/
theorem RunWrite.staged (before : Staged db.contents) (found : run ∈ db.contents.workflowRuns)
    (stored : current ∈ db.contents.stepsOf run.workflowRunId)
    (own : ∃ later, Stage (next.contents.stepsOf run.workflowRunId)
      (next.contents.casesOf run.workflowRunId) (runChange run) later) : Staged next.contents := by
  have kept : ∀ old ∈ db.contents.workflowRuns,
      ∃ later ∈ next.contents.workflowRuns, later.workflowRunId = old.workflowRunId := by
    rw [write.runs]
    intro old member
    refine ⟨_, mem_updateRows.mpr ⟨old, member, rfl⟩, ?_⟩
    split
    · exact write.keepsRun old
    · rfl
  refine ⟨fun step member => ?_, fun row member => ?_, fun other member => ?_⟩
  · rw [write.steps] at member
    obtain ⟨old, oldStored, changed⟩ := mem_updateRows.mp member
    obtain ⟨owner, ownerStored, owns⟩ := before.stepOwners old oldStored
    obtain ⟨later, laterStored, same⟩ := kept owner ownerStored
    refine ⟨later, laterStored, same.trans (owns.trans ?_)⟩
    rw [← changed]
    split
    · exact (write.keepsStep old).2.1.symm
    · rfl
  · by_cases own : row.workflowRunId = run.workflowRunId
    · obtain ⟨later, laterStored, same⟩ := kept run found
      exact ⟨later, laterStored, same.trans own.symm⟩
    · have listed : row ∈ next.contents.casesOf row.workflowRunId := mem_casesOf.mpr ⟨member, rfl⟩
      rw [write.cases _ own] at listed
      obtain ⟨owner, ownerStored, owns⟩ := before.caseOwners row (mem_casesOf.mp listed).1
      obtain ⟨later, laterStored, same⟩ := kept owner ownerStored
      exact ⟨later, laterStored, same.trans owns⟩
  · rw [write.runs] at member
    rcases of_mem_updateRows_key (fun row : WorkflowRunModel => row.workflowRunId)
      (fun old oldStored same => List.inj_on_of_nodup_map db.workflowRuns_distinct oldStored found
        same) member with rfl | ⟨oldStored, different⟩
    · rw [write.keepsRun run]
      exact own
    · rw [write.stepsOf_other stored different, write.cases _ different]
      exact before.stages other oldStored

/-- Only the current step can newly succeed, and all that succeeded before it have lower
indices. -/
theorem RunWrite.ordered {cases : List EscalationCaseModel}
    (stage : Stage (db.contents.stepsOf run.workflowRunId) cases run current)
    (going : run.state ≠ .completed) : SucceedsInOrder db.contents next.contents := by
  obtain ⟨currentStored, currentRun⟩ := mem_stepsOf.mp stage.stored
  constructor
  · intro step member succeeded newly other otherStored sameRun otherSucceeded
    rw [write.steps] at member
    rcases of_mem_updateRows_key (fun row : StepModel => row.stepId) (fun old oldStored same =>
      List.inj_on_of_nodup_map db.steps_distinct oldStored currentStored same) member with
      rfl | ⟨oldStored, -⟩
    · rw [(write.keepsStep current).2.1, currentRun] at sameRun
      rw [(write.keepsStep current).2.2]
      rcases lt_trichotomy other.stepIndex current.stepIndex with lower | same | higher
      · exact lower
      · rw [db.stepIndex_distinct otherStored currentStored (sameRun.trans currentRun.symm) same]
          at otherSucceeded
        exact absurd otherSucceeded (stage.unfinished going)
      · exact absurd otherSucceeded
          (stage.above other (mem_stepsOf.mpr ⟨otherStored, sameRun⟩) higher)
    · exact absurd succeeded (newly step oldStored rfl)
  · intro step stored succeeded
    rw [write.steps]
    refine mem_updateRows_of_not stored (decide_eq_false fun same => ?_)
    rw [List.inj_on_of_nodup_map db.steps_distinct stored currentStored same] at succeeded
    exact stage.unfinished going succeeded

end Own

/-! ### The outcomes of the current step -/

section Outcomes

variable {registry : WorkflowRegistry} {db middle next : Database} {draws : Draws}
  {state : WorkflowRunState} {run stale : WorkflowRunModel} {current currentStep : StepModel}
  {stepResult : StepResult} {reasonCode : String} {now : Timestamp} {newId : UUID}
  {random : UnitDraw} {event : EventDraw} {stepChange : StepModel → StepModel}
  {runChange : WorkflowRunModel → WorkflowRunModel}

theorem casesOf_congr {before after : Contents}
    (same : after.escalationCases = before.escalationCases) (workflowRunId : UUID) :
    after.casesOf workflowRunId = before.casesOf workflowRunId := by
  rw [Contents.casesOf, same, Contents.casesOf]

/-- A success completes the run when no step has the next index, and moves it to the one that has
it otherwise. -/
theorem handleSucceeded_write
    (ran : handleSucceeded registry db run (db.listSteps run.workflowRunId) current now newId
      event = .ok (next, state)) :
    next.contents.escalationCases = db.contents.escalationCases ∧
    ((∀ step ∈ db.contents.stepsOf run.workflowRunId, step.stepIndex ≠ current.stepIndex + 1) ∧
        RunWrite db next run.workflowRunId current (StepModel.succeed now)
          (WorkflowRunModel.complete now) ∨
      ∃ successor ∈ db.contents.stepsOf run.workflowRunId,
        successor.stepIndex = current.stepIndex + 1 ∧ RunWrite db next run.workflowRunId current
          (StepModel.succeed now) (WorkflowRunModel.moveTo successor.stepId now)) := by
  rcases handleSucceeded_ok ran with ⟨last, -, contents⟩ | ⟨successor, following, -, -, contents⟩
  · have cases : next.contents.escalationCases = db.contents.escalationCases := by rw [contents]
    refine ⟨cases, .inl ⟨fun step member same => ?_, by rw [contents], fun _ => ⟨rfl, rfl, rfl⟩,
      by rw [contents], fun _ => rfl, fun other _ => casesOf_congr cases other⟩⟩
    exact List.find?_eq_none.mp last step (Database.mem_listSteps.mpr (mem_stepsOf.mp member))
      (decide_eq_true same)
  · have cases : next.contents.escalationCases = db.contents.escalationCases := by rw [contents]
    obtain ⟨stored, owner, index⟩ := nextStep_mem following
    exact ⟨cases, .inr ⟨successor, mem_stepsOf.mpr ⟨stored, owner⟩, index, by rw [contents],
      fun _ => ⟨rfl, rfl, rfl⟩, by rw [contents], fun _ => rfl,
      fun other _ => casesOf_congr cases other⟩⟩

/-- What a call leaves: every run at one of its steps, and the steps succeeding in order. -/
def Leaves (db next : Database) : Prop :=
  Staged next.contents ∧ SucceedsInOrder db.contents next.contents

theorem stepIndex_distinct_of_run (db : Database) (workflowRunId : UUID) :
    ∀ first ∈ db.contents.stepsOf workflowRunId, ∀ second ∈ db.contents.stepsOf workflowRunId,
      first.stepIndex = second.stepIndex → first = second := by
  intro first firstMember second secondMember same
  obtain ⟨firstStored, firstRun⟩ := mem_stepsOf.mp firstMember
  obtain ⟨secondStored, secondRun⟩ := mem_stepsOf.mp secondMember
  exact db.stepIndex_distinct firstStored secondStored (firstRun.trans secondRun.symm) same

theorem stepId_distinct_of_run (db : Database) (workflowRunId : UUID) :
    ((db.contents.stepsOf workflowRunId).map fun step => step.stepId).Nodup :=
  (List.filter_sublist.map _).nodup db.steps_distinct

section Current

variable (staged : Staged db.contents) (found : run ∈ db.contents.workflowRuns)
  (stage : Stage (db.contents.stepsOf run.workflowRunId) (db.contents.casesOf run.workflowRunId)
    run current) (going : run.state ≠ .completed)
include staged found stage going

/-- The current step changes without succeeding. -/
theorem RunWrite.leaves_stay
    (write : RunWrite db next run.workflowRunId current stepChange runChange)
    (samePointer : (runChange run).currentStepId = run.currentStepId)
    (goesOn : (runChange run).state ≠ .completed)
    (unsucceeded : (stepChange current).state ≠ .succeeded)
    (unresolved : ∀ row ∈ next.contents.casesOf run.workflowRunId, row.state.isUnresolved = true →
      row.stepId = current.stepId ∧ (runChange run).state = .awaitingHuman) : Leaves db next := by
  refine ⟨write.staged staged found stage.stored ⟨stepChange current, ?_⟩,
    write.ordered stage going⟩
  rw [write.stepsOf]
  exact stage.stay stepChange (fun row => ⟨(write.keepsStep row).1, (write.keepsStep row).2.2⟩)
    (stepId_distinct_of_run db _) samePointer goesOn unsucceeded unresolved

/-- The current step succeeds, after its case was resolved if it had one. -/
theorem RunWrite.leaves_succeeded
    (write : RunWrite db middle run.workflowRunId current stepChange runChange)
    (sameRun : stale.workflowRunId = run.workflowRunId)
    (samePointer : ∀ row, (runChange row).currentStepId = row.currentStepId)
    (goesOn : (runChange run).state ≠ .completed)
    (resolved : ∀ row ∈ middle.contents.casesOf run.workflowRunId, row.state.isUnresolved = false)
    (ran : handleSucceeded registry middle stale (middle.listSteps stale.workflowRunId) current now
      newId event = .ok (next, state)) : Leaves db next := by
  have keeps (row : StepModel) : (StepModel.succeed now (stepChange row)).stepId = row.stepId ∧
      (StepModel.succeed now (stepChange row)).stepIndex = row.stepIndex :=
    ⟨(write.keepsStep row).1, (write.keepsStep row).2.2⟩
  obtain ⟨cases, outcome⟩ := handleSucceeded_write ran
  have after : ∀ row ∈ next.contents.casesOf run.workflowRunId, row.state.isUnresolved = false := by
    rw [casesOf_congr cases]
    exact resolved
  rw [sameRun] at outcome
  rcases outcome with ⟨last, completes⟩ | ⟨successor, member, index, moves⟩
  · have both := write.trans completes
    refine ⟨both.staged staged found stage.stored ⟨StepModel.succeed now (stepChange current), ?_⟩,
      both.ordered stage going⟩
    rw [both.stepsOf]
    refine stage.complete (fun row => StepModel.succeed now (stepChange row)) keeps
      (stepId_distinct_of_run db _) (stepIndex_distinct_of_run db _) rfl (fun step stored => ?_)
      (samePointer run) rfl after
    rw [write.stepsOf] at last
    have other := last _ (mem_updateRows.mpr ⟨step, stored, rfl⟩)
    split at other
    · rwa [(write.keepsStep step).2.2] at other
    · exact other
  · have both := write.trans moves
    refine ⟨both.staged staged found stage.stored ⟨successor, ?_⟩, both.ordered stage going⟩
    rw [both.stepsOf]
    rw [write.stepsOf] at member
    obtain ⟨stored, -⟩ := stage.of_mem_elsewhere stepChange
      (fun row => ⟨(write.keepsStep row).1, (write.keepsStep row).2.2⟩)
      (stepId_distinct_of_run db _) member (by omega)
    exact stage.advance (fun row => StepModel.succeed now (stepChange row)) keeps
      (stepId_distinct_of_run db _) (stepIndex_distinct_of_run db _) rfl stored index rfl goesOn
      after

end Current

/-- A failure that opens a case puts the run in `awaiting_human` and adds the case. -/
theorem createEscalation_write (change : StepModel → StepModel)
    (keeps : ∀ row, (change row).stepId = row.stepId ∧
      (change row).workflowRunId = row.workflowRunId ∧ (change row).stepIndex = row.stepIndex)
    (steps : middle.contents.steps =
      updateRows (fun row => row.stepId = current.stepId) change db.contents.steps)
    (runs : middle.contents.workflowRuns = db.contents.workflowRuns)
    (cases : middle.contents.escalationCases = db.contents.escalationCases)
    (ran : createEscalation middle run current stepResult reasonCode now newId event =
      .ok (next, state)) :
    RunWrite db next run.workflowRunId current change (WorkflowRunModel.awaitHuman stepResult now) ∧
      ∃ row, row.stepId = current.stepId ∧ next.contents.casesOf run.workflowRunId =
        db.contents.casesOf run.workflowRunId ++ [row] := by
  obtain ⟨-, -, contents⟩ := createEscalation_ok ran
  have added (other : UUID) : next.contents.casesOf other = db.contents.casesOf other ++
      if run.workflowRunId = other then [escalationRow newId run.workflowRunId current.stepId
        stepResult reasonCode now] else [] := by
    rw [Contents.casesOf, contents, List.filter_append, cases, List.filter_singleton,
      Bool.cond_decide]
    rfl
  refine ⟨⟨by rw [contents, steps], keeps, by rw [contents, runs], fun _ => rfl,
    fun other different => ?_⟩, escalationRow newId run.workflowRunId current.stepId stepResult
      reasonCode now, rfl, ?_⟩
  · rw [added, if_neg different.symm, List.append_nil]
  · rw [added, if_pos rfl]

section Running

variable (staged : Staged db.contents) (found : run ∈ db.contents.workflowRuns)
  (stage : Stage (db.contents.stepsOf run.workflowRunId) (db.contents.casesOf run.workflowRunId)
    run current) (running : run.state = .running)
include staged found stage running

theorem createEscalation_leaves (middle : Database) (change : StepModel → StepModel)
    (keeps : ∀ row, (change row).stepId = row.stepId ∧
      (change row).workflowRunId = row.workflowRunId ∧ (change row).stepIndex = row.stepIndex)
    (steps : middle.contents.steps =
      updateRows (fun row => row.stepId = current.stepId) change db.contents.steps)
    (runs : middle.contents.workflowRuns = db.contents.workflowRuns)
    (cases : middle.contents.escalationCases = db.contents.escalationCases)
    (unsucceeded : (change current).state ≠ .succeeded)
    (ran : createEscalation middle run current stepResult reasonCode now newId event =
      .ok (next, state)) : Leaves db next := by
  obtain ⟨write, row, atCurrent, added⟩ :=
    createEscalation_write change keeps steps runs cases ran
  refine write.leaves_stay staged found stage (by rw [running]; exact nofun) rfl nofun unsucceeded
    fun other member live => ⟨?_, rfl⟩
  rw [added] at member
  rcases List.mem_append.mp member with old | new
  · exact (stage.unresolved other old live).1
  · rw [List.mem_singleton.mp new]
    exact atCurrent

/-- The current step fails, and the run is not escalated. -/
theorem RunWrite.leaves_failed
    (write : RunWrite db next run.workflowRunId current stepChange runChange)
    (samePointer : (runChange run).currentStepId = run.currentStepId)
    (goesOn : (runChange run).state ≠ .completed)
    (unsucceeded : (stepChange current).state ≠ .succeeded)
    (cases : next.contents.escalationCases = db.contents.escalationCases) : Leaves db next := by
  refine write.leaves_stay staged found stage (by rw [running]; exact nofun) samePointer goesOn
    unsucceeded fun row member live => ?_
  rw [casesOf_congr cases] at member
  have waiting := (stage.unresolved row member live).2
  rw [running] at waiting
  cases waiting

theorem handleFailedTerminal_leaves
    (ran : handleFailedTerminal db run current stepResult now newId event = .ok (next, state)) :
    Leaves db next := by
  rcases handleFailedTerminal_ok ran with ⟨-, created⟩ | ⟨-, -, contents⟩
  · exact createEscalation_leaves staged found stage running (db.updateStep current.stepId
      (StepModel.failTerminal now)) (StepModel.failTerminal now) (fun _ => ⟨rfl, rfl, rfl⟩) rfl rfl
      rfl nofun created
  · have cases : next.contents.escalationCases = db.contents.escalationCases := by rw [contents]
    have write : RunWrite db next run.workflowRunId current (StepModel.failTerminal now)
        (WorkflowRunModel.fail stepResult now) :=
      ⟨by rw [contents], fun _ => ⟨rfl, rfl, rfl⟩, by rw [contents], fun _ => rfl,
        fun other _ => casesOf_congr cases other⟩
    exact write.leaves_failed staged found stage running rfl nofun nofun cases

theorem handleFailedRetryable_leaves
    (ran : handleFailedRetryable registry db run current stepResult now newId random event =
      .ok (next, state)) : Leaves db next := by
  rcases handleFailedRetryable_ok ran with ⟨-, -, -, contents⟩ | ⟨-, failed⟩
  · have cases : next.contents.escalationCases = db.contents.escalationCases := by rw [contents]
    have write : RunWrite db next run.workflowRunId current StepModel.failRetryable id :=
      ⟨by rw [contents], fun _ => ⟨rfl, rfl, rfl⟩, by rw [contents, updateRows_id], fun _ => rfl,
        fun other _ => casesOf_congr cases other⟩
    exact write.leaves_failed staged found stage running rfl (by rw [id, running]; exact nofun)
      nofun cases
  · exact handleFailedTerminal_leaves staged found stage running failed

end Running

/-- A result of the current step of a running run. -/
theorem advanceWorkflow_leaves {workflowRunId : UUID} {completedStepName : String}
    (staged : Staged db.contents) (runs : db.runsStep workflowRunId completedStepName = true)
    (ran : advanceWorkflow registry db draws workflowRunId completedStepName stepResult =
      .ok (next, state)) : Leaves db next := by
  obtain ⟨run, step, found, named, handled⟩ := advanceWorkflow_ok ran
  simp only [Database.runsStep, found, named, Option.any_some, Bool.and_eq_true,
    decide_eq_true_eq] at runs
  obtain ⟨running, pointed⟩ := runs
  obtain rfl := Database.getWorkflowRun_identified found
  have stored := List.mem_of_find?_eq_some found
  obtain ⟨current, stage⟩ := staged.stages run stored
  obtain rfl : step = current := by
    have same := stage.pointed
    rw [pointed, Option.some.injEq] at same
    exact List.inj_on_of_nodup_map db.steps_distinct (List.mem_of_find?_eq_some named)
      (mem_stepsOf.mp stage.stored).1 same
  cases status : stepResult.status with
  | succeeded =>
    rw [status] at handled
    refine (RunWrite.refl db _ step).leaves_succeeded staged stored stage
      (by rw [running]; decide) rfl (fun _ => rfl) (by rw [id, running]; decide)
      (fun row member => Bool.eq_false_iff.mpr fun live => ?_) handled
    have waiting := (stage.unresolved row member live).2
    rw [running] at waiting
    cases waiting
  | failedRetryable =>
    rw [status] at handled
    exact handleFailedRetryable_leaves staged stored stage running handled
  | failedTerminal =>
    rw [status] at handled
    exact handleFailedTerminal_leaves staged stored stage running handled
  | escalate =>
    rw [status] at handled
    exact createEscalation_leaves staged stored stage running db id (fun _ => ⟨rfl, rfl, rfl⟩)
      (updateRows_id _ _).symm rfl rfl (stage.unfinished (by rw [running]; decide)) handled

/-- A resolution of an unresolved case: the case belongs to the step the run waits at, and goes on
as a success of that step. -/
theorem resumeAfterEscalation_ordered {escalationId : UUID} {resolutionPayload : JsonObject}
    {actor : String} (staged : Staged db.contents)
    (live : (db.getEscalationCase escalationId).any (fun row => row.state.isUnresolved) = true)
    (ran : resumeAfterEscalation registry db draws escalationId resolutionPayload actor =
      .ok (next, state)) : Leaves db next := by
  obtain ⟨row, step, run, foundCase, foundStep, foundRun, -, resumed, contents, handled⟩ :=
    resumeAfterEscalation_ok ran
  rw [foundCase, Option.any_some] at live
  obtain ⟨rowStored, rowIdentified⟩ :=
    mem_of_find? (fun row : EscalationCaseModel => row.escalationId) foundCase
  obtain ⟨stepStored, stepIdentified⟩ := mem_of_find? (fun row : StepModel => row.stepId) foundStep
  have stored := List.mem_of_find?_eq_some foundRun
  have owner := Database.getWorkflowRun_identified foundRun
  obtain ⟨current, stage⟩ := staged.stages run stored
  have rowOwned : row ∈ db.contents.casesOf run.workflowRunId :=
    mem_casesOf.mpr ⟨rowStored, owner.symm⟩
  obtain ⟨here, waiting⟩ := stage.unresolved row rowOwned live
  obtain rfl : step = current := List.inj_on_of_nodup_map db.steps_distinct stepStored
    (mem_stepsOf.mp stage.stored).1 (stepIdentified.trans here)
  have casesOf (other : UUID) : resumed.contents.casesOf other = updateRows
      (fun other => other.escalationId = escalationId) (EscalationCaseModel.decide .resolved actor
        resolutionPayload (draws.now 0)) (db.contents.casesOf other) := by
    rw [Contents.casesOf, contents]
    exact filter_updateRows _ (EscalationCaseModel.decide .resolved actor resolutionPayload
      (draws.now 0)) _ (fun _ => rfl) _
  have only : ∀ other ∈ db.contents.escalationCases, other.escalationId = escalationId →
      other = row := fun other otherStored same =>
    eq_of_find? (fun row : EscalationCaseModel => row.escalationId) db.escalationCases_distinct
      foundCase otherStored same
  have write : RunWrite db resumed run.workflowRunId step (StepModel.succeed (draws.now 0))
      (WorkflowRunModel.resume (draws.now 0)) := by
    refine ⟨by rw [contents], fun _ => ⟨rfl, rfl, rfl⟩, by rw [contents], fun _ => rfl,
      fun other different => ?_⟩
    rw [casesOf]
    refine updateRows_of_not _ _ _ fun found member => decide_eq_false fun same => different ?_
    obtain ⟨foundStored, foundRun⟩ := mem_casesOf.mp member
    rw [← foundRun, only found foundStored same, owner]
  refine write.leaves_succeeded staged stored stage (by rw [waiting]; decide) rfl
    (fun _ => rfl) WorkflowRunState.noConfusion
    (fun other member => Bool.eq_false_iff.mpr fun unresolved => ?_) handled
  rw [casesOf] at member
  rcases of_mem_updateRows_key (fun row : EscalationCaseModel => row.escalationId)
    (fun old oldStored same => only old (mem_casesOf.mp oldStored).1 same) member with
    rfl | ⟨otherStored, different⟩
  · cases unresolved
  · obtain ⟨kept, ofRun⟩ := mem_casesOf.mp otherStored
    have same := db.case_distinct kept rowStored (ofRun.trans owner)
      ((stage.unresolved other otherStored unresolved).1.trans here.symm)
    exact different (same ▸ rowIdentified)

end Outcomes

/-! ### Starting a run -/

section Started

variable {registry : WorkflowRegistry} {db next : Database} {new : NewRun}
  (started : Started db next new) (staged : Staged db.contents)
include started

/-- A new run stands at its first step: no step has a lower index. -/
theorem started_stage (consecutive : new.definition.Consecutive) :
    Stage new.steps [] new.run new.first := by
  obtain ⟨now, stepId, rows⟩ := started.rows
  have columns : new.steps.map (fun row => row.stepIndex) =
      new.definition.steps.map fun step => step.stepIndex := by
    have both := congrArg (List.map Prod.fst)
      (stepRows_map new.definition new.run.workflowRunId now stepId)
    rw [List.map_map, List.map_map] at both
    rw [rows]
    exact both
  have firstMember : new.first ∈ new.steps := List.mem_of_mem_head? started.first
  have indices : ∀ index ∈ new.steps.map (fun row => row.stepIndex), index = new.first.stepIndex ∨
      ∃ earlier ∈ new.steps.map (fun row => row.stepIndex), earlier + 1 = index := by
    have heads := congrArg List.head? columns
    rw [List.head?_map, List.head?_map, started.first, Option.map_some, eq_comm,
      Option.map_eq_some_iff] at heads
    obtain ⟨firstDefinition, head, sameIndex⟩ := heads
    rw [columns]
    intro index member
    obtain ⟨step, stored, rfl⟩ := List.mem_map.mp member
    rcases consecutive firstDefinition head step stored with same | ⟨earlier, earlierStored, next⟩
    · exact .inl (same.trans sameIndex)
    · exact .inr ⟨_, List.mem_map_of_mem earlierStored, next⟩
  have lowest := ge_of_consecutive indices fun index member => by
    obtain ⟨step, stored, rfl⟩ := List.mem_map.mp member
    exact (started.ranges step stored).1
  have queued : ∀ step ∈ new.steps, step.state ≠ .succeeded := by
    rw [rows]
    intro step member
    rw [(stepRows_mem member).2]
    exact nofun
  refine ⟨firstMember, started.current, fun step stored higher => ?_, fun step stored lower => ?_,
    fun step stored _ => queued step stored, fun _ => queued _ firstMember, fun completed => ?_,
    fun row member => absurd member List.not_mem_nil⟩
  · rcases indices _ (List.mem_map_of_mem stored) with same | ⟨index, member, next⟩
    · exact absurd same higher.ne'
    · obtain ⟨earlier, earlierStored, rfl⟩ := List.mem_map.mp member
      exact ⟨earlier, earlierStored, next⟩
  · exact absurd lower (lowest _ (List.mem_map_of_mem stored)).not_gt
  · rw [started.running] at completed
    cases completed

/-- A new run leaves the other ones alone. -/
theorem started_leaves (staged : Staged db.contents) (consecutive : new.definition.Consecutive) :
    Leaves db next := by
  have contents := started.contents
  obtain ⟨now, stepId, rows⟩ := started.rows
  have unowned : db.contents.stepsOf new.run.workflowRunId = [] := by
    refine List.filter_eq_nil_iff.mpr fun step stored matched => ?_
    obtain ⟨owner, ownerStored, owns⟩ := staged.stepOwners step stored
    exact started.fresh owner ownerStored (owns.trans (of_decide_eq_true matched))
  have uncased : db.contents.casesOf new.run.workflowRunId = [] := by
    refine List.filter_eq_nil_iff.mpr fun row stored matched => ?_
    obtain ⟨owner, ownerStored, owns⟩ := staged.caseOwners row stored
    exact started.fresh owner ownerStored (owns.trans (of_decide_eq_true matched))
  have casesOf (other : UUID) : next.contents.casesOf other = db.contents.casesOf other :=
    casesOf_congr (by rw [contents]) other
  have steps : next.contents.steps = db.contents.steps ++ new.steps := by rw [contents]
  refine ⟨⟨fun step member => ?_, fun row member => ?_, fun run member => ?_⟩, fun step member
    succeeded newly => ?_, fun step stored _ => by rw [steps]; exact List.mem_append_left _ stored⟩
  · rw [contents] at member ⊢
    rcases List.mem_append.mp member with old | fresh
    · obtain ⟨owner, stored, owns⟩ := staged.stepOwners step old
      exact ⟨owner, List.mem_append_left _ stored, owns⟩
    · rw [rows] at fresh
      exact ⟨new.run, List.mem_append_right _ (List.mem_singleton_self _),
        (stepRows_mem fresh).1.symm⟩
  · rw [contents] at member ⊢
    obtain ⟨owner, stored, owns⟩ := staged.caseOwners row member
    exact ⟨owner, List.mem_append_left _ stored, owns⟩
  · rw [contents] at member
    rw [started_stepsOf started, casesOf]
    rcases List.mem_append.mp member with old | fresh
    · rw [if_neg (started.fresh run old), List.append_nil]
      exact staged.stages run old
    · rw [List.mem_singleton.mp fresh, if_pos rfl, unowned, uncased, List.nil_append]
      exact ⟨new.first, started_stage started consecutive⟩
  · rw [steps] at member
    rcases List.mem_append.mp member with old | fresh
    · exact absurd succeeded (newly step old rfl)
    · rw [rows] at fresh
      rw [(stepRows_mem fresh).2] at succeeded
      cases succeeded

end Started

/-! ### Sequences of calls -/

theorem leaves_refl {db : Database} (staged : Staged db.contents) : Leaves db db :=
  ⟨staged, fun step stored succeeded newly => absurd succeeded (newly step stored rfl),
    fun _ stored _ => stored⟩

theorem OrchestratorCall.step_leaves (registry : WorkflowRegistry) (db : Database)
    (call : OrchestratorCall × Draws) (staged : Staged db.contents)
    (sequenced : call.1.isSequenced registry db = true) :
    Leaves db (OrchestratorCall.step registry db call) := by
  refine commit_induction (Leaves db) (leaves_refl staged) fun next ran => ?_
  obtain ⟨call, draws⟩ := call
  cases call with
  | startWorkflowRun workflowName workflowVersion documentIds actor correlationId deadline =>
    obtain ⟨_, ran⟩ := OrchestratorCall.perform_start ran
    obtain ⟨new, started, -, registered⟩ := startWorkflowRun_ok ran
    simp only [OrchestratorCall.isSequenced, registered, Option.all_some, decide_eq_true_eq]
      at sequenced
    exact started_leaves started staged sequenced
  | advanceWorkflow workflowRunId completedStepName stepResult =>
    obtain ⟨_, ran⟩ := OrchestratorCall.perform_advance ran
    exact advanceWorkflow_leaves staged sequenced ran
  | resumeAfterEscalation escalationId resolutionPayload actor =>
    obtain ⟨_, ran⟩ := OrchestratorCall.perform_resume ran
    exact resumeAfterEscalation_ordered staged sequenced ran
  | cancelWorkflow workflowRunId actor reason => cases sequenced

/-- In every sequence of such calls, a completed run has only succeeded steps, and the steps of a
run succeed in the order of their indices. The invariant lets every step before the current one have
succeeded, and a sequenced success goes on to the very next index. -/
theorem completes_in_order (registry : WorkflowRegistry) (documents : List UUID)
    (calls : List (OrchestratorCall × Draws))
    (sequenced : Transition.Along (OrchestratorCall.step registry)
      (fun db call => call.1.isSequenced registry db = true) (.empty documents) calls) :
    CompletedSucceeded
        (Transition.run (OrchestratorCall.step registry) (.empty documents) calls).contents ∧
      Transition.Along (OrchestratorCall.step registry) (fun db call =>
        SucceedsInOrder db.contents (OrchestratorCall.step registry db call).contents)
        (.empty documents) calls := by
  have preserved : ∀ db call, Staged (Database.contents db) →
      OrchestratorCall.isSequenced registry db call.1 = true →
        Staged (OrchestratorCall.step registry db call).contents :=
    fun db call staged met => (OrchestratorCall.step_leaves registry db call staged met).1
  exact ⟨(Transition.run_invariant (OrchestratorCall.step registry)
      (fun db => Staged db.contents) preserved _ (staged_empty documents) calls
      sequenced).completedSucceeded,
    Transition.along_of_invariant (OrchestratorCall.step registry) (fun db => Staged db.contents)
      preserved (fun db call staged met =>
        (OrchestratorCall.step_leaves registry db call staged met).2) _ (staged_empty documents)
      calls sequenced⟩

/-! ### Definitions out of order -/

/-- A workflow with steps at these indices, in the order of the tuple. -/
def indexedWorkflow (indices : List Int) : WorkflowDefinition where
  workflowName := "w"
  workflowVersion := "v1"
  steps := indices.map fun index =>
    { stepName := toString index, handlerName := "ingest", stepIndex := index }

/-- The run of the workflow is started, and these steps succeed one after the other. -/
def successes (indices : List Int) : List (OrchestratorCall × Draws) :=
  (.startWorkflowRun "w" "v1" [] "api" "c" none, numberedDraws 1) ::
    indices.mapIdx fun call index =>
      (.advanceWorkflow 100 (toString index) { status := .succeeded }, numberedDraws (call + 2))

/-- The tuple may be out of order after its first step. -/
theorem completes_in_order_shuffled :
    CompletedSucceeded (Transition.run (OrchestratorCall.step [indexedWorkflow [5, 7, 6]])
        (.empty []) (successes [5, 6, 7])).contents ∧
      Transition.Along (OrchestratorCall.step [indexedWorkflow [5, 7, 6]]) (fun db call =>
        SucceedsInOrder db.contents
          (OrchestratorCall.step [indexedWorkflow [5, 7, 6]] db call).contents)
        (.empty []) (successes [5, 6, 7]) :=
  completes_in_order [indexedWorkflow [5, 7, 6]] [] (successes [5, 6, 7]) (by decide +kernel)

/-- The states of the run and of its steps. -/
def runAndSteps (db : Database) : List WorkflowRunState × List (Int × StepState) :=
  (db.contents.workflowRuns.map fun run => run.state,
    db.contents.steps.map fun step => (step.stepIndex, step.state))

/-- With a gap, or with a first step that is not the lowest one, the run is completed while a step
is still queued. -/
theorem completes_early :
    runAndSteps (Transition.run (OrchestratorCall.step [indexedWorkflow [0, 2]]) (.empty [])
        (successes [0])) = ([.completed], [(0, .succeeded), (2, .queued)]) ∧
    runAndSteps (Transition.run (OrchestratorCall.step [indexedWorkflow [1, 0]]) (.empty [])
        (successes [1])) = ([.completed], [(1, .succeeded), (0, .queued)]) ∧
    ¬CompletedSucceeded (Transition.run (OrchestratorCall.step [indexedWorkflow [0, 2]])
        (.empty []) (successes [0])).contents ∧
    ¬CompletedSucceeded (Transition.run (OrchestratorCall.step [indexedWorkflow [1, 0]])
        (.empty []) (successes [1])).contents := by
  unfold CompletedSucceeded
  decide +kernel

end InsuranceOps
