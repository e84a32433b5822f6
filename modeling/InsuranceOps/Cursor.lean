/-
This file describes where a run stands: the step its `current_step_id` names,
succeeded steps before it, untouched steps after it, and escalation cases only
up to it. It says which writes leave other runs alone, and how the two moves of
a run, changing its current step and going on to the next one, keep this
description.
-/

import InsuranceOps.RetryBudget

namespace InsuranceOps

open Relational WorkflowOrchestrator

/-! ### The rows of one run -/

/-- The steps of a run in the order they were stored. -/
def Contents.stepsOf (contents : Contents) (workflowRunId : UUID) : List StepModel :=
  contents.steps.filter fun row => row.workflowRunId = workflowRunId

/-- The escalation cases of a run. -/
def Contents.casesOf (contents : Contents) (workflowRunId : UUID) : List EscalationCaseModel :=
  contents.escalationCases.filter fun row => row.workflowRunId = workflowRunId

/-- The escalation cases of a step of a run. -/
def Contents.casesAt (contents : Contents) (workflowRunId stepId : UUID) :
    List EscalationCaseModel :=
  (contents.casesOf workflowRunId).filter fun row => row.stepId = stepId

theorem mem_stepsOf {contents : Contents} {workflowRunId : UUID} {step : StepModel} :
    step ∈ contents.stepsOf workflowRunId ↔
      step ∈ contents.steps ∧ step.workflowRunId = workflowRunId := by
  rw [Contents.stepsOf, List.mem_filter, decide_eq_true_eq]

theorem mem_casesOf {contents : Contents} {workflowRunId : UUID} {row : EscalationCaseModel} :
    row ∈ contents.casesOf workflowRunId ↔
      row ∈ contents.escalationCases ∧ row.workflowRunId = workflowRunId := by
  rw [Contents.casesOf, List.mem_filter, decide_eq_true_eq]

theorem mem_casesAt {contents : Contents} {workflowRunId stepId : UUID}
    {row : EscalationCaseModel} :
    row ∈ contents.casesAt workflowRunId stepId ↔
      row ∈ contents.casesOf workflowRunId ∧ row.stepId = stepId := by
  rw [Contents.casesAt, List.mem_filter, decide_eq_true_eq]

theorem stepsOf_updateRows {before after : Contents} {selects : StepModel → Bool}
    (change : StepModel → StepModel)
    (updated : after.steps = updateRows selects change before.steps)
    (keeps : ∀ row, (change row).workflowRunId = row.workflowRunId) (workflowRunId : UUID) :
    after.stepsOf workflowRunId = updateRows selects change (before.stepsOf workflowRunId) := by
  rw [Contents.stepsOf, updated]
  exact filter_updateRows selects change _ (fun row => by rw [keeps row]) _

/-! ### Writes that concern one run -/

/-- Only what belongs to one run differs between two contents. -/
structure OnlyRun (before after : Contents) (workflowRunId : UUID) : Prop where
  steps : ∀ other, other ≠ workflowRunId → after.stepsOf other = before.stepsOf other
  identifiers : (after.stepsOf workflowRunId).map (fun row => row.stepId) =
    (before.stepsOf workflowRunId).map fun row => row.stepId
  attempts : ∀ stepId, (∀ step ∈ before.stepsOf workflowRunId, step.stepId ≠ stepId) →
    after.attemptsOf stepId = before.attemptsOf stepId
  cases : ∀ other, other ≠ workflowRunId → after.casesOf other = before.casesOf other

/-- What belongs to a run is the same in two contents. -/
structure SameRun (before after : Contents) (workflowRunId : UUID) : Prop where
  steps : after.stepsOf workflowRunId = before.stepsOf workflowRunId
  attempts : ∀ step ∈ before.stepsOf workflowRunId,
    after.attemptsOf step.stepId = before.attemptsOf step.stepId
  cases : after.casesOf workflowRunId = before.casesOf workflowRunId

/-- A write that concerns one run leaves the others alone. -/
theorem sameRun_of_only {before after : Contents} {workflowRunId other : UUID}
    (only : OnlyRun before after workflowRunId) (different : other ≠ workflowRunId)
    (distinct : (before.steps.map fun row => row.stepId).Nodup) : SameRun before after other where
  steps := only.steps other different
  attempts step member := by
    refine only.attempts _ fun foreign foreignMember same => different ?_
    obtain ⟨stored, owner⟩ := mem_stepsOf.mp member
    obtain ⟨foreignStored, foreignOwner⟩ := mem_stepsOf.mp foreignMember
    rw [← owner, ← List.inj_on_of_nodup_map distinct foreignStored stored same, foreignOwner]
  cases := only.cases other different

/-- Contents that agree on steps, attempts and cases. -/
theorem onlyRun_of_same {before after : Contents} (workflowRunId : UUID)
    (steps : after.steps = before.steps) (attempts : after.stepAttempts = before.stepAttempts)
    (cases : after.escalationCases = before.escalationCases) :
    OnlyRun before after workflowRunId where
  steps other _ := by rw [Contents.stepsOf, steps, Contents.stepsOf]
  identifiers := by rw [Contents.stepsOf, steps, Contents.stepsOf]
  attempts stepId _ := by rw [Contents.attemptsOf, attempts, Contents.attemptsOf]
  cases other _ := by rw [Contents.casesOf, cases, Contents.casesOf]

theorem onlyRun_trans {first second third : Contents} {workflowRunId : UUID}
    (before : OnlyRun first second workflowRunId) (after : OnlyRun second third workflowRunId) :
    OnlyRun first third workflowRunId where
  steps other different := (after.steps other different).trans (before.steps other different)
  identifiers := after.identifiers.trans before.identifiers
  attempts stepId foreign := by
    refine (after.attempts stepId fun step member same => ?_).trans (before.attempts stepId foreign)
    have listed := List.mem_map_of_mem (f := fun row : StepModel => row.stepId) member
    rw [before.identifiers] at listed
    obtain ⟨old, oldMember, sameId⟩ := List.mem_map.mp listed
    exact foreign old oldMember (sameId.trans same)
  cases other different := (after.cases other different).trans (before.cases other different)

/-- Changing a step of a run. -/
theorem onlyRun_updateStep {before after : Contents} {workflowRunId : UUID} {step : StepModel}
    (change : StepModel → StepModel)
    (updated : after.steps = updateRows (fun row => row.stepId = step.stepId) change before.steps)
    (keeps : ∀ row, (change row).stepId = row.stepId ∧
      (change row).workflowRunId = row.workflowRunId)
    (attempts : after.stepAttempts = before.stepAttempts)
    (cases : after.escalationCases = before.escalationCases)
    (distinct : (before.steps.map fun row => row.stepId).Nodup)
    (stored : step ∈ before.stepsOf workflowRunId) : OnlyRun before after workflowRunId where
  steps other different := by
    rw [stepsOf_updateRows change updated (fun row => (keeps row).2)]
    refine updateRows_of_not _ _ _ fun row member => decide_eq_false fun same => different ?_
    obtain ⟨rowStored, rowRun⟩ := mem_stepsOf.mp member
    obtain ⟨stepStored, stepRun⟩ := mem_stepsOf.mp stored
    rw [← rowRun, List.inj_on_of_nodup_map distinct rowStored stepStored same, stepRun]
  identifiers := by
    rw [stepsOf_updateRows change updated (fun row => (keeps row).2)]
    exact updateRows_map _ _ _ (fun row => (keeps row).1) _
  attempts stepId _ := by rw [Contents.attemptsOf, attempts, Contents.attemptsOf]
  cases other _ := by rw [Contents.casesOf, cases, Contents.casesOf]

/-- Adding an attempt to a step of a run. -/
theorem onlyRun_appendAttempt {before after : Contents} {workflowRunId : UUID} {step : StepModel}
    {attempt : StepAttemptModel} (steps : after.steps = before.steps)
    (attempts : after.stepAttempts = before.stepAttempts ++ [attempt])
    (cases : after.escalationCases = before.escalationCases)
    (stored : step ∈ before.stepsOf workflowRunId) (owner : attempt.stepId = step.stepId) :
    OnlyRun before after workflowRunId where
  steps other _ := by rw [Contents.stepsOf, steps, Contents.stepsOf]
  identifiers := by rw [Contents.stepsOf, steps, Contents.stepsOf]
  attempts _ foreign := attemptsOf_append_of_ne attempts (owner ▸ foreign step stored)
  cases other _ := by rw [Contents.casesOf, cases, Contents.casesOf]

/-- Opening a case of a run. -/
theorem onlyRun_appendCase {before after : Contents} {row : EscalationCaseModel}
    (steps : after.steps = before.steps) (attempts : after.stepAttempts = before.stepAttempts)
    (cases : after.escalationCases = before.escalationCases ++ [row]) :
    OnlyRun before after row.workflowRunId where
  steps other _ := by rw [Contents.stepsOf, steps, Contents.stepsOf]
  identifiers := by rw [Contents.stepsOf, steps, Contents.stepsOf]
  attempts stepId _ := by rw [Contents.attemptsOf, attempts, Contents.attemptsOf]
  cases other different := by
    rw [Contents.casesOf, cases, List.filter_append, List.filter_singleton,
      decide_eq_false different.symm, cond_false, List.append_nil, Contents.casesOf]

/-- Changing a case of a run. -/
theorem onlyRun_updateCase {before after : Contents} {row : EscalationCaseModel}
    (change : EscalationCaseModel → EscalationCaseModel)
    (steps : after.steps = before.steps) (attempts : after.stepAttempts = before.stepAttempts)
    (cases : after.escalationCases = updateRows
      (fun other => other.escalationId = row.escalationId) change before.escalationCases)
    (keeps : ∀ other, (change other).workflowRunId = other.workflowRunId)
    (distinct : (before.escalationCases.map fun other => other.escalationId).Nodup)
    (stored : row ∈ before.escalationCases) : OnlyRun before after row.workflowRunId where
  steps other _ := by rw [Contents.stepsOf, steps, Contents.stepsOf]
  identifiers := by rw [Contents.stepsOf, steps, Contents.stepsOf]
  attempts stepId _ := by rw [Contents.attemptsOf, attempts, Contents.attemptsOf]
  cases other different := by
    rw [Contents.casesOf, cases, filter_updateRows _ _ _ (fun row => by rw [keeps row])]
    refine updateRows_of_not _ _ _ fun found member => decide_eq_false fun same => different ?_
    obtain ⟨foundStored, foundRun⟩ := List.mem_filter.mp member
    rw [← of_decide_eq_true foundRun, List.inj_on_of_nodup_map distinct foundStored stored same]

/-! ### Where a run stands -/

/-- The indices `0..n-1` of a definition with `n` steps. -/
def indicesBelow (count : Nat) : List Int := (List.range count).map fun index : Nat => (index : Int)

theorem mem_indicesBelow {count : Nat} {index : Int} :
    index ∈ indicesBelow count ↔ 0 ≤ index ∧ index < count := by
  rw [indicesBelow, List.mem_map]
  constructor
  · rintro ⟨natural, member, rfl⟩
    have bound := List.mem_range.mp member
    omega
  · rintro ⟨nonnegative, bound⟩
    exact ⟨index.toNat, List.mem_range.mpr (by omega), by omega⟩

theorem indicesBelow_nodup (count : Nat) : (indicesBelow count).Nodup :=
  List.nodup_range.map Nat.cast_injective

/-- A run stands at a step: the steps are numbered in order, those before it have succeeded, those
after it are untouched, and cases exist only up to it, the earlier ones resolved. -/
structure Cursor (contents : Contents) (run : WorkflowRunModel) (current : StepModel) : Prop where
  stored : current ∈ contents.stepsOf run.workflowRunId
  pointed : run.currentStepId = some current.stepId
  indexed : (contents.stepsOf run.workflowRunId).map (fun row => row.stepIndex) =
    indicesBelow (contents.stepsOf run.workflowRunId).length
  below : ∀ step ∈ contents.stepsOf run.workflowRunId, step.stepIndex < current.stepIndex →
    step.state = .succeeded
  above : ∀ step ∈ contents.stepsOf run.workflowRunId, current.stepIndex < step.stepIndex →
    step.state = .queued ∧ contents.attemptsOf step.stepId = []
  placed : ∀ row ∈ contents.casesOf run.workflowRunId,
    ∃ step ∈ contents.stepsOf run.workflowRunId, step.stepId = row.stepId ∧
      step.stepIndex ≤ current.stepIndex
  behind : ∀ row ∈ contents.casesOf run.workflowRunId, row.stepId ≠ current.stepId →
    row.state = .resolved

/-- A write that leaves the steps, attempts and cases of a run alone leaves it where it stands. -/
theorem cursor_frame {before after : Contents} {run : WorkflowRunModel} {current : StepModel}
    (cursor : Cursor before run current) (same : SameRun before after run.workflowRunId) :
    Cursor after run current := by
  obtain ⟨stored, pointed, indexed, below, above, placed, behind⟩ := cursor
  refine ⟨by rwa [same.steps], pointed, by rwa [same.steps], by rwa [same.steps], ?_,
    by rwa [same.steps, same.cases], by rwa [same.cases]⟩
  rw [same.steps]
  intro step member later
  rw [same.attempts step member]
  exact above step member later

section Indices

variable {contents : Contents} {workflowRunId : UUID}
  (indexed : (contents.stepsOf workflowRunId).map (fun row => row.stepIndex) =
    indicesBelow (contents.stepsOf workflowRunId).length)
include indexed

/-- The indices of the steps are the numbers below how many steps there are. -/
theorem exists_index {index : Int} : (∃ step ∈ contents.stepsOf workflowRunId,
    step.stepIndex = index) ↔ 0 ≤ index ∧ index < (contents.stepsOf workflowRunId).length := by
  rw [← mem_indicesBelow, ← indexed]
  exact List.mem_map.symm

/-- Two steps of a run with one index are the same step. -/
theorem eq_of_index {first second : StepModel}
    (firstMember : first ∈ contents.stepsOf workflowRunId)
    (secondMember : second ∈ contents.stepsOf workflowRunId)
    (same : first.stepIndex = second.stepIndex) : first = second :=
  List.inj_on_of_nodup_map (indexed ▸ indicesBelow_nodup _) firstMember secondMember same

end Indices

/-! ### The moves of a run -/

/-- Changing the current step, its attempts and its cases leaves the run standing there. -/
theorem cursor_change {before after : Contents} {run changed : WorkflowRunModel}
    {current : StepModel} (change : StepModel → StepModel) (cursor : Cursor before run current)
    (distinct : (before.steps.map fun row => row.stepId).Nodup)
    (sameRun : changed.workflowRunId = run.workflowRunId)
    (samePointer : changed.currentStepId = run.currentStepId)
    (steps : after.stepsOf run.workflowRunId =
      updateRows (fun row => row.stepId = current.stepId) change (before.stepsOf run.workflowRunId))
    (keeps : ∀ row, (change row).stepId = row.stepId ∧ (change row).stepIndex = row.stepIndex)
    (attempts : ∀ stepId, stepId ≠ current.stepId →
      after.attemptsOf stepId = before.attemptsOf stepId)
    (cases : ∀ row ∈ after.casesOf run.workflowRunId, row.stepId = current.stepId ∨
      row ∈ before.casesOf run.workflowRunId) : Cursor after changed (change current) := by
  have kept : ∀ step ∈ after.stepsOf run.workflowRunId, step.stepIndex ≠ current.stepIndex →
      step ∈ before.stepsOf run.workflowRunId ∧ step.stepId ≠ current.stepId := by
    rw [steps]
    intro step member different
    obtain ⟨old, stored, same⟩ := mem_updateRows.mp member
    by_cases selected : old.stepId = current.stepId
    · rw [if_pos (decide_eq_true selected)] at same
      rw [← same, (keeps old).2, List.inj_on_of_nodup_map distinct (mem_stepsOf.mp stored).1
        (mem_stepsOf.mp cursor.stored).1 selected] at different
      exact absurd rfl different
    · rw [if_neg (by rwa [decide_eq_true_eq])] at same
      exact same ▸ ⟨stored, selected⟩
  have currentStored : change current ∈ after.stepsOf run.workflowRunId := by
    rw [steps]
    exact mem_updateRows_of_selects cursor.stored (decide_eq_true rfl)
  have updated : ∀ step ∈ before.stepsOf run.workflowRunId,
      ∃ later ∈ after.stepsOf run.workflowRunId, later.stepId = step.stepId ∧
        later.stepIndex = step.stepIndex := by
    rw [steps]
    intro step member
    refine ⟨_, mem_updateRows.mpr ⟨step, member, rfl⟩, ?_⟩
    split
    · exact keeps step
    · exact ⟨rfl, rfl⟩
  refine ⟨?_, ?_, ?_, ?_, ?_, ?_, ?_⟩
  · rwa [sameRun]
  · rw [samePointer, (keeps current).1]
    exact cursor.pointed
  · rw [sameRun, steps, updateRows_map _ _ _ fun row => (keeps row).2, updateRows_length]
    exact cursor.indexed
  · rw [sameRun, (keeps current).2]
    intro step member earlier
    exact cursor.below step (kept step member earlier.ne).1 earlier
  · rw [sameRun, (keeps current).2]
    intro step member later
    obtain ⟨old, other⟩ := kept step member later.ne'
    rw [attempts step.stepId other]
    exact cursor.above step old later
  · rw [sameRun, (keeps current).2]
    intro row member
    rcases cases row member with here | old
    · exact ⟨change current, currentStored, (keeps current).1.trans here.symm, (keeps current).2.le⟩
    · obtain ⟨step, stored, owner, reached⟩ := cursor.placed row old
      obtain ⟨later, laterStored, sameStep, sameIndex⟩ := updated step stored
      exact ⟨later, laterStored, sameStep.trans owner, sameIndex.le.trans reached⟩
  · rw [sameRun, (keeps current).1]
    intro row member elsewhere
    rcases cases row member with here | old
    · exact absurd here elsewhere
    · exact cursor.behind row old elsewhere

/-- Going on to the next step, once the current one has succeeded and its cases are resolved. -/
theorem cursor_move {before after : Contents} {run moved : WorkflowRunModel}
    {current successor : StepModel} (cursor : Cursor before run current)
    (succeeded : current.state = .succeeded)
    (resolved : ∀ row ∈ before.casesAt run.workflowRunId current.stepId, row.state = .resolved)
    (stored : successor ∈ before.stepsOf run.workflowRunId)
    (next : successor.stepIndex = current.stepIndex + 1)
    (sameRun : moved.workflowRunId = run.workflowRunId)
    (pointed : moved.currentStepId = some successor.stepId)
    (steps : after.stepsOf run.workflowRunId = before.stepsOf run.workflowRunId)
    (attempts : ∀ stepId, stepId ≠ successor.stepId →
      after.attemptsOf stepId = before.attemptsOf stepId)
    (cases : after.casesOf run.workflowRunId = before.casesOf run.workflowRunId)
    (distinct : (before.steps.map fun row => row.stepId).Nodup) : Cursor after moved successor := by
  refine ⟨by rwa [sameRun, steps], pointed, by rw [sameRun, steps]; exact cursor.indexed, ?_, ?_,
    ?_, ?_⟩
  · rw [sameRun, steps]
    intro step member earlier
    rcases lt_or_eq_of_le (show step.stepIndex ≤ current.stepIndex by omega) with before | here
    · exact cursor.below step member before
    · rw [eq_of_index cursor.indexed member cursor.stored here]
      exact succeeded
  · rw [sameRun, steps]
    intro step member later
    rw [attempts step.stepId fun same => ?_]
    · exact cursor.above step member (by omega)
    · rw [List.inj_on_of_nodup_map distinct (mem_stepsOf.mp member).1 (mem_stepsOf.mp stored).1
        same] at later
      exact absurd later (lt_irrefl _)
  · rw [sameRun, steps, cases]
    intro row member
    obtain ⟨step, stepMember, owner, reached⟩ := cursor.placed row member
    exact ⟨step, stepMember, owner, by omega⟩
  · rw [sameRun, cases]
    intro row member _
    by_cases here : row.stepId = current.stepId
    · exact resolved row (mem_casesAt.mpr ⟨member, here⟩)
    · exact cursor.behind row member here

/-- No case exists at a step after the current one. -/
theorem casesAt_eq_nil {contents : Contents} {run : WorkflowRunModel} {current later : StepModel}
    (cursor : Cursor contents run current)
    (distinct : (contents.steps.map fun row => row.stepId).Nodup)
    (stored : later ∈ contents.stepsOf run.workflowRunId)
    (after : current.stepIndex < later.stepIndex) :
    contents.casesAt run.workflowRunId later.stepId = [] := by
  refine List.filter_eq_nil_iff.mpr fun row member same => ?_
  obtain ⟨step, stepMember, owner, reached⟩ := cursor.placed row member
  rw [List.inj_on_of_nodup_map distinct (mem_stepsOf.mp stepMember).1 (mem_stepsOf.mp stored).1
    (owner.trans (of_decide_eq_true same))] at reached
  exact absurd after reached.not_gt

/-- Without a next step the current step is the last one. -/
theorem last_of_nextStep_none {db : Database} {run : WorkflowRunModel} {current : StepModel}
    (cursor : Cursor db.contents run current)
    (last : nextStep (db.listSteps run.workflowRunId) current = none) :
    current.stepIndex + 1 = (db.contents.stepsOf run.workflowRunId).length := by
  have absent : ¬∃ step ∈ db.contents.stepsOf run.workflowRunId,
      step.stepIndex = current.stepIndex + 1 := by
    rintro ⟨step, member, index⟩
    have unmatched := List.find?_eq_none.mp last step
      (Database.mem_listSteps.mpr (mem_stepsOf.mp member))
    exact unmatched (decide_eq_true index)
  have range := (exists_index cursor.indexed).mp ⟨current, cursor.stored, rfl⟩
  rw [exists_index cursor.indexed] at absent
  omega

end InsuranceOps
