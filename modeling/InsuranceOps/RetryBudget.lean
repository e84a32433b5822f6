/-
This file proves what the orchestrator keeps of step attempts in every state
it commits: the attempts of a step are numbered from one on in the order they
were made, the ones the orchestrator schedules stay within the step's budget,
and each retry is scheduled within the backoff the step's policy allows. No
call keeps a counter: the next number is the count of stored attempts plus one,
or one, and the unique constraint undoes a call that arrives twice.
-/

import InsuranceOps.Operations
import Mathlib.Data.List.Perm.Subperm

namespace InsuranceOps

open Relational WorkflowOrchestrator

/-! ### Attempts of a step -/

/-- The attempts of a step in the order they were made. -/
def Contents.attemptsOf (contents : Contents) (stepId : UUID) : List StepAttemptModel :=
  contents.stepAttempts.filter fun row => row.stepId = stepId

/-- A retry is scheduled between its creation and the backoff that follows the attempt before. -/
def ScheduledWithin (policy : RetryPolicy) (attempt : StepAttemptModel) : Prop :=
  0 ≤ policy.baseDelayS → 0 ≤ policy.capS → ∃ scheduledFor,
    attempt.scheduledFor = some scheduledFor ∧ attempt.createdAt ≤ scheduledFor ∧
      scheduledFor ≤ attempt.createdAt + min policy.capS
        (policy.baseDelayS * 2 ^ ((attempt.stepAttemptNumber : Int) - 2))

/-- The columns of a step that bound its attempts. -/
def StepModel.budget (row : StepModel) : UUID × Int × RetryPolicy :=
  (row.stepId, row.maxAttempts, row.retryPolicy)

/-- What holds of the attempts in every committed state. -/
structure AttemptsSound (contents : Contents) : Prop where
  referenced : ∀ attempt ∈ contents.stepAttempts,
    ∃ step ∈ contents.steps, step.stepId = attempt.stepId
  numbered : ∀ stepId, (contents.attemptsOf stepId).map (fun row => row.stepAttemptNumber) =
    List.range' 1 (contents.attemptsOf stepId).length
  allowed : ∀ step ∈ contents.steps, 1 ≤ step.maxAttempts
  bounded : ∀ step ∈ contents.steps, ∀ attempt ∈ contents.attemptsOf step.stepId,
    attempt.origin = .system → (attempt.stepAttemptNumber : Int) ≤ step.maxAttempts ∧
      (1 < attempt.stepAttemptNumber → ScheduledWithin step.retryPolicy attempt)

theorem attemptsSound_empty (documents : List UUID) :
    AttemptsSound (Database.empty documents).contents where
  referenced _ member := absurd member List.not_mem_nil
  numbered _ := rfl
  allowed _ member := absurd member List.not_mem_nil
  bounded _ member := absurd member List.not_mem_nil

theorem attemptsOf_length (db : Database) (stepId : UUID) :
    (db.listAttempts stepId).length = (db.contents.attemptsOf stepId).length := by
  rw [Database.listAttempts_eq, List.length_insertionSort]
  rfl

theorem mem_attemptsOf {contents : Contents} {stepId : UUID} {attempt : StepAttemptModel} :
    attempt ∈ contents.attemptsOf stepId ↔
      attempt ∈ contents.stepAttempts ∧ attempt.stepId = stepId := by
  rw [Contents.attemptsOf, List.mem_filter, decide_eq_true_eq]

/-- A step none of whose attempts is numbered one has no attempt. -/
theorem attemptsOf_eq_nil {contents : Contents} (sound : AttemptsSound contents) {stepId : UUID}
    (unnumbered : ∀ attempt ∈ contents.stepAttempts, attempt.stepId = stepId →
      attempt.stepAttemptNumber ≠ 1) : contents.attemptsOf stepId = [] := by
  cases attempts : contents.attemptsOf stepId with
  | nil => rfl
  | cons attempt rest =>
    have numbers := sound.numbered stepId
    rw [attempts, List.map_cons, List.length_cons, List.range'_succ] at numbers
    have member : attempt ∈ contents.attemptsOf stepId := attempts ▸ List.mem_cons_self
    obtain ⟨stored, owner⟩ := mem_attemptsOf.mp member
    exact absurd (List.cons.inj numbers).1 (unnumbered attempt stored owner)

/-! ### What a write preserves -/

/-- Steps with the budgets of the steps before: each step has one and each is one of a step. -/
theorem mem_of_budgets {before after : List StepModel}
    (same : after.map StepModel.budget = before.map StepModel.budget) {step : StepModel}
    (member : step ∈ after) : ∃ old ∈ before, old.budget = step.budget :=
  List.mem_map.mp (same ▸ List.mem_map_of_mem member)

/-- A write that leaves attempts and budgets alone. -/
theorem attemptsSound_of_same {before after : Contents} (sound : AttemptsSound before)
    (attempts : after.stepAttempts = before.stepAttempts)
    (budgets : after.steps.map StepModel.budget = before.steps.map StepModel.budget) :
    AttemptsSound after := by
  have same (stepId : UUID) : after.attemptsOf stepId = before.attemptsOf stepId := by
    rw [Contents.attemptsOf, attempts, Contents.attemptsOf]
  refine ⟨fun attempt member => ?_, fun stepId => ?_, fun step member => ?_,
    fun step member attempt owned => ?_⟩
  · obtain ⟨step, stored, owner⟩ := sound.referenced attempt (attempts ▸ member)
    obtain ⟨kept, keptStored, keptBudget⟩ := mem_of_budgets budgets.symm stored
    exact ⟨kept, keptStored, (congrArg Prod.fst keptBudget).trans owner⟩
  · rw [same]
    exact sound.numbered stepId
  · obtain ⟨old, stored, budget⟩ := mem_of_budgets budgets member
    have allowed := sound.allowed old stored
    rwa [show old.maxAttempts = step.maxAttempts from congrArg (fun key => key.2.1) budget]
      at allowed
  · obtain ⟨old, stored, budget⟩ := mem_of_budgets budgets member
    rw [same] at owned
    have bounded := sound.bounded old stored attempt (by
      rwa [show old.stepId = step.stepId from congrArg Prod.fst budget])
    rwa [show old.maxAttempts = step.maxAttempts from congrArg (fun key => key.2.1) budget,
      show old.retryPolicy = step.retryPolicy from congrArg (fun key => key.2.2) budget] at bounded

theorem attemptsOf_append (contents : Contents) (attempt : StepAttemptModel) (stepId : UUID) :
    { contents with stepAttempts := contents.stepAttempts ++ [attempt] }.attemptsOf stepId =
      contents.attemptsOf stepId ++ if attempt.stepId = stepId then [attempt] else [] := by
  rw [Contents.attemptsOf, Contents.attemptsOf, List.filter_append]
  by_cases owned : attempt.stepId = stepId
  · rw [if_pos owned, List.filter_singleton, decide_eq_true owned, cond_true]
  · rw [if_neg owned, List.filter_singleton, decide_eq_false owned, cond_false]

/-- A new attempt of one step leaves the attempts of another one alone. -/
theorem attemptsOf_append_of_ne {before after : Contents} {attempt : StepAttemptModel}
    {stepId : UUID} (attempts : after.stepAttempts = before.stepAttempts ++ [attempt])
    (foreign : attempt.stepId ≠ stepId) : after.attemptsOf stepId = before.attemptsOf stepId := by
  have added := attemptsOf_append before attempt stepId
  rw [if_neg foreign, List.append_nil] at added
  rw [← added, Contents.attemptsOf, attempts, Contents.attemptsOf]

/-- A write that makes the next attempt of a step. -/
theorem attemptsSound_append {contents : Contents} (sound : AttemptsSound contents)
    (distinct : (contents.steps.map fun row => row.stepId).Nodup) {step : StepModel}
    (stored : step ∈ contents.steps) (attempt : StepAttemptModel)
    (owner : attempt.stepId = step.stepId)
    (number : attempt.stepAttemptNumber = (contents.attemptsOf step.stepId).length + 1)
    (within : attempt.origin = .system → (attempt.stepAttemptNumber : Int) ≤ step.maxAttempts ∧
      (1 < attempt.stepAttemptNumber → ScheduledWithin step.retryPolicy attempt)) :
    AttemptsSound { contents with stepAttempts := contents.stepAttempts ++ [attempt] } := by
  refine ⟨fun other member => ?_, fun stepId => ?_, sound.allowed, fun other member => ?_⟩
  · rcases List.mem_append.mp member with old | new
    · exact sound.referenced other old
    · rw [List.mem_singleton.mp new]
      exact ⟨step, stored, owner.symm⟩
  · rw [attemptsOf_append]
    by_cases owned : attempt.stepId = stepId
    · rw [if_pos owned, List.map_append, sound.numbered, List.length_append, List.map_singleton,
        List.length_singleton, List.range'_1_concat, number, ← owner, owned, Nat.add_comm]
    · rw [if_neg owned, List.append_nil]
      exact sound.numbered stepId
  · rw [attemptsOf_append]
    intro made madeMember
    rcases List.mem_append.mp madeMember with old | new
    · exact sound.bounded other member made old
    · by_cases owned : attempt.stepId = other.stepId
      · rw [if_pos owned] at new
        rw [List.mem_singleton.mp new,
          ← List.inj_on_of_nodup_map distinct stored member (owner.symm.trans owned)]
        exact within
      · rw [if_neg owned] at new
        exact absurd new List.not_mem_nil

/-- A write that adds steps no attempt refers to. -/
theorem attemptsSound_steps {contents : Contents} (sound : AttemptsSound contents)
    {rows : List StepModel} (allowed : ∀ step ∈ rows, 1 ≤ step.maxAttempts)
    (fresh : ∀ step ∈ rows, ∀ old ∈ contents.steps, old.stepId ≠ step.stepId) :
    AttemptsSound { contents with steps := contents.steps ++ rows } where
  referenced attempt member := by
    obtain ⟨step, stored, owner⟩ := sound.referenced attempt member
    exact ⟨step, List.mem_append_left _ stored, owner⟩
  numbered := sound.numbered
  allowed step member := by
    rcases List.mem_append.mp member with old | new
    · exact sound.allowed step old
    · exact allowed step new
  bounded step member attempt owned := by
    rcases List.mem_append.mp member with old | new
    · exact sound.bounded step old attempt owned
    · obtain ⟨made, owner⟩ := mem_attemptsOf.mp owned
      obtain ⟨old, stored, same⟩ := sound.referenced attempt made
      exact absurd (same.trans owner) (fresh step new old stored)

/-! ### What each call preserves -/

section Calls

variable {registry : WorkflowRegistry} {db next : Database} {draws : Draws}
  {state : WorkflowRunState} {workflowRun : WorkflowRunModel} {steps : List StepModel}
  {currentStep : StepModel} {stepResult : StepResult} {reasonCode : String} {now : Timestamp}
  {newId : UUID} {random : UnitDraw} {event : EventDraw}

theorem started_attemptsSound {new : NewRun} (started : Started db next new)
    (sound : AttemptsSound db.contents) : AttemptsSound next.contents := by
  have fresh : ∀ step ∈ new.steps, ∀ old ∈ db.contents.steps, old.stepId ≠ step.stepId := by
    intro step member old stored same
    have unknown := started.unknown step member
    rw [Bool.eq_false_iff, ne_eq, Database.hasStep_iff] at unknown
    exact unknown ⟨old, stored, same⟩
  have stepped := attemptsSound_steps sound (fun step member => (started.ranges step member).2.1)
    fresh
  have firstMember : new.first ∈ new.steps := List.mem_of_mem_head? started.first
  have stored : new.first ∈ db.contents.steps ++ new.steps := List.mem_append_right _ firstMember
  have distinct : ((db.contents.steps ++ new.steps).map fun row => row.stepId).Nodup := by
    have rows := next.steps_distinct
    rwa [started.contents] at rows
  have unattempted : db.contents.attemptsOf new.first.stepId = [] := by
    refine List.filter_eq_nil_iff.mpr fun attempt made owned => ?_
    obtain ⟨old, oldStored, same⟩ := sound.referenced attempt made
    exact fresh _ firstMember old oldStored (same.trans (of_decide_eq_true owned))
  obtain ⟨attemptId, scheduledFor, now, attempt⟩ := started.attempt
  have number : 1 = ({ db.contents with steps := db.contents.steps ++ new.steps }.attemptsOf
      new.first.stepId).length + 1 :=
    congrArg (fun attempts => attempts.length + 1) unattempted.symm
  have appended := attemptsSound_append stepped distinct stored
    (queuedAttempt attemptId new.first.stepId 1 scheduledFor now) rfl number
    fun _ => ⟨stepped.allowed _ stored, fun later => absurd later (lt_irrefl 1)⟩
  refine attemptsSound_of_same appended ?_ ?_
  · rw [started.contents, attempt]
  · rw [started.contents]

theorem budget_updateRows (selects : StepModel → Bool) (change : StepModel → StepModel)
    (keeps : ∀ row, (change row).budget = row.budget) (rows : List StepModel) :
    (updateRows selects change rows).map StepModel.budget = rows.map StepModel.budget :=
  updateRows_map selects change StepModel.budget keeps rows

/-- A success makes no attempt, or the first one of the step that follows, which had none: a
stored first attempt is a violation of the unique constraint. -/
theorem handleSucceeded_attemptsSound {workflowRunId : UUID} (sound : AttemptsSound db.contents)
    (ran : handleSucceeded registry db workflowRun (db.listSteps workflowRunId) currentStep now
      newId event = .ok (next, state)) : AttemptsSound next.contents := by
  rcases handleSucceeded_ok ran with ⟨-, -, contents⟩ | ⟨successor, found, -, admitted, contents⟩
  · rw [contents]
    exact attemptsSound_of_same sound rfl
      (budget_updateRows _ (StepModel.succeed now) (fun _ => rfl) _)
  · have stored := (nextStep_mem found).1
    have unattempted := attemptsOf_eq_nil sound admitted.numbered
    have number : 1 = (db.contents.attemptsOf successor.stepId).length + 1 :=
      congrArg (fun attempts => attempts.length + 1) unattempted.symm
    have appended := attemptsSound_append sound db.steps_distinct stored
      (queuedAttempt newId successor.stepId 1 none now) rfl number
      fun _ => ⟨sound.allowed _ stored, fun later => absurd later (lt_irrefl 1)⟩
    rw [contents]
    exact attemptsSound_of_same appended rfl
      (budget_updateRows _ (StepModel.succeed now) (fun _ => rfl) _)

theorem createEscalation_attemptsSound (sound : AttemptsSound db.contents)
    (ran : createEscalation db workflowRun currentStep stepResult reasonCode now newId event =
      .ok (next, state)) : AttemptsSound next.contents := by
  obtain ⟨-, -, contents⟩ := createEscalation_ok ran
  rw [contents]
  exact attemptsSound_of_same sound rfl rfl

theorem handleFailedTerminal_attemptsSound (sound : AttemptsSound db.contents)
    (ran : handleFailedTerminal db workflowRun currentStep stepResult now newId event =
      .ok (next, state)) : AttemptsSound next.contents := by
  rcases handleFailedTerminal_ok ran with ⟨-, created⟩ | ⟨-, -, contents⟩
  · refine createEscalation_attemptsSound ?_ created
    rw [Database.contents_updateStep]
    exact attemptsSound_of_same sound rfl
      (budget_updateRows _ (StepModel.failTerminal now) (fun _ => rfl) _)
  · rw [contents]
    exact attemptsSound_of_same sound rfl
      (budget_updateRows _ (StepModel.failTerminal now) (fun _ => rfl) _)

/-- The delay drawn for a retry stays within the backoff of the attempt before. -/
theorem queuedAttempt_scheduledWithin (policy : RetryPolicy) (stepId : UUID) (count : Nat) :
    ScheduledWithin policy (queuedAttempt newId stepId (count + 1)
      (some (now + computeBackoffDelay policy count random)) now) := by
  intro base cap
  obtain ⟨nonnegative, bounded⟩ := computeBackoffDelay_mem policy count random base cap
  refine ⟨_, rfl, le_add_of_nonneg_right nonnegative, add_le_add_right (bounded.trans_eq ?_) now⟩
  have exponent : ((count + 1 : Nat) : Int) - 2 = (count : Int) - 1 := by
    push_cast
    ring
  rw [show (queuedAttempt newId stepId (count + 1) _ now).stepAttemptNumber = count + 1 from rfl,
    exponent]
  rfl

/-- A retry is one more attempt while the count is below the budget. -/
theorem handleFailedRetryable_attemptsSound (sound : AttemptsSound db.contents)
    (stored : currentStep ∈ db.contents.steps)
    (ran : handleFailedRetryable registry db workflowRun currentStep stepResult now newId random
      event = .ok (next, state)) : AttemptsSound next.contents := by
  rcases handleFailedRetryable_ok ran with ⟨budget, -, -, contents⟩ | ⟨-, failed⟩
  · have appended := attemptsSound_append sound db.steps_distinct stored
      (queuedAttempt newId currentStep.stepId ((db.listAttempts currentStep.stepId).length + 1)
        (some (now + computeBackoffDelay currentStep.retryPolicy
          (db.listAttempts currentStep.stepId).length random)) now)
      rfl (congrArg (fun count => count + 1) (attemptsOf_length db currentStep.stepId))
      fun _ => ⟨by exact_mod_cast budget, fun _ => queuedAttempt_scheduledWithin _ _ _⟩
    rw [contents]
    exact attemptsSound_of_same appended rfl
      (budget_updateRows _ StepModel.failRetryable (fun _ => rfl) _)
  · exact handleFailedTerminal_attemptsSound sound failed

theorem advanceWorkflow_attemptsSound {workflowRunId : UUID} {completedStepName : String}
    (sound : AttemptsSound db.contents)
    (ran : advanceWorkflow registry db draws workflowRunId completedStepName stepResult =
      .ok (next, state)) : AttemptsSound next.contents := by
  obtain ⟨workflowRun, currentStep, found, named, handled⟩ := advanceWorkflow_ok ran
  cases status : stepResult.status with
  | succeeded =>
    rw [status] at handled
    exact handleSucceeded_attemptsSound sound handled
  | failedRetryable =>
    rw [status] at handled
    exact handleFailedRetryable_attemptsSound sound (List.mem_of_find?_eq_some named) handled
  | failedTerminal =>
    rw [status] at handled
    exact handleFailedTerminal_attemptsSound sound handled
  | escalate =>
    rw [status] at handled
    exact createEscalation_attemptsSound sound handled

/-- The synthetic attempt of a human resolution is numbered after the stored ones. -/
theorem humanAttempt_attemptsSound {resumed : Database} (sound : AttemptsSound db.contents)
    (stored : currentStep ∈ db.contents.steps)
    (attempts : resumed.contents.stepAttempts = db.contents.stepAttempts ++ [humanAttempt newId
      currentStep.stepId ((db.listAttempts currentStep.stepId).length + 1) now])
    (budgets : resumed.contents.steps.map StepModel.budget =
      db.contents.steps.map StepModel.budget) : AttemptsSound resumed.contents := by
  have appended := attemptsSound_append sound db.steps_distinct stored
    (humanAttempt newId currentStep.stepId ((db.listAttempts currentStep.stepId).length + 1) now)
    rfl (congrArg (fun count => count + 1) (attemptsOf_length db currentStep.stepId))
    fun system => by cases system
  exact attemptsSound_of_same appended attempts budgets

theorem resumeAfterEscalation_attemptsSound {escalationId : UUID} {resolutionPayload : JsonObject}
    {actor : String} (sound : AttemptsSound db.contents)
    (ran : resumeAfterEscalation registry db draws escalationId resolutionPayload actor =
      .ok (next, state)) : AttemptsSound next.contents := by
  obtain ⟨escalation, currentStep, workflowRun, -, foundStep, -, -, resumed, contents, handled⟩ :=
    resumeAfterEscalation_ok ran
  refine handleSucceeded_attemptsSound ?_ handled
  refine humanAttempt_attemptsSound sound (List.mem_of_find?_eq_some foundStep)
    (congrArg Contents.stepAttempts contents) ?_
  rw [contents]
  exact budget_updateRows _ (StepModel.succeed (draws.now 0)) (fun _ => rfl) _

/-- One call keeps the attempts sound; a call that raises leaves them as they were. -/
theorem OrchestratorCall.step_attemptsSound (registry : WorkflowRegistry) (db : Database)
    (call : OrchestratorCall × Draws) (sound : AttemptsSound db.contents) :
    AttemptsSound (OrchestratorCall.step registry db call).contents := by
  refine commit_induction (fun reached => AttemptsSound reached.contents) sound fun next ran => ?_
  obtain ⟨call, draws⟩ := call
  cases call with
  | startWorkflowRun workflowName workflowVersion documentIds actor correlationId deadline =>
    obtain ⟨_, ran⟩ := OrchestratorCall.perform_start ran
    obtain ⟨new, started, -⟩ := startWorkflowRun_ok ran
    exact started_attemptsSound started sound
  | advanceWorkflow workflowRunId completedStepName stepResult =>
    obtain ⟨_, ran⟩ := OrchestratorCall.perform_advance ran
    exact advanceWorkflow_attemptsSound sound ran
  | resumeAfterEscalation escalationId resolutionPayload actor =>
    obtain ⟨_, ran⟩ := OrchestratorCall.perform_resume ran
    exact resumeAfterEscalation_attemptsSound sound ran
  | cancelWorkflow workflowRunId actor reason =>
    obtain ⟨_, -, -, contents⟩ := cancelWorkflow_ok ran
    rw [contents]
    exact attemptsSound_of_same sound rfl rfl

end Calls

/-! ### Every committed state -/

/-- The scheduled attempts of a step carry different numbers between one and the budget, so there
are at most as many as the budget. -/
theorem attemptsSound_budget {contents : Contents} (sound : AttemptsSound contents)
    {step : StepModel} (stored : step ∈ contents.steps) :
    (((contents.attemptsOf step.stepId).filter fun row => row.origin = .system).length : Int) ≤
      step.maxAttempts := by
  have numbers := sound.numbered step.stepId
  have distinct : (((contents.attemptsOf step.stepId).filter fun row => row.origin = .system).map
      fun row => row.stepAttemptNumber).Nodup :=
    (List.Sublist.map _ List.filter_sublist).nodup (numbers ▸ List.nodup_range')
  have within : ((contents.attemptsOf step.stepId).filter fun row => row.origin = .system).map
      (fun row => row.stepAttemptNumber) ⊆ List.range' 1 step.maxAttempts.toNat := by
    intro number member
    obtain ⟨attempt, made, rfl⟩ := List.mem_map.mp member
    obtain ⟨owned, system⟩ := List.mem_filter.mp made
    have bounded := (sound.bounded step stored attempt owned (of_decide_eq_true system)).1
    have numbered : attempt.stepAttemptNumber ∈
        List.range' 1 (contents.attemptsOf step.stepId).length :=
      numbers ▸ List.mem_map_of_mem owned
    rw [List.mem_range'_1] at numbered ⊢
    omega
  have count := (distinct.subperm within).length_le
  rw [List.length_map, List.length_range'] at count
  have allowed := sound.allowed step stored
  omega

/-- In every state committed by a sequence of orchestrator calls the attempts of each step are
numbered from one on, at most `max_attempts` of them were scheduled by the orchestrator, and each
retry is scheduled within the backoff of the policy stored on the step. A number is counted from the
stored attempts and a retry is scheduled only below the budget, so each call keeps both. -/
theorem retry_budget (registry : WorkflowRegistry) (documents : List UUID)
    (calls : List (OrchestratorCall × Draws)) (step : StepModel)
    (stored : step ∈ (Transition.run (OrchestratorCall.step registry) (.empty documents)
      calls).contents.steps) :
    let attempts := (Transition.run (OrchestratorCall.step registry) (.empty documents)
      calls).contents.attemptsOf step.stepId
    attempts.map (fun row => row.stepAttemptNumber) = List.range' 1 attempts.length ∧
    ((attempts.filter fun row => row.origin = .system).length : Int) ≤ step.maxAttempts ∧
    ∀ attempt ∈ attempts, attempt.origin = .system → 1 < attempt.stepAttemptNumber →
      ScheduledWithin step.retryPolicy attempt := by
  have sound := Transition.run_invariant_always (OrchestratorCall.step registry)
    (fun db => AttemptsSound db.contents)
    (OrchestratorCall.step_attemptsSound registry) (.empty documents)
    (attemptsSound_empty documents) calls
  exact ⟨sound.numbered step.stepId, attemptsSound_budget sound stored,
    fun attempt owned system => (sound.bounded step stored attempt owned system).2⟩

/-- A run of the registered workflow whose second step fails once and is retried. -/
def retriedCalls : List (OrchestratorCall × Draws) := [
  (.startWorkflowRun "claim_intake" "v1" [] "api" "c" none, numberedDraws 1),
  (.advanceWorkflow 100 "ingest" { status := .succeeded }, numberedDraws 2),
  (.advanceWorkflow 100 "extract" { status := .failedRetryable }, numberedDraws 3)]

theorem retry_budget_extract :
    let reached := Transition.run (OrchestratorCall.step [claimIntakeV1]) (.empty []) retriedCalls
    ∃ step ∈ reached.contents.steps, step.stepName = "extract" ∧
      (reached.contents.attemptsOf step.stepId).length = 2 ∧
      (reached.contents.attemptsOf step.stepId).map (fun row => row.stepAttemptNumber) = [1, 2] ∧
      ∀ attempt ∈ reached.contents.attemptsOf step.stepId, attempt.origin = .system →
        1 < attempt.stepAttemptNumber → ScheduledWithin step.retryPolicy attempt := by
  intro reached
  have lookup : (reached.getStepByRunAndName 100 "extract").map (fun step =>
      (step.stepName, (reached.contents.attemptsOf step.stepId).length)) =
        some ("extract", 2) := by
    decide +kernel
  obtain ⟨step, found, same⟩ := Option.map_eq_some_iff.mp lookup
  obtain ⟨name, count⟩ := Prod.mk.inj same
  have stored : step ∈ reached.contents.steps := List.mem_of_find?_eq_some found
  obtain ⟨numbers, -, backoff⟩ := retry_budget [claimIntakeV1] [] retriedCalls step stored
  exact ⟨step, stored, name, count, by rw [numbers, count]; rfl, backoff⟩

end InsuranceOps
