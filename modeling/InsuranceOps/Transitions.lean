/-
This file compares the stored states with the state machines of the domain
layer. `transition_to` checks its target against a table and counts a run's
version up; nothing that writes a row calls it. Every write of a run or a case
is nevertheless what some calls of it would leave, but for three: a step result
for a run that is not running, a resolution by the orchestrator out of turn, and
a rejection that fails a waiting run. A resolution by the route asks for a
claimed case and moves a run only if it waits, so it never leaves the tables.
-/

import InsuranceOps.AbsorbingStates
import InsuranceOps.HumanOutputs
import InsuranceOps.Records

namespace InsuranceOps

open Relational WorkflowOrchestrator

/-! ### The machines of the domain layer -/

/-- `VALID_TRANSITIONS` of a run. -/
def WorkflowRunState.validTransitions : WorkflowRunState → List WorkflowRunState
  | .pending => [.running]
  | .running => [.awaitingHuman, .completed, .failed, .cancelled]
  | .awaitingHuman => [.running, .cancelled]
  | .completed | .failed | .cancelled => []

/-- `VALID_TRANSITIONS` of an escalation case. -/
def EscalationState.validTransitions : EscalationState → List EscalationState
  | .opened => [.claimed, .expired]
  | .claimed => [.resolved, .rejected, .expired]
  | .resolved | .rejected | .expired => []

/-- The text of the `ValueError` for an invalid transition; the targets are listed sorted. -/
def invalidTransition (kind current target : String) (allowed : List String) : String :=
  s!"Invalid {kind} state transition: {current} -> {target}. " ++
    s!"Allowed targets from {current}: " ++
    if allowed = [] then "none (terminal state)"
    else "[" ++ ", ".intercalate
      ((allowed.insertionSort (· ≤ ·)).map fun value => "'" ++ value ++ "'") ++ "]"

/-- Validate a state transition of a run. -/
def WorkflowRunState.validateTransition (current target : WorkflowRunState) :
    Except String Unit :=
  if target ∈ current.validTransitions then .ok ()
  else .error (invalidTransition "WorkflowRun" current.value target.value
    (current.validTransitions.map WorkflowRunState.value))

/-- Validate a state transition of a case. -/
def EscalationState.validateTransition (current target : EscalationState) : Except String Unit :=
  if target ∈ current.validTransitions then .ok ()
  else .error (invalidTransition "EscalationCase" current.value target.value
    (current.validTransitions.map EscalationState.value))

/-- A run of the domain layer, with the fields its transitions touch. -/
structure WorkflowRun where
  workflowRunId : UUID
  state : WorkflowRunState
  version : Nat
  deriving DecidableEq

/-- Transition the run to a new state. -/
def WorkflowRun.transitionTo (run : WorkflowRun) (target : WorkflowRunState) :
    Except String WorkflowRun := do
  run.state.validateTransition target
  return { run with state := target, version := run.version + 1 }

/-- A case of the domain layer, with the field its transitions touch. -/
structure EscalationCase where
  escalationId : UUID
  state : EscalationState
  deriving DecidableEq

/-- Transition the case to a new state. -/
def EscalationCase.transitionTo (escalation : EscalationCase) (target : EscalationState) :
    Except String EscalationCase := do
  escalation.state.validateTransition target
  return { escalation with state := target }

example : WorkflowRun.transitionTo ⟨1, .awaitingHuman, 2⟩ .failed =
    .error ("Invalid WorkflowRun state transition: awaiting_human -> failed. " ++
      "Allowed targets from awaiting_human: ['cancelled', 'running']") := by
  decide

theorem WorkflowRun.transitionTo_ok {run later : WorkflowRun} {target : WorkflowRunState} :
    run.transitionTo target = .ok later ↔ target ∈ run.state.validTransitions ∧
      later = { run with state := target, version := run.version + 1 } := by
  unfold transitionTo WorkflowRunState.validateTransition
  constructor
  · intro moved
    by_cases valid : target ∈ run.state.validTransitions
    · rw [if_pos valid] at moved
      exact ⟨valid, (Except.ok.inj moved).symm⟩
    · rw [if_neg valid] at moved
      cases moved
  · rintro ⟨valid, rfl⟩
    rw [if_pos valid]
    rfl

theorem EscalationCase.transitionTo_ok {escalation later : EscalationCase}
    {target : EscalationState} :
    escalation.transitionTo target = .ok later ↔
      target ∈ escalation.state.validTransitions ∧
        later = { escalation with state := target } := by
  unfold transitionTo EscalationState.validateTransition
  constructor
  · intro moved
    by_cases valid : target ∈ escalation.state.validTransitions
    · rw [if_pos valid] at moved
      exact ⟨valid, (Except.ok.inj moved).symm⟩
    · rw [if_neg valid] at moved
      cases moved
  · rintro ⟨valid, rfl⟩
    rw [if_pos valid]
    rfl

/-! ### Rows as domain objects -/

/-- The domain object of a stored run. -/
def WorkflowRunModel.domain (row : WorkflowRunModel) : WorkflowRun :=
  ⟨row.workflowRunId, row.state, row.version⟩

/-- The domain object of a stored case. -/
def EscalationCaseModel.domain (row : EscalationCaseModel) : EscalationCase :=
  ⟨row.escalationId, row.state⟩

/-- The later row is what some transitions make of the old one. -/
def WorkflowRunModel.Transitions (old row : WorkflowRunModel) : Prop :=
  ∃ targets : List WorkflowRunState,
    targets.foldlM WorkflowRun.transitionTo old.domain = .ok row.domain

/-- The later row is what at most one transition makes of the old one. -/
def EscalationCaseModel.Transitions (old row : EscalationCaseModel) : Prop :=
  row.domain = old.domain ∨ old.domain.transitionTo row.state = .ok row.domain

theorem WorkflowRunModel.transitions_refl (row : WorkflowRunModel) : row.Transitions row :=
  ⟨[], rfl⟩

theorem EscalationCaseModel.transitions_refl (row : EscalationCaseModel) : row.Transitions row :=
  .inl rfl

theorem WorkflowRunModel.Transitions.trans {old between row : WorkflowRunModel}
    (first : old.Transitions between) (second : between.Transitions row) : old.Transitions row := by
  obtain ⟨early, moved⟩ := first
  obtain ⟨late, movedLate⟩ := second
  exact ⟨early ++ late, by rw [List.foldlM_append, moved]; exact movedLate⟩

/-- Transitions keep the identifier and count the version up one by one. -/
theorem WorkflowRun.foldlM_transitionTo {run later : WorkflowRun}
    {targets : List WorkflowRunState} (moved : targets.foldlM transitionTo run = .ok later) :
    later.workflowRunId = run.workflowRunId ∧ later.version = run.version + targets.length := by
  induction targets generalizing run with
  | nil =>
    cases moved
    exact ⟨rfl, rfl⟩
  | cons target rest inductionHypothesis =>
    obtain ⟨next, first, moved⟩ := Fallible.bind_eq_ok.mp moved
    obtain ⟨same, version⟩ := inductionHypothesis moved
    obtain ⟨-, rfl⟩ := transitionTo_ok.mp first
    exact ⟨same, version.trans (by rw [List.length_cons, Nat.add_assoc, Nat.add_comm 1])⟩

theorem WorkflowRunModel.Transitions.same {old row : WorkflowRunModel}
    (moved : old.Transitions row) : row.workflowRunId = old.workflowRunId := by
  obtain ⟨targets, moved⟩ := moved
  exact (WorkflowRun.foldlM_transitionTo moved).1

theorem EscalationCaseModel.Transitions.same {old row : EscalationCaseModel}
    (moved : old.Transitions row) : row.escalationId = old.escalationId := by
  rcases moved with same | moved
  · exact congrArg EscalationCase.escalationId same
  · exact congrArg EscalationCase.escalationId (EscalationCase.transitionTo_ok.mp moved).2

/-- A run that keeps its state and version made no transition. -/
theorem WorkflowRunModel.transitions_of_domain {old row : WorkflowRunModel}
    (same : row.domain = old.domain) : old.Transitions row :=
  ⟨[], by rw [same]; rfl⟩

/-- A run whose version went up by one made one transition. -/
theorem WorkflowRunModel.transitions_one {old row : WorkflowRunModel}
    (same : row.workflowRunId = old.workflowRunId) (version : row.version = old.version + 1) :
    old.Transitions row ↔ row.state ∈ old.state.validTransitions := by
  constructor
  · rintro ⟨targets, moved⟩
    obtain ⟨-, counted⟩ := WorkflowRun.foldlM_transitionTo moved
    have single : targets.length = 1 := Nat.add_left_cancel (counted.symm.trans version)
    obtain ⟨target, rfl⟩ := List.length_eq_one_iff.mp single
    obtain ⟨later, moved, done⟩ := Fallible.bind_eq_ok.mp moved
    obtain rfl := Except.ok.inj done
    obtain ⟨valid, reached⟩ := WorkflowRun.transitionTo_ok.mp moved
    have state : row.state = target := congrArg WorkflowRun.state reached
    rw [state]
    exact valid
  · intro valid
    refine ⟨[row.state], ?_⟩
    refine Fallible.bind_eq_ok.mpr ⟨row.domain, WorkflowRun.transitionTo_ok.mpr ⟨valid, ?_⟩, rfl⟩
    unfold domain
    rw [same, version]

/-- A run whose version went up by two made two transitions. -/
theorem WorkflowRunModel.transitions_two {old row : WorkflowRunModel}
    (version : row.version = old.version + 2) (moved : old.Transitions row) :
    ∃ between ∈ old.state.validTransitions, row.state ∈ between.validTransitions := by
  obtain ⟨targets, moved⟩ := moved
  obtain ⟨-, counted⟩ := WorkflowRun.foldlM_transitionTo moved
  have pair : targets.length = 2 := Nat.add_left_cancel (counted.symm.trans version)
  obtain ⟨first, second, rfl⟩ := List.length_eq_two.mp pair
  obtain ⟨middle, moved, last⟩ := Fallible.bind_eq_ok.mp moved
  obtain ⟨valid, rfl⟩ := WorkflowRun.transitionTo_ok.mp moved
  obtain ⟨later, moved, done⟩ := Fallible.bind_eq_ok.mp last
  obtain rfl := Except.ok.inj done
  obtain ⟨validNext, reached⟩ := WorkflowRun.transitionTo_ok.mp moved
  have state : row.state = second := congrArg WorkflowRun.state reached
  exact ⟨first, valid, by rw [state]; exact validNext⟩

/-- A case that is set to a state stayed in it or made a transition to it. -/
theorem EscalationCaseModel.transitions_iff {old row : EscalationCaseModel}
    (same : row.escalationId = old.escalationId) :
    old.Transitions row ↔ row.state = old.state ∨ row.state ∈ old.state.validTransitions := by
  unfold Transitions
  rw [EscalationCase.transitionTo_ok]
  unfold domain
  rw [same, EscalationCase.mk.injEq]
  exact or_congr ⟨And.right, fun state => ⟨rfl, state⟩⟩ ⟨And.left, fun valid => ⟨valid, rfl⟩⟩

/-! ### Databases -/

/-- A run as `transition_to` leaves a new one that starts. -/
def WorkflowRunModel.Begins (row : WorkflowRunModel) : Prop :=
  WorkflowRun.transitionTo ⟨row.workflowRunId, .pending, 0⟩ .running = .ok row.domain

/-- A case as it is opened. -/
def EscalationCaseModel.Begins (row : EscalationCaseModel) : Prop :=
  row.state = .opened

/-- The stored runs and cases went through transitions of the domain layer, and the new ones are as
they begin there. -/
structure FollowsDomain (before after : Contents) : Prop where
  runs : EvolvesWith WorkflowRunModel.Transitions WorkflowRunModel.Begins before.workflowRuns
    after.workflowRuns
  cases : EvolvesWith EscalationCaseModel.Transitions EscalationCaseModel.Begins
    before.escalationCases after.escalationCases

theorem FollowsDomain.of_same {before after : Contents}
    (runs : after.workflowRuns = before.workflowRuns)
    (cases : after.escalationCases = before.escalationCases) : FollowsDomain before after where
  runs := by
    rw [runs]
    exact evolvesWith_refl WorkflowRunModel.transitions_refl _
  cases := by
    rw [cases]
    exact evolvesWith_refl EscalationCaseModel.transitions_refl _

section Operations

variable {registry : WorkflowRegistry} {db next : Database} {draws : Draws}
  {run : WorkflowRunModel} {escalation : EscalationCaseModel}

/-- A change of one run is made of transitions exactly when its change of that run is. -/
theorem runs_follow_iff {workflowRunId : UUID} (change : WorkflowRunModel → WorkflowRunModel)
    (keeps : ∀ row, (change row).workflowRunId = row.workflowRunId)
    (found : db.getWorkflowRun workflowRunId = some run) :
    EvolvesWith WorkflowRunModel.Transitions WorkflowRunModel.Begins db.contents.workflowRuns
      (updateRows (fun row => row.workflowRunId = workflowRunId) change
        db.contents.workflowRuns) ↔ run.Transitions (change run) :=
  evolvesWith_update_iff (fun row : WorkflowRunModel => row.workflowRunId)
    WorkflowRunModel.transitions_refl (fun _ _ moved => moved.same) keeps
    db.workflowRuns_distinct found

/-- A change of one case is a transition exactly when its change of that case is. -/
theorem cases_follow_iff {escalationId : UUID}
    (change : EscalationCaseModel → EscalationCaseModel)
    (keeps : ∀ row, (change row).escalationId = row.escalationId)
    (found : db.getEscalationCase escalationId = some escalation) :
    EvolvesWith EscalationCaseModel.Transitions EscalationCaseModel.Begins
      db.contents.escalationCases (updateRows (fun row => row.escalationId = escalationId) change
        db.contents.escalationCases) ↔ escalation.Transitions (change escalation) :=
  evolvesWith_update_iff (fun row : EscalationCaseModel => row.escalationId)
    EscalationCaseModel.transitions_refl (fun _ _ moved => moved.same) keeps
    db.escalationCases_distinct found

/-- A case is set to a state that a transition leads to. -/
theorem cases_follow_of_valid {escalationId : UUID} {target : EscalationState}
    (change : EscalationCaseModel → EscalationCaseModel)
    (keeps : ∀ row, (change row).escalationId = row.escalationId)
    (sets : ∀ row, (change row).state = target)
    (found : db.getEscalationCase escalationId = some escalation)
    (valid : target ∈ escalation.state.validTransitions) :
    EvolvesWith EscalationCaseModel.Transitions EscalationCaseModel.Begins
      db.contents.escalationCases (updateRows (fun row => row.escalationId = escalationId) change
        db.contents.escalationCases) := by
  refine (cases_follow_iff change keeps found).mpr
    ((EscalationCaseModel.transitions_iff (keeps escalation)).mpr (.inr ?_))
  rw [sets]
  exact valid

/-! ### Step results -/

/-- What a step result does to the run it is about: nothing that a transition touches, or one move
to a state that a running run can go to. Cases are only opened. -/
structure Results (db next : Database) (workflowRunId : UUID)
    (change : WorkflowRunModel → WorkflowRunModel) : Prop where
  keeps : ∀ row, (change row).workflowRunId = row.workflowRunId
  runs : next.contents.workflowRuns =
    updateRows (fun row => row.workflowRunId = workflowRunId) change db.contents.workflowRuns
  cases : EvolvesWith EscalationCaseModel.Transitions EscalationCaseModel.Begins
    db.contents.escalationCases next.contents.escalationCases
  moves : (∀ row, (change row).domain = row.domain) ∨ ∀ row,
    (change row).version = row.version + 1 ∧
      ((change row).state = .completed ∨ (change row).state = .failed ∨
        (change row).state = .awaitingHuman)

section Outcomes

variable {state : WorkflowRunState} {steps : List StepModel} {currentStep : StepModel}
  {stepResult : StepResult} {reasonCode : String} {now : Timestamp} {newId : UUID}
  {random : UnitDraw} {event : EventDraw}

theorem handleSucceeded_results
    (ran : handleSucceeded registry db run steps currentStep now newId event =
      .ok (next, state)) : ∃ change, Results db next run.workflowRunId change := by
  rcases handleSucceeded_ok ran with ⟨-, -, contents⟩ | ⟨successor, -, -, -, contents⟩
  · refine ⟨WorkflowRunModel.complete now, fun _ => rfl, by rw [contents], ?_,
      .inr fun _ => ⟨rfl, .inl rfl⟩⟩
    rw [contents]
    exact evolvesWith_refl EscalationCaseModel.transitions_refl _
  · refine ⟨WorkflowRunModel.moveTo successor.stepId now, fun _ => rfl, by rw [contents], ?_,
      .inl fun _ => rfl⟩
    rw [contents]
    exact evolvesWith_refl EscalationCaseModel.transitions_refl _

theorem createEscalation_results
    (ran : createEscalation db run currentStep stepResult reasonCode now newId event =
      .ok (next, state)) : ∃ change, Results db next run.workflowRunId change := by
  obtain ⟨-, -, contents⟩ := createEscalation_ok ran
  refine ⟨WorkflowRunModel.awaitHuman stepResult now, fun _ => rfl, by rw [contents], ?_,
    .inr fun _ => ⟨rfl, .inr (.inr rfl)⟩⟩
  rw [contents]
  refine evolvesWith_append EscalationCaseModel.transitions_refl _ fun row new => ?_
  rw [List.mem_singleton.mp new]
  rfl

theorem handleFailedTerminal_results
    (ran : handleFailedTerminal db run currentStep stepResult now newId event =
      .ok (next, state)) : ∃ change, Results db next run.workflowRunId change := by
  rcases handleFailedTerminal_ok ran with ⟨-, created⟩ | ⟨-, -, contents⟩
  · obtain ⟨change, results⟩ := createEscalation_results created
    exact ⟨change, results.keeps, results.runs, results.cases, results.moves⟩
  · refine ⟨WorkflowRunModel.fail stepResult now, fun _ => rfl, by rw [contents], ?_,
      .inr fun _ => ⟨rfl, .inr (.inl rfl)⟩⟩
    rw [contents]
    exact evolvesWith_refl EscalationCaseModel.transitions_refl _

theorem handleFailedRetryable_results
    (ran : handleFailedRetryable registry db run currentStep stepResult now newId random event =
      .ok (next, state)) : ∃ change, Results db next run.workflowRunId change := by
  rcases handleFailedRetryable_ok ran with ⟨-, -, -, contents⟩ | ⟨-, handled⟩
  · refine ⟨id, fun _ => rfl, by rw [contents, updateRows_id], ?_, .inl fun _ => rfl⟩
    rw [contents]
    exact evolvesWith_refl EscalationCaseModel.transitions_refl _
  · exact handleFailedTerminal_results handled

end Outcomes

theorem advanceWorkflow_results {workflowRunId : UUID} {completedStepName : String}
    {stepResult : StepResult} {state : WorkflowRunState}
    (ran : advanceWorkflow registry db draws workflowRunId completedStepName stepResult =
      .ok (next, state)) : ∃ change, Results db next workflowRunId change := by
  obtain ⟨run, currentStep, found, -, handled⟩ := advanceWorkflow_ok ran
  obtain rfl := Database.getWorkflowRun_identified found
  cases status : stepResult.status with
  | succeeded =>
    rw [status] at handled
    exact handleSucceeded_results handled
  | failedRetryable =>
    rw [status] at handled
    exact handleFailedRetryable_results handled
  | failedTerminal =>
    rw [status] at handled
    exact handleFailedTerminal_results handled
  | escalate =>
    rw [status] at handled
    exact createEscalation_results handled

/-! ### Writes the tables do not allow -/

/-- Whether a call writes what no transition leads to: a step result that moves a run that is not
running, or the resolution of a case that is neither claimed nor resolved or of a run that neither
waits nor is pending. -/
def OrchestratorCall.leavesTable (db : Database) : OrchestratorCall → Bool
  | .advanceWorkflow workflowRunId completedStepName stepResult =>
    (db.getWorkflowRun workflowRunId).any fun run => run.state != .running &&
      (db.getStepByRunAndName workflowRunId completedStepName).any fun step =>
        writesRun db workflowRunId step stepResult
  | .resumeAfterEscalation escalationId _ _ =>
    (db.getEscalationCase escalationId).any fun escalation =>
      (escalation.state != .claimed && escalation.state != .resolved) ||
        (db.getWorkflowRun escalation.workflowRunId).any fun run =>
          run.state != .pending && run.state != .awaitingHuman
  | .startWorkflowRun _ _ _ _ _ _ | .cancelWorkflow _ _ _ => false

/-- Whether a request writes what no transition leads to: a rejection that fails a waiting run. -/
def RouteRequest.leavesTable (db : Database) : RouteRequest → Bool
  | .rejectEscalation escalationId _ =>
    (db.getEscalationCase escalationId).any fun escalation =>
      (db.getWorkflowRun escalation.workflowRunId).any fun run => run.state = .awaitingHuman
  | _ => false

theorem running_mem_validTransitions (state : WorkflowRunState) :
    .running ∈ state.validTransitions ↔ state = .pending ∨ state = .awaitingHuman := by
  cases state <;> decide

theorem resolved_of_validTransitions (state : EscalationState) :
    (.resolved = state ∨ .resolved ∈ state.validTransitions) ↔
      state = .claimed ∨ state = .resolved := by
  cases state <;> decide

/-- Only a running run can be moved on by a step result. -/
theorem result_mem_validTransitions {target : WorkflowRunState}
    (result : target = .completed ∨ target = .failed ∨ target = .awaitingHuman)
    (state : WorkflowRunState) : target ∈ state.validTransitions ↔ state = .running := by
  rcases result with rfl | rfl | rfl <;> cases state <;> decide

theorem followsDomain_started {new : NewRun} (started : Started db next new)
    (described : new.Described registry) : FollowsDomain db.contents next.contents := by
  rw [started.contents]
  refine ⟨evolvesWith_append WorkflowRunModel.transitions_refl _ fun row member => ?_,
    evolvesWith_refl EscalationCaseModel.transitions_refl _⟩
  rw [List.mem_singleton.mp member]
  unfold WorkflowRunModel.Begins
  rw [WorkflowRun.transitionTo_ok]
  refine ⟨List.mem_singleton_self _, ?_⟩
  unfold WorkflowRunModel.domain
  rw [started.running, described.version]

/-- A run that can be cancelled makes a transition when it is. -/
theorem followsDomain_cancelled {workflowRunId : UUID} {call : AppendCall} {draw : EventDraw}
    {now : Timestamp} (found : db.getWorkflowRun workflowRunId = some run)
    (can : cancellable run.state = true)
    (contents : next.contents = { db.contents with
      workflowRuns := updateRows (fun row => row.workflowRunId = workflowRunId)
        (WorkflowRunModel.cancel now) db.contents.workflowRuns
      auditEvents := appendAuditEvent db.contents.auditEvents call draw }) :
    FollowsDomain db.contents next.contents := by
  rw [contents]
  refine ⟨(runs_follow_iff (WorkflowRunModel.cancel now) (fun _ => rfl) found).mpr ?_,
    evolvesWith_refl EscalationCaseModel.transitions_refl _⟩
  have moves : run.Transitions (run.cancel now) ↔ .cancelled ∈ run.state.validTransitions :=
    WorkflowRunModel.transitions_one rfl rfl
  refine moves.mpr ?_
  cases state : run.state <;> rw [state] at can <;> first | decide | cases can

theorem advanceWorkflow_follows_iff {workflowRunId : UUID} {completedStepName : String}
    {stepResult : StepResult} {state : WorkflowRunState}
    (ran : advanceWorkflow registry db draws workflowRunId completedStepName stepResult =
      .ok (next, state)) :
    FollowsDomain db.contents next.contents ↔
      (OrchestratorCall.advanceWorkflow workflowRunId completedStepName stepResult).leavesTable
        db = false := by
  obtain ⟨run, currentStep, found, named, changes⟩ := advanceWorkflow_changesRun ran
  obtain ⟨change, results⟩ := advanceWorkflow_results ran
  obtain ⟨later, lookup, writes⟩ := changesRun_getWorkflowRun changes found
  rw [Database.getWorkflowRun_updated change results.runs results.keeps found,
    Option.some.injEq] at lookup
  rw [← lookup] at writes
  have follows : FollowsDomain db.contents next.contents ↔ run.Transitions (change run) := by
    refine ⟨fun followed => ?_, fun moves => ⟨?_, results.cases⟩⟩
    · exact (runs_follow_iff change results.keeps found).mp (results.runs ▸ followed.runs)
    · rw [results.runs]
      exact (runs_follow_iff change results.keeps found).mpr moves
  rw [follows, OrchestratorCall.leavesTable, found, Option.any_some, named, Option.any_some]
  rcases results.moves with still | moves
  · have idle : writesRun db workflowRunId currentStep stepResult = false := by
      refine Bool.eq_false_iff.mpr fun wrote => ?_
      rw [if_pos wrote] at writes
      exact absurd (congrArg WorkflowRun.version (still run)) writes.ne'
    rw [idle, Bool.and_false]
    exact ⟨fun _ => rfl, fun _ => WorkflowRunModel.transitions_of_domain (still run)⟩
  · obtain ⟨version, target⟩ := moves run
    have wrote : writesRun db workflowRunId currentStep stepResult = true := by
      refine Bool.eq_true_of_not_eq_false fun idle => ?_
      rw [idle, if_neg Bool.false_ne_true] at writes
      exact absurd (version.symm.trans writes.2) (Nat.succ_ne_self _)
    rw [wrote, Bool.and_true, WorkflowRunModel.transitions_one (results.keeps run) version,
      result_mem_validTransitions target, bne_eq_false_iff_eq]

/-- A resolution is made of transitions exactly when the case was claimed and the run waited for it,
or had not begun, or the case was resolved already. -/
theorem resumed_follows_iff {escalationId : UUID} {resolutionPayload : JsonObject} {actor : String}
    {now : Timestamp} (change : WorkflowRunModel → WorkflowRunModel)
    (foundCase : db.getEscalationCase escalationId = some escalation)
    (found : db.getWorkflowRun escalation.workflowRunId = some run)
    (keeps : ∀ row, (change row).workflowRunId = row.workflowRunId)
    (runs : next.contents.workflowRuns = updateRows
      (fun row => row.workflowRunId = run.workflowRunId) change db.contents.workflowRuns)
    (cases : next.contents.escalationCases = updateRows
      (fun row => row.escalationId = escalationId)
      (EscalationCaseModel.decide .resolved actor resolutionPayload now)
      db.contents.escalationCases)
    (moves : run.Transitions (change run) ↔ .running ∈ run.state.validTransitions) :
    FollowsDomain db.contents next.contents ↔
      (OrchestratorCall.resumeAfterEscalation escalationId resolutionPayload actor).leavesTable
        db = false := by
  have own := found
  rw [← Database.getWorkflowRun_identified found] at own
  have runsFollow := runs_follow_iff change keeps own
  have casesFollow := cases_follow_iff
    (EscalationCaseModel.decide .resolved actor resolutionPayload now) (fun _ => rfl) foundCase
  have decided : escalation.Transitions (escalation.decide .resolved actor resolutionPayload now) ↔
      .resolved = escalation.state ∨ .resolved ∈ escalation.state.validTransitions :=
    EscalationCaseModel.transitions_iff rfl
  rw [← runs, moves, running_mem_validTransitions] at runsFollow
  rw [← cases, decided, resolved_of_validTransitions] at casesFollow
  have both : FollowsDomain db.contents next.contents ↔
      (run.state = .pending ∨ run.state = .awaitingHuman) ∧
        (escalation.state = .claimed ∨ escalation.state = .resolved) := by
    rw [← runsFollow, ← casesFollow]
    exact ⟨fun followed => ⟨followed.runs, followed.cases⟩, fun rows => ⟨rows.1, rows.2⟩⟩
  rw [both, OrchestratorCall.leavesTable, foundCase, Option.any_some, found, Option.any_some,
    Bool.or_eq_false_iff, Bool.and_eq_false_iff, Bool.and_eq_false_iff]
  simp only [bne_eq_false_iff_eq]
  exact and_comm

theorem resumeAfterEscalation_follows_iff {escalationId : UUID} {resolutionPayload : JsonObject}
    {actor : String} {state : WorkflowRunState}
    (ran : resumeAfterEscalation registry db draws escalationId resolutionPayload actor =
      .ok (next, state)) :
    FollowsDomain db.contents next.contents ↔
      (OrchestratorCall.resumeAfterEscalation escalationId resolutionPayload actor).leavesTable
        db = false := by
  obtain ⟨escalation, currentStep, run, foundCase, -, found, -, resumed, contents, handled⟩ :=
    resumeAfterEscalation_ok ran
  have toRunning : run.Transitions (run.resume (draws.now 0)) ↔
      .running ∈ run.state.validTransitions := WorkflowRunModel.transitions_one rfl rfl
  rcases handleSucceeded_ok handled with ⟨-, -, done⟩ | ⟨successor, -, -, -, done⟩
  · refine resumed_follows_iff (fun row => (row.resume (draws.now 0)).complete (draws.now 0))
      foundCase found (fun _ => rfl) ?_ (by rw [done, contents]) ?_
    · rw [done, contents]
      exact updateRows_updateRows _ (WorkflowRunModel.resume (draws.now 0)) _ (fun _ => rfl) _
    · have completes : (run.resume (draws.now 0)).Transitions
          ((run.resume (draws.now 0)).complete (draws.now 0)) ↔
            .completed ∈ WorkflowRunState.running.validTransitions :=
        WorkflowRunModel.transitions_one rfl rfl
      refine ⟨fun moved => ?_, fun valid => (toRunning.mpr valid).trans
        (completes.mpr (by decide))⟩
      obtain ⟨between, valid, completes⟩ := WorkflowRunModel.transitions_two rfl moved
      obtain rfl := (result_mem_validTransitions (.inl rfl) between).mp completes
      exact valid
  · refine resumed_follows_iff
      (fun row => (row.resume (draws.now 0)).moveTo successor.stepId (draws.now 0))
      foundCase found (fun _ => rfl) ?_ (by rw [done, contents]) ?_
    · rw [done, contents]
      exact updateRows_updateRows _ (WorkflowRunModel.resume (draws.now 0)) _ (fun _ => rfl) _
    · exact WorkflowRunModel.transitions_one rfl rfl

theorem OrchestratorCall.follows_iff {call : OrchestratorCall}
    (ran : call.perform registry db draws = .ok next) :
    FollowsDomain db.contents next.contents ↔ call.leavesTable db = false := by
  cases call with
  | startWorkflowRun workflowName workflowVersion documentIds actor correlationId deadline =>
    obtain ⟨_, ran⟩ := OrchestratorCall.perform_start ran
    obtain ⟨new, started, described, -⟩ := startWorkflowRun_writes ran
    exact ⟨fun _ => rfl, fun _ => followsDomain_started started described⟩
  | advanceWorkflow workflowRunId completedStepName stepResult =>
    obtain ⟨_, ran⟩ := OrchestratorCall.perform_advance ran
    exact advanceWorkflow_follows_iff ran
  | resumeAfterEscalation escalationId resolutionPayload actor =>
    obtain ⟨_, ran⟩ := OrchestratorCall.perform_resume ran
    exact resumeAfterEscalation_follows_iff ran
  | cancelWorkflow workflowRunId actor reason =>
    obtain ⟨run, found, can, contents⟩ := cancelWorkflow_ok ran
    exact ⟨fun _ => rfl, fun _ => followsDomain_cancelled found can contents⟩

/-! ### Requests -/

/-- Rejecting a case fails its run, which no transition does to a run that waits. -/
theorem rejectEscalation_follows_iff {escalationId : UUID} {body : RejectRequest}
    {principal : ApiKeyPrincipal}
    (ran : rejectEscalation db draws escalationId body principal = .ok next) :
    FollowsDomain db.contents next.contents ↔
      (RouteRequest.rejectEscalation escalationId body).leavesTable db = false := by
  obtain ⟨escalation, answer, call, foundCase, claimed, contents⟩ := rejectEscalation_ok ran
  rw [RouteRequest.leavesTable, foundCase, Option.any_some, contents]
  constructor
  · intro followed
    cases found : db.getWorkflowRun escalation.workflowRunId with
    | none => rfl
    | some run =>
      rw [Option.any_some]
      refine decide_eq_false fun waiting => ?_
      have runs : EvolvesWith WorkflowRunModel.Transitions WorkflowRunModel.Begins
          db.contents.workflowRuns (updateRows (fun row =>
            row.workflowRunId = escalation.workflowRunId ∧
              (row.state = .running ∨ row.state = .awaitingHuman))
          (WorkflowRunModel.rejectCase body.notes (draws.now 0)) db.contents.workflowRuns) :=
        followed.runs
      have moved := runs.selected (fun row : WorkflowRunModel => row.workflowRunId)
        (fun _ _ moved => moved.same) (fun _ => rfl) found
        (decide_eq_true ⟨Database.getWorkflowRun_identified found, .inr waiting⟩)
      have fails : run.Transitions (run.rejectCase body.notes (draws.now 0)) ↔
        .failed ∈ run.state.validTransitions := WorkflowRunModel.transitions_one rfl rfl
      rw [fails, waiting] at moved
      exact absurd moved (by decide)
  · intro keeps
    refine ⟨evolvesWith_updateRows WorkflowRunModel.transitions_refl
      fun row stored selected => ?_, ?_⟩
    · obtain ⟨about, running | waiting⟩ := of_decide_eq_true selected
      · have fails : row.Transitions (row.rejectCase body.notes (draws.now 0)) ↔
          .failed ∈ row.state.validTransitions := WorkflowRunModel.transitions_one rfl rfl
        rw [fails, running]
        decide
      · have found : db.getWorkflowRun escalation.workflowRunId = some row :=
          about ▸ find?_of_mem (fun row : WorkflowRunModel => row.workflowRunId)
            db.workflowRuns_distinct stored
        rw [found, Option.any_some, waiting] at keeps
        cases keeps
    · exact cases_follow_of_valid
        (EscalationCaseModel.decide .rejected principal.actorString answer (draws.now 0))
        (fun _ => rfl) (fun _ => rfl) foundCase (by rw [claimed]; decide)

theorem RouteRequest.follows_iff {request : RouteRequest} {principal : ApiKeyPrincipal}
    (ran : request.perform registry db draws principal = .ok next) :
    FollowsDomain db.contents next.contents ↔ request.leavesTable db = false := by
  cases request with
  | createWorkflowRun body =>
    obtain ⟨_, ran⟩ := RouteRequest.perform_create ran
    obtain ⟨new, started, described, -⟩ := createWorkflowRun_writes ran
    exact ⟨fun _ => rfl, fun _ => followsDomain_started started described⟩
  | cancelWorkflowRun workflowRunId body =>
    obtain ⟨run, _, found, can, contents⟩ := cancelWorkflowRun_ok ran
    exact ⟨fun _ => rfl, fun _ => followsDomain_cancelled found can contents⟩
  | claimEscalation escalationId =>
    obtain ⟨escalation, _, foundCase, opened, contents⟩ := claimEscalation_ok ran
    refine ⟨fun _ => rfl, fun _ => ?_⟩
    rw [contents]
    exact ⟨evolvesWith_refl WorkflowRunModel.transitions_refl _,
      cases_follow_of_valid (EscalationCaseModel.claim principal.actorString (draws.now 0))
        (fun _ => rfl) (fun _ => rfl) foundCase (by rw [opened]; decide)⟩
  | resolveEscalation escalationId body =>
    obtain ⟨escalation, answer, _, foundCase, claimed, _, contents⟩ := resolveEscalation_ok ran
    refine ⟨fun _ => rfl, fun _ => ?_⟩
    rw [contents]
    refine ⟨evolvesWith_updateRows WorkflowRunModel.transitions_refl fun row _ selected => ?_,
      cases_follow_of_valid
        (EscalationCaseModel.decide .resolved principal.actorString answer (draws.now 0))
        (fun _ => rfl) (fun _ => rfl) foundCase (by rw [claimed]; decide)⟩
    have resumes : row.Transitions (row.resumeWaiting (draws.now 0)) ↔
      .running ∈ row.state.validTransitions := WorkflowRunModel.transitions_one rfl rfl
    rw [resumes, (of_decide_eq_true selected).2]
    decide
  | rejectEscalation escalationId body => exact rejectEscalation_follows_iff ran

end Operations

/-! ### The whole system -/

section System

variable (registry : WorkflowRegistry) (loads : String → Option Json)

/-- Whether an event writes what no transition leads to. -/
def SystemEvent.leavesTable (platform : Platform) : SystemEvent → Bool
  | .call made draws =>
    (made.perform registry platform.db draws).isOk && made.leavesTable platform.db
  | .platform (.request made principal draws) =>
    (made.perform registry platform.db draws principal).isOk && made.leavesTable platform.db
  | _ => false

/-- A transaction follows the domain layer when what it flushes does. -/
theorem follows_commit_iff {db : Database} {flushed : Except Failure Database} {leaves : Bool}
    (follows : ∀ next, flushed = .ok next →
      (FollowsDomain db.contents next.contents ↔ leaves = false)) :
    FollowsDomain db.contents (commit db flushed).contents ↔ (flushed.isOk && leaves) = false := by
  cases ran : flushed with
  | error failure => exact ⟨fun _ => rfl, fun _ => .of_same rfl rfl⟩
  | ok next => exact follows next ran

theorem committed_follows {handle : String → StepContext → HandlerReturn} (db : Database)
    (draws : Draws) (workerId : String) (payload : JsonObject) : FollowsDomain db.contents
      (committed db (processTask loads handle db draws workerId payload)).contents := by
  cases processed : processTask loads handle db draws workerId payload with
  | error failure => exact .of_same rfl rfl
  | ok disposition =>
    cases disposition with
    | deadLetter => exact .of_same rfl rfl
    | alreadyTerminal => exact .of_same rfl rfl
    | written flushed =>
      obtain ⟨rows, outcome, -, -, -, written⟩ := processTask_steps processed
      obtain ⟨change, -, contents⟩ := writeOutcome_contents written
      show FollowsDomain db.contents flushed.contents
      rw [contents]
      exact .of_same rfl rfl

/-- An event follows the domain layer exactly when it does not leave the tables. -/
theorem SystemEvent.follows_iff (platform : Platform) (event : SystemEvent) :
    FollowsDomain platform.db.contents (event.step registry loads platform).db.contents ↔
      event.leavesTable registry platform = false := by
  obtain ⟨db, queue⟩ := platform
  have same (next : Platform) (kept : FollowsDomain db.contents next.db.contents) :
      FollowsDomain db.contents next.db.contents ↔ false = false := ⟨fun _ => rfl, fun _ => kept⟩
  cases event with
  | platform event =>
    cases event with
    | request made principal draws => exact follows_commit_iff fun next => RouteRequest.follows_iff
    | relay draws =>
      refine same _ ?_
      show FollowsDomain db.contents (relayBatch draws db queue).1.contents
      rw [(relayBatch_handedOver draws queue db).contents]
      exact .of_same rfl rfl
    | schedule acquired now => exact same _ (.of_same rfl rfl)
    | reap visibilityTimeout now workerIds => exact same _ (.of_same rfl rfl)
    | work workerId returned draws =>
      refine same _ ?_
      show FollowsDomain db.contents
        (workerIteration loads (fun _ _ => returned) draws workerId db queue).1.contents
      cases claim : queue.claim workerId with
      | none =>
        unfold workerIteration
        rw [claim]
        exact .of_same rfl rfl
      | some claimed =>
        rw [workerIteration_some claim, settle_fst]
        exact committed_follows loads db draws workerId claimed.1
  | call made draws => exact follows_commit_iff fun next => OrchestratorCall.follows_iff
  | reap workerId target payload => exact same _ (.of_same rfl rfl)
  | requeueFromDlq payload =>
    refine same _ ?_
    rw [SystemEvent.step]
    split <;> exact .of_same rfl rfl
  | dropFromDlq payload => exact same _ (.of_same rfl rfl)

/-- A stored run is what as many transitions as its version make of a new run. -/
def WorkflowRunModel.FromPending (row : WorkflowRunModel) : Prop :=
  ∃ targets : List WorkflowRunState, targets.length = row.version ∧
    targets.foldlM WorkflowRun.transitionTo ⟨row.workflowRunId, .pending, 0⟩ = .ok row.domain

/-- A stored case is what some transitions make of an open case. -/
def EscalationCaseModel.FromOpen (row : EscalationCaseModel) : Prop :=
  ∃ targets : List EscalationState,
    targets.foldlM EscalationCase.transitionTo ⟨row.escalationId, .opened⟩ = .ok row.domain

theorem WorkflowRunModel.FromPending.moved (old row : WorkflowRunModel)
    (moved : old.Transitions row) (held : old.FromPending) : row.FromPending := by
  obtain ⟨early, -, reached⟩ := held
  have same := moved.same
  obtain ⟨late, moved⟩ := moved
  have whole : (early ++ late).foldlM WorkflowRun.transitionTo ⟨row.workflowRunId, .pending, 0⟩ =
      .ok row.domain := by
    rw [List.foldlM_append, same, reached]
    exact moved
  refine ⟨early ++ late, ?_, whole⟩
  exact ((WorkflowRun.foldlM_transitionTo whole).2.trans (Nat.zero_add _)).symm

theorem WorkflowRunModel.FromPending.of_begins (row : WorkflowRunModel) (begins : row.Begins) :
    row.FromPending := by
  have whole : [WorkflowRunState.running].foldlM WorkflowRun.transitionTo
      ⟨row.workflowRunId, .pending, 0⟩ = .ok row.domain :=
    Fallible.bind_eq_ok.mpr ⟨row.domain, begins, rfl⟩
  exact ⟨[.running], ((WorkflowRun.foldlM_transitionTo whole).2.trans (Nat.zero_add _)).symm, whole⟩

theorem EscalationCaseModel.FromOpen.moved (old row : EscalationCaseModel)
    (moved : old.Transitions row) (held : old.FromOpen) : row.FromOpen := by
  obtain ⟨targets, reached⟩ := held
  have same := moved.same
  rcases moved with still | moved
  · exact ⟨targets, by rw [same, still]; exact reached⟩
  · refine ⟨targets ++ [row.state], ?_⟩
    rw [List.foldlM_append, same, reached]
    show [row.state].foldlM EscalationCase.transitionTo old.domain = .ok row.domain
    exact Fallible.bind_eq_ok.mpr ⟨row.domain, moved, rfl⟩

/-- Transactions commit one after the other. Then the events follow the state machines of the
domain layer exactly as long as none leaves the tables, and until then every run is what as many
transitions as its version make of a new one, and every case what some make of an open one. Each
operation changes one run and one case, so it is enough to ask the tables about these two. -/
theorem follows_domain (documents : List UUID) (events : List SystemEvent) :
    let step := SystemEvent.step registry loads
    let keeps := Transition.Along step
      (fun platform event => event.leavesTable registry platform = false) (.empty documents) events
    let reached := (Transition.run step (.empty documents) events).db.contents
    (Transition.Along step (fun platform event => FollowsDomain platform.db.contents
      (step platform event).db.contents) (.empty documents) events ↔ keeps) ∧
    (keeps → (∀ run ∈ reached.workflowRuns, run.FromPending) ∧
      ∀ escalation ∈ reached.escalationCases, escalation.FromOpen) := by
  intro step keeps reached
  constructor
  · exact Transition.along_congr step
      (fun platform event => SystemEvent.follows_iff registry loads platform event) _ events
  · refine Transition.run_invariant step (fun platform =>
      (∀ run ∈ platform.db.contents.workflowRuns, run.FromPending) ∧
        ∀ escalation ∈ platform.db.contents.escalationCases, escalation.FromOpen)
      (fun platform event held keepsTable => ?_) (.empty documents)
      ⟨fun _ stored => absurd stored List.not_mem_nil,
        fun _ stored => absurd stored List.not_mem_nil⟩ events
    obtain ⟨runs, cases⟩ := (SystemEvent.follows_iff registry loads platform event).mpr keepsTable
    exact ⟨runs.forall_mem WorkflowRunModel.FromPending.moved
        WorkflowRunModel.FromPending.of_begins held.1,
      cases.forall_mem EscalationCaseModel.FromOpen.moved
        (fun row opened => ⟨[], by unfold EscalationCaseModel.domain; rw [opened]; rfl⟩) held.2⟩

end System

/-- A step fails terminally, its case is claimed and resolved, and the next step is escalated. -/
def resolvedInTurn : List SystemEvent :=
  extractClaimed ++ [orchestratorResumes,
    .call (.advanceWorkflow 100 "validate" { status := .escalate }) (numberedDraws 6)]

/-- The run went through four transitions; one case is resolved and another one open. -/
theorem follows_domain_resolved :
    let step := SystemEvent.step [claimIntakeV1] fun _ => none
    let reached := (Transition.run step (.empty []) resolvedInTurn).db.contents
    reached.workflowRuns.map (fun run => (run.state, run.version)) = [(.awaitingHuman, 4)] ∧
    reached.escalationCases.map (fun escalation => escalation.state) = [.resolved, .opened] ∧
    Transition.Along step (fun platform event => FollowsDomain platform.db.contents
      (step platform event).db.contents) (.empty []) resolvedInTurn ∧
    (∀ run ∈ reached.workflowRuns, run.FromPending) ∧
      ∀ escalation ∈ reached.escalationCases, escalation.FromOpen := by
  intro step reached
  obtain ⟨follows, held⟩ := follows_domain [claimIntakeV1] (fun _ => none) [] resolvedInTurn
  have keeps : Transition.Along step (fun platform event =>
      event.leavesTable [claimIntakeV1] platform = false) (.empty []) resolvedInTurn := by
    decide +kernel
  refine and_assoc.mp ⟨?_, follows.mpr keeps, held keeps⟩
  decide +kernel

end InsuranceOps
