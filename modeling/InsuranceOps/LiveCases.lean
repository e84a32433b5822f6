/-
This file asks whether the runs that wait for a human are the runs with a case
to decide. Opening a case puts its run in `awaiting_human` and deciding the
case takes it out, but neither way of cancelling a run looks at its cases: a
run that is cancelled while it waits leaves a case behind that operators go on
claiming and deciding. In every run of the platform's operations that cancels
no waiting run, a run waits exactly while it has one open or claimed case.
-/

import InsuranceOps.Frontier

namespace InsuranceOps

open Relational WorkflowOrchestrator

/-- Whether a case is one of a run's cases and still asks for a decision. -/
def EscalationCaseModel.isLive (workflowRunId : UUID) (row : EscalationCaseModel) : Bool :=
  row.workflowRunId = workflowRunId ∧ row.state.isUnresolved

/-- The cases of a run that are open or claimed. -/
def Contents.liveCases (contents : Contents) (workflowRunId : UUID) : List EscalationCaseModel :=
  contents.escalationCases.filter (EscalationCaseModel.isLive workflowRunId)

/-- The waiting runs are the ones with a case to decide, and a finished run has none that a request
could claim or decide. -/
structure WaitingMatches (db : Database) : Prop where
  waiting : ∀ run ∈ db.contents.workflowRuns,
    run.state = .awaitingHuman ↔ (db.contents.liveCases run.workflowRunId).length = 1
  finished : ∀ run ∈ db.contents.workflowRuns, run.state.isTerminal = true →
    db.contents.liveCases run.workflowRunId = []
  settled : ∀ run ∈ db.contents.workflowRuns, run.state.isTerminal = true →
    ∀ row ∈ db.contents.escalationCases, row.workflowRunId = run.workflowRunId →
      ∀ draws principal next,
        claimEscalation db draws row.escalationId principal ≠ .ok next ∧
        (∀ body, resolveEscalation db draws row.escalationId body principal ≠ .ok next) ∧
        ∀ body, rejectEscalation db draws row.escalationId body principal ≠ .ok next

/-! ### The operations -/

/-- Whether a run stands at the step a result is about, and is running. -/
def Database.runsStep (db : Database) (workflowRunId : UUID) (stepName : String) : Bool :=
  (db.getWorkflowRun workflowRunId).any fun run => run.state = .running &&
    (db.getStepByRunAndName workflowRunId stepName).any fun step =>
      run.currentStepId = some step.stepId

/-- The operations of the platform: runs are started, running ones advanced on their current step,
runs cancelled, and cases claimed and decided through the routes. -/
def Operation.isOrdinary (db : Database) : Operation → Bool
  | .call (.startWorkflowRun _ _ _ _ _ _) => true
  | .call (.advanceWorkflow workflowRunId completedStepName _) =>
    db.runsStep workflowRunId completedStepName
  | .call (.resumeAfterEscalation _ _ _) => false
  | .call (.cancelWorkflow _ _ _) => true
  | .request _ _ => true

/-- Whether a run is waiting for a human. -/
def Database.isWaiting (db : Database) (workflowRunId : UUID) : Bool :=
  (db.getWorkflowRun workflowRunId).any fun run => run.state = .awaitingHuman

/-- Whether an operation cancels a run that is waiting for a human. -/
def Operation.abandonsCase (db : Database) : Operation → Bool
  | .call (.cancelWorkflow workflowRunId _ _) => db.isWaiting workflowRunId
  | .request (.cancelWorkflowRun workflowRunId _) principal =>
    principal.role ∈ ["supervisor"] && db.isWaiting workflowRunId
  | _ => false

/-! ### Live cases counted against waiting runs -/

/-- One for a waiting run, nothing for the others. -/
def WorkflowRunState.awaited (state : WorkflowRunState) : Nat :=
  if state = .awaitingHuman then 1 else 0

/-- Every run has as many live cases as its state asks for, and no case belongs to a run that is
not stored. -/
def Balanced (db : Database) : Prop :=
  ∀ workflowRunId, db.contents.escalationCases.countP (EscalationCaseModel.isLive workflowRunId) =
    ((db.getWorkflowRun workflowRunId).map fun run => run.state.awaited).getD 0

theorem balanced_empty (documents : List UUID) : Balanced (.empty documents) := fun _ => rfl

variable {registry : WorkflowRegistry} {db next : Database} {draws : Draws}
  {principal : ApiKeyPrincipal}

theorem liveCases_length (contents : Contents) (workflowRunId : UUID) :
    (contents.liveCases workflowRunId).length =
      contents.escalationCases.countP (EscalationCaseModel.isLive workflowRunId) :=
  List.countP_eq_length_filter.symm

theorem isLive_self {row : EscalationCaseModel} (unresolved : row.state.isUnresolved = true) :
    row.isLive row.workflowRunId = true :=
  decide_eq_true ⟨rfl, unresolved⟩

/-- A stored run has as many live cases as its state asks for. -/
theorem Balanced.liveCases (balanced : Balanced db) {run : WorkflowRunModel}
    (stored : run ∈ db.contents.workflowRuns) :
    (db.contents.liveCases run.workflowRunId).length = run.state.awaited := by
  have found : db.getWorkflowRun run.workflowRunId = some run :=
    find?_of_mem (fun row : WorkflowRunModel => row.workflowRunId) db.workflowRuns_distinct stored
  rw [liveCases_length, balanced run.workflowRunId, found]
  rfl

/-- The run of a live case is stored and waits. -/
theorem Balanced.waits (balanced : Balanced db) {row : EscalationCaseModel}
    (stored : row ∈ db.contents.escalationCases) (unresolved : row.state.isUnresolved = true) :
    ∃ run, db.getWorkflowRun row.workflowRunId = some run ∧ run.state = .awaitingHuman := by
  have counted : 0 < db.contents.escalationCases.countP
      (EscalationCaseModel.isLive row.workflowRunId) :=
    List.countP_pos_iff.mpr ⟨row, stored, isLive_self unresolved⟩
  rw [balanced row.workflowRunId] at counted
  cases found : db.getWorkflowRun row.workflowRunId with
  | none =>
    rw [found] at counted
    exact absurd counted (lt_irrefl 0)
  | some run =>
    rw [found] at counted
    refine ⟨run, rfl, ?_⟩
    by_contra other
    exact absurd counted (by simp [WorkflowRunState.awaited, other])

theorem Balanced.waitingMatches (balanced : Balanced db) : WaitingMatches db := by
  have finished : ∀ run ∈ db.contents.workflowRuns, run.state.isTerminal = true →
      db.contents.liveCases run.workflowRunId = [] := by
    intro run stored terminal
    have counted := balanced.liveCases stored
    cases state : run.state <;> rw [state] at terminal counted
    case completed | failed | cancelled => exact List.length_eq_zero_iff.mp counted
    case pending | running | awaitingHuman => cases terminal
  have decided : ∀ run ∈ db.contents.workflowRuns, run.state.isTerminal = true →
      ∀ row ∈ db.contents.escalationCases, row.workflowRunId = run.workflowRunId →
        ∀ found, db.getEscalationCase row.escalationId = some found →
          found.state.isUnresolved = false := by
    intro run stored terminal row rowStored owner found lookup
    obtain rfl := eq_of_find? (fun row : EscalationCaseModel => row.escalationId)
      db.escalationCases_distinct lookup rowStored rfl
    refine Bool.eq_false_iff.mpr fun unresolved => ?_
    have live : row ∈ db.contents.liveCases run.workflowRunId :=
      List.mem_filter.mpr ⟨rowStored, owner ▸ isLive_self unresolved⟩
    rw [finished run stored terminal] at live
    exact absurd live List.not_mem_nil
  refine ⟨fun run stored => ?_, finished, fun run stored terminal row rowStored owner draws
    principal next => ⟨fun ran => ?_, fun body ran => ?_, fun body ran => ?_⟩⟩
  · rw [balanced.liveCases stored, WorkflowRunState.awaited]
    split <;> simp_all
  · obtain ⟨found, -, lookup, opened, -⟩ := claimEscalation_ok ran
    have state := decided run stored terminal row rowStored owner found lookup
    rw [opened] at state
    cases state
  · obtain ⟨found, -, -, lookup, claimed, -⟩ := resolveEscalation_ok ran
    have state := decided run stored terminal row rowStored owner found lookup
    rw [claimed] at state
    cases state
  · obtain ⟨found, -, -, lookup, claimed, -⟩ := rejectEscalation_ok ran
    have state := decided run stored terminal row rowStored owner found lookup
    rw [claimed] at state
    cases state

/-! ### What the writes do to the counts -/

/-- The row of one run changes and the live cases of that run with it. -/
theorem Balanced.update (balanced : Balanced db) {workflowRunId : UUID} {run : WorkflowRunModel}
    (found : db.getWorkflowRun workflowRunId = some run)
    (change : WorkflowRunModel → WorkflowRunModel)
    (runs : next.contents.workflowRuns =
      updateRows (fun row => row.workflowRunId = workflowRunId) change db.contents.workflowRuns)
    (keeps : ∀ row, (change row).workflowRunId = row.workflowRunId)
    (own : next.contents.escalationCases.countP (EscalationCaseModel.isLive workflowRunId) +
        run.state.awaited =
      db.contents.escalationCases.countP (EscalationCaseModel.isLive workflowRunId) +
        (change run).state.awaited)
    (others : ∀ other, other ≠ workflowRunId →
      next.contents.escalationCases.countP (EscalationCaseModel.isLive other) =
        db.contents.escalationCases.countP (EscalationCaseModel.isLive other)) :
    Balanced next := by
  intro other
  have lookup : next.getWorkflowRun other =
      Function.update db.getWorkflowRun workflowRunId (some (change run)) other := by
    rw [Database.getWorkflowRun_eq, runs]
    exact congrFun (find?_updateRows_key (fun row : WorkflowRunModel => row.workflowRunId)
      change keeps found) other
  rw [lookup]
  by_cases same : other = workflowRunId
  · have before := balanced workflowRunId
    rw [found, Option.map_some, Option.getD_some] at before
    rw [same, Function.update_self, Option.map_some, Option.getD_some]
    omega
  · rw [Function.update_of_ne same, others other same]
    exact balanced other

/-- A run that does not wait changes to a state in which it does not wait either. -/
theorem Balanced.settle (balanced : Balanced db) {workflowRunId : UUID} {run : WorkflowRunModel}
    (found : db.getWorkflowRun workflowRunId = some run) (calm : run.state ≠ .awaitingHuman)
    (change : WorkflowRunModel → WorkflowRunModel)
    (runs : next.contents.workflowRuns =
      updateRows (fun row => row.workflowRunId = workflowRunId) change db.contents.workflowRuns)
    (keeps : ∀ row, (change row).workflowRunId = row.workflowRunId)
    (later : (change run).state ≠ .awaitingHuman)
    (cases : next.contents.escalationCases = db.contents.escalationCases) : Balanced next := by
  refine balanced.update found change runs keeps ?_ fun other _ => by rw [cases]
  rw [cases, WorkflowRunState.awaited, if_neg calm, WorkflowRunState.awaited, if_neg later]

/-- A case is opened and its run starts to wait. -/
theorem Balanced.escalate (balanced : Balanced db) {run : WorkflowRunModel}
    (row : EscalationCaseModel) (found : db.getWorkflowRun row.workflowRunId = some run)
    (calm : run.state ≠ .awaitingHuman) (change : WorkflowRunModel → WorkflowRunModel)
    (runs : next.contents.workflowRuns = updateRows
      (fun other => other.workflowRunId = row.workflowRunId) change db.contents.workflowRuns)
    (keeps : ∀ row, (change row).workflowRunId = row.workflowRunId)
    (waits : (change run).state = .awaitingHuman) (opened : row.state = .opened)
    (cases : next.contents.escalationCases = db.contents.escalationCases ++ [row]) :
    Balanced next := by
  refine balanced.update found change runs keeps ?_ fun other different => ?_
  · rw [cases, List.countP_append, List.countP_singleton,
      if_pos (isLive_self (by rw [opened]; rfl)), WorkflowRunState.awaited, if_neg calm,
      WorkflowRunState.awaited, if_pos waits]
  · have foreign : row.isLive other = false := decide_eq_false fun live => different live.1.symm
    rw [cases, List.countP_append, List.countP_singleton, if_neg (by rw [foreign]; decide),
      Nat.add_zero]

/-- A live case changes, and counts afterwards if it is still unresolved. -/
theorem countP_isLive_change {row : EscalationCaseModel} {escalationId : UUID}
    (found : db.getEscalationCase escalationId = some row)
    (unresolved : row.state.isUnresolved = true)
    (change : EscalationCaseModel → EscalationCaseModel)
    (keeps : (change row).workflowRunId = row.workflowRunId)
    (cases : next.contents.escalationCases = updateRows
      (fun other => other.escalationId = escalationId) change db.contents.escalationCases)
    (other : UUID) :
    next.contents.escalationCases.countP (EscalationCaseModel.isLive other) +
        (if row.workflowRunId = other then 1 else 0) =
      db.contents.escalationCases.countP (EscalationCaseModel.isLive other) +
        if row.workflowRunId = other ∧ (change row).state.isUnresolved = true then 1 else 0 := by
  have counted := countP_updateRows_key (fun row : EscalationCaseModel => row.escalationId)
    db.escalationCases_distinct found change (EscalationCaseModel.isLive other)
  rw [← cases] at counted
  simpa only [EscalationCaseModel.isLive, keeps, unresolved, and_true, decide_eq_true_eq]
    using counted

/-- A live case is decided and its run stops waiting. -/
theorem Balanced.decide (balanced : Balanced db) {row : EscalationCaseModel} {escalationId : UUID}
    (found : db.getEscalationCase escalationId = some row)
    (unresolved : row.state.isUnresolved = true)
    (answer : EscalationCaseModel → EscalationCaseModel)
    (same : (answer row).workflowRunId = row.workflowRunId)
    (decided : (answer row).state.isUnresolved = false)
    (cases : next.contents.escalationCases = updateRows
      (fun other => other.escalationId = escalationId) answer db.contents.escalationCases)
    (selects : WorkflowRunState → Prop) [DecidablePred selects] (waiting : selects .awaitingHuman)
    (change : WorkflowRunModel → WorkflowRunModel)
    (runs : next.contents.workflowRuns = updateRows
      (fun other => other.workflowRunId = row.workflowRunId ∧ selects other.state) change
      db.contents.workflowRuns)
    (keeps : ∀ row, (change row).workflowRunId = row.workflowRunId)
    (leaves : ∀ row, (change row).state ≠ .awaitingHuman) : Balanced next := by
  obtain ⟨run, lookup, waits⟩ :=
    balanced.waits (List.mem_of_find?_eq_some found) unresolved
  rw [updateRows_and_of_find? (fun row : WorkflowRunModel => row.workflowRunId)
    db.workflowRuns_distinct lookup (fun row => selects row.state) change,
    if_pos (by rw [waits]; exact waiting)] at runs
  have counted := countP_isLive_change found unresolved answer same cases
  simp only [decided, Bool.false_eq_true, and_false, if_false, Nat.add_zero] at counted
  refine balanced.update lookup change runs keeps ?_ fun other different => ?_
  · rw [WorkflowRunState.awaited, if_pos waits, WorkflowRunState.awaited, if_neg (leaves run)]
    simpa using counted row.workflowRunId
  · simpa [different.symm] using counted other

/-! ### The orchestrator's calls -/

section Outcomes

variable {state : WorkflowRunState} {run : WorkflowRunModel} {steps : List StepModel}
  {currentStep : StepModel} {stepResult : StepResult} {reasonCode : String} {now : Timestamp}
  {newId : UUID} {random : UnitDraw} {event : EventDraw}

theorem handleSucceeded_balanced (balanced : Balanced db)
    (found : db.getWorkflowRun run.workflowRunId = some run) (running : run.state = .running)
    (ran : handleSucceeded registry db run steps currentStep now newId event = .ok (next, state)) :
    Balanced next := by
  have calm : run.state ≠ .awaitingHuman := by
    rw [running]
    exact nofun
  rcases handleSucceeded_ok ran with ⟨-, -, contents⟩ | ⟨successor, -, -, -, contents⟩
  · exact balanced.settle found calm (WorkflowRunModel.complete now) (by rw [contents])
      (fun _ => rfl) nofun (by rw [contents])
  · exact balanced.settle found calm (WorkflowRunModel.moveTo successor.stepId now)
      (by rw [contents]) (fun _ => rfl) calm (by rw [contents])

theorem createEscalation_balanced (balanced : Balanced db)
    (found : db.getWorkflowRun run.workflowRunId = some run) (running : run.state = .running)
    (ran : createEscalation db run currentStep stepResult reasonCode now newId event =
      .ok (next, state)) : Balanced next := by
  obtain ⟨-, -, contents⟩ := createEscalation_ok ran
  exact balanced.escalate (escalationRow newId run.workflowRunId currentStep.stepId stepResult
    reasonCode now) found (by rw [running]; exact nofun)
    (WorkflowRunModel.awaitHuman stepResult now) (by rw [contents]; rfl) (fun _ => rfl) rfl rfl
    (by rw [contents])

theorem handleFailedTerminal_balanced (balanced : Balanced db)
    (found : db.getWorkflowRun run.workflowRunId = some run) (running : run.state = .running)
    (ran : handleFailedTerminal db run currentStep stepResult now newId event =
      .ok (next, state)) : Balanced next := by
  rcases handleFailedTerminal_ok ran with ⟨-, created⟩ | ⟨-, -, contents⟩
  · have balancedFailed : Balanced (db.updateStep currentStep.stepId
        (StepModel.failTerminal now)) := balanced
    exact createEscalation_balanced balancedFailed found running created
  · exact balanced.settle found (by rw [running]; exact nofun)
      (WorkflowRunModel.fail stepResult now) (by rw [contents]) (fun _ => rfl) nofun
      (by rw [contents])

theorem handleFailedRetryable_balanced (balanced : Balanced db)
    (found : db.getWorkflowRun run.workflowRunId = some run) (running : run.state = .running)
    (ran : handleFailedRetryable registry db run currentStep stepResult now newId random event =
      .ok (next, state)) : Balanced next := by
  have calm : run.state ≠ .awaitingHuman := by
    rw [running]
    exact nofun
  rcases handleFailedRetryable_ok ran with ⟨-, -, -, contents⟩ | ⟨-, failed⟩
  · exact balanced.settle found calm id (by rw [contents, updateRows_id]) (fun _ => rfl) calm
      (by rw [contents])
  · exact handleFailedTerminal_balanced balanced found running failed

/-- A result of the current step of a running run. -/
theorem advanceWorkflow_balanced {workflowRunId : UUID} {completedStepName : String}
    (balanced : Balanced db) (runs : db.runsStep workflowRunId completedStepName = true)
    (ran : advanceWorkflow registry db draws workflowRunId completedStepName stepResult =
      .ok (next, state)) : Balanced next := by
  obtain ⟨run, currentStep, found, -, handled⟩ := advanceWorkflow_ok ran
  have running : run.state = .running := by
    rw [Database.runsStep, found, Option.any_some, Bool.and_eq_true] at runs
    exact of_decide_eq_true runs.1
  obtain rfl := Database.getWorkflowRun_identified found
  cases status : stepResult.status with
  | succeeded =>
    rw [status] at handled
    exact handleSucceeded_balanced balanced found running handled
  | failedRetryable =>
    rw [status] at handled
    exact handleFailedRetryable_balanced balanced found running handled
  | failedTerminal =>
    rw [status] at handled
    exact handleFailedTerminal_balanced balanced found running handled
  | escalate =>
    rw [status] at handled
    exact createEscalation_balanced balanced found running handled

end Outcomes

/-- A new run is running and has no case. -/
theorem started_balanced {new : NewRun} (started : Started db next new)
    (balanced : Balanced db) : Balanced next := by
  intro other
  have unstored : db.getWorkflowRun new.run.workflowRunId = none :=
    List.find?_eq_none.mpr fun run stored => by simpa using started.fresh run stored
  have before := balanced other
  have cases : next.contents.escalationCases = db.contents.escalationCases := by
    rw [started.contents]
  have lookup : next.getWorkflowRun other = (db.getWorkflowRun other).or
      (if new.run.workflowRunId = other then some new.run else none) := by
    rw [Database.getWorkflowRun_eq, started.contents, List.find?_append, List.find?_singleton]
    simp only [decide_eq_true_eq]
    rfl
  rw [cases, before, lookup]
  by_cases same : new.run.workflowRunId = other
  · rw [if_pos same, ← same, unstored, Option.none_or, Option.map_some, started.running]
    rfl
  · rw [if_neg same, Option.or_none]

theorem cancel_balanced {workflowRunId : UUID} {run : WorkflowRunModel} (balanced : Balanced db)
    (found : db.getWorkflowRun workflowRunId = some run) (calm : db.isWaiting workflowRunId = false)
    (runs : next.contents.workflowRuns = updateRows (fun row => row.workflowRunId = workflowRunId)
      (WorkflowRunModel.cancel (draws.now 0)) db.contents.workflowRuns)
    (cases : next.contents.escalationCases = db.contents.escalationCases) : Balanced next := by
  rw [Database.isWaiting, found, Option.any_some, decide_eq_false_iff_not] at calm
  exact balanced.settle found calm (WorkflowRunModel.cancel (draws.now 0)) runs (fun _ => rfl) nofun
    cases

/-- A claimed case still asks for a decision. -/
theorem claimEscalation_balanced {escalationId : UUID} (balanced : Balanced db)
    (ran : claimEscalation db draws escalationId principal = .ok next) : Balanced next := by
  obtain ⟨row, call, found, opened, contents⟩ := claimEscalation_ok ran
  have cases : next.contents.escalationCases = updateRows
      (fun other => other.escalationId = escalationId)
      (EscalationCaseModel.claim principal.actorString (draws.now 0))
      db.contents.escalationCases := by
    rw [contents]
  have counted := countP_isLive_change found (by rw [opened]; rfl)
    (EscalationCaseModel.claim principal.actorString (draws.now 0)) rfl cases
  intro other
  have unresolved : (EscalationCaseModel.claim principal.actorString (draws.now 0)
      row).state.isUnresolved = true := rfl
  have same := counted other
  simp only [unresolved, and_true, Nat.add_right_cancel_iff] at same
  rw [same, balanced other, Database.getWorkflowRun_eq, Database.getWorkflowRun_eq, contents]

theorem resolveEscalation_balanced {escalationId : UUID} {body : ResolveRequest}
    (balanced : Balanced db)
    (ran : resolveEscalation db draws escalationId body principal = .ok next) : Balanced next := by
  obtain ⟨row, answer, call, found, claimed, -, contents⟩ := resolveEscalation_ok ran
  exact balanced.decide found (by rw [claimed]; rfl)
    (EscalationCaseModel.decide .resolved principal.actorString answer (draws.now 0)) rfl rfl
    (by rw [contents]) (fun state => state = .awaitingHuman) rfl
    (WorkflowRunModel.resumeWaiting (draws.now 0)) (by rw [contents]) (fun _ => rfl) fun _ => nofun

theorem rejectEscalation_balanced {escalationId : UUID} {body : RejectRequest}
    (balanced : Balanced db)
    (ran : rejectEscalation db draws escalationId body principal = .ok next) : Balanced next := by
  obtain ⟨row, answer, call, found, claimed, contents⟩ := rejectEscalation_ok ran
  exact balanced.decide found (by rw [claimed]; rfl)
    (EscalationCaseModel.decide .rejected principal.actorString answer (draws.now 0)) rfl rfl
    (by rw [contents]) (fun state => state = .running ∨ state = .awaitingHuman) (.inr rfl)
    (WorkflowRunModel.rejectCase body.notes (draws.now 0)) (by rw [contents]) (fun _ => rfl)
    fun _ => nofun

/-! ### Runs of operations -/

theorem OrchestratorCall.balanced {call : OrchestratorCall} (balanced : Balanced db)
    (ordinary : Operation.isOrdinary db (.call call) = true)
    (spared : Operation.abandonsCase db (.call call) = false)
    (ran : call.perform registry db draws = .ok next) : Balanced next := by
  cases call with
  | startWorkflowRun workflowName workflowVersion documentIds actor correlationId deadline =>
    obtain ⟨_, ran⟩ := OrchestratorCall.perform_start ran
    obtain ⟨new, started, -⟩ := startWorkflowRun_ok ran
    exact started_balanced started balanced
  | advanceWorkflow workflowRunId completedStepName stepResult =>
    obtain ⟨_, ran⟩ := OrchestratorCall.perform_advance ran
    exact advanceWorkflow_balanced balanced ordinary ran
  | resumeAfterEscalation escalationId resolutionPayload actor => cases ordinary
  | cancelWorkflow workflowRunId actor reason =>
    obtain ⟨run, found, -, contents⟩ := cancelWorkflow_ok ran
    exact cancel_balanced balanced found spared (by rw [contents]) (by rw [contents])

theorem RouteRequest.balanced {request : RouteRequest} (balanced : Balanced db)
    (spared : Operation.abandonsCase db (.request request principal) = false)
    (ran : request.perform registry db draws principal = .ok next) : Balanced next := by
  cases request with
  | createWorkflowRun body =>
    obtain ⟨_, ran⟩ := RouteRequest.perform_create ran
    obtain ⟨new, started, -⟩ := createWorkflowRun_ok ran
    exact started_balanced started balanced
  | cancelWorkflowRun workflowRunId body =>
    obtain ⟨_, admitted, -⟩ := Fallible.bind_eq_ok.mp ran
    obtain ⟨run, _, found, -, contents⟩ := cancelWorkflowRun_ok ran
    rw [Operation.abandonsCase, decide_eq_true (requiresRole_ok admitted), Bool.true_and] at spared
    exact cancel_balanced balanced found spared (by rw [contents]) (by rw [contents])
  | claimEscalation escalationId => exact claimEscalation_balanced balanced ran
  | resolveEscalation escalationId body => exact resolveEscalation_balanced balanced ran
  | rejectEscalation escalationId body => exact rejectEscalation_balanced balanced ran

/-- One ordinary operation that cancels no waiting run. -/
theorem Operation.step_balanced (registry : WorkflowRegistry) (db : Database)
    (operation : Operation × Draws) (balanced : Balanced db)
    (made : operation.1.isOrdinary db = true ∧ operation.1.abandonsCase db = false) :
    Balanced (Operation.step registry db operation) := by
  refine commit_induction Balanced balanced fun next ran => ?_
  obtain ⟨operation, draws⟩ := operation
  cases operation with
  | call call => exact OrchestratorCall.balanced balanced made.1 made.2 ran
  | request request principal => exact RouteRequest.balanced balanced made.2 ran

/-- In every run of ordinary operations that cancels no run while it waits, the waiting runs are the
ones with a case to decide, and no case of a finished run can be claimed or decided. Opening a case
puts its run in `awaiting_human` and deciding it takes the run out, so each operation keeps the
balance of the two. -/
theorem waiting_matches (registry : WorkflowRegistry) (documents : List UUID)
    (operations : List (Operation × Draws))
    (made : Transition.Along (Operation.step registry) (fun db operation =>
      operation.1.isOrdinary db = true ∧ operation.1.abandonsCase db = false)
      (.empty documents) operations) :
    WaitingMatches (Transition.run (Operation.step registry) (.empty documents) operations) :=
  (Transition.run_invariant (Operation.step registry) Balanced (Operation.step_balanced registry)
    _ (balanced_empty documents) operations made).waitingMatches

/-! ### A case left behind -/

/-- A run is started and its first step escalates. -/
def escalatedOperations : List (Operation × Draws) := [
  (.call (.startWorkflowRun "claim_intake" "v1" [] "api" "c" none), numberedDraws 1),
  (.call (.advanceWorkflow 100 "ingest" { status := .escalate }), numberedDraws 2)]

def operator : ApiKeyPrincipal := ⟨"1", "operator", "o"⟩

/-- An operator claims and resolves the case, and the running run is cancelled. -/
def resolvedOperations : List (Operation × Draws) := [
  (.request (.claimEscalation 200) operator, numberedDraws 3),
  (.request (.resolveEscalation 200 { notes := "ok" }) operator, numberedDraws 4),
  (.call (.cancelWorkflow 100 "supervisor" none), numberedDraws 5)]

/-- Cancelling after the case is resolved leaves nothing to decide. -/
theorem waiting_matches_resolved :
    WaitingMatches (Transition.run (Operation.step [claimIntakeV1]) (.empty [])
      (escalatedOperations ++ resolvedOperations)) :=
  waiting_matches [claimIntakeV1] [] (escalatedOperations ++ resolvedOperations)
    (by decide +kernel)

/-- The run is cancelled while it waits, and then an operator claims and resolves the case. -/
def abandonedOperations : List (Operation × Draws) := [
  (.call (.cancelWorkflow 100 "supervisor" none), numberedDraws 3),
  (.request (.claimEscalation 200) operator, numberedDraws 4),
  (.request (.resolveEscalation 200 { notes := "ok" }) operator, numberedDraws 5)]

/-- The state of the run and of its case. -/
def Database.runAndCase (db : Database) : Option (WorkflowRunState × EscalationState) :=
  (db.getWorkflowRun 100).bind fun run =>
    (db.getEscalationCase 200).map fun row => (run.state, row.state)

/-- Cancelling a waiting run leaves its case open, and operators claim and resolve it. -/
theorem cancelled_leaves_case :
    ((List.range 4).map fun made => (Transition.run (Operation.step [claimIntakeV1]) (.empty [])
        (escalatedOperations ++ abandonedOperations.take made)).runAndCase) =
      [some (.awaitingHuman, .opened), some (.cancelled, .opened), some (.cancelled, .claimed),
        some (.cancelled, .resolved)] ∧
    ¬WaitingMatches (Transition.run (Operation.step [claimIntakeV1]) (.empty [])
      (escalatedOperations ++ abandonedOperations.take 1)) := by
  refine ⟨by decide +kernel, fun matching => ?_⟩
  have left : ∃ run ∈ (Transition.run (Operation.step [claimIntakeV1]) (.empty [])
      (escalatedOperations ++ abandonedOperations.take 1)).contents.workflowRuns,
      run.state.isTerminal = true ∧ ((Transition.run (Operation.step [claimIntakeV1]) (.empty [])
        (escalatedOperations ++ abandonedOperations.take 1)).contents.liveCases
          run.workflowRunId).length = 1 := by decide +kernel
  obtain ⟨run, stored, terminal, live⟩ := left
  rw [matching.finished run stored terminal] at live
  cases live

end InsuranceOps
