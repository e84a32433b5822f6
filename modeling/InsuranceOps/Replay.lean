/-
This file settles that the audit log of a run rebuilds it. Every orchestrator
call that sets the state of a run counts its version up by one and appends one
event naming that state, and every call that does not set it appends an event
that names none. So folding the events of a run in the order of their numbers
gives the stored state, and counting those that name a state the version.
-/

import InsuranceOps.Operations

namespace InsuranceOps

open Relational WorkflowOrchestrator

/-! ### Folding a log -/

/-- The state an event of this type sets its run to, if any. -/
def stateSetBy (eventType : String) : Option WorkflowRunState :=
  match eventType with
  | "workflow_run.started" | "escalation.resolved" => some .running
  | "escalation.created" => some .awaitingHuman
  | "workflow_run.completed" => some .completed
  | "workflow_run.failed" => some .failed
  | "workflow_run.cancelled" => some .cancelled
  | _ => none

/-- The events of a run in the order of `seq_in_run`. -/
def eventLog (rows : Contents) (workflowRunId : UUID) : List AuditEventModel :=
  (eventsOf rows.auditEvents workflowRunId).insertionSort
    fun first second => first.seqInRun ≤ second.seqInRun

/-- The state a fold over a log ends in. -/
def replayedState (log : List AuditEventModel) : WorkflowRunState :=
  log.foldl (fun state event => (stateSetBy event.eventType).getD state) .pending

/-- How many events of a log set the state. -/
def stateChanges (log : List AuditEventModel) : Nat :=
  log.countP fun event => (stateSetBy event.eventType).isSome

/-- Every stored run has the state and the version its log replays to. -/
def Replays (rows : Contents) : Prop :=
  ∀ run ∈ rows.workflowRuns,
    replayedState (eventLog rows run.workflowRunId) = run.state ∧
      stateChanges (eventLog rows run.workflowRunId) = run.version

theorem replayedState_concat (log : List AuditEventModel) (event : AuditEventModel) :
    replayedState (log ++ [event]) =
      (stateSetBy event.eventType).getD (replayedState log) := by
  rw [replayedState, List.foldl_append, List.foldl_cons, List.foldl_nil]
  rfl

theorem stateChanges_concat (log : List AuditEventModel) (event : AuditEventModel) :
    stateChanges (log ++ [event]) =
      stateChanges log + if (stateSetBy event.eventType).isSome then 1 else 0 := by
  rw [stateChanges, List.countP_append, List.countP_singleton]
  rfl

/-- A chain is listed in the order of its numbers. -/
theorem RunChain.insertionSort_eq {rows : List AuditEventModel} (chain : RunChain rows) :
    rows.insertionSort (fun first second => first.seqInRun ≤ second.seqInRun) = rows := by
  refine List.Pairwise.insertionSort_eq (List.pairwise_iff_getElem.mpr ?_)
  intro first second firstBound secondBound earlier
  rw [chain.seqInRun_getElem first firstBound, chain.seqInRun_getElem second secondBound]
  omega

/-! ### Recorded databases -/

/-- The events of every run are a chain that replays to the run, and are events of stored runs. -/
structure Recorded (rows : Contents) : Prop where
  chained : Chained rows.auditEvents
  known : ∀ event ∈ rows.auditEvents, ∃ run ∈ rows.workflowRuns,
    run.workflowRunId = event.workflowRunId
  state : ∀ run ∈ rows.workflowRuns,
    replayedState (eventsOf rows.auditEvents run.workflowRunId) = run.state
  version : ∀ run ∈ rows.workflowRuns,
    stateChanges (eventsOf rows.auditEvents run.workflowRunId) = run.version

theorem recorded_empty (documents : List UUID) :
    Recorded (Database.empty documents).contents where
  chained := chained_nil
  known _ stored := absurd stored List.not_mem_nil
  state _ stored := absurd stored List.not_mem_nil
  version _ stored := absurd stored List.not_mem_nil

theorem Recorded.replays {rows : Contents} (recorded : Recorded rows) : Replays rows := by
  intro run stored
  rw [eventLog, (recorded.chained run.workflowRunId).insertionSort_eq]
  exact ⟨recorded.state run stored, recorded.version run stored⟩

/-- A change of runs is the one an event of this type stands for: it sets the state the event names
and counts the version up, or keeps both when the event names none. -/
def ChangesAs (eventType : String) (change : WorkflowRunModel → WorkflowRunModel) : Prop :=
  ∀ row, (change row).state = (stateSetBy eventType).getD row.state ∧
    (change row).version = row.version + if (stateSetBy eventType).isSome then 1 else 0

/-- One event was appended, and the run it is about changed as the event says. -/
theorem Recorded.append {first second : Contents} {run : WorkflowRunModel} {call : AppendCall}
    {draw : EventDraw} {change : WorkflowRunModel → WorkflowRunModel} (recorded : Recorded first)
    (stored : run ∈ first.workflowRuns)
    (events : second.auditEvents = appendAuditEvent first.auditEvents call draw)
    (about : call.workflowRunId = run.workflowRunId)
    (runs : second.workflowRuns =
      updateRows (fun row => row.workflowRunId = call.workflowRunId) change first.workflowRuns)
    (keeps : ∀ row, (change row).workflowRunId = row.workflowRunId)
    (changes : ChangesAs call.eventType change) : Recorded second := by
  rw [about] at runs
  have log (workflowRunId : UUID) :=
    recorded.chained.eventsOf_appendAuditEvent call draw workflowRunId
  have identified (row : WorkflowRunModel) : (if decide (row.workflowRunId = run.workflowRunId)
      then change row else row).workflowRunId = row.workflowRunId := by
    split
    · exact keeps row
    · rfl
  constructor
  · rw [events]
    exact recorded.chained.appendAuditEvent call draw
  · intro event member
    rw [events] at member
    rw [runs]
    obtain ⟨old, oldStored, same⟩ : ∃ row ∈ first.workflowRuns,
        row.workflowRunId = event.workflowRunId := by
      rcases List.mem_append.mp member with old | new
      · exact recorded.known event old
      · rw [List.mem_singleton.mp new]
        exact ⟨run, stored, about.symm⟩
    exact ⟨_, mem_updateRows.mpr ⟨old, oldStored, rfl⟩, (identified old).trans same⟩
  · intro later laterStored
    rw [runs] at laterStored
    obtain ⟨row, rowStored, rfl⟩ := mem_updateRows.mp laterStored
    rw [identified, events, log, about]
    by_cases same : run.workflowRunId = row.workflowRunId
    · rw [if_pos same, if_pos (decide_eq_true same.symm), replayedState_concat,
        recorded.state row rowStored, (changes row).1]
      rfl
    · rw [if_neg same, if_neg (by simpa using Ne.symm same)]
      exact recorded.state row rowStored
  · intro later laterStored
    rw [runs] at laterStored
    obtain ⟨row, rowStored, rfl⟩ := mem_updateRows.mp laterStored
    rw [identified, events, log, about]
    by_cases same : run.workflowRunId = row.workflowRunId
    · rw [if_pos same, if_pos (decide_eq_true same.symm), stateChanges_concat,
        recorded.version row rowStored, (changes row).2]
      rfl
    · rw [if_neg same, if_neg (by simpa using Ne.symm same)]
      exact recorded.version row rowStored

/-- An event that names no state was appended, and no run changed. -/
theorem Recorded.note {first second : Contents} {run : WorkflowRunModel} {call : AppendCall}
    {draw : EventDraw} (recorded : Recorded first) (stored : run ∈ first.workflowRuns)
    (events : second.auditEvents = appendAuditEvent first.auditEvents call draw)
    (about : call.workflowRunId = run.workflowRunId)
    (silent : stateSetBy call.eventType = none)
    (runs : second.workflowRuns = first.workflowRuns) : Recorded second := by
  refine recorded.append stored events about (runs.trans (updateRows_id _ _).symm) (fun _ => rfl) ?_
  intro row
  rw [silent]
  exact ⟨rfl, rfl⟩

/-- Only tables other than those of runs and events changed. -/
theorem Recorded.congr {first second : Contents} (recorded : Recorded first)
    (runs : second.workflowRuns = first.workflowRuns)
    (events : second.auditEvents = first.auditEvents) : Recorded second where
  chained := events ▸ recorded.chained
  known := by
    rw [events, runs]
    exact recorded.known
  state := by
    rw [events, runs]
    exact recorded.state
  version := by
    rw [events, runs]
    exact recorded.version

/-! ### The outcomes of a step -/

variable {registry : WorkflowRegistry} {db next : Database} {draws : Draws}
  {state : WorkflowRunState} {run workflowRun : WorkflowRunModel} {steps : List StepModel}
  {currentStep : StepModel} {stepResult : StepResult} {reasonCode : String} {now : Timestamp}
  {newId : UUID} {random : UnitDraw} {event : EventDraw}

theorem handleSucceeded_recorded (recorded : Recorded db.contents)
    (stored : run ∈ db.contents.workflowRuns)
    (same : workflowRun.workflowRunId = run.workflowRunId)
    (ran : handleSucceeded registry db workflowRun steps currentStep now newId event =
      .ok (next, state)) : Recorded next.contents := by
  rcases handleSucceeded_ok ran with ⟨-, -, contents⟩ | ⟨successor, -, -, -, contents⟩
  · rw [contents]
    exact recorded.append stored rfl same rfl (fun _ => rfl) fun _ => ⟨rfl, rfl⟩
  · rw [contents]
    exact recorded.append stored rfl same rfl (fun _ => rfl) fun _ => ⟨rfl, rfl⟩

theorem createEscalation_recorded (recorded : Recorded db.contents)
    (stored : workflowRun ∈ db.contents.workflowRuns)
    (ran : createEscalation db workflowRun currentStep stepResult reasonCode now newId event =
      .ok (next, state)) : Recorded next.contents := by
  obtain ⟨-, -, contents⟩ := createEscalation_ok ran
  rw [contents]
  exact recorded.append stored rfl rfl rfl (fun _ => rfl) fun _ => ⟨rfl, rfl⟩

theorem handleFailedTerminal_recorded (recorded : Recorded db.contents)
    (stored : workflowRun ∈ db.contents.workflowRuns)
    (ran : handleFailedTerminal db workflowRun currentStep stepResult now newId event =
      .ok (next, state)) : Recorded next.contents := by
  rcases handleFailedTerminal_ok ran with ⟨-, ran⟩ | ⟨-, -, contents⟩
  · have marked : Recorded
        (db.updateStep currentStep.stepId (StepModel.failTerminal now)).contents :=
      recorded.congr rfl rfl
    exact createEscalation_recorded marked stored ran
  · rw [contents]
    exact recorded.append stored rfl rfl rfl (fun _ => rfl) fun _ => ⟨rfl, rfl⟩

theorem handleFailedRetryable_recorded (recorded : Recorded db.contents)
    (stored : workflowRun ∈ db.contents.workflowRuns)
    (ran : handleFailedRetryable registry db workflowRun currentStep stepResult now newId random
      event = .ok (next, state)) : Recorded next.contents := by
  rcases handleFailedRetryable_ok ran with ⟨-, -, -, contents⟩ | ⟨-, ran⟩
  · rw [contents]
    exact recorded.note stored rfl rfl rfl rfl
  · exact handleFailedTerminal_recorded recorded stored ran

/-! ### Calls -/

/-- A start adds a run of version one with the event that says so. -/
theorem started_recorded {new : NewRun} (recorded : Recorded db.contents)
    (started : Started db next new) (described : new.Described registry) :
    Recorded next.contents := by
  have log (workflowRunId : UUID) :=
    recorded.chained.eventsOf_appendAuditEvent new.call new.draw workflowRunId
  have unlogged : eventsOf db.contents.auditEvents new.run.workflowRunId = [] := by
    refine List.filter_eq_nil_iff.mpr fun other member same => ?_
    obtain ⟨run, stored, ofRun⟩ := recorded.known other member
    exact started.fresh run stored (ofRun.trans (of_decide_eq_true same))
  rw [started.contents]
  refine ⟨recorded.chained.appendAuditEvent new.call new.draw, ?_, ?_, ?_⟩
  · intro other member
    rcases List.mem_append.mp member with old | added
    · obtain ⟨run, stored, ofRun⟩ := recorded.known other old
      exact ⟨run, List.mem_append_left _ stored, ofRun⟩
    · rw [List.mem_singleton.mp added]
      exact ⟨new.run, List.mem_append_right _ List.mem_cons_self, described.about.symm⟩
  · intro run stored
    rw [log, described.about]
    rcases List.mem_append.mp stored with old | added
    · rw [if_neg (Ne.symm (started.fresh run old))]
      exact recorded.state run old
    · rw [List.mem_singleton.mp added, if_pos rfl, unlogged, replayedState_concat,
        show (nextAuditEvent _ new.call new.draw).eventType = _ from described.started,
        started.running]
      rfl
  · intro run stored
    rw [log, described.about]
    rcases List.mem_append.mp stored with old | added
    · rw [if_neg (Ne.symm (started.fresh run old))]
      exact recorded.version run old
    · rw [List.mem_singleton.mp added, if_pos rfl, unlogged, stateChanges_concat,
        show (nextAuditEvent _ new.call new.draw).eventType = _ from described.started,
        described.version]
      rfl

theorem advanceWorkflow_recorded {workflowRunId : UUID} {completedStepName : String}
    (recorded : Recorded db.contents)
    (ran : advanceWorkflow registry db draws workflowRunId completedStepName stepResult =
      .ok (next, state)) : Recorded next.contents := by
  obtain ⟨workflowRun, currentStep, found, -, handled⟩ := advanceWorkflow_ok ran
  have stored : workflowRun ∈ db.contents.workflowRuns := List.mem_of_find?_eq_some found
  cases status : stepResult.status with
  | succeeded =>
    rw [status] at handled
    exact handleSucceeded_recorded recorded stored rfl handled
  | failedRetryable =>
    rw [status] at handled
    exact handleFailedRetryable_recorded recorded stored handled
  | failedTerminal =>
    rw [status] at handled
    exact handleFailedTerminal_recorded recorded stored handled
  | escalate =>
    rw [status] at handled
    exact createEscalation_recorded recorded stored handled

theorem resumeAfterEscalation_recorded {escalationId : UUID} {resolutionPayload : JsonObject}
    {actor : String} (recorded : Recorded db.contents)
    (ran : resumeAfterEscalation registry db draws escalationId resolutionPayload actor =
      .ok (next, state)) : Recorded next.contents := by
  obtain ⟨escalation, currentStep, workflowRun, -, -, found, -, resumed, contents, ran⟩ :=
    resumeAfterEscalation_ok ran
  have stored : workflowRun ∈ db.contents.workflowRuns := List.mem_of_find?_eq_some found
  have between : Recorded resumed.contents := by
    rw [contents]
    exact recorded.append stored rfl rfl rfl (fun _ => rfl) fun _ => ⟨rfl, rfl⟩
  have kept : WorkflowRunModel.resume (draws.now 0) workflowRun ∈
      resumed.contents.workflowRuns := by
    rw [contents]
    exact mem_updateRows_of_selects stored (decide_eq_true rfl)
  exact handleSucceeded_recorded between kept rfl ran

theorem OrchestratorCall.step_recorded (registry : WorkflowRegistry) (db : Database)
    (call : OrchestratorCall × Draws) (recorded : Recorded db.contents) :
    Recorded (OrchestratorCall.step registry db call).contents := by
  refine commit_induction (fun next => Recorded next.contents) recorded fun next ran => ?_
  obtain ⟨made, draws⟩ := call
  cases made with
  | startWorkflowRun workflowName workflowVersion documentIds actor correlationId deadline =>
    obtain ⟨workflowRunId, ran⟩ := perform_start ran
    obtain ⟨new, started, described, -⟩ := startWorkflowRun_writes ran
    exact started_recorded recorded started described
  | advanceWorkflow workflowRunId completedStepName stepResult =>
    obtain ⟨state, ran⟩ := perform_advance ran
    exact advanceWorkflow_recorded recorded ran
  | resumeAfterEscalation escalationId resolutionPayload actor =>
    obtain ⟨state, ran⟩ := perform_resume ran
    exact resumeAfterEscalation_recorded recorded ran
  | cancelWorkflow workflowRunId actor reason =>
    obtain ⟨workflowRun, found, -, contents⟩ := cancelWorkflow_ok ran
    obtain rfl := Database.getWorkflowRun_identified found
    rw [contents]
    exact recorded.append (List.mem_of_find?_eq_some found) rfl rfl rfl (fun _ => rfl)
      fun _ => ⟨rfl, rfl⟩

/-- After every sequence of orchestrator calls the audit log of each run replays to its stored state
and version. A call that sets a state counts the version up and appends one event that names the
state; any other call appends none that names one. -/
theorem replay_rebuilds (registry : WorkflowRegistry) (documents : List UUID)
    (calls : List (OrchestratorCall × Draws)) :
    Replays (Transition.run (OrchestratorCall.step registry) (.empty documents) calls).contents :=
  (Transition.run_invariant_always (OrchestratorCall.step registry)
    (fun db => Recorded db.contents) (OrchestratorCall.step_recorded registry) (.empty documents)
    (recorded_empty documents) calls).replays

end InsuranceOps
