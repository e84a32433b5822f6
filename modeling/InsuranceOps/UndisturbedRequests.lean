/-
This file proves that a request whose statements no other request's statements
come between does what its route does in one transaction: the routes as they
are modelled on the database are the undisturbed runs of the requests as they
are modelled by their statements.
-/

import InsuranceOps.Operations
import InsuranceOps.Requests

namespace InsuranceOps

open RowLocks Relational WorkflowOrchestrator

/-! ### The rows of a database -/

/-- The run with its events as a database has them. -/
def Database.auditedRun (db : Database) (workflowRunId : UUID) : Option AuditedRun :=
  (db.getWorkflowRun workflowRunId).map fun run =>
    ⟨run, eventsOf db.contents.auditEvents workflowRunId⟩

/-- The attempt of a step with the number of a human resolution. -/
def Database.humanAttempt (db : Database) (stepId : UUID) : Option StepAttemptModel :=
  db.contents.stepAttempts.find? fun row => row.stepId = stepId ∧ row.stepAttemptNumber = 99

/-- The rows of a database before any of the requests. -/
def RequestState.ofDatabase (apiKeys : UUID → Option ApiKeyModel) (db : Database)
    (phase : Nat → RequestPhase) : RequestState :=
  .quiet apiKeys db.getEscalationCase db.humanAttempt db.auditedRun phase

/-- A request authenticates. -/
def authenticates (index : Nat) (now : Timestamp) : List (Nat × RequestAction) :=
  [(index, .statement now 0), (index, .statement now 0)]

/-- A request that has changed its rows appends its event and commits. -/
def audits (index : Nat) (draw : EventDraw) : List (Nat × RequestAction) :=
  [(index, .statement 0 0), (index, .statement 0 0),
    (index, .statement draw.occurredAt draw.auditEventId), (index, .statement 0 0)]

/-- A request runs so many statements, all with the same draws. -/
def performs (count index : Nat) (now : Timestamp) (id : UUID) : List (Nat × RequestAction) :=
  List.replicate count (index, .statement now id)

/-! ### The statements of one request -/

section Undisturbed

open Transition

variable {apiKeys : UUID → Option ApiKeyModel} {cases : UUID → Option EscalationCaseModel}
  {humanAttempts : UUID → Option StepAttemptModel} {runs : UUID → Option AuditedRun}
  {phase : Nat → RequestPhase} {index : Nat} {apiKeyId : UUID} {key : ApiKeyModel}
  {now : Timestamp} {draw : EventDraw}

/-- What a claim leaves when no other request's statements come between its own. -/
theorem run_claimStatements {escalationId : UUID} {esc : EscalationCaseModel} {row : AuditedRun}
    (received : phase index = .received apiKeyId (.claim escalationId))
    (stored : apiKeys apiKeyId = some key) (usable : key.usable now = true)
    (admitted : key.role ∈ ["operator", "supervisor"])
    (caseStored : cases escalationId = some esc) (opened : esc.state = .opened)
    (runStored : runs esc.workflowRunId = some row) :
    run RequestState.step (.quiet apiKeys cases humanAttempts runs phase)
        (authenticates index now ++ performs 2 index now 0 ++ audits index draw) =
      .quiet (Function.update apiKeys apiKeyId (some (key.touch now)))
        (Function.update cases escalationId
          (some (esc.claim (Served.actor ⟨apiKeyId, key⟩) now)))
        humanAttempts
        (Function.update runs esc.workflowRunId (some { row with events := row.events ++
          [nextAuditEvent (getLatestForRun row.events esc.workflowRunId)
            (claimedEvent esc.workflowRunId escalationId (Served.actor ⟨apiKeyId, key⟩))
            draw] }))
        (Function.update phase index (.answered 200)) := by
  have role : (Served.principal ⟨apiKeyId, key⟩).role ∈ ["operator", "supervisor"] := admitted
  simp [authenticates, performs, audits, RequestState.step, RequestState.perform,
    RequestState.quiet, RequestState.proceed, RequestState.updateKey, RequestState.putKey,
    RequestState.putCase, RequestState.putRun, RequestState.updateCase, RequestState.updateRun,
    RequestState.begin, RequestState.claim, RequestState.commit, Cell.visible, Cell.free,
    Cell.write, Cell.change, Cell.commit_update, received, stored, usable, role, caseStored, opened,
    runStored, CaseRequest.roles, claimedEvent]

/-- What a resolution leaves when no other request's statements come between its own. -/
theorem run_resolveStatements {escalationId stepAttemptId : UUID} {body : ResolveRequest}
    {esc : EscalationCaseModel} {row : AuditedRun}
    (received : phase index = .received apiKeyId (.decide escalationId (.resolve body)))
    (stored : apiKeys apiKeyId = some key) (usable : key.usable now = true)
    (admitted : key.role ∈ ["operator", "supervisor"])
    (caseStored : cases escalationId = some esc) (claimed : esc.state = .claimed)
    (held : esc.claimedBy = some (Served.actor ⟨apiKeyId, key⟩))
    (free : humanAttempts esc.stepId = none)
    (runStored : runs esc.workflowRunId = some row) :
    run RequestState.step (.quiet apiKeys cases humanAttempts runs phase)
        (authenticates index now ++
          performs (if row.run.state = .awaitingHuman then 5 else 4) index now stepAttemptId ++
          audits index draw) =
      .quiet (Function.update apiKeys apiKeyId (some (key.touch now)))
        (Function.update cases escalationId
          (some (esc.decide .resolved (Served.actor ⟨apiKeyId, key⟩)
            (Decision.resolve body).payload now)))
        (Function.update humanAttempts esc.stepId
          (some (humanAttempt stepAttemptId esc.stepId 99 now)))
        (Function.update runs esc.workflowRunId (some
          { run := if row.run.state = .awaitingHuman then row.run.resumeWaiting now else row.run
            events := row.events ++ [nextAuditEvent (getLatestForRun row.events esc.workflowRunId)
              ((Decision.resolve body).call escalationId esc stepAttemptId
                (Served.actor ⟨apiKeyId, key⟩)) draw] }))
        (Function.update phase index (.answered 200)) := by
  have role : (Served.principal ⟨apiKeyId, key⟩).role ∈ ["operator", "supervisor"] := admitted
  cases state : row.run.state
  all_goals
    simp [authenticates, performs, audits, RequestState.step, RequestState.perform,
      RequestState.quiet, RequestState.proceed, RequestState.updateKey, RequestState.putKey,
      RequestState.putCase, RequestState.putHumanAttempt, RequestState.putRun,
      RequestState.updateCase, RequestState.updateRun, RequestState.begin, RequestState.loadCase,
      RequestState.loadRun, RequestState.insertHumanAttempt, RequestState.commit, Decision.takes,
      Decision.writeRun, Decision.state, Decision.call, Making.call, humanAttempt, Cell.visible,
      Cell.free, Cell.write, Cell.change, Cell.commit_update, received, stored, usable, role,
      caseStored, claimed, held, free, runStored, state, CaseRequest.roles]

/-- What a rejection leaves when no other request's statements come between its own. -/
theorem run_rejectStatements {escalationId stepAttemptId : UUID} {body : RejectRequest}
    {esc : EscalationCaseModel} {row : AuditedRun}
    (received : phase index = .received apiKeyId (.decide escalationId (.reject body)))
    (stored : apiKeys apiKeyId = some key) (usable : key.usable now = true)
    (admitted : key.role ∈ ["operator", "supervisor"])
    (caseStored : cases escalationId = some esc) (claimed : esc.state = .claimed)
    (held : esc.claimedBy = some (Served.actor ⟨apiKeyId, key⟩))
    (runStored : runs esc.workflowRunId = some row) :
    run RequestState.step (.quiet apiKeys cases humanAttempts runs phase)
        (authenticates index now ++
          performs (if row.run.state = .running ∨ row.run.state = .awaitingHuman then 5 else 4)
            index now stepAttemptId ++ audits index draw) =
      .quiet (Function.update apiKeys apiKeyId (some (key.touch now)))
        (Function.update cases escalationId
          (some (esc.decide .rejected (Served.actor ⟨apiKeyId, key⟩)
            (Decision.reject body).payload now)))
        humanAttempts
        (Function.update runs esc.workflowRunId (some
          { run := if row.run.state = .running ∨ row.run.state = .awaitingHuman then
              row.run.rejectCase body.notes now else row.run
            events := row.events ++ [nextAuditEvent (getLatestForRun row.events esc.workflowRunId)
              ((Decision.reject body).call escalationId esc stepAttemptId
                (Served.actor ⟨apiKeyId, key⟩)) draw] }))
        (Function.update phase index (.answered 200)) := by
  have role : (Served.principal ⟨apiKeyId, key⟩).role ∈ ["operator", "supervisor"] := admitted
  cases state : row.run.state
  all_goals
    simp [authenticates, performs, audits, RequestState.step, RequestState.perform,
      RequestState.quiet, RequestState.proceed, RequestState.updateKey, RequestState.putKey,
      RequestState.putCase, RequestState.putRun, RequestState.updateCase, RequestState.updateRun,
      RequestState.begin, RequestState.loadCase, RequestState.loadRun, RequestState.commit,
      Decision.takes, Decision.writeRun, Decision.state, Decision.call, Making.call, Cell.visible,
      Cell.free, Cell.write, Cell.change, Cell.commit_update, received, stored, usable, role,
      caseStored, claimed, held, runStored, state, CaseRequest.roles]

/-- What a cancel request leaves when no other request's statements come between its own. -/
theorem run_cancelStatements {workflowRunId : UUID} {body : CancelRequest} {row : AuditedRun}
    (received : phase index = .received apiKeyId (.cancel workflowRunId body))
    (stored : apiKeys apiKeyId = some key) (usable : key.usable now = true)
    (admitted : key.role = "supervisor") (runStored : runs workflowRunId = some row)
    (can : cancellable row.run.state = true) :
    run RequestState.step (.quiet apiKeys cases humanAttempts runs phase)
        (authenticates index now ++ performs 2 index now 0 ++ audits index draw) =
      .quiet (Function.update apiKeys apiKeyId (some (key.touch now))) cases humanAttempts
        (Function.update runs workflowRunId (some
          { run := row.run.cancel now
            events := row.events ++ [nextAuditEvent (getLatestForRun row.events workflowRunId)
              (cancelRequestEvent workflowRunId body (Served.actor ⟨apiKeyId, key⟩)) draw] }))
        (Function.update phase index (.answered 200)) := by
  have role : (Served.principal ⟨apiKeyId, key⟩).role = "supervisor" := admitted
  simp [authenticates, performs, audits, RequestState.step, RequestState.perform,
    RequestState.quiet, RequestState.proceed, RequestState.updateKey, RequestState.putKey,
    RequestState.putRun, RequestState.updateRun, RequestState.begin, RequestState.loadCancelled,
    RequestState.cancel, RequestState.commit, Cell.visible, Cell.free, Cell.write, Cell.change,
    Cell.commit_update, received, stored, usable, role, runStored, can, CaseRequest.roles,
    cancelRequestEvent]

end Undisturbed

/-! ### The routes -/

/-- The request as its route takes it. -/
def CaseRequest.route : CaseRequest → RouteRequest
  | .claim escalationId => .claimEscalation escalationId
  | .decide escalationId (.resolve body) => .resolveEscalation escalationId body
  | .decide escalationId (.reject body) => .rejectEscalation escalationId body
  | .cancel workflowRunId body => .cancelWorkflowRun workflowRunId body

section Rows

variable {db next : Database}

/-- The runs after a run that meets a condition changed. -/
theorem getWorkflowRun_updateFound {workflowRunId : UUID} {run : WorkflowRunModel}
    (meets : WorkflowRunModel → Prop) [DecidablePred meets]
    (change : WorkflowRunModel → WorkflowRunModel)
    (keeps : ∀ row, (change row).workflowRunId = row.workflowRunId)
    (found : db.getWorkflowRun workflowRunId = some run)
    (rows : next.contents.workflowRuns = updateRows
      (fun row => row.workflowRunId = workflowRunId ∧ meets row) change
      db.contents.workflowRuns) :
    next.getWorkflowRun = Function.update db.getWorkflowRun workflowRunId
      (some (if meets run then change run else run)) := by
  rw [updateRows_and_of_find? (fun row : WorkflowRunModel => row.workflowRunId)
    db.workflowRuns_distinct found] at rows
  rw [show next.getWorkflowRun = fun id => next.contents.workflowRuns.find?
    fun row => row.workflowRunId = id from rfl, rows]
  by_cases met : meets run
  · rw [if_pos met, if_pos met]
    exact find?_updateRows_key (fun row : WorkflowRunModel => row.workflowRunId) change keeps found
  · rw [if_neg met, if_neg met]
    exact (Function.update_eq_self_iff.mpr found.symm).symm

/-- The runs with their events after one run changed and got an event. -/
theorem auditedRun_appended {run changed : WorkflowRunModel} {call : AppendCall} {draw : EventDraw}
    (found : db.getWorkflowRun call.workflowRunId = some run)
    (runs : next.getWorkflowRun =
      Function.update db.getWorkflowRun call.workflowRunId (some changed))
    (events : next.contents.auditEvents = appendAuditEvent db.contents.auditEvents call draw) :
    ∃ events, db.auditedRun call.workflowRunId = some ⟨run, events⟩ ∧
      next.auditedRun = Function.update db.auditedRun call.workflowRunId (some
        { run := changed
          events := events ++
            [nextAuditEvent (getLatestForRun events call.workflowRunId) call draw] }) := by
  refine ⟨eventsOf db.contents.auditEvents call.workflowRunId, ?_, ?_⟩
  · rw [Database.auditedRun, found, Option.map_some]
  · funext workflowRunId
    rw [Database.auditedRun, runs, events, eventsOf_append_nextAuditEvent]
    by_cases same : workflowRunId = call.workflowRunId
    · rw [if_pos same, same, Function.update_self, Function.update_self, Option.map_some]
    · rw [if_neg same, Function.update_of_ne same, Function.update_of_ne same]
      rfl

/-- The cases after one changed. -/
theorem getEscalationCase_updated {escalationId : UUID} {esc : EscalationCaseModel}
    (change : EscalationCaseModel → EscalationCaseModel)
    (keeps : ∀ row, (change row).escalationId = row.escalationId)
    (found : db.getEscalationCase escalationId = some esc)
    (rows : next.contents.escalationCases = updateRows
      (fun row => row.escalationId = escalationId) change db.contents.escalationCases) :
    next.getEscalationCase =
      Function.update db.getEscalationCase escalationId (some (change esc)) := by
  rw [show next.getEscalationCase = fun id => next.contents.escalationCases.find?
    fun row => row.escalationId = id from rfl, rows]
  exact find?_updateRows_key (fun row : EscalationCaseModel => row.escalationId) change keeps found

/-- The attempts of human resolutions after one was inserted. -/
theorem humanAttempt_inserted {row : StepAttemptModel} (number : row.stepAttemptNumber = 99)
    (admitted : Database.AttemptAdmitted db row)
    (rows : next.contents.stepAttempts = db.contents.stepAttempts ++ [row]) :
    db.humanAttempt row.stepId = none ∧
      next.humanAttempt = Function.update db.humanAttempt row.stepId (some row) := by
  have unused : db.humanAttempt row.stepId = none := by
    refine List.find?_eq_none.mpr fun other stored => ?_
    rw [decide_eq_true_eq]
    rintro ⟨same, taken⟩
    exact admitted.numbered other stored same (taken.trans number.symm)
  refine ⟨unused, funext fun stepId => ?_⟩
  rw [Database.humanAttempt, rows, List.find?_append]
  by_cases same : stepId = row.stepId
  · rw [same, Function.update_self, show db.contents.stepAttempts.find? _ = none from unused,
      Option.none_or]
    exact List.find?_cons_of_pos (decide_eq_true ⟨rfl, number⟩)
  · rw [Function.update_of_ne same, List.find?_cons_of_neg, List.find?_nil, Option.or_none]
    · rfl
    · rw [decide_eq_true_eq]
      exact fun both => same both.1.symm

theorem humanAttempt_of_stepAttempts
    (rows : next.contents.stepAttempts = db.contents.stepAttempts) :
    next.humanAttempt = db.humanAttempt := by
  funext stepId
  rw [Database.humanAttempt, rows]
  rfl

end Rows

section Routes

open Transition

variable {registry : WorkflowRegistry} {apiKeys : UUID → Option ApiKeyModel}
  {db next : Database} {draws : Draws} {phase : Nat → RequestPhase} {index : Nat}
  {apiKeyId : UUID} {key : ApiKeyModel}

/-- A request that has brought one request's transaction to its commit. -/
def Serves (apiKeys : UUID → Option ApiKeyModel) (db next : Database)
    (phase : Nat → RequestPhase) (index : Nat) (apiKeyId : UUID) (key : ApiKeyModel)
    (now : Timestamp) : Prop :=
  ∃ labels : List (Nat × RequestAction), (∀ label ∈ labels, label.1 = index) ∧
    run RequestState.step (.ofDatabase apiKeys db phase) labels =
      .ofDatabase (Function.update apiKeys apiKeyId (some (key.touch now))) next
        (Function.update phase index (.answered 200))

theorem labels_of_index (count : Nat) (now : Timestamp) (id : UUID) (draw : EventDraw) :
    ∀ label ∈ authenticates index now ++ performs count index now id ++ audits index draw,
      label.1 = index := by
  intro label member
  simp only [authenticates, performs, audits, List.mem_append, List.mem_cons, List.not_mem_nil,
    or_false, List.mem_replicate] at member
  aesop

theorem serves_claim {escalationId : UUID}
    (received : phase index = .received apiKeyId (.claim escalationId))
    (stored : apiKeys apiKeyId = some key) (usable : key.usable (draws.now 0) = true)
    (ran : claimEscalation db draws escalationId (key.principal apiKeyId) = .ok next) :
    Serves apiKeys db next phase index apiKeyId key (draws.now 0) := by
  obtain ⟨_, admitted, ran⟩ := Fallible.bind_eq_ok.mp ran
  obtain ⟨found, lookup, ran⟩ := Fallible.bind_eq_ok.mp ran
  have lookup := orRaise_ok.mp lookup
  by_cases opened : found.state = .opened
  · rw [if_pos opened] at ran
    have contents := Database.appendAuditEvent_ok ran
    obtain ⟨run, runFound⟩ := Database.appendAuditEvent_stored ran
    rw [Database.contents_updateEscalationCase] at contents
    have runFound : db.getWorkflowRun found.workflowRunId = some run := runFound
    have runs : next.getWorkflowRun = Function.update db.getWorkflowRun found.workflowRunId
        (some run) := by
      rw [show next.getWorkflowRun = db.getWorkflowRun from funext fun id => congrArg
        (fun rows => rows.find? fun row : WorkflowRunModel => row.workflowRunId = id)
        (congrArg (fun stored => stored.workflowRuns) contents)]
      exact (Function.update_eq_self_iff.mpr runFound.symm).symm
    obtain ⟨events, audited, next_audited⟩ := auditedRun_appended runFound runs
      (congrArg (fun stored => stored.auditEvents) contents)
    have cases := getEscalationCase_updated
      (EscalationCaseModel.claim (Served.actor ⟨apiKeyId, key⟩) (draws.now 0))
      (fun _ => rfl) lookup (congrArg (fun stored => stored.escalationCases) contents)
    have attempts := humanAttempt_of_stepAttempts
      (congrArg (fun stored => stored.stepAttempts) contents)
    refine ⟨_, labels_of_index 2 (draws.now 0) 0 (draws.event 0 1), ?_⟩
    refine (run_claimStatements received stored usable (requiresRole_ok admitted) lookup opened
      audited).trans ?_
    rw [RequestState.ofDatabase, cases, next_audited, attempts]
    rfl
  · rw [if_neg opened] at ran
    cases ran

/-- A run whose state a route may change is stored before when it is stored after. -/
theorem getWorkflowRun_of_updateFound {workflowRunId : UUID} {after : WorkflowRunModel}
    {meets : WorkflowRunModel → Prop} [DecidablePred meets]
    {change : WorkflowRunModel → WorkflowRunModel}
    {keeps : ∀ row, (change row).workflowRunId = row.workflowRunId}
    (found : Database.getWorkflowRun (match db.getWorkflowRun workflowRunId with
      | some run => if meets run then db.updateWorkflowRun workflowRunId change keeps else db
      | none => db) workflowRunId = some after) :
    ∃ run, db.getWorkflowRun workflowRunId = some run := by
  cases before : db.getWorkflowRun workflowRunId with
  | some run => exact ⟨run, rfl⟩
  | none =>
    rw [before] at found
    dsimp only at found
    rw [before] at found
    cases found

theorem serves_resolve {escalationId : UUID} {body : ResolveRequest}
    (received : phase index = .received apiKeyId (.decide escalationId (.resolve body)))
    (stored : apiKeys apiKeyId = some key) (usable : key.usable (draws.now 0) = true)
    (ran : resolveEscalation db draws escalationId body (key.principal apiKeyId) = .ok next) :
    Serves apiKeys db next phase index apiKeyId key (draws.now 0) := by
  obtain ⟨_, admitted, ran⟩ := Fallible.bind_eq_ok.mp ran
  obtain ⟨esc, checked, ran⟩ := Fallible.bind_eq_ok.mp ran
  obtain ⟨attempted, inserted, ran⟩ := Fallible.bind_eq_ok.mp ran
  obtain ⟨lookup, claimed, held⟩ := claimedCase_ok checked
  obtain ⟨attemptAdmitted, attemptedContents⟩ := Database.insertStepAttempt_ok inserted
  have contents := Database.appendAuditEvent_ok ran
  obtain ⟨resumed, resumedFound⟩ := Database.appendAuditEvent_stored ran
  simp only [resumeWaitingRun_contents, attemptedContents, Database.contents_updateEscalationCase]
    at contents
  obtain ⟨run, attemptedFound⟩ := getWorkflowRun_of_updateFound resumedFound
  have runFound : db.getWorkflowRun esc.workflowRunId = some run := by
    rw [← attemptedFound]
    exact congrArg (fun stored : Contents => stored.workflowRuns.find? fun row =>
      row.workflowRunId = esc.workflowRunId) attemptedContents.symm
  have runs := getWorkflowRun_updateFound (fun row => row.state = .awaitingHuman)
    (WorkflowRunModel.resumeWaiting (draws.now 0)) (fun _ => rfl) runFound
    (congrArg (fun stored => stored.workflowRuns) contents)
  obtain ⟨events, audited, next_audited⟩ := auditedRun_appended runFound runs
    (congrArg (fun stored => stored.auditEvents) contents)
  have cases := getEscalationCase_updated (EscalationCaseModel.decide .resolved
      (Served.actor ⟨apiKeyId, key⟩) (Decision.resolve body).payload (draws.now 0))
    (fun _ => rfl) lookup (congrArg (fun stored => stored.escalationCases) contents)
  obtain ⟨free, attempts⟩ := humanAttempt_inserted rfl attemptAdmitted
    (congrArg (fun stored => stored.stepAttempts) contents)
  refine ⟨_, labels_of_index (if run.state = .awaitingHuman then 5 else 4) (draws.now 0)
    (draws.uuid4 0) (draws.event 0 1), ?_⟩
  refine (run_resolveStatements received stored usable (requiresRole_ok admitted) lookup claimed
    held free audited).trans ?_
  rw [RequestState.ofDatabase, cases, next_audited, attempts]
  rfl

theorem serves_reject {escalationId : UUID} {body : RejectRequest}
    (received : phase index = .received apiKeyId (.decide escalationId (.reject body)))
    (stored : apiKeys apiKeyId = some key) (usable : key.usable (draws.now 0) = true)
    (ran : rejectEscalation db draws escalationId body (key.principal apiKeyId) = .ok next) :
    Serves apiKeys db next phase index apiKeyId key (draws.now 0) := by
  obtain ⟨_, admitted, ran⟩ := Fallible.bind_eq_ok.mp ran
  obtain ⟨esc, checked, ran⟩ := Fallible.bind_eq_ok.mp ran
  obtain ⟨lookup, claimed, held⟩ := claimedCase_ok checked
  have contents := Database.appendAuditEvent_ok ran
  obtain ⟨failed, failedFound⟩ := Database.appendAuditEvent_stored ran
  simp only [failOpenRun_contents, Database.contents_updateEscalationCase] at contents
  obtain ⟨run, decidedFound⟩ := getWorkflowRun_of_updateFound failedFound
  have runFound : db.getWorkflowRun esc.workflowRunId = some run := decidedFound
  have runs := getWorkflowRun_updateFound
    (fun row => row.state = .running ∨ row.state = .awaitingHuman)
    (WorkflowRunModel.rejectCase body.notes (draws.now 0)) (fun _ => rfl) runFound
    (congrArg (fun stored => stored.workflowRuns) contents)
  obtain ⟨events, audited, next_audited⟩ := auditedRun_appended runFound runs
    (congrArg (fun stored => stored.auditEvents) contents)
  have cases := getEscalationCase_updated (EscalationCaseModel.decide .rejected
      (Served.actor ⟨apiKeyId, key⟩) (Decision.reject body).payload (draws.now 0))
    (fun _ => rfl) lookup (congrArg (fun stored => stored.escalationCases) contents)
  have attempts := humanAttempt_of_stepAttempts
    (congrArg (fun stored => stored.stepAttempts) contents)
  refine ⟨_, labels_of_index
    (if run.state = .running ∨ run.state = .awaitingHuman then 5 else 4) (draws.now 0) 0
    (draws.event 0 1), ?_⟩
  refine (run_rejectStatements received stored usable (requiresRole_ok admitted) lookup claimed
    held audited).trans ?_
  rw [RequestState.ofDatabase, cases, next_audited, attempts]
  rfl

theorem serves_cancel {workflowRunId : UUID} {body : CancelRequest}
    (received : phase index = .received apiKeyId (.cancel workflowRunId body))
    (stored : apiKeys apiKeyId = some key) (usable : key.usable (draws.now 0) = true)
    (ran : cancelWorkflowRun db draws workflowRunId body (key.principal apiKeyId) = .ok next) :
    Serves apiKeys db next phase index apiKeyId key (draws.now 0) := by
  obtain ⟨_, admitted, ran⟩ := Fallible.bind_eq_ok.mp ran
  obtain ⟨run, found, ran⟩ := Fallible.bind_eq_ok.mp ran
  have found := orRaise_ok.mp found
  by_cases can : cancellable run.state = true
  · rw [if_pos can] at ran
    have contents := Database.appendAuditEvent_ok ran
    rw [Database.contents_updateWorkflowRun] at contents
    have runs : next.getWorkflowRun = Function.update db.getWorkflowRun workflowRunId
        (some (run.cancel (draws.now 0))) := by
      rw [show next.getWorkflowRun = fun id => next.contents.workflowRuns.find?
        fun row => row.workflowRunId = id from rfl, contents]
      exact find?_updateRows_key (fun row : WorkflowRunModel => row.workflowRunId) _
        (fun _ => rfl) found
    obtain ⟨events, audited, next_audited⟩ := auditedRun_appended found runs
      (congrArg (fun stored => stored.auditEvents) contents)
    have cases : next.getEscalationCase = db.getEscalationCase := funext fun id => congrArg
      (fun rows => rows.find? fun row : EscalationCaseModel => row.escalationId = id)
      (congrArg (fun stored => stored.escalationCases) contents)
    have attempts := humanAttempt_of_stepAttempts
      (congrArg (fun stored => stored.stepAttempts) contents)
    refine ⟨_, labels_of_index 2 (draws.now 0) 0 (draws.event 0 1), ?_⟩
    refine (run_cancelStatements received stored usable
      (List.mem_singleton.mp (requiresRole_ok admitted)) audited can).trans ?_
    rw [RequestState.ofDatabase, cases, next_audited, attempts]
    rfl
  · rw [if_neg can] at ran
    cases ran

/-- A request no other one interferes with does what its route does. -/
theorem serves_of_perform {request : CaseRequest}
    (received : phase index = .received apiKeyId request)
    (stored : apiKeys apiKeyId = some key) (usable : key.usable (draws.now 0) = true)
    (ran : request.route.perform registry db draws (key.principal apiKeyId) = .ok next) :
    Serves apiKeys db next phase index apiKeyId key (draws.now 0) := by
  cases request with
  | claim escalationId => exact serves_claim received stored usable ran
  | cancel workflowRunId body => exact serves_cancel received stored usable ran
  | decide escalationId decision =>
    cases decision with
    | resolve body => exact serves_resolve received stored usable ran
    | reject body => exact serves_reject received stored usable ran

end Routes

end InsuranceOps
