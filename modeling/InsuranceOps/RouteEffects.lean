/-
This file says what each API route does to the rows when it succeeds. Creating
a run writes what the orchestrator's start writes; the other routes change one
run or one case, and the guard that let them through is part of the statement.
-/

import InsuranceOps.Routes
import InsuranceOps.OrchestratorEffects

namespace InsuranceOps

open Relational WorkflowOrchestrator

variable {registry : WorkflowRegistry} {db next : Database} {draws : Draws}
  {principal : ApiKeyPrincipal}

theorem requiresRole_ok {roles : List String}
    (admitted : requiresRole roles principal = .ok ()) : principal.role ∈ roles := by
  unfold requiresRole at admitted
  split at admitted
  · assumption
  · cases admitted

/-! ### Workflow runs -/

/-- The definition a request asks for is registered under the name the request gives. -/
theorem requestedDefinition_registered {body : WorkflowRunCreate}
    {definition : WorkflowDefinition}
    (found : requestedDefinition registry body = some definition) :
    registry.get body.workflowName definition.workflowVersion = some definition := by
  unfold requestedDefinition at found
  split at found
  · exact WorkflowRegistry.get_of_getLatest found
  · exact WorkflowRegistry.get_of_getLatest found
  · have versioned := List.find?_some found
    simp only [decide_eq_true_eq] at versioned
    rw [versioned.2]
    exact found

/-- Creating a run writes a new run, and its task and event describe that run. -/
theorem createWorkflowRun_writes {body : WorkflowRunCreate} {workflowRunId : UUID}
    (ran : createWorkflowRun registry db draws body principal = .ok (next, workflowRunId)) :
    ∃ new, Started db next new ∧ new.Described registry ∧ new.run.workflowRunId = workflowRunId ∧
      requestedDefinition registry body = some new.definition := by
  obtain ⟨_, _, ran⟩ := Fallible.bind_eq_ok.mp ran
  obtain ⟨definition, found, ran⟩ := Fallible.bind_eq_ok.mp ran
  obtain ⟨deadlineAt, -, ran⟩ := Fallible.bind_eq_ok.mp ran
  obtain ⟨created, runInserted, ran⟩ := Fallible.bind_eq_ok.mp ran
  obtain ⟨attached, documentsInserted, ran⟩ := Fallible.bind_eq_ok.mp ran
  obtain ⟨stepped, stepsInserted, ran⟩ := Fallible.bind_eq_ok.mp ran
  obtain ⟨⟨first, firstDefinition⟩, firstFound, ran⟩ := Fallible.bind_eq_ok.mp ran
  obtain ⟨attempted, attemptInserted, ran⟩ := Fallible.bind_eq_ok.mp ran
  obtain ⟨queued, enqueued, ran⟩ := Fallible.bind_eq_ok.mp ran
  obtain ⟨audited, appended, done⟩ := Fallible.bind_eq_ok.mp ran
  cases done
  have started := started_of_inserts id _ rfl runInserted documentsInserted stepsInserted
    (orRaise_ok.mp firstFound) attemptInserted enqueued appended (by rw [updateRows_id]) rfl rfl rfl
    rfl ⟨rfl, rfl, rfl⟩ ⟨rfl, rfl, rfl⟩
  have handler := handlerNameFor_first (orRaise_ok.mp firstFound)
  refine ⟨_, started, ⟨requestedDefinition_registered (orRaise_ok.mp found), rfl, documentRows_run,
    rfl, ?_, ?_, fun _ same => Option.some.inj same, rfl, rfl⟩, rfl, orRaise_ok.mp found⟩
  · rw [handler]
    rfl
  · rw [documentRows_texts]
    rfl

theorem createWorkflowRun_ok {body : WorkflowRunCreate} {workflowRunId : UUID}
    (ran : createWorkflowRun registry db draws body principal = .ok (next, workflowRunId)) :
    ∃ new, Started db next new ∧ new.run.workflowRunId = workflowRunId ∧
      requestedDefinition registry body = some new.definition := by
  obtain ⟨new, started, -, written⟩ := createWorkflowRun_writes ran
  exact ⟨new, started, written⟩

theorem cancelWorkflowRun_ok {workflowRunId : UUID} {body : CancelRequest}
    (ran : cancelWorkflowRun db draws workflowRunId body principal = .ok next) :
    ∃ run call, db.getWorkflowRun workflowRunId = some run ∧ cancellable run.state = true ∧
      next.contents = { db.contents with
        workflowRuns := updateRows (fun row => row.workflowRunId = workflowRunId)
          (WorkflowRunModel.cancel (draws.now 0)) db.contents.workflowRuns
        auditEvents := appendAuditEvent db.contents.auditEvents call (draws.event 0 1) } := by
  obtain ⟨_, _, ran⟩ := Fallible.bind_eq_ok.mp ran
  obtain ⟨run, found, ran⟩ := Fallible.bind_eq_ok.mp ran
  by_cases can : cancellable run.state = true
  · rw [if_pos can] at ran
    exact ⟨run, _, orRaise_ok.mp found, can, Database.appendAuditEvent_ok ran⟩
  · rw [if_neg can] at ran
    cases ran

/-! ### Escalations -/

theorem claimEscalation_ok {escalationId : UUID}
    (ran : claimEscalation db draws escalationId principal = .ok next) :
    ∃ found call, db.getEscalationCase escalationId = some found ∧ found.state = .opened ∧
      next.contents = { db.contents with
        escalationCases := updateRows (fun row => row.escalationId = escalationId)
          (EscalationCaseModel.claim principal.actorString (draws.now 0))
          db.contents.escalationCases
        auditEvents := appendAuditEvent db.contents.auditEvents call (draws.event 0 1) } := by
  obtain ⟨_, _, ran⟩ := Fallible.bind_eq_ok.mp ran
  obtain ⟨found, lookup, ran⟩ := Fallible.bind_eq_ok.mp ran
  by_cases opened : found.state = .opened
  · rw [if_pos opened] at ran
    exact ⟨found, _, orRaise_ok.mp lookup, opened, Database.appendAuditEvent_ok ran⟩
  · rw [if_neg opened] at ran
    cases ran

/-- A case is decided by the principal that holds its claim. -/
theorem claimedCase_ok {escalationId : UUID} {verb : String} {esc : EscalationCaseModel}
    (ran : claimedCase db escalationId principal verb = .ok esc) :
    db.getEscalationCase escalationId = some esc ∧ esc.state = .claimed ∧
      esc.claimedBy = some principal.actorString := by
  obtain ⟨found, lookup, ran⟩ := Fallible.bind_eq_ok.mp ran
  by_cases claimed : found.state = .claimed
  · rw [if_neg (not_not.mpr claimed)] at ran
    by_cases held : found.claimedBy = some principal.actorString
    · rw [if_neg (not_not.mpr held)] at ran
      cases ran
      exact ⟨orRaise_ok.mp lookup, claimed, held⟩
    · rw [if_pos held] at ran
      cases ran
  · rw [if_pos claimed] at ran
    cases ran

/-- A run that is looked up and changed when it meets a condition: the rows with its identifier
that meet the condition are changed, since there is at most one. -/
theorem contents_of_updateFound (db : Database) (workflowRunId : UUID)
    (meets : WorkflowRunModel → Prop) [DecidablePred meets]
    (change : WorkflowRunModel → WorkflowRunModel)
    (keeps : ∀ row, (change row).workflowRunId = row.workflowRunId) :
    (match db.getWorkflowRun workflowRunId with
      | some run => if meets run then db.updateWorkflowRun workflowRunId change keeps else db
      | none => db).contents = { db.contents with
        workflowRuns := updateRows (fun row => row.workflowRunId = workflowRunId ∧ meets row) change
          db.contents.workflowRuns } := by
  cases found : db.getWorkflowRun workflowRunId with
  | none =>
    have unselected : ∀ row ∈ db.contents.workflowRuns, row.workflowRunId ≠ workflowRunId :=
      fun row stored => by simpa using List.find?_eq_none.mp found row stored
    rw [updateRows_of_not _ _ _ fun row stored => decide_eq_false fun both =>
      unselected row stored both.1]
  | some run =>
    have both := updateRows_and_of_find? (fun row : WorkflowRunModel => row.workflowRunId)
      db.workflowRuns_distinct found meets change
    by_cases met : meets run
    · rw [both, if_pos met, ← Database.contents_updateWorkflowRun db workflowRunId change keeps]
      exact congrArg Database.contents (if_pos met)
    · rw [both, if_neg met]
      exact congrArg Database.contents (if_neg met)

theorem resumeWaitingRun_contents (db : Database) (workflowRunId : UUID) (now : Timestamp) :
    (resumeWaitingRun db workflowRunId now).contents = { db.contents with
      workflowRuns := updateRows
        (fun row => row.workflowRunId = workflowRunId ∧ row.state = .awaitingHuman)
        (WorkflowRunModel.resumeWaiting now) db.contents.workflowRuns } :=
  contents_of_updateFound db workflowRunId (fun row => row.state = .awaitingHuman)
    (WorkflowRunModel.resumeWaiting now) fun _ => rfl

theorem failOpenRun_contents (db : Database) (workflowRunId : UUID) (notes : String)
    (now : Timestamp) :
    (failOpenRun db workflowRunId notes now).contents = { db.contents with
      workflowRuns := updateRows (fun row => row.workflowRunId = workflowRunId ∧
          (row.state = .running ∨ row.state = .awaitingHuman))
        (WorkflowRunModel.rejectCase notes now) db.contents.workflowRuns } :=
  contents_of_updateFound db workflowRunId
    (fun row => row.state = .running ∨ row.state = .awaitingHuman)
    (WorkflowRunModel.rejectCase notes now) fun _ => rfl

theorem resolveEscalation_ok {escalationId : UUID} {body : ResolveRequest}
    (ran : resolveEscalation db draws escalationId body principal = .ok next) :
    ∃ esc answer call, db.getEscalationCase escalationId = some esc ∧ esc.state = .claimed ∧
      Database.AttemptAdmitted db (humanAttempt (draws.uuid4 0) esc.stepId 99 (draws.now 0)) ∧
      next.contents = { db.contents with
        escalationCases := updateRows (fun row => row.escalationId = escalationId)
          (EscalationCaseModel.decide .resolved principal.actorString answer (draws.now 0))
          db.contents.escalationCases
        stepAttempts := db.contents.stepAttempts ++
          [humanAttempt (draws.uuid4 0) esc.stepId 99 (draws.now 0)]
        workflowRuns := updateRows
          (fun row => row.workflowRunId = esc.workflowRunId ∧ row.state = .awaitingHuman)
          (WorkflowRunModel.resumeWaiting (draws.now 0)) db.contents.workflowRuns
        auditEvents := appendAuditEvent db.contents.auditEvents call (draws.event 0 1) } := by
  obtain ⟨_, _, ran⟩ := Fallible.bind_eq_ok.mp ran
  obtain ⟨esc, claimed, ran⟩ := Fallible.bind_eq_ok.mp ran
  obtain ⟨attempted, inserted, ran⟩ := Fallible.bind_eq_ok.mp ran
  obtain ⟨lookup, state, -⟩ := claimedCase_ok claimed
  obtain ⟨admitted, attemptedContents⟩ := Database.insertStepAttempt_ok inserted
  have audited := Database.appendAuditEvent_ok ran
  simp only [resumeWaitingRun_contents, attemptedContents, Database.contents_updateEscalationCase]
    at audited
  exact ⟨esc, _, _, lookup, state, ⟨admitted.step, admitted.number, admitted.identified,
    admitted.numbered⟩, audited⟩

theorem rejectEscalation_ok {escalationId : UUID} {body : RejectRequest}
    (ran : rejectEscalation db draws escalationId body principal = .ok next) :
    ∃ esc answer call, db.getEscalationCase escalationId = some esc ∧ esc.state = .claimed ∧
      next.contents = { db.contents with
        escalationCases := updateRows (fun row => row.escalationId = escalationId)
          (EscalationCaseModel.decide .rejected principal.actorString answer (draws.now 0))
          db.contents.escalationCases
        workflowRuns := updateRows (fun row => row.workflowRunId = esc.workflowRunId ∧
            (row.state = .running ∨ row.state = .awaitingHuman))
          (WorkflowRunModel.rejectCase body.notes (draws.now 0)) db.contents.workflowRuns
        auditEvents := appendAuditEvent db.contents.auditEvents call (draws.event 0 1) } := by
  obtain ⟨_, _, ran⟩ := Fallible.bind_eq_ok.mp ran
  obtain ⟨esc, claimed, ran⟩ := Fallible.bind_eq_ok.mp ran
  obtain ⟨lookup, state, -⟩ := claimedCase_ok claimed
  have audited := Database.appendAuditEvent_ok ran
  simp only [failOpenRun_contents, Database.contents_updateEscalationCase] at audited
  exact ⟨esc, _, _, lookup, state, audited⟩

end InsuranceOps
