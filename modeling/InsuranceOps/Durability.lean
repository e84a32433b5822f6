/-
This file follows one worker through a claimed entry, wait by wait, and stops it
at any of them: a crash, or an exception that is logged and leaves the entry
inflight. Both end the session, so what it had not committed is gone. The worker
commits an outcome before it acknowledges the entry, and pushes an entry it gives
up on to the dead letters first, so an acknowledged entry is never lost work.
-/

import InsuranceOps.Commands
import InsuranceOps.Library.Interruption
import InsuranceOps.Worker

namespace InsuranceOps

open Interruption Interruption.Script ListStore Relational

/-! ### The session and the queue -/

/-- The committed rows, the rows as the session of the worker sees them, and the queue. -/
structure Workspace where
  db : Database
  session : Database
  queue : EntryQueue

namespace Workspace

/-- A session that has not written anything. -/
def opened (db : Database) (queue : EntryQueue) : Workspace := ⟨db, db, queue⟩

variable (workspace : Workspace)

/-- The session ends, and what it has not committed is rolled back. -/
def closed : Workspace := { workspace with session := workspace.db }

/-- A query of the session. -/
def query {Answer : Type} (answer : Database → Except Failure Answer) :
    Except Failure (Answer × Workspace) :=
  (answer workspace.session).map fun answer => (answer, workspace)

/-- A statement of the session. -/
def flush (change : Database → Except Failure Database) : Except Failure (Unit × Workspace) :=
  (change workspace.session).map fun session => ((), { workspace with session := session })

/-- The transaction of the session commits. -/
def commit : Except Failure (Unit × Workspace) :=
  .ok ((), { workspace with db := workspace.session })

/-- Push an entry on the dead letters. -/
def moveToDlq (item : Bytes) : Except Failure (Unit × Workspace) :=
  .ok ((), { workspace with queue := workspace.queue.lpush .dlq item })

/-- Remove an entry from the worker's inflight list; an entry that is not UTF-8 raises. -/
def ack (workerId : String) (item : Bytes) : Except Failure (Unit × Workspace) :=
  if decodes item then
    .ok ((), { workspace with queue := workspace.queue.lrem (.inflight workerId) item })
  else .error (.exception "UnicodeDecodeError")

end Workspace

/-! ### Waiting -/

/-- Insert an audit event. -/
def Database.insertAuditEvent (db : Database) (event : AuditEventModel) :
    Except Failure Database := do
  let auditEvents ← insertInto db.auditEvents event
    [("audit_events.actor", storableText event.actor),
     ("audit_events.payload", (Json.object event.payload).storable),
     ("ck_audit_events_prev_hash_len", event.prevEventHash.all fun hash => hash.length = 32),
     ("ck_audit_events_hash_len", event.eventHash.length = 32)]
    [("audit_events.workflow_run_id", db.hasRun event.workflowRunId),
     ("audit_events.step_id", event.stepId.all db.hasStep),
     ("audit_events.step_attempt_id", event.stepAttemptId.all db.hasStepAttempt)]
  return { db with auditEvents := auditEvents }

/-- The changed attributes of the attempt and the step, which the next query flushes; the driver
refuses an output object. -/
def TaskOutcome.flush (outcome : TaskOutcome) (rows : TaskRows) (now : Timestamp)
    (db : Database) : Except Failure Database :=
  match outcome with
  | .success (some _) => .error (.database (.invalidParameter "step_attempts.output_ref"))
  | .success none =>
    .ok ((db.updateStepAttempt rows.attempt.stepAttemptId (StepAttemptModel.succeed now)
      (StepAttemptModel.succeed_keeps now)).updateStep rows.step.stepId (StepModel.succeed now)
        (StepModel.succeed_keeps now))
  | .failRetryable errorCode errorDetail =>
    .ok ((db.updateStepAttempt rows.attempt.stepAttemptId
      (StepAttemptModel.fail .failedRetryable errorCode errorDetail now)
      (StepAttemptModel.fail_keeps .failedRetryable errorCode errorDetail now)).updateStep
        rows.step.stepId StepModel.failRetryable StepModel.failRetryable_keeps)
  | .failTerminal errorCode errorDetail =>
    .ok ((db.updateStepAttempt rows.attempt.stepAttemptId
      (StepAttemptModel.fail .failedTerminal errorCode errorDetail now)
      (StepAttemptModel.fail_keeps .failedTerminal errorCode errorDetail now)).updateStep
        rows.step.stepId (StepModel.failTerminal now) (StepModel.failTerminal_keeps now))

/-- A program of the worker. -/
abbrev TaskScript := Script Workspace Failure

section Scripts

variable (loads : String → Option Json) (loadsEntry : Bytes → Option Json)
  (handle : String → StepContext → HandlerReturn) (draws : Draws) (workerId : String)
  (item : Bytes)

/-- Append an audit event: lock the run, read its latest event and insert the next one. The changes
that are pending are flushed before the lock is taken. -/
def appendAuditEventScript (pending : Database → Except Failure Database) (call : AppendCall)
    (draw : EventDraw) : TaskScript Unit := do
  await (Workspace.flush · pending)
  let latest ← await (Workspace.query · fun db =>
    .ok (getLatestForRun db.auditEvents.rows call.workflowRunId))
  await (Workspace.flush · fun db => db.insertAuditEvent (nextAuditEvent latest call draw))

/-- Move a claimed entry to the dead letters. -/
def deadLetterScript : TaskScript Unit := do
  await (Workspace.moveToDlq · item)
  await (Workspace.ack · workerId item)

/-- Bring a task whose rows were loaded to its outcome. -/
def processRowsScript (payload : JsonObject) (rows : TaskRows) : TaskScript Unit := do
  if rows.attempt.state.isFinished then
    await (Workspace.ack · workerId item)
  else
    await (Workspace.flush · fun db =>
      .ok (db.updateStepAttempt rows.attempt.stepAttemptId (StepAttemptModel.begin (draws.now 0))
        (StepAttemptModel.begin_keeps draws)))
    -- Neither the queries for earlier outputs nor a handler changes a row, so they are one wait.
    let outcome ← await (Workspace.query · fun db =>
      executeStepHandler loads handle db rows payload)
    let stepName := (payload.get? "step_name").getD (.string "unknown")
    appendAuditEventScript (outcome.flush rows (draws.now 1))
      (outcomeEvent rows outcome.eventType workerId (outcome.eventPayload stepName))
      (draws.event 0 2)
    await Workspace.commit
    await (Workspace.ack · workerId item)

/-- Process a single claimed task. -/
def processTaskScript (payload : JsonObject) : TaskScript Unit := do
  let stepAttemptId ← ofExcept (readId payload "step_attempt_id")
  let stepId ← ofExcept (readId payload "step_id")
  let workflowRunId ← ofExcept (readId payload "workflow_run_id")
  match stepAttemptId, stepId, workflowRunId with
  | some stepAttemptId, some stepId, some workflowRunId =>
    let attempt ← await (Workspace.query · fun db => .ok (db.getStepAttempt stepAttemptId))
    let step ← await (Workspace.query · fun db => .ok (db.getStep stepId))
    let run ← await (Workspace.query · fun db => .ok (db.getWorkflowRun workflowRunId))
    match attempt, step, run with
    | some attempt, some step, some run =>
      processRowsScript loads handle draws workerId item payload ⟨attempt, step, run⟩
    | _, _, _ => deadLetterScript workerId item
  | _, _, _ => deadLetterScript workerId item

/-- What the worker loop does with a claimed entry: one that does not parse goes to the dead
letters, and a value that is no object raises. -/
def handleEntry : TaskScript Unit :=
  match loadsEntry item with
  | none => deadLetterScript workerId item
  | some (.object payload) => processTaskScript loads handle draws workerId item payload
  | some _ => .fails (.exception "AttributeError")

end Scripts

/-! ### Without an interruption -/

theorem Database.appendAuditEvent_eq (db : Database) (call : AppendCall) (draw : EventDraw) :
    db.appendAuditEvent call draw = db.insertAuditEvent
      (nextAuditEvent (getLatestForRun db.auditEvents.rows call.workflowRunId) call draw) := rfl

/-- Writing an outcome is flushing its changes and appending its audit event. -/
theorem writeOutcome_eq (db : Database) (rows : TaskRows) (workerId : String) (stepName : Json)
    (now : Timestamp) (event : EventDraw) (outcome : TaskOutcome) :
    writeOutcome db rows workerId stepName now event outcome =
      outcome.flush rows now db >>= fun flushed => flushed.appendAuditEvent
        (outcomeEvent rows outcome.eventType workerId (outcome.eventPayload stepName)) event := by
  cases outcome with
  | success output =>
    cases output with
    | none => rfl
    | some _ => rfl
  | failRetryable errorCode errorDetail => rfl
  | failTerminal errorCode errorDetail => rfl

section Finish

variable {loads : String → Option Json} {handle : String → StepContext → HandlerReturn}
  {draws : Draws} {workerId : String} {item : Bytes}

/-- The queue without an entry the worker acknowledged. -/
def acknowledge (queue : EntryQueue) (workerId : String) (item : Bytes) : EntryQueue :=
  if decodes item then queue.lrem (.inflight workerId) item else queue

/-- The rows and the queue after an entry was disposed of. -/
def settleEntry (db : Database) (claimed : EntryQueue) (workerId : String) (item : Bytes) :
    Except Failure Disposition → Workspace
  | .error _ => .opened db claimed
  | .ok .deadLetter => .opened db (acknowledge (claimed.lpush .dlq item) workerId item)
  | .ok .alreadyTerminal => .opened db (acknowledge claimed workerId item)
  | .ok (.written flushed) => .opened flushed (acknowledge claimed workerId item)

theorem finish_query {Answer : Type} (answer : Database → Except Failure Answer)
    (workspace : Workspace) :
    (await (Workspace.query · answer)).finish workspace =
      (answer workspace.session, workspace) := by
  rw [finish_await, Workspace.query]
  cases answer workspace.session <;> rfl

theorem finish_flush (change : Database → Except Failure Database) (workspace : Workspace) :
    (await (Workspace.flush · change)).finish workspace =
      match change workspace.session with
      | .ok session => (.ok (), { workspace with session := session })
      | .error failure => (.error failure, workspace) := by
  rw [finish_await, Workspace.flush]
  cases change workspace.session <;> rfl

theorem finish_ack (workspace : Workspace) :
    ((await (Workspace.ack · workerId item)).finish workspace).2 =
      { workspace with queue := acknowledge workspace.queue workerId item } := by
  rw [finish_await, Workspace.ack, acknowledge]
  cases decodes item <;> rfl

theorem finish_deadLetterScript (workspace : Workspace) :
    ((deadLetterScript workerId item).finish workspace).2 =
      { workspace with queue := acknowledge (workspace.queue.lpush .dlq item) workerId item } := by
  unfold deadLetterScript
  rw [finish_bind]
  exact finish_ack _

theorem finish_appendAuditEventScript (pending : Database → Except Failure Database)
    (call : AppendCall) (draw : EventDraw) (workspace : Workspace) :
    ∃ session, (appendAuditEventScript pending call draw).finish workspace =
      match pending workspace.session >>= fun flushed => flushed.appendAuditEvent call draw with
      | .ok appended => (.ok (), { workspace with session := appended })
      | .error failure => (.error failure, { workspace with session := session }) := by
  unfold appendAuditEventScript
  rw [finish_bind, finish_flush]
  cases pending workspace.session with
  | error failure => exact ⟨workspace.session, rfl⟩
  | ok flushed =>
    refine ⟨flushed, ?_⟩
    simp only [finish_bind, finish_query, finish_flush, Database.appendAuditEvent_eq]
    rfl

/-- A task that no interruption stops loads its rows first. -/
theorem finish_processTaskScript_eq (payload : JsonObject) (workspace : Workspace) :
    (processTaskScript loads handle draws workerId item payload).finish workspace =
      match loadRows workspace.session payload with
      | .error failure => (.error failure, workspace)
      | .ok none => (deadLetterScript workerId item).finish workspace
      | .ok (some rows) =>
        (processRowsScript loads handle draws workerId item payload rows).finish workspace := by
  unfold processTaskScript
  rw [finish_ofExcept_bind]
  cases attemptNamed : readId payload "step_attempt_id" with
  | error failure =>
    unfold loadRows
    rw [attemptNamed]
    rfl
  | ok stepAttemptId =>
  dsimp only
  rw [finish_ofExcept_bind]
  cases stepNamed : readId payload "step_id" with
  | error failure =>
    unfold loadRows
    rw [attemptNamed, stepNamed]
    rfl
  | ok stepId =>
  dsimp only
  rw [finish_ofExcept_bind]
  cases runNamed : readId payload "workflow_run_id" with
  | error failure =>
    unfold loadRows
    rw [attemptNamed, stepNamed, runNamed]
    rfl
  | ok workflowRunId =>
  rw [loadRows_eq attemptNamed stepNamed runNamed]
  match stepAttemptId, stepId, workflowRunId with
  | none, _, _ => rfl
  | some stepAttemptId, none, _ =>
    simp only [Option.bind_some, Option.bind_none]
    cases workspace.session.getStepAttempt stepAttemptId <;> rfl
  | some stepAttemptId, some stepId, none =>
    simp only [Option.bind_some, Option.bind_none]
    cases workspace.session.getStepAttempt stepAttemptId <;>
      cases workspace.session.getStep stepId <;> rfl
  | some stepAttemptId, some stepId, some workflowRunId =>
    simp only [finish_bind, finish_query, Option.bind_some]
    cases workspace.session.getStepAttempt stepAttemptId <;>
      cases workspace.session.getStep stepId <;>
      cases workspace.session.getWorkflowRun workflowRunId <;> rfl

/-- An entry that no interruption stops is processed as an iteration of the worker processes it. -/
theorem finish_processTaskScript (payload : JsonObject) (db : Database) (claimed : EntryQueue) :
    ((processTaskScript loads handle draws workerId item payload).finish
        (.opened db claimed)).2.closed =
      settleEntry db claimed workerId item
        (processTask loads handle db draws workerId payload) := by
  rw [finish_processTaskScript_eq, processTask]
  show Workspace.closed (Prod.snd (match loadRows db payload with
    | .error failure => _
    | .ok none => _
    | .ok (some rows) => _)) = _
  cases loadRows db payload with
  | error failure => rfl
  | ok loaded =>
  cases loaded with
  | none => exact congrArg Workspace.closed (finish_deadLetterScript _)
  | some rows =>
  show Workspace.closed (Prod.snd (finish (processRowsScript loads handle draws workerId item
    payload rows) _)) = settleEntry db claimed workerId item (if _ then _ else _)
  unfold processRowsScript
  cases rows.attempt.state.isFinished with
  | true => exact congrArg Workspace.closed (finish_ack _)
  | false =>
  simp only [Bool.false_eq_true, if_false]
  rw [finish_bind, finish_flush]
  simp only [Workspace.opened, writeOutcome_eq]
  rw [finish_bind, finish_query]
  generalize db.updateStepAttempt rows.attempt.stepAttemptId _ _ = begun
  dsimp only
  cases executeStepHandler loads handle begun rows payload with
  | error failure => rfl
  | ok outcome =>
  dsimp only
  obtain ⟨session, appended⟩ := finish_appendAuditEventScript (outcome.flush rows (draws.now 1))
    (outcomeEvent rows outcome.eventType workerId (outcome.eventPayload
      ((payload.get? "step_name").getD (.string "unknown")))) (draws.event 0 2)
    ⟨db, begun, claimed⟩
  rw [finish_bind, appended]
  show _ = settleEntry db claimed workerId item (Except.bind (outcome.flush rows (draws.now 1)
    begun >>= fun flushed => flushed.appendAuditEvent _ _) fun flushed => _)
  dsimp only
  generalize (outcome.flush rows (draws.now 1) begun >>= fun flushed =>
    flushed.appendAuditEvent _ _) = flushed
  cases flushed with
  | error failure => rfl
  | ok flushed =>
  dsimp only
  rw [finish_bind]
  exact congrArg Workspace.closed (finish_ack ⟨flushed, flushed, claimed⟩)

end Finish

/-! ### What an interruption leaves -/

/-- The outcome of an attempt was committed: the attempt, the step, one audit event, and nothing
else. -/
structure OutcomeCommitted (draws : Draws) (rows : TaskRows) (outcome : TaskOutcome)
    (db next : Database) : Prop where
  attempt : ∃ change, outcome.attemptChange (draws.now 1) = some change ∧
    next.contents.stepAttempts =
      updateRows (fun row => row.stepAttemptId = rows.attempt.stepAttemptId)
        (fun row => change (row.begin (draws.now 0))) db.contents.stepAttempts
  step : next.contents.steps = updateRows (fun row => row.stepId = rows.step.stepId)
    (outcome.stepChange (draws.now 1)) db.contents.steps
  event : ∃ event, next.contents.auditEvents = db.contents.auditEvents ++ [event] ∧
    event.eventType = outcome.eventType ∧
    event.workflowRunId = rows.run.workflowRunId ∧
    event.stepAttemptId = some rows.attempt.stepAttemptId
  others : next.contents = { db.contents with
    stepAttempts := next.contents.stepAttempts
    steps := next.contents.steps
    auditEvents := next.contents.auditEvents }

section Durable

variable (loadsEntry : Bytes → Option Json) (draws : Draws) (workerId : String) (item : Bytes)
  (db : Database) (queue : EntryQueue)

/-- The entry is a task with these rows. -/
def NamesRows (rows : TaskRows) : Prop :=
  ∃ payload, loadsEntry item = some (.object payload) ∧ loadRows db payload = .ok (some rows)

/-- An outcome of the task was committed, and its attempt was not finished before. -/
def Committed (next : Database) : Prop :=
  ∃ rows outcome, NamesRows loadsEntry item db rows ∧ rows.attempt.state.isFinished = false ∧
    OutcomeCommitted draws rows outcome db next

/-- What may be left of a claimed entry: nothing or all of an outcome was committed, and if the
entry has left the worker's inflight list, its outcome is committed, its attempt was finished when
it was read, or it has been pushed on the dead letters. -/
structure Durable (left : Workspace) : Prop where
  atomic : left.db = db ∨ Committed loadsEntry draws item db left.db
  acknowledged : (left.queue.lists (.inflight workerId)).count item <
      (queue.lists (.inflight workerId)).count item →
    Committed loadsEntry draws item db left.db ∨
    (∃ rows, NamesRows loadsEntry item db rows ∧ rows.attempt.state.isFinished = true) ∨
    (queue.lists .dlq).count item < (left.queue.lists .dlq).count item

variable {loadsEntry draws workerId item db queue}

theorem Durable.opened : Durable loadsEntry draws workerId item db queue (.opened db queue) where
  atomic := .inl rfl
  acknowledged less := absurd less (Nat.lt_irrefl _)

/-- Only the committed rows and the queue matter. -/
theorem Durable.of_session {left : Workspace}
    (durable : Durable loadsEntry draws workerId item db queue left) (session : Database) :
    Durable loadsEntry draws workerId item db queue { left with session := session } :=
  ⟨durable.atomic, durable.acknowledged⟩

theorem Durable.committed {left : Workspace}
    (committed : Committed loadsEntry draws item db left.db) :
    Durable loadsEntry draws workerId item db queue left :=
  ⟨.inr committed, fun _ => .inl committed⟩

/-- Stopped before its only command or after it. -/
theorem meets_query {Answer : Type} {answer : Database → Except Failure Answer}
    {always : Workspace → Prop} {post : Answer → Workspace → Prop} {workspace : Workspace}
    (holds : always workspace)
    (established : ∀ result, answer workspace.session = .ok result → post result workspace) :
    (await (Workspace.query · answer)).Meets always post workspace := by
  refine meets_await holds fun result next answered => ?_
  unfold Workspace.query at answered
  cases computed : answer workspace.session with
  | error failure =>
    rw [computed] at answered
    cases answered
  | ok value =>
    rw [computed] at answered
    cases answered
    exact ⟨holds, established _ computed⟩

theorem meets_flush {change : Database → Except Failure Database}
    {always : Workspace → Prop} {post : Unit → Workspace → Prop} {workspace : Workspace}
    (holds : ∀ session, always { workspace with session := session })
    (established : ∀ session, change workspace.session = .ok session →
      post () { workspace with session := session }) :
    (await (Workspace.flush · change)).Meets always post workspace := by
  refine meets_await (holds workspace.session) fun result next answered => ?_
  unfold Workspace.flush at answered
  cases computed : change workspace.session with
  | error failure =>
    rw [computed] at answered
    cases answered
  | ok session =>
    rw [computed] at answered
    cases answered
    exact ⟨holds session, established session computed⟩

theorem meets_ack {always : Workspace → Prop} {workspace : Workspace} (holds : always workspace)
    (acked : always
      { workspace with queue := workspace.queue.lrem (.inflight workerId) item }) :
    (await (Workspace.ack · workerId item)).Meets always (fun _ _ => True) workspace := by
  refine meets_await holds fun _ next answered => ?_
  unfold Workspace.ack at answered
  split at answered
  · cases answered
    exact ⟨acked, trivial⟩
  · cases answered

/-- An entry is pushed on the dead letters before it leaves the inflight list. -/
theorem meets_deadLetterScript :
    (deadLetterScript workerId item).Meets (Durable loadsEntry draws workerId item db queue)
      (fun _ _ => True) (.opened db queue) := by
  refine meets_bind (meets_await .opened fun _ next answered => ?_)
  cases answered
  have pushed : Durable loadsEntry draws workerId item db queue
      { Workspace.opened db queue with queue := queue.lpush .dlq item } :=
    ⟨.inl rfl, fun less => absurd less (by simp [Store.lpush])⟩
  refine ⟨pushed, meets_ack pushed ⟨.inl rfl, fun _ => .inr (.inr ?_)⟩⟩
  simp [Workspace.opened, Store.lrem, Store.lpush]

/-- An audit event is appended to the rows that are pending, within the session. -/
theorem meets_appendAuditEventScript {always : Workspace → Prop} {post : Unit → Workspace → Prop}
    {pending : Database → Except Failure Database} {call : AppendCall} {draw : EventDraw}
    {workspace : Workspace} (holds : ∀ session, always { workspace with session := session })
    (established : ∀ session,
      (pending workspace.session >>= fun flushed => flushed.appendAuditEvent call draw) =
        .ok session → post () { workspace with session := session }) :
    (appendAuditEventScript pending call draw).Meets always post workspace := by
  refine meets_bind (meets_flush holds fun flushed pended => ?_)
  refine meets_bind (meets_query (holds flushed) fun latest read => ?_)
  refine meets_flush holds fun session inserted => ?_
  cases read
  refine established session ?_
  rw [pended]
  exact (Database.appendAuditEvent_eq flushed call draw).trans inserted

/-- What the session of a worker has written when it commits. -/
theorem OutcomeCommitted.of_written {rows : TaskRows} {outcome : TaskOutcome} {next : Database}
    {stepName : Json}
    (written : writeOutcome (db.updateStepAttempt rows.attempt.stepAttemptId
      (StepAttemptModel.begin (draws.now 0))) rows workerId stepName (draws.now 1)
        (draws.event 0 2) outcome = .ok next) : OutcomeCommitted draws rows outcome db next := by
  obtain ⟨change, changes, contents⟩ := writeOutcome_contents written
  refine ⟨⟨change, changes, ?_⟩, ?_, ⟨nextAuditEvent (getLatestForRun db.contents.auditEvents
    rows.run.workflowRunId) (outcomeEvent rows outcome.eventType workerId
      (outcome.eventPayload stepName)) (draws.event 0 2), ?_, rfl, rfl, rfl⟩, ?_⟩
  · rw [contents]
    exact updateRows_updateRows _ (StepAttemptModel.begin (draws.now 0)) change (fun _ => rfl) _
  · rw [contents]
    rfl
  · rw [contents]
    rfl
  · rw [contents]
    rfl

/-- The outcome of a task is committed before the entry leaves the inflight list. -/
theorem meets_processRowsScript (loads : String → Option Json)
    (handle : String → StepContext → HandlerReturn) {payload : JsonObject} {rows : TaskRows}
    (parsed : loadsEntry item = some (.object payload))
    (loaded : loadRows db payload = .ok (some rows)) :
    (processRowsScript loads handle draws workerId item payload rows).Meets
      (Durable loadsEntry draws workerId item db queue) (fun _ _ => True) (.opened db queue) := by
  have opened : Durable loadsEntry draws workerId item db queue (.opened db queue) := .opened
  unfold processRowsScript
  cases finished : rows.attempt.state.isFinished with
  | true =>
    exact meets_ack opened
      ⟨.inl rfl, fun _ => .inr (.inl ⟨rows, ⟨payload, parsed, loaded⟩, finished⟩)⟩
  | false =>
    refine meets_bind (meets_flush opened.of_session fun begun marked => ?_)
    cases marked
    refine meets_bind (meets_query (opened.of_session _) fun outcome executed => ?_)
    refine meets_bind (meets_appendAuditEventScript opened.of_session fun session appended => ?_)
    rw [← writeOutcome_eq] at appended
    have committed : Committed loadsEntry draws item db session :=
      ⟨rows, outcome, ⟨payload, parsed, loaded⟩, finished, .of_written appended⟩
    refine meets_bind (meets_await (opened.of_session session) fun _ next answered => ?_)
    cases answered
    exact ⟨.committed committed, meets_ack (.committed committed) (.committed committed)⟩

theorem meets_processTaskScript (loads : String → Option Json)
    (handle : String → StepContext → HandlerReturn) {payload : JsonObject}
    (parsed : loadsEntry item = some (.object payload)) :
    (processTaskScript loads handle draws workerId item payload).Meets
      (Durable loadsEntry draws workerId item db queue) (fun _ _ => True) (.opened db queue) := by
  have opened : Durable loadsEntry draws workerId item db queue (.opened db queue) := .opened
  refine meets_bind (meets_ofExcept opened fun stepAttemptId attemptNamed => ?_)
  refine meets_bind (meets_ofExcept opened fun stepId stepNamed => ?_)
  refine meets_bind (meets_ofExcept opened fun workflowRunId runNamed => ?_)
  split
  · rename_i stepAttemptId stepId workflowRunId
    refine meets_bind (meets_query opened fun attempt attemptRead => ?_)
    refine meets_bind (meets_query opened fun step stepRead => ?_)
    refine meets_bind (meets_query opened fun run runRead => ?_)
    cases attemptRead
    cases stepRead
    cases runRead
    split
    · rename_i foundAttempt foundStep foundRun
      refine meets_processRowsScript loads handle parsed ?_
      rw [loadRows_eq attemptNamed stepNamed runNamed]
      simp only [Option.bind_some]
      rw [show db.getStepAttempt stepAttemptId = _ from foundAttempt,
        show db.getStep stepId = _ from foundStep,
        show db.getWorkflowRun workflowRunId = _ from foundRun]
    · exact meets_deadLetterScript
  · exact meets_deadLetterScript

end Durable

/-- A worker acknowledges only durable work: wherever it is stopped on a claimed entry, all or
nothing of an outcome is committed, and the entry has left its inflight list only if its outcome is
committed, its attempt was finished, or it is on the dead letters. -/
theorem acknowledges_durable_work (loads : String → Option Json)
    (loadsEntry : Bytes → Option Json) (handle : String → StepContext → HandlerReturn)
    (draws : Draws) (workerId : String) (item : Bytes) (db : Database) (queue : EntryQueue)
    (count : Nat) :
    Durable loadsEntry draws workerId item db queue
      ((handleEntry loads loadsEntry handle draws workerId item).stopped (.opened db queue)
        count).closed := by
  have meets : (handleEntry loads loadsEntry handle draws workerId item).Meets
      (Durable loadsEntry draws workerId item db queue) (fun _ _ => True) (.opened db queue) := by
    unfold handleEntry
    split
    · exact meets_deadLetterScript
    · rename_i payload parsed
      exact meets_processTaskScript loads handle parsed
    · exact Durable.opened
  exact (meets.stopped count).of_session _

end InsuranceOps
