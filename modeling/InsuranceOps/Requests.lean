/-
This file models any number of requests to claim, resolve, reject and cancel
whose statements interleave at isolation level READ COMMITTED. Every request
authenticates in its own transaction and leaves the time of use on the row of
its API key, so two requests with one key do not overlap behind that statement.
Claiming and cancelling are updates that check the row they change; resolving
and rejecting read the case and the run and write them later.
-/

import InsuranceOps.Orchestrator
import InsuranceOps.Routes
import InsuranceOps.Library.RowLocks
import InsuranceOps.Library.Transition

namespace InsuranceOps

open RowLocks Relational WorkflowOrchestrator

/-! ### API keys -/

/-- A row of `api_keys`, which is stored under its identifier. -/
structure ApiKeyModel where
  role : String
  label : String
  expiresAt : Option Timestamp := none
  revokedAt : Option Timestamp := none
  lastUsedAt : Option Timestamp := none

/-- The key is neither revoked nor expired. -/
def ApiKeyModel.usable (key : ApiKeyModel) (now : Timestamp) : Bool :=
  key.revokedAt.isNone && key.expiresAt.all fun expiresAt => now < expiresAt

def ApiKeyModel.principal (key : ApiKeyModel) (apiKeyId : UUID) : ApiKeyPrincipal :=
  { apiKeyId := apiKeyId.str, role := key.role, label := key.label }

abbrev ApiKeyModel.touch (now : Timestamp) (key : ApiKeyModel) : ApiKeyModel :=
  { key with lastUsedAt := some now }

/-! ### Requests -/

/-- How the claimant of a case decides it. -/
inductive Decision where
  | resolve (body : ResolveRequest)
  | reject (body : RejectRequest)

namespace Decision

/-- The state a decision leaves its case in. -/
def state : Decision → EscalationState
  | .resolve _ => .resolved
  | .reject _ => .rejected

/-- The resolution payload a decision leaves on its case. -/
def payload : Decision → JsonObject
  | .resolve body => [
      ("approve", .ofFlag body.approve),
      ("override", .ofObject body.override),
      ("notes", .string body.notes)]
  | .reject body => [
      ("reason_code", .string body.reasonCode),
      ("notes", .string body.notes)]

/-- The decision changes a run in this state. -/
def takes : Decision → WorkflowRunState → Bool
  | .resolve _, .awaitingHuman => true
  | .reject _, .running | .reject _, .awaitingHuman => true
  | _, _ => false

/-- The flush of a run: the assigned attributes, computed from the row that was read, overwrite
those of the row that is stored. -/
def writeRun (decision : Decision) (read : WorkflowRunModel) (now : Timestamp)
    (row : WorkflowRunModel) : WorkflowRunModel :=
  match decision with
  | .resolve _ => { row with state := .running, version := read.version + 1, updatedAt := now }
  | .reject body =>
    { row with
      state := .failed
      version := read.version + 1
      updatedAt := now
      lastErrorCode := some "ESCALATION_REJECTED"
      lastErrorDetail := some body.notes }

/-- The event of a decision. -/
def call (decision : Decision) (escalationId : UUID) (esc : EscalationCaseModel)
    (stepAttemptId : UUID) (actor : String) : AppendCall :=
  match decision with
  | .resolve body =>
    { workflowRunId := esc.workflowRunId
      eventType := "escalation.resolved"
      actor := actor
      payload := [("escalation_id", .ofId escalationId), ("notes", .string body.notes)]
      stepId := some esc.stepId
      stepAttemptId := some stepAttemptId }
  | .reject body =>
    { workflowRunId := esc.workflowRunId
      eventType := "escalation.rejected"
      actor := actor
      payload := [
        ("escalation_id", .ofId escalationId),
        ("reason_code", .string body.reasonCode),
        ("notes", .string body.notes)]
      stepId := some esc.stepId }

end Decision

/-- A request to a route that decides about a case or a run. -/
inductive CaseRequest where
  | claim (escalationId : UUID)
  | decide (escalationId : UUID) (decision : Decision)
  | cancel (workflowRunId : UUID) (body : CancelRequest)

namespace CaseRequest

/-- The roles the route of the request admits. -/
def roles : CaseRequest → List String
  | .claim _ | .decide _ _ => ["operator", "supervisor"]
  | .cancel _ _ => ["supervisor"]

/-- The case the request writes. -/
def escalationId : CaseRequest → Option UUID
  | .claim escalationId | .decide escalationId _ => some escalationId
  | .cancel _ _ => none

end CaseRequest

/-- The key a request presents, as it was read. -/
structure Served where
  apiKeyId : UUID
  key : ApiKeyModel

def Served.principal (served : Served) : ApiKeyPrincipal := served.key.principal served.apiKeyId

abbrev Served.actor (served : Served) : String := served.principal.actorString

/-- What a decision has computed when its checks have passed. -/
structure Making where
  escalationId : UUID
  decision : Decision
  esc : EscalationCaseModel
  now : Timestamp
  stepAttemptId : UUID

/-- The request a decision answers. -/
def Making.request (making : Making) : CaseRequest :=
  .decide making.escalationId making.decision

/-- The event of the decision. -/
def Making.call (making : Making) (actor : String) : AppendCall :=
  making.decision.call making.escalationId making.esc making.stepAttemptId actor

/-- The event of a claim. -/
def claimedEvent (workflowRunId escalationId : UUID) (actor : String) : AppendCall :=
  { workflowRunId := workflowRunId
    eventType := "escalation.claimed"
    actor := actor
    payload := [("escalation_id", .ofId escalationId)] }

/-- The event of a cancel request. -/
def cancelRequestEvent (workflowRunId : UUID) (body : CancelRequest) (actor : String) :
    AppendCall :=
  { workflowRunId := workflowRunId
    eventType := "workflow_run.cancelled"
    actor := actor
    payload := [
      ("reason", .string (body.reason.getD "")),
      ("notes", .string (body.notes.getD ""))] }

/-! ### Statements -/

/-- How far a request is. -/
inductive RequestPhase where
  | received (apiKeyId : UUID) (request : CaseRequest)
  | keyRead (served : Served) (request : CaseRequest)
  | authenticated (served : Served) (request : CaseRequest)
  | unmatched (escalationId : UUID)
  | claimed (served : Served) (escalationId : UUID)
  | caseLoaded (served : Served) (making : Making)
  | caseFlushed (served : Served) (making : Making)
  | attemptFlushed (served : Served) (making : Making)
  | runLoaded (served : Served) (making : Making) (run : WorkflowRunModel)
  | cancelLoaded (served : Served) (workflowRunId : UUID) (body : CancelRequest)
      (run : WorkflowRunModel)
  | changed (served : Served) (request : CaseRequest) (call : AppendCall)
  | runLocked (served : Served) (request : CaseRequest) (call : AppendCall)
  | latestRead (served : Served) (request : CaseRequest) (call : AppendCall)
      (latest : Option AuditEventModel)
  | appended (served : Served) (request : CaseRequest)
  | answered (statusCode : Nat)

/-- A request runs its next statement, with what it draws from its surroundings there, or its
transaction is rolled back by an exception or a crash. -/
inductive RequestAction where
  | statement (now : Timestamp) (id : UUID)
  | rollback

/-- A run with its events, which are only written under the lock of its row. -/
structure AuditedRun where
  run : WorkflowRunModel
  events : List AuditEventModel

/-- The rows the requests touch and the requests. Of the attempts it is those with the number 99,
under their steps. -/
structure RequestState where
  apiKeys : UUID → Cell ApiKeyModel
  cases : UUID → Cell EscalationCaseModel
  humanAttempts : UUID → Cell StepAttemptModel
  runs : UUID → Cell AuditedRun
  phase : Nat → RequestPhase

namespace RequestState

variable (state : RequestState) (index : Nat)

/-- A request moves on. -/
def proceed (phase : RequestPhase) : RequestState :=
  { state with phase := Function.update state.phase index phase }

/-- A transaction rolls back, and the request is answered. -/
def answer (statusCode : Nat) : RequestState where
  apiKeys id := (state.apiKeys id).rollback index
  cases id := (state.cases id).rollback index
  humanAttempts id := (state.humanAttempts id).rollback index
  runs id := (state.runs id).rollback index
  phase := Function.update state.phase index (.answered statusCode)

/-- A transaction commits, and the request is answered. -/
def commit : RequestState where
  apiKeys id := (state.apiKeys id).commit index
  cases id := (state.cases id).commit index
  humanAttempts id := (state.humanAttempts id).commit index
  runs id := (state.runs id).commit index
  phase := Function.update state.phase index (.answered 200)

/-- A request has written the row of an API key. -/
def putKey (apiKeyId : UUID) (cell : Cell ApiKeyModel) (phase : RequestPhase) : RequestState :=
  { state with
    apiKeys := Function.update state.apiKeys apiKeyId cell
    phase := Function.update state.phase index phase }

/-- A request has written a case. -/
def putCase (escalationId : UUID) (cell : Cell EscalationCaseModel) (phase : RequestPhase) :
    RequestState :=
  { state with
    cases := Function.update state.cases escalationId cell
    phase := Function.update state.phase index phase }

/-- A request has written the attempt of a human resolution. -/
def putHumanAttempt (stepId : UUID) (cell : Cell StepAttemptModel) (phase : RequestPhase) :
    RequestState :=
  { state with
    humanAttempts := Function.update state.humanAttempts stepId cell
    phase := Function.update state.phase index phase }

/-- A request has written a run or its events. -/
def putRun (workflowRunId : UUID) (cell : Cell AuditedRun) (phase : RequestPhase) :
    RequestState :=
  { state with
    runs := Function.update state.runs workflowRunId cell
    phase := Function.update state.phase index phase }

/-- A request changes the row of an API key, once no other transaction holds it. -/
def updateKey (apiKeyId : UUID) (change : ApiKeyModel → ApiKeyModel) (phase : RequestPhase) :
    RequestState :=
  match (state.apiKeys apiKeyId).change index change with
  | some cell => state.putKey index apiKeyId cell phase
  | none => state

/-- A request changes a case, once no other transaction holds it. -/
def updateCase (escalationId : UUID) (change : EscalationCaseModel → EscalationCaseModel)
    (phase : RequestPhase) : RequestState :=
  match (state.cases escalationId).change index change with
  | some cell => state.putCase index escalationId cell phase
  | none => state

/-- A request changes a run or its events, once no other transaction holds the row of the run. -/
def updateRun (workflowRunId : UUID) (change : AuditedRun → AuditedRun) (phase : RequestPhase) :
    RequestState :=
  match (state.runs workflowRunId).change index change with
  | some cell => state.putRun index workflowRunId cell phase
  | none => state

/-- A request inserts the attempt of a human resolution, once no other transaction has inserted one
with its number; where one is stored, the unique constraint refuses it. -/
def insertHumanAttempt (row : StepAttemptModel) (phase : RequestPhase) : RequestState :=
  let cell := state.humanAttempts row.stepId
  if cell.free index then
    match cell.visible index with
    | none => state.putHumanAttempt index row.stepId (cell.write index (some row)) phase
    | some _ => state.answer index 500
  else state

/-- The claim is one update that selects the case only while it is open. -/
def claim (served : Served) (escalationId : UUID) (now : Timestamp) : RequestState :=
  match (state.cases escalationId).visible index with
  | some row =>
    if row.state = .opened then
      state.updateCase index escalationId
        (EscalationCaseModel.claim served.actor now) (.claimed served escalationId)
    else state.proceed index (.unmatched escalationId)
  | none => state.proceed index (.unmatched escalationId)

/-- A decision reads its case and checks it. -/
def loadCase (served : Served) (escalationId : UUID) (decision : Decision) (now : Timestamp)
    (stepAttemptId : UUID) : RequestState :=
  match (state.cases escalationId).visible index with
  | some esc =>
    if esc.state ≠ .claimed then state.answer index 409
    else if esc.claimedBy ≠ some served.actor then state.answer index 403
    else state.proceed index
      (.caseLoaded served ⟨escalationId, decision, esc, now, stepAttemptId⟩)
  | none => state.answer index 404

/-- A cancel request reads its run and checks it. -/
def loadCancelled (served : Served) (workflowRunId : UUID) (body : CancelRequest) :
    RequestState :=
  match (state.runs workflowRunId).visible index with
  | some row =>
    if cancellable row.run.state then
      state.proceed index (.cancelLoaded served workflowRunId body row.run)
    else state.answer index 409
  | none => state.answer index 404

/-- A decision reads its run, which it is going to change in some states. -/
def loadRun (served : Served) (making : Making) : RequestState :=
  match (state.runs making.esc.workflowRunId).visible index with
  | some row =>
    if making.decision.takes row.run.state then
      state.proceed index (.runLoaded served making row.run)
    else state.proceed index (.changed served making.request (making.call served.actor))
  | none => state.proceed index (.changed served making.request (making.call served.actor))

/-- The cancel is one update that selects the run only in the version that was read. -/
def cancel (served : Served) (workflowRunId : UUID) (body : CancelRequest)
    (run : WorkflowRunModel) (now : Timestamp) : RequestState :=
  match (state.runs workflowRunId).visible index with
  | some row =>
    if row.run.version = run.version then
      state.updateRun index workflowRunId
        (fun row => { row with run := { row.run with
          state := .cancelled, version := run.version + 1, updatedAt := now } })
        (.changed served (.cancel workflowRunId body)
          (cancelRequestEvent workflowRunId body served.actor))
    else state.answer index 409
  | none => state.answer index 409

/-- The first statement of an authenticated request, whose role is checked before. -/
def begin (served : Served) (request : CaseRequest) (now : Timestamp) (id : UUID) :
    RequestState :=
  if served.principal.role ∈ request.roles then
    match request with
    | .claim escalationId => state.claim index served escalationId now
    | .decide escalationId decision => state.loadCase index served escalationId decision now id
    | .cancel workflowRunId body => state.loadCancelled index served workflowRunId body
  else state.answer index 403

/-- The next statement of a request; one that has to wait does nothing. -/
def perform (now : Timestamp) (id : UUID) : RequestState :=
  match state.phase index with
  | .received apiKeyId request =>
    match (state.apiKeys apiKeyId).visible index with
    | some key =>
      if key.usable now then
        state.proceed index (.keyRead ⟨apiKeyId, key⟩ request)
      else state.answer index 401
    | none => state.answer index 401
  | .keyRead served request =>
    state.updateKey index served.apiKeyId (ApiKeyModel.touch now) (.authenticated served request)
  | .authenticated served request => state.begin index served request now id
  | .unmatched escalationId =>
    match (state.cases escalationId).visible index with
    | some _ => state.answer index 409
    | none => state.answer index 404
  | .claimed served escalationId =>
    match (state.cases escalationId).visible index with
    | some row => state.proceed index (.changed served (.claim escalationId)
        (claimedEvent row.workflowRunId escalationId served.actor))
    | none => state.answer index 500
  | .caseLoaded served making =>
    state.updateCase index making.escalationId
      (EscalationCaseModel.decide making.decision.state served.actor
        making.decision.payload making.now)
      (.caseFlushed served making)
  | .caseFlushed served making =>
    match making.decision with
    | .resolve _ => state.insertHumanAttempt index
        (humanAttempt making.stepAttemptId making.esc.stepId 99 making.now)
        (.attemptFlushed served making)
    | .reject _ => state.proceed index (.attemptFlushed served making)
  | .attemptFlushed served making => state.loadRun index served making
  | .runLoaded served making run =>
    state.updateRun index making.esc.workflowRunId
      (fun row => { row with run := making.decision.writeRun run making.now row.run })
      (.changed served making.request (making.call served.actor))
  | .cancelLoaded served workflowRunId body run =>
    state.cancel index served workflowRunId body run now
  | .changed served request call =>
    state.updateRun index call.workflowRunId (fun row => row) (.runLocked served request call)
  | .runLocked served request call =>
    state.proceed index (.latestRead served request call
      (((state.runs call.workflowRunId).visible index).bind fun row =>
        getLatestForRun row.events call.workflowRunId))
  | .latestRead served request call latest =>
    state.updateRun index call.workflowRunId
      (fun row => { row with events := row.events ++ [nextAuditEvent latest call ⟨id, now⟩] })
      (.appended served request)
  | .appended _ _ => state.commit index
  | .answered _ => state

/-- One action of one request. A request that is already answered has no transaction. -/
def step (state : RequestState) : Nat × RequestAction → RequestState
  | (index, .statement now id) => state.perform index now id
  | (index, .rollback) =>
    match state.phase index with
    | .answered _ => state
    | _ => state.answer index 500

end RequestState

/-! ### Before the requests -/

/-- Rows that no transaction holds, and the requests. -/
def RequestState.quiet (apiKeys : UUID → Option ApiKeyModel)
    (cases : UUID → Option EscalationCaseModel) (humanAttempts : UUID → Option StepAttemptModel)
    (runs : UUID → Option AuditedRun) (phase : Nat → RequestPhase) : RequestState where
  apiKeys id := ⟨apiKeys id, none⟩
  cases id := ⟨cases id, none⟩
  humanAttempts id := ⟨humanAttempts id, none⟩
  runs id := ⟨runs id, none⟩
  phase := phase

/-- Any requests, each with the key it presents, before their first statements. -/
def RequestState.initial (apiKeys : UUID → Option ApiKeyModel)
    (cases : UUID → Option EscalationCaseModel) (humanAttempts : UUID → Option StepAttemptModel)
    (runs : UUID → Option AuditedRun) (requests : Nat → UUID × CaseRequest) : RequestState :=
  .quiet apiKeys cases humanAttempts runs fun index =>
    .received (requests index).1 (requests index).2

/-! ### What one action does -/

/-- What one action of a request does, with the facts its branch rests on. -/
inductive RequestStep (state : RequestState) (index : Nat) : RequestState → Prop
  | waits : RequestStep state index state
  | refuses {statusCode : Nat} (error : statusCode ≠ 200) :
    RequestStep state index (state.answer index statusCode)
  | readsKey {apiKeyId : UUID} {request : CaseRequest} {key : ApiKeyModel}
    (phase : state.phase index = .received apiKeyId request) :
    RequestStep state index (state.proceed index (.keyRead ⟨apiKeyId, key⟩ request))
  | touchesKey {served : Served} {request : CaseRequest} {row : ApiKeyModel}
    (phase : state.phase index = .keyRead served request)
    (isFree : (state.apiKeys served.apiKeyId).free index = true) :
    RequestStep state index (state.putKey index served.apiKeyId
      ((state.apiKeys served.apiKeyId).write index (some row)) (.authenticated served request))
  | misses {served : Served} {escalationId : UUID}
    (phase : state.phase index = .authenticated served (.claim escalationId)) :
    RequestStep state index (state.proceed index (.unmatched escalationId))
  | claims {served : Served} {escalationId : UUID} {now : Timestamp} {row : EscalationCaseModel}
    (phase : state.phase index = .authenticated served (.claim escalationId))
    (admitted : served.principal.role ∈ (CaseRequest.claim escalationId).roles)
    (seen : (state.cases escalationId).visible index = some row) (opened : row.state = .opened)
    (isFree : (state.cases escalationId).free index = true) :
    RequestStep state index (state.putCase index escalationId
      ((state.cases escalationId).write index (some (row.claim served.actor now)))
      (.claimed served escalationId))
  | loadsCase {served : Served} {making : Making}
    (phase : state.phase index = .authenticated served making.request)
    (admitted : served.principal.role ∈ making.request.roles)
    (seen : (state.cases making.escalationId).visible index = some making.esc)
    (claimed : making.esc.state = .claimed) (held : making.esc.claimedBy = some served.actor) :
    RequestStep state index (state.proceed index (.caseLoaded served making))
  | loadsCancelled {served : Served} {workflowRunId : UUID} {body : CancelRequest}
    {row : AuditedRun}
    (phase : state.phase index = .authenticated served (.cancel workflowRunId body))
    (admitted : served.principal.role ∈ (CaseRequest.cancel workflowRunId body).roles)
    (seen : (state.runs workflowRunId).visible index = some row)
    (can : cancellable row.run.state = true) :
    RequestStep state index (state.proceed index (.cancelLoaded served workflowRunId body row.run))
  | readsClaimed {served : Served} {escalationId : UUID} {row : EscalationCaseModel}
    (phase : state.phase index = .claimed served escalationId)
    (seen : (state.cases escalationId).visible index = some row) :
    RequestStep state index (state.proceed index (.changed served (.claim escalationId)
      (claimedEvent row.workflowRunId escalationId served.actor)))
  | flushesCase {served : Served} {making : Making} {row : EscalationCaseModel}
    (phase : state.phase index = .caseLoaded served making)
    (seen : (state.cases making.escalationId).visible index = some row)
    (isFree : (state.cases making.escalationId).free index = true) :
    RequestStep state index (state.putCase index making.escalationId
      ((state.cases making.escalationId).write index (some (row.decide making.decision.state
        served.actor making.decision.payload making.now)))
      (.caseFlushed served making))
  | insertsAttempt {served : Served} {making : Making} {row : StepAttemptModel}
    (phase : state.phase index = .caseFlushed served making)
    (isFree : (state.humanAttempts row.stepId).free index = true) :
    RequestStep state index (state.putHumanAttempt index row.stepId
      ((state.humanAttempts row.stepId).write index (some row)) (.attemptFlushed served making))
  | insertsNothing {served : Served} {making : Making}
    (phase : state.phase index = .caseFlushed served making) :
    RequestStep state index (state.proceed index (.attemptFlushed served making))
  | loadsRun {served : Served} {making : Making} {row : AuditedRun}
    (phase : state.phase index = .attemptFlushed served making)
    (seen : (state.runs making.esc.workflowRunId).visible index = some row)
    (takes : making.decision.takes row.run.state = true) :
    RequestStep state index (state.proceed index (.runLoaded served making row.run))
  | leavesRun {served : Served} {making : Making}
    (phase : state.phase index = .attemptFlushed served making)
    (leaves : ∀ row, (state.runs making.esc.workflowRunId).visible index = some row →
      making.decision.takes row.run.state = false) :
    RequestStep state index (state.proceed index
      (.changed served making.request (making.call served.actor)))
  | flushesRun {served : Served} {making : Making} {run : WorkflowRunModel} {row : AuditedRun}
    (phase : state.phase index = .runLoaded served making run)
    (seen : (state.runs making.esc.workflowRunId).visible index = some row)
    (isFree : (state.runs making.esc.workflowRunId).free index = true) :
    RequestStep state index (state.putRun index making.esc.workflowRunId
      ((state.runs making.esc.workflowRunId).write index
        (some { row with run := making.decision.writeRun run making.now row.run }))
      (.changed served making.request (making.call served.actor)))
  | cancels {served : Served} {workflowRunId : UUID} {body : CancelRequest}
    {run : WorkflowRunModel} {row : AuditedRun} {now : Timestamp}
    (phase : state.phase index = .cancelLoaded served workflowRunId body run)
    (seen : (state.runs workflowRunId).visible index = some row)
    (same : row.run.version = run.version)
    (isFree : (state.runs workflowRunId).free index = true) :
    RequestStep state index (state.putRun index workflowRunId
      ((state.runs workflowRunId).write index (some { row with run := { row.run with
        state := .cancelled, version := run.version + 1, updatedAt := now } }))
      (.changed served (.cancel workflowRunId body)
        (cancelRequestEvent workflowRunId body served.actor)))
  | locksRun {served : Served} {request : CaseRequest} {call : AppendCall} {row : AuditedRun}
    (phase : state.phase index = .changed served request call)
    (seen : (state.runs call.workflowRunId).visible index = some row)
    (isFree : (state.runs call.workflowRunId).free index = true) :
    RequestStep state index (state.putRun index call.workflowRunId
      ((state.runs call.workflowRunId).write index (some row)) (.runLocked served request call))
  | readsLatest {served : Served} {request : CaseRequest} {call : AppendCall}
    (phase : state.phase index = .runLocked served request call) :
    RequestStep state index (state.proceed index (.latestRead served request call
      (((state.runs call.workflowRunId).visible index).bind fun row =>
        getLatestForRun row.events call.workflowRunId)))
  | appends {served : Served} {request : CaseRequest} {call : AppendCall}
    {latest : Option AuditEventModel} {row : AuditedRun} {draw : EventDraw}
    (phase : state.phase index = .latestRead served request call latest)
    (seen : (state.runs call.workflowRunId).visible index = some row)
    (isFree : (state.runs call.workflowRunId).free index = true) :
    RequestStep state index (state.putRun index call.workflowRunId
      ((state.runs call.workflowRunId).write index
        (some { row with events := row.events ++ [nextAuditEvent latest call draw] }))
      (.appended served request))
  | commits {served : Served} {request : CaseRequest}
    (phase : state.phase index = .appended served request) :
    RequestStep state index (state.commit index)

namespace RequestState

variable {state : RequestState} {index : Nat}

theorem claim_cases {served : Served} {escalationId : UUID} (now : Timestamp)
    (phase : state.phase index = .authenticated served (.claim escalationId))
    (admitted : served.principal.role ∈ (CaseRequest.claim escalationId).roles) :
    RequestStep state index (state.claim index served escalationId now) := by
  unfold claim
  split
  · rename_i row seen
    split
    · rename_i opened
      unfold updateCase
      split
      · rename_i cell changed
        obtain ⟨found, foundSeen, isFree, rfl⟩ := Cell.change_eq_some.mp changed
        cases seen.symm.trans foundSeen
        exact .claims phase admitted seen opened isFree
      · exact .waits
    · exact .misses phase
  · exact .misses phase

theorem loadCase_cases {served : Served} {escalationId : UUID} {decision : Decision}
    (now : Timestamp) (stepAttemptId : UUID)
    (phase : state.phase index = .authenticated served (.decide escalationId decision))
    (admitted : served.principal.role ∈ (CaseRequest.decide escalationId decision).roles) :
    RequestStep state index
      (state.loadCase index served escalationId decision now stepAttemptId) := by
  unfold loadCase
  split
  · rename_i esc seen
    split
    · exact .refuses (by decide)
    · rename_i claimed
      split
      · exact .refuses (by decide)
      · rename_i held
        exact .loadsCase phase admitted seen (not_not.mp claimed) (not_not.mp held)
  · exact .refuses (by decide)

theorem loadCancelled_cases {served : Served} {workflowRunId : UUID} {body : CancelRequest}
    (phase : state.phase index = .authenticated served (.cancel workflowRunId body))
    (admitted : served.principal.role ∈ (CaseRequest.cancel workflowRunId body).roles) :
    RequestStep state index (state.loadCancelled index served workflowRunId body) := by
  unfold loadCancelled
  split
  · rename_i row seen
    split
    · rename_i can
      exact .loadsCancelled phase admitted seen can
    · exact .refuses (by decide)
  · exact .refuses (by decide)

theorem loadRun_cases {served : Served} {making : Making}
    (phase : state.phase index = .attemptFlushed served making) :
    RequestStep state index (state.loadRun index served making) := by
  unfold loadRun
  split
  · rename_i row seen
    split
    · rename_i takes
      exact .loadsRun phase seen takes
    · rename_i leaves
      refine .leavesRun phase fun found foundSeen => ?_
      cases seen.symm.trans foundSeen
      exact Bool.eq_false_iff.mpr leaves
  · rename_i unseen
    refine .leavesRun phase fun found foundSeen => ?_
    rw [unseen] at foundSeen
    cases foundSeen

theorem cancel_cases {served : Served} {workflowRunId : UUID} {body : CancelRequest}
    {run : WorkflowRunModel} (now : Timestamp)
    (phase : state.phase index = .cancelLoaded served workflowRunId body run) :
    RequestStep state index (state.cancel index served workflowRunId body run now) := by
  unfold cancel
  split
  · rename_i row seen
    split
    · rename_i same
      unfold updateRun
      split
      · rename_i cell changed
        obtain ⟨found, foundSeen, isFree, rfl⟩ := Cell.change_eq_some.mp changed
        cases seen.symm.trans foundSeen
        exact .cancels phase seen same isFree
      · exact .waits
    · exact .refuses (by decide)
  · exact .refuses (by decide)

/-- An update of a run is a step when the write it comes to is one. -/
theorem updateRun_cases {workflowRunId : UUID} {change : AuditedRun → AuditedRun}
    {phase : RequestPhase}
    (written : ∀ row, (state.runs workflowRunId).visible index = some row →
      (state.runs workflowRunId).free index = true →
      RequestStep state index (state.putRun index workflowRunId
        ((state.runs workflowRunId).write index (some (change row))) phase)) :
    RequestStep state index (state.updateRun index workflowRunId change phase) := by
  unfold updateRun
  split
  · rename_i cell changed
    obtain ⟨row, seen, isFree, rfl⟩ := Cell.change_eq_some.mp changed
    exact written row seen isFree
  · exact .waits

/-- Every action does one of these things. -/
theorem step_cases (state : RequestState) (label : Nat × RequestAction) :
    RequestStep state label.1 (state.step label) := by
  obtain ⟨index, action⟩ := label
  cases action with
  | rollback =>
    unfold step
    dsimp only
    split
    · exact .waits
    · exact .refuses (by decide)
  | statement now id =>
    show RequestStep state index (state.perform index now id)
    unfold perform
    split
    · rename_i apiKeyId request phase
      split
      · split
        · exact .readsKey phase
        · exact .refuses (by decide)
      · exact .refuses (by decide)
    · rename_i served request phase
      unfold updateKey
      split
      · rename_i cell changed
        obtain ⟨row, seen, isFree, rfl⟩ := Cell.change_eq_some.mp changed
        exact .touchesKey phase isFree
      · exact .waits
    · rename_i served request phase
      unfold begin
      split
      · rename_i admitted
        cases request with
        | claim escalationId => exact claim_cases now phase admitted
        | decide escalationId decision => exact loadCase_cases now id phase admitted
        | cancel workflowRunId body => exact loadCancelled_cases phase admitted
      · exact .refuses (by decide)
    · split
      · exact .refuses (by decide)
      · exact .refuses (by decide)
    · rename_i served escalationId phase
      split
      · rename_i row seen
        exact .readsClaimed phase seen
      · exact .refuses (by decide)
    · rename_i served making phase
      unfold updateCase
      split
      · rename_i cell changed
        obtain ⟨row, seen, isFree, rfl⟩ := Cell.change_eq_some.mp changed
        exact .flushesCase phase seen isFree
      · exact .waits
    · rename_i served making phase
      split
      · unfold insertHumanAttempt
        dsimp only
        split
        · rename_i isFree
          split
          · exact .insertsAttempt phase isFree
          · exact .refuses (by decide)
        · exact .waits
      · exact .insertsNothing phase
    · rename_i served making phase
      exact loadRun_cases phase
    · rename_i served making run phase
      exact updateRun_cases fun row seen isFree => .flushesRun phase seen isFree
    · rename_i served workflowRunId body run phase
      exact cancel_cases now phase
    · rename_i served request call phase
      exact updateRun_cases fun row seen isFree => .locksRun phase seen isFree
    · rename_i served request call phase
      exact .readsLatest phase
    · rename_i served request call latest phase
      exact updateRun_cases fun row seen isFree => .appends phase seen isFree
    · rename_i served request phase
      exact .commits phase
    · exact .waits

end RequestState

/-- An action moves rows as one transaction may, and no other request. -/
structure RequestFrame (state : RequestState) (index : Nat) (next : RequestState) : Prop where
  apiKeys : ∀ id, Cell.Moves index (state.apiKeys id) (next.apiKeys id)
  cases : ∀ id, Cell.Moves index (state.cases id) (next.cases id)
  runs : ∀ id, Cell.Moves index (state.runs id) (next.runs id)
  phase : ∀ other, other ≠ index → next.phase other = state.phase other

variable {state next : RequestState} {index : Nat}

theorem requestFrame_of_phase (phase : RequestPhase) (apiKeys : next.apiKeys = state.apiKeys)
    (cases : next.cases = state.cases) (runs : next.runs = state.runs)
    (moved : next.phase = Function.update state.phase index phase) :
    RequestFrame state index next where
  apiKeys _ := apiKeys ▸ .stays
  cases _ := cases ▸ .stays
  runs _ := runs ▸ .stays
  phase _ different := by rw [moved, Function.update_of_ne different]

theorem requestFrame_proceed (state : RequestState) (index : Nat) (phase : RequestPhase) :
    RequestFrame state index (state.proceed index phase) :=
  requestFrame_of_phase phase rfl rfl rfl rfl

theorem requestFrame_putKey {apiKeyId : UUID} (phase : RequestPhase)
    (isFree : (state.apiKeys apiKeyId).free index = true) (row : Option ApiKeyModel) :
    RequestFrame state index
      (state.putKey index apiKeyId ((state.apiKeys apiKeyId).write index row) phase) where
  apiKeys := Cell.moves_update_write isFree row
  cases _ := .stays
  runs _ := .stays
  phase _ different := Function.update_of_ne different _ _

theorem requestFrame_putCase {escalationId : UUID} (phase : RequestPhase)
    (isFree : (state.cases escalationId).free index = true) (row : Option EscalationCaseModel) :
    RequestFrame state index
      (state.putCase index escalationId ((state.cases escalationId).write index row) phase) where
  apiKeys _ := .stays
  cases := Cell.moves_update_write isFree row
  runs _ := .stays
  phase _ different := Function.update_of_ne different _ _

theorem requestFrame_putRun {workflowRunId : UUID} (phase : RequestPhase)
    (isFree : (state.runs workflowRunId).free index = true) (row : Option AuditedRun) :
    RequestFrame state index
      (state.putRun index workflowRunId ((state.runs workflowRunId).write index row) phase) where
  apiKeys _ := .stays
  cases _ := .stays
  runs := Cell.moves_update_write isFree row
  phase _ different := Function.update_of_ne different _ _

theorem RequestStep.frame (step : RequestStep state index next) :
    RequestFrame state index next := by
  cases step with
  | waits => exact ⟨fun _ => .stays, fun _ => .stays, fun _ => .stays, fun _ _ => rfl⟩
  | refuses =>
    exact ⟨fun _ => .rollsBack, fun _ => .rollsBack, fun _ => .rollsBack,
      fun _ different => Function.update_of_ne different _ _⟩
  | commits =>
    exact ⟨fun _ => .commits, fun _ => .commits, fun _ => .commits,
      fun _ different => Function.update_of_ne different _ _⟩
  | touchesKey _ isFree => exact requestFrame_putKey _ isFree _
  | claims _ _ _ _ isFree | flushesCase _ _ isFree => exact requestFrame_putCase _ isFree _
  | flushesRun _ _ isFree | cancels _ _ _ isFree | locksRun _ _ isFree | appends _ _ isFree =>
    exact requestFrame_putRun _ isFree _
  | readsKey | misses | loadsCase | loadsCancelled | readsClaimed | insertsNothing | loadsRun
  | leavesRun | readsLatest => exact requestFrame_proceed _ _ _
  | insertsAttempt => exact requestFrame_of_phase _ rfl rfl rfl rfl

/-! ### Answers -/

/-- The same rows are committed. -/
structure SameRows (state next : RequestState) : Prop where
  apiKeys : ∀ id, (next.apiKeys id).committed = (state.apiKeys id).committed
  cases : ∀ id, (next.cases id).committed = (state.cases id).committed
  humanAttempts : ∀ id, (next.humanAttempts id).committed = (state.humanAttempts id).committed
  runs : ∀ id, (next.runs id).committed = (state.runs id).committed

/-- An action changes no committed row, or it is the commit of its request, which is answered with
its success. -/
theorem RequestStep.sameRows_or (step : RequestStep state index next) :
    SameRows state next ∨
      (∃ served request, state.phase index = .appended served request) ∧
        next = state.commit index := by
  cases step with
  | commits phase => exact .inr ⟨⟨_, _, phase⟩, rfl⟩
  | refuses =>
    exact .inl ⟨fun _ => Cell.committed_rollback _ _, fun _ => Cell.committed_rollback _ _,
      fun _ => Cell.committed_rollback _ _, fun _ => Cell.committed_rollback _ _⟩
  | touchesKey =>
    exact .inl ⟨fun _ => Cell.committed_update_write _ _ _ _ _, fun _ => rfl, fun _ => rfl,
      fun _ => rfl⟩
  | claims | flushesCase =>
    exact .inl ⟨fun _ => rfl, fun _ => Cell.committed_update_write _ _ _ _ _, fun _ => rfl,
      fun _ => rfl⟩
  | insertsAttempt =>
    exact .inl ⟨fun _ => rfl, fun _ => rfl, fun _ => Cell.committed_update_write _ _ _ _ _,
      fun _ => rfl⟩
  | flushesRun | cancels | locksRun | appends =>
    exact .inl ⟨fun _ => rfl, fun _ => rfl, fun _ => rfl,
      fun _ => Cell.committed_update_write _ _ _ _ _⟩
  | waits | readsKey | misses | loadsCase | loadsCancelled | readsClaimed | insertsNothing
  | loadsRun | leavesRun | readsLatest =>
    exact .inl ⟨fun _ => rfl, fun _ => rfl, fun _ => rfl, fun _ => rfl⟩

theorem RequestState.step_answered {statusCode : Nat} {label : Nat × RequestAction}
    (answered : state.phase label.1 = .answered statusCode) : state.step label = state := by
  obtain ⟨index, action⟩ := label
  dsimp only at answered
  cases action with
  | statement now id => simp only [RequestState.step, RequestState.perform, answered]
  | rollback => simp only [RequestState.step, answered]

/-- An answer is final. -/
theorem RequestState.phase_answered {statusCode : Nat} {label : Nat × RequestAction}
    (answered : state.phase index = .answered statusCode) :
    (state.step label).phase index = .answered statusCode := by
  by_cases same : index = label.1
  · subst same
    rw [RequestState.step_answered answered]
    exact answered
  · exact ((state.step_cases label).frame.phase index same).trans answered

open Transition in
/-- A request whose answer is an error has changed no committed row. -/
theorem sameRows_of_refused {start : RequestState} {labels : List (Nat × RequestAction)}
    {statusCode : Nat} (error : statusCode ≠ 200)
    (answered : (run RequestState.step start labels).phase index = .answered statusCode) :
    Along RequestState.step
      (fun state label => label.1 = index → SameRows state (state.step label)) start labels := by
  induction labels generalizing start with
  | nil => exact trivial
  | cons label rest inductionHypothesis =>
    refine ⟨fun own => ?_, inductionHypothesis answered⟩
    subst own
    refine (start.step_cases label).sameRows_or.resolve_right ?_
    rintro ⟨-, committed⟩
    have success : (start.step label).phase label.1 = .answered 200 := by
      rw [committed]
      exact Function.update_self ..
    have final := run_invariant_always RequestState.step
      (fun state => state.phase label.1 = .answered 200)
      (fun _ _ => RequestState.phase_answered) _ success rest
    cases final.symm.trans answered
    exact error rfl

end InsuranceOps
