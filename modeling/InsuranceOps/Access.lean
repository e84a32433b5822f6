/-
This file puts the gate of the API in front of its routes: a request carries a
token, the key of the token is looked up by its hash and must be neither
revoked nor expired, its role must be one the route admits, and its budget of
requests must not be used up; only then the route runs. The session commits
when the route returns, and what a refused request wrote is rolled back. So
whatever is sent, every audit event names the worker that wrote it or a key
that was valid for that very request and had a role for it. An upload passes the
same gate and writes a row, but no audit event.
-/

import InsuranceOps.Library.WaitingLine
import InsuranceOps.Outcomes
import InsuranceOps.Platform
import InsuranceOps.RateLimit
import InsuranceOps.Requests

namespace InsuranceOps

open Relational WorkflowOrchestrator

/-! ### Keys -/

/-- A row of `api_keys` with the columns it is found by. -/
structure ApiKeyRow extends ApiKeyModel where
  apiKeyId : UUID
  keyHash : List UInt8

/-- A key has one row, and a hash one key. -/
abbrev apiKeyKeys : List (UniqueKey ApiKeyRow String) := [
  { name := "api_keys_pkey", Key := UUID, key := ApiKeyRow.apiKeyId },
  { name := "api_keys_key_hash_key", Key := List UInt8, key := ApiKeyRow.keyHash }]

/-- `sha256(pepper || token)`. -/
def computeKeyHash (pepper token : String) : List UInt8 :=
  Sha256.digest (utf8 (pepper ++ token).toList)

/-- A key is used. -/
abbrev ApiKeyRow.use (now : Timestamp) (row : ApiKeyRow) : ApiKeyRow :=
  { row with toApiKeyModel := row.touch now }

/-- The time of the last use of a key is recorded. -/
def recordUse (keys : Table apiKeyKeys) (apiKeyId : UUID) (now : Timestamp) : Table apiKeyKeys :=
  keys.update (fun row => row.apiKeyId = apiKeyId) (ApiKeyRow.use now)
    (List.forall_mem_cons.mpr ⟨fun _ => rfl, List.forall_mem_singleton.mpr fun _ => rfl⟩)

/-- The key with a hash. -/
def getByKeyHash (keys : Table apiKeyKeys) (keyHash : List UInt8) : Option ApiKeyRow :=
  keys.rows.find? fun row => row.keyHash = keyHash

theorem getByKeyHash_some {keys : Table apiKeyKeys} {keyHash : List UInt8} {key : ApiKeyRow}
    (found : getByKeyHash keys keyHash = some key) : key ∈ keys.rows ∧ key.keyHash = keyHash := by
  have hashed := List.find?_some found
  exact ⟨List.mem_of_find?_eq_some found, of_decide_eq_true hashed⟩

/-- Authenticate a raw API key token; the error is the text of the `ValueError`. -/
def authenticateApiKey (token : String) (keys : Table apiKeyKeys) (pepper : String)
    (now : Timestamp) : Except String (ApiKeyPrincipal × Table apiKeyKeys) :=
  match getByKeyHash keys (computeKeyHash pepper token) with
  | none => .error "Invalid API key"
  | some apiKey =>
    if apiKey.revokedAt.isSome then .error "API key has been revoked"
    else if apiKey.expiresAt.any (· ≤ now) then .error "API key has expired"
    else .ok (apiKey.principal apiKey.apiKeyId, recordUse keys apiKey.apiKeyId now)

/-! ### The budget -/

/-- The settings the gate reads. -/
structure GateSettings where
  apiKeyHashPepper : String := ""
  rateLimitEnabled : Bool := true
  rateLimitWindowSeconds : Int := 60
  rateLimitOperatorMax : Int := 1200
  rateLimitSupervisorMax : Int := 1200
  rateLimitViewerMax : Int := 600

/-- Return the rate limit ceiling for a given role. -/
def getMaxRequestsForRole (role : String) (operatorMax supervisorMax viewerMax : Int) : Int :=
  if role = "operator" then operatorMax
  else if role = "supervisor" then supervisorMax
  else viewerMax

/-- What Redis does for a call: it answers at a time of its own, or one of the commands raises. -/
inductive RedisDraw where
  | answers (time : ℚ)
  | incrRaises
  | expireRaises (time : ℚ)

/-- Check and increment the rate limit counter for an API key. An error of Redis lets the request
through. -/
def checkRateLimit (call : RateCall) (redis : RedisDraw) (state : RateState) :
    RateState × RateAnswer :=
  match redis with
  | .incrRaises => (state, if call.windowSeconds = 0 then .raised else .allowed)
  | .answers time | .expireRaises time =>
    match incr (fun _ => call) state 0 time with
    | (counted, some (_, answer)) => (counted, answer)
    | (counted, none) =>
      match redis with
      | .expireRaises _ => (counted, .allowed)
      | _ =>
        let (expiring, answer) := expire (fun _ => call) (fun _ _ => false) counted 0 time
        (expiring, (answer.map Prod.snd).getD .allowed)

/-! ### Requests -/

/-- The roles a route admits. -/
def RouteRequest.roles : RouteRequest → List String
  | .cancelWorkflowRun _ _ => ["supervisor"]
  | .createWorkflowRun _ | .claimEscalation _ | .resolveEscalation _ _ | .rejectEscalation _ _ =>
    ["operator", "supervisor"]

/-- The type of the event a route writes. -/
def RouteRequest.eventType : RouteRequest → String
  | .createWorkflowRun _ => "workflow_run.started"
  | .cancelWorkflowRun _ _ => "workflow_run.cancelled"
  | .claimEscalation _ => "escalation.claimed"
  | .resolveEscalation _ _ => "escalation.resolved"
  | .rejectEscalation _ _ => "escalation.rejected"

/-- A route behind the gate: one of the five that write an audit event; an upload, with the document
it stores or what its payload store or its row raises; a download; or one of the routes that read
runs, events and cases. The latter may raise as well. -/
inductive ApiCall where
  | write (made : RouteRequest)
  | upload (outcome : Except Failure UUID)
  | download (failure : Option Failure)
  | read (failure : Option Failure)

def ApiCall.roles : ApiCall → List String
  | .write made => made.roles
  | .upload _ | .download _ => ["operator", "supervisor"]
  | .read _ => ["operator", "supervisor", "viewer"]

/-- What a route flushes or raises. -/
def ApiCall.perform (registry : WorkflowRegistry) (db : Database) (draws : Draws)
    (principal : ApiKeyPrincipal) : ApiCall → Except Failure Database
  | .write made => made.perform registry db draws principal
  | .upload (.ok documentId) => .ok { db with documents := db.documents ++ [documentId] }
  | .upload (.error failure) | .download (some failure) | .read (some failure) => .error failure
  | .download none | .read none => .ok db

/-- A request: its bearer token, its route, the clocks it meets and the draws of its route. -/
structure HttpRequest where
  token : Option String
  call : ApiCall
  now : Timestamp
  clock : Int
  redis : RedisDraw
  draws : Draws

/-- What a request gets. -/
inductive HttpAnswer where
  | served
  | refused (statusCode : Nat) (detail : String)
  | limited (retryAfter : Int)
  | raised (failure : Failure)
  deriving DecidableEq

/-- The database, the keys, the counters of the rate limiter and the task queue. -/
structure ApiState where
  db : Database
  keys : Table apiKeyKeys
  rate : RateState
  queue : TaskQueue

/-- A request, a change of the keys by an administrator, or a step of another process. -/
inductive ApiEvent where
  | http (request : HttpRequest)
  | administer (keys : Table apiKeyKeys)
  | relay (draws : RelayDraws)
  | schedule (acquired : Bool) (now : Timestamp)
  | work (workerId : String) (returned : HandlerReturn) (draws : Draws)
  | reap (visibilityTimeout now : ℚ) (workerIds : List String)

section Gate

variable (settings : GateSettings)

/-- The rate limit, after a successful authentication. -/
def checkBudget (request : HttpRequest) (principal : ApiKeyPrincipal) (rate : RateState) :
    Except HttpAnswer Unit × RateState :=
  if settings.rateLimitEnabled then
    let call : RateCall :=
      { apiKeyId := (uuidOfText principal.apiKeyId.toList).getD 0
        windowSeconds := settings.rateLimitWindowSeconds
        maxRequests := getMaxRequestsForRole principal.role settings.rateLimitOperatorMax
          settings.rateLimitSupervisorMax settings.rateLimitViewerMax
        now := request.clock }
    let (counted, answer) := checkRateLimit call request.redis rate
    match answer with
    | .allowed => (.ok (), counted)
    | .denied retryAfter => (.error (.limited retryAfter), counted)
    | .raised => (.error (.raised (.exception "ZeroDivisionError")), counted)
  else (.ok (), rate)

/-- The dependency `requires_role`: the principal and the keys, or what is raised; and the
counters. -/
def gate (request : HttpRequest) (keys : Table apiKeyKeys) (rate : RateState) :
    Except HttpAnswer (ApiKeyPrincipal × Table apiKeyKeys) × RateState :=
  let token := request.token.getD ""
  if token = "" then (.error (.refused 401 "Missing or invalid Authorization header"), rate)
  else
    match authenticateApiKey token keys settings.apiKeyHashPepper request.now with
    | .error detail => (.error (.refused 401 detail), rate)
    | .ok (principal, used) =>
      if principal.role ∈ request.call.roles then
        let (budget, counted) := checkBudget settings request principal rate
        (budget.map fun _ => (principal, used), counted)
      else (.error (.refused 403
        s!"Role '{principal.role}' is not authorized for this endpoint"), rate)

variable (registry : WorkflowRegistry)

/-- Serve a request. The session commits when the route returns, and rolls back when the gate or
the route raises. -/
def serve (state : ApiState) (request : HttpRequest) : ApiState × HttpAnswer :=
  match gate settings request state.keys state.rate with
  | (.error answer, rate) => ({ state with rate := rate }, answer)
  | (.ok (principal, keys), rate) =>
    match request.call.perform registry state.db request.draws principal with
    | .ok db => ({ state with db := db, keys := keys, rate := rate }, .served)
    | .error failure => ({ state with rate := rate }, .raised failure)

variable (loads : String → Option Json)

def apiStep (state : ApiState) : ApiEvent → ApiState
  | .http request => (serve settings registry state request).1
  | .administer keys => { state with keys := keys }
  | .relay draws =>
    let (db, queue) := relayBatch draws state.db state.queue
    { state with db := db, queue := queue }
  | .schedule acquired now => { state with queue := schedulerPass acquired now state.queue }
  | .work workerId returned draws =>
    let (db, queue) :=
      workerIteration loads (fun _ _ => returned) draws workerId state.db state.queue
    { state with db := db, queue := queue }
  | .reap visibilityTimeout now workerIds =>
    { state with queue := reaperPass visibilityTimeout now workerIds state.queue }

end Gate

/-- No run, no key, no counter and no task. -/
def ApiState.empty (documents : List UUID) : ApiState where
  db := .empty documents
  keys := .empty
  rate := .fresh
  queue := .empty

/-! ### What a transaction logs -/

/-- The log grew by one event of a type and an actor. -/
def Logs (db next : Database) (eventType actor : String) : Prop :=
  ∃ event, next.contents.auditEvents = db.contents.auditEvents ++ [event] ∧
    event.eventType = eventType ∧ event.actor = actor

section Logged

variable {registry : WorkflowRegistry} {db next : Database} {draws : Draws}
  {principal : ApiKeyPrincipal}

theorem Logs.of_appended {before : Database} {call : AppendCall} {draw : EventDraw}
    (appended : before.appendAuditEvent call draw = .ok next)
    (same : before.contents.auditEvents = db.contents.auditEvents) :
    Logs db next call.eventType call.actor := by
  have events := congrArg Contents.auditEvents (Database.appendAuditEvent_ok appended)
  rw [same] at events
  exact ⟨_, events, rfl, rfl⟩

/-- A request that goes through has a role for its route and writes one event, which names its
principal. -/
theorem RouteRequest.logs {made : RouteRequest}
    (ran : made.perform registry db draws principal = .ok next) :
    principal.role ∈ made.roles ∧ Logs db next made.eventType principal.actorString := by
  cases made with
  | createWorkflowRun body =>
    obtain ⟨_, ran⟩ := RouteRequest.perform_create ran
    obtain ⟨_, admitted, ran⟩ := Fallible.bind_eq_ok.mp ran
    obtain ⟨definition, -, ran⟩ := Fallible.bind_eq_ok.mp ran
    obtain ⟨deadlineAt, -, ran⟩ := Fallible.bind_eq_ok.mp ran
    obtain ⟨created, runInserted, ran⟩ := Fallible.bind_eq_ok.mp ran
    obtain ⟨attached, documentsInserted, ran⟩ := Fallible.bind_eq_ok.mp ran
    obtain ⟨stepped, stepsInserted, ran⟩ := Fallible.bind_eq_ok.mp ran
    obtain ⟨⟨first, firstDefinition⟩, -, ran⟩ := Fallible.bind_eq_ok.mp ran
    obtain ⟨attempted, attemptInserted, ran⟩ := Fallible.bind_eq_ok.mp ran
    obtain ⟨queued, enqueued, ran⟩ := Fallible.bind_eq_ok.mp ran
    obtain ⟨audited, appended, done⟩ := Fallible.bind_eq_ok.mp ran
    cases done
    refine ⟨requiresRole_ok admitted, .of_appended appended ?_⟩
    simp only [Database.insertTasksOutbox_ok enqueued, Database.contents_updateWorkflowRun,
      (Database.insertStepAttempt_ok attemptInserted).2, (insertSteps_ok stepsInserted).1,
      insertDocuments_ok documentsInserted, (Database.insertWorkflowRun_ok runInserted).2]
  | cancelWorkflowRun workflowRunId body =>
    obtain ⟨_, admitted, ran⟩ := Fallible.bind_eq_ok.mp ran
    obtain ⟨run, -, ran⟩ := Fallible.bind_eq_ok.mp ran
    split at ran
    · exact ⟨requiresRole_ok admitted, .of_appended ran rfl⟩
    · cases ran
  | claimEscalation escalationId =>
    obtain ⟨_, admitted, ran⟩ := Fallible.bind_eq_ok.mp ran
    obtain ⟨found, -, ran⟩ := Fallible.bind_eq_ok.mp ran
    split at ran
    · exact ⟨requiresRole_ok admitted, .of_appended ran rfl⟩
    · cases ran
  | resolveEscalation escalationId body =>
    obtain ⟨_, admitted, ran⟩ := Fallible.bind_eq_ok.mp ran
    obtain ⟨found, -, ran⟩ := Fallible.bind_eq_ok.mp ran
    obtain ⟨attempted, inserted, ran⟩ := Fallible.bind_eq_ok.mp ran
    refine ⟨requiresRole_ok admitted, .of_appended ran ?_⟩
    simp only [resumeWaitingRun_contents, (Database.insertStepAttempt_ok inserted).2,
      Database.contents_updateEscalationCase]
  | rejectEscalation escalationId body =>
    obtain ⟨_, admitted, ran⟩ := Fallible.bind_eq_ok.mp ran
    obtain ⟨found, -, ran⟩ := Fallible.bind_eq_ok.mp ran
    refine ⟨requiresRole_ok admitted, .of_appended ran ?_⟩
    simp only [failOpenRun_contents, Database.contents_updateEscalationCase]

/-- An iteration of a worker writes no event, or that of an outcome, which names the worker. -/
theorem workerIteration_logs (loads : String → Option Json)
    (handle : String → StepContext → HandlerReturn) (workerId : String) (db : Database)
    (queue : TaskQueue) (draws : Draws) :
    (workerIteration loads handle draws workerId db queue).1.contents.auditEvents =
        db.contents.auditEvents ∨
      ∃ outcome : TaskOutcome, Logs db (workerIteration loads handle draws workerId db queue).1
        outcome.eventType s!"worker:main:{workerId}" := by
  cases claim : queue.claim workerId with
  | none =>
    unfold workerIteration
    rw [claim]
    exact .inl rfl
  | some claimed =>
    rw [workerIteration_some claim, settle_fst]
    cases processed : processTask loads handle db draws workerId claimed.1 with
    | error failure => exact .inl rfl
    | ok disposition =>
      cases disposition with
      | deadLetter => exact .inl rfl
      | alreadyTerminal => exact .inl rfl
      | written flushed =>
        obtain ⟨rows, outcome, -, -, -, written⟩ := processTask_steps processed
        obtain ⟨change, -, contents⟩ := writeOutcome_contents written
        refine .inr ⟨outcome, ?_⟩
        exact ⟨_, congrArg Contents.auditEvents contents, rfl, rfl⟩

end Logged

/-! ### What the gate lets through -/

section Gate

variable {settings : GateSettings} {request : HttpRequest}

/-- The key of a request was valid when the request was made and has a role for its route. -/
structure HttpRequest.Authorized (settings : GateSettings) (keys : Table apiKeyKeys)
    (request : HttpRequest) (key : ApiKeyRow) : Prop where
  stored : key ∈ keys.rows
  presented : ∃ token, request.token = some token ∧
    key.keyHash = computeKeyHash settings.apiKeyHashPepper token
  unrevoked : key.revokedAt = none
  unexpired : ∀ expiry, key.expiresAt = some expiry → request.now < expiry
  permitted : key.role ∈ request.call.roles

theorem authenticateApiKey_ok {token pepper : String} {keys used : Table apiKeyKeys}
    {now : Timestamp} {principal : ApiKeyPrincipal}
    (authenticated : authenticateApiKey token keys pepper now = .ok (principal, used)) :
    ∃ key ∈ keys.rows, key.keyHash = computeKeyHash pepper token ∧ key.revokedAt = none ∧
      (∀ expiry, key.expiresAt = some expiry → now < expiry) ∧
      principal = key.principal key.apiKeyId := by
  unfold authenticateApiKey at authenticated
  split at authenticated
  · cases authenticated
  · rename_i key found
    obtain ⟨stored, hashed⟩ := getByKeyHash_some found
    split at authenticated
    · cases authenticated
    · rename_i unrevoked
      split at authenticated
      · cases authenticated
      · rename_i unexpired
        obtain ⟨same, -⟩ := Prod.mk.inj (Except.ok.inj authenticated)
        refine ⟨key, stored, hashed, Option.not_isSome_iff_eq_none.mp unrevoked,
          fun expiry expires => ?_, same.symm⟩
        rw [expires] at unexpired
        exact not_le.mp fun passed => unexpired (decide_eq_true passed)

theorem gate_ok {keys used : Table apiKeyKeys} {rate counted : RateState}
    {principal : ApiKeyPrincipal}
    (passed : gate settings request keys rate = (.ok (principal, used), counted)) :
    ∃ key, request.Authorized settings keys key ∧ principal = key.principal key.apiKeyId := by
  simp only [gate] at passed
  split at passed
  · cases passed
  · rename_i given
    split at passed
    · cases passed
    · rename_i found foundKeys authenticated
      obtain ⟨key, stored, hashed, unrevoked, unexpired, same⟩ :=
        authenticateApiKey_ok authenticated
      split at passed
      · rename_i permitted
        obtain ⟨admitted, -⟩ := Prod.mk.inj passed
        cases budget : (checkBudget settings request found rate).1 with
        | error answer =>
          rw [budget] at admitted
          cases admitted
        | ok _ =>
          rw [budget] at admitted
          cases admitted
          have presented : request.token = some (request.token.getD "") := by
            cases token : request.token with
            | none =>
              rw [token] at given
              exact absurd rfl given
            | some text => rfl
          rw [same] at permitted
          exact ⟨key, ⟨stored, ⟨_, presented, hashed⟩, unrevoked, unexpired, permitted⟩, same⟩
      · cases passed

/-- What the gate raises is no service. -/
theorem gate_error {keys : Table apiKeyKeys} {rate counted : RateState} {answer : HttpAnswer}
    (raised : gate settings request keys rate = (.error answer, counted)) : answer ≠ .served := by
  simp only [gate] at raised
  split at raised
  · cases raised
    exact nofun
  · split at raised
    · cases raised
      exact nofun
    · rename_i found foundKeys authenticated
      split at raised
      · obtain ⟨refused, -⟩ := Prod.mk.inj raised
        unfold checkBudget at refused
        split at refused
        · dsimp only at refused
          split at refused
          · cases refused
          · obtain rfl := Except.error.inj refused
            exact nofun
          · obtain rfl := Except.error.inj refused
            exact nofun
        · cases refused
      · cases raised
        exact nofun

end Gate

/-! ### What every event of the log is accounted for by -/

/-- Whether a route writes an audit event. -/
def ApiCall.isLogged : ApiCall → Bool
  | .write _ => true
  | .upload _ | .download _ | .read _ => false

/-- The event is the one of a request that was served: it has the type of its route, and names the
key that authorized it. -/
structure HttpRequest.Accounts (settings : GateSettings) (registry : WorkflowRegistry)
    (state : ApiState) (request : HttpRequest) (entry : AuditEventModel) : Prop where
  served : (serve settings registry state request).2 = .served
  made : ∃ made, request.call = .write made ∧ entry.eventType = made.eventType
  key : ∃ key, request.Authorized settings state.keys key ∧
    entry.actor = s!"api_key:{key.role}:{key.apiKeyId.str}"

/-- The event is one of an outcome that a worker reported. -/
structure WorkerAccounts (workerId : String) (entry : AuditEventModel) : Prop where
  outcome : ∃ outcome : TaskOutcome, entry.eventType = outcome.eventType
  actor : entry.actor = s!"worker:main:{workerId}"

/-- An event of the types the routes write. -/
def AuditEventModel.ofRequest (entry : AuditEventModel) : Bool :=
  entry.eventType ∈ ["workflow_run.started", "workflow_run.cancelled", "escalation.claimed",
    "escalation.resolved", "escalation.rejected"]

theorem HttpRequest.Accounts.ofRequest {settings : GateSettings} {registry : WorkflowRegistry}
    {state : ApiState} {request : HttpRequest} {entry : AuditEventModel}
    (accounts : request.Accounts settings registry state entry) : entry.ofRequest = true := by
  obtain ⟨made, -, named⟩ := accounts.made
  rw [AuditEventModel.ofRequest, named]
  cases made <;> rfl

theorem WorkerAccounts.not_ofRequest {workerId : String} {entry : AuditEventModel}
    (accounts : WorkerAccounts workerId entry) : entry.ofRequest = false := by
  obtain ⟨outcome, named⟩ := accounts.outcome
  rw [AuditEventModel.ofRequest, named]
  cases outcome <;> rfl

section Runs

variable (settings : GateSettings) (registry : WorkflowRegistry) (loads : String → Option Json)

/-- The entry was written by this event, which is a worker iteration or a request that was
served. -/
structure ApiEvent.Accounts (state : ApiState) (event : ApiEvent) (entry : AuditEventModel) :
    Prop where
  logged : (apiStep settings registry loads state event).db.contents.auditEvents =
    state.db.contents.auditEvents ++ [entry]
  author : (∃ workerId returned draws, event = .work workerId returned draws ∧
      WorkerAccounts workerId entry) ∨
    ∃ request, event = .http request ∧ request.Accounts settings registry state entry

/-- Whether an event is a request of a route that writes an audit event, and is served. -/
def servesLogged (state : ApiState) : ApiEvent → Bool
  | .http request => request.call.isLogged && (serve settings registry state request).2 = .served
  | _ => false

/-- An event adds no entry to the log, or one that it accounts for and that is one of a request or
not. -/
def AddsEntry (state : ApiState) (event : ApiEvent) (counts : Bool) : Prop :=
  (counts = false ∧ (apiStep settings registry loads state event).db.contents.auditEvents =
      state.db.contents.auditEvents) ∨
    ∃ entry, event.Accounts settings registry loads state entry ∧ entry.ofRequest = counts

/-- A request that is served adds one entry if its route writes one; any other request leaves the
log as it is. -/
theorem serve_logs (state : ApiState) (request : HttpRequest) :
    AddsEntry settings registry loads state (.http request)
      (servesLogged settings registry state (.http request)) := by
  rcases gated : gate settings request state.keys state.rate with ⟨outcome, counted⟩
  cases outcome with
  | error answer =>
    have answered : serve settings registry state request =
        ({ state with rate := counted }, answer) := by
      rw [serve, gated]
    refine .inl ⟨?_, by rw [apiStep, answered]⟩
    rw [servesLogged, answered, Bool.and_eq_false_iff]
    exact .inr (decide_eq_false (gate_error gated))
  | ok passed =>
    obtain ⟨principal, used⟩ := passed
    obtain ⟨key, authorized, same⟩ := gate_ok gated
    cases ran : request.call.perform registry state.db request.draws principal with
    | error failure =>
      have answered : serve settings registry state request =
          ({ state with rate := counted }, .raised failure) := by
        rw [serve, gated]
        dsimp only
        rw [ran]
      refine .inl ⟨?_, by rw [apiStep, answered]⟩
      rw [servesLogged, answered, Bool.and_eq_false_iff]
      exact .inr (decide_eq_false nofun)
    | ok next =>
      have answered : serve settings registry state request =
          ({ state with db := next, keys := used, rate := counted }, .served) := by
        rw [serve, gated]
        dsimp only
        rw [ran]
      have unlogged (kept : next.contents.auditEvents = state.db.contents.auditEvents)
          (silent : request.call.isLogged = false) :
          AddsEntry settings registry loads state (.http request)
            (servesLogged settings registry state (.http request)) := by
        refine .inl ⟨?_, by rw [apiStep, answered]; exact kept⟩
        rw [servesLogged, silent, Bool.false_and]
      cases call : request.call with
      | write made =>
        rw [call] at ran
        obtain ⟨-, entry, appended, typed, named⟩ := RouteRequest.logs ran
        have accounts : request.Accounts settings registry state entry :=
          ⟨by rw [answered], ⟨made, call, typed⟩, key, authorized, by rw [named, same]; rfl⟩
        refine .inr ⟨entry, ⟨by rw [apiStep, answered]; exact appended,
          .inr ⟨request, rfl, accounts⟩⟩, ?_⟩
        rw [accounts.ofRequest, servesLogged, answered, call]
        rfl
      | upload outcome =>
        refine unlogged ?_ (call ▸ rfl)
        rw [call] at ran
        cases outcome with
        | ok documentId =>
          cases ran
          rfl
        | error failure => cases ran
      | download failure | read failure =>
        refine unlogged ?_ (call ▸ rfl)
        rw [call] at ran
        cases failure with
        | none =>
          cases ran
          rfl
        | some failure => cases ran

/-- One event leaves the log as it is, or adds one entry that it accounts for. -/
theorem apiStep_logs (state : ApiState) (event : ApiEvent) :
    AddsEntry settings registry loads state event
      (servesLogged settings registry state event) := by
  cases event with
  | http request => exact serve_logs settings registry loads state request
  | administer keys | schedule acquired now | reap visibilityTimeout now workerIds =>
    exact .inl ⟨rfl, rfl⟩
  | relay draws =>
    refine .inl ⟨rfl, ?_⟩
    show (relayBatch draws state.db state.queue).1.contents.auditEvents = _
    rw [(relayBatch_handedOver draws state.queue state.db).contents]
  | work workerId returned draws =>
    rcases workerIteration_logs loads (fun _ _ => returned) workerId state.db state.queue draws with
      same | ⟨outcome, entry, appended, typed, named⟩
    · exact .inl ⟨rfl, same⟩
    · have accounts : WorkerAccounts workerId entry := ⟨⟨outcome, typed⟩, named⟩
      exact .inr ⟨entry, ⟨appended, .inl ⟨workerId, returned, draws, rfl, accounts⟩⟩,
        accounts.not_ofRequest⟩

/-- Every entry of the log was written by an event of the history. -/
theorem entries_accounted (documents : List UUID) (history : List ApiEvent) :
    ∀ entry ∈ (Transition.run (apiStep settings registry loads) (.empty documents)
        history).db.contents.auditEvents,
      ∃ before event after, history = before ++ event :: after ∧
        event.Accounts settings registry loads
          (Transition.run (apiStep settings registry loads) (.empty documents) before) entry := by
  induction history using List.reverseRecOn with
  | nil => exact fun entry member => absurd member List.not_mem_nil
  | append_singleton history event inductionHypothesis =>
    intro entry member
    rw [Transition.run_append] at member
    have earlier (old : entry ∈ (Transition.run (apiStep settings registry loads)
        (.empty documents) history).db.contents.auditEvents) :
        ∃ before author after, history ++ [event] = before ++ author :: after ∧
          author.Accounts settings registry loads
            (Transition.run (apiStep settings registry loads) (.empty documents) before)
            entry := by
      obtain ⟨before, author, after, split, accounts⟩ := inductionHypothesis entry old
      exact ⟨before, author, after ++ [event], by rw [split, List.append_assoc]; rfl, accounts⟩
    rcases apiStep_logs settings registry loads
      (Transition.run (apiStep settings registry loads) (.empty documents) history) event with
      ⟨-, same⟩ | ⟨new, accounts, -⟩
    · exact earlier (same ▸ member)
    · rcases List.mem_append.mp (accounts.logged ▸ member) with old | last
      · exact earlier old
      · exact ⟨history, event, [], rfl, List.mem_singleton.mp last ▸ accounts⟩

/-- Requests, batches and iterations run one after the other. Every entry of the audit log was
written by a worker iteration that reports an outcome, or by a request of one of five routes that
was served: its token was that of a key neither revoked nor expired at that moment, with a role the
route admits, and the entry names this key. There are as many of the latter as requests of these
routes were served; uploads, downloads and the other reads write none. Each event adds at most one
entry, and what a request wrote before it raised is rolled back. -/
theorem audit_log_accountable (documents : List UUID) (history : List ApiEvent) :
    let step := apiStep settings registry loads
    let log := (Transition.run step (.empty documents) history).db.contents.auditEvents
    (∀ entry ∈ log, ∃ before event after, history = before ++ event :: after ∧
      event.Accounts settings registry loads (Transition.run step (.empty documents) before)
        entry) ∧
    log.countP AuditEventModel.ofRequest =
      Transition.tally step (servesLogged settings registry) (.empty documents) history := by
  intro step log
  refine ⟨entries_accounted settings registry loads documents history, ?_⟩
  have raises (state : ApiState) (event : ApiEvent) :
      (step state event).db.contents.auditEvents.countP AuditEventModel.ofRequest =
        state.db.contents.auditEvents.countP AuditEventModel.ofRequest +
          if servesLogged settings registry state event then 1 else 0 := by
    show (apiStep settings registry loads state event).db.contents.auditEvents.countP _ = _
    rcases apiStep_logs settings registry loads state event with
      ⟨idle, same⟩ | ⟨new, accounts, counts⟩
    · rw [idle, same]
      rfl
    · rw [accounts.logged, List.countP_append, List.countP_singleton, counts]
  have always : Transition.Along step (fun _ _ => True) (.empty documents) history :=
    Transition.along_of_always step (fun _ _ => trivial) (.empty documents) history
  have counted := Transition.measure_eq_add_tally step (fun _ => True)
    (fun state => state.db.contents.auditEvents.countP AuditEventModel.ofRequest)
    (fun _ _ _ _ => trivial) (fun state event _ _ => raises state event) (.empty documents)
    trivial history always
  exact counted.trans (Nat.zero_add _)

end Runs

end InsuranceOps
