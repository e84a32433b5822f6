/-
This file models the two routes that answer in pages: the audit events of a run
in the order of their numbers, and the escalation cases in the order of their
creation. Each asks the database for one row more than a page holds, and names
the last row of the page as the cursor for the next one: by its number, or by
its time of creation. A client follows the cursors from page to page.
-/

import InsuranceOps.Acceptance
import InsuranceOps.Extractor
import InsuranceOps.NumberText
import InsuranceOps.Orchestrator
import InsuranceOps.Library.Keyset

namespace InsuranceOps

/-! ### Cursors -/

/-- A query parameter that is given; an empty text counts as none. -/
def givenText (parameter : Option String) : Option String := parameter.filter fun text => text ≠ ""

variable (tables : UnicodeTables)

/-- The number decimal digits stand for, with an underscore between two of them here and there. -/
def UnicodeTables.integerDigits (afterDigit : Bool) (value : Nat) : Text → Option Nat
  | [] => if afterDigit then some value else none
  | char :: rest => match tables.digit char with
    | some digit => integerDigits true (10 * value + digit) rest
    | none => if char = '_' ∧ afterDigit then integerDigits false value rest else none

/-- `int(text)`, or its `ValueError`. -/
def UnicodeTables.int (text : Text) : Option Int :=
  match FloatValue.strip text with
  | '-' :: rest => (tables.integerDigits false 0 rest).map Int.negOfNat
  | '+' :: rest => (tables.integerDigits false 0 rest).map Int.ofNat
  | rest => (tables.integerDigits false 0 rest).map Int.ofNat

example : ([" 12\n", "-1_0", "1__0", "+", "7.", ""].map fun text =>
    UnicodeTables.int ⟨fun _ => none, fun _ => false⟩ text.toList) =
      [some 12, some (-10), none, none, none, none] := by
  decide +kernel

/-- What a given cursor stands for; one that stands for nothing is refused. -/
def readCursor {Value : Type} (read : String → Option Value) (cursor : Option String) :
    Except Failure (Option Value) :=
  match givenText cursor with
  | none => .ok none
  | some text => match read text with
    | some value => .ok (some value)
    | none => .error (.httpException 400 "Invalid cursor")

/-! ### Events -/

/-- Response model for an audit event in the events list. -/
structure AuditEventResponse where
  auditEventId : UUID
  workflowRunId : UUID
  eventType : String
  actor : String
  payload : JsonObject
  occurredAt : Timestamp
  seqInRun : Int
  stepId : Option UUID
  stepAttemptId : Option UUID

def AuditEventResponse.ofModel (event : AuditEventModel) : AuditEventResponse where
  auditEventId := event.auditEventId
  workflowRunId := event.workflowRunId
  eventType := event.eventType
  actor := event.actor
  payload := event.payload
  occurredAt := event.occurredAt
  seqInRun := event.seqInRun
  stepId := event.stepId
  stepAttemptId := event.stepAttemptId

/-- Response model for the events of a run. -/
structure WorkflowRunEventsResponse where
  events : List AuditEventResponse
  nextCursor : Option String

/-- The events of a run, of one type if one is given. -/
def matchingEvents (events : List AuditEventModel) (workflowRunId : UUID)
    (eventType : Option String) : List AuditEventModel :=
  (eventsOf events workflowRunId).filter fun event =>
    (givenText eventType).all fun wanted => event.eventType = wanted

/-- The cursor that names an event. -/
def eventCursor (event : AuditEventModel) : String := String.ofList (intText event.seqInRun)

/-- The events of a page, and the cursor for the next one. -/
def selectEvents (contents : Contents) (workflowRunId : UUID) (eventType cursor : Option String)
    (limit : Nat) : Except Failure (List AuditEventModel × Option String) := do
  let _ ← orRaise (contents.workflowRuns.find? fun run => run.workflowRunId = workflowRunId)
    (.httpException 404 "Workflow run not found")
  let cursorSeq ← readCursor (fun text => tables.int text.toList) cursor
  let query := (matchingEvents contents.auditEvents workflowRunId eventType).filter fun event =>
    cursorSeq.all fun seq => seq < event.seqInRun
  let ordered := query.insertionSort fun first second => first.seqInRun ≤ second.seqInRun
  -- One extra event tells whether there is a next page.
  return Keyset.cut eventCursor limit (ordered.take (limit + 1))

/-- Return cursor-paginated audit events for a workflow run. The principal and the limit have passed
the dependencies of the route. -/
def getWorkflowRunEvents (contents : Contents) (workflowRunId : UUID)
    (eventType cursor : Option String) (limit : Nat) :
    Except Failure WorkflowRunEventsResponse := do
  let (events, nextCursor) ← selectEvents tables contents workflowRunId eventType cursor limit
  return { events := events.map AuditEventResponse.ofModel, nextCursor := nextCursor }

/-! ### Escalation cases -/

/-- Response model for a page of escalation cases; the response for a case has all its columns. -/
structure EscalationListResponse where
  escalations : List EscalationCaseModel
  nextCursor : Option String

/-- The cases in a state, if one is given, whose run is of a workflow, if one is given. -/
def matchingCases (contents : Contents) (state workflowName : Option String) :
    List EscalationCaseModel :=
  contents.escalationCases.filter fun row =>
    ((givenText state).all fun wanted => row.state.value = wanted) ∧
      (givenText workflowName).all fun wanted => contents.workflowRuns.any fun run =>
        run.workflowRunId = row.workflowRunId ∧ run.workflowName = wanted

/-- The cursor that names a case. -/
def caseCursor (row : EscalationCaseModel) : String := String.ofList (isoformat row.createdAt)

/-- List escalation cases with optional filters and cursor pagination. The order of the database
says nothing of cases created at one time. -/
def listEscalations (fromisoformat : String → Option Timestamp)
    (orderByCreatedAt : List EscalationCaseModel → List EscalationCaseModel) (contents : Contents)
    (state workflowName cursor : Option String) (limit : Nat) :
    Except Failure EscalationListResponse := do
  let cursorDt ← readCursor fromisoformat cursor
  let query := (matchingCases contents state workflowName).filter fun row =>
    cursorDt.all fun time => time < row.createdAt
  let (escalations, nextCursor) :=
    Keyset.cut caseCursor limit ((orderByCreatedAt query).take (limit + 1))
  return { escalations := escalations, nextCursor := nextCursor }

/-! ### Clients -/

section Clients

/-- The pages of events a client gets, each from what the database holds then. -/
def eventPages (contents : Nat → Contents) (workflowRunId : UUID) (eventType : Option String)
    (limit : Nat → Nat) (request : Nat) (cursor : Option String) :
    Option (List AuditEventResponse × Option String) :=
  match getWorkflowRunEvents tables (contents request) workflowRunId eventType cursor
      (limit request) with
  | .ok response => some (response.events, response.nextCursor)
  | .error _ => none

/-- The pages of cases a client gets of what the database holds. -/
def casePages (fromisoformat : String → Option Timestamp)
    (orderByCreatedAt : Nat → List EscalationCaseModel → List EscalationCaseModel)
    (contents : Contents) (state workflowName : Option String) (limit : Nat) (request : Nat)
    (cursor : Option String) : Option (List EscalationCaseModel × Option String) :=
  match listEscalations fromisoformat (orderByCreatedAt request) contents state workflowName cursor
      limit with
  | .ok response => some (response.escalations, response.nextCursor)
  | .error _ => none

end Clients

end InsuranceOps
