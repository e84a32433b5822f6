/-
This file follows the order of the tasks on their way to the workers. The
outbox numbers its rows in the order in which they are written, and a relay
batch takes the hundred pending rows with the lowest numbers; the ready list is
filled at its left end and claimed at its right one. So both are waiting lines:
pending rows are relayed in the order in which they were written, each once,
and ready tasks are claimed in the order in which they were pushed. New rows
and new tasks come in behind, so they never keep an older one waiting.
-/

import InsuranceOps.FailingPushes
import InsuranceOps.FinishedRuns
import InsuranceOps.Library.Keyset
import InsuranceOps.Library.WaitingLine
import InsuranceOps.Outcomes

namespace InsuranceOps

open ListStore Relational WorkflowOrchestrator

/-! ### The pending rows -/

/-- The outbox rows that are not enqueued yet, in the order in which the relay takes them. -/
def Database.pending (db : Database) : List TasksOutboxModel :=
  (db.tasksOutbox.rows.filter fun row => row.enqueuedAt = none).insertionSort
    fun first second => first.outboxId ≤ second.outboxId

section Pending

variable {db : Database}

theorem Database.mem_pending {row : TasksOutboxModel} :
    row ∈ db.pending ↔ row ∈ db.contents.tasksOutbox ∧ row.enqueuedAt = none := by
  rw [Database.pending, List.mem_insertionSort, List.mem_filter, decide_eq_true_eq]
  rfl

theorem Database.pending_distinct (db : Database) :
    (db.pending.map fun row => row.outboxId).Nodup :=
  ((List.perm_insertionSort _ _).map _).nodup_iff.mpr
    ((List.filter_sublist.map _).nodup db.tasksOutbox_distinct)

theorem Database.pending_increasing (db : Database) :
    db.pending.Pairwise fun first second => first.outboxId < second.outboxId := by
  have ordered : Keyset.Ordered (fun row : TasksOutboxModel => row.outboxId) db.pending := by
    have : IsTrans TasksOutboxModel fun first second => first.outboxId ≤ second.outboxId :=
      ⟨fun _ _ _ => Nat.le_trans⟩
    have : Std.Total fun first second : TasksOutboxModel => first.outboxId ≤ second.outboxId :=
      ⟨fun first second => Nat.le_total first.outboxId second.outboxId⟩
    exact List.pairwise_insertionSort _ _
  exact List.pairwise_and_iff.mpr ⟨ordered, List.pairwise_map.mp db.pending_distinct⟩ |>.imp
    fun both => Nat.lt_of_le_of_ne both.1 both.2

/-- The pending rows are the only list of them in the order of their numbers. -/
theorem Database.pending_eq {rows : List TasksOutboxModel}
    (increasing : rows.Pairwise fun first second => first.outboxId < second.outboxId)
    (members : ∀ row, row ∈ rows ↔ row ∈ db.contents.tasksOutbox ∧ row.enqueuedAt = none) :
    db.pending = rows := by
  have irreflexive : Std.Irrefl fun first second : TasksOutboxModel =>
    first.outboxId < second.outboxId := ⟨fun _ => Nat.lt_irrefl _⟩
  have perm : db.pending.Perm rows :=
    (List.perm_ext_iff_of_nodup db.pending_increasing.nodup increasing.nodup).mpr fun row =>
      Database.mem_pending.trans (members row).symm
  exact perm.eq_of_pairwise
    (fun _ _ _ _ less greater => absurd (Nat.lt_trans less greater) (Nat.lt_irrefl _))
    db.pending_increasing increasing

theorem outboxRow_iff {row : TasksOutboxModel} :
    db.outboxRow row.outboxId = some row ↔ row ∈ db.contents.tasksOutbox :=
  ⟨fun found => (mem_of_find? (fun row : TasksOutboxModel => row.outboxId) found).1,
    fun stored => find?_of_mem (fun row : TasksOutboxModel => row.outboxId)
      db.tasksOutbox_distinct stored⟩

end Pending

/-! ### A batch takes the pending rows with the lowest numbers -/

/-- The rows that were pending before and are enqueued after, in the order of their numbers. -/
def Database.sentSince (before after : Database) : List TasksOutboxModel :=
  before.pending.filter fun row =>
    (after.outboxRow row.outboxId).any fun later => later.enqueuedAt.isSome

/-- Push some entries, each stamped with the time of its push. -/
def deliverAll (draws : RelayDraws) : Nat → List TasksOutboxModel → TaskQueue → TaskQueue
  | _, [], queue => queue
  | index, entry :: rest, queue =>
    deliverAll draws (index + 1) rest
      (deliver queue entry (entry.copy (draws.time index)) draws.now)

section Batch

variable {draws : RelayDraws} (unfailing : ∀ index, draws.pushError index = none)

/-- Rows that stay as they are were not sent. -/
theorem Database.sentSince_eq_nil {db next : Database}
    (kept : ∀ row ∈ db.pending, next.outboxRow row.outboxId = some row) :
    db.sentSince next = [] := by
  refine List.filter_eq_nil_iff.mpr fun row waiting => ?_
  rw [kept row waiting, Option.any_some, (Database.mem_pending.mp waiting).2]
  exact Bool.false_ne_true

/-- A pending row beyond the first hundred is none of the batch. -/
theorem Database.unlisted_of_beyond {db : Database} {row : TasksOutboxModel}
    (member : row ∈ db.pending.drop 100) :
    row.outboxId ∉ (db.getPending 100).map fun entry => entry.outboxId := by
  intro listed
  obtain ⟨entry, taken, same⟩ := List.mem_map.mp listed
  have increasing := db.pending_increasing
  rw [← List.take_append_drop 100 db.pending, List.pairwise_append] at increasing
  exact absurd same (Nat.ne_of_lt (increasing.2.2 entry taken row member))

include unfailing

/-- Entries whose pushes succeed are pushed one after the other. -/
theorem relayEntries_pushes (index : Nat) (entries : List TasksOutboxModel) (db : Database)
    (queue : TaskQueue) :
    (relayEntries draws index entries db queue).2 = deliverAll draws index entries queue := by
  induction entries generalizing index db queue with
  | nil => rfl
  | cons entry rest inductionHypothesis =>
    rw [relayEntries, relayEntry, unfailing]
    exact inductionHypothesis (index + 1) _ _

/-- A batch with the lock and without a failing push marks the rows it reads and leaves the other
rows as they are. -/
theorem relayBatch_rows (acquired : draws.acquired = true) (db : Database) (queue : TaskQueue) :
    (∀ entry ∈ db.getPending 100, (relayBatch draws db queue).1.outboxRow entry.outboxId =
      some (entry.markEnqueued draws.now)) ∧
    ∀ outboxId, outboxId ∉ (db.getPending 100).map (fun entry => entry.outboxId) →
      (relayBatch draws db queue).1.outboxRow outboxId = db.outboxRow outboxId := by
  obtain ⟨next, pushed, ran, settled, others⟩ := (relayEntries_settled draws 0 (db.getPending 100)
    db queue (getPending_distinct db 100) fun entry => getPending_found).1 fun _ _ _ failed =>
      absurd (unfailing _) failed
  have batch : (relayBatch draws db queue).1 = next := by
    rw [relayBatch, if_pos acquired, ran]
    rfl
  rw [batch]
  refine ⟨fun entry taken => ?_, others⟩
  obtain ⟨index, place⟩ := List.mem_iff_getElem?.mp taken
  rw [settled index entry place, RelayDraws.settled, unfailing]

/-- Such a batch sends the first hundred pending rows. -/
theorem relayBatch_sent (acquired : draws.acquired = true) (db : Database) (queue : TaskQueue) :
    db.sentSince (relayBatch draws db queue).1 = db.getPending 100 := by
  obtain ⟨settled, others⟩ := relayBatch_rows unfailing acquired db queue
  rw [Database.sentSince, ← List.take_append_drop 100 db.pending, List.filter_append]
  have front : ((db.pending.take 100).filter fun row =>
      ((relayBatch draws db queue).1.outboxRow row.outboxId).any
        fun later => later.enqueuedAt.isSome) = db.pending.take 100 :=
    List.filter_eq_self.mpr fun row taken => by
      rw [settled row taken]
      rfl
  have back : ((db.pending.drop 100).filter fun row =>
      ((relayBatch draws db queue).1.outboxRow row.outboxId).any
        fun later => later.enqueuedAt.isSome) = [] := by
    refine List.filter_eq_nil_iff.mpr fun row member => ?_
    obtain ⟨stored, unsent⟩ := Database.mem_pending.mp (List.mem_of_mem_drop member)
    rw [others _ (Database.unlisted_of_beyond member), outboxRow_iff.mpr stored, Option.any_some,
      unsent]
    exact Bool.false_ne_true
  rw [front, back, List.append_nil]
  rfl

/-- Such a batch leaves the pending rows beyond the first hundred pending. -/
theorem relayBatch_pending (acquired : draws.acquired = true) (db : Database)
    (queue : TaskQueue) : (relayBatch draws db queue).1.pending = db.pending.drop 100 := by
  obtain ⟨settled, others⟩ := relayBatch_rows unfailing acquired db queue
  refine Database.pending_eq (db.pending_increasing.sublist (List.drop_sublist _ _)) fun row => ?_
  constructor
  · intro member
    obtain ⟨stored, unsent⟩ := Database.mem_pending.mp (List.mem_of_mem_drop member)
    refine ⟨outboxRow_iff.mp ?_, unsent⟩
    rw [others _ (Database.unlisted_of_beyond member)]
    exact outboxRow_iff.mpr stored
  · rintro ⟨stored, unsent⟩
    have found := outboxRow_iff.mpr stored
    by_cases listed : row.outboxId ∈ (db.getPending 100).map fun entry => entry.outboxId
    · obtain ⟨entry, taken, same⟩ := List.mem_map.mp listed
      rw [← same, settled entry taken] at found
      cases Option.some.inj found
      cases unsent
    · rw [others _ listed] at found
      have waiting := Database.mem_pending.mpr ⟨outboxRow_iff.mp found, unsent⟩
      rw [← List.take_append_drop 100 db.pending, List.mem_append] at waiting
      exact waiting.resolve_left fun taken => listed (List.mem_map_of_mem taken)

end Batch

/-! ### New rows come behind -/

/-- At most one task was queued, unsent and with the next number of the outbox. -/
def AddsTask (db next : Database) : Prop :=
  next.contents.tasksOutbox = db.contents.tasksOutbox ∧
      next.contents.outboxSequence = db.contents.outboxSequence ∨
    ∃ task, next.contents.tasksOutbox = db.contents.tasksOutbox ++ [task] ∧
      task.outboxId = db.contents.outboxSequence + 1 ∧ task.enqueuedAt = none ∧
      next.contents.outboxSequence = db.contents.outboxSequence + 1

section Added

variable {registry : WorkflowRegistry} {db next : Database} {draws : Draws}
  {state : WorkflowRunState} {run : WorkflowRunModel} {listed : List StepModel}
  {currentStep : StepModel} {stepResult : StepResult} {reasonCode : String} {now : Timestamp}
  {newId : UUID} {random : UnitDraw} {event : EventDraw} {principal : ApiKeyPrincipal}

theorem AddsTask.of_contents {contents : Contents} (written : next.contents = contents)
    (tasks : contents.tasksOutbox = db.contents.tasksOutbox)
    (sequence : contents.outboxSequence = db.contents.outboxSequence) : AddsTask db next :=
  .inl ⟨written ▸ tasks, written ▸ sequence⟩

theorem AddsTask.of_task {contents : Contents} {task : TasksOutboxModel}
    (written : next.contents = contents)
    (tasks : contents.tasksOutbox = db.contents.tasksOutbox ++
      [{ task with outboxId := db.contents.outboxSequence + 1 }])
    (unsent : task.enqueuedAt = none)
    (sequence : contents.outboxSequence = db.contents.outboxSequence + 1) : AddsTask db next :=
  .inr ⟨{ task with outboxId := db.contents.outboxSequence + 1 }, written ▸ tasks, rfl, unsent,
    written ▸ sequence⟩

theorem handleSucceeded_adds
    (ran : handleSucceeded registry db run listed currentStep now newId event =
      .ok (next, state)) : AddsTask db next := by
  rcases handleSucceeded_ok ran with ⟨-, -, contents⟩ | ⟨successor, -, -, -, contents⟩
  · exact .of_contents contents rfl rfl
  · exact .of_task contents rfl rfl rfl

theorem createEscalation_adds
    (ran : createEscalation db run currentStep stepResult reasonCode now newId event =
      .ok (next, state)) : AddsTask db next :=
  .of_contents (createEscalation_ok ran).2.2 rfl rfl

theorem handleFailedTerminal_adds
    (ran : handleFailedTerminal db run currentStep stepResult now newId event =
      .ok (next, state)) : AddsTask db next := by
  rcases handleFailedTerminal_ok ran with ⟨-, created⟩ | ⟨-, -, contents⟩
  · exact .of_contents (createEscalation_ok created).2.2 rfl rfl
  · exact .of_contents contents rfl rfl

theorem handleFailedRetryable_adds
    (ran : handleFailedRetryable registry db run currentStep stepResult now newId random event =
      .ok (next, state)) : AddsTask db next := by
  rcases handleFailedRetryable_ok ran with ⟨-, -, -, contents⟩ | ⟨-, failed⟩
  · exact .of_task contents rfl rfl rfl
  · exact handleFailedTerminal_adds failed

theorem advanceWorkflow_adds {workflowRunId : UUID} {completedStepName : String}
    (ran : advanceWorkflow registry db draws workflowRunId completedStepName stepResult =
      .ok (next, state)) : AddsTask db next := by
  obtain ⟨run, currentStep, -, -, handled⟩ := advanceWorkflow_ok ran
  cases status : stepResult.status with
  | succeeded =>
    rw [status] at handled
    exact handleSucceeded_adds handled
  | failedRetryable =>
    rw [status] at handled
    exact handleFailedRetryable_adds handled
  | failedTerminal =>
    rw [status] at handled
    exact handleFailedTerminal_adds handled
  | escalate =>
    rw [status] at handled
    exact createEscalation_adds handled

theorem resumeAfterEscalation_adds {escalationId : UUID} {resolutionPayload : JsonObject}
    {actor : String}
    (ran : resumeAfterEscalation registry db draws escalationId resolutionPayload actor =
      .ok (next, state)) : AddsTask db next := by
  obtain ⟨_, currentStep, _, -, -, -, -, resumed, contents, handled⟩ := resumeAfterEscalation_ok ran
  have tasks : resumed.contents.tasksOutbox = db.contents.tasksOutbox := by
    rw [contents]
  have sequence : resumed.contents.outboxSequence = db.contents.outboxSequence := by
    rw [contents]
  have added := handleSucceeded_adds handled
  rwa [AddsTask, tasks, sequence] at added

/-- A start queues the task of its first attempt. -/
theorem startWorkflowRun_adds {workflowName workflowVersion : String} {documentIds : List UUID}
    {actor correlationId : String} {deadlineSeconds : Option Int} {workflowRunId : UUID}
    (ran : startWorkflowRun registry db draws workflowName workflowVersion documentIds actor
      correlationId deadlineSeconds = .ok (next, workflowRunId)) : AddsTask db next := by
  obtain ⟨definition, -, ran⟩ := Fallible.bind_eq_ok.mp ran
  obtain ⟨deadlineAt, -, ran⟩ := Fallible.bind_eq_ok.mp ran
  obtain ⟨created, runInserted, ran⟩ := Fallible.bind_eq_ok.mp ran
  obtain ⟨attached, documentsInserted, ran⟩ := Fallible.bind_eq_ok.mp ran
  obtain ⟨stepped, stepsInserted, ran⟩ := Fallible.bind_eq_ok.mp ran
  obtain ⟨⟨first, firstDefinition⟩, -, ran⟩ := Fallible.bind_eq_ok.mp ran
  obtain ⟨attempted, attemptInserted, ran⟩ := Fallible.bind_eq_ok.mp ran
  obtain ⟨queued, enqueued, ran⟩ := Fallible.bind_eq_ok.mp ran
  obtain ⟨audited, appended, done⟩ := Fallible.bind_eq_ok.mp ran
  cases done
  have contents := Database.appendAuditEvent_ok appended
  simp only [Database.insertTasksOutbox_ok enqueued, Database.contents_updateWorkflowRun,
    (Database.insertStepAttempt_ok attemptInserted).2, (insertSteps_ok stepsInserted).1,
    insertDocuments_ok documentsInserted, (Database.insertWorkflowRun_ok runInserted).2] at contents
  exact .inr ⟨_, congrArg Contents.tasksOutbox contents, rfl, rfl,
    congrArg Contents.outboxSequence contents⟩

theorem createWorkflowRun_adds {body : WorkflowRunCreate} {workflowRunId : UUID}
    (ran : createWorkflowRun registry db draws body principal = .ok (next, workflowRunId)) :
    AddsTask db next := by
  obtain ⟨_, -, ran⟩ := Fallible.bind_eq_ok.mp ran
  obtain ⟨definition, -, ran⟩ := Fallible.bind_eq_ok.mp ran
  obtain ⟨deadlineAt, -, ran⟩ := Fallible.bind_eq_ok.mp ran
  obtain ⟨created, runInserted, ran⟩ := Fallible.bind_eq_ok.mp ran
  obtain ⟨attached, documentsInserted, ran⟩ := Fallible.bind_eq_ok.mp ran
  obtain ⟨stepped, stepsInserted, ran⟩ := Fallible.bind_eq_ok.mp ran
  obtain ⟨⟨first, firstDefinition⟩, -, ran⟩ := Fallible.bind_eq_ok.mp ran
  obtain ⟨attempted, attemptInserted, ran⟩ := Fallible.bind_eq_ok.mp ran
  obtain ⟨queued, enqueued, ran⟩ := Fallible.bind_eq_ok.mp ran
  obtain ⟨audited, appended, done⟩ := Fallible.bind_eq_ok.mp ran
  cases done
  have contents := Database.appendAuditEvent_ok appended
  simp only [Database.insertTasksOutbox_ok enqueued, Database.contents_updateWorkflowRun,
    (Database.insertStepAttempt_ok attemptInserted).2, (insertSteps_ok stepsInserted).1,
    insertDocuments_ok documentsInserted, (Database.insertWorkflowRun_ok runInserted).2] at contents
  exact .inr ⟨_, congrArg Contents.tasksOutbox contents, rfl, rfl,
    congrArg Contents.outboxSequence contents⟩

theorem OrchestratorCall.adds {call : OrchestratorCall}
    (ran : call.perform registry db draws = .ok next) : AddsTask db next := by
  cases call with
  | startWorkflowRun workflowName workflowVersion documentIds actor correlationId deadline =>
    obtain ⟨_, ran⟩ := OrchestratorCall.perform_start ran
    exact startWorkflowRun_adds ran
  | advanceWorkflow workflowRunId completedStepName stepResult =>
    obtain ⟨_, ran⟩ := OrchestratorCall.perform_advance ran
    exact advanceWorkflow_adds ran
  | resumeAfterEscalation escalationId resolutionPayload actor =>
    obtain ⟨_, ran⟩ := OrchestratorCall.perform_resume ran
    exact resumeAfterEscalation_adds ran
  | cancelWorkflow workflowRunId actor reason =>
    obtain ⟨_, -, -, contents⟩ := cancelWorkflow_ok ran
    exact .of_contents contents rfl rfl

theorem RouteRequest.adds {request : RouteRequest}
    (ran : request.perform registry db draws principal = .ok next) : AddsTask db next := by
  cases request with
  | createWorkflowRun body =>
    obtain ⟨_, ran⟩ := RouteRequest.perform_create ran
    exact createWorkflowRun_adds ran
  | cancelWorkflowRun workflowRunId body =>
    obtain ⟨_, _, -, -, contents⟩ := cancelWorkflowRun_ok ran
    exact .of_contents contents rfl rfl
  | claimEscalation escalationId =>
    obtain ⟨_, _, -, -, contents⟩ := claimEscalation_ok ran
    exact .of_contents contents rfl rfl
  | resolveEscalation escalationId body =>
    obtain ⟨_, _, _, -, -, -, contents⟩ := resolveEscalation_ok ran
    exact .of_contents contents rfl rfl
  | rejectEscalation escalationId body =>
    obtain ⟨_, _, _, -, -, contents⟩ := rejectEscalation_ok ran
    exact .of_contents contents rfl rfl

/-- The worker queues no task. -/
theorem workerIteration_adds {loads : String → Option Json}
    {handle : String → StepContext → HandlerReturn} (draws : Draws) (workerId : String)
    (db : Database) (queue : TaskQueue) :
    AddsTask db (workerIteration loads handle draws workerId db queue).1 := by
  cases claim : queue.claim workerId with
  | none =>
    unfold workerIteration
    rw [claim]
    exact .inl ⟨rfl, rfl⟩
  | some claimed =>
    rw [workerIteration_some claim, settle_fst]
    cases processed : processTask loads handle db draws workerId claimed.1 with
    | error failure => exact .inl ⟨rfl, rfl⟩
    | ok disposition =>
      cases disposition with
      | deadLetter => exact .inl ⟨rfl, rfl⟩
      | alreadyTerminal => exact .inl ⟨rfl, rfl⟩
      | written flushed =>
        obtain ⟨rows, outcome, -, -, -, written⟩ := processTask_steps processed
        obtain ⟨change, -, contents⟩ := writeOutcome_contents written
        exact .of_contents contents rfl rfl

end Added

/-! ### The outbox over a run -/

/-- No row has a number that the outbox has not given out yet. -/
def OutboxNumbered (db : Database) : Prop :=
  ∀ row ∈ db.contents.tasksOutbox, row.outboxId ≤ db.contents.outboxSequence

/-- The rows with numbers that an earlier database had not given out yet. -/
def Database.queuedSince (before after : Database) : List TasksOutboxModel :=
  after.contents.tasksOutbox.filter fun row => before.contents.outboxSequence < row.outboxId

section Growth

variable {db next : Database}

theorem OutboxNumbered.adds (numbered : OutboxNumbered db) (added : AddsTask db next) :
    OutboxNumbered next := by
  rcases added with ⟨tasks, sequence⟩ | ⟨task, tasks, number, -, sequence⟩
  · unfold OutboxNumbered
    rw [tasks, sequence]
    exact numbered
  · unfold OutboxNumbered
    rw [tasks, sequence]
    intro row stored
    rcases List.mem_append.mp stored with old | new
    · exact (numbered row old).trans (Nat.le_succ _)
    · rw [List.mem_singleton.mp new, number]

theorem OutboxNumbered.queuedSince_eq (numbered : OutboxNumbered db) {added : List TasksOutboxModel}
    (beyond : ∀ row ∈ added, db.contents.outboxSequence < row.outboxId)
    (tasks : next.contents.tasksOutbox = db.contents.tasksOutbox ++ added) :
    db.queuedSince next = added := by
  have old : (db.contents.tasksOutbox.filter fun row =>
      db.contents.outboxSequence < row.outboxId) = [] :=
    List.filter_eq_nil_iff.mpr fun row stored => by
      simpa using numbered row stored
  have new : (added.filter fun row => db.contents.outboxSequence < row.outboxId) = added :=
    List.filter_eq_self.mpr fun row member => decide_eq_true (beyond row member)
  rw [Database.queuedSince, tasks, List.filter_append, old, new, List.nil_append]

/-- A new row waits behind the rows that are pending already. -/
theorem OutboxNumbered.pending_adds (numbered : OutboxNumbered db) (added : AddsTask db next) :
    db.pending ++ db.queuedSince next = next.pending := by
  rcases added with ⟨tasks, -⟩ | ⟨task, tasks, number, unsent, -⟩
  · rw [numbered.queuedSince_eq (fun _ member => absurd member List.not_mem_nil)
      (tasks.trans (List.append_nil _).symm), List.append_nil]
    refine (Database.pending_eq db.pending_increasing fun row => ?_).symm
    rw [tasks, Database.mem_pending]
  · have beyond : ∀ row ∈ [task], db.contents.outboxSequence < row.outboxId := by
      intro row member
      rw [List.mem_singleton.mp member, number]
      exact Nat.lt_succ_self _
    rw [numbered.queuedSince_eq beyond tasks]
    refine (Database.pending_eq ?_ fun row => ?_).symm
    · refine List.pairwise_append.mpr ⟨db.pending_increasing, List.pairwise_singleton _ _, ?_⟩
      intro row waiting other member
      exact Nat.lt_of_le_of_lt (numbered row (Database.mem_pending.mp waiting).1)
        (beyond other member)
    · rw [List.mem_append, Database.mem_pending, List.mem_singleton, tasks, List.mem_append,
        List.mem_singleton]
      constructor
      · rintro (⟨stored, pending⟩ | rfl)
        · exact ⟨.inl stored, pending⟩
        · exact ⟨.inr rfl, unsent⟩
      · rintro ⟨stored | rfl, pending⟩
        · exact .inl ⟨stored, pending⟩
        · exact .inr rfl

theorem OutboxNumbered.handedOver {queue after : TaskQueue} (numbered : OutboxNumbered db)
    (handed : HandedOver db next queue after) :
    OutboxNumbered next ∧ db.queuedSince next = [] := by
  have sequence : next.contents.outboxSequence = db.contents.outboxSequence := by
    rw [handed.contents]
  have bounded : ∀ row ∈ next.contents.tasksOutbox,
      row.outboxId ≤ db.contents.outboxSequence := by
    intro row stored
    obtain ⟨task, taskStored, same⟩ := handed.backward row stored
    exact same.outboxId ▸ numbered task taskStored
  refine ⟨fun row stored => sequence ▸ bounded row stored, ?_⟩
  exact List.filter_eq_nil_iff.mpr fun row stored => by simpa using bounded row stored

end Growth

/-- No row that is pending is changed by queueing a task. -/
theorem AddsTask.outboxRow {db next : Database} (added : AddsTask db next)
    {row : TasksOutboxModel} (waiting : row ∈ db.pending) :
    next.outboxRow row.outboxId = some row := by
  have stored := (Database.mem_pending.mp waiting).1
  refine outboxRow_iff.mpr ?_
  rcases added with ⟨tasks, -⟩ | ⟨task, tasks, -⟩
  · rw [tasks]
    exact stored
  · rw [tasks]
    exact List.mem_append_left _ stored

/-- Whether an event is a batch of the relay that gets the lock. -/
def SystemEvent.takesBatch (_ : Platform) : SystemEvent → Bool
  | .platform (.relay draws) => draws.acquired
  | _ => false

/-- No push of a batch fails. -/
def SystemEvent.PushesSucceed (_ : Platform) : SystemEvent → Prop
  | .platform (.relay draws) => draws.acquired = true → ∀ index, draws.pushError index = none
  | _ => True

section Outbox

variable (registry : WorkflowRegistry) (loads : String → Option Json)

/-- The rows an event queues. -/
def SystemEvent.queued (platform : Platform) (event : SystemEvent) : List TasksOutboxModel :=
  platform.db.queuedSince (SystemEvent.step registry loads platform event).db

/-- The rows an event marks as enqueued. -/
def SystemEvent.relayed (platform : Platform) (event : SystemEvent) : List TasksOutboxModel :=
  platform.db.sentSince (SystemEvent.step registry loads platform event).db

/-- A batch pushes the rows it marks, in their order, and pushes nothing else. -/
def SystemEvent.PushesRelayed (platform : Platform) (event : SystemEvent) : Prop :=
  ∀ draws, event = .platform (.relay draws) →
    (SystemEvent.step registry loads platform event).queue =
      deliverAll draws 0 (event.relayed registry loads platform) platform.queue

/-- A batch relays the first hundred pending rows if it gets the lock; no other event relays
any. -/
theorem SystemEvent.relayed_eq {platform : Platform} (event : SystemEvent)
    (succeeds : event.PushesSucceed platform) :
    event.relayed registry loads platform =
      if event.takesBatch platform then platform.db.pending.take 100 else [] := by
  obtain ⟨db, queue⟩ := platform
  have still : AddsTask db db := .inl ⟨rfl, rfl⟩
  have idle {next : Database} (added : AddsTask db next) : db.sentSince next = [] :=
    Database.sentSince_eq_nil fun row waiting => added.outboxRow waiting
  cases event with
  | platform event =>
    cases event with
    | request made principal draws =>
      exact idle (commit_induction (AddsTask db) still fun next ran => RouteRequest.adds ran)
    | relay draws =>
      show db.sentSince (relayBatch draws db queue).1 = if draws.acquired then _ else _
      cases acquired : draws.acquired with
      | false =>
        rw [relayBatch, acquired, if_neg Bool.false_ne_true, if_neg Bool.false_ne_true]
        exact idle still
      | true =>
        rw [if_pos rfl]
        exact relayBatch_sent (succeeds acquired) acquired db queue
    | schedule acquired now => exact idle still
    | work workerId returned draws => exact idle (workerIteration_adds draws workerId db queue)
    | reap visibilityTimeout now workerIds => exact idle still
  | call made draws =>
    exact idle (commit_induction (AddsTask db) still fun next ran => OrchestratorCall.adds ran)
  | reap workerId target payload => exact idle still
  | requeueFromDlq payload =>
    unfold SystemEvent.relayed
    rw [SystemEvent.step]
    split <;> exact idle still
  | dropFromDlq payload => exact idle still

/-- What a batch marks it has pushed, when no push fails. -/
theorem SystemEvent.pushesRelayed {platform : Platform} (event : SystemEvent)
    (succeeds : event.PushesSucceed platform) : event.PushesRelayed registry loads platform := by
  rintro draws rfl
  rw [SystemEvent.relayed_eq registry loads _ succeeds]
  obtain ⟨db, queue⟩ := platform
  show (relayBatch draws db queue).2 = deliverAll draws 0 (if draws.acquired then _ else _) queue
  cases acquired : draws.acquired with
  | false =>
    rw [relayBatch, acquired, if_neg Bool.false_ne_true, if_neg Bool.false_ne_true]
    rfl
  | true =>
    rw [relayBatch, if_pos acquired, if_pos rfl]
    exact relayEntries_pushes (succeeds acquired) 0 _ db queue

/-- One event takes pending rows from the front and queues rows behind the end, unless pushes of a
batch fail; numbers are given out in either case. -/
theorem SystemEvent.step_pending {platform : Platform} (event : SystemEvent)
    (numbered : OutboxNumbered platform.db) :
    OutboxNumbered (SystemEvent.step registry loads platform event).db ∧
      (event.PushesSucceed platform →
        platform.db.pending ++ event.queued registry loads platform =
          event.relayed registry loads platform ++
            (SystemEvent.step registry loads platform event).db.pending) := by
  have taken (succeeds : event.PushesSucceed platform) :=
    SystemEvent.relayed_eq registry loads event succeeds
  obtain ⟨db, queue⟩ := platform
  have added (event : SystemEvent) (idle : event.takesBatch ⟨db, queue⟩ = false)
      (taken : event.PushesSucceed ⟨db, queue⟩ → event.relayed registry loads ⟨db, queue⟩ =
        if event.takesBatch ⟨db, queue⟩ then db.pending.take 100 else [])
      (adds : AddsTask db (SystemEvent.step registry loads ⟨db, queue⟩ event).db) :
      OutboxNumbered (SystemEvent.step registry loads ⟨db, queue⟩ event).db ∧
        (event.PushesSucceed ⟨db, queue⟩ →
          db.pending ++ event.queued registry loads ⟨db, queue⟩ =
            event.relayed registry loads ⟨db, queue⟩ ++
              (SystemEvent.step registry loads ⟨db, queue⟩ event).db.pending) := by
    refine ⟨numbered.adds adds, fun succeeds => ?_⟩
    rw [taken succeeds, idle, if_neg Bool.false_ne_true, List.nil_append]
    exact numbered.pending_adds adds
  have still : AddsTask db db := .inl ⟨rfl, rfl⟩
  cases event with
  | platform event =>
    cases event with
    | request made principal draws =>
      exact added _ rfl taken
        (commit_induction (AddsTask db) still fun next ran => RouteRequest.adds ran)
    | relay draws =>
      obtain ⟨numberedNext, unqueued⟩ := numbered.handedOver (relayBatch_handedOver draws queue db)
      refine ⟨numberedNext, fun succeed => ?_⟩
      rw [taken succeed, SystemEvent.queued, show (SystemEvent.step registry loads ⟨db, queue⟩
        (.platform (.relay draws))).db = (relayBatch draws db queue).1 from rfl, unqueued,
        List.append_nil, SystemEvent.takesBatch]
      cases acquired : draws.acquired with
      | false =>
        rw [if_neg Bool.false_ne_true, relayBatch, acquired, if_neg Bool.false_ne_true]
        rfl
      | true =>
        rw [if_pos rfl, relayBatch_pending (succeed acquired) acquired]
        exact (List.take_append_drop 100 db.pending).symm
    | schedule acquired now => exact added _ rfl taken still
    | work workerId returned draws =>
      exact added _ rfl taken (workerIteration_adds draws workerId db queue)
    | reap visibilityTimeout now workerIds => exact added _ rfl taken still
  | call made draws =>
    exact added _ rfl taken
      (commit_induction (AddsTask db) still fun next ran => OrchestratorCall.adds ran)
  | reap workerId target payload => exact added _ rfl taken still
  | requeueFromDlq payload =>
    refine added _ rfl taken ?_
    rw [SystemEvent.step]
    split <;> exact still
  | dropFromDlq payload => exact added _ rfl taken still

/-- Transactions commit one after the other and batches run to their end. While no push of a batch
fails, the rows that are relayed and those still pending are the rows that were pending and the
rows queued since, in the order of their numbers; each batch that gets the lock relays the next
hundred rows or all there are, and pushes just these. New rows get higher numbers and a batch
takes the lowest ones, so every event moves the pending rows as a waiting line. -/
theorem relayed_in_order (documents : List UUID) (before after : List SystemEvent)
    (succeed : Transition.Along (SystemEvent.step registry loads)
      (fun platform event => event.PushesSucceed platform)
      (Transition.run (SystemEvent.step registry loads) (.empty documents) before) after) :
    let step := SystemEvent.step registry loads
    let start := Transition.run step (.empty documents) before
    let relayed := Transition.collect step
      (fun platform event => event.relayed registry loads platform) start after
    start.db.pending ++ Transition.collect step
        (fun platform event => event.queued registry loads platform) start after =
      relayed ++ (Transition.run step start after).db.pending ∧
    start.db.pending.take (100 * Transition.tally step
      (fun platform event => event.takesBatch platform) start after) <+: relayed ∧
    Transition.Along step (fun platform event => event.PushesRelayed registry loads platform)
      start after := by
  intro step start relayed
  have preserved (platform : Platform) (event : SystemEvent) (numbered : OutboxNumbered platform.db)
      (_ : event.PushesSucceed platform) : OutboxNumbered (step platform event).db :=
    (SystemEvent.step_pending registry loads event numbered).1
  have balanced (platform : Platform) (event : SystemEvent) (numbered : OutboxNumbered platform.db)
      (succeeds : event.PushesSucceed platform) :=
    (SystemEvent.step_pending registry loads event numbered).2 succeeds
  have initial : OutboxNumbered start.db :=
    Transition.run_invariant_always step (fun platform => OutboxNumbered platform.db)
      (fun platform event numbered => (SystemEvent.step_pending registry loads event numbered).1)
      (.empty documents) (fun _ stored => absurd stored List.not_mem_nil) before
  refine ⟨Transition.collect_in_order step (fun platform => OutboxNumbered platform.db) preserved
      balanced start initial after succeed,
    Transition.take_prefix_collect step (fun platform => OutboxNumbered platform.db) preserved
      balanced (fun platform event _ succeeds => event.relayed_eq registry loads succeeds) start
      initial after succeed, ?_⟩
  exact Transition.along_mono step
    (fun platform event succeeds => event.pushesRelayed registry loads succeeds) start after succeed

/-- Three runs are created, with a batch that gets the lock and one that does not in between. -/
def threeCreated : List SystemEvent :=
  [created 1, created 2, raising fun _ => false,
    .relay { acquired := false, now := 30, time := fun _ => "30.0", pushError := fun _ => none },
    created 3].map .platform

/-- The first two rows are relayed in one batch, and the third waits. -/
theorem relayed_in_order_three :
    let step := SystemEvent.step [claimIntakeV1] fun _ => none
    let relayed := Transition.collect step
      (fun platform event => event.relayed [claimIntakeV1] (fun _ => none) platform)
      (.empty []) threeCreated
    let reached := Transition.run step (.empty []) threeCreated
    relayed.map (fun row => row.outboxId) = [1, 2] ∧
    reached.db.pending.map (fun row => row.outboxId) = [3] ∧
    Transition.collect step (fun platform event => event.queued [claimIntakeV1] (fun _ => none)
        platform) (.empty []) threeCreated = relayed ++ reached.db.pending ∧
    Transition.Along step
      (fun platform event => event.PushesRelayed [claimIntakeV1] (fun _ => none) platform)
      (.empty []) threeCreated := by
  have relayed := relayed_in_order [claimIntakeV1] (fun _ => none) [] [] threeCreated
    ⟨trivial, trivial, fun _ _ => rfl, fun _ _ => rfl, trivial, trivial⟩
  refine and_assoc.mp ⟨?_, relayed.1, relayed.2.2⟩
  decide +kernel

end Outbox

/-! ### The ready list over a run -/

/-- What was pushed onto the ready list, first pushed first. -/
def TaskQueue.pushedSince (before after : TaskQueue) : List JsonObject :=
  ((after.lists .ready).take
    ((after.lists .ready).length - (before.lists .ready).length)).reverse

/-- The tasks of the ready list in the order in which they are claimed. -/
def TaskQueue.claimOrder (queue : TaskQueue) : List JsonObject := (queue.lists .ready).reverse

/-- The task an event claims. -/
def SystemEvent.claimed (platform : Platform) : SystemEvent → List JsonObject
  | .platform (.work workerId _ _) => ((platform.queue.claim workerId).map Prod.fst).toList
  | _ => []

/-- The tasks an event pushes onto the ready list. -/
def SystemEvent.pushed (registry : WorkflowRegistry) (loads : String → Option Json)
    (platform : Platform) (event : SystemEvent) : List JsonObject :=
  platform.queue.pushedSince (SystemEvent.step registry loads platform event).queue

section Ready

variable {queue after : TaskQueue}

/-- Tasks were pushed onto the ready list, which is the same otherwise. -/
def TaskQueue.Pushes (queue after : TaskQueue) : Prop :=
  ∃ added, after.lists .ready = added ++ queue.lists .ready

theorem TaskQueue.Pushes.refl (queue : TaskQueue) : queue.Pushes queue := ⟨[], rfl⟩

theorem TaskQueue.Pushes.trans {last : TaskQueue} (first : queue.Pushes after)
    (second : after.Pushes last) : queue.Pushes last := by
  obtain ⟨added, pushed⟩ := first
  obtain ⟨more, pushedLater⟩ := second
  exact ⟨more ++ added, by rw [pushedLater, pushed, List.append_assoc]⟩

theorem TaskQueue.Pushes.of_same (same : after.lists .ready = queue.lists .ready) :
    queue.Pushes after := ⟨[], same⟩

theorem TaskQueue.pushes_lpush (queue : TaskQueue) (key : QueueKey) (payload : JsonObject) :
    queue.Pushes (queue.lpush key payload) := by
  by_cases ready : key = .ready
  · refine ⟨[payload], ?_⟩
    rw [ready]
    exact Function.update_self QueueKey.ready _ queue.lists
  · exact .of_same (Function.update_of_ne (Ne.symm ready) _ _)

theorem TaskQueue.pushes_lrem (queue : TaskQueue) {key : QueueKey} (elsewhere : key ≠ .ready)
    (payload : JsonObject) : queue.Pushes (queue.lrem key payload) :=
  .of_same (Function.update_of_ne (Ne.symm elsewhere) _ _)

/-- What was pushed waits behind what is ready already. -/
theorem TaskQueue.Pushes.claimOrder (pushes : queue.Pushes after) :
    queue.claimOrder ++ queue.pushedSince after = after.claimOrder := by
  obtain ⟨added, pushed⟩ := pushes
  unfold TaskQueue.claimOrder TaskQueue.pushedSince
  rw [pushed, List.length_append, Nat.add_sub_cancel, List.take_left, List.reverse_append]

theorem TaskQueue.pushes_deliver (queue : TaskQueue) (entry : TasksOutboxModel)
    (payload : JsonObject) (now : Timestamp) : queue.Pushes (deliver queue entry payload now) := by
  unfold deliver
  split
  · exact queue.pushes_lpush .ready payload
  · exact .refl queue

theorem TaskQueue.pushes_relayEntries (draws : RelayDraws) (index : Nat)
    (entries : List TasksOutboxModel) (db : Database) (queue : TaskQueue) :
    queue.Pushes (relayEntries draws index entries db queue).2 := by
  induction entries generalizing index db queue with
  | nil => exact .refl queue
  | cons entry rest inductionHypothesis =>
    have first : queue.Pushes (relayEntry draws index entry db queue).2 := by
      unfold relayEntry
      split
      · exact queue.pushes_deliver entry _ draws.now
      · exact .refl queue
    unfold relayEntries
    split
    · rename_i result
      rw [result] at first
      exact first.trans (inductionHypothesis _ _ _)
    · rename_i result
      rw [result] at first
      exact first

theorem TaskQueue.pushes_reapTasks (visibilityTimeout now : ℚ) (workerId : String)
    (items : List JsonObject) (queue : TaskQueue) :
    queue.Pushes (reapTasks visibilityTimeout now workerId items queue).1 := by
  induction items generalizing queue with
  | nil => exact .refl queue
  | cons payload rest inductionHypothesis =>
    rw [reapTasks]
    split
    · exact inductionHypothesis queue
    · exact .refl queue
    · exact ((TaskQueue.pushes_lrem queue (by simp) payload).trans
        (TaskQueue.pushes_lpush _ _ payload)).trans (inductionHypothesis _)

theorem TaskQueue.pushes_reaperPass (visibilityTimeout now : ℚ) (workerIds : List String)
    (queue : TaskQueue) : queue.Pushes (reaperPass visibilityTimeout now workerIds queue) := by
  induction workerIds generalizing queue with
  | nil => exact .refl queue
  | cons workerId rest inductionHypothesis =>
    have first := TaskQueue.pushes_reapTasks visibilityTimeout now workerId
      (queue.lists (.inflight workerId)) queue
    rw [reaperPass]
    split
    · rename_i same
      rw [same] at first
      exact first.trans (inductionHypothesis _)
    · rename_i same
      rw [same] at first
      exact first

theorem TaskQueue.pushes_promote (maxScore : ℚ) (remaining : Nat) (queue : TaskQueue) :
    queue.Pushes (queue.promote maxScore remaining) := by
  induction remaining generalizing queue with
  | zero => exact .refl queue
  | succ remaining inductionHypothesis =>
    unfold TaskQueue.promote
    split
    · exact .refl queue
    · rename_i item score popped least
      have same : popped.lists .ready = queue.lists .ready := by
        unfold Store.zpopmin at least
        split at least
        · cases least
        · cases least
          rfl
      split
      · exact .of_same same
      · exact (TaskQueue.Pushes.of_same same).trans
          ((TaskQueue.pushes_lpush popped .ready item).trans (inductionHypothesis _))

/-- A claim takes the task at the right end of the ready list. -/
theorem TaskQueue.claim_ready {workerId : String} {payload : JsonObject} {claimed : TaskQueue}
    (taken : queue.claim workerId = some (payload, claimed)) :
    queue.lists .ready = claimed.lists .ready ++ [payload] := by
  unfold TaskQueue.claim Store.rpoplpush at taken
  split at taken
  · cases taken
  · rename_i last found
    cases taken
    have popped : Function.update (Function.update queue.lists QueueKey.ready
        (queue.lists .ready).dropLast) (.inflight workerId)
          (payload :: (Function.update queue.lists QueueKey.ready
            (queue.lists .ready).dropLast) (.inflight workerId)) .ready =
        (queue.lists .ready).dropLast := by
      rw [Function.update_of_ne (by simp), Function.update_self]
    exact (List.dropLast_append_getLast? payload found).symm.trans
      (congrArg (fun front => front ++ [payload]) popped.symm)

/-- What becomes of a claimed task leaves the ready list alone. -/
theorem settle_ready (db : Database) (claimed : TaskQueue) (workerId : String)
    (payload : JsonObject) (processed : Except Failure Disposition) :
    (settle db claimed workerId payload processed).2.lists .ready = claimed.lists .ready := by
  cases processed with
  | error failure => rfl
  | ok disposition =>
    cases disposition with
    | deadLetter => rfl
    | alreadyTerminal => rfl
    | written flushed => rfl

end Ready

section Claims

variable (registry : WorkflowRegistry) (loads : String → Option Json)

/-- One event claims ready tasks from the front and pushes tasks behind the end. -/
theorem SystemEvent.step_claimOrder (platform : Platform) (event : SystemEvent) :
    platform.queue.claimOrder ++ event.pushed registry loads platform =
      event.claimed platform ++
        (SystemEvent.step registry loads platform event).queue.claimOrder := by
  obtain ⟨db, queue⟩ := platform
  have pushes (event : SystemEvent) (idle : event.claimed ⟨db, queue⟩ = [])
      (pushed : queue.Pushes (SystemEvent.step registry loads ⟨db, queue⟩ event).queue) :
      queue.claimOrder ++ event.pushed registry loads ⟨db, queue⟩ =
        event.claimed ⟨db, queue⟩ ++
          (SystemEvent.step registry loads ⟨db, queue⟩ event).queue.claimOrder := by
    rw [idle, List.nil_append]
    exact pushed.claimOrder
  cases event with
  | platform event =>
    cases event with
    | request made principal draws => exact pushes _ rfl (.refl queue)
    | relay draws =>
      refine pushes _ rfl ?_
      show queue.Pushes (relayBatch draws db queue).2
      unfold relayBatch
      split
      · exact TaskQueue.pushes_relayEntries draws 0 _ db queue
      · exact .refl queue
    | schedule acquired now =>
      refine pushes _ rfl ?_
      show queue.Pushes (schedulerPass acquired now queue)
      unfold schedulerPass
      split
      · exact TaskQueue.pushes_promote _ _ queue
      · exact .refl queue
    | work workerId returned draws =>
      cases claim : queue.claim workerId with
      | none =>
        have idle : workerIteration loads (fun _ _ => returned) draws workerId db queue =
            (db, queue) := by
          rw [workerIteration, claim]
        refine pushes _ (by rw [SystemEvent.claimed, claim]; rfl) ?_
        show queue.Pushes (workerIteration loads (fun _ _ => returned) draws workerId db queue).2
        rw [idle]
        exact .refl queue
      | some task =>
        obtain ⟨payload, claimed⟩ := task
        have popped := TaskQueue.claim_ready claim
        have after : (SystemEvent.step registry loads ⟨db, queue⟩
            (.platform (.work workerId returned draws))).queue.lists .ready =
              claimed.lists .ready := by
          show (workerIteration loads (fun _ _ => returned) draws workerId db queue).2.lists
            .ready = _
          rw [workerIteration_some claim]
          exact settle_ready _ _ _ _ _
        have unpushed : SystemEvent.pushed registry loads ⟨db, queue⟩
            (.platform (.work workerId returned draws)) = [] := by
          rw [SystemEvent.pushed, TaskQueue.pushedSince, after, popped, List.length_append,
            Nat.sub_eq_zero_of_le (Nat.le_add_right _ _), List.take_zero, List.reverse_nil]
        rw [unpushed, List.append_nil, SystemEvent.claimed, claim, TaskQueue.claimOrder,
          TaskQueue.claimOrder, after, popped, List.reverse_append]
        rfl
    | reap visibilityTimeout now workerIds =>
      exact pushes _ rfl (TaskQueue.pushes_reaperPass visibilityTimeout now workerIds queue)
  | call made draws => exact pushes _ rfl (.refl queue)
  | reap workerId target payload =>
    exact pushes _ rfl ((TaskQueue.pushes_lrem queue (by simp) payload).trans
      (TaskQueue.pushes_lpush _ target.key payload))
  | requeueFromDlq payload =>
    refine pushes _ rfl ?_
    rw [SystemEvent.step]
    split
    · exact (TaskQueue.pushes_lrem queue (by simp) payload).trans
        (TaskQueue.pushes_lpush _ .ready payload)
    · exact .refl queue
  | dropFromDlq payload =>
    exact pushes _ rfl (TaskQueue.pushes_lrem queue (by simp) payload)

/-- Whatever happens: the tasks the workers claim and those still ready are the tasks that were
ready and the tasks pushed since, in the order in which they were pushed. So every ready task is
claimed once, and before all that were pushed after it. -/
theorem claimed_in_order (start : Platform) (events : List SystemEvent) :
    let step := SystemEvent.step registry loads
    start.queue.claimOrder ++ Transition.collect step
        (fun platform event => event.pushed registry loads platform) start events =
      Transition.collect step (fun platform event => event.claimed platform) start events ++
        (Transition.run step start events).queue.claimOrder := by
  intro step
  have unconditional : Transition.Along step (fun _ _ => True) start events :=
    Transition.along_of_always step (fun _ _ => trivial) start events
  exact Transition.collect_in_order step (fun _ => True) (fun _ _ _ _ => trivial)
    (fun platform event _ _ => SystemEvent.step_claimOrder registry loads platform event)
    start trivial events unconditional

end Claims

end InsuranceOps
