/-
This file models the outbox relay and the scheduler. A relay batch pushes the
tasks of pending outbox rows onto the queue and marks the rows as enqueued in
one transaction; what it pushed stays pushed when that transaction fails. The
batch hands every task it marks over to the queue, and pushes nothing but
copies of stored tasks.
-/

import InsuranceOps.Operations
import InsuranceOps.Queue

namespace InsuranceOps

open Relational

/-! ### The outbox -/

/-- The payload the relay pushes: the stored one with the time of the push. -/
def TasksOutboxModel.copy (task : TasksOutboxModel) (claimedAt : String) : JsonObject :=
  task.payload.set "claimed_at" (.string claimedAt)

namespace TasksOutboxModel

abbrev markEnqueued (enqueuedAt : Timestamp) (row : TasksOutboxModel) : TasksOutboxModel :=
  { row with enqueuedAt := some enqueuedAt }

abbrev countAttempt (error : String) (row : TasksOutboxModel) : TasksOutboxModel :=
  { row with attempts := row.attempts + 1, lastError := some error }

theorem countAttempt_keeps (error : String) (row : TasksOutboxModel) :
    (row.countAttempt error).outboxId = row.outboxId := rfl

end TasksOutboxModel

namespace Database

variable (db : Database)

/-- Get undelivered outbox entries ready for relay. -/
def getPending (limit : Nat) : List TasksOutboxModel :=
  ((db.tasksOutbox.rows.filter fun row => row.enqueuedAt = none).insertionSort
    fun first second => first.outboxId ≤ second.outboxId).take limit

/-- Mark an outbox entry as successfully enqueued. -/
def markEnqueued (outboxId : Nat) (enqueuedAt : Timestamp) : Database :=
  db.updateTasksOutbox outboxId (TasksOutboxModel.markEnqueued enqueuedAt)

/-- Increment the attempt counter and record the error. -/
def incrementAttempts (outboxId : Nat) (error : String) : Except Failure Database :=
  if db.tasksOutbox.rows.all fun row => row.outboxId ≠ outboxId ∨ row.attempts + 1 ≤ 10 then
    .ok (db.updateTasksOutbox outboxId (TasksOutboxModel.countAttempt error))
  else .error (.database (.checkViolation "ck_tasks_outbox_attempts_range"))

end Database

/-! ### A batch -/

/-- What a batch draws from its surroundings: whether it gets the advisory lock, the clock, the
text of `time.time()` for each entry, and the error its push raises, if any. -/
structure RelayDraws where
  acquired : Bool
  now : Timestamp
  time : Nat → String
  pushError : Nat → Option String

variable (draws : RelayDraws)

/-- Push an immediate task to the ready queue and a future one to the delayed set. -/
def deliver (queue : TaskQueue) (entry : TasksOutboxModel) (payload : JsonObject)
    (now : Timestamp) : TaskQueue :=
  if entry.scheduledFor ≤ now then queue.enqueue payload
  else queue.schedule payload entry.scheduledFor

/-- Relay one entry: push it and mark it, or count the attempt when the push raises. -/
def relayEntry (index : Nat) (entry : TasksOutboxModel) (db : Database) (queue : TaskQueue) :
    Except Failure Database × TaskQueue :=
  match draws.pushError index with
  | none => (.ok (db.markEnqueued entry.outboxId draws.now),
      deliver queue entry (entry.copy (draws.time index)) draws.now)
  | some error => (db.incrementAttempts entry.outboxId error, queue)

/-- Relay the entries in order; a failed statement ends the batch. -/
def relayEntries : Nat → List TasksOutboxModel → Database → TaskQueue →
    Except Failure Database × TaskQueue
  | _, [], db, queue => (.ok db, queue)
  | index, entry :: rest, db, queue =>
    match relayEntry draws index entry db queue with
    | (.ok relayed, pushed) => relayEntries (index + 1) rest relayed pushed
    | (.error failure, pushed) => (.error failure, pushed)

/-- Process one batch of outbox entries. -/
def relayBatch (db : Database) (queue : TaskQueue) : Database × TaskQueue :=
  if draws.acquired then
    let (flushed, pushed) := relayEntries draws 0 (db.getPending 100) db queue
    (commit db flushed, pushed)
  else (db, queue)

/-- One pass of the scheduler. -/
def schedulerPass (acquired : Bool) (now : Timestamp) (queue : TaskQueue) : TaskQueue :=
  if acquired then queue.matureTasks now 200 else queue

/-! ### What a batch does -/

/-- Two rows of one task, which may differ in how far its delivery has come. -/
structure TasksOutboxModel.SameTask (first second : TasksOutboxModel) : Prop where
  outboxId : first.outboxId = second.outboxId
  workflowRunId : first.workflowRunId = second.workflowRunId
  stepId : first.stepId = second.stepId
  stepAttemptId : first.stepAttemptId = second.stepAttemptId
  payload : first.payload = second.payload

theorem TasksOutboxModel.SameTask.refl (task : TasksOutboxModel) : task.SameTask task :=
  ⟨rfl, rfl, rfl, rfl, rfl⟩

theorem TasksOutboxModel.SameTask.symm {first second : TasksOutboxModel}
    (same : first.SameTask second) : second.SameTask first :=
  ⟨same.outboxId.symm, same.workflowRunId.symm, same.stepId.symm, same.stepAttemptId.symm,
    same.payload.symm⟩

theorem TasksOutboxModel.SameTask.trans {first second third : TasksOutboxModel}
    (one : first.SameTask second) (two : second.SameTask third) : first.SameTask third :=
  ⟨one.outboxId.trans two.outboxId, one.workflowRunId.trans two.workflowRunId,
    one.stepId.trans two.stepId, one.stepAttemptId.trans two.stepAttemptId,
    one.payload.trans two.payload⟩

theorem TasksOutboxModel.SameTask.copy {first second : TasksOutboxModel}
    (same : first.SameTask second) (claimedAt : String) :
    first.copy claimedAt = second.copy claimedAt := by
  unfold TasksOutboxModel.copy
  rw [same.payload]

/-- A copy has the fields of the task it is of, but for its stamp. -/
theorem TasksOutboxModel.copy_get? (task : TasksOutboxModel) (claimedAt : String) {key : String}
    (unstamped : key ≠ "claimed_at") :
    (task.copy claimedAt).get? key = task.payload.get? key :=
  JsonObject.get?_set_of_ne _ _ unstamped

/-- The field of a copy that names its attempt. -/
theorem TasksOutboxModel.Addressed.copy_attempt {task : TasksOutboxModel}
    (addressed : task.Addressed) (claimedAt : String) :
    (task.copy claimedAt).get? "step_attempt_id" = some (.ofId task.stepAttemptId) :=
  (task.copy_get? claimedAt (by decide)).trans addressed.attempt

/-- Two rows of one task are addressed alike. -/
theorem TasksOutboxModel.Addressed.of_same {first second : TasksOutboxModel}
    (addressed : second.Addressed) (same : first.SameTask second) : first.Addressed := by
  refine ⟨?_, ?_, ?_⟩
  · rw [same.payload, same.workflowRunId]
    exact addressed.run
  · rw [same.payload, same.stepId]
    exact addressed.step
  · rw [same.payload, same.stepAttemptId]
    exact addressed.attempt

/-- A task is on its way: its row is pending, or a copy of its payload is in the queue. -/
def TasksOutboxModel.UnderWay (task : TasksOutboxModel) (queue : TaskQueue) : Prop :=
  task.enqueuedAt = none ∨ ∃ claimedAt, queue.Holds (task.copy claimedAt)

theorem TasksOutboxModel.UnderWay.mono {task : TasksOutboxModel} {queue after : TaskQueue}
    (kept : ∀ payload, queue.Holds payload → after.Holds payload)
    (underWay : task.UnderWay queue) : task.UnderWay after :=
  underWay.imp_right fun ⟨claimedAt, held⟩ => ⟨claimedAt, kept _ held⟩

/-- Tasks were handed from the outbox to the queue: no other table changed, every task that was
under way still is, and the queue gained copies of stored tasks only. -/
structure HandedOver (db next : Database) (queue after : TaskQueue) : Prop where
  contents : next.contents = { db.contents with tasksOutbox := next.contents.tasksOutbox }
  forward : ∀ task ∈ db.contents.tasksOutbox, ∃ row ∈ next.contents.tasksOutbox,
    row.SameTask task ∧ (task.UnderWay queue → row.UnderWay after)
  backward : ∀ row ∈ next.contents.tasksOutbox, ∃ task ∈ db.contents.tasksOutbox,
    row.SameTask task
  kept : ∀ payload, queue.Holds payload → after.Holds payload
  gained : ∀ payload, after.Holds payload → queue.Holds payload ∨
    ∃ task ∈ db.contents.tasksOutbox, ∃ claimedAt, payload = task.copy claimedAt

namespace HandedOver

variable {db next third : Database} {queue after last : TaskQueue}

/-- Only the queue moved. -/
theorem of_queue (db : Database) (kept : ∀ payload, queue.Holds payload → after.Holds payload)
    (gained : ∀ payload, after.Holds payload → queue.Holds payload ∨
      ∃ task ∈ db.contents.tasksOutbox, ∃ claimedAt, payload = task.copy claimedAt) :
    HandedOver db db queue after where
  contents := rfl
  forward task stored := ⟨task, stored, .refl task, TasksOutboxModel.UnderWay.mono kept⟩
  backward row stored := ⟨row, stored, .refl row⟩
  kept := kept
  gained := gained

theorem refl (db : Database) (queue : TaskQueue) : HandedOver db db queue queue :=
  of_queue db (fun _ held => held) fun _ held => .inl held

theorem trans (first : HandedOver db next queue after)
    (second : HandedOver next third after last) : HandedOver db third queue last where
  contents := by
    rw [second.contents, first.contents]
  forward task stored := by
    obtain ⟨middle, middleStored, sameFirst, keptFirst⟩ := first.forward task stored
    obtain ⟨row, rowStored, sameSecond, keptSecond⟩ := second.forward middle middleStored
    exact ⟨row, rowStored, sameSecond.trans sameFirst,
      fun underWay => keptSecond (keptFirst underWay)⟩
  backward row stored := by
    obtain ⟨middle, middleStored, sameSecond⟩ := second.backward row stored
    obtain ⟨task, taskStored, sameFirst⟩ := first.backward middle middleStored
    exact ⟨task, taskStored, sameSecond.trans sameFirst⟩
  kept payload held := second.kept payload (first.kept payload held)
  gained payload held := by
    rcases second.gained payload held with between | ⟨middle, middleStored, claimedAt, rfl⟩
    · exact first.gained payload between
    · obtain ⟨task, stored, same⟩ := first.backward middle middleStored
      exact .inr ⟨task, stored, claimedAt, same.copy claimedAt⟩

/-- When the transaction fails, what was pushed stays pushed. -/
theorem rolledBack (handed : HandedOver db next queue after) : HandedOver db db queue after :=
  of_queue db handed.kept handed.gained

/-- The row of one task changed along with the queue. -/
theorem of_update (outboxId : Nat) (change : TasksOutboxModel → TasksOutboxModel)
    (keeps : ∀ row, (change row).outboxId = row.outboxId)
    (same : ∀ row, (change row).SameTask row)
    (underWay : ∀ row ∈ db.contents.tasksOutbox, row.outboxId = outboxId →
      row.UnderWay queue → (change row).UnderWay after)
    (kept : ∀ payload, queue.Holds payload → after.Holds payload)
    (gained : ∀ payload, after.Holds payload → queue.Holds payload ∨
      ∃ task ∈ db.contents.tasksOutbox, ∃ claimedAt, payload = task.copy claimedAt) :
    HandedOver db (db.updateTasksOutbox outboxId change keeps) queue after where
  contents := rfl
  forward task stored := by
    by_cases selected : task.outboxId = outboxId
    · exact ⟨change task, mem_updateRows_of_selects stored (decide_eq_true selected), same task,
        underWay task stored selected⟩
    · exact ⟨task, mem_updateRows_of_not stored (decide_eq_false selected), .refl task,
        TasksOutboxModel.UnderWay.mono kept⟩
  backward row stored := by
    obtain ⟨task, taskStored, rfl⟩ := mem_updateRows.mp stored
    refine ⟨task, taskStored, ?_⟩
    split
    · exact same task
    · exact .refl task
  kept := kept
  gained := gained

end HandedOver

theorem Database.tasksOutbox_distinct (db : Database) :
    (db.contents.tasksOutbox.map fun row => row.outboxId).Nodup :=
  db.tasksOutbox.distinct _ List.mem_cons_self

section Effects

variable {db : Database} (queue : TaskQueue)

theorem holds_deliver (entry : TasksOutboxModel) (payload other : JsonObject) (now : Timestamp) :
    (deliver queue entry payload now).Holds other ↔ other = payload ∨ queue.Holds other := by
  unfold deliver
  split
  · exact TaskQueue.holds_enqueue queue payload other
  · exact TaskQueue.holds_schedule queue payload other entry.scheduledFor

/-- An entry read from the outbox is handed over, or only its attempts are counted. -/
theorem relayEntry_handedOver (index : Nat) {entry row : TasksOutboxModel}
    (stored : row ∈ db.contents.tasksOutbox) (read : entry.SameTask row) :
    HandedOver db (commit db (relayEntry draws index entry db queue).1) queue
      (relayEntry draws index entry db queue).2 := by
  unfold relayEntry
  split
  · refine .of_update _ (TasksOutboxModel.markEnqueued draws.now) (fun _ => rfl)
      (fun _ => ⟨rfl, rfl, rfl, rfl, rfl⟩) ?_
      (fun payload held => (holds_deliver queue _ _ _ _).mpr (.inr held)) ?_
    · intro task taskStored same _
      have found := find?_of_mem (fun row : TasksOutboxModel => row.outboxId)
        db.tasksOutbox_distinct taskStored
      have one := eq_of_find? (fun row : TasksOutboxModel => row.outboxId)
        db.tasksOutbox_distinct found stored (read.outboxId.symm.trans same.symm)
      rw [one] at read
      exact .inr ⟨_, (holds_deliver queue _ _ _ _).mpr (.inl (read.copy _).symm)⟩
    · intro payload held
      rcases (holds_deliver queue _ _ _ _).mp held with pushed | old
      · exact .inr ⟨row, stored, _, pushed.trans (read.copy _)⟩
      · exact .inl old
  · rename_i error _
    unfold Database.incrementAttempts
    split
    · exact .of_update _ (TasksOutboxModel.countAttempt error) (fun _ => rfl)
        (fun _ => ⟨rfl, rfl, rfl, rfl, rfl⟩) (fun _ _ _ underWay => underWay)
        (fun _ held => held) fun _ held => .inl held
    · exact .refl db queue

theorem relayEntries_handedOver (index : Nat) (entries : List TasksOutboxModel)
    (read : ∀ entry ∈ entries, ∃ row ∈ db.contents.tasksOutbox, entry.SameTask row) :
    HandedOver db (commit db (relayEntries draws index entries db queue).1) queue
      (relayEntries draws index entries db queue).2 := by
  induction entries generalizing index db queue with
  | nil => exact .refl db queue
  | cons entry rest inductionHypothesis =>
    obtain ⟨row, stored, same⟩ := read entry List.mem_cons_self
    have first := relayEntry_handedOver draws queue index stored same
    unfold relayEntries
    match result : relayEntry draws index entry db queue with
    | (.error failure, pushed) =>
      rw [result] at first
      exact first
    | (.ok relayed, pushed) =>
      rw [result] at first
      have reread : ∀ other ∈ rest, ∃ row ∈ relayed.contents.tasksOutbox, other.SameTask row := by
        intro other member
        obtain ⟨old, oldStored, oldSame⟩ := read other (List.mem_cons_of_mem _ member)
        obtain ⟨new, newStored, newSame, -⟩ := first.forward old oldStored
        exact ⟨new, newStored, oldSame.trans newSame.symm⟩
      have remaining := inductionHypothesis pushed (index + 1) reread
      have both := first.trans remaining
      revert both
      cases (relayEntries draws (index + 1) rest relayed pushed).1 with
      | ok final => exact id
      | error failure => exact HandedOver.rolledBack

/-- What is ready for relay is stored and pending. -/
theorem mem_getPending {db : Database} {limit : Nat} {entry : TasksOutboxModel}
    (member : entry ∈ db.getPending limit) :
    entry ∈ db.contents.tasksOutbox ∧ entry.enqueuedAt = none := by
  have pending := List.mem_of_mem_take member
  rw [List.mem_insertionSort, List.mem_filter, decide_eq_true_eq] at pending
  exact pending

theorem getPending_distinct (db : Database) (limit : Nat) :
    ((db.getPending limit).map fun entry => entry.outboxId).Nodup := by
  have kept : ((db.tasksOutbox.rows.filter fun row => row.enqueuedAt = none).map
      fun row => row.outboxId).Nodup :=
    (List.filter_sublist.map _).nodup db.tasksOutbox_distinct
  have sorted := ((List.perm_insertionSort (fun first second : TasksOutboxModel =>
    first.outboxId ≤ second.outboxId) _).map fun row => row.outboxId).nodup_iff.mpr kept
  exact ((List.take_sublist limit _).map _).nodup sorted

/-- A batch hands tasks over. -/
theorem relayBatch_handedOver (db : Database) :
    HandedOver db (relayBatch draws db queue).1 queue (relayBatch draws db queue).2 := by
  unfold relayBatch
  split
  · refine relayEntries_handedOver draws queue 0 _ fun entry member => ⟨entry, ?_, .refl entry⟩
    exact (mem_getPending member).1
  · exact .refl db queue

/-- A pass of the scheduler moves tasks within the queue. -/
theorem schedulerPass_handedOver (acquired : Bool) (now : Timestamp) (db : Database) :
    HandedOver db db queue (schedulerPass acquired now queue) := by
  unfold schedulerPass
  split
  · exact .of_queue db (fun payload => (TaskQueue.holds_matureTasks queue now 200 payload).mpr)
      fun payload held => .inl ((TaskQueue.holds_matureTasks queue now 200 payload).mp held)
  · exact .refl db queue

end Effects

end InsuranceOps
