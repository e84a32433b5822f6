/-
This file takes the background tasks of the worker processes apart into their
statements. A relay batch is cut between the advisory lock, the read of the
outbox, each push, each mark, its commit and the two statements of its finally
block; any of them may raise, be cancelled or be refused by the database, and a
process may stop between any two. Workers, the scheduler, the reaper and the
operators are cut between their commands to the queue server, which may lose
everything it holds at any time.
-/

import InsuranceOps.Commands
import InsuranceOps.Platform
import InsuranceOps.Library.AdvisoryLock

namespace InsuranceOps

open AdvisoryLock ListStore

/-! ### Writes of a batch -/

/-- A write to one row of the outbox. -/
inductive OutboxWrite where
  | mark (outboxId : Nat) (enqueuedAt : Timestamp)
  | count (outboxId : Nat) (error : String)

/-- The write takes effect. -/
def OutboxWrite.apply (db : Database) : OutboxWrite → Database
  | .mark outboxId enqueuedAt => db.markEnqueued outboxId enqueuedAt
  | .count outboxId error => db.updateTasksOutbox outboxId (TasksOutboxModel.countAttempt error)
      (TasksOutboxModel.countAttempt_keeps error)

/-- The writes of a transaction take effect. Each is relative to the row it finds. -/
def Database.applyWrites (db : Database) (writes : List OutboxWrite) : Database :=
  writes.foldl OutboxWrite.apply db

/-- The command a push sends to the queue server. -/
inductive PushCommand where
  | enqueue (payload : JsonObject)
  | schedule (payload : JsonObject) (runAt : Timestamp)

def PushCommand.perform (queue : TaskQueue) : PushCommand → TaskQueue
  | .enqueue payload => queue.enqueue payload
  | .schedule payload runAt => queue.schedule payload runAt

/-- An immediate task goes to the ready queue, a future one to the delayed set. -/
def TasksOutboxModel.push (task : TasksOutboxModel) (time : String) (now : Timestamp) :
    PushCommand :=
  if task.scheduledFor ≤ now then .enqueue (task.copy time)
  else .schedule (task.copy time) task.scheduledFor

/-! ### Where the services are -/

/-- A batch that has the lock: its number, the connection it took the lock with, its `now` and the
writes of its transaction. -/
structure RelayBatch where
  number : Nat
  connection : Nat
  now : Timestamp
  writes : List OutboxWrite

/-- What a relay process is about to do: read the outbox, push the next entry or commit, mark the
entry it pushed, count the failure of an entry, or run its finally block: behind the commit, behind
an exception, or in a transaction that refuses every statement; and last commit once more. -/
inductive RelayPhase where
  | idle
  | locked (batch : RelayBatch)
  | relaying (batch : RelayBatch) (rest : List TasksOutboxModel)
  | pushed (batch : RelayBatch) (entry : TasksOutboxModel) (rest : List TasksOutboxModel)
  | failed (batch : RelayBatch) (entry : TasksOutboxModel) (error : String)
      (rest : List TasksOutboxModel)
  | committed (batch : RelayBatch)
  | leaving (batch : RelayBatch)
  | aborted (batch : RelayBatch)
  | unlocked (batch : RelayBatch)

/-- What a worker is about to do with the task it has claimed. -/
inductive WorkerPhase where
  | idle
  | working (payload : JsonObject)
  | burying (payload : JsonObject)
  | acking (payload : JsonObject)

/-- A task that was removed from one key and is not yet pushed to another. -/
inductive Transfer where
  | idle
  | moving (target : MoveTarget) (payload : JsonObject)
  | restoring (payload : JsonObject) (score : ℚ)

/-- A push of a relay batch. -/
structure RelayPush where
  batch : Nat
  outboxId : Nat
  now : Timestamp
  command : PushCommand

/-- A commit of a relay batch, at the end of its try block or in its finally block. -/
structure BatchCommit where
  batch : Nat
  atEnd : Bool
  writes : List OutboxWrite

/-- The database and the queue; the relay's lock, held by a connection of a process; the rows of the
outbox that transactions have locked; the services; and what happened so far: how many batches
began, what they pushed and committed, which tasks were moved to the dead letters, and how many
pushes came before the queue was last emptied. -/
structure Services where
  db : Database
  queue : TaskQueue
  relayLock : Lock (Nat × Nat)
  rowLocks : Nat → Option Nat
  relays : Nat → RelayPhase
  workers : String → WorkerPhase
  transfers : Nat → Transfer
  batches : Nat
  pushes : List RelayPush
  commits : List BatchCommit
  buried : List JsonObject
  wiped : Nat

namespace Services

/-- All services are idle, nothing has happened. -/
def resting (db : Database) (queue : TaskQueue) : Services where
  db := db
  queue := queue
  relayLock := none
  rowLocks _ := none
  relays _ := .idle
  workers _ := .idle
  transfers _ := .idle
  batches := 0
  pushes := []
  commits := []
  buried := []
  wiped := 0

variable (services : Services)

/-! ### The relay -/

/-- A relay process goes on. -/
def proceed (process : Nat) (phase : RelayPhase) : Services :=
  { services with relays := Function.update services.relays process phase }

/-- The rows a transaction has locked are free again. -/
def freeRows (process : Nat) : Nat → Option Nat := fun outboxId =>
  if services.rowLocks outboxId = some process then none else services.rowLocks outboxId

/-- Commit what the batch has written. -/
def commitBatch (process : Nat) (batch : RelayBatch) (atEnd : Bool) (phase : RelayPhase) :
    Services :=
  { services.proceed process phase with
    db := services.db.applyWrites batch.writes
    rowLocks := services.freeRows process
    commits := services.commits ++ [⟨batch.number, atEnd, batch.writes⟩] }

/-- The transaction is gone, with what it has written. -/
def rollBack (process : Nat) (phase : RelayPhase) : Services :=
  { services.proceed process phase with rowLocks := services.freeRows process }

/-- Take the advisory lock with a connection of the pool, or return. -/
def acquire (process connection : Nat) (now : Timestamp) : Services :=
  match services.relayLock.tryLock (process, connection) with
  | none => services
  | some taken =>
    { services.proceed process (.locked ⟨services.batches, connection, now, []⟩) with
      relayLock := taken
      batches := services.batches + 1 }

/-- Release the advisory lock with a connection, which may not be the one that holds it. -/
def release (process connection : Nat) (batch : RelayBatch) : Services :=
  { services.proceed process (.unlocked batch) with
    relayLock := services.relayLock.unlock (process, connection) }

/-- Push an entry. -/
def pushEntry (process : Nat) (batch : RelayBatch) (entry : TasksOutboxModel)
    (rest : List TasksOutboxModel) (time : String) : Services :=
  let command := entry.push time batch.now
  { services.proceed process (.pushed batch entry rest) with
    queue := command.perform services.queue
    pushes := services.pushes ++ [⟨batch.number, entry.outboxId, batch.now, command⟩] }

/-- No other transaction has locked the row. -/
def rowFree (process outboxId : Nat) : Bool :=
  match services.rowLocks outboxId with
  | none => true
  | some holder => holder = process

/-- Write a row of the outbox and lock it. -/
def writeRow (process : Nat) (batch : RelayBatch) (outboxId : Nat) (write : OutboxWrite)
    (rest : List TasksOutboxModel) : Services :=
  { services.proceed process (.relaying { batch with writes := batch.writes ++ [write] } rest) with
    rowLocks := Function.update services.rowLocks outboxId (some process) }

/-- The next statement of a relay process succeeds. A write waits for its row; counting a failure
may violate the schema; in an aborted transaction even the unlock is refused, and the session is
closed. -/
def perform (process : Nat) (time : String) (connection : Nat) : Services :=
  match services.relays process with
  | .idle => services
  | .locked batch => services.proceed process (.relaying batch (services.db.getPending 100))
  | .relaying batch (entry :: rest) => services.pushEntry process batch entry rest time
  | .relaying batch [] =>
    services.commitBatch process batch true (.committed { batch with writes := [] })
  | .pushed batch entry rest =>
    if services.rowFree process entry.outboxId then
      services.writeRow process batch entry.outboxId (.mark entry.outboxId batch.now) rest
    else services
  | .failed batch entry error rest =>
    if services.rowFree process entry.outboxId then
      match (services.db.applyWrites batch.writes).incrementAttempts entry.outboxId error with
      | .ok _ => services.writeRow process batch entry.outboxId (.count entry.outboxId error) rest
      | .error _ => services.rollBack process (.aborted { batch with writes := [] })
    else services
  | .committed batch => services.release process connection batch
  | .leaving batch => services.release process batch.connection batch
  | .aborted _ => services.rollBack process .idle
  | .unlocked batch => services.commitBatch process batch false .idle

/-- The next await of a relay process raises an exception, or is cancelled, without effect. An
exception at a push or at the mark behind it is counted in the row; everything else leaves the try
block, or the finally block. -/
def raise (process : Nat) (error : Option String) : Services :=
  match services.relays process, error with
  | .idle, _ => services
  | .relaying batch (entry :: rest), some error | .pushed batch entry rest, some error =>
    services.proceed process (.failed batch entry error rest)
  | .locked batch, _ | .relaying batch _, _ | .pushed batch _ _, none | .failed batch _ _ _, _ =>
    services.proceed process (.leaving batch)
  | .committed _, _ | .leaving _, _ | .aborted _, _ | .unlocked _, _ =>
    services.rollBack process .idle

/-- The database refuses the next statement of a relay process, and so every later one of its
transaction. A push is no statement of the database. -/
def refuse (process : Nat) : Services :=
  match services.relays process with
  | .idle | .relaying _ (_ :: _) => services
  | .locked batch | .relaying batch [] | .pushed batch _ _ | .failed batch _ _ _ =>
    services.rollBack process (.aborted { batch with writes := [] })
  | .committed _ | .leaving _ | .aborted _ | .unlocked _ => services.rollBack process .idle

/-- A relay process stops, and its connections with it. -/
def crash (process : Nat) : Services :=
  { services.rollBack process .idle with
    relayLock := services.relayLock.disconnect fun owner => owner.1 = process }

end Services

/-- What happens at the next await of a relay process. -/
inductive RelayAction where
  | acquire (connection : Nat) (now : Timestamp)
  | perform (time : String) (connection : Nat)
  | raise (error : Option String)
  | refuse
  | crash

/-- The step of a relay process. A batch begins where the last one has ended. -/
def Services.relayStep (services : Services) (process : Nat) : RelayAction → Services
  | .acquire connection now =>
    match services.relays process with
    | .idle => services.acquire process connection now
    | _ => services
  | .perform time connection => services.perform process time connection
  | .raise error => services.raise process error
  | .refuse => services.refuse process
  | .crash => services.crash process

/-! ### The other services -/

/-- What happens at the next await of a worker. -/
inductive WorkerAction where
  | claim
  | process (returned : HandlerReturn) (draws : Draws)
  | command
  | crash

/-- A command of the reaper, the scheduler or an operator. -/
inductive TransferAction where
  | reap (workerId : String) (target : MoveTarget) (payload : JsonObject)
  | popMin (now : Timestamp)
  | requeue (payload : JsonObject)
  | push

namespace Services

variable (loads : String → Option Json) (services : Services)

/-- A worker goes on. -/
def workerProceed (workerId : String) (phase : WorkerPhase) : Services :=
  { services with workers := Function.update services.workers workerId phase }

/-- The step of a worker. -/
def workerStep (workerId : String) (action : WorkerAction) : Services :=
  match services.workers workerId, action with
  | .idle, .claim =>
    match services.queue.claim workerId with
    | none => services
    | some (payload, claimed) =>
      { services.workerProceed workerId (.working payload) with queue := claimed }
  | .working payload, .process returned draws =>
    match processTask loads (fun _ _ => returned) services.db draws workerId payload with
    | .error _ => services.workerProceed workerId .idle
    | .ok .deadLetter => services.workerProceed workerId (.burying payload)
    | .ok .alreadyTerminal => services.workerProceed workerId (.acking payload)
    | .ok (.written flushed) =>
      { services.workerProceed workerId (.acking payload) with db := flushed }
  | .burying payload, .command =>
    { services.workerProceed workerId (.acking payload) with
      queue := services.queue.moveToDlq payload
      buried := payload :: services.buried }
  | .acking payload, .command =>
    { services.workerProceed workerId .idle with queue := services.queue.ack workerId payload }
  | _, .crash => services.workerProceed workerId .idle
  | _, _ => services

/-- A task was taken out of the queue, to be pushed again. -/
def transferring (index : Nat) (queue : TaskQueue) (transfer : Transfer) : Services :=
  { services with
    queue := queue
    transfers := Function.update services.transfers index transfer }

/-- Payloads are looked up in lists by their equality. -/
local instance payloadEquality : LawfulBEq JsonObject := inferInstance

/-- The step of the reaper, the scheduler or an operator. The reaper works from a snapshot of an
inflight list, so the task it moves need not be there any more. -/
def transferStep (index : Nat) (action : TransferAction) : Services :=
  match services.transfers index, action with
  | .idle, .reap workerId target payload =>
    { services.transferring index (services.queue.lrem (.inflight workerId) payload)
        (.moving target payload) with
      buried :=
        match target with
        | .ready => services.buried
        | .dlq => payload :: services.buried }
  | .idle, .popMin now =>
    match services.queue.zpopmin .delayed with
    | none => services
    | some ((payload, score), popped) =>
      services.transferring index popped
        (if TaskQueue.epochMs now < score then .restoring payload score else .moving .ready payload)
  | .idle, .requeue payload =>
    if payload ∈ services.queue.lists .dlq then
      services.transferring index (services.queue.lrem .dlq payload) (.moving .ready payload)
    else services
  | .moving target payload, .push =>
    services.transferring index (services.queue.lpush target.key payload) .idle
  | .restoring payload score, .push =>
    services.transferring index (services.queue.zadd dueBefore .delayed payload score) .idle
  | _, _ => services

end Services

/-! ### All services -/

/-- An event of one of the services, or the loss of all the queue server holds. -/
inductive ServiceEvent where
  | relay (process : Nat) (action : RelayAction)
  | worker (workerId : String) (action : WorkerAction)
  | transfer (index : Nat) (action : TransferAction)
  | dropFromDlq (payload : JsonObject)
  | operation (made : Operation) (draws : Draws)
  | flush

/-- The step of the services. -/
def Services.step (registry : WorkflowRegistry) (loads : String → Option Json)
    (services : Services) : ServiceEvent → Services
  | .relay process action => services.relayStep process action
  | .worker workerId action => services.workerStep loads workerId action
  | .transfer index action => services.transferStep index action
  | .dropFromDlq payload => { services with queue := services.queue.lrem .dlq payload }
  | .operation made draws =>
    { services with db := Operation.step registry services.db (made, draws) }
  | .flush => { services with queue := .empty, wiped := services.pushes.length }

end InsuranceOps
