/-
This file settles that no task becomes ready before it is due. The services run
on one clock that never goes back: a relay batch and a scheduler pass decide by
a reading they took before. Every task in the queue is a copy of a row of the
outbox; a delayed one has a score no earlier than the time of its row, and one
anywhere else is due. A row is the only one for its attempt, so the copy of a
row cannot be mistaken for the copy of another one.
-/

import InsuranceOps.Dispatch
import InsuranceOps.Library.Admission
import InsuranceOps.RelayedPushes

namespace InsuranceOps

open ListStore Relational

/-! ### One row for an attempt -/

section Dispatching

variable {registry : WorkflowRegistry} {first second : Contents}

/-- Attempts and steps were changed in columns that say nothing about who runs them. -/
theorem Dispatched.report (dispatched : Dispatched registry first)
    (revised : Revised first second) (tasks : second.tasksOutbox = first.tasksOutbox)
    {selects : StepAttemptModel → Bool} {change : StepAttemptModel → StepAttemptModel}
    (attempts : second.stepAttempts = updateRows selects change first.stepAttempts)
    (keeps : ∀ row, (change row).stepAttemptId = row.stepAttemptId ∧
      (change row).stepId = row.stepId ∧ (change row).origin = row.origin ∧
      (change row).stepAttemptNumber = row.stepAttemptNumber ∧
      (change row).scheduledFor = row.scheduledFor) : Dispatched registry second := by
  have updated (row : StepAttemptModel) :
      ∃ later, later = (if selects row then change row else row) ∧
      later.stepAttemptId = row.stepAttemptId ∧ later.stepId = row.stepId ∧
      later.origin = row.origin ∧ later.stepAttemptNumber = row.stepAttemptNumber ∧
      later.scheduledFor = row.scheduledFor := by
    refine ⟨_, rfl, ?_⟩
    split
    · exact keeps row
    · exact ⟨rfl, rfl, rfl, rfl, rfl⟩
  refine ⟨revised.defined dispatched, revised.attached dispatched, ?_, ?_, ?_⟩
  · intro task stored
    rw [tasks] at stored
    obtain ⟨attempt, attemptStored, same⟩ := dispatched.known task stored
    obtain ⟨later, laterEq, id, -⟩ := updated attempt
    exact ⟨later, attempts ▸ mem_updateRows.mpr ⟨attempt, attemptStored, laterEq.symm⟩,
      id.trans same⟩
  · intro attempt stored isSystem
    rw [attempts] at stored
    obtain ⟨old, oldStored, oldEq⟩ := mem_updateRows.mp stored
    obtain ⟨later, laterEq, id, step, origin, number, time⟩ := updated old
    obtain rfl : later = attempt := laterEq.trans oldEq
    obtain ⟨task, only, dispatches⟩ := dispatched.system old oldStored (origin.symm.trans isSystem)
    have kept := dispatches.mono revised.namesKept
    refine ⟨task, ?_, { kept with
      ofAttempt := kept.ofAttempt.trans id.symm
      ofStep := kept.ofStep.trans step.symm
      scheduled := time ▸ kept.scheduled
      retried := number ▸ time ▸ kept.retried }⟩
    rw [id, tasksOf, tasks]
    exact only
  · intro attempt stored notSystem
    rw [attempts] at stored
    obtain ⟨old, oldStored, oldEq⟩ := mem_updateRows.mp stored
    obtain ⟨later, laterEq, id, -, origin, -⟩ := updated old
    obtain rfl : later = attempt := laterEq.trans oldEq
    rw [id, tasksOf, tasks]
    exact dispatched.others old oldStored (origin ▸ notSystem)

/-- A row that was relayed dispatches its attempt as before. -/
theorem Dispatches.relayed {task later : TasksOutboxModel} {attempt : StepAttemptModel}
    (dispatches : Dispatches registry first task attempt) (same : later.SameEntry task) :
    Dispatches registry first later attempt where
  ofAttempt := same.task.stepAttemptId.trans dispatches.ofAttempt
  ofStep := same.task.stepId.trans dispatches.ofStep
  addressed := dispatches.addressed.of_same same.task
  described := by
    rw [same.task.stepId, same.task.workflowRunId, same.task.payload]
    exact dispatches.described
  documents := by
    rw [same.task.payload, same.task.workflowRunId]
    exact dispatches.documents
  scheduled time scheduled := same.scheduledFor.trans (dispatches.scheduled time scheduled)
  retried more := same.scheduledFor ▸ dispatches.retried more

/-- The writes of a relay batch dispatch nothing. -/
theorem Dispatched.applyWrites {db : Database} (dispatched : Dispatched registry db.contents)
    (writes : List OutboxWrite) : Dispatched registry (db.applyWrites writes).contents := by
  have tasks (id : UUID) : tasksOf (db.applyWrites writes).contents id =
      (tasksOf db.contents id).map fun row => OutboxWrite.changes row writes := by
    unfold tasksOf
    rw [Database.applyWrites_tasksOutbox, List.filter_map]
    congr 1
    refine List.filter_congr fun row _ => ?_
    simp only [Function.comp, (OutboxWrite.changes_sameEntry row writes).task.stepAttemptId]
  have contents := db.applyWrites_contents writes
  have names : NamesKept db.contents (db.applyWrites writes).contents := by
    rw [contents]
    exact ⟨fun step stored => ⟨step, stored, rfl, rfl, rfl⟩,
      fun run stored => ⟨run, stored, rfl, rfl, rfl⟩, fun _ _ _ _ => Iff.rfl⟩
  refine ⟨?_, ?_, ?_, ?_, ?_⟩
  · rw [contents]
    exact dispatched.defined
  · rw [contents]
    exact dispatched.attached
  · intro task stored
    obtain ⟨old, oldStored, rfl⟩ := Database.mem_applyWrites.mp stored
    obtain ⟨attempt, attemptStored, same⟩ := dispatched.known old oldStored
    rw [(OutboxWrite.changes_sameEntry old writes).task.stepAttemptId, contents]
    exact ⟨attempt, attemptStored, same⟩
  · intro attempt stored isSystem
    rw [contents] at stored
    obtain ⟨task, only, dispatches⟩ := dispatched.system attempt stored isSystem
    refine ⟨OutboxWrite.changes task writes, ?_,
      (dispatches.relayed (OutboxWrite.changes_sameEntry task writes)).mono names⟩
    rw [tasks, only]
    rfl
  · intro attempt stored notSystem
    rw [contents] at stored
    rw [tasks, dispatched.others attempt stored notSystem]
    rfl

/-- Processing a task dispatches nothing. -/
theorem processTask_dispatched {loads : String → Option Json}
    {handle : String → StepContext → HandlerReturn} {db flushed : Database} {draws : Draws}
    {workerId : String} {payload : JsonObject} (dispatched : Dispatched registry db.contents)
    (processed : processTask loads handle db draws workerId payload = .ok (.written flushed)) :
    Dispatched registry flushed.contents := by
  obtain ⟨rows, outcome, -, -, -, written⟩ := processTask_steps processed
  obtain ⟨change, changes, contents⟩ := writeOutcome_contents written
  have begun : Dispatched registry (db.updateStepAttempt rows.attempt.stepAttemptId
      (StepAttemptModel.begin (draws.now 0))).contents :=
    dispatched.report ⟨unrevised_steps _, unrevised_runs _, rfl⟩ rfl rfl
      fun _ => ⟨rfl, rfl, rfl, rfl, rfl⟩
  rw [contents]
  refine begun.report ⟨⟨_, _, rfl, fun row => ?_⟩, unrevised_runs _, rfl⟩ rfl rfl fun row => ?_
  · cases outcome <;> exact ⟨rfl, rfl, rfl⟩
  · cases outcome with
    | success output =>
      cases output with
      | none => cases changes; exact ⟨rfl, rfl, rfl, rfl, rfl⟩
      | some _ => cases changes
    | failRetryable errorCode errorDetail => cases changes; exact ⟨rfl, rfl, rfl, rfl, rfl⟩
    | failTerminal errorCode errorDetail => cases changes; exact ⟨rfl, rfl, rfl, rfl, rfl⟩

variable (dispatched : Dispatched registry first)
include dispatched

/-- A stored row is the one of its attempt, and names it. -/
theorem Dispatched.only_task {task : TasksOutboxModel} (stored : task ∈ first.tasksOutbox) :
    tasksOf first task.stepAttemptId = [task] ∧ task.Addressed := by
  obtain ⟨attempt, attemptStored, same⟩ := dispatched.known task stored
  have member : task ∈ tasksOf first attempt.stepAttemptId :=
    List.mem_filter.mpr ⟨stored, decide_eq_true same.symm⟩
  rw [← same]
  by_cases isSystem : attempt.origin = .system
  · obtain ⟨only, found, dispatches⟩ := dispatched.system attempt attemptStored isSystem
    rw [found] at member
    rw [List.mem_singleton.mp member]
    exact ⟨found, dispatches.addressed⟩
  · rw [dispatched.others attempt attemptStored isSystem] at member
    exact absurd member List.not_mem_nil

/-- Two rows with a common copy are one. -/
theorem Dispatched.row_unique {task other : TasksOutboxModel} (stored : task ∈ first.tasksOutbox)
    (otherStored : other ∈ first.tasksOutbox) {stamp otherStamp : String}
    (copies : task.copy stamp = other.copy otherStamp) : task = other := by
  obtain ⟨only, addressed⟩ := dispatched.only_task stored
  obtain ⟨otherOnly, otherAddressed⟩ := dispatched.only_task otherStored
  have named := addressed.copy_attempt stamp
  rw [copies, otherAddressed.copy_attempt, Option.some.injEq, Json.ofId, Json.ofId,
    Json.string.injEq] at named
  have same := UUID.str_injective named
  rw [same, only] at otherOnly
  exact (List.cons.inj otherOnly).1

end Dispatching

/-! ### Due tasks -/

/-- A task is a copy of a stored row whose time, as a score, is no later than this. -/
def Database.Due (db : Database) (task : JsonObject) (score : ℚ) : Prop :=
  ∃ row ∈ db.contents.tasksOutbox, (∃ stamp, task = row.copy stamp) ∧
    TaskQueue.epochMs row.scheduledFor ≤ score

/-- Every row is still stored, with the same payload and time. -/
def Database.RowsKept (before after : Database) : Prop :=
  ∀ row ∈ before.contents.tasksOutbox, ∃ later ∈ after.contents.tasksOutbox, row.SameEntry later

theorem Database.RowsKept.refl (db : Database) : db.RowsKept db :=
  fun row stored => ⟨row, stored, .refl row⟩

theorem Database.RowsKept.trans {before between after : Database}
    (first : before.RowsKept between) (second : between.RowsKept after) :
    before.RowsKept after := by
  intro row stored
  obtain ⟨middle, middleStored, same⟩ := first row stored
  obtain ⟨later, laterStored, sameLater⟩ := second middle middleStored
  exact ⟨later, laterStored, same.trans sameLater⟩

theorem Database.Due.mono {before after : Database} {task : JsonObject} {score later : ℚ}
    (due : before.Due task score) (kept : before.RowsKept after) (passed : score ≤ later) :
    after.Due task later := by
  obtain ⟨row, stored, ⟨stamp, rfl⟩, early⟩ := due
  obtain ⟨kept, keptStored, same⟩ := kept row stored
  refine ⟨kept, keptStored, ⟨stamp, same.task.copy stamp⟩, ?_⟩
  rw [← same.scheduledFor]
  exact early.trans passed

theorem TaskQueue.epochMs_le_iff {first second : Timestamp} :
    TaskQueue.epochMs first ≤ TaskQueue.epochMs second ↔ first ≤ second :=
  mul_le_mul_iff_of_pos_right (by norm_num)

/-! ### The state of the services at a time -/

/-- The clock reading a batch or a pass takes with an event. -/
def ServiceEvent.reading : ServiceEvent → Option Timestamp
  | .relay _ (.acquire _ now) | .transfer _ (.popMin now) => some now
  | _ => none

/-- The task a worker works on. -/
def WorkerPhase.task : WorkerPhase → Option JsonObject
  | .idle => none
  | .working task | .burying task | .acking task => some task

/-- A task on its way between two keys is due, or has its score. -/
def Transfer.Timely (db : Database) (time : Timestamp) : Transfer → Prop
  | .idle => True
  | .moving _ task => db.Due task (TaskQueue.epochMs time)
  | .restoring task score => db.Due task score

theorem Transfer.Timely.mono {before after : Database} {time later : Timestamp}
    {transfer : Transfer}
    (timely : transfer.Timely before time) (kept : before.RowsKept after) (passed : time ≤ later) :
    transfer.Timely after later := by
  cases transfer with
  | idle => trivial
  | moving target task => exact Database.Due.mono timely kept (TaskQueue.epochMs_le_iff.mpr passed)
  | restoring task score => exact Database.Due.mono timely kept le_rfl

/-- Every task that is not delayed is due at the time, every delayed one at its score, and every
batch has read the clock before. -/
structure Timely (services : Services) (time : Timestamp) : Prop where
  queue : services.queue.Admits (services.db.Due · (TaskQueue.epochMs time)) services.db.Due
  batches : ∀ process batch, (services.relays process).batch = some batch → batch.now ≤ time
  workers : ∀ workerId task, (services.workers workerId).task = some task →
    services.db.Due task (TaskQueue.epochMs time)
  transfers : ∀ index, (services.transfers index).Timely services.db time

namespace Timely

variable {services next : Services} {time later : Timestamp}

theorem resting (db : Database) (time : Timestamp) : Timely (.resting db .empty) time where
  queue := .empty
  batches _ _ found := by cases found
  workers _ _ found := by cases found
  transfers _ := trivial

/-- Time passes, and transactions commit. -/
theorem mono (timely : Timely services time) (kept : services.db.RowsKept next.db)
    (passed : time ≤ later) (queue : next.queue = services.queue)
    (relays : ∀ process batch, (next.relays process).batch = some batch → batch.now ≤ later)
    (workers : next.workers = services.workers) (transfers : next.transfers = services.transfers) :
    Timely next later where
  queue := by
    rw [queue]
    exact timely.queue.mono (fun _ due => due.mono kept (TaskQueue.epochMs_le_iff.mpr passed))
      fun _ _ due => due.mono kept le_rfl
  batches := relays
  workers workerId task found :=
    (timely.workers workerId task (workers ▸ found)).mono kept (TaskQueue.epochMs_le_iff.mpr passed)
  transfers index := by
    rw [transfers]
    exact Transfer.Timely.mono (timely.transfers index) kept passed

theorem at_later (timely : Timely services time) (passed : time ≤ later) : Timely services later :=
  timely.mono (.refl _) passed rfl
    (fun process batch found => (timely.batches process batch found).trans passed) rfl rfl

end Timely

/-! ### Steps of the relay -/

section Relays

variable {services next : Services} {process : Nat} {action : RelayAction} {time : Timestamp}

theorem RelayEffect.rowsKept (effect : RelayEffect services process action next) :
    services.db.RowsKept next.db :=
  effect.remembers.entries

theorem RelayEffect.dispatched {registry : WorkflowRegistry}
    (effect : RelayEffect services process action next)
    (dispatched : Dispatched registry services.db.contents) :
    Dispatched registry next.db.contents := by
  cases effect with
  | commits | finishes => exact dispatched.applyWrites _
  | _ => exact dispatched

/-- A batch has the reading it took with the lock. -/
theorem RelayEffect.now_eq (effect : RelayEffect services process action next) {batch : RelayBatch}
    (found : (next.relays process).batch = some batch) :
    (∃ old, (services.relays process).batch = some old ∧ batch.now = old.now) ∨
      (ServiceEvent.relay process action).reading = some batch.now := by
  have proceeded {phase : RelayPhase} {old after : RelayBatch}
      (before : (services.relays process).batch = some old)
      (relays : (Function.update services.relays process phase process).batch = some batch)
      (carries : phase.batch = some after) (same : after.now = old.now) :
      ∃ old, (services.relays process).batch = some old ∧ batch.now = old.now := by
    rw [Function.update_self, carries, Option.some.injEq] at relays
    exact ⟨old, before, relays ▸ same⟩
  cases effect with
  | stays => exact .inl ⟨batch, found, rfl⟩
  | acquires =>
    rw [Services.relays_proceed] at found
    cases found
    exact .inr rfl
  | reads phase | pushes _ phase | marks phase | counts phase | commits phase | releases phase
  | releasesOwn phase =>
    exact .inl (proceeded (congrArg RelayPhase.batch phase) found rfl rfl)
  | fails _ phase =>
    rcases phase with phase | phase
    all_goals exact .inl (proceeded (congrArg RelayPhase.batch phase) found rfl rfl)
  | leaves trying | aborts trying =>
    exact .inl (proceeded (RelayPhase.batch_of_trying trying) found rfl rfl)
  | closesLocked | finishes | closes | crashes =>
    have idle : RelayPhase.batch (Function.update services.relays process .idle process) =
        some batch := found
    rw [Function.update_self] at idle
    cases idle

theorem RelayEffect.batches (effect : RelayEffect services process action next)
    (timely : Timely services time)
    (read : ∀ now, (ServiceEvent.relay process action).reading = some now → now ≤ time) :
    ∀ other batch, (next.relays other).batch = some batch → batch.now ≤ time := by
  intro other batch found
  by_cases same : other = process
  · subst same
    rcases effect.now_eq found with ⟨old, before, now⟩ | reading
    · rw [now]
      exact timely.batches _ old before
    · exact read _ reading
  · rw [effect.relays_of_ne same] at found
    exact timely.batches other batch found

/-- A batch pushes a task that is due by its reading, and delays any other until its time. -/
theorem RelayEffect.timely (effect : RelayEffect services process action next)
    (sound : PhaseSound services (services.relays process)) (timely : Timely services time)
    (read : ∀ now, (ServiceEvent.relay process action).reading = some now → now ≤ time) :
    Timely next time := by
  have batches := effect.batches timely read
  have kept := effect.rowsKept
  cases effect with
  | @pushes batch entry rest _ stamp phase =>
    have now : batch.now ≤ time := timely.batches process batch (by rw [phase]; rfl)
    obtain ⟨row, stored, same⟩ := sound.entries entry (.inr (by
      rw [phase]
      exact List.mem_cons_self))
    have due {score : ℚ} (passed : TaskQueue.epochMs entry.scheduledFor ≤ score) :
        services.db.Due (entry.copy stamp) score :=
      ⟨row, stored, ⟨stamp, same.task.copy stamp⟩, same.scheduledFor ▸ passed⟩
    refine ⟨?_, batches, timely.workers, timely.transfers⟩
    show ((entry.push stamp batch.now).perform services.queue).Admits _ _
    unfold TasksOutboxModel.push
    split
    · rename_i early
      exact timely.queue.lpush .ready
        (due (TaskQueue.epochMs_le_iff.mpr (early.trans now)))
    · exact timely.queue.zadd .delayed (due le_rfl)
  | _ => exact timely.mono kept le_rfl rfl batches rfl rfl

end Relays

/-! ### Steps of the other services -/

section Others

variable {services next : Services} {time : Timestamp}

/-- A worker goes on. -/
theorem Timely.work (timely : Timely services time) {workerId : String} {phase : WorkerPhase}
    (kept : services.db.RowsKept next.db)
    (queue : next.queue.Admits (next.db.Due · (TaskQueue.epochMs time)) next.db.Due)
    (relays : next.relays = services.relays)
    (workers : next.workers = Function.update services.workers workerId phase)
    (transfers : next.transfers = services.transfers)
    (due : ∀ task, phase.task = some task → next.db.Due task (TaskQueue.epochMs time)) :
    Timely next time where
  queue := queue
  batches := relays ▸ timely.batches
  workers other task found := by
    rw [workers] at found
    by_cases same : other = workerId
    · rw [same, Function.update_self] at found
      exact due task found
    · rw [Function.update_of_ne same] at found
      exact (timely.workers other task found).mono kept le_rfl
  transfers index := by
    rw [transfers]
    exact Transfer.Timely.mono (timely.transfers index) kept le_rfl

/-- A task is taken out of the queue, or pushed. -/
theorem Timely.transfer (timely : Timely services time) {index : Nat} {transfer : Transfer}
    (db : next.db = services.db)
    (queue : next.queue.Admits (services.db.Due · (TaskQueue.epochMs time)) services.db.Due)
    (relays : next.relays = services.relays) (workers : next.workers = services.workers)
    (transfers : next.transfers = Function.update services.transfers index transfer)
    (due : transfer.Timely services.db time) : Timely next time where
  queue := db ▸ queue
  batches := relays ▸ timely.batches
  workers := db ▸ workers ▸ timely.workers
  transfers other := by
    rw [transfers, db]
    by_cases same : other = index
    · rw [same, Function.update_self]
      exact due
    · rw [Function.update_of_ne same]
      exact timely.transfers other

theorem Services.workerStep_timely (loads : String → Option Json) (workerId : String)
    (action : WorkerAction) (timely : Timely services time) :
    Timely (services.workerStep loads workerId action) time := by
  have due := timely.workers workerId
  have idle (next : Services) : ∀ task, WorkerPhase.idle.task = some task →
      next.db.Due task (TaskQueue.epochMs time) := nofun
  unfold Services.workerStep
  split
  · split
    · exact timely
    · rename_i payload claimed taken
      obtain ⟨taskDue, admits⟩ := timely.queue.rpoplpush taken
      refine timely.work (.refl _) admits rfl rfl rfl fun task found => ?_
      cases found
      exact taskDue
  · rename_i payload returned draws working
    rw [working] at due
    split
    · exact timely.work (.refl _) timely.queue rfl rfl rfl (idle _)
    · exact timely.work (.refl _) timely.queue rfl rfl rfl due
    · exact timely.work (.refl _) timely.queue rfl rfl rfl due
    · rename_i flushed processed
      have kept : services.db.RowsKept flushed := fun row stored =>
        ⟨row, (processTask_schedules processed).kept row stored, .refl row⟩
      exact timely.work kept (timely.queue.mono (fun _ due => due.mono kept le_rfl)
        fun _ _ due => due.mono kept le_rfl) rfl rfl rfl fun task found =>
          (due task found).mono kept le_rfl
  · rename_i payload burying
    rw [burying] at due
    exact timely.work (.refl _) (timely.queue.lpush .dlq (due payload rfl)) rfl rfl rfl due
  · exact timely.work (.refl _) (timely.queue.lrem _ _) rfl rfl rfl (idle _)
  · exact timely.work (.refl _) timely.queue rfl rfl rfl (idle _)
  · exact timely

/-- A scheduler pass promotes a task whose score is due by its reading. -/
theorem Services.transferStep_timely (index : Nat) (action : TransferAction)
    (timely : Timely services time)
    (read : ∀ now, (ServiceEvent.transfer index action).reading = some now → now ≤ time)
    (reaps : ∀ workerId target task, action = .reap workerId target task →
      services.db.Due task (TaskQueue.epochMs time)) :
    Timely (services.transferStep index action) time := by
  have due := timely.transfers index
  unfold Services.transferStep
  split
  · exact timely.transfer rfl (timely.queue.lrem _ _) rfl rfl rfl (reaps _ _ _ rfl)
  · split
    · exact timely
    · rename_i task score popped least
      obtain ⟨ranked, admits⟩ := timely.queue.zpopmin least
      refine timely.transfer rfl admits rfl rfl rfl ?_
      split
      · exact ranked
      · rename_i reached
        exact Database.Due.mono ranked (.refl _) ((not_lt.mp reached).trans
          (TaskQueue.epochMs_le_iff.mpr (read _ rfl)))
  · split
    · rename_i held
      exact timely.transfer rfl (timely.queue.lrem _ _) rfl rfl rfl
        (timely.queue.lists .dlq _ held)
    · exact timely
  · rename_i target task moving
    rw [moving] at due
    exact timely.transfer rfl (timely.queue.lpush _ due) rfl rfl rfl trivial
  · rename_i task score restoring
    rw [restoring] at due
    exact timely.transfer rfl (timely.queue.zadd _ due) rfl rfl rfl trivial
  · exact timely

end Others

section Steps

variable {registry : WorkflowRegistry} {loads : String → Option Json} {services : Services}
  {event : ServiceEvent}

/-- No step deletes a row or changes its payload or its time. -/
theorem Services.step_rowsKept (registry : WorkflowRegistry) (loads : String → Option Json)
    (services : Services) (event : ServiceEvent) :
    services.db.RowsKept (services.step registry loads event).db := by
  by_cases relayed : ∃ process action, event = .relay process action
  · obtain ⟨process, action, rfl⟩ := relayed
    exact (services.relayStep_effect process action).rowsKept
  · have schedules := services.step_schedules registry loads event
      fun process action same => relayed ⟨process, action, same⟩
    exact fun row stored => ⟨row, schedules.kept row stored, .refl row⟩

/-- A row stays the one of its attempt. -/
theorem Services.step_dispatched (registry : WorkflowRegistry) (loads : String → Option Json)
    (services : Services) (event : ServiceEvent)
    (dispatched : Dispatched registry services.db.contents) :
    Dispatched registry (services.step registry loads event).db.contents := by
  cases event with
  | relay process action =>
    exact (services.relayStep_effect process action).dispatched dispatched
  | worker workerId action =>
    show Dispatched registry (services.workerStep loads workerId action).db.contents
    unfold Services.workerStep
    split
    · split <;> exact dispatched
    · split
      · exact dispatched
      · exact dispatched
      · exact dispatched
      · rename_i processed
        exact processTask_dispatched dispatched processed
    all_goals exact dispatched
  | transfer index action =>
    show Dispatched registry (services.transferStep index action).db.contents
    unfold Services.transferStep
    split
    · exact dispatched
    · split <;> exact dispatched
    · split <;> exact dispatched
    all_goals exact dispatched
  | dropFromDlq task => exact dispatched
  | operation made draws => exact Operation.step_dispatched registry services.db _ dispatched
  | flush => exact dispatched

/-- The reaper moves only a task that was due. -/
theorem Timely.step {time : Timestamp} (timely : Timely services time)
    (sound : PushedFirst services) (read : ∀ now, event.reading = some now → now ≤ time)
    (reaps : ∀ index workerId target task, event = .transfer index (.reap workerId target task) →
      services.db.Due task (TaskQueue.epochMs time)) :
    Timely (services.step registry loads event) time := by
  cases event with
  | relay process action =>
    exact (services.relayStep_effect process action).timely (sound.phases process) timely read
  | worker workerId action => exact services.workerStep_timely loads workerId action timely
  | transfer index action =>
    refine services.transferStep_timely index action timely read fun workerId target task same => ?_
    exact reaps index workerId target task (congrArg _ same)
  | dropFromDlq task =>
    exact ⟨timely.queue.lrem .dlq task, timely.batches, timely.workers, timely.transfers⟩
  | operation made draws =>
    exact timely.mono (services.step_rowsKept registry loads (.operation made draws)) le_rfl rfl
      timely.batches rfl rfl
  | flush => exact ⟨.empty, timely.batches, timely.workers, timely.transfers⟩

end Steps

/-! ### Runs on a clock -/

section Runs

variable (registry : WorkflowRegistry) (loads : String → Option Json) (documents : List UUID)

/-- The services after some events, each with the time it happens at. -/
def servicesAfter (events : List (Timestamp × ServiceEvent)) : Services :=
  Transition.run (Services.step registry loads) (.resting (.empty documents) .empty)
    (events.map Prod.snd)

/-- The events happen in the order of one clock, and a batch or a pass goes by a reading it has
taken of this clock. -/
structure Clocked (events : List (Timestamp × ServiceEvent)) : Prop where
  ordered : events.Pairwise fun first second => first.1 ≤ second.1
  read : ∀ occurred ∈ events, ∀ now, occurred.2.reading = some now → now ≤ occurred.1

/-- Every task the reaper moves was in the inflight list when the reaper read it. -/
def ReapsFound (events : List (Timestamp × ServiceEvent)) : Prop :=
  ∀ count time index workerId target task,
    events[count]? = some (time, .transfer index (.reap workerId target task)) →
    ∃ before ≤ count,
      task ∈ (servicesAfter registry loads documents (events.take before)).queue.lists
        (.inflight workerId)

variable {registry loads documents} {events : List (Timestamp × ServiceEvent)}

theorem servicesAfter_append (first second : List (Timestamp × ServiceEvent)) :
    servicesAfter registry loads documents (first ++ second) =
      Transition.run (Services.step registry loads) (servicesAfter registry loads documents first)
        (second.map Prod.snd) := by
  rw [servicesAfter, List.map_append, Transition.run_append]
  rfl

theorem servicesAfter_take_succ {count : Nat} {time : Timestamp} {event : ServiceEvent}
    (occurs : events[count]? = some (time, event)) :
    servicesAfter registry loads documents (events.take (count + 1)) =
      (servicesAfter registry loads documents (events.take count)).step registry loads event := by
  rw [List.take_add_one, occurs, servicesAfter_append]
  rfl

/-- What happened before an event was not later. -/
theorem Clocked.past (clocked : Clocked events) {count : Nat} {time : Timestamp}
    {event : ServiceEvent} (occurs : events[count]? = some (time, event)) :
    ∀ occurred ∈ events.take count, occurred.1 ≤ time := by
  have ordered := clocked.ordered.sublist (List.take_sublist (count + 1) events)
  rw [List.take_add_one, occurs] at ordered
  exact fun occurred member => (List.pairwise_append.mp ordered).2.2 occurred member _
    List.mem_cons_self

theorem run_rowsKept (services : Services) (labels : List ServiceEvent) :
    services.db.RowsKept (Transition.run (Services.step registry loads) services labels).db := by
  induction labels generalizing services with
  | nil => exact .refl _
  | cons event rest inductionHypothesis =>
    exact (services.step_rowsKept registry loads event).trans (inductionHypothesis _)

/-- A longer run keeps the rows of a shorter one. -/
theorem servicesAfter_rowsKept (events : List (Timestamp × ServiceEvent)) {before count : Nat}
    (earlier : before ≤ count) :
    (servicesAfter registry loads documents (events.take before)).db.RowsKept
      (servicesAfter registry loads documents (events.take count)).db := by
  have split : events.take count = events.take before ++ (events.take count).drop before := by
    conv_lhs => rw [← List.take_append_drop before (events.take count)]
    rw [List.take_take, min_eq_left earlier]
  rw [split, servicesAfter_append]
  exact run_rowsKept _ _

theorem servicesAfter_pushedFirst (events : List (Timestamp × ServiceEvent)) :
    PushedFirst (servicesAfter registry loads documents events) :=
  (Transition.run_invariant_always (Services.step registry loads) RelayHistory
    (step_relayHistory registry loads) (.resting (.empty documents) .empty)
    (relayHistory_resting .empty fun _ stored => absurd stored List.not_mem_nil) _).pushed

theorem servicesAfter_dispatched (events : List (Timestamp × ServiceEvent)) :
    Dispatched registry (servicesAfter registry loads documents events).db.contents :=
  Transition.run_invariant_always (Services.step registry loads)
    (fun services => Dispatched registry services.db.contents)
    (fun services event => services.step_dispatched registry loads event)
    (.resting (.empty documents) .empty) (dispatched_empty documents) _

/-- After every event the services are timely at the time of the event. -/
theorem servicesAfter_timely (clocked : Clocked events)
    (reaps : ReapsFound registry loads documents events) (count : Nat) (time : Timestamp)
    (past : ∀ occurred ∈ events.take count, occurred.1 ≤ time) :
    Timely (servicesAfter registry loads documents (events.take count)) time := by
  induction count using Nat.strong_induction_on generalizing time with
  | _ count inductionHypothesis =>
    cases count with
    | zero => exact .resting _ time
    | succ count =>
      cases occurs : events[count]? with
      | none =>
        have short := List.getElem?_eq_none_iff.mp occurs
        rw [List.take_of_length_le (Nat.le_succ_of_le short), ← List.take_of_length_le short]
        refine inductionHypothesis count (Nat.lt_succ_self count) time fun occurred member => ?_
        exact past occurred (List.take_subset_take_left events (Nat.le_succ count) member)
      | some occurred =>
        obtain ⟨moment, event⟩ := occurred
        have before : Timely (servicesAfter registry loads documents (events.take count)) moment :=
          inductionHypothesis count (Nat.lt_succ_self count) moment (clocked.past occurs)
        have now : moment ≤ time := by
          refine past (moment, event) ?_
          rw [List.take_add_one, occurs]
          exact List.mem_append_right _ List.mem_cons_self
        rw [servicesAfter_take_succ occurs]
        refine (before.step (servicesAfter_pushedFirst _)
          (clocked.read _ (List.mem_of_getElem? occurs)) ?_).at_later now
        rintro index workerId target task rfl
        -- The reaper read the inflight list when less had happened.
        obtain ⟨read, earlier, found⟩ := reaps count moment index workerId target task occurs
        have seen := inductionHypothesis read (Nat.lt_succ_of_le earlier) moment
          fun occurred member => clocked.past occurs occurred
            (List.take_subset_take_left events earlier member)
        exact (seen.queue.lists _ task found).mono (servicesAfter_rowsKept events earlier) le_rfl

/-- No task becomes ready before it is due: in every run of the services on one clock that never
goes back, at whatever event a copy of a row of the outbox is in the ready list, the row's time has
come. A copy is promoted by an earlier reading of the clock, and no two rows have the same copy. -/
theorem ready_not_before_due (registry : WorkflowRegistry) (loads : String → Option Json)
    (documents : List UUID) (events : List (Timestamp × ServiceEvent)) (clocked : Clocked events)
    (reaps : ReapsFound registry loads documents events) :
    ∀ row ∈ (servicesAfter registry loads documents events).db.contents.tasksOutbox,
      ∀ stamp count time event, events[count]? = some (time, event) →
        row.copy stamp ∈
          (servicesAfter registry loads documents (events.take (count + 1))).queue.lists .ready →
        row.scheduledFor ≤ time := by
  intro row stored stamp count time event occurs ready
  have past : ∀ occurred ∈ events.take (count + 1), occurred.1 ≤ time := by
    rw [List.take_add_one, occurs]
    intro occurred member
    rcases List.mem_append.mp member with earlier | this
    · exact clocked.past occurs occurred earlier
    · rw [List.mem_singleton.mp this]
  have timely := servicesAfter_timely clocked reaps (count + 1) time past
  obtain ⟨source, sourceStored, ⟨sourceStamp, copies⟩, due⟩ := timely.queue.lists .ready _ ready
  have kept : (servicesAfter registry loads documents (events.take (count + 1))).db.RowsKept
      (servicesAfter registry loads documents events).db := by
    obtain ⟨inside, -⟩ := List.getElem?_eq_some_iff.mp occurs
    have split : servicesAfter registry loads documents events =
        servicesAfter registry loads documents (events.take events.length) := by
      rw [List.take_length]
    rw [split]
    exact servicesAfter_rowsKept events (Nat.succ_le_of_lt inside)
  obtain ⟨later, laterStored, same⟩ := kept source sourceStored
  have one : row = later := (servicesAfter_dispatched events).row_unique stored laterStored
    (copies.trans (same.task.copy sourceStamp))
  rw [one, ← same.scheduledFor]
  exact TaskQueue.epochMs_le_iff.mp due

end Runs

/-- The relay delays a task, a pass pops it and puts it back, and a later pass promotes it. -/
def delayedAndPromoted : List (Timestamp × ServiceEvent) := [
  (5, started 1), (5, .relay 0 (.acquire 0 5)), (5, .relay 0 (.perform "5.0" 0)),
  (6, .relay 0 (.perform "6.0" 0)), (7, .transfer 0 (.popMin 6)), (7, .transfer 0 .push),
  (12, .transfer 0 (.popMin 12)), (13, .transfer 0 .push)]

theorem ready_not_before_due_promoted :
    (servicesAfter [claimIntakeV1] (fun _ => none) [] delayedAndPromoted).queue.lists .ready ≠ [] ∧
      ∀ row ∈ (servicesAfter [claimIntakeV1] (fun _ => none) []
        delayedAndPromoted).db.contents.tasksOutbox, ∀ stamp,
        row.copy stamp ∈ (servicesAfter [claimIntakeV1] (fun _ => none) []
          delayedAndPromoted).queue.lists .ready → row.scheduledFor ≤ 13 := by
  refine ⟨by decide +kernel, fun row stored stamp ready => ?_⟩
  refine ready_not_before_due [claimIntakeV1] (fun _ => none) [] delayedAndPromoted ⟨?_, ?_⟩ ?_ row
    stored stamp 7 13 (.transfer 0 .push) rfl ready
  · decide +kernel
  · intro occurred member now reading
    simp only [delayedAndPromoted, List.mem_cons, List.not_mem_nil, or_false] at member
    rcases member with rfl | rfl | rfl | rfl | rfl | rfl | rfl | rfl <;> cases reading <;> norm_num
  · intro count time index workerId target task occurs
    have member := List.mem_of_getElem? occurs
    simp [delayedAndPromoted, started] at member

end InsuranceOps
