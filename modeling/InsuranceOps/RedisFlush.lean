/-
This file asks what an emptied queue server costs. The relay reads pending rows
only, and a row is marked for good once its task was pushed: a task that is lost
afterwards is pushed by nobody. A task survives a flush as long as its row is
still pending; then the batches that follow hand it over again.
-/

import InsuranceOps.RelayedPushes

namespace InsuranceOps

open ListStore Relational

/-! ### What is asked -/

/-- The ready list, the delayed set and the inflight lists. -/
def waits : Place QueueKey → Bool
  | .list .ready | .list (.inflight _) | .sorted .delayed => true
  | _ => false

/-- The payload is in the ready list, the delayed set or an inflight list. -/
def TaskQueue.HoldsWaiting (queue : TaskQueue) (payload : JsonObject) : Prop :=
  ∃ place, waits place = true ∧ 0 < queue.occurs payload place

/-- The payload names the attempt. -/
def namesAttempt (payload : JsonObject) (stepAttemptId : UUID) : Prop :=
  payload.get? "step_attempt_id" = some (.ofId stepAttemptId)

namespace Services

variable (services : Services)

/-- The attempt is queued, and its task was not moved to the dead letters. -/
def Awaits (attempt : StepAttemptModel) : Prop :=
  attempt.state = .queued ∧
    ∀ payload ∈ services.buried, ¬namesAttempt payload attempt.stepAttemptId

/-- The attempt belongs to a running run. -/
def InRunningRun (attempt : StepAttemptModel) : Prop :=
  ∃ step ∈ services.db.contents.steps, step.stepId = attempt.stepId ∧
    ∃ run ∈ services.db.contents.workflowRuns, run.workflowRunId = step.workflowRunId ∧
      run.state = .running

/-- When no pending row is left, and no task is just between two keys, every attempt that awaits its
task in a running run has a copy of it in the ready list, the delayed set or an inflight list. -/
def Recovered : Prop :=
  (∀ row ∈ services.db.contents.tasksOutbox, row.enqueuedAt ≠ none) →
    (∀ index, services.transfers index = .idle) →
      ∀ attempt ∈ services.db.contents.stepAttempts, services.Awaits attempt →
        services.InRunningRun attempt →
          ∃ task ∈ services.db.contents.tasksOutbox,
            task.stepAttemptId = attempt.stepAttemptId ∧
              ∃ claimedAt, services.queue.HoldsWaiting (task.copy claimedAt)

/-- No attempt that awaits its task in a running run has this outbox row. -/
def Unawaited (task : TasksOutboxModel) : Prop :=
  ∀ attempt ∈ services.db.contents.stepAttempts,
    attempt.stepAttemptId = task.stepAttemptId → services.Awaits attempt →
      ¬services.InRunningRun attempt

/-- The row was pushed since the queue was last emptied. -/
def PushedSince (outboxId : Nat) : Prop :=
  ∃ push ∈ services.pushes.drop services.wiped, push.outboxId = outboxId

/-- The row is marked, and what was pushed of it is lost. -/
def Lost (task : TasksOutboxModel) : Prop :=
  task.enqueuedAt ≠ none ∧ ¬services.PushedSince task.outboxId

/-- The batch marks no row of an awaited task that is lost since it pushed it. -/
def MarksKept (batch : RelayBatch) : Prop :=
  ∀ write ∈ batch.writes,
    match write with
    | .count _ _ => True
    | .mark outboxId _ => ¬services.PushedSince outboxId →
      ∀ task ∈ services.db.contents.tasksOutbox, task.outboxId = outboxId →
        services.Unawaited task

end Services

/-- The batch of a relay process whose next statement is a commit. -/
def RelayPhase.committing : RelayPhase → Option RelayBatch
  | .relaying batch [] | .unlocked batch => some batch
  | .idle | .locked _ | .relaying _ (_ :: _) | .pushed _ _ _ | .failed _ _ _ _ | .committed _
  | .leaving _ | .aborted _ => none

/-- The queue is emptied only while the rows of all awaited tasks are pending, a batch commits the
mark of no awaited task that was lost between its push and the commit, and no run goes on again with
an attempt whose task was lost while the run did not run. -/
def KeepsTasks (registry : WorkflowRegistry) (services : Services) : ServiceEvent → Prop
  | .flush => ∀ task ∈ services.db.contents.tasksOutbox, task.enqueuedAt ≠ none →
      services.Unawaited task
  | .relay process (.perform _ _) =>
    ∀ batch ∈ (services.relays process).committing, services.MarksKept batch
  | .operation made draws => ∀ task ∈ services.db.contents.tasksOutbox, services.Lost task →
      services.Unawaited task →
        { services with db := Operation.step registry services.db (made, draws) }.Unawaited task
  | _ => True

section Decisions

variable (services : Services)

instance (payload : JsonObject) (stepAttemptId : UUID) :
    Decidable (namesAttempt payload stepAttemptId) := inferInstanceAs (Decidable (_ = _))

instance (attempt : StepAttemptModel) : Decidable (services.Awaits attempt) :=
  inferInstanceAs (Decidable (_ ∧ ∀ payload ∈ _, _))

instance (attempt : StepAttemptModel) : Decidable (services.InRunningRun attempt) :=
  inferInstanceAs (Decidable (∃ step ∈ _, _ ∧ ∃ run ∈ _, _))

instance (task : TasksOutboxModel) : Decidable (services.Unawaited task) :=
  inferInstanceAs (Decidable (∀ attempt ∈ _, _))

instance (outboxId : Nat) : Decidable (services.PushedSince outboxId) :=
  inferInstanceAs (Decidable (∃ push ∈ _, _))

instance (task : TasksOutboxModel) : Decidable (services.Lost task) :=
  inferInstanceAs (Decidable (_ ∧ _))

instance (batch : RelayBatch) : Decidable (services.MarksKept batch) :=
  have (write : OutboxWrite) : Decidable (match write with
      | .count _ _ => True
      | .mark outboxId _ => ¬services.PushedSince outboxId →
        ∀ task ∈ services.db.contents.tasksOutbox, task.outboxId = outboxId →
          services.Unawaited task) :=
    match write with
    | .count _ _ => .isTrue trivial
    | .mark _ _ => inferInstance
  inferInstanceAs (Decidable (∀ write ∈ batch.writes, _))

instance (registry : WorkflowRegistry) (event : ServiceEvent) :
    Decidable (KeepsTasks registry services event) :=
  match event with
  | .flush => inferInstanceAs (Decidable (∀ task ∈ _, _ → _))
  | .relay process (.perform _ _) => inferInstanceAs
      (Decidable (∀ batch ∈ (services.relays process).committing, services.MarksKept batch))
  | .operation _ _ => inferInstanceAs (Decidable (∀ task ∈ _, _ → _ → _))
  | .relay _ (.acquire _ _) | .relay _ (.raise _) | .relay _ .refuse | .relay _ .crash
  | .worker _ _ | .transfer _ _ | .dropFromDlq _ => .isTrue trivial

end Decisions

/-! ### Tasks on their way -/

/-- The task a process has taken out of the queue. -/
def Transfer.hand : Transfer → Option JsonObject
  | .idle => none
  | .moving _ payload | .restoring payload _ => some payload

/-- The payload waits in the queue or is just moved between two keys. -/
def Services.Holds (services : Services) (payload : JsonObject) : Prop :=
  services.queue.HoldsWaiting payload ∨
    ∃ index, (services.transfers index).hand = some payload

/-- The row of an awaited task: what was pushed of it since the queue was last emptied is on its
way. -/
structure TaskKept (services : Services) (attempt : StepAttemptModel) (task : TasksOutboxModel) :
    Prop where
  addressed : task.Addressed
  names : task.stepAttemptId = attempt.stepAttemptId
  held : services.PushedSince task.outboxId → ∃ claimedAt, services.Holds (task.copy claimedAt)

/-- The attempt of a task that is about to be acknowledged is not queued. -/
def Concluded (services : Services) (payload : JsonObject) : Prop :=
  payload ∈ services.buried ∨ ∃ attempt ∈ services.db.contents.stepAttempts,
    attempt.state ≠ .queued ∧ ∀ id, namesAttempt payload id → id = attempt.stepAttemptId

/-- Every task that may still be awaited is kept, and no task that is lost is awaited in a running
run; a worker acknowledges no awaited task; what is on its way to the dead letters counts as moved
there; and the relay pushes before it marks. -/
structure TasksKept (services : Services) : Prop where
  pushed : PushedFirst services
  acking : ∀ workerId payload, services.workers workerId = .acking payload →
    Concluded services payload
  moving : ∀ index payload, services.transfers index = .moving .dlq payload →
    payload ∈ services.buried
  kept : ∀ attempt ∈ services.db.contents.stepAttempts, services.Awaits attempt →
    ∃ task ∈ services.db.contents.tasksOutbox, TaskKept services attempt task
  lost : ∀ task ∈ services.db.contents.tasksOutbox, services.Lost task → services.Unawaited task

/-! ### Commands to the queue -/

namespace TaskQueue

variable {queue next : TaskQueue} {payload other : JsonObject}

theorem HoldsWaiting.of_occurs (held : queue.HoldsWaiting payload)
    (more : ∀ place, waits place = true → queue.occurs payload place ≤ next.occurs payload place) :
    next.HoldsWaiting payload := by
  obtain ⟨place, isWaiting, positive⟩ := held
  exact ⟨place, isWaiting, positive.trans_le (more place isWaiting)⟩

theorem HoldsWaiting.lpush (held : queue.HoldsWaiting payload) (key : QueueKey) :
    HoldsWaiting (queue.lpush key other) payload :=
  held.of_occurs fun place _ => by
    rw [Store.occurs_lpush]
    exact Nat.le_add_right _ _

theorem holdsWaiting_lpush (queue : TaskQueue) (payload : JsonObject) {key : QueueKey}
    (isWaiting : waits (.list key) = true) : HoldsWaiting (queue.lpush key payload) payload := by
  refine ⟨.list key, isWaiting, ?_⟩
  rw [Store.occurs_lpush, if_pos ⟨rfl, rfl⟩]
  exact Nat.succ_pos _

/-- A removal takes a task from a place it waits at only if it names the task. -/
theorem HoldsWaiting.lrem {key : QueueKey} (held : queue.HoldsWaiting payload)
    (spared : payload ≠ other ∨ waits (.list key) = false) :
    HoldsWaiting (queue.lrem key other) payload := by
  refine held.of_occurs fun place isWaiting => ?_
  have untouched : ¬(place = .list key ∧ other = payload) := by
    rintro ⟨rfl, same⟩
    rcases spared with different | elsewhere
    · exact different same.symm
    · rw [elsewhere] at isWaiting
      cases isWaiting
  rw [Store.occurs_lrem, if_neg untouched]
  exact le_refl _

theorem holdsWaiting_zadd (queue : TaskQueue) (payload : JsonObject) (score : ℚ) :
    HoldsWaiting (queue.zadd dueBefore .delayed payload score) payload := by
  refine ⟨.sorted .delayed, rfl, ?_⟩
  rw [Store.occurs_zadd, if_pos ⟨rfl, rfl⟩]
  exact Nat.one_pos

theorem HoldsWaiting.zadd (held : queue.HoldsWaiting payload) (score : ℚ) :
    HoldsWaiting (queue.zadd dueBefore .delayed other score) payload := by
  by_cases same : other = payload
  · rw [same]
    exact holdsWaiting_zadd queue payload score
  · refine held.of_occurs fun place _ => ?_
    rw [Store.occurs_zadd, if_neg fun both => same both.2]

theorem HoldsWaiting.zpopmin {score : ℚ} (held : queue.HoldsWaiting payload)
    (least : queue.zpopmin .delayed = some ((other, score), next)) :
    payload = other ∨ next.HoldsWaiting payload := by
  by_cases same : other = payload
  · exact .inl same.symm
  · refine .inr (held.of_occurs fun place _ => ?_)
    rw [Store.occurs_zpopmin least, if_neg fun both => same both.2]
    exact le_refl _

/-- A claim moves a task between two places it waits at. -/
theorem HoldsWaiting.claim {workerId : String} (held : queue.HoldsWaiting payload)
    (claimed : queue.claim workerId = some (other, next)) : next.HoldsWaiting payload := by
  by_cases same : other = payload
  · subst same
    refine ⟨.list (.inflight workerId), rfl, ?_⟩
    have moved := Store.occurs_rpoplpush claimed other (.list (.inflight workerId))
    rw [if_neg nofun, if_pos ⟨rfl, rfl⟩, Nat.add_zero] at moved
    exact moved ▸ Nat.succ_pos _
  · refine held.of_occurs fun place _ => ?_
    have moved := Store.occurs_rpoplpush claimed payload place
    rw [if_neg fun both => same both.2, if_neg fun both => same both.2] at moved
    exact moved.ge

end TaskQueue

namespace PushCommand

variable {queue : TaskQueue} {payload : JsonObject}

theorem holdsWaiting (held : queue.HoldsWaiting payload) (command : PushCommand) :
    TaskQueue.HoldsWaiting (command.perform queue) payload := by
  cases command with
  | enqueue other => exact held.lpush .ready
  | schedule other runAt => exact held.zadd _

end PushCommand

/-- A push puts a copy of the entry where it waits. -/
theorem TasksOutboxModel.holdsWaiting_push (entry : TasksOutboxModel) (queue : TaskQueue)
    (time : String) (now : Timestamp) :
    TaskQueue.HoldsWaiting ((entry.push time now).perform queue) (entry.copy time) := by
  unfold TasksOutboxModel.push
  split
  · exact TaskQueue.holdsWaiting_lpush queue _ rfl
  · exact TaskQueue.holdsWaiting_zadd queue _ _

/-! ### A step of a relay process -/

section Relays

variable {services next : Services} {process : Nat} {action : RelayAction}

/-- Outside the relay and the outbox everything is as it was. -/
structure OthersKept (services next : Services) : Prop where
  workers : next.workers = services.workers
  transfers : next.transfers = services.transfers
  buried : next.buried = services.buried
  wiped : next.wiped = services.wiped
  contents : next.db.contents =
    { services.db.contents with tasksOutbox := next.db.contents.tasksOutbox }

theorem RelayEffect.othersKept (effect : RelayEffect services process action next) :
    OthersKept services next := by
  cases effect with
  | commits => exact ⟨rfl, rfl, rfl, rfl, Database.applyWrites_contents _ _⟩
  | finishes => exact ⟨rfl, rfl, rfl, rfl, Database.applyWrites_contents _ _⟩
  | _ => exact ⟨rfl, rfl, rfl, rfl, rfl⟩

/-- A relay process takes no task out of the queue. -/
theorem RelayEffect.holds (effect : RelayEffect services process action next)
    {payload : JsonObject} (held : services.Holds payload) : next.Holds payload := by
  rcases held with held | moved
  · refine .inl ?_
    cases effect with
    | pushes => exact PushCommand.holdsWaiting held _
    | _ => exact held
  · rw [← effect.othersKept.transfers] at moved
    exact .inr moved

theorem Services.PushedSince.mono {outboxId : Nat} (pushed : services.PushedSince outboxId)
    (pushes : ∃ more, next.pushes = services.pushes ++ more)
    (wiped : next.wiped = services.wiped) : next.PushedSince outboxId := by
  obtain ⟨push, member, ofRow⟩ := pushed
  obtain ⟨more, pushes⟩ := pushes
  refine ⟨push, ?_, ofRow⟩
  rw [pushes, wiped, List.drop_append]
  exact List.mem_append_left _ member

theorem RelayEffect.pushes_append (effect : RelayEffect services process action next) :
    ∃ more, next.pushes = services.pushes ++ more := by
  cases effect with
  | pushes => exact ⟨_, rfl⟩
  | _ => exact ⟨[], (List.append_nil _).symm⟩

/-- A step of a relay process pushes the entry at hand or nothing. -/
theorem RelayEffect.pushedSince (effect : RelayEffect services process action next)
    {outboxId : Nat} (pushed : next.PushedSince outboxId) :
    services.PushedSince outboxId ∨
      ∃ entry ∈ (services.relays process).rest, entry.outboxId = outboxId ∧
        ∃ time now, next.queue = (entry.push time now).perform services.queue := by
  cases effect with
  | @pushes batch entry rest _ time phase =>
    obtain ⟨push, member, ofRow⟩ := pushed
    rcases List.mem_append.mp (List.drop_append ▸ member) with old | new
    · exact .inl ⟨push, old, ofRow⟩
    · rw [List.mem_singleton.mp (List.mem_of_mem_drop new)] at ofRow
      exact .inr ⟨entry, by rw [phase]; exact List.mem_cons_self, ofRow, time, batch.now, rfl⟩
  | _ => exact .inl pushed

/-- A row after a step of a relay process was stored before, and unless the step commits the mark of
a batch it was marked before if it is now. -/
theorem RelayEffect.row (effect : RelayEffect services process action next)
    {task : TasksOutboxModel} (stored : task ∈ next.db.contents.tasksOutbox) :
    ∃ old ∈ services.db.contents.tasksOutbox, task.SameEntry old ∧
      (task.enqueuedAt = old.enqueuedAt ∨ (∃ time connection, action = .perform time connection) ∧
        ∃ batch ∈ (services.relays process).committing, ∃ now,
          .mark old.outboxId now ∈ batch.writes) := by
  have committed (batch : RelayBatch) (found : batch ∈ (services.relays process).committing)
      (time : String) (connection : Nat) (performs : action = .perform time connection)
      (written : task ∈ (services.db.applyWrites batch.writes).contents.tasksOutbox) :
      ∃ old ∈ services.db.contents.tasksOutbox, task.SameEntry old ∧
        (task.enqueuedAt = old.enqueuedAt ∨
          (∃ time connection, action = .perform time connection) ∧
            ∃ batch ∈ (services.relays process).committing, ∃ now,
              .mark old.outboxId now ∈ batch.writes) := by
    obtain ⟨old, oldStored, rfl⟩ := Database.mem_applyWrites.mp written
    refine ⟨old, oldStored, OutboxWrite.changes_sameEntry old batch.writes, ?_⟩
    rcases OutboxWrite.changes_enqueuedAt old batch.writes with same | ⟨now, marks, -⟩
    · exact .inl same
    · exact .inr ⟨⟨time, connection, performs⟩, batch, found, now, marks⟩
  cases effect with
  | @commits batch time connection phase =>
    exact committed batch (by rw [phase]; rfl) time connection rfl stored
  | @finishes batch time connection phase =>
    exact committed batch (by rw [phase]; rfl) time connection rfl stored
  | _ => exact ⟨task, stored, .refl task, .inl rfl⟩

/-- No row becomes awaited in a running run when attempts that were not queued stay so, no other run
runs, and the dead letters are kept. -/
theorem Services.Unawaited.of_kept {task later : TasksOutboxModel}
    (unawaited : services.Unawaited task) (same : later.stepAttemptId = task.stepAttemptId)
    (buried : ∀ payload ∈ services.buried, payload ∈ next.buried)
    (queued : ∀ attempt ∈ next.db.contents.stepAttempts, attempt.state = .queued →
      attempt ∈ services.db.contents.stepAttempts)
    (running : ∀ attempt, next.InRunningRun attempt → services.InRunningRun attempt) :
    next.Unawaited later := by
  intro attempt stored names awaits runs
  exact unawaited attempt (queued attempt stored awaits.1) (names.trans same)
    ⟨awaits.1, fun payload inDlq => awaits.2 payload (buried payload inDlq)⟩ (running attempt runs)

/-- A step of a relay process keeps the awaited tasks. The mark of a row is committed only when the
row was pushed since the queue was last emptied, or when nobody awaits its task. -/
theorem RelayEffect.tasksKept {registry : WorkflowRegistry}
    (effect : RelayEffect services process action next)
    (keeps : KeepsTasks registry services (.relay process action)) (sound : TasksKept services) :
    TasksKept next where
  pushed := effect.pushedFirst sound.pushed
  acking workerId payload acks := by
    have others := effect.othersKept
    have concluded := sound.acking workerId payload (others.workers ▸ acks)
    unfold Concluded
    rwa [others.buried, others.contents]
  moving index payload moves := by
    have others := effect.othersKept
    rw [others.buried]
    exact sound.moving index payload (others.transfers ▸ moves)
  kept attempt attemptStored awaits := by
    have others := effect.othersKept
    rw [others.contents] at attemptStored
    unfold Services.Awaits at awaits
    rw [others.buried] at awaits
    obtain ⟨task, stored, taskKept⟩ := sound.kept attempt attemptStored awaits
    obtain ⟨later, laterStored, same⟩ := effect.remembers.entries task stored
    refine ⟨later, laterStored, taskKept.addressed.of_same same.symm.task,
      same.symm.task.stepAttemptId.trans taskKept.names, fun pushed => ?_⟩
    rw [same.symm.task.outboxId] at pushed
    simp only [same.symm.task.copy]
    rcases effect.pushedSince pushed with before | ⟨entry, left, ofRow, time, now, performed⟩
    · obtain ⟨claimedAt, onItsWay⟩ := taskKept.held before
      exact ⟨claimedAt, effect.holds onItsWay⟩
    · obtain ⟨row, rowStored, sameEntry⟩ := (sound.pushed.phases process).entries entry (.inr left)
      have rowTask : row = task := Database.outboxRow_unique rowStored stored
        (sameEntry.task.outboxId.symm.trans ofRow)
      refine ⟨time, .inl ?_⟩
      rw [performed, ← rowTask, ← sameEntry.task.copy time]
      exact entry.holdsWaiting_push services.queue time now
  lost task stored isLost := by
    have others := effect.othersKept
    obtain ⟨old, oldStored, same, marked⟩ := effect.row stored
    have unpushed : ¬services.PushedSince old.outboxId := fun pushed => isLost.2
      (same.task.outboxId ▸ pushed.mono effect.pushes_append others.wiped)
    have unawaited : services.Unawaited old := by
      rcases marked with before | ⟨⟨time, connection, rfl⟩, batch, found, now, marks⟩
      · exact sound.lost old oldStored ⟨before ▸ isLost.1, unpushed⟩
      · exact keeps batch found _ marks unpushed old oldStored rfl
    refine unawaited.of_kept same.task.stepAttemptId (fun payload => others.buried ▸ id)
      (fun attempt attemptStored _ => ?_) fun attempt runs => ?_
    · rwa [others.contents] at attemptStored
    · unfold Services.InRunningRun at runs
      rwa [others.contents] at runs

end Relays

/-! ### A step of another service -/

/-- A copy of the row names its attempt. -/
theorem TaskKept.namesAttempt {services : Services} {attempt : StepAttemptModel}
    {task : TasksOutboxModel} (kept : TaskKept services attempt task) (claimedAt : String) :
    namesAttempt (task.copy claimedAt) attempt.stepAttemptId :=
  kept.names ▸ kept.addressed.copy_attempt claimedAt

/-- A task that names a queued attempt and is not in the dead letters is not concluded. -/
theorem Services.Awaits.not_concluded {services : Services} {attempt : StepAttemptModel}
    {payload : JsonObject} (awaits : services.Awaits attempt)
    (stored : attempt ∈ services.db.contents.stepAttempts)
    (names : namesAttempt payload attempt.stepAttemptId) : ¬Concluded services payload := by
  rintro (buried | ⟨other, otherStored, ended, unique⟩)
  · exact awaits.2 payload buried names
  · have same : attempt = other := List.inj_on_of_nodup_map services.db.stepAttempts_distinct
      stored otherStored (unique _ names)
    exact ended (same ▸ awaits.1)

/-- An attempt that is not queued stays so, and a task in the dead letters counts for good. -/
theorem Concluded.mono {services next : Services} {payload : JsonObject}
    (concluded : Concluded services payload)
    (schedules : Schedules services.db.contents next.db.contents)
    (buried : ∀ other ∈ services.buried, other ∈ next.buried) : Concluded next payload := by
  rcases concluded with inDlq | ⟨attempt, stored, ended, unique⟩
  · exact .inl (buried payload inDlq)
  · obtain ⟨later, laterStored, same⟩ := schedules.attempts attempt stored
    refine .inr ⟨later, laterStored, fun queued => ?_, fun id names =>
      (unique id names).trans same.symm⟩
    rcases schedules.queued later laterStored queued with
      ⟨old, oldStored, sameOld, oldQueued⟩ | ⟨fresh, -⟩
    · have equal : old = attempt := List.inj_on_of_nodup_map services.db.stepAttempts_distinct
        oldStored stored (sameOld.trans same)
      exact ended (equal ▸ oldQueued)
    · exact fresh attempt stored same.symm

section Others

variable {loads : String → Option Json} {services next : Services}

/-- A task that loads an attempt is concluded once that attempt is not queued. -/
theorem concluded_of_loadRows {payload : JsonObject} {rows : TaskRows} {attempt : StepAttemptModel}
    (loaded : loadRows services.db payload = .ok (some rows))
    (stored : attempt ∈ next.db.contents.stepAttempts)
    (same : attempt.stepAttemptId = rows.attempt.stepAttemptId) (ended : attempt.state ≠ .queued) :
    Concluded next payload := by
  obtain ⟨stepAttemptId, _, _, ⟨named, -, -⟩, found, -, -⟩ := loadRows_some_iff.mp loaded
  refine .inr ⟨attempt, stored, ended, fun id names => ?_⟩
  cases (readId_ofId names).symm.trans named
  rw [same]
  exact (mem_of_find? (fun row : StepAttemptModel => row.stepAttemptId) found).2.symm

theorem StepState.ne_queued_of_isFinished {state : StepState}
    (finished : state.isFinished = true) : state ≠ .queued := by
  rintro rfl
  cases finished

theorem concluded_of_alreadyTerminal {handle : String → StepContext → HandlerReturn}
    {draws : Draws} {workerId : String} {payload : JsonObject}
    (processed : processTask loads handle services.db draws workerId payload =
      .ok .alreadyTerminal) : Concluded services payload := by
  obtain ⟨rows, loaded, finished⟩ := processTask_alreadyTerminal processed
  exact concluded_of_loadRows loaded
    (mem_of_find? (fun row : StepAttemptModel => row.stepAttemptId) (loadRows_ok loaded).1).1 rfl
    (StepState.ne_queued_of_isFinished finished)

theorem concluded_of_written {handle : String → StepContext → HandlerReturn} {draws : Draws}
    {workerId : String} {payload : JsonObject}
    (processed : processTask loads handle services.db draws workerId payload =
      .ok (.written next.db)) : Concluded next payload := by
  obtain ⟨rows, outcome, loaded, -, -, -, reported⟩ := processTask_written processed
  have state := reported.getStepAttempt (loadRows_ok loaded).1
  obtain ⟨attempt, found, ended⟩ := Option.map_eq_some_iff.mp state
  obtain ⟨stored, same⟩ := mem_of_find? (fun row : StepAttemptModel => row.stepAttemptId) found
  exact concluded_of_loadRows loaded stored same (ended ▸ outcome.attemptState_ne_queued)

/-- A step of a service that is not the relay: what it takes out of the queue it passes on, unless
it is concluded. -/
structure PassedOn (services next : Services) : Prop where
  wiped : next.wiped = services.wiped
  buried : ∀ payload ∈ services.buried, payload ∈ next.buried
  acking : ∀ workerId payload, next.workers workerId = .acking payload →
    services.workers workerId = .acking payload ∨ Concluded next payload
  moving : ∀ index payload, next.transfers index = .moving .dlq payload →
    services.transfers index = .moving .dlq payload ∨ payload ∈ next.buried
  holds : ∀ payload, ¬Concluded services payload → services.Holds payload → next.Holds payload

theorem eq_or_eq_of_update {Index Value : Type} [DecidableEq Index] {values : Index → Value}
    {index other : Index} {value found : Value}
    (updated : Function.update values index value other = found) :
    value = found ∨ values other = found := by
  by_cases same : other = index
  · subst same
    rw [Function.update_self] at updated
    exact .inl updated
  · rw [Function.update_of_ne same] at updated
    exact .inr updated

theorem PassedOn.refl (services : Services) : PassedOn services services :=
  ⟨rfl, fun _ => id, fun _ _ => .inl, fun _ _ => .inl, fun _ _ => id⟩

/-- Only the place of a worker and the queue have changed. -/
theorem PassedOn.of_worker {workerId : String} {phase : WorkerPhase}
    (workers : next.workers = Function.update services.workers workerId phase)
    (transfers : next.transfers = services.transfers) (wiped : next.wiped = services.wiped)
    (buried : ∀ payload ∈ services.buried, payload ∈ next.buried)
    (acking : ∀ payload, phase = .acking payload → Concluded next payload)
    (holds : ∀ payload, ¬Concluded services payload → services.queue.HoldsWaiting payload →
      next.queue.HoldsWaiting payload) : PassedOn services next where
  wiped := wiped
  buried := buried
  acking other payload acks := by
    rw [workers] at acks
    exact (eq_or_eq_of_update acks).symm.imp_right (acking payload)
  moving index payload moves := .inl (transfers ▸ moves)
  holds payload unconcluded held := by
    rcases held with held | moved
    · exact .inl (holds payload unconcluded held)
    · rw [← transfers] at moved
      exact .inr moved

/-- Acknowledging a concluded task takes no other one. -/
theorem holdsWaiting_ack {queue : TaskQueue} {workerId : String} {payload other : JsonObject}
    (acked : Concluded services other) (unconcluded : ¬Concluded services payload)
    (held : queue.HoldsWaiting payload) :
    TaskQueue.HoldsWaiting (queue.ack workerId other) payload := by
  refine held.lrem (.inl fun same => unconcluded ?_)
  rw [same]
  exact acked

theorem workerStep_passedOn (services : Services) (workerId : String) (action : WorkerAction)
    (sound : TasksKept services) :
    PassedOn services (services.workerStep loads workerId action) := by
  unfold Services.workerStep
  split
  · split
    · exact .refl services
    · rename_i claimed
      exact .of_worker rfl rfl rfl (fun _ => id) nofun fun _ _ held => held.claim claimed
  · split
    · exact .of_worker rfl rfl rfl (fun _ => id) nofun fun _ _ => id
    · exact .of_worker rfl rfl rfl (fun _ => id) nofun fun _ _ => id
    · rename_i processed
      refine .of_worker rfl rfl rfl (fun _ => id) (fun payload acks => ?_) fun _ _ => id
      cases acks
      exact concluded_of_alreadyTerminal processed
    · rename_i flushed processed
      refine .of_worker rfl rfl rfl (fun _ => id) (fun payload acks => ?_) fun _ _ => id
      cases acks
      exact (concluded_of_written processed : Concluded { services with db := flushed } _)
  · refine .of_worker rfl rfl rfl (fun _ => List.mem_cons_of_mem _) (fun payload acks => ?_)
      fun _ _ held => held.lpush .dlq
    cases acks
    exact .inl List.mem_cons_self
  · rename_i phase
    exact .of_worker rfl rfl rfl (fun _ => id) nofun fun _ unconcluded held =>
      holdsWaiting_ack (sound.acking workerId _ phase) unconcluded held
  · exact .of_worker rfl rfl rfl (fun _ => id) nofun fun _ _ => id
  · exact .refl services

/-- A task is taken out of the queue, and nothing else changes but the dead letters. -/
theorem PassedOn.of_taken {index : Nat} {transfer : Transfer}
    (idle : services.transfers index = .idle) (workers : next.workers = services.workers)
    (transfers : next.transfers = Function.update services.transfers index transfer)
    (wiped : next.wiped = services.wiped)
    (buried : ∀ payload ∈ services.buried, payload ∈ next.buried)
    (moving : ∀ payload, transfer = .moving .dlq payload → payload ∈ next.buried)
    (holds : ∀ payload, services.queue.HoldsWaiting payload →
      next.queue.HoldsWaiting payload ∨ transfer.hand = some payload) :
    PassedOn services next where
  wiped := wiped
  buried := buried
  acking workerId payload acks := .inl (workers ▸ acks)
  moving other payload moves := by
    rw [transfers] at moves
    exact (eq_or_eq_of_update moves).symm.imp_right (moving payload)
  holds payload _ held := by
    unfold Services.Holds
    rw [transfers]
    rcases held with held | ⟨other, moved⟩
    · refine (holds payload held).imp_right fun inHand => ⟨index, ?_⟩
      rwa [Function.update_self]
    · refine .inr ⟨other, ?_⟩
      have different : other ≠ index := by
        rintro rfl
        rw [idle] at moved
        cases moved
      rwa [Function.update_of_ne different]

/-- A task that was taken out of the queue is pushed again. -/
theorem PassedOn.of_pushed {index : Nat} {transfer : Transfer}
    (phase : services.transfers index = transfer) (workers : next.workers = services.workers)
    (transfers : next.transfers = Function.update services.transfers index .idle)
    (wiped : next.wiped = services.wiped) (buried : next.buried = services.buried)
    (holds : ∀ payload, services.queue.HoldsWaiting payload → next.queue.HoldsWaiting payload)
    (hand : ∀ payload, ¬Concluded services payload → transfer.hand = some payload →
      next.queue.HoldsWaiting payload) : PassedOn services next where
  wiped := wiped
  buried _ member := buried ▸ member
  acking workerId payload acks := .inl (workers ▸ acks)
  moving other payload moves := by
    rw [transfers] at moves
    rcases eq_or_eq_of_update moves with new | old
    · cases new
    · exact .inl old
  holds payload unconcluded held := by
    rcases held with held | ⟨other, moved⟩
    · exact .inl (holds payload held)
    · by_cases same : other = index
      · rw [same, phase] at moved
        exact .inl (hand payload unconcluded moved)
      · refine .inr ⟨other, ?_⟩
        rwa [transfers, Function.update_of_ne same]

theorem transferStep_passedOn (services : Services) (index : Nat) (action : TransferAction)
    (sound : TasksKept services) : PassedOn services (services.transferStep index action) := by
  unfold Services.transferStep
  split
  · rename_i workerId target payload phase
    refine .of_taken phase rfl rfl rfl (fun other member => ?_) (fun other moves => ?_)
      fun other held => ?_
    · cases target with
      | ready => exact member
      | dlq => exact List.mem_cons_of_mem _ member
    · cases moves
      exact List.mem_cons_self
    · by_cases same : other = payload
      · exact .inr (congrArg some same.symm)
      · exact .inl (held.lrem (.inl same))
  · rename_i now phase
    split
    · exact .refl services
    · rename_i payload score popped least
      refine .of_taken phase rfl rfl rfl (fun _ => id) (fun other moves => ?_) fun other held => ?_
      · split at moves <;> cases moves
      · refine (held.zpopmin least).symm.imp_right fun same => ?_
        rw [same]
        split <;> rfl
  · rename_i payload phase
    split
    · exact .of_taken phase rfl rfl rfl (fun _ => id) nofun fun _ held =>
        .inl (held.lrem (.inr rfl))
    · exact .refl services
  · rename_i target payload phase
    refine .of_pushed phase rfl rfl rfl rfl (fun other held => held.lpush _)
      fun other unconcluded inHand => ?_
    cases inHand
    cases target with
    | ready => exact TaskQueue.holdsWaiting_lpush _ _ rfl
    | dlq => exact absurd (.inl (sound.moving index _ phase)) unconcluded
  · rename_i payload score phase
    refine .of_pushed phase rfl rfl rfl rfl (fun other held => held.zadd _) fun other _ inHand => ?_
    cases inHand
    exact TaskQueue.holdsWaiting_zadd _ _ _
  · exact .refl services

theorem step_passedOn (registry : WorkflowRegistry) (services : Services) (event : ServiceEvent)
    (other : ∀ process action, event ≠ .relay process action) (stays : event ≠ .flush)
    (sound : TasksKept services) : PassedOn services (services.step registry loads event) := by
  cases event with
  | relay process action => exact absurd rfl (other process action)
  | worker workerId action => exact workerStep_passedOn services workerId action sound
  | transfer index action => exact transferStep_passedOn services index action sound
  | dropFromDlq payload =>
    refine ⟨rfl, fun _ => id, fun _ _ => .inl, fun _ _ => .inl, fun _ _ held => ?_⟩
    exact held.imp_left fun waiting => waiting.lrem (.inr rfl)
  | operation made draws =>
    exact ⟨rfl, fun _ => id, fun _ _ => .inl, fun _ _ => .inl, fun _ _ => id⟩
  | flush => exact absurd rfl stays

/-- A task that was pushed on its way stays there. -/
theorem RelaysKept.pushedSince (relays : RelaysKept services next)
    (wiped : next.wiped = services.wiped) (outboxId : Nat) :
    next.PushedSince outboxId ↔ services.PushedSince outboxId := by
  unfold Services.PushedSince
  rw [relays.pushes, wiped]

/-- An awaited task that was awaited before is kept. -/
theorem TaskKept.passedOn {attempt later : StepAttemptModel} {task : TasksOutboxModel}
    (kept : TaskKept services attempt task) (passed : PassedOn services next)
    (relays : RelaysKept services next)
    (stored : attempt ∈ services.db.contents.stepAttempts) (awaits : services.Awaits attempt)
    (same : attempt.stepAttemptId = later.stepAttemptId) : TaskKept next later task := by
  refine ⟨kept.addressed, kept.names.trans same, fun pushed => ?_⟩
  obtain ⟨claimedAt, held⟩ := kept.held ((relays.pushedSince passed.wiped _).mp pushed)
  exact ⟨claimedAt, passed.holds _ (awaits.not_concluded stored (kept.namesAttempt claimedAt)) held⟩

/-- The row of an attempt that has just been queued was never pushed. -/
theorem taskKept_of_new (sound : PushedFirst services) (relays : RelaysKept services next)
    (schedules : Schedules services.db.contents next.db.contents) {attempt : StepAttemptModel}
    {task : TasksOutboxModel} (stored : task ∈ next.db.contents.tasksOutbox)
    (fresh : task ∉ services.db.contents.tasksOutbox) (addressed : task.Addressed)
    (names : task.stepAttemptId = attempt.stepAttemptId) : TaskKept next attempt task where
  addressed := addressed
  names := names
  held pushed := by
    obtain ⟨push, member, ofRow⟩ := pushed
    rw [relays.pushes] at member
    obtain ⟨row, rowStored, of⟩ := sound.stored push (List.mem_of_mem_drop member)
    have same : row = task := Database.outboxRow_unique (schedules.kept row rowStored) stored
      (of.1.symm.trans ofRow)
    exact absurd (same ▸ rowStored) fresh

/-- A step of another service keeps the awaited tasks, if no lost one comes to be awaited. -/
theorem PassedOn.tasksKept (passed : PassedOn services next) (relays : RelaysKept services next)
    (schedules : Schedules services.db.contents next.db.contents)
    (unawaited : ∀ task ∈ services.db.contents.tasksOutbox, services.Lost task →
      services.Unawaited task → next.Unawaited task) (sound : TasksKept services) :
    TasksKept next where
  pushed := relays.pushedFirst schedules sound.pushed
  acking workerId payload acks := by
    rcases passed.acking workerId payload acks with before | now
    · exact (sound.acking workerId payload before).mono schedules passed.buried
    · exact now
  moving index payload moves := by
    rcases passed.moving index payload moves with before | now
    · exact passed.buried payload (sound.moving index payload before)
    · exact now
  kept attempt stored awaits := by
    rcases schedules.queued attempt stored awaits.1 with
      ⟨old, oldStored, same, queued⟩ | ⟨-, task, taskStored, fresh, addressed, names⟩
    · have awaitsBefore : services.Awaits old :=
        ⟨queued, fun payload inDlq => same ▸ awaits.2 payload (passed.buried payload inDlq)⟩
      obtain ⟨task, taskStored, kept⟩ := sound.kept old oldStored awaitsBefore
      exact ⟨task, schedules.kept task taskStored,
        kept.passedOn passed relays oldStored awaitsBefore same⟩
    · exact ⟨task, taskStored,
        taskKept_of_new sound.pushed relays schedules taskStored fresh addressed names⟩
  lost task stored isLost := by
    have before := (schedules.pending task stored).resolve_right isLost.1
    have lostBefore : services.Lost task :=
      ⟨isLost.1, fun pushed => isLost.2 ((relays.pushedSince passed.wiped _).mpr pushed)⟩
    exact unawaited task before lostBefore (sound.lost task before lostBefore)

/-- A worker that writes an outcome queues no attempt and starts no run. -/
theorem unawaited_of_written {handle : String → StepContext → HandlerReturn} {draws : Draws}
    {workerId : String} {payload : JsonObject} {task : TasksOutboxModel}
    (processed : processTask loads handle services.db draws workerId payload =
      .ok (.written next.db)) (buried : next.buried = services.buried)
    (unawaited : services.Unawaited task) : next.Unawaited task := by
  obtain ⟨rows, outcome, -, -, -, written⟩ := processTask_steps processed
  obtain ⟨change, changes, contents⟩ := writeOutcome_contents written
  refine unawaited.of_kept rfl (fun _ => buried ▸ id) (fun attempt stored queued => ?_)
    fun attempt runs => ?_
  · rw [contents] at stored
    obtain ⟨begun, begunStored, rfl⟩ := mem_updateRows.mp stored
    obtain ⟨old, oldStored, rfl⟩ := mem_updateRows.mp begunStored
    by_cases selected : old.stepAttemptId = rows.attempt.stepAttemptId
    · have chosen : (old.begin (draws.now 0)).stepAttemptId = rows.attempt.stepAttemptId := selected
      simp only [selected, chosen, decide_true, if_true] at queued
      rw [TaskOutcome.attemptChange_state changes] at queued
      exact absurd queued outcome.attemptState_ne_queued
    · simp only [selected, decide_false, Bool.false_eq_true, if_false]
      exact oldStored
  · obtain ⟨step, stepStored, ofAttempt, run, runStored, ofRun, running⟩ := runs
    rw [contents] at stepStored runStored
    obtain ⟨old, oldStored, rfl⟩ := mem_updateRows.mp stepStored
    refine ⟨old, oldStored, ?_, run, runStored, ?_, running⟩
    · rw [← ofAttempt]
      split
      · cases outcome <;> rfl
      · rfl
    · rw [ofRun]
      split
      · cases outcome <;> rfl
      · rfl

theorem Services.Unawaited.of_database {task : TasksOutboxModel}
    (unawaited : services.Unawaited task) (same : next.db = services.db)
    (buried : ∀ payload ∈ services.buried, payload ∈ next.buried) : next.Unawaited task := by
  refine unawaited.of_kept rfl buried (fun _ stored _ => same ▸ stored) fun attempt runs => ?_
  unfold Services.InRunningRun at runs
  rwa [same] at runs

theorem workerStep_unawaited (services : Services) (workerId : String) (action : WorkerAction)
    {task : TasksOutboxModel} (unawaited : services.Unawaited task) :
    (services.workerStep loads workerId action).Unawaited task := by
  unfold Services.workerStep
  split
  · split
    · exact unawaited
    · exact unawaited.of_database rfl fun _ => id
  · split
    · exact unawaited.of_database rfl fun _ => id
    · exact unawaited.of_database rfl fun _ => id
    · exact unawaited.of_database rfl fun _ => id
    · rename_i processed
      exact unawaited_of_written processed rfl unawaited
  · exact unawaited.of_database rfl fun _ => List.mem_cons_of_mem _
  · exact unawaited.of_database rfl fun _ => id
  · exact unawaited.of_database rfl fun _ => id
  · exact unawaited

theorem transferStep_db (services : Services) (index : Nat) (action : TransferAction) :
    (services.transferStep index action).db = services.db := by
  unfold Services.transferStep
  split
  · rfl
  · split <;> rfl
  · split <;> rfl
  · rfl
  · rfl
  · rfl

/-- A task that is lost comes to be awaited only by an operation. -/
theorem step_unawaited (registry : WorkflowRegistry) (services : Services) (event : ServiceEvent)
    (other : ∀ process action, event ≠ .relay process action) (stays : event ≠ .flush)
    (sound : TasksKept services) (keeps : KeepsTasks registry services event)
    (task : TasksOutboxModel) (stored : task ∈ services.db.contents.tasksOutbox)
    (isLost : services.Lost task) (unawaited : services.Unawaited task) :
    (services.step registry loads event).Unawaited task := by
  cases event with
  | relay process action => exact absurd rfl (other process action)
  | worker workerId action => exact workerStep_unawaited services workerId action unawaited
  | transfer index action =>
    exact unawaited.of_database (transferStep_db services index action)
      (transferStep_passedOn services index action sound).buried
  | dropFromDlq payload => exact unawaited.of_database rfl fun _ => id
  | operation made draws => exact keeps task stored isLost unawaited
  | flush => exact absurd rfl stays

/-- A flush loses no awaited task as long as their rows are pending: nothing is left of what was
pushed. -/
theorem TasksKept.flush {registry : WorkflowRegistry} (sound : TasksKept services)
    (keeps : KeepsTasks registry services .flush) :
    TasksKept { services with queue := .empty, wiped := services.pushes.length } where
  pushed := ⟨sound.pushed.stored, sound.pushed.marks, fun process => by
    obtain ⟨entries, marked, pushed⟩ := sound.pushed.phases process
    exact ⟨entries, marked, pushed⟩⟩
  acking := sound.acking
  moving := sound.moving
  kept attempt stored awaits := by
    obtain ⟨task, taskStored, kept⟩ := sound.kept attempt stored awaits
    refine ⟨task, taskStored, kept.addressed, kept.names, fun pushed => ?_⟩
    obtain ⟨push, member, -⟩ := pushed
    rw [show List.drop _ _ = [] from List.drop_length] at member
    exact absurd member List.not_mem_nil
  lost task stored isLost := keeps task stored isLost.1

theorem step_tasksKept (registry : WorkflowRegistry) (services : Services) (event : ServiceEvent)
    (sound : TasksKept services) (keeps : KeepsTasks registry services event) :
    TasksKept (services.step registry loads event) := by
  by_cases relayed : ∃ process action, event = .relay process action
  · obtain ⟨process, action, rfl⟩ := relayed
    exact (services.relayStep_effect process action).tasksKept keeps sound
  · have other : ∀ process action, event ≠ .relay process action :=
      fun process action same => relayed ⟨process, action, same⟩
    by_cases flushed : event = .flush
    · subst flushed
      exact sound.flush keeps
    · exact (step_passedOn registry services event other flushed sound).tasksKept
        (RelaysKept.step loads services registry event other)
        (services.step_schedules registry loads event other)
        (step_unawaited registry services event other flushed sound keeps) sound

end Others

/-! ### Runs -/

theorem tasksKept_resting (documents : List UUID) :
    TasksKept (.resting (.empty documents) .empty) where
  pushed := ⟨fun _ pushed => absurd pushed List.not_mem_nil,
    fun _ stored => absurd stored List.not_mem_nil, fun _ => phaseSound_idle _⟩
  acking _ _ acks := nomatch acks
  moving _ _ moves := nomatch moves
  kept _ stored := absurd stored List.not_mem_nil
  lost _ stored := absurd stored List.not_mem_nil

/-- Without pending rows, and with no task between two keys, what is kept has a copy that waits. -/
theorem TasksKept.recovered {services : Services} (sound : TasksKept services) :
    services.Recovered := by
  intro relayed idle attempt stored awaits running
  obtain ⟨task, taskStored, kept⟩ := sound.kept attempt stored awaits
  have pushed : services.PushedSince task.outboxId := by
    by_contra unpushed
    exact sound.lost task taskStored ⟨relayed task taskStored, unpushed⟩ attempt stored
      kept.names.symm awaits running
  obtain ⟨claimedAt, waiting | ⟨index, inHand⟩⟩ := kept.held pushed
  · exact ⟨task, taskStored, kept.names, claimedAt, waiting⟩
  · rw [idle index] at inHand
    cases inHand

/-- The queue may be emptied at any moments at which no awaited task is marked: once no row is
pending, every task that is still awaited is back. What carries the run is that a task pushed since
the last flush stays on its way until its attempt is concluded, and that a marked row without such a
push is awaited by no running run. -/
theorem tasks_survive_flushes (registry : WorkflowRegistry) (loads : String → Option Json)
    (documents : List UUID) (events : List ServiceEvent)
    (keeps : Transition.Along (Services.step registry loads) (KeepsTasks registry)
      (.resting (.empty documents) .empty) events) :
    (Transition.run (Services.step registry loads) (.resting (.empty documents) .empty)
      events).Recovered :=
  (Transition.run_invariant (Services.step registry loads) TasksKept
    (step_tasksKept registry) _ (tasksKept_resting documents) events keeps).recovered

/-- A run is cancelled once its task was pushed and marked, and the queue is emptied. It is
emptied again while the first task of another run is pending, and when a batch has pushed that task
and stops before its mark. The next batch pushes it for good. -/
def flushedEarly : List ServiceEvent :=
  [started 1, .relay 0 (.acquire 0 20)] ++ relayPerforms 0 6 ++
    [.operation (.call (.cancelWorkflow (BitVec.ofNat 128 100) "api" none)) (numberedDraws 3),
      .flush, started 2, .flush, .relay 0 (.acquire 0 30)] ++ relayPerforms 0 2 ++
    [.flush, .relay 0 .crash, .relay 0 (.acquire 0 40)] ++ relayPerforms 0 6

/-- The queue is emptied after the first task was pushed and marked. The next batch reads
nothing. -/
def flushedLate : List ServiceEvent :=
  [started 1, .relay 0 (.acquire 0 30)] ++ relayPerforms 0 6 ++
    (.flush :: .relay 0 (.acquire 0 40) :: relayPerforms 0 4)

theorem tasks_survive_flushes_early : (afterRelay flushedEarly).Recovered :=
  tasks_survive_flushes [claimIntakeV1] (fun _ => none) [] flushedEarly (by decide +kernel)

/-- A statement of the relay that pushes nothing. -/
def Quiet (services : Services) : ServiceEvent → Bool
  | .relay process _ =>
    match services.relays process with
    | .relaying _ (_ :: _) => false
    | _ => true
  | _ => false

/-- An event of an operation, the relay or the queue server itself. -/
def ServiceEvent.movesNoTask : ServiceEvent → Bool
  | .operation _ _ | .relay _ _ | .flush => true
  | .worker _ _ | .transfer _ _ | .dropFromDlq _ => false

theorem RelayEffect.queue_of_quiet {services next : Services} {process : Nat}
    {action : RelayAction} (effect : RelayEffect services process action next)
    (quiet : Quiet services (.relay process action) = true) : next.queue = services.queue := by
  cases effect with
  | pushes time phase =>
    rw [Quiet, phase] at quiet
    cases quiet
  | _ => rfl

theorem quiet_step (registry : WorkflowRegistry) (loads : String → Option Json)
    (services : Services) (event : ServiceEvent) (empty : services.queue = .empty)
    (quiet : Quiet services event = true) :
    (services.step registry loads event).queue = .empty := by
  cases event with
  | relay process action =>
    exact ((services.relayStep_effect process action).queue_of_quiet quiet).trans empty
  | _ => cases quiet

theorem movesNoTask_step (registry : WorkflowRegistry) (loads : String → Option Json)
    (services : Services) (event : ServiceEvent) (idle : services.transfers = fun _ => .idle)
    (moves : event.movesNoTask = true) :
    (services.step registry loads event).transfers = fun _ => .idle := by
  cases event with
  | relay process action =>
    exact (services.relayStep_effect process action).othersKept.transfers.trans idle
  | operation made draws => exact idle
  | flush => exact idle
  | _ => cases moves

/-- No row is pending, the attempt of the marked row is queued in a running run, and nothing waits
anywhere in the queue. -/
theorem task_lost_by_flush : ¬(afterRelay flushedLate).Recovered := by
  intro recovered
  have awaited : ∃ attempt ∈ (afterRelay flushedLate).db.contents.stepAttempts,
      (afterRelay flushedLate).Awaits attempt ∧
        (afterRelay flushedLate).InRunningRun attempt := by decide +kernel
  have idle : (afterRelay flushedLate).transfers = fun _ => .idle :=
    Transition.run_invariant (Services.step [claimIntakeV1] fun _ => none)
      (fun services => services.transfers = fun _ => .idle) (movesNoTask_step _ _)
      (.resting (.empty []) .empty) rfl flushedLate (by decide +kernel)
  have empty : (afterRelay flushedLate).queue = .empty := by
    rw [afterRelay, flushedLate, Transition.run_append, Transition.run_cons]
    exact Transition.run_invariant (Services.step [claimIntakeV1] fun _ => none)
      (fun services => services.queue = .empty) (quiet_step _ _) (Services.step _ _ _ .flush) rfl
      (.relay 0 (.acquire 0 40) :: relayPerforms 0 4) (by decide +kernel)
  obtain ⟨attempt, stored, awaits, running⟩ := awaited
  obtain ⟨_, -, -, _, place, -, occurs⟩ :=
    recovered (by decide +kernel) (fun index => congrFun idle index) attempt stored awaits running
  rw [empty] at occurs
  cases place <;> exact absurd occurs (Nat.lt_irrefl 0)

end InsuranceOps
