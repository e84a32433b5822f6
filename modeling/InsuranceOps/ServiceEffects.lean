/-
This file says once what a step of the services can do. A statement of a relay
process reads, pushes, writes, commits, leaves its try block or gives the lock
back; the other services leave the relays alone, add pending rows to the outbox
and change none that is stored.
-/

import InsuranceOps.QueuedAttempts
import InsuranceOps.Services

namespace InsuranceOps

open AdvisoryLock ListStore Relational

/-! ### The writes of a batch -/

/-- Two rows of one entry, which may differ in how far it was relayed. -/
structure TasksOutboxModel.SameEntry (first second : TasksOutboxModel) : Prop where
  task : first.SameTask second
  scheduledFor : first.scheduledFor = second.scheduledFor

namespace TasksOutboxModel.SameEntry

variable {first second third : TasksOutboxModel}

theorem refl (row : TasksOutboxModel) : row.SameEntry row := ⟨.refl row, rfl⟩

theorem symm (same : first.SameEntry second) : second.SameEntry first :=
  ⟨same.task.symm, same.scheduledFor.symm⟩

theorem trans (one : first.SameEntry second) (two : second.SameEntry third) :
    first.SameEntry third :=
  ⟨one.task.trans two.task, one.scheduledFor.trans two.scheduledFor⟩

/-- An entry is pushed the same way whatever row it is read from. -/
theorem push (same : first.SameEntry second) (time : String) (now : Timestamp) :
    first.push time now = second.push time now := by
  unfold TasksOutboxModel.push
  rw [same.task.copy time, same.scheduledFor]

end TasksOutboxModel.SameEntry

namespace OutboxWrite

/-- What a write does to a row. -/
def change (row : TasksOutboxModel) : OutboxWrite → TasksOutboxModel
  | .mark outboxId enqueuedAt =>
    if row.outboxId = outboxId then row.markEnqueued enqueuedAt else row
  | .count outboxId error => if row.outboxId = outboxId then row.countAttempt error else row

/-- What the writes of a transaction do to a row. -/
def changes (row : TasksOutboxModel) (writes : List OutboxWrite) : TasksOutboxModel :=
  writes.foldl change row

theorem change_mark (row : TasksOutboxModel) (outboxId : Nat) (enqueuedAt : Timestamp) :
    (mark outboxId enqueuedAt).change row =
      if row.outboxId = outboxId then row.markEnqueued enqueuedAt else row := rfl

theorem change_count (row : TasksOutboxModel) (outboxId : Nat) (error : String) :
    (count outboxId error).change row =
      if row.outboxId = outboxId then row.countAttempt error else row := rfl

theorem change_sameEntry (row : TasksOutboxModel) (write : OutboxWrite) :
    (write.change row).SameEntry row := by
  cases write with
  | mark outboxId enqueuedAt =>
    rw [change_mark]
    split <;> exact ⟨⟨rfl, rfl, rfl, rfl, rfl⟩, rfl⟩
  | count outboxId error =>
    rw [change_count]
    split <;> exact ⟨⟨rfl, rfl, rfl, rfl, rfl⟩, rfl⟩

theorem changes_sameEntry (row : TasksOutboxModel) (writes : List OutboxWrite) :
    (changes row writes).SameEntry row := by
  induction writes generalizing row with
  | nil => exact .refl row
  | cons write rest inductionHypothesis =>
    exact (inductionHypothesis (write.change row)).trans (change_sameEntry row write)

theorem change_enqueuedAt (row : TasksOutboxModel) (write : OutboxWrite) :
    (write.change row).enqueuedAt = row.enqueuedAt ∨
      ∃ now, write = .mark row.outboxId now ∧ (write.change row).enqueuedAt = some now := by
  cases write with
  | mark outboxId enqueuedAt =>
    rw [change_mark]
    split
    · rename_i same
      exact .inr ⟨enqueuedAt, by rw [same], rfl⟩
    · exact .inl rfl
  | count outboxId error =>
    rw [change_count]
    split <;> exact .inl rfl

/-- The mark a row bears is an old one or one of the writes. -/
theorem changes_enqueuedAt (row : TasksOutboxModel) (writes : List OutboxWrite) :
    (changes row writes).enqueuedAt = row.enqueuedAt ∨
      ∃ now, .mark row.outboxId now ∈ writes ∧ (changes row writes).enqueuedAt = some now := by
  induction writes generalizing row with
  | nil => exact .inl rfl
  | cons write rest inductionHypothesis =>
    rcases inductionHypothesis (write.change row) with same | ⟨now, member, marked⟩
    · rcases change_enqueuedAt row write with unchanged | ⟨now, rfl, marked⟩
      · exact .inl (same.trans unchanged)
      · exact .inr ⟨now, List.mem_cons_self, same.trans marked⟩
    · rw [(change_sameEntry row write).task.outboxId] at member
      exact .inr ⟨now, List.mem_cons_of_mem _ member, marked⟩

/-- A marked row stays marked. -/
theorem changes_marked {row : TasksOutboxModel} {writes : List OutboxWrite}
    (marked : row.enqueuedAt ≠ none) : (changes row writes).enqueuedAt ≠ none := by
  rcases changes_enqueuedAt row writes with same | ⟨now, -, later⟩
  · rw [same]
    exact marked
  · rw [later]
    exact nofun

/-- A row the writes mark is marked. -/
theorem changes_of_mark {row : TasksOutboxModel} {writes : List OutboxWrite} {now : Timestamp}
    (member : .mark row.outboxId now ∈ writes) : (changes row writes).enqueuedAt ≠ none := by
  induction writes generalizing row with
  | nil => cases member
  | cons write rest inductionHypothesis =>
    rcases List.mem_cons.mp member with rfl | later
    · have marked : ((mark row.outboxId now).change row).enqueuedAt ≠ none := by
        rw [change_mark, if_pos rfl]
        exact nofun
      show (changes ((mark row.outboxId now).change row) rest).enqueuedAt ≠ none
      exact changes_marked marked
    · refine inductionHypothesis ?_
      rw [(change_sameEntry row write).task.outboxId]
      exact later

theorem apply_tasksOutbox (db : Database) (write : OutboxWrite) :
    (write.apply db).contents.tasksOutbox = db.contents.tasksOutbox.map write.change := by
  cases write with
  | mark outboxId enqueuedAt =>
    refine List.map_congr_left fun row _ => ?_
    simp only [decide_eq_true_eq, change_mark]
  | count outboxId error =>
    refine List.map_congr_left fun row _ => ?_
    simp only [decide_eq_true_eq, change_count]

end OutboxWrite

/-- The outbox after the writes of a transaction. -/
theorem Database.applyWrites_tasksOutbox (db : Database) (writes : List OutboxWrite) :
    (db.applyWrites writes).contents.tasksOutbox =
      db.contents.tasksOutbox.map fun row => OutboxWrite.changes row writes := by
  induction writes generalizing db with
  | nil => exact (List.map_id _).symm
  | cons write rest inductionHypothesis =>
    show ((write.apply db).applyWrites rest).contents.tasksOutbox = _
    rw [inductionHypothesis, OutboxWrite.apply_tasksOutbox, List.map_map]
    rfl

theorem Database.mem_applyWrites {db : Database} {writes : List OutboxWrite}
    {row : TasksOutboxModel} :
    row ∈ (db.applyWrites writes).contents.tasksOutbox ↔
      ∃ old ∈ db.contents.tasksOutbox, OutboxWrite.changes old writes = row := by
  rw [applyWrites_tasksOutbox, List.mem_map]

/-- The writes of a batch change nothing but the outbox. -/
theorem Database.applyWrites_contents (db : Database) (writes : List OutboxWrite) :
    (db.applyWrites writes).contents =
      { db.contents with tasksOutbox := (db.applyWrites writes).contents.tasksOutbox } := by
  induction writes generalizing db with
  | nil => rfl
  | cons write rest inductionHypothesis =>
    show ((write.apply db).applyWrites rest).contents = _
    rw [inductionHypothesis]
    cases write <;> rfl

/-- A row is the only one with its identifier. -/
theorem Database.outboxRow_unique {db : Database} {first second : TasksOutboxModel}
    (firstStored : first ∈ db.contents.tasksOutbox)
    (secondStored : second ∈ db.contents.tasksOutbox)
    (same : first.outboxId = second.outboxId) : first = second :=
  List.inj_on_of_nodup_map db.tasksOutbox_distinct firstStored secondStored same

/-! ### A step of a relay process -/

namespace RelayPhase

/-- The batch of a relay process in its try block. -/
def trying : RelayPhase → Option RelayBatch
  | .locked batch | .relaying batch _ | .pushed batch _ _ | .failed batch _ _ _ => some batch
  | .idle | .committed _ | .leaving _ | .aborted _ | .unlocked _ => none

/-- The batch of a relay process whose next statement is the unlock. -/
def unlocking : RelayPhase → Option RelayBatch
  | .committed batch | .leaving batch | .aborted batch => some batch
  | .idle | .locked _ | .relaying _ _ | .pushed _ _ _ | .failed _ _ _ _ | .unlocked _ => none

/-- The batch of a relay process between taking the lock and its unlock. -/
def holding (phase : RelayPhase) : Option RelayBatch := phase.trying.or phase.unlocking

end RelayPhase

/-- What a step of a relay process leaves. -/
inductive RelayEffect (services : Services) (process : Nat) : RelayAction → Services → Prop
  | stays (action : RelayAction)
      (waits : (services.relays process).unlocking = none ∨
        ∃ connection now, action = .acquire connection now) :
      RelayEffect services process action services
  | acquires {connection : Nat} {now : Timestamp} {taken : Lock (Nat × Nat)}
      (idle : services.relays process = .idle)
      (free : services.relayLock.tryLock (process, connection) = some taken) :
      RelayEffect services process (.acquire connection now)
        { services.proceed process (.locked ⟨services.batches, connection, now, []⟩) with
          relayLock := taken
          batches := services.batches + 1 }
  | reads {batch : RelayBatch} {action : RelayAction}
      (phase : services.relays process = .locked batch) :
      RelayEffect services process action
        (services.proceed process (.relaying batch (services.db.getPending 100)))
  | pushes {batch : RelayBatch} {entry : TasksOutboxModel} {rest : List TasksOutboxModel}
      {action : RelayAction} (time : String)
      (phase : services.relays process = .relaying batch (entry :: rest)) :
      RelayEffect services process action (services.pushEntry process batch entry rest time)
  | marks {batch : RelayBatch} {entry : TasksOutboxModel} {rest : List TasksOutboxModel}
      {action : RelayAction} (phase : services.relays process = .pushed batch entry rest) :
      RelayEffect services process action (services.writeRow process batch entry.outboxId
        (.mark entry.outboxId batch.now) rest)
  | counts {batch : RelayBatch} {entry : TasksOutboxModel} {error : String}
      {rest : List TasksOutboxModel} {action : RelayAction}
      (phase : services.relays process = .failed batch entry error rest) :
      RelayEffect services process action (services.writeRow process batch entry.outboxId
        (.count entry.outboxId error) rest)
  | fails {batch : RelayBatch} {entry : TasksOutboxModel} {rest : List TasksOutboxModel}
      {action : RelayAction} (error : String)
      (phase : services.relays process = .relaying batch (entry :: rest) ∨
        services.relays process = .pushed batch entry rest) :
      RelayEffect services process action
        (services.proceed process (.failed batch entry error rest))
  | leaves {batch : RelayBatch} {action : RelayAction}
      (trying : (services.relays process).trying = some batch) :
      RelayEffect services process action (services.proceed process (.leaving batch))
  | aborts {batch : RelayBatch} {action : RelayAction}
      (trying : (services.relays process).trying = some batch) :
      RelayEffect services process action
        (services.rollBack process (.aborted { batch with writes := [] }))
  | commits {batch : RelayBatch} {time : String} {connection : Nat}
      (phase : services.relays process = .relaying batch []) :
      RelayEffect services process (.perform time connection)
        (services.commitBatch process batch true (.committed { batch with writes := [] }))
  | releases {batch : RelayBatch} {time : String} {connection : Nat}
      (phase : services.relays process = .committed batch) :
      RelayEffect services process (.perform time connection)
        (services.release process connection batch)
  | releasesOwn {batch : RelayBatch} {time : String} {connection : Nat}
      (phase : services.relays process = .leaving batch) :
      RelayEffect services process (.perform time connection)
        (services.release process batch.connection batch)
  | closesLocked {batch : RelayBatch} {action : RelayAction}
      (phase : ((services.relays process = .committed batch ∨
          services.relays process = .leaving batch) ∧
            ((∃ error, action = .raise error) ∨ action = .refuse)) ∨
        services.relays process = .aborted batch ∧ ((∃ time connection,
          action = .perform time connection) ∨ (∃ error, action = .raise error) ∨
            action = .refuse)) :
      RelayEffect services process action (services.rollBack process .idle)
  | finishes {batch : RelayBatch} {time : String} {connection : Nat}
      (phase : services.relays process = .unlocked batch) :
      RelayEffect services process (.perform time connection)
        (services.commitBatch process batch false .idle)
  | closes {batch : RelayBatch} {action : RelayAction}
      (phase : services.relays process = .unlocked batch) :
      RelayEffect services process action (services.rollBack process .idle)
  | crashes : RelayEffect services process .crash (services.crash process)

namespace Services

variable (services : Services) (process : Nat)

theorem perform_effect (time : String) (connection : Nat) :
    RelayEffect services process (.perform time connection)
      (services.perform process time connection) := by
  unfold perform
  split
  · rename_i phase
    exact .stays _ (.inl (by rw [phase]; rfl))
  · rename_i phase
    exact .reads phase
  · rename_i phase
    exact .pushes time phase
  · rename_i phase
    exact .commits phase
  · rename_i phase
    split
    · exact .marks phase
    · exact .stays _ (.inl (by rw [phase]; rfl))
  · rename_i phase
    split
    · split
      · exact .counts phase
      · exact .aborts (by rw [phase]; rfl)
    · exact .stays _ (.inl (by rw [phase]; rfl))
  · rename_i phase
    exact .releases phase
  · rename_i phase
    exact .releasesOwn phase
  · rename_i phase
    exact .closesLocked (.inr ⟨phase, .inl ⟨time, connection, rfl⟩⟩)
  · rename_i phase
    exact .finishes phase

theorem raise_effect (error : Option String) :
    RelayEffect services process (.raise error) (services.raise process error) := by
  unfold raise
  cases phase : services.relays process with
  | idle => exact .stays _ (.inl (by rw [phase]; rfl))
  | locked batch => exact .leaves (by rw [phase]; rfl)
  | relaying batch entries =>
    cases entries with
    | nil => exact .leaves (by rw [phase]; rfl)
    | cons entry rest =>
      cases error with
      | none => exact .leaves (by rw [phase]; rfl)
      | some text => exact .fails text (.inl phase)
  | pushed batch entry rest =>
    cases error with
    | none => exact .leaves (by rw [phase]; rfl)
    | some text => exact .fails text (.inr phase)
  | failed batch entry text rest => exact .leaves (by rw [phase]; rfl)
  | committed batch => exact .closesLocked (.inl ⟨.inl phase, .inl ⟨error, rfl⟩⟩)
  | leaving batch => exact .closesLocked (.inl ⟨.inr phase, .inl ⟨error, rfl⟩⟩)
  | aborted batch => exact .closesLocked (.inr ⟨phase, .inr (.inl ⟨error, rfl⟩)⟩)
  | unlocked batch => exact .closes phase

theorem refuse_effect : RelayEffect services process .refuse (services.refuse process) := by
  unfold refuse
  cases phase : services.relays process with
  | idle => exact .stays _ (.inl (by rw [phase]; rfl))
  | locked batch => exact .aborts (by rw [phase]; rfl)
  | relaying batch entries =>
    cases entries with
    | nil => exact .aborts (by rw [phase]; rfl)
    | cons entry rest =>
      exact .stays _ (.inl (by rw [phase]; rfl))
  | pushed batch entry rest => exact .aborts (by rw [phase]; rfl)
  | failed batch entry text rest => exact .aborts (by rw [phase]; rfl)
  | committed batch => exact .closesLocked (.inl ⟨.inl phase, .inr rfl⟩)
  | leaving batch => exact .closesLocked (.inl ⟨.inr phase, .inr rfl⟩)
  | aborted batch => exact .closesLocked (.inr ⟨phase, .inr (.inr rfl)⟩)
  | unlocked batch => exact .closes phase

/-- Every step of a relay process is one of these. -/
theorem relayStep_effect (action : RelayAction) :
    RelayEffect services process action (services.relayStep process action) := by
  cases action with
  | acquire connection now =>
    unfold relayStep
    dsimp only
    split
    · rename_i idle
      unfold acquire
      split
      · exact .stays _ (.inr ⟨_, _, rfl⟩)
      · rename_i taken free
        exact .acquires idle free
    · exact .stays _ (.inr ⟨_, _, rfl⟩)
  | perform time connection => exact services.perform_effect process time connection
  | raise error => exact services.raise_effect process error
  | refuse => exact services.refuse_effect process
  | crash => exact .crashes

end Services

theorem RelayEffect.relays_of_ne {services next : Services} {process other : Nat}
    {action : RelayAction} (effect : RelayEffect services process action next)
    (different : other ≠ process) : next.relays other = services.relays other := by
  cases effect with
  | stays => rfl
  | _ => exact Function.update_of_ne different _ _

/-! ### A step of another service -/

/-- Nothing happened to the relays. -/
structure RelaysKept (services next : Services) : Prop where
  relayLock : next.relayLock = services.relayLock
  rowLocks : next.rowLocks = services.rowLocks
  relays : next.relays = services.relays
  batches : next.batches = services.batches
  pushes : next.pushes = services.pushes
  commits : next.commits = services.commits

namespace RelaysKept

variable (loads : String → Option Json) (services : Services)

theorem refl : RelaysKept services services := ⟨rfl, rfl, rfl, rfl, rfl, rfl⟩

theorem workerStep (workerId : String) (action : WorkerAction) :
    RelaysKept services (services.workerStep loads workerId action) := by
  unfold Services.workerStep
  split
  · split
    · exact .refl services
    · exact ⟨rfl, rfl, rfl, rfl, rfl, rfl⟩
  · split <;> exact ⟨rfl, rfl, rfl, rfl, rfl, rfl⟩
  · exact ⟨rfl, rfl, rfl, rfl, rfl, rfl⟩
  · exact ⟨rfl, rfl, rfl, rfl, rfl, rfl⟩
  · exact ⟨rfl, rfl, rfl, rfl, rfl, rfl⟩
  · exact .refl services

theorem transferStep (index : Nat) (action : TransferAction) :
    RelaysKept services (services.transferStep index action) := by
  unfold Services.transferStep
  split
  · exact ⟨rfl, rfl, rfl, rfl, rfl, rfl⟩
  · split
    · exact .refl services
    · exact ⟨rfl, rfl, rfl, rfl, rfl, rfl⟩
  · split
    · exact ⟨rfl, rfl, rfl, rfl, rfl, rfl⟩
    · exact .refl services
  · exact ⟨rfl, rfl, rfl, rfl, rfl, rfl⟩
  · exact ⟨rfl, rfl, rfl, rfl, rfl, rfl⟩
  · exact .refl services

/-- Every event but a step of a relay process leaves the relays alone. -/
theorem step (registry : WorkflowRegistry) (event : ServiceEvent)
    (other : ∀ process action, event ≠ .relay process action) :
    RelaysKept services (services.step registry loads event) := by
  cases event with
  | relay process action => exact absurd rfl (other process action)
  | worker workerId action => exact workerStep loads services workerId action
  | transfer index action => exact transferStep services index action
  | dropFromDlq payload => exact ⟨rfl, rfl, rfl, rfl, rfl, rfl⟩
  | operation made draws => exact ⟨rfl, rfl, rfl, rfl, rfl, rfl⟩
  | flush => exact ⟨rfl, rfl, rfl, rfl, rfl, rfl⟩

end RelaysKept

/-- Every event but a step of a relay process adds pending rows to the outbox and changes none. -/
theorem Services.step_schedules (registry : WorkflowRegistry) (loads : String → Option Json)
    (services : Services) (event : ServiceEvent)
    (other : ∀ process action, event ≠ .relay process action) :
    Schedules services.db.contents (services.step registry loads event).db.contents := by
  cases event with
  | relay process action => exact absurd rfl (other process action)
  | worker workerId action =>
    show Schedules _ (services.workerStep loads workerId action).db.contents
    unfold Services.workerStep
    split
    · split <;> exact .refl _
    · split
      · exact .refl _
      · exact .refl _
      · exact .refl _
      · rename_i processed
        exact processTask_schedules processed
    all_goals exact .refl _
  | transfer index action =>
    show Schedules _ (services.transferStep index action).db.contents
    unfold Services.transferStep
    split
    · exact .refl _
    · split <;> exact .refl _
    · split <;> exact .refl _
    · exact .refl _
    · exact .refl _
    · exact .refl _
  | dropFromDlq payload => exact .refl _
  | operation made draws => exact Operation.step_schedules registry services.db (made, draws)
  | flush => exact .refl _

end InsuranceOps
