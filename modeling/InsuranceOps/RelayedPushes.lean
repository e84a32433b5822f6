/-
This file proves what a mark in the outbox stands for. The push of an entry and
the mark of its row go to two stores, and a batch may end between any two
statements; yet a row is marked only behind its push, so every committed mark
has one, to the queue its time asks for. A row is pushed again only if some
batch that pushed it did not get as far as committing its mark at the end of
its try block.
-/

import InsuranceOps.RelayLock

namespace InsuranceOps

open AdvisoryLock

/-! ### What is asked -/

/-- The push is one of this entry: to the ready queue or the delayed set, as the time of the entry
and the `now` of the batch decide. -/
def RelayPush.Of (push : RelayPush) (entry : TasksOutboxModel) : Prop :=
  push.outboxId = entry.outboxId ∧ ∃ time, push.command = entry.push time push.now

namespace Services

variable (services : Services)

/-- Every row that is marked was pushed, by a batch with the `now` of the mark. -/
def MarksPushed : Prop :=
  ∀ row ∈ services.db.contents.tasksOutbox, ∀ now, row.enqueuedAt = some now →
    ∃ push ∈ services.pushes, push.now = now ∧ push.Of row

/-- The batch of a push committed. -/
def Commits (push : RelayPush) : Prop :=
  ∃ commit ∈ services.commits, commit.batch = push.batch

/-- The batch of a push committed the mark of the row at the end of its try block. -/
def Settles (push : RelayPush) : Prop :=
  ∃ commit ∈ services.commits, commit.batch = push.batch ∧ commit.atEnd = true ∧
    ∃ now, .mark push.outboxId now ∈ commit.writes

/-- A row is pushed more than once only if one of its pushes missed something. -/
def RepushedOnlyIf (misses : RelayPush → Prop) : Prop :=
  ∀ outboxId, 1 < services.pushes.countP (fun push => push.outboxId = outboxId) →
    ∃ push ∈ services.pushes, push.outboxId = outboxId ∧ misses push

/-- A row is pushed more than once only if some batch that pushed it did not commit. -/
def RepushesUncommitted : Prop := services.RepushedOnlyIf fun push => ¬services.Commits push

/-- A row is pushed more than once only if some batch that pushed it did not commit its mark at the
end of its try block. -/
def RepushesUnsettled : Prop := services.RepushedOnlyIf fun push => ¬services.Settles push

end Services

/-! ### Entries are stored rows -/

namespace RelayPhase

/-- The entries a relay process has not pushed yet. -/
def rest : RelayPhase → List TasksOutboxModel
  | .relaying _ rest | .pushed _ _ rest | .failed _ _ _ rest => rest
  | .idle | .locked _ | .committed _ | .leaving _ | .aborted _ | .unlocked _ => []

/-- The entry a relay process works on. -/
def current : RelayPhase → Option TasksOutboxModel
  | .pushed _ entry _ | .failed _ entry _ _ => some entry
  | .idle | .locked _ | .relaying _ _ | .committed _ | .leaving _ | .aborted _ | .unlocked _ =>
    none

/-- The batch of a relay process whose transaction is open or may have to be. -/
def batch : RelayPhase → Option RelayBatch
  | .idle => none
  | .locked batch | .relaying batch _ | .pushed batch _ _ | .failed batch _ _ _
  | .committed batch | .leaving batch | .aborted batch | .unlocked batch => some batch

end RelayPhase

/-- A batch has pushed a row. -/
def RelayBatch.HasPushed (services : Services) (batch : RelayBatch) (outboxId : Nat)
    (now : Timestamp) : Prop :=
  ∃ push ∈ services.pushes, push.batch = batch.number ∧ push.outboxId = outboxId ∧ push.now = now

/-- What holds of a relay process: its entries are stored rows, and it has pushed what it has marked
and the entry it is about to mark. -/
structure PhaseSound (services : Services) (phase : RelayPhase) : Prop where
  entries : ∀ entry, phase.current = some entry ∨ entry ∈ phase.rest →
    ∃ row ∈ services.db.contents.tasksOutbox, entry.SameEntry row
  marked : ∀ batch, phase.batch = some batch → ∀ outboxId now,
    .mark outboxId now ∈ batch.writes → batch.HasPushed services outboxId now
  pushed : ∀ batch entry rest, phase = .pushed batch entry rest →
    batch.HasPushed services entry.outboxId batch.now

/-- Every push is one of a stored row, every mark has its push, and every relay process is sound. -/
structure PushedFirst (services : Services) : Prop where
  stored : ∀ push ∈ services.pushes, ∃ row ∈ services.db.contents.tasksOutbox, push.Of row
  marks : ∀ row ∈ services.db.contents.tasksOutbox, ∀ now, row.enqueuedAt = some now →
    ∃ push ∈ services.pushes, push.outboxId = row.outboxId ∧ push.now = now
  phases : ∀ process, PhaseSound services (services.relays process)

/-- Every entry is still stored, and no push is forgotten. -/
structure Remembers (services next : Services) : Prop where
  entries : ∀ row ∈ services.db.contents.tasksOutbox,
    ∃ later ∈ next.db.contents.tasksOutbox, row.SameEntry later
  pushes : ∀ push ∈ services.pushes, push ∈ next.pushes

namespace Remembers

variable {services next : Services}

theorem of_same (db : next.db = services.db) (pushes : next.pushes = services.pushes) :
    Remembers services next :=
  ⟨fun row stored => ⟨row, db ▸ stored, .refl row⟩, fun _ member => pushes ▸ member⟩

theorem of_writes (writes : List OutboxWrite) (db : next.db = services.db.applyWrites writes)
    (pushes : next.pushes = services.pushes) : Remembers services next where
  entries row stored :=
    ⟨_, db ▸ Database.mem_applyWrites.mpr ⟨row, stored, rfl⟩,
      (OutboxWrite.changes_sameEntry row writes).symm⟩
  pushes _ member := pushes ▸ member

theorem of_schedules (schedules : Schedules services.db.contents next.db.contents)
    (pushes : next.pushes = services.pushes) : Remembers services next :=
  ⟨fun row stored => ⟨row, schedules.kept row stored, .refl row⟩,
    fun _ member => pushes ▸ member⟩

theorem hasPushed (remembers : Remembers services next) {batch : RelayBatch} {outboxId : Nat}
    {now : Timestamp} (pushed : batch.HasPushed services outboxId now) :
    batch.HasPushed next outboxId now :=
  pushed.imp fun push ⟨member, same⟩ => ⟨remembers.pushes push member, same⟩

theorem phaseSound (remembers : Remembers services next) {phase : RelayPhase}
    (sound : PhaseSound services phase) : PhaseSound next phase where
  entries entry member := by
    obtain ⟨row, stored, same⟩ := sound.entries entry member
    obtain ⟨later, laterStored, sameLater⟩ := remembers.entries row stored
    exact ⟨later, laterStored, same.trans sameLater⟩
  marked batch found outboxId now member :=
    remembers.hasPushed (sound.marked batch found outboxId now member)
  pushed batch entry rest same := remembers.hasPushed (sound.pushed batch entry rest same)

theorem stored (remembers : Remembers services next) {push : RelayPush}
    (found : ∃ row ∈ services.db.contents.tasksOutbox, push.Of row) :
    ∃ row ∈ next.db.contents.tasksOutbox, push.Of row := by
  obtain ⟨row, stored, outboxId, time, command⟩ := found
  obtain ⟨later, laterStored, same⟩ := remembers.entries row stored
  exact ⟨later, laterStored, outboxId.trans same.task.outboxId, time,
    command.trans (same.push time push.now)⟩

end Remembers

/-! ### A step of a relay process -/

section Phases

variable {services next : Services} {process : Nat} {action : RelayAction}

theorem RelayEffect.remembers (effect : RelayEffect services process action next) :
    Remembers services next := by
  cases effect with
  | pushes => exact ⟨fun row stored => ⟨row, stored, .refl row⟩,
      fun _ member => List.mem_append_left _ member⟩
  | commits => exact .of_writes _ rfl rfl
  | finishes => exact .of_writes _ rfl rfl
  | _ => exact .of_same rfl rfl

theorem phaseSound_idle (services : Services) : PhaseSound services .idle where
  entries _ member := by
    rcases member with current | rest
    · cases current
    · cases rest
  marked _ found := by cases found
  pushed _ _ _ same := by cases same

/-- A process that has no entry left and has written no more than before. -/
theorem PhaseSound.of_writes {phase later : RelayPhase} {batch after : RelayBatch}
    (sound : PhaseSound services phase) (found : phase.batch = some batch)
    (foundLater : later.batch = some after) (number : after.number = batch.number)
    (writes : ∀ write ∈ after.writes, write ∈ batch.writes)
    (entries : ∀ entry, later.current = some entry ∨ entry ∈ later.rest →
      phase.current = some entry ∨ entry ∈ phase.rest)
    (pushed : ∀ other entry rest, later ≠ .pushed other entry rest) :
    PhaseSound services later where
  entries entry member := sound.entries entry (entries entry member)
  marked other same outboxId now member := by
    rw [foundLater] at same
    cases same
    obtain ⟨push, pushedBefore, ofBatch, rest⟩ :=
      sound.marked batch found outboxId now (writes _ member)
    exact ⟨push, pushedBefore, ofBatch.trans number.symm, rest⟩
  pushed other entry rest same := absurd same (pushed other entry rest)

theorem RelayPhase.batch_of_trying {phase : RelayPhase} {batch : RelayBatch}
    (trying : phase.trying = some batch) : phase.batch = some batch := by
  cases phase <;> first | exact trying | cases trying

theorem PhaseSound.of_update {phase : RelayPhase} {relays : Nat → RelayPhase}
    (sound : PhaseSound services phase) :
    PhaseSound services (Function.update relays process phase process) := by
  rwa [Function.update_self]

/-- Whatever a relay process does, it stays sound. -/
theorem RelayEffect.phaseSound (effect : RelayEffect services process action next)
    (sound : PhaseSound services (services.relays process)) :
    PhaseSound next (next.relays process) := by
  have sound := effect.remembers.phaseSound sound
  cases effect with
  | stays => exact sound
  | acquires =>
    refine .of_update ⟨fun _ member => ?_, fun _ found _ _ member => ?_, nofun⟩
    · rcases member with current | rest
      · cases current
      · cases rest
    · cases found
      cases member
  | @reads batch _ phase =>
    rw [phase] at sound
    refine .of_update ⟨fun entry member => ?_, sound.marked, nofun⟩
    rcases member with current | rest
    · cases current
    · exact ⟨entry, (mem_getPending rest).1, .refl entry⟩
  | @pushes batch entry rest _ time phase =>
    rw [phase] at sound
    refine .of_update ⟨fun other member => sound.entries other (.inr ?_), sound.marked, ?_⟩
    · rcases member with current | rest
      · cases current
        exact List.mem_cons_self
      · exact List.mem_cons_of_mem _ rest
    · intro other found remaining same
      cases same
      exact ⟨_, List.mem_append_right _ List.mem_cons_self, rfl, rfl, rfl⟩
  | @marks batch entry rest _ phase =>
    rw [phase] at sound
    refine .of_update ⟨fun other member => sound.entries other (.inr ?_), ?_, nofun⟩
    · rcases member with current | rest
      · cases current
      · exact rest
    · intro after found outboxId now member
      cases found
      rcases List.mem_append.mp member with old | new
      · exact sound.marked batch rfl outboxId now old
      · cases List.mem_singleton.mp new
        exact sound.pushed batch entry rest rfl
  | @counts batch entry error rest _ phase =>
    rw [phase] at sound
    refine .of_update ⟨fun other member => sound.entries other (.inr ?_), ?_, nofun⟩
    · rcases member with current | rest
      · cases current
      · exact rest
    · intro after found outboxId now member
      cases found
      rcases List.mem_append.mp member with old | new
      · exact sound.marked batch rfl outboxId now old
      · cases List.mem_singleton.mp new
  | @fails batch entry rest _ error phase =>
    refine .of_update ?_
    rcases phase with phase | phase
    · rw [phase] at sound
      refine sound.of_writes rfl rfl rfl (fun _ => id) (fun other member => .inr ?_) nofun
      rcases member with current | rest
      · cases current
        exact List.mem_cons_self
      · exact List.mem_cons_of_mem _ rest
    · rw [phase] at sound
      exact sound.of_writes rfl rfl rfl (fun _ => id) (fun _ => id) nofun
  | leaves trying =>
    refine .of_update (sound.of_writes (RelayPhase.batch_of_trying trying) rfl rfl (fun _ => id)
      (fun _ member => ?_) nofun)
    rcases member with current | rest
    · cases current
    · cases rest
  | aborts trying =>
    refine .of_update (sound.of_writes (RelayPhase.batch_of_trying trying) rfl rfl
      (fun _ written => absurd written List.not_mem_nil) (fun _ member => ?_) nofun)
    rcases member with current | rest
    · cases current
    · cases rest
  | @commits batch _ _ phase =>
    rw [phase] at sound
    refine .of_update (sound.of_writes rfl rfl rfl
      (fun _ written => absurd written List.not_mem_nil) (fun _ member => ?_) nofun)
    rcases member with current | rest
    · cases current
    · cases rest
  | releases phase =>
    rw [phase] at sound
    exact .of_update (sound.of_writes rfl rfl rfl (fun _ => id) (fun _ => id) nofun)
  | releasesOwn phase =>
    rw [phase] at sound
    exact .of_update (sound.of_writes rfl rfl rfl (fun _ => id) (fun _ => id) nofun)
  | closesLocked => exact .of_update (phaseSound_idle _)
  | finishes => exact .of_update (phaseSound_idle _)
  | closes => exact .of_update (phaseSound_idle _)
  | crashes => exact .of_update (phaseSound_idle _)

/-- Every push is one of a stored row, also the one a relay process has just made. -/
theorem RelayEffect.stored (effect : RelayEffect services process action next)
    (sound : PushedFirst services) :
    ∀ push ∈ next.pushes, ∃ row ∈ next.db.contents.tasksOutbox, push.Of row := by
  intro push member
  have remembers := effect.remembers
  cases effect with
  | @pushes batch entry rest _ time phase =>
    rcases List.mem_append.mp member with old | new
    · exact sound.stored push old
    · obtain ⟨row, stored, same⟩ := (sound.phases process).entries entry
        (.inr (by rw [phase]; exact List.mem_cons_self))
      rw [List.mem_singleton.mp new]
      exact ⟨row, stored, same.task.outboxId, time, same.push time batch.now⟩
  | _ => exact remembers.stored (sound.stored push member)

/-- The marks a batch commits have their pushes. -/
theorem PushedFirst.marks_applyWrites (sound : PushedFirst services) {batch : RelayBatch}
    (found : (services.relays process).batch = some batch) :
    ∀ row ∈ (services.db.applyWrites batch.writes).contents.tasksOutbox, ∀ now,
      row.enqueuedAt = some now →
        ∃ push ∈ services.pushes, push.outboxId = row.outboxId ∧ push.now = now := by
  intro row stored now marked
  obtain ⟨old, oldStored, rfl⟩ := Database.mem_applyWrites.mp stored
  rw [(OutboxWrite.changes_sameEntry old batch.writes).task.outboxId]
  rcases OutboxWrite.changes_enqueuedAt old batch.writes with same | ⟨written, member, later⟩
  · exact sound.marks old oldStored now (same.symm.trans marked)
  · rw [later] at marked
    cases marked
    obtain ⟨push, pushed, -, same⟩ := (sound.phases process).marked batch found _ _ member
    exact ⟨push, pushed, same⟩

theorem RelayEffect.marksKept (effect : RelayEffect services process action next)
    (sound : PushedFirst services) :
    ∀ row ∈ next.db.contents.tasksOutbox, ∀ now, row.enqueuedAt = some now →
      ∃ push ∈ next.pushes, push.outboxId = row.outboxId ∧ push.now = now := by
  cases effect with
  | pushes =>
    intro row stored now marked
    obtain ⟨push, pushed, same⟩ := sound.marks row stored now marked
    exact ⟨push, List.mem_append_left _ pushed, same⟩
  | commits phase => exact sound.marks_applyWrites (by rw [phase]; rfl)
  | finishes phase => exact sound.marks_applyWrites (by rw [phase]; rfl)
  | _ => exact sound.marks

theorem RelayEffect.pushedFirst (effect : RelayEffect services process action next)
    (sound : PushedFirst services) : PushedFirst next where
  stored := effect.stored sound
  marks := effect.marksKept sound
  phases other := by
    by_cases same : other = process
    · subst same
      exact effect.phaseSound (sound.phases other)
    · rw [effect.relays_of_ne same]
      exact effect.remembers.phaseSound (sound.phases other)

/-- What no relay process did leaves the marks and their pushes. -/
theorem RelaysKept.pushedFirst (kept : RelaysKept services next)
    (schedules : Schedules services.db.contents next.db.contents)
    (sound : PushedFirst services) : PushedFirst next where
  stored push member :=
    (Remembers.of_schedules schedules kept.pushes).stored
      (sound.stored push (kept.pushes ▸ member))
  marks row stored now marked := by
    rw [kept.pushes]
    rcases schedules.pending row stored with old | pending
    · exact sound.marks row old now marked
    · rw [pending] at marked
      cases marked
  phases process := by
    rw [kept.relays]
    exact (Remembers.of_schedules schedules kept.pushes).phaseSound (sound.phases process)

end Phases

/-- The push behind a mark is one of the marked row. -/
theorem PushedFirst.marksPushed {services : Services} (sound : PushedFirst services) :
    services.MarksPushed := by
  intro row stored now marked
  obtain ⟨push, pushed, outboxId, sameNow⟩ := sound.marks row stored now marked
  obtain ⟨entry, entryStored, of⟩ := sound.stored push pushed
  rw [Database.outboxRow_unique entryStored stored (of.1.symm.trans outboxId)] at of
  exact ⟨push, pushed, sameNow, of⟩

/-! ### A settled row is not pushed again -/

/-- What holds of a batch in its try block: it has not committed there, it has pushed none of the
entries it has left and none of them twice, and no row it pushes was settled by a batch before. -/
structure BatchOpen (services : Services) (phase : RelayPhase) (batch : RelayBatch) : Prop where
  begun : batch.number < services.batches
  unended : ∀ commit ∈ services.commits, commit.atEnd = true → commit.batch ≠ batch.number
  unstarted : phase = .locked batch → ∀ push ∈ services.pushes, push.batch ≠ batch.number
  distinct : (phase.rest.map fun entry => entry.outboxId).Nodup
  unpushed : ∀ entry ∈ phase.rest, ∀ push ∈ services.pushes, push.batch = batch.number →
    push.outboxId ≠ entry.outboxId
  unsettled : ∀ settled ∈ services.pushes, services.Settles settled →
    (∀ entry ∈ phase.rest, entry.outboxId ≠ settled.outboxId) ∧
      ∀ own ∈ services.pushes, own.batch = batch.number → own.outboxId ≠ settled.outboxId

/-- No batch pushes a row twice, no two pushes settle the same row, and a settled row is marked. -/
structure SettledOnce (services : Services) : Prop where
  pushed : ∀ push ∈ services.pushes, push.batch < services.batches
  ended : ∀ commit ∈ services.commits, commit.atEnd = true → commit.batch < services.batches
  once : services.pushes.Pairwise fun first second =>
    first.batch = second.batch → first.outboxId ≠ second.outboxId
  settled : services.pushes.Pairwise fun first second =>
    first.outboxId = second.outboxId → ¬(services.Settles first ∧ services.Settles second)
  marked : ∀ push ∈ services.pushes, services.Settles push →
    ∀ row ∈ services.db.contents.tasksOutbox, row.outboxId = push.outboxId → row.enqueuedAt ≠ none

/-- Nothing was pushed, and no batch committed at the end of its try block. -/
structure SameSettled (services next : Services) : Prop where
  pushes : next.pushes = services.pushes
  ended : ∀ commit, commit.atEnd = true → (commit ∈ next.commits ↔ commit ∈ services.commits)
  begun : services.batches ≤ next.batches

section Settled

variable {services next : Services} {process : Nat} {action : RelayAction} {phase : RelayPhase}
  {batch : RelayBatch}

theorem SameSettled.of_same (pushes : next.pushes = services.pushes)
    (commits : next.commits = services.commits) (begun : services.batches ≤ next.batches) :
    SameSettled services next := ⟨pushes, fun _ _ => by rw [commits], begun⟩

theorem SameSettled.settles_iff (same : SameSettled services next) (push : RelayPush) :
    next.Settles push ↔ services.Settles push := by
  refine exists_congr fun commit => ?_
  constructor
  · rintro ⟨stored, ofBatch, atEnd, member⟩
    exact ⟨(same.ended commit atEnd).mp stored, ofBatch, atEnd, member⟩
  · rintro ⟨stored, ofBatch, atEnd, member⟩
    exact ⟨(same.ended commit atEnd).mpr stored, ofBatch, atEnd, member⟩

theorem BatchOpen.mono (isOpen : BatchOpen services phase batch)
    (same : SameSettled services next) : BatchOpen next phase batch where
  begun := isOpen.begun.trans_le same.begun
  unended commit stored atEnd := isOpen.unended commit ((same.ended commit atEnd).mp stored) atEnd
  unstarted locked push member := isOpen.unstarted locked push (same.pushes ▸ member)
  distinct := isOpen.distinct
  unpushed entry member push pushed := isOpen.unpushed entry member push (same.pushes ▸ pushed)
  unsettled settled member settles := by
    rw [same.pushes] at member ⊢
    exact isOpen.unsettled settled member ((same.settles_iff settled).mp settles)

/-- A batch that goes on with some of the entries it had left. -/
theorem BatchOpen.of_rest {later : RelayPhase} {after : RelayBatch}
    (isOpen : BatchOpen services phase batch) (number : after.number = batch.number)
    (rest : List.Sublist later.rest phase.rest) (started : later ≠ .locked after) :
    BatchOpen services later after where
  begun := number ▸ isOpen.begun
  unended commit stored atEnd := number ▸ isOpen.unended commit stored atEnd
  unstarted locked := absurd locked started
  distinct := isOpen.distinct.sublist (rest.map _)
  unpushed entry member push pushed own :=
    isOpen.unpushed entry (rest.mem member) push pushed (own.trans number)
  unsettled settled member settles := by
    obtain ⟨entries, own⟩ := isOpen.unsettled settled member settles
    exact ⟨fun entry left => entries entry (rest.mem left),
      fun push pushed ofBatch => own push pushed (ofBatch.trans number)⟩

/-- A batch whose number is new has neither pushed nor committed. -/
theorem SettledOnce.batchOpen_new (once : SettledOnce services) (connection : Nat)
    (now : Timestamp) (begun : next.batches = services.batches + 1)
    (pushes : next.pushes = services.pushes) (commits : next.commits = services.commits) :
    BatchOpen next (.locked ⟨services.batches, connection, now, []⟩)
      ⟨services.batches, connection, now, []⟩ where
  begun := by
    rw [begun]
    exact Nat.lt_succ_self _
  unended commit stored atEnd := (once.ended commit (commits ▸ stored) atEnd).ne
  unstarted _ push member := (once.pushed push (pushes ▸ member)).ne
  distinct := List.nodup_nil
  unpushed entry member := absurd member List.not_mem_nil
  unsettled _ _ _ := ⟨fun entry member => absurd member List.not_mem_nil,
    fun push member own => absurd own (once.pushed push (pushes ▸ member)).ne⟩

/-- The rows a batch reads are pending, so none of them is settled. -/
theorem SettledOnce.batchOpen_read (once : SettledOnce services)
    (isOpen : BatchOpen services (.locked batch) batch) :
    BatchOpen services (.relaying batch (services.db.getPending 100)) batch where
  begun := isOpen.begun
  unended := isOpen.unended
  unstarted := nofun
  distinct := getPending_distinct services.db 100
  unpushed entry _ push pushed own := absurd own (isOpen.unstarted rfl push pushed)
  unsettled settled member settles := by
    refine ⟨fun entry pending same => ?_, fun own pushed ofBatch =>
      absurd ofBatch (isOpen.unstarted rfl own pushed)⟩
    obtain ⟨stored, unmarked⟩ := mem_getPending pending
    exact once.marked settled member settles entry stored same unmarked

/-- A push has not settled its row: its batch has yet to commit. -/
theorem BatchOpen.not_settles (isOpen : BatchOpen services phase batch) {push : RelayPush}
    (own : push.batch = batch.number) : ¬services.Settles push := by
  rintro ⟨commit, stored, ofBatch, atEnd, -⟩
  exact isOpen.unended commit stored atEnd (ofBatch.trans own)

theorem BatchOpen.push {entry : TasksOutboxModel} {rest : List TasksOutboxModel}
    (isOpen : BatchOpen services (.relaying batch (entry :: rest)) batch) (time : String) :
    BatchOpen (services.pushEntry process batch entry rest time) (.pushed batch entry rest)
      batch where
  begun := isOpen.begun
  unended := isOpen.unended
  unstarted := nofun
  distinct := (List.nodup_cons.mp isOpen.distinct).2
  unpushed other left push pushed own := by
    rcases List.mem_append.mp pushed with old | new
    · exact isOpen.unpushed other (List.mem_cons_of_mem _ left) push old own
    · rw [List.mem_singleton.mp new]
      intro same
      exact (List.nodup_cons.mp isOpen.distinct).1 (List.mem_map.mpr ⟨other, left, same.symm⟩)
  unsettled settled member settles := by
    rcases List.mem_append.mp member with old | new
    · obtain ⟨entries, own⟩ := isOpen.unsettled settled old settles
      refine ⟨fun other left => entries other (List.mem_cons_of_mem _ left),
        fun push pushed ofBatch => ?_⟩
      rcases List.mem_append.mp pushed with before | now
      · exact own push before ofBatch
      · rw [List.mem_singleton.mp now]
        exact entries entry List.mem_cons_self
    · rw [List.mem_singleton.mp new] at settles
      exact absurd settles (isOpen.not_settles rfl)

theorem SettledOnce.push {entry : TasksOutboxModel} {rest : List TasksOutboxModel}
    (once : SettledOnce services)
    (isOpen : BatchOpen services (.relaying batch (entry :: rest)) batch) (time : String) :
    SettledOnce (services.pushEntry process batch entry rest time) where
  pushed push member := by
    rcases List.mem_append.mp member with old | new
    · exact once.pushed push old
    · rw [List.mem_singleton.mp new]
      exact isOpen.begun
  ended := once.ended
  once := by
    refine List.pairwise_append.mpr ⟨once.once, List.pairwise_singleton _ _,
      fun old stored new member => ?_⟩
    rw [List.mem_singleton.mp member]
    exact isOpen.unpushed entry List.mem_cons_self old stored
  settled := by
    refine List.pairwise_append.mpr ⟨once.settled, List.pairwise_singleton _ _,
      fun old _ new member _ both => ?_⟩
    rw [List.mem_singleton.mp member] at both
    exact isOpen.not_settles rfl both.2
  marked push member settles := by
    rcases List.mem_append.mp member with old | new
    · exact once.marked push old settles
    · rw [List.mem_singleton.mp new] at settles
      exact absurd settles (isOpen.not_settles rfl)

/-- What settles its row behind a commit did before, or is a push of the batch whose mark the commit
contains. -/
theorem settles_commitBatch {after : RelayPhase} {push : RelayPush}
    (settles : (services.commitBatch process batch true after).Settles push) :
    services.Settles push ∨ push.batch = batch.number ∧
      ∃ now, .mark push.outboxId now ∈ batch.writes := by
  obtain ⟨commit, stored, ofBatch, atEnd, member⟩ := settles
  rcases List.mem_append.mp stored with old | new
  · exact .inl ⟨commit, old, ofBatch, atEnd, member⟩
  · cases List.mem_singleton.mp new
    exact .inr ⟨ofBatch.symm, member⟩

/-- A row that was marked is marked behind the commit of any writes. -/
theorem marked_applyWrites {writes : List OutboxWrite} {outboxId : Nat}
    (marked : ∀ row ∈ services.db.contents.tasksOutbox, row.outboxId = outboxId →
      row.enqueuedAt ≠ none) :
    ∀ row ∈ (services.db.applyWrites writes).contents.tasksOutbox, row.outboxId = outboxId →
      row.enqueuedAt ≠ none := by
  intro row stored same
  obtain ⟨old, oldStored, rfl⟩ := Database.mem_applyWrites.mp stored
  rw [(OutboxWrite.changes_sameEntry old writes).task.outboxId] at same
  exact OutboxWrite.changes_marked (marked old oldStored same)

/-- The commit at the end of a try block settles rows that were not settled before. -/
theorem SettledOnce.commit (once : SettledOnce services)
    (isOpen : BatchOpen services phase batch) (after : RelayPhase) :
    SettledOnce (services.commitBatch process batch true after) where
  pushed := once.pushed
  ended commit stored atEnd := by
    rcases List.mem_append.mp stored with old | new
    · exact once.ended commit old atEnd
    · rw [List.mem_singleton.mp new]
      exact isOpen.begun
  once := once.once
  settled := by
    refine (once.once.and once.settled).imp_of_mem ?_
    rintro first second firstPushed secondPushed ⟨apart, notBoth⟩ same ⟨one, two⟩
    rcases settles_commitBatch one with firstBefore | ⟨firstOwn, -⟩ <;>
      rcases settles_commitBatch two with secondBefore | ⟨secondOwn, -⟩
    · exact notBoth same ⟨firstBefore, secondBefore⟩
    · exact (isOpen.unsettled first firstPushed firstBefore).2 second secondPushed secondOwn
        same.symm
    · exact (isOpen.unsettled second secondPushed secondBefore).2 first firstPushed firstOwn same
    · exact apart (firstOwn.trans secondOwn.symm) same
  marked push member settles := by
    rcases settles_commitBatch settles with before | ⟨-, now, written⟩
    · exact marked_applyWrites (once.marked push member before)
    · intro row stored same
      obtain ⟨old, -, rfl⟩ := Database.mem_applyWrites.mp stored
      rw [(OutboxWrite.changes_sameEntry old batch.writes).task.outboxId] at same
      rw [← same] at written
      exact OutboxWrite.changes_of_mark written

/-- Where nothing is pushed and no batch commits at its end, marked rows staying marked is all that
is asked. -/
theorem SettledOnce.of_sameSettled (once : SettledOnce services)
    (same : SameSettled services next)
    (marked : ∀ push ∈ services.pushes,
      (∀ row ∈ services.db.contents.tasksOutbox, row.outboxId = push.outboxId →
        row.enqueuedAt ≠ none) →
      ∀ row ∈ next.db.contents.tasksOutbox, row.outboxId = push.outboxId →
        row.enqueuedAt ≠ none) : SettledOnce next where
  pushed push member := (once.pushed push (same.pushes ▸ member)).trans_le same.begun
  ended commit stored atEnd :=
    (once.ended commit ((same.ended commit atEnd).mp stored) atEnd).trans_le same.begun
  once := same.pushes ▸ once.once
  settled := by
    rw [same.pushes]
    refine once.settled.imp fun notBoth ids both => notBoth ids ?_
    exact ⟨(same.settles_iff _).mp both.1, (same.settles_iff _).mp both.2⟩
  marked push member settles := by
    rw [same.pushes] at member
    exact marked push member (once.marked push member ((same.settles_iff push).mp settles))

end Settled

/-! ### Runs of the services -/

/-- The history of the relay: the lock is held by whoever is between lock and unlock, pushes come
before marks, no two settle one row, and the batch in its try block is as it should be. -/
structure RelayHistory (services : Services) : Prop where
  lock : LockHeld services
  pushed : PushedFirst services
  once : SettledOnce services
  batches : ∀ process batch, (services.relays process).trying = some batch →
    BatchOpen services (services.relays process) batch

section Steps

variable {services next : Services} {process : Nat} {action : RelayAction} {batch : RelayBatch}

/-- A process outside its try block neither pushes nor commits at the end of one. -/
theorem RelayEffect.sameSettled (effect : RelayEffect services process action next)
    (outside : (services.relays process).trying = none) : SameSettled services next := by
  cases effect with
  | acquires => exact .of_same rfl rfl (Nat.le_succ _)
  | pushes time phase =>
    rw [phase] at outside
    cases outside
  | commits phase =>
    rw [phase] at outside
    cases outside
  | finishes phase =>
    refine ⟨rfl, fun commit atEnd => ?_, le_refl _⟩
    refine List.mem_append.trans (or_iff_left fun new => ?_)
    rw [List.mem_singleton.mp new] at atEnd
    cases atEnd
  | _ => exact .of_same rfl rfl (le_refl _)

theorem RelayEffect.settledOnce (effect : RelayEffect services process action next)
    (history : RelayHistory services) : SettledOnce next := by
  have quiet := effect.sameSettled
  cases effect with
  | acquires =>
    exact history.once.of_sameSettled (.of_same rfl rfl (Nat.le_succ _)) fun _ _ marked => marked
  | @pushes batch entry rest _ time phase =>
    have isOpen := history.batches process batch (by rw [phase]; rfl)
    rw [phase] at isOpen
    exact history.once.push isOpen time
  | @commits batch _ _ phase =>
    exact history.once.commit (history.batches process batch (by rw [phase]; rfl)) _
  | finishes phase =>
    exact history.once.of_sameSettled (quiet (by rw [phase]; rfl)) fun _ _ => marked_applyWrites
  | _ => exact history.once.of_sameSettled (.of_same rfl rfl (le_refl _)) fun _ _ marked => marked

theorem batchOpen_update {phase : RelayPhase} {relays : Nat → RelayPhase}
    (isOpen : ∀ batch, phase.trying = some batch → BatchOpen services phase batch)
    (trying : (Function.update relays process phase process).trying = some batch) :
    BatchOpen services (Function.update relays process phase process) batch := by
  rw [Function.update_self] at trying ⊢
  exact isOpen batch trying

theorem RelayEffect.begun (effect : RelayEffect services process action next) :
    services.batches ≤ next.batches := by
  cases effect with
  | acquires => exact Nat.le_succ _
  | _ => exact le_refl _

/-- The batch of the process that takes a step. -/
theorem RelayEffect.batchOpen (effect : RelayEffect services process action next)
    (history : RelayHistory services) (trying : (next.relays process).trying = some batch) :
    BatchOpen next (next.relays process) batch := by
  have resumed {phase later : RelayPhase} {before after : RelayBatch}
      (isOpen : BatchOpen services phase before) (number : after.number = before.number)
      (pushes : next.pushes = services.pushes) (commits : next.commits = services.commits)
      (rest : List.Sublist later.rest phase.rest) (started : later ≠ .locked after) :
      BatchOpen next later after := by
    refine (isOpen.mono (.of_same pushes commits ?_)).of_rest number rest started
    exact effect.begun
  cases effect with
  | stays => exact history.batches process batch trying
  | acquires =>
    refine batchOpen_update (fun batch new => ?_) trying
    cases new
    exact history.once.batchOpen_new _ _ rfl rfl rfl
  | @reads read _ phase =>
    have isOpen := history.batches process read (by rw [phase]; rfl)
    rw [phase] at isOpen
    refine batchOpen_update (fun batch same => ?_) trying
    cases same
    exact (history.once.batchOpen_read isOpen).mono (.of_same rfl rfl (le_refl _))
  | @pushes pushing entry rest _ time phase =>
    have isOpen := history.batches process pushing (by rw [phase]; rfl)
    rw [phase] at isOpen
    refine batchOpen_update (fun batch same => ?_) trying
    cases same
    exact isOpen.push time
  | @marks marking entry rest _ phase =>
    have isOpen := history.batches process marking (by rw [phase]; rfl)
    rw [phase] at isOpen
    refine batchOpen_update (fun batch same => ?_) trying
    cases same
    exact resumed isOpen rfl rfl rfl (.refl _) nofun
  | @counts counting entry error rest _ phase =>
    have isOpen := history.batches process counting (by rw [phase]; rfl)
    rw [phase] at isOpen
    refine batchOpen_update (fun batch same => ?_) trying
    cases same
    exact resumed isOpen rfl rfl rfl (.refl _) nofun
  | @fails failing entry rest _ error phase =>
    refine batchOpen_update (fun batch same => ?_) trying
    cases same
    rcases phase with phase | phase
    · have isOpen := history.batches process failing (by rw [phase]; rfl)
      rw [phase] at isOpen
      exact resumed isOpen rfl rfl rfl (List.sublist_cons_self _ _) nofun
    · have isOpen := history.batches process failing (by rw [phase]; rfl)
      rw [phase] at isOpen
      exact resumed isOpen rfl rfl rfl (.refl _) nofun
  | _ => exact batchOpen_update nofun trying

theorem RelayEffect.relayHistory (effect : RelayEffect services process action next)
    (history : RelayHistory services) : RelayHistory next where
  lock := effect.lockMove.lockHeld (fun other => effect.relays_of_ne) history.lock
  pushed := effect.pushedFirst history.pushed
  once := effect.settledOnce history
  batches other batch trying := by
    by_cases same : other = process
    · subst same
      exact effect.batchOpen history trying
    · rw [effect.relays_of_ne same] at trying ⊢
      -- The other process is between lock and unlock, so this one is not.
      refine (history.batches other batch trying).mono (effect.sameSettled ?_)
      by_contra inside
      obtain ⟨own, inside⟩ := Option.ne_none_iff_exists'.mp inside
      refine same (history.lock.exclusive other process ?_ ?_)
      · rw [RelayPhase.lockedWith_of_trying trying]
        rfl
      · rw [RelayPhase.lockedWith_of_trying inside]
        rfl

/-- What no relay process did leaves its history. -/
theorem RelaysKept.relayHistory (kept : RelaysKept services next)
    (schedules : Schedules services.db.contents next.db.contents)
    (history : RelayHistory services) : RelayHistory next where
  lock process connection inside := by
    rw [kept.relays] at inside
    rw [kept.relayLock]
    exact history.lock process connection inside
  pushed := kept.pushedFirst schedules history.pushed
  once := by
    refine history.once.of_sameSettled (.of_same kept.pushes kept.commits kept.batches.ge) ?_
    intro push pushed marked row stored same
    obtain ⟨old, oldStored, of⟩ := history.pushed.stored push pushed
    rw [Database.outboxRow_unique stored (schedules.kept old oldStored) (same.trans of.1)]
    exact marked old oldStored of.1.symm
  batches process batch trying := by
    rw [kept.relays] at trying ⊢
    exact (history.batches process batch trying).mono
      (.of_same kept.pushes kept.commits kept.batches.ge)

end Steps

theorem step_relayHistory (registry : WorkflowRegistry) (loads : String → Option Json)
    (services : Services) (event : ServiceEvent) (history : RelayHistory services) :
    RelayHistory (services.step registry loads event) := by
  by_cases relayed : ∃ process action, event = .relay process action
  · obtain ⟨process, action, rfl⟩ := relayed
    exact (services.relayStep_effect process action).relayHistory history
  · have other : ∀ process action, event ≠ .relay process action :=
      fun process action same => relayed ⟨process, action, same⟩
    exact (RelaysKept.step loads services registry event other).relayHistory
      (services.step_schedules registry loads event other) history

theorem relayHistory_resting {db : Database} (queue : TaskQueue)
    (pending : ∀ row ∈ db.contents.tasksOutbox, row.enqueuedAt = none) :
    RelayHistory (.resting db queue) where
  lock _ _ inside := nomatch inside
  pushed := ⟨fun _ member => absurd member List.not_mem_nil,
    fun row stored _ marked => (nomatch (pending row stored).symm.trans marked),
    fun _ => phaseSound_idle _⟩
  once := ⟨fun _ member => absurd member List.not_mem_nil,
    fun _ member => absurd member List.not_mem_nil, .nil, .nil,
    fun _ member => absurd member List.not_mem_nil⟩
  batches _ _ trying := nomatch trying

/-- Two pushes of a row, one before the other. -/
theorem exists_sublist_of_countP {Item : Type} {selects : Item → Bool} {items : List Item}
    (more : 1 < items.countP selects) :
    ∃ first second, selects first = true ∧ selects second = true ∧
      List.Sublist [first, second] items := by
  rw [List.countP_eq_length_filter] at more
  match found : items.filter selects, more with
  | first :: second :: rest, _ =>
    have member (item : Item) (listed : item ∈ first :: second :: rest) : selects item = true := by
      rw [← found] at listed
      exact (List.mem_filter.mp listed).2
    refine ⟨first, second, member first List.mem_cons_self,
      member second (List.mem_cons_of_mem _ List.mem_cons_self), ?_⟩
    have prefixed : List.Sublist [first, second] (items.filter selects) := by
      rw [found]
      exact ((List.nil_sublist rest).cons_cons second).cons_cons first
    exact prefixed.trans List.filter_sublist

/-- Of two pushes of a row, one has not settled it. -/
theorem SettledOnce.repushed {services : Services} (once : SettledOnce services) :
    services.RepushesUnsettled := by
  intro outboxId more
  obtain ⟨first, second, ofRow, again, inOrder⟩ := exists_sublist_of_countP more
  rw [decide_eq_true_eq] at ofRow again
  have notBoth := List.pairwise_iff_forall_sublist.mp once.settled inOrder
    (ofRow.trans again.symm)
  by_cases settles : services.Settles first
  · exact ⟨second, inOrder.mem (List.mem_cons_of_mem _ List.mem_cons_self), again,
      fun later => notBoth ⟨settles, later⟩⟩
  · exact ⟨first, inOrder.mem List.mem_cons_self, ofRow, settles⟩

/-- In every run of the services from an outbox of pending rows, each mark that is committed has its
push, and a row is pushed more than once only if some batch that pushed it did not commit its mark
at the end of its try block. A batch marks a row only behind its push, and all its marks are
committed together, at the end of the try block. -/
theorem marks_have_pushes (registry : WorkflowRegistry) (loads : String → Option Json)
    (db : Database) (queue : TaskQueue)
    (pending : ∀ row ∈ db.contents.tasksOutbox, row.enqueuedAt = none)
    (events : List ServiceEvent) :
    let services := Transition.run (Services.step registry loads) (.resting db queue) events
    services.MarksPushed ∧ services.RepushesUnsettled := by
  have history := Transition.run_invariant_always (Services.step registry loads) RelayHistory
    (step_relayHistory registry loads) (.resting db queue) (relayHistory_resting queue pending)
    events
  exact ⟨history.pushed.marksPushed, history.once.repushed⟩

/-! ### Rows that are pushed twice -/

/-- The next statements of a relay process succeed. -/
def relayPerforms (process count : Nat) : List ServiceEvent :=
  List.replicate count (.relay process (.perform "20.0" 0))

/-- A run is started, and its first task waits in the outbox. -/
def started (call : Nat) : ServiceEvent :=
  .operation (.call (.startWorkflowRun "claim_intake" "v1" [] "api" "c" none)) (numberedDraws call)

/-- A batch marks its first row and is cancelled at the push of its second. Its finally block gives
up the lock before it commits, so another process reads the first row in between. -/
def cutShort : List ServiceEvent :=
  [started 1, started 2, .relay 0 (.acquire 0 30)] ++ relayPerforms 0 3 ++
    [.relay 0 (.raise none)] ++ relayPerforms 0 1 ++ [.relay 1 (.acquire 0 40)] ++
    relayPerforms 1 2 ++ relayPerforms 0 1 ++ relayPerforms 1 6

/-- The mark of a row raises an exception, the batch counts it and commits at its end; the next
batch pushes the row again. -/
def markRaises : List ServiceEvent :=
  [started 1, .relay 0 (.acquire 0 30)] ++ relayPerforms 0 2 ++
    [.relay 0 (.raise (some "timeout"))] ++ relayPerforms 0 4 ++ [.relay 0 (.acquire 0 40)] ++
    relayPerforms 0 6

def afterRelay (events : List ServiceEvent) : Services :=
  Transition.run (Services.step [claimIntakeV1] fun _ => none) (.resting (.empty []) .empty) events

theorem marks_have_pushes_cutShort :
    (afterRelay cutShort).MarksPushed ∧ (afterRelay cutShort).RepushesUnsettled ∧
      (afterRelay markRaises).MarksPushed ∧ (afterRelay markRaises).RepushesUnsettled := by
  have cut := marks_have_pushes [claimIntakeV1] (fun _ => none) (.empty []) .empty
    (fun _ stored => absurd stored List.not_mem_nil) cutShort
  have raised := marks_have_pushes [claimIntakeV1] (fun _ => none) (.empty []) .empty
    (fun _ stored => absurd stored List.not_mem_nil) markRaises
  exact ⟨cut.1, cut.2, raised⟩

instance (services : Services) (push : RelayPush) : Decidable (services.Commits push) :=
  inferInstanceAs (Decidable (∃ commit ∈ services.commits, _))

/-- Both runs push the first row twice, and every batch that pushed it has committed. -/
theorem committed_batches_repush :
    ¬(afterRelay cutShort).RepushesUncommitted ∧ ¬(afterRelay markRaises).RepushesUncommitted := by
  have repushed {services : Services}
      (committed : 1 < services.pushes.countP (fun push => push.outboxId = 1) ∧
        ∀ push ∈ services.pushes, services.Commits push) : ¬services.RepushesUncommitted := by
    intro explained
    obtain ⟨push, member, -, uncommitted⟩ := explained 1 committed.1
    exact uncommitted (committed.2 push member)
  refine And.imp repushed repushed ?_
  decide +kernel

end InsuranceOps
