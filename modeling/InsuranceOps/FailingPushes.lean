/-
This file asks whether an outbox row whose push fails hurts the rows around it.
A batch counts the failure in the row itself, and the schema lets the count
reach ten: the eleventh failure of a row is refused by the database, and the
batch rolls back what it did for every row. Below that bound each row is
settled on its own: a pushed row is marked, a failed one stays pending with its
failure recorded.
-/

import InsuranceOps.Platform

namespace InsuranceOps

open Relational

/-! ### What a batch should do for each row -/

/-- The stored outbox row with an identifier. -/
def Database.outboxRow (db : Database) (outboxId : Nat) : Option TasksOutboxModel :=
  db.contents.tasksOutbox.find? fun row => row.outboxId = outboxId

/-- What becomes of the row of an entry: it is marked when its push succeeds; else it stays pending
and the failure is recorded. -/
def RelayDraws.settled (draws : RelayDraws) (index : Nat) (entry : TasksOutboxModel) :
    TasksOutboxModel :=
  match draws.pushError index with
  | none => entry.markEnqueued draws.now
  | some error => entry.countAttempt error

/-- The batch settles each of its rows on its own. -/
def IsolatesFailures (draws : RelayDraws) (db : Database) (queue : TaskQueue) : Prop :=
  ∀ index entry, (db.getPending 100)[index]? = some entry →
    (relayBatch draws db queue).1.outboxRow entry.outboxId = some (draws.settled index entry)

/-- The rows whose push fails have failed less than ten times before. -/
def FailuresCountable (draws : RelayDraws) (db : Database) : Prop :=
  ∀ index entry, (db.getPending 100)[index]? = some entry → draws.pushError index ≠ none →
    entry.attempts < 10

/-! ### One entry -/

variable (draws : RelayDraws) {db : Database}

theorem outboxRow_update {outboxId : Nat} {row : TasksOutboxModel}
    (change : TasksOutboxModel → TasksOutboxModel)
    (keeps : ∀ row, (change row).outboxId = row.outboxId)
    (found : db.outboxRow outboxId = some row) :
    (db.updateTasksOutbox outboxId change keeps).outboxRow =
      Function.update db.outboxRow outboxId (some (change row)) :=
  find?_updateRows_key (fun row : TasksOutboxModel => row.outboxId) change keeps found

/-- Counting a failure is refused at the tenth one. -/
theorem incrementAttempts_found {outboxId : Nat} {row : TasksOutboxModel}
    (found : db.outboxRow outboxId = some row) (error : String) :
    db.incrementAttempts outboxId error =
      if row.attempts < 10 then
        .ok (db.updateTasksOutbox outboxId (TasksOutboxModel.countAttempt error))
      else .error (.database (.checkViolation "ck_tasks_outbox_attempts_range")) := by
  have checked : (db.tasksOutbox.rows.all fun other =>
      other.outboxId ≠ outboxId ∨ other.attempts + 1 ≤ 10) = decide (row.attempts < 10) := by
    rw [Bool.eq_iff_iff, List.all_eq_true, decide_eq_true_eq]
    constructor
    · intro all
      obtain ⟨stored, identified⟩ :=
        mem_of_find? (fun row : TasksOutboxModel => row.outboxId) found
      rcases of_decide_eq_true (all row stored) with other | bounded
      · exact absurd identified other
      · exact bounded
    · intro bounded other stored
      refine decide_eq_true (Classical.or_iff_not_imp_left.mpr fun same => ?_)
      rw [eq_of_find? (fun row : TasksOutboxModel => row.outboxId) db.tasksOutbox_distinct found
        stored (not_not.mp same)]
      exact bounded
  rw [Database.incrementAttempts, checked]
  simp only [decide_eq_true_eq]

/-- An entry is settled when its failure, if any, can be counted; else the batch ends. -/
theorem relayEntry_settled (index : Nat) {entry : TasksOutboxModel} (queue : TaskQueue)
    (found : db.outboxRow entry.outboxId = some entry) :
    if draws.pushError index ≠ none → entry.attempts < 10 then
      ∃ next pushed, relayEntry draws index entry db queue = (.ok next, pushed) ∧
        next.outboxRow =
          Function.update db.outboxRow entry.outboxId (some (draws.settled index entry))
    else ∃ failure pushed, relayEntry draws index entry db queue = (.error failure, pushed) := by
  unfold relayEntry RelayDraws.settled
  cases pushed : draws.pushError index with
  | none =>
    rw [if_pos (fun failed => absurd rfl failed)]
    exact ⟨_, _, rfl,
      outboxRow_update (TasksOutboxModel.markEnqueued draws.now) (fun _ => rfl) found⟩
  | some error =>
    simp only [incrementAttempts_found found, ne_eq, reduceCtorEq, not_false_eq_true, true_imp_iff]
    by_cases bounded : entry.attempts < 10
    · rw [if_pos bounded, if_pos bounded]
      exact ⟨_, _, rfl,
        outboxRow_update (TasksOutboxModel.countAttempt error) (fun _ => rfl) found⟩
    · rw [if_neg bounded, if_neg bounded]
      exact ⟨_, _, rfl⟩

/-! ### A batch -/

/-- The entries of a batch are settled one by one, and the first failure that cannot be counted
ends the batch. -/
theorem relayEntries_settled (index : Nat) (entries : List TasksOutboxModel) (db : Database)
    (queue : TaskQueue) (distinct : (entries.map fun entry => entry.outboxId).Nodup)
    (found : ∀ entry ∈ entries, db.outboxRow entry.outboxId = some entry) :
    ((∀ offset entry, entries[offset]? = some entry → draws.pushError (index + offset) ≠ none →
        entry.attempts < 10) →
      ∃ next pushed, relayEntries draws index entries db queue = (.ok next, pushed) ∧
        (∀ offset entry, entries[offset]? = some entry →
          next.outboxRow entry.outboxId = some (draws.settled (index + offset) entry)) ∧
        ∀ outboxId, outboxId ∉ entries.map (fun entry => entry.outboxId) →
          next.outboxRow outboxId = db.outboxRow outboxId) ∧
    ((∃ offset entry, entries[offset]? = some entry ∧ draws.pushError (index + offset) ≠ none ∧
        ¬entry.attempts < 10) →
      ∃ failure pushed, relayEntries draws index entries db queue = (.error failure, pushed)) := by
  induction entries generalizing index db queue with
  | nil =>
    refine ⟨fun _ => ⟨db, queue, rfl, ?_, fun _ _ => rfl⟩, ?_⟩
    · rintro offset entry ⟨⟩
    · rintro ⟨offset, entry, ⟨⟩, -⟩
  | cons entry rest inductionHypothesis =>
    rw [List.map_cons, List.nodup_cons] at distinct
    have first := relayEntry_settled draws index queue
      (found entry List.mem_cons_self)
    by_cases bounded : draws.pushError index ≠ none → entry.attempts < 10
    · rw [if_pos bounded] at first
      obtain ⟨middle, pushed, ran, rows⟩ := first
      have reread : ∀ other ∈ rest, middle.outboxRow other.outboxId = some other := by
        intro other member
        rw [rows, Function.update_of_ne, found other (List.mem_cons_of_mem _ member)]
        exact fun same => distinct.1 (same ▸ List.mem_map_of_mem member)
      obtain ⟨settles, ends⟩ := inductionHypothesis (index + 1) middle pushed distinct.2 reread
      have continued : relayEntries draws index (entry :: rest) db queue =
          relayEntries draws (index + 1) rest middle pushed := by
        rw [relayEntries, ran]
      have shifted (offset : Nat) : index + 1 + offset = index + (offset + 1) := by omega
      rw [continued]
      constructor
      · intro countable
        obtain ⟨next, last, relayed, settled, others⟩ := settles fun offset other listed failed =>
          countable (offset + 1) other listed (shifted offset ▸ failed)
        refine ⟨next, last, relayed, ?_, fun outboxId unlisted => ?_⟩
        · rintro (_ | offset) other listed
          · cases listed
            rw [others _ distinct.1, rows, Function.update_self]
            rfl
          · rw [settled offset other listed, shifted offset]
        · rw [List.map_cons, List.mem_cons, not_or] at unlisted
          rw [others outboxId unlisted.2, rows, Function.update_of_ne unlisted.1]
      · rintro ⟨_ | offset, other, listed, failed, unbounded⟩
        · cases listed
          exact absurd (bounded failed) unbounded
        · exact ends ⟨offset, other, listed, (shifted offset).symm ▸ failed, unbounded⟩
    · rw [if_neg bounded] at first
      obtain ⟨failure, pushed, ran⟩ := first
      have stopped : relayEntries draws index (entry :: rest) db queue =
          (.error failure, pushed) := by
        rw [relayEntries, ran]
      rw [stopped]
      refine ⟨fun countable => absurd (countable 0 entry rfl) bounded, fun _ => ⟨_, _, rfl⟩⟩

theorem getPending_found {entry : TasksOutboxModel} {limit : Nat}
    (pending : entry ∈ db.getPending limit) : db.outboxRow entry.outboxId = some entry :=
  find?_of_mem (fun row : TasksOutboxModel => row.outboxId) db.tasksOutbox_distinct
    (mem_getPending pending).1

/-- A batch settles its rows each on its own exactly when it can count its failures. -/
theorem isolatesFailures_iff {draws : RelayDraws} (acquired : draws.acquired = true) (db : Database)
    (queue : TaskQueue) : IsolatesFailures draws db queue ↔ FailuresCountable draws db := by
  obtain ⟨settles, ends⟩ := relayEntries_settled draws 0 (db.getPending 100) db queue
    (getPending_distinct db 100) fun entry => getPending_found
  simp only [Nat.zero_add] at settles ends
  constructor
  · intro isolates index entry listed failed
    by_contra unbounded
    obtain ⟨failure, pushed, ran⟩ := ends ⟨index, entry, listed, failed, unbounded⟩
    have kept : (relayBatch draws db queue).1 = db := by
      rw [relayBatch, if_pos acquired, ran]
      rfl
    have recorded := isolates index entry listed
    rw [kept, getPending_found (List.mem_of_getElem? listed), RelayDraws.settled] at recorded
    obtain ⟨error, raised⟩ := Option.ne_none_iff_exists'.mp failed
    simp only [raised, Option.some.injEq] at recorded
    have counted := congrArg TasksOutboxModel.attempts recorded
    exact absurd counted (Nat.ne_of_lt (Nat.lt_succ_self entry.attempts))
  · intro countable index entry listed
    obtain ⟨next, pushed, ran, settled, -⟩ := settles countable
    rw [relayBatch, if_pos acquired, ran]
    exact settled index entry listed

/-! ### Batch after batch -/

/-- A batch that gets the lock settles each of its rows on its own. -/
def PlatformEvent.IsolatesFailures (platform : Platform) : PlatformEvent → Prop
  | .relay draws => draws.acquired = true →
    InsuranceOps.IsolatesFailures draws platform.db platform.queue
  | _ => True

/-- A batch that gets the lock can count its failures. -/
def PlatformEvent.FailuresCountable (platform : Platform) : PlatformEvent → Prop
  | .relay draws => draws.acquired = true → InsuranceOps.FailuresCountable draws platform.db
  | _ => True

theorem PlatformEvent.isolatesFailures_iff (platform : Platform) (event : PlatformEvent) :
    event.IsolatesFailures platform ↔ event.FailuresCountable platform := by
  cases event with
  | relay draws =>
    exact forall_congr' fun acquired =>
      InsuranceOps.isolatesFailures_iff acquired platform.db platform.queue
  | request made principal draws => exact Iff.rfl
  | schedule acquired now => exact Iff.rfl
  | work workerId returned draws => exact Iff.rfl
  | reap visibilityTimeout now workerIds => exact Iff.rfl

/-- From any database and queue and over any run of the platform, every batch settles each of its
rows on its own exactly when every row whose push fails has failed less than ten times before. The
eleventh failure of a row breaks the check on the count and undoes its batch; one below it writes
its own row only. -/
theorem failures_isolated_iff (registry : WorkflowRegistry) (loads : String → Option Json)
    (start : Platform) (events : List PlatformEvent) :
    Transition.Along (Platform.step registry loads)
        (fun platform event => event.IsolatesFailures platform) start events ↔
      Transition.Along (Platform.step registry loads)
        (fun platform event => event.FailuresCountable platform) start events :=
  Transition.along_congr _ PlatformEvent.isolatesFailures_iff start events

/-! ### A row that has failed ten times -/

def created (call : Nat) : PlatformEvent :=
  .request (.createWorkflowRun { workflowName := "claim_intake", documentIds := [] })
    ⟨"key", "operator", "label"⟩ (numberedDraws call)

/-- A batch in which the pushes of these rows raise. -/
def raising (fails : Nat → Bool) : PlatformEvent :=
  .relay { acquired := true
           now := 20
           time := fun _ => "20.0"
           pushError := fun index => if fails index then some "timeout" else none }

/-- The pushes of two rows raise in ten batches. -/
def tenFailures : List PlatformEvent :=
  [created 1, created 2] ++ List.replicate 10 (raising fun _ => true)

/-- The push of the second row raises once more. -/
def secondRaises : PlatformEvent := raising fun index => index = 1

/-- The identifiers of the outbox rows, their failures, and whether they are marked. -/
def outboxStates (platform : Platform) : List (Nat × Nat × Bool) :=
  platform.db.contents.tasksOutbox.map fun row =>
    (row.outboxId, row.attempts, row.enqueuedAt.isSome)

def afterFailures (events : List PlatformEvent) : Platform :=
  Transition.run (Platform.step [claimIntakeV1] fun _ => none) (.empty []) events

/-- In the next two batches the push of the first row succeeds, and both are rolled back: the row is
pushed twice and still pending. -/
theorem tenth_failure_undoes :
    outboxStates (afterFailures tenFailures) = [(1, 10, false), (2, 10, false)] ∧
    outboxStates (afterFailures (tenFailures ++ [secondRaises, secondRaises])) =
      [(1, 10, false), (2, 10, false)] ∧
    ((afterFailures (tenFailures ++ [secondRaises, secondRaises])).queue.lists .ready).length = 2 ∧
    ¬secondRaises.IsolatesFailures (afterFailures tenFailures) := by
  have undone {platform : Platform}
      (exhausted : (platform.db.getPending 100)[1]?.map (fun entry => entry.attempts) = some 10) :
      ¬secondRaises.IsolatesFailures platform := by
    intro isolates
    have countable := (isolatesFailures_iff rfl _ _).mp (isolates rfl)
    obtain ⟨entry, listed, failures⟩ := Option.map_eq_some_iff.mp exhausted
    have bounded := countable 1 entry listed nofun
    rw [failures] at bounded
    exact absurd bounded (by decide)
  refine And.imp_right (And.imp_right (And.imp_right undone)) ?_
  decide +kernel

end InsuranceOps
