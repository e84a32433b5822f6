/-
This file models one iteration of the worker loop on entries of any bytes. The
loop catches a `ValueError` of `json.loads`, and everything that happens once the
session is open; the lookup of the identifiers, the log line that tells of the
claim and the acknowledgement of an entry that did not parse stand outside. So
an iteration survives an entry just when it is a task whose names the logger can
render, or text that does not parse; and a task that is buried must be text as
well, since it is acknowledged afterwards. Which values the logger renders is up
to the logger.
-/

import InsuranceOps.Durability

namespace InsuranceOps

open ListStore

/-! ### Reading a task -/

/-- The truth of a value. -/
def Loaded.truthy : Loaded → Bool
  | .null | .bool false | .int 0 | .string "" | .array [] | .object [] => false
  | .float value => value ≠ .finite 0
  | _ => true

namespace LoadedObject

variable (payload : LoadedObject)

/-- `UUID(value) if value else None`, for the value under a key. -/
def readId (key : String) : Except Failure (Option UUID) :=
  match payload.get? key with
  | none => .ok none
  | some value =>
    if value.truthy then
      match value with
      | .string text => (parseId text).map some
      | _ => .error (.exception "AttributeError")
    else .ok none

/-- Whether one of the three identifiers of a task is missing. -/
def missesId : Bool :=
  ["step_attempt_id", "step_id", "workflow_run_id"].any fun key =>
    match payload.readId key with
    | .ok none => true
    | _ => false

/-- Load the rows a task names, if it names three identifiers and the rows are stored. -/
def loadRows (db : Database) : Except Failure (Option TaskRows) := do
  let stepAttemptId ← payload.readId "step_attempt_id"
  let stepId ← payload.readId "step_id"
  let workflowRunId ← payload.readId "workflow_run_id"
  match stepAttemptId.bind db.getStepAttempt, stepId.bind db.getStep,
    workflowRunId.bind db.getWorkflowRun with
  | some attempt, some step, some run => return some ⟨attempt, step, run⟩
  | _, _, _ => return none

end LoadedObject

/-! ### An iteration -/

/-- What an iteration leaves, and the exception that leaves the loop, if one does. -/
structure LoopResult where
  escaped : Option Failure
  db : Database
  queue : EntryQueue

/-- Which log lines about a task the logger writes without an exception: the one with the task's
names and identifiers when it was claimed, and the one with the whole task when an identifier is
missing. The others carry texts and, as that first line does, the identifiers bound for it. -/
structure LogLines where
  taskClaimed : LoadedObject → Bool
  taskMissingIds : LoadedObject → Bool

/-- Every line is written. -/
def LogLines.written : LogLines := ⟨fun _ => true, fun _ => true⟩

section Iteration

variable (logs : LogLines) (work : LoadedObject → TaskRows → Except Failure Database)
  (db : Database) (claimed : EntryQueue) (workerId : String) (item : Bytes)

/-- Process a single claimed task, behind the log line about its claim. An exception is logged, and
the entry stays where it is then. -/
def processClaimed (payload : LoadedObject) : Database × EntryQueue :=
  match payload.loadRows db with
  | .error _ => (db, claimed)
  | .ok none =>
    if payload.missesId && !logs.taskMissingIds payload then (db, claimed)
    else (db, acknowledge (claimed.lpush .dlq item) workerId item)
  | .ok (some rows) =>
    if rows.attempt.state.isFinished then (db, acknowledge claimed workerId item)
    else
      match work payload rows with
      | .error _ => (db, claimed)
      | .ok flushed => (flushed, acknowledge claimed workerId item)

variable (loads : Bytes → Except LoadFailure Loaded)

/-- What the loop does with a claimed entry. -/
def processEntry : LoopResult :=
  match loads item with
  | .error .valueError =>
    ⟨if decodes item then none else some (.exception "UnicodeDecodeError"), db,
      acknowledge (claimed.lpush .dlq item) workerId item⟩
  | .error .other => ⟨some (.exception "RecursionError"), db, claimed⟩
  | .ok (.object payload) =>
    if logs.taskClaimed payload then
      let (processed, queue) := processClaimed logs work db claimed workerId item payload
      ⟨none, processed, queue⟩
    else ⟨some (.exception "RecursionError"), db, claimed⟩
  | .ok _ => ⟨some (.exception "AttributeError"), db, claimed⟩

end Iteration

/-- Claim an entry and process it; without a ready entry nothing happens. -/
def loopIteration (loads : Bytes → Except LoadFailure Loaded) (logs : LogLines)
    (work : LoadedObject → TaskRows → Except Failure Database) (db : Database) (queue : EntryQueue)
    (workerId : String) : LoopResult :=
  match queue.rpoplpush .ready (.inflight workerId) with
  | none => ⟨none, db, queue⟩
  | some (item, claimed) => processEntry logs work db claimed workerId item loads

/-! ### Iterations on JSON -/

section Json

variable {loads : String → Option Json} {handle : String → StepContext → HandlerReturn}

theorem Json.truthy_loaded (value : Json) : value.loaded.truthy = value.truthy := by
  cases value with
  | null => rfl
  | bool value => cases value <;> rfl
  | negativeZero => rfl
  | int value =>
    unfold Json.loaded Loaded.truthy Json.truthy
    split <;> simp_all
  | float value =>
    unfold Json.loaded Loaded.truthy Json.truthy
    simp only [ne_eq, FloatValue.finite.injEq, decide_not, bne, beq_eq_decide]
  | string text =>
    unfold Json.loaded Loaded.truthy Json.truthy
    split <;> simp_all
  | array items => cases items <;> rfl
  | object entries => cases entries <;> rfl

theorem LoadedObject.readId_loadedEntries (payload : JsonObject) (key : String) :
    LoadedObject.readId (loadedEntries payload) key = InsuranceOps.readId payload key := by
  unfold LoadedObject.readId InsuranceOps.readId
  rw [LoadedObject.get?_loadedEntries]
  cases payload.get? key with
  | none => rfl
  | some value =>
    simp only [Option.map_some, Json.truthy_loaded]
    cases value <;> rfl

theorem LoadedObject.loadRows_loadedEntries (payload : JsonObject) (db : Database) :
    LoadedObject.loadRows (loadedEntries payload) db = InsuranceOps.loadRows db payload := by
  have read : LoadedObject.readId (loadedEntries payload) = InsuranceOps.readId payload :=
    funext (LoadedObject.readId_loadedEntries payload)
  unfold LoadedObject.loadRows InsuranceOps.loadRows
  exact read ▸ rfl

/-- What a task writes once its rows are loaded. -/
def writeTask (loads : String → Option Json) (handle : String → StepContext → HandlerReturn)
    (db : Database) (draws : Draws) (workerId : String) (payload : JsonObject) (rows : TaskRows) :
    Except Failure Database := do
  let db := db.updateStepAttempt rows.attempt.stepAttemptId (StepAttemptModel.begin (draws.now 0))
    (StepAttemptModel.begin_keeps draws)
  let outcome ← executeStepHandler loads handle db rows payload
  let stepName := (payload.get? "step_name").getD (.string "unknown")
  writeOutcome db rows workerId stepName (draws.now 1) (draws.event 0 2) outcome

/-- On a JSON task the iteration is the one that processes the task and settles it, where the logger
writes every line. -/
theorem processEntry_json {work : LoadedObject → TaskRows → Except Failure Database}
    {db : Database} {draws : Draws} {workerId : String} {payload : JsonObject}
    (writes : work (loadedEntries payload) = writeTask loads handle db draws workerId payload)
    (claimed : EntryQueue) {item : Bytes} {loadsEntry : Bytes → Option Json}
    (parsed : loadsEntry item = some (.object payload)) :
    let result := processEntry .written work db claimed workerId item (loadsJson loadsEntry)
    let settled := settleEntry db claimed workerId item
      (processTask loads handle db draws workerId payload)
    result.escaped = none ∧ result.db = settled.db ∧ result.queue = settled.queue := by
  unfold processEntry loadsJson
  simp only [parsed, Json.loaded, LogLines.written, if_true]
  unfold processClaimed processTask
  simp only [Bool.not_true, Bool.and_false, Bool.false_eq_true, if_false]
  rw [LoadedObject.loadRows_loadedEntries]
  refine ⟨trivial, ?_⟩
  cases InsuranceOps.loadRows db payload with
  | error failure => exact ⟨rfl, rfl⟩
  | ok loaded =>
  cases loaded with
  | none => exact ⟨rfl, rfl⟩
  | some rows =>
  simp only [writes]
  show _ = (settleEntry db claimed workerId item (if _ then _ else _)).db ∧
    _ = (settleEntry db claimed workerId item (if _ then _ else _)).queue
  cases rows.attempt.state.isFinished with
  | true => exact ⟨rfl, rfl⟩
  | false =>
  simp only [Bool.false_eq_true, if_false]
  unfold writeTask
  generalize db.updateStepAttempt rows.attempt.stepAttemptId _ _ = begun
  dsimp only
  cases executeStepHandler loads handle begun rows payload with
  | error failure => exact ⟨rfl, rfl⟩
  | ok outcome =>
  dsimp only [bind, Except.bind]
  cases writeOutcome begun rows workerId _ _ _ outcome with
  | error failure => exact ⟨rfl, rfl⟩
  | ok flushed => exact ⟨rfl, rfl⟩

end Json

/-! ### Surviving iterations -/

section Survival

variable (loads : Bytes → Except LoadFailure Loaded) (logs : LogLines)
  (work : LoadedObject → TaskRows → Except Failure Database) (db : Database) (queue : EntryQueue)
  (workerId : String) (item : Bytes) (result : LoopResult)

/-- The entry was acknowledged, and its task had been finished before or was worked on. -/
structure Processed : Prop where
  dlq : result.queue.lists .dlq = queue.lists .dlq
  inflight : result.queue.lists (.inflight workerId) = queue.lists (.inflight workerId)
  done : ∃ (payload : LoadedObject) (rows : TaskRows), loads item = .ok (.object payload) ∧
    payload.loadRows db = .ok (some rows) ∧
    (rows.attempt.state.isFinished = true ∧ result.db = db ∨ work payload rows = .ok result.db)

/-- The entry is in the dead letters, once more than before, and not inflight. -/
structure Buried : Prop where
  dlq : result.queue.lists .dlq = item :: queue.lists .dlq
  inflight : result.queue.lists (.inflight workerId) = queue.lists (.inflight workerId)

/-- The entry is inflight and not in the dead letters. -/
structure LeftInflight : Prop where
  dlq : result.queue.lists .dlq = queue.lists .dlq
  inflight : result.queue.lists (.inflight workerId) = item :: queue.lists (.inflight workerId)

/-- The iteration raises nothing, ends with the entry in one of three places, and buries an entry
that is no JSON object. -/
structure Survives : Prop where
  returns : result.escaped = none
  ends : Processed loads work db queue workerId item result ∨ Buried queue workerId item result ∨
    LeftInflight queue workerId item result
  buries : (∀ payload, loads item ≠ .ok (.object payload)) → Buried queue workerId item result

/-- A task names three readable identifiers or fewer, and not three stored rows. -/
def NamesNoRows (payload : LoadedObject) : Prop :=
  ∃ stepAttemptId stepId workflowRunId, payload.readId "step_attempt_id" = .ok stepAttemptId ∧
    payload.readId "step_id" = .ok stepId ∧ payload.readId "workflow_run_id" = .ok workflowRunId ∧
    (stepAttemptId.bind db.getStepAttempt = none ∨ stepId.bind db.getStep = none ∨
      workflowRunId.bind db.getWorkflowRun = none)

/-- A task goes to the dead letters: it names no rows, and the log line is written if it misses an
identifier. -/
def Undeliverable (payload : LoadedObject) : Prop :=
  NamesNoRows db payload ∧ (payload.missesId = true → logs.taskMissingIds payload = true)

/-- An entry is a task whose claim is logged, which is text when it goes to the dead letters, or
text that does not parse. -/
def Processable : Prop :=
  match loads item with
  | .error .valueError => decodes item = true
  | .error .other => False
  | .ok (.object payload) => logs.taskClaimed payload = true ∧
      (Undeliverable logs db payload → decodes item = true)
  | .ok _ => False

variable {loads logs work db queue workerId item}

theorem loadRows_eq_none_iff {payload : LoadedObject} :
    payload.loadRows db = .ok none ↔ NamesNoRows db payload := by
  unfold LoadedObject.loadRows NamesNoRows
  cases payload.readId "step_attempt_id" with
  | error failure => exact ⟨nofun, fun ⟨_, _, _, read, _⟩ => nomatch read⟩
  | ok stepAttemptId =>
  cases payload.readId "step_id" with
  | error failure => exact ⟨nofun, fun ⟨_, _, _, _, read, _⟩ => nomatch read⟩
  | ok stepId =>
  cases payload.readId "workflow_run_id" with
  | error failure => exact ⟨nofun, fun ⟨_, _, _, _, _, read, _⟩ => nomatch read⟩
  | ok workflowRunId =>
  constructor
  · intro missing
    refine ⟨stepAttemptId, stepId, workflowRunId, rfl, rfl, rfl, ?_⟩
    revert missing
    dsimp only [bind, Except.bind]
    cases stepAttemptId.bind db.getStepAttempt <;> cases stepId.bind db.getStep <;>
      cases workflowRunId.bind db.getWorkflowRun <;> simp [pure, Except.pure]
  · rintro ⟨_, _, _, ⟨⟩, ⟨⟩, ⟨⟩, missing⟩
    revert missing
    dsimp only [bind, Except.bind]
    cases stepAttemptId.bind db.getStepAttempt <;> cases stepId.bind db.getStep <;>
      cases workflowRunId.bind db.getWorkflowRun <;> simp [pure, Except.pure]

section Claimed

variable {claimed : EntryQueue}
  (taken : queue.rpoplpush .ready (.inflight workerId) = some (item, claimed))
include taken

/-- A claim puts the entry at the left end of the worker's list. -/
theorem claimed_lists : claimed.lists .dlq = queue.lists .dlq ∧
    claimed.lists (.inflight workerId) = item :: queue.lists (.inflight workerId) := by
  unfold Store.rpoplpush at taken
  split at taken
  · cases taken
  · cases taken
    simp [Store.lpush]

/-- An acknowledgement takes a claimed text out of the worker's list again. -/
theorem acknowledge_claimed (text : decodes item = true) :
    (acknowledge claimed workerId item).lists .dlq = queue.lists .dlq ∧
      (acknowledge claimed workerId item).lists (.inflight workerId) =
        queue.lists (.inflight workerId) := by
  obtain ⟨dlq, inflight⟩ := claimed_lists taken
  simp [acknowledge, text, Store.lrem, dlq, inflight]

theorem acknowledge_buried (text : decodes item = true) :
    (acknowledge (claimed.lpush .dlq item) workerId item).lists .dlq = item :: queue.lists .dlq ∧
      (acknowledge (claimed.lpush .dlq item) workerId item).lists (.inflight workerId) =
        queue.lists (.inflight workerId) := by
  obtain ⟨dlq, inflight⟩ := claimed_lists taken
  simp [acknowledge, text, Store.lrem, Store.lpush, dlq, inflight]

/-- A claimed entry that is left alone is inflight. -/
theorem leftInflight_claimed (db : Database) :
    LeftInflight queue workerId item ⟨none, db, claimed⟩ :=
  ⟨(claimed_lists taken).1, (claimed_lists taken).2⟩

/-- An entry that was buried and is still inflight is at none of the three ends. -/
theorem not_ends_of_binary (binary : decodes item = false) (db after : Database) :
    let result : LoopResult := ⟨none, after, acknowledge (claimed.lpush .dlq item) workerId item⟩
    ¬(Processed loads work db queue workerId item result ∨ Buried queue workerId item result ∨
      LeftInflight queue workerId item result) := by
  obtain ⟨dlq, inflight⟩ := claimed_lists taken
  have pushed : (acknowledge (claimed.lpush .dlq item) workerId item).lists .dlq =
      item :: queue.lists .dlq := by
    simp [acknowledge, binary, Store.lpush, dlq]
  have kept : (acknowledge (claimed.lpush .dlq item) workerId item).lists (.inflight workerId) =
      item :: queue.lists (.inflight workerId) := by
    simp [acknowledge, binary, Store.lpush, inflight]
  rintro result (processed | buried | left)
  · exact List.cons_ne_self _ _ (pushed.symm.trans processed.dlq)
  · exact List.cons_ne_self _ _ (kept.symm.trans buried.inflight)
  · exact List.cons_ne_self _ _ (pushed.symm.trans left.dlq)

variable (logs work db) in
/-- Where a claimed task ends. -/
theorem processClaimed_ends (payload : LoadedObject) (parsed : loads item = .ok (.object payload)) :
    let processed := processClaimed logs work db claimed workerId item payload
    let result : LoopResult := ⟨none, processed.1, processed.2⟩
    (Processed loads work db queue workerId item result ∨ Buried queue workerId item result ∨
      LeftInflight queue workerId item result) ↔
      (Undeliverable logs db payload → decodes item = true) := by
  unfold Undeliverable
  rw [← loadRows_eq_none_iff]
  unfold processClaimed
  cases loaded : payload.loadRows db with
  | error failure =>
    exact iff_of_true (.inr (.inr (leftInflight_claimed taken db))) fun ⟨found, _⟩ => by cases found
  | ok found =>
  cases found with
  | none =>
    dsimp only
    by_cases unlogged : (payload.missesId && !logs.taskMissingIds payload) = true
    · rw [if_pos unlogged]
      refine iff_of_true (.inr (.inr (leftInflight_claimed taken db))) fun undeliverable => ?_
      simp only [Bool.and_eq_true, Bool.not_eq_true'] at unlogged
      rw [undeliverable.2 unlogged.1] at unlogged
      cases unlogged.2
    · rw [if_neg unlogged]
      cases text : decodes item with
      | true =>
        obtain ⟨dlq, inflight⟩ := acknowledge_buried taken text
        exact iff_of_true (.inr (.inl ⟨dlq, inflight⟩)) fun _ => rfl
      | false =>
        refine iff_of_false (not_ends_of_binary taken text db db) fun buried => ?_
        have written : payload.missesId = true → logs.taskMissingIds payload = true := by
          simpa using unlogged
        exact Bool.false_ne_true (buried ⟨rfl, written⟩)
  | some rows =>
    refine iff_of_true ?_ fun ⟨found, _⟩ => by cases found
    have acked {after : Database} (done : rows.attempt.state.isFinished = true ∧ after = db ∨
        work payload rows = .ok after) :
        let result : LoopResult := ⟨none, after, acknowledge claimed workerId item⟩
        Processed loads work db queue workerId item result ∨ Buried queue workerId item result ∨
          LeftInflight queue workerId item result := by
      cases text : decodes item with
      | true =>
        obtain ⟨dlq, inflight⟩ := acknowledge_claimed taken text
        exact .inl ⟨dlq, inflight, payload, rows, parsed, loaded, done⟩
      | false =>
        have unacknowledged : acknowledge claimed workerId item = claimed := by
          rw [acknowledge, text]
          rfl
        rw [unacknowledged]
        exact .inr (.inr (leftInflight_claimed taken after))
    dsimp only
    cases finished : rows.attempt.state.isFinished with
    | true => exact acked (.inl ⟨finished, rfl⟩)
    | false =>
      cases worked : work payload rows with
      | error failure => exact .inr (.inr (leftInflight_claimed taken db))
      | ok flushed => exact acked (.inr worked)

end Claimed

end Survival

/-- An iteration of the worker loop survives the entry it claims just when the entry can be
processed. Whatever raises behind the opening of the session leaves the entry inflight, so what is
left to ask is where the steps outside the `try` raise and where burying an entry does not take it
out of the worker's list. -/
theorem survives_iff (loads : Bytes → Except LoadFailure Loaded) (logs : LogLines)
    (work : LoadedObject → TaskRows → Except Failure Database) (db : Database) (queue : EntryQueue)
    (workerId : String) (item : Bytes) (claimed : EntryQueue)
    (taken : queue.rpoplpush .ready (.inflight workerId) = some (item, claimed)) :
    Survives loads work db queue workerId item (loopIteration loads logs work db queue workerId) ↔
      Processable loads logs db item := by
  have iteration : loopIteration loads logs work db queue workerId =
      processEntry logs work db claimed workerId item loads := by
    rw [loopIteration, taken]
  rw [iteration]
  unfold processEntry Processable
  have escapes {failure : Failure} {after : Database} {left : EntryQueue} :
      ¬Survives loads work db queue workerId item ⟨some failure, after, left⟩ :=
    fun survives => nomatch survives.returns
  cases parsed : loads item with
  | error failure =>
    cases failure with
    | other => exact iff_of_false escapes id
    | valueError =>
      cases text : decodes item with
      | false => exact iff_of_false escapes nofun
      | true =>
        obtain ⟨dlq, inflight⟩ := acknowledge_buried taken text
        exact iff_of_true ⟨rfl, .inr (.inl ⟨dlq, inflight⟩), fun _ => ⟨dlq, inflight⟩⟩ rfl
  | ok value =>
    cases value with
    | object payload =>
      dsimp only
      cases logged : logs.taskClaimed payload with
      | false => exact iff_of_false escapes fun processable => Bool.false_ne_true processable.1
      | true =>
        rw [if_pos rfl]
        refine Iff.trans ?_ ((processClaimed_ends logs work db taken payload parsed).trans
          (and_iff_right rfl).symm)
        exact ⟨fun survives => survives.ends,
          fun ends => ⟨rfl, ends, fun unparsed => absurd parsed (unparsed payload)⟩⟩
    | _ => exact iff_of_false escapes id

/-- These entries are ready. -/
def readyOf (items : List Bytes) : EntryQueue where
  lists key := if key = .ready then items else []
  sorted _ := []

/-- A task that names nothing is buried. -/
theorem survives_emptyObject :
    Survives loadsSample (fun _ _ => .error .indexError) (.empty []) (readyOf [emptyObject]) "a"
      emptyObject (loopIteration loadsSample .written (fun _ _ => .error .indexError) (.empty [])
        (readyOf [emptyObject]) "a") :=
  (survives_iff loadsSample .written (fun _ _ => .error .indexError) (.empty [])
    (readyOf [emptyObject]) "a" emptyObject _ rfl).mpr ⟨rfl, fun _ => by decide⟩

/-- A list ends the worker loop, and is still inflight. -/
theorem emptyArray_escapes :
    (loopIteration loadsSample .written (fun _ _ => .error .indexError) (.empty [])
      (readyOf [emptyArray]) "a").escaped = some (.exception "AttributeError") ∧
    ¬Survives loadsSample (fun _ _ => .error .indexError) (.empty []) (readyOf [emptyArray]) "a"
      emptyArray (loopIteration loadsSample .written (fun _ _ => .error .indexError) (.empty [])
        (readyOf [emptyArray]) "a") := by
  have escaped : (loopIteration loadsSample .written (fun _ _ => .error .indexError) (.empty [])
      (readyOf [emptyArray]) "a").escaped = some (.exception "AttributeError") := rfl
  refine ⟨escaped, fun survives => ?_⟩
  cases escaped.symm.trans survives.returns

end InsuranceOps
