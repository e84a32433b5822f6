/-
This file models one whole pass of the reaper over the inflight lists, with
nothing else going on, on entries of any bytes. An entry the reaper cannot judge
raises, and the exception ends the pass for every entry behind it. So a pass
isolates its entries from each other just when every one of them either does not
parse and is text, or is a task whose stamp and attempts can be compared.
-/

import InsuranceOps.Commands
import InsuranceOps.Library.Transition
import Mathlib.Algebra.BigOperators.Group.Finset.Basic

namespace InsuranceOps

open ListStore

/-! ### The verdict on an entry -/

section Verdict

variable (floatOfText : String → Option FloatValue)

/-- `float(value)`, where `none` stands for `TypeError`, `ValueError` or `OverflowError`. -/
def Loaded.toFloat : Loaded → Option FloatValue
  | .int value =>
    if FloatValue.overflowBound ≤ |(value : ℚ)| then none else some (.finite value)
  | .float value => some value
  | .bool value => some (.finite (if value then 1 else 0))
  | .string text => floatOfText text
  | .null | .array _ | .object _ => none

namespace LoadedObject

variable (payload : LoadedObject)

/-- `payload.get("claimed_at")`, where a missing stamp is `None`. -/
def claimedAt : Loaded := (payload.get? "claimed_at").getD .null

/-- `attempt_number >= max_attempts`, where `none` stands for `TypeError`. -/
def exhausted : Option Bool :=
  ((payload.get? "attempt_number").getD (.int 1)).atLeast
    ((payload.get? "max_attempts").getD (.int 3))

/-- The log line behind the move of a task is written. There is none for a task without a stamp;
`logs` says which step names the logger renders without an exception. -/
def logged (logs : Loaded → Bool) : Bool :=
  match payload.claimedAt with
  | .null => true
  | _ => logs ((payload.get? "step_name").getD .null)

end LoadedObject

variable (loads : Bytes → Except LoadFailure Loaded) (visibilityTimeout now : ℚ)

/-- What the reaper does with a task. -/
def judgeTask (item : Bytes) (payload : LoadedObject) : Verdict :=
  match payload.claimedAt with
  | .null => .move item .ready
  | claimedAt =>
    match claimedAt.toFloat floatOfText with
    | none => .raises
    | some stamp =>
      if stamp.isOverdue now visibilityTimeout then
        match payload.exhausted with
        | none => .raises
        | some true => .move item .dlq
        | some false => .move item .ready
      else .leaves

/-- What the reaper does with an entry. -/
def judge (item : Bytes) : Verdict :=
  match loads item with
  | .error .valueError => .move item .dlq
  | .error .other => .raises
  | .ok (.object payload) => judgeTask floatOfText visibilityTimeout now item payload
  | .ok _ => .raises

/-- The log line behind the move of an entry, if there is one, is written. -/
def moveLogged (logs : Loaded → Bool) (item : Bytes) : Bool :=
  match loads item with
  | .ok (.object payload) => LoadedObject.logged payload logs
  | _ => true

end Verdict

/-! ### A pass -/

section Pass

variable (judges : Bytes → Verdict) (logged : Bytes → Bool)

/-- The entries of one inflight list, with the number of entries moved before. An exception leaves
the queue as it is then; a log line comes behind the move it tells of. -/
def reapItems (workerId : String) :
    List Bytes → Nat → EntryQueue → Except EntryQueue (Nat × EntryQueue)
  | [], reclaimed, queue => .ok (reclaimed, queue)
  | item :: items, reclaimed, queue =>
    match judges item with
    | .leaves => reapItems workerId items reclaimed queue
    | .raises => .error queue
    | .moves target =>
      let moved := (queue.lrem (.inflight workerId) item).lpush target.key item
      if logged item then reapItems workerId items (reclaimed + 1) moved else .error moved

/-- The inflight lists of some workers. -/
def reapLists : List String → Nat → EntryQueue → Except EntryQueue (Nat × EntryQueue)
  | [], reclaimed, queue => .ok (reclaimed, queue)
  | workerId :: workerIds, reclaimed, queue =>
    match reapItems judges logged workerId (queue.lists (.inflight workerId)) reclaimed queue with
    | .ok (reclaimed, queue) => reapLists workerIds reclaimed queue
    | .error queue => .error queue

end Pass

/-- Scan all inflight lists and move stuck tasks back to ready or to the dead letters. -/
def reapStuckTasks (floatOfText : String → Option FloatValue) (logs : Loaded → Bool)
    (loads : Bytes → Except LoadFailure Loaded) (visibilityTimeout now : ℚ)
    (workerIds : List String) (queue : EntryQueue) : Except EntryQueue (Nat × EntryQueue) :=
  reapLists (judge floatOfText loads visibilityTimeout now) (moveLogged loads logs) workerIds 0
    queue

/-! ### What a pass does -/

section Effect

variable {judges : Bytes → Verdict} {logged : Bytes → Bool} {workerId : String}

/-- An entry is moved somewhere. -/
def Verdict.isMove : Verdict → Bool
  | .moves _ => true
  | .leaves | .raises => false

/-- An entry ends the pass: it raises, or it is moved and its log line raises. -/
def Verdict.stops (logged : Bool) : Verdict → Bool
  | .raises => true
  | .moves _ => !logged
  | .leaves => false

/-- What processing an inflight list leaves: of the entries it has read those the verdict leaves,
and at each target those the verdict moves there, in addition. -/
structure ListReaped (judges : Bytes → Verdict) (workerId : String) (kept items : List Bytes)
    (queue after : EntryQueue) : Prop where
  inflight : after.lists (.inflight workerId) =
    kept ++ items.filter fun item => judges item = .leaves
  targets : ∀ target item, (after.lists (MoveTarget.key target)).count item =
    (queue.lists (MoveTarget.key target)).count item +
      if judges item = .moves target then items.count item else 0
  others : ∀ key, key ≠ .inflight workerId → (∀ target, key ≠ MoveTarget.key target) →
    after.lists key = queue.lists key
  sorted : after.sorted = queue.sorted

theorem MoveTarget.key_injective {first second : MoveTarget} (same : first.key = second.key) :
    first = second := by
  cases first <;> cases second <;> first | rfl | cases same

theorem MoveTarget.key_ne_inflight (target : MoveTarget) (workerId : String) :
    target.key ≠ .inflight workerId := by
  cases target <;> nofun

theorem erase_middle {Value : Type} [DecidableEq Value] {kept : List Value} (items : List Value)
    {value : Value} (absent : value ∉ kept) :
    (kept ++ value :: items).erase value = kept ++ items := by
  rw [List.erase_append_right _ absent, List.erase_cons_head]

/-- Moving an entry takes its first occurrence out of the inflight list. -/
theorem moved_inflight {kept items : List Bytes} {item : Bytes} {queue : EntryQueue}
    (target : MoveTarget) (listed : queue.lists (.inflight workerId) = kept ++ item :: items)
    (absent : item ∉ kept) :
    ((queue.lrem (.inflight workerId) item).lpush target.key item).lists (.inflight workerId) =
      kept ++ items := by
  simp only [Store.lpush, Store.lrem, Function.update_of_ne (target.key_ne_inflight workerId).symm,
    Function.update_self]
  rw [listed, erase_middle items absent]

theorem moved_targets (queue : EntryQueue) (target other : MoveTarget) (item : Bytes) :
    ((queue.lrem (.inflight workerId) item).lpush target.key item).lists other.key =
      if other = target then item :: queue.lists other.key else queue.lists other.key := by
  have elsewhere := other.key_ne_inflight workerId
  split
  · rename_i same
    subst same
    simp only [Store.lpush, Store.lrem, Function.update_self, Function.update_of_ne elsewhere]
  · rename_i different
    have keys : other.key ≠ target.key := fun same => different (MoveTarget.key_injective same)
    simp only [Store.lpush, Store.lrem, Function.update_of_ne keys, Function.update_of_ne elsewhere]

/-- Entries that are left stay in the list, entries that are moved occur in it no more. -/
theorem reapItems_ok (kept items : List Bytes) (reclaimed : Nat) (queue : EntryQueue)
    (listed : queue.lists (.inflight workerId) = kept ++ items)
    (left : ∀ item ∈ kept, judges item = .leaves)
    (judged : ∀ item ∈ items, (judges item).stops (logged item) = false) :
    ∃ after, reapItems judges logged workerId items reclaimed queue =
        .ok (reclaimed + items.countP fun item => (judges item).isMove, after) ∧
      ListReaped judges workerId kept items queue after := by
  induction items generalizing kept reclaimed queue with
  | nil =>
    refine ⟨queue, rfl, listed, fun target item => ?_, fun _ _ _ => rfl, rfl⟩
    simp
  | cons item items inductionHypothesis =>
    have rest := fun other member => judged other (List.mem_cons_of_mem item member)
    cases verdict : judges item with
    | raises =>
      have stays := judged item List.mem_cons_self
      rw [verdict] at stays
      cases stays
    | leaves =>
      obtain ⟨after, reaped, effect⟩ := inductionHypothesis (kept ++ [item]) reclaimed queue
        (by rw [listed, List.append_assoc]; rfl)
        (fun other member => (List.mem_append.mp member).elim (left other) fun last => by
          rw [List.mem_singleton.mp last, verdict]) rest
      refine ⟨after, ?_, ?_, fun target other => ?_, effect.others, effect.sorted⟩
      · rw [reapItems, verdict]
        simpa [verdict, Verdict.isMove] using reaped
      · rw [effect.inflight, List.append_assoc]
        simp [verdict]
      · rw [effect.targets]
        by_cases moved : judges other = .moves target
        · have different : item ≠ other := by
            rintro rfl
            rw [verdict] at moved
            cases moved
          simp [moved, different]
        · simp [moved]
    | moves target =>
      have absent : item ∉ kept := fun member => by
        rw [left item member] at verdict
        cases verdict
      obtain ⟨after, reaped, effect⟩ := inductionHypothesis kept (reclaimed + 1)
        ((queue.lrem (.inflight workerId) item).lpush target.key item)
        (moved_inflight target listed absent) left rest
      have written : logged item = true := by
        have stays := judged item List.mem_cons_self
        rw [verdict] at stays
        exact Bool.not_eq_false' .. |>.mp stays
      refine ⟨after, ?_, ?_, fun other entry => ?_, fun key elsewhere untargeted => ?_,
        effect.sorted⟩
      · rw [reapItems, verdict]
        simp only [written, if_true]
        simp only [verdict, Verdict.isMove, List.countP_cons, if_true]
        rw [Nat.add_comm (List.countP _ items) 1, ← Nat.add_assoc]
        exact reaped
      · rw [effect.inflight]
        simp [verdict]
      · rw [effect.targets, moved_targets]
        by_cases same : other = target
        · subst same
          by_cases equal : item = entry
          · subst equal
            simp [verdict]
            omega
          · simp [equal]
        · by_cases equal : item = entry
          · subst equal
            have other_target : target ≠ other := fun e => same e.symm
            simp [verdict, same, other_target]
          · simp [same, equal]
      · rw [effect.others key elsewhere untargeted]
        simp only [Store.lpush, Store.lrem, Function.update_of_ne (untargeted target),
          Function.update_of_ne elsewhere]

/-- A sum whose terms at one point were taken out before. -/
theorem sum_insert_eq_add {Index : Type} [DecidableEq Index] (index : Index)
    (indices : Finset Index)
    (before after : Index → Nat) (taken : after index = 0)
    (kept : ∀ other, other ≠ index → after other = before other) :
    ∑ other ∈ insert index indices, before other =
      before index + ∑ other ∈ indices, after other := by
  have same : ∑ other ∈ indices.erase index, after other =
      ∑ other ∈ indices.erase index, before other :=
    Finset.sum_congr rfl fun other member => kept other (Finset.ne_of_mem_erase member)
  by_cases member : index ∈ indices
  · rw [Finset.insert_eq_of_mem member, ← Finset.add_sum_erase indices before member,
      ← Finset.add_sum_erase indices after member, taken, Nat.zero_add, same]
  · rw [Finset.erase_eq_of_notMem member] at same
    rw [Finset.sum_insert member, same]

/-- What a pass over some inflight lists leaves. -/
structure PassEffect (judges : Bytes → Verdict) (workerIds : List String) (queue : EntryQueue)
    (count : Nat) (after : EntryQueue) : Prop where
  inflight : ∀ workerId, after.lists (.inflight workerId) =
    if workerId ∈ workerIds then
      (queue.lists (.inflight workerId)).filter fun item => judges item = .leaves
    else queue.lists (.inflight workerId)
  targets : ∀ target item, (after.lists (MoveTarget.key target)).count item =
    (queue.lists (MoveTarget.key target)).count item +
      if judges item = .moves target then
        ∑ workerId ∈ workerIds.toFinset, (queue.lists (.inflight workerId)).count item
      else 0
  count_eq : count = ∑ workerId ∈ workerIds.toFinset,
    (queue.lists (.inflight workerId)).countP fun item => (judges item).isMove
  delayed : after.lists .delayed = queue.lists .delayed
  sorted : after.sorted = queue.sorted

/-- A list may be scanned twice: the second time nothing in it moves. -/
theorem reapLists_ok (workerIds : List String) (reclaimed : Nat) (queue : EntryQueue)
    (judged : ∀ workerId ∈ workerIds, ∀ item ∈ queue.lists (.inflight workerId),
      (judges item).stops (logged item) = false) :
    ∃ count after,
      reapLists judges logged workerIds reclaimed queue = .ok (reclaimed + count, after) ∧
        PassEffect judges workerIds queue count after := by
  induction workerIds generalizing reclaimed queue with
  | nil =>
    refine ⟨0, queue, rfl, fun _ => (if_neg List.not_mem_nil).symm, fun target item => ?_, rfl, rfl,
      rfl⟩
    simp
  | cons workerId workerIds inductionHypothesis =>
    obtain ⟨next, reaped, first⟩ := reapItems_ok [] (queue.lists (.inflight workerId)) reclaimed
      queue rfl (fun _ member => absurd member List.not_mem_nil)
      (judged workerId List.mem_cons_self)
    have left : next.lists (.inflight workerId) =
        (queue.lists (.inflight workerId)).filter fun item => judges item = .leaves :=
      first.inflight
    have untouched (other : String) (different : other ≠ workerId) :
        next.lists (.inflight other) = queue.lists (.inflight other) :=
      first.others _ (fun same => different (QueueKey.inflight.inj same))
        fun target => (target.key_ne_inflight other).symm
    obtain ⟨count, after, passed, effect⟩ := inductionHypothesis
      (reclaimed + (queue.lists (.inflight workerId)).countP fun item => (judges item).isMove) next
      (fun other member item stored => by
        by_cases same : other = workerId
        · subst same
          rw [left] at stored
          exact judged other List.mem_cons_self item (List.mem_filter.mp stored).1
        · rw [untouched other same] at stored
          exact judged other (List.mem_cons_of_mem _ member) item stored)
    refine ⟨((queue.lists (.inflight workerId)).countP fun item => (judges item).isMove) + count,
      after, ?_, ⟨fun other => ?_, fun target item => ?_, ?_, ?_, ?_⟩⟩
    · rw [reapLists, reaped, ← Nat.add_assoc]
      exact passed
    · rw [effect.inflight]
      by_cases same : other = workerId
      · subst same
        simp [left]
      · simp [untouched other same, same]
    · rw [effect.targets, first.targets, List.toFinset_cons]
      by_cases moved : judges item = .moves target
      · have taken : (next.lists (.inflight workerId)).count item = 0 := by
          rw [left, List.count_eq_zero]
          intro member
          have leaves := of_decide_eq_true (List.mem_filter.mp member).2
          rw [moved] at leaves
          cases leaves
        simp only [moved, if_true, Nat.add_assoc]
        rw [sum_insert_eq_add workerId workerIds.toFinset
          (fun other => (queue.lists (.inflight other)).count item)
          (fun other => (next.lists (.inflight other)).count item) taken
          fun other different => congrArg (List.count item) (untouched other different)]
      · simp [moved]
    · have taken :
          (next.lists (.inflight workerId)).countP (fun item => (judges item).isMove) = 0 := by
        rw [left, List.countP_eq_zero]
        intro item member
        rw [of_decide_eq_true (List.mem_filter.mp member).2]
        nofun
      rw [effect.count_eq, List.toFinset_cons, sum_insert_eq_add workerId workerIds.toFinset
        (fun other => (queue.lists (.inflight other)).countP fun item => (judges item).isMove)
        (fun other => (next.lists (.inflight other)).countP fun item => (judges item).isMove) taken
        fun other different => congrArg (List.countP _) (untouched other different)]
    · rw [effect.delayed]
      exact first.others _ nofun fun target => by cases target <;> nofun
    · rw [effect.sorted, first.sorted]

/-- An entry that raises ends the pass over its list. -/
theorem reapItems_stops {items : List Bytes} {item : Bytes} (member : item ∈ items)
    (stops : (judges item).stops (logged item) = true) (reclaimed : Nat) (queue : EntryQueue) :
    ∃ left, reapItems judges logged workerId items reclaimed queue = .error left := by
  induction items generalizing reclaimed queue with
  | nil => exact absurd member List.not_mem_nil
  | cons first rest inductionHypothesis =>
    rw [reapItems]
    cases verdict : judges first with
    | raises => exact ⟨queue, rfl⟩
    | leaves =>
      have later : item ∈ rest := by
        rcases List.mem_cons.mp member with rfl | later
        · rw [verdict] at stops
          cases stops
        · exact later
      exact inductionHypothesis later _ _
    | moves target =>
      cases written : logged first with
      | false => exact ⟨_, rfl⟩
      | true =>
        have later : item ∈ rest := by
          rcases List.mem_cons.mp member with rfl | later
          · rw [verdict, written] at stops
            cases stops
          · exact later
        exact inductionHypothesis later _ _

/-- An entry that raises ends the pass over all lists. -/
theorem reapLists_stops {workerIds : List String} (scanned : workerId ∈ workerIds) {item : Bytes}
    (reclaimed : Nat) (queue : EntryQueue) (member : item ∈ queue.lists (.inflight workerId))
    (stops : (judges item).stops (logged item) = true) :
    ∃ left, reapLists judges logged workerIds reclaimed queue = .error left := by
  induction workerIds generalizing reclaimed queue with
  | nil => exact absurd scanned List.not_mem_nil
  | cons first rest inductionHypothesis =>
    rw [reapLists]
    by_cases quiet : ∀ other ∈ queue.lists (.inflight first),
        (judges other).stops (logged other) = false
    · have different : workerId ≠ first := by
        rintro rfl
        rw [quiet item member] at stops
        cases stops
      obtain ⟨next, reaped, effect⟩ := reapItems_ok [] _ reclaimed queue rfl
        (fun _ absent => absurd absent List.not_mem_nil) quiet
      have untouched : next.lists (.inflight workerId) = queue.lists (.inflight workerId) :=
        effect.others _ (fun same => different (QueueKey.inflight.inj same))
          fun target => (target.key_ne_inflight workerId).symm
      rw [reaped]
      exact inductionHypothesis ((List.mem_cons.mp scanned).resolve_left different) _ next
        (untouched ▸ member)
    · push Not at quiet
      obtain ⟨other, otherMember, otherStops⟩ := quiet
      obtain ⟨left, reaped⟩ := reapItems_stops otherMember (Bool.eq_true_of_not_eq_false otherStops)
        reclaimed queue
      exact ⟨left, by rw [reaped]⟩

end Effect

/-! ### A pass as commands of one process -/

theorem Json.toFloat_loaded (value : Json) :
    value.loaded.toFloat FloatValue.ofText = FloatValue.ofJson value := by
  cases value with
  | bool value => cases value <;> rfl
  | _ => rfl

theorem LoadedObject.exhausted_loadedEntries (payload : JsonObject) :
    LoadedObject.exhausted (loadedEntries payload) = isExhausted payload := by
  have defaulted (key : String) (number : Int) :
      (LoadedObject.get? (loadedEntries payload) key).getD (.int number) =
        ((payload.get? key).getD (.int number)).loaded := by
    rw [LoadedObject.get?_loadedEntries]
    cases payload.get? key <;> rfl
  rw [LoadedObject.exhausted, defaulted, defaulted]
  rfl

/-- On JSON the verdict is the one of the reaper's process. -/
theorem judge_loadsJson (loads : Bytes → Option Json) (visibilityTimeout now : ℚ) :
    judge FloatValue.ofText (loadsJson loads) visibilityTimeout now =
      verdict loads visibilityTimeout now := by
  funext item
  unfold judge verdict loadsJson
  cases loads item with
  | none => rfl
  | some value =>
  cases value with
  | object payload =>
    show judgeTask FloatValue.ofText visibilityTimeout now item (loadedEntries payload) =
      taskVerdict visibilityTimeout now item payload
    unfold judgeTask taskVerdict LoadedObject.claimedAt
    rw [LoadedObject.get?_loadedEntries, LoadedObject.exhausted_loadedEntries]
    cases JsonObject.get? payload "claimed_at" with
    | none => rfl
    | some claimedAt =>
      have read := claimedAt.toFloat_loaded
      cases claimedAt with
      | null => rfl
      | _ =>
        simp only [Option.map_some, Option.getD_some, Json.loaded] at read ⊢
        exact read ▸ rfl
  | _ => rfl

section Commands

variable (loads : Bytes → Option Json) (visibilityTimeout now : ℚ) (logged : Bytes → Bool)
  (index : Nat)

/-- The queue a pass leaves, whether it returns or raises. -/
def queueLeft : Except EntryQueue (Nat × EntryQueue) → EntryQueue
  | .ok (_, queue) => queue
  | .error queue => queue

/-- Where a process is after a part of a pass. -/
def processAfter (pass : ReaperPass) : Except EntryQueue (Nat × EntryQueue) → QueueProcess
  | .ok _ => .reaping pass
  | .error _ => .idle

theorem examine_set (state : QueueState) (queue : EntryQueue) (unread : List String)
    (workerId : String) (item : Bytes) (items : List Bytes) :
    (state.set index queue (.reaping ⟨now, unread, workerId, item :: items⟩)).step loads
        visibilityTimeout (index, .examine) =
      match verdict loads visibilityTimeout now item with
      | .leaves => state.set index queue (.reaping ⟨now, unread, workerId, items⟩)
      | .raises => state.set index queue .idle
      | .moves target => state.set index (queue.lrem (.inflight workerId) item)
          (.moving target item ⟨now, unread, workerId, items⟩) := by
  cases judged : verdict loads visibilityTimeout now item <;>
    simp only [QueueState.step, QueueState.queue_set, QueueState.process_set_self,
      QueueState.set_set, judged]

theorem push_set (state : QueueState) (queue : EntryQueue) (target : MoveTarget) (item : Bytes)
    (pass : ReaperPass) :
    (state.set index queue (.moving target item pass)).step loads visibilityTimeout
        (index, .push) = state.set index (queue.lpush target.key item) (.reaping pass) := by
  unfold QueueState.step
  simp only [QueueState.queue_set, QueueState.process_set_self, QueueState.set_set]

theorem readInflight_set (state : QueueState) (queue : EntryQueue) (unread : List String)
    (workerId last : String) :
    (state.set index queue (.reaping ⟨now, workerId :: unread, last, []⟩)).step loads
        visibilityTimeout (index, .readInflight) =
      state.set index queue
        (.reaping ⟨now, unread, workerId, queue.lists (.inflight workerId)⟩) := by
  unfold QueueState.step
  simp only [QueueState.queue_set, QueueState.process_set_self, QueueState.set_set]

theorem crash_set (state : QueueState) (queue : EntryQueue) (process : QueueProcess) :
    (state.set index queue process).step loads visibilityTimeout (index, .crash) =
      state.set index queue .idle := by
  unfold QueueState.step
  simp only [QueueState.queue_set, QueueState.set_set]

/-- The entries of one list, command by command. A log line that raises behind a move is a crash of
the process there. -/
theorem run_reapItems (state : QueueState) (unread : List String) (workerId : String)
    (items : List Bytes) (reclaimed : Nat) (queue : EntryQueue) :
    let reaped :=
      reapItems (verdict loads visibilityTimeout now) logged workerId items reclaimed queue
    ∃ commands : List QueueCommand, Transition.run (QueueState.step loads visibilityTimeout)
        (state.set index queue (.reaping ⟨now, unread, workerId, items⟩))
        (commands.map fun command => (index, command)) =
      state.set index (queueLeft reaped) (processAfter ⟨now, unread, workerId, []⟩ reaped) := by
  intro reaped
  induction items generalizing reclaimed queue with
  | nil => exact ⟨[], rfl⟩
  | cons item items inductionHypothesis =>
    have examined := examine_set loads visibilityTimeout now index state queue unread workerId item
      items
    show ∃ commands, _ = state.set index (queueLeft (reapItems _ _ _ _ _ _))
      (processAfter _ (reapItems _ _ _ _ _ _))
    rw [reapItems]
    cases judged : verdict loads visibilityTimeout now item with
    | raises =>
      rw [judged] at examined
      exact ⟨[.examine], examined⟩
    | leaves =>
      rw [judged] at examined
      obtain ⟨commands, run⟩ := inductionHypothesis reclaimed queue
      refine ⟨.examine :: commands, ?_⟩
      rw [List.map_cons, Transition.run_cons, examined]
      exact run
    | moves target =>
      rw [judged] at examined
      cases written : logged item with
      | false =>
        refine ⟨[.examine, .push, .crash], ?_⟩
        simp only [List.map_cons, List.map_nil, Transition.run_cons, examined, push_set, crash_set]
        rfl
      | true =>
        obtain ⟨commands, run⟩ := inductionHypothesis (reclaimed + 1)
          ((queue.lrem (.inflight workerId) item).lpush target.key item)
        refine ⟨.examine :: .push :: commands, ?_⟩
        rw [List.map_cons, List.map_cons, Transition.run_cons, Transition.run_cons, examined,
          push_set]
        exact run

/-- The lists of a pass, command by command. -/
theorem run_reapLists (state : QueueState) (workerIds : List String) (last : String)
    (reclaimed : Nat) (queue : EntryQueue) :
    ∃ commands : List QueueCommand, Transition.run (QueueState.step loads visibilityTimeout)
        (state.set index queue (.reaping ⟨now, workerIds, last, []⟩))
        (commands.map fun command => (index, command)) =
      state.set index (queueLeft (reapLists (verdict loads visibilityTimeout now) logged workerIds
        reclaimed queue)) .idle := by
  induction workerIds generalizing last reclaimed queue with
  | nil =>
    refine ⟨[.readInflight], ?_⟩
    show QueueState.step loads visibilityTimeout _ (index, .readInflight) = _
    unfold QueueState.step
    simp only [QueueState.queue_set, QueueState.process_set_self, QueueState.set_set]
    rfl
  | cons workerId workerIds inductionHypothesis =>
    obtain ⟨commands, items⟩ := run_reapItems loads visibilityTimeout now logged index state
      workerIds workerId (queue.lists (.inflight workerId)) reclaimed queue
    rw [reapLists]
    cases reaped : reapItems (verdict loads visibilityTimeout now) logged workerId
        (queue.lists (.inflight workerId)) reclaimed queue with
    | error left =>
      rw [reaped] at items
      refine ⟨.readInflight :: commands, ?_⟩
      rw [List.map_cons, Transition.run_cons, readInflight_set]
      exact items
    | ok result =>
      rw [reaped] at items
      obtain ⟨more, lists⟩ := inductionHypothesis workerId result.1 result.2
      refine ⟨.readInflight :: (commands ++ more), ?_⟩
      rw [List.map_cons, Transition.run_cons, readInflight_set, List.map_append,
        Transition.run_append, items]
      exact lists

/-- A pass with nothing else going on is a run of one process of the queue, whichever log lines
raise. -/
theorem reapStuckTasks_run (logs : Loaded → Bool) (state : QueueState)
    (idle : state.process index = .idle) (workerIds : List String) :
    ∃ commands : List QueueCommand, Transition.run (QueueState.step loads visibilityTimeout) state
        (commands.map fun command => (index, command)) =
      state.set index (queueLeft (reapStuckTasks FloatValue.ofText logs (loadsJson loads)
        visibilityTimeout now workerIds state.queue)) .idle := by
  obtain ⟨commands, run⟩ := run_reapLists loads visibilityTimeout now
    (moveLogged (loadsJson loads) logs) index state workerIds "" 0 state.queue
  refine ⟨.scan now workerIds :: commands, ?_⟩
  have scanned : state.step loads visibilityTimeout (index, .scan now workerIds) =
      state.set index state.queue (.reaping ⟨now, workerIds, "", []⟩) := by
    unfold QueueState.step
    simp only [idle]
  rw [List.map_cons, Transition.run_cons, scanned, reapStuckTasks, judge_loadsJson]
  exact run

end Commands

/-! ### Isolated entries -/

section Isolation

variable (floatOfText : String → Option FloatValue) (logs : Loaded → Bool)
  (loads : Bytes → Except LoadFailure Loaded) (visibilityTimeout now : ℚ)

namespace LoadedObject

variable (payload : LoadedObject)

/-- A task is well-formed when its stamp is a number and its attempts can be compared, or when it
has no stamp. -/
def wellFormed : Bool :=
  match payload.claimedAt with
  | .null => true
  | claimedAt => (claimedAt.toFloat floatOfText).isSome && payload.exhausted.isSome

/-- A task is due when it is older than the timeout or has no stamp. -/
def isDue : Bool :=
  match payload.claimedAt with
  | .null => true
  | claimedAt => (claimedAt.toFloat floatOfText).any fun stamp =>
      stamp.isOverdue now visibilityTimeout

end LoadedObject

/-- An entry is a well-formed task. -/
def isTask (item : Bytes) : Bool :=
  match loads item with
  | .ok (.object payload) => LoadedObject.wellFormed floatOfText payload
  | _ => false

/-- An entry is a well-formed task that is not due. -/
def isYoung (item : Bytes) : Bool :=
  match loads item with
  | .ok (.object payload) =>
    LoadedObject.wellFormed floatOfText payload &&
      !LoadedObject.isDue floatOfText visibilityTimeout now payload
  | _ => false

/-- A pass moves every entry but the young ones exactly once, what is no well-formed task to the
dead letters, leaves the young ones in place, and counts what it moves. -/
structure Isolated (workerIds : List String) (queue : EntryQueue) (count : Nat)
    (after : EntryQueue) : Prop where
  inflight : ∀ workerId, after.lists (.inflight workerId) =
    (queue.lists (.inflight workerId)).filter (isYoung floatOfText loads visibilityTimeout now)
  moved : ∃ targetOf : Bytes → MoveTarget,
    (∀ item, isTask floatOfText loads item = false → targetOf item = .dlq) ∧
    ∀ target item, (after.lists (MoveTarget.key target)).count item =
      (queue.lists (MoveTarget.key target)).count item +
        if isYoung floatOfText loads visibilityTimeout now item = false ∧
            targetOf item = target then
          ∑ workerId ∈ workerIds.toFinset, (queue.lists (.inflight workerId)).count item
        else 0
  counted : count = ∑ workerId ∈ workerIds.toFinset,
    (queue.lists (.inflight workerId)).countP fun item =>
      !isYoung floatOfText loads visibilityTimeout now item

/-- The call returns, and has isolated the entries. -/
def Isolates (workerIds : List String) (queue : EntryQueue) : Prop :=
  ∃ count after,
    reapStuckTasks floatOfText logs loads visibilityTimeout now workerIds queue =
        .ok (count, after) ∧
      Isolated floatOfText loads visibilityTimeout now workerIds queue count after

/-- An entry does not parse and is text, or it is a well-formed task, and when it is due it is text
and its move is logged. -/
def Judgeable (item : Bytes) : Prop :=
  match loads item with
  | .error .valueError => decodes item = true
  | .error .other => False
  | .ok (.object payload) => LoadedObject.wellFormed floatOfText payload = true ∧
      (LoadedObject.isDue floatOfText visibilityTimeout now payload = true →
        decodes item = true ∧ LoadedObject.logged payload logs = true)
  | .ok _ => False

variable {floatOfText logs loads visibilityTimeout now}

theorem Verdict.move_cases (item : Bytes) (target : MoveTarget) :
    decodes item = true ∧ Verdict.move item target = .moves target ∨
      decodes item = false ∧ Verdict.move item target = .raises := by
  unfold Verdict.move
  cases decodes item
  · exact .inr ⟨rfl, rfl⟩
  · exact .inl ⟨rfl, rfl⟩

/-- A task is left when it is not due and moved when it is; what cannot be judged raises. -/
theorem judgeTask_spec (floatOfText : String → Option FloatValue) (visibilityTimeout now : ℚ)
    (item : Bytes) (payload : LoadedObject) :
    let judged := judgeTask floatOfText visibilityTimeout now item payload
    let formed := LoadedObject.wellFormed floatOfText payload = true
    let due := LoadedObject.isDue floatOfText visibilityTimeout now payload = true
    (judged = .leaves ∧ ¬due) ∨ (judged = .raises ∧ ¬(formed ∧ (due → decodes item = true))) ∨
      ∃ target, judged = .moves target ∧ due ∧ formed ∧ decodes item = true := by
  have moves {formed due : Prop} (isFormed : formed) (isDue : due) (target : MoveTarget) :
      (Verdict.move item target = .leaves ∧ ¬due) ∨
        (Verdict.move item target = .raises ∧ ¬(formed ∧ (due → decodes item = true))) ∨
        ∃ other, Verdict.move item target = .moves other ∧ due ∧ formed ∧ decodes item = true := by
    rcases Verdict.move_cases item target with ⟨text, moved⟩ | ⟨binary, raised⟩
    · exact .inr (.inr ⟨target, moved, isDue, isFormed, text⟩)
    · refine .inr (.inl ⟨raised, fun both => ?_⟩)
      rw [both.2 isDue] at binary
      cases binary
  have stamped (claimedAt : Loaded) (nonNull : claimedAt ≠ .null)
      (claimed : payload.claimedAt = claimedAt) :
      judgeTask floatOfText visibilityTimeout now item payload =
          (match claimedAt.toFloat floatOfText with
          | none => .raises
          | some stamp =>
            if stamp.isOverdue now visibilityTimeout then
              match payload.exhausted with
              | none => .raises
              | some true => .move item .dlq
              | some false => .move item .ready
            else .leaves) ∧
        LoadedObject.wellFormed floatOfText payload =
          ((claimedAt.toFloat floatOfText).isSome && payload.exhausted.isSome) ∧
        LoadedObject.isDue floatOfText visibilityTimeout now payload =
          (claimedAt.toFloat floatOfText).any fun stamp =>
            stamp.isOverdue now visibilityTimeout := by
    unfold judgeTask LoadedObject.wellFormed LoadedObject.isDue
    rw [claimed]
    cases claimedAt with
    | null => exact absurd rfl nonNull
    | _ => exact ⟨rfl, rfl, rfl⟩
  by_cases unstamped : payload.claimedAt = .null
  · simp only [judgeTask, LoadedObject.wellFormed, LoadedObject.isDue, unstamped]
    exact moves trivial trivial .ready
  · obtain ⟨judged, formed, due⟩ := stamped _ unstamped rfl
    simp only [judged, formed, due]
    cases payload.claimedAt.toFloat floatOfText with
    | none => exact .inr (.inl ⟨rfl, nofun⟩)
    | some stamp =>
      simp only [Option.isSome_some, Bool.true_and, Option.any_some]
      cases stamp.isOverdue now visibilityTimeout with
      | false => exact .inl ⟨rfl, nofun⟩
      | true =>
        cases payload.exhausted with
        | none => exact .inr (.inl ⟨rfl, nofun⟩)
        | some reached =>
          cases reached with
          | true => exact moves rfl rfl .dlq
          | false => exact moves rfl rfl .ready

theorem judge_of_judgeable {item : Bytes}
    (judgeable : Judgeable floatOfText logs loads visibilityTimeout now item) :
    (judge floatOfText loads visibilityTimeout now item = .leaves ∧
        isYoung floatOfText loads visibilityTimeout now item = true) ∨
      ∃ target, judge floatOfText loads visibilityTimeout now item = .moves target ∧
        moveLogged loads logs item = true ∧
        isYoung floatOfText loads visibilityTimeout now item = false ∧
        (isTask floatOfText loads item = false → target = .dlq) := by
  unfold Judgeable at judgeable
  unfold judge moveLogged isYoung isTask
  split at judgeable
  · rename_i unread
    rw [unread]
    rcases Verdict.move_cases item .dlq with ⟨-, moved⟩ | ⟨binary, -⟩
    · exact .inr ⟨.dlq, moved, rfl, rfl, fun _ => rfl⟩
    · rw [judgeable] at binary
      cases binary
  · exact judgeable.elim
  · rename_i payload read
    obtain ⟨formed, text⟩ := judgeable
    simp only [read, formed, Bool.true_and]
    rcases judgeTask_spec floatOfText visibilityTimeout now item payload with
      ⟨leaves, young⟩ | ⟨-, unjudged⟩ | ⟨target, moves, due, -⟩
    · exact .inl ⟨leaves, by rw [Bool.eq_false_of_not_eq_true young]; rfl⟩
    · exact absurd ⟨formed, fun due => (text due).1⟩ unjudged
    · exact .inr ⟨target, moves, (text due).2, by rw [due]; rfl, nofun⟩
  · exact judgeable.elim

theorem judgeable_of_judge {item : Bytes}
    (stays : (judge floatOfText loads visibilityTimeout now item).stops
      (moveLogged loads logs item) = false)
    (young : judge floatOfText loads visibilityTimeout now item = .leaves →
      isYoung floatOfText loads visibilityTimeout now item = true) :
    Judgeable floatOfText logs loads visibilityTimeout now item := by
  unfold judge moveLogged at stays
  unfold judge isYoung at young
  unfold Judgeable
  cases read : loads item with
  | error failure =>
    rw [read] at stays
    cases failure with
    | valueError =>
      rcases Verdict.move_cases item .dlq with ⟨text, -⟩ | ⟨-, raised⟩
      · exact text
      · simp only [raised, Verdict.stops] at stays
        cases stays
    | other => cases stays
  | ok value =>
    rw [read] at stays young
    cases value with
    | object payload =>
      simp only at stays young ⊢
      rcases judgeTask_spec floatOfText visibilityTimeout now item payload with
        ⟨leaves, notDue⟩ | ⟨raises, -⟩ | ⟨target, moves, -, formed, text⟩
      · exact ⟨(Bool.and_eq_true_iff.mp (young leaves)).1, fun due => absurd due notDue⟩
      · rw [raises] at stays
        cases stays
      · rw [moves] at stays
        exact ⟨formed, fun _ => ⟨text, Bool.not_eq_false' .. |>.mp stays⟩⟩
    | _ => cases stays

/-- A pass isolates the entries of all inflight lists from each other just when each of them can be
judged: then no entry ends the pass, and each list loses what its verdicts move. An entry that
cannot be judged either ends the pass, which returns nothing then, or stays although it is no
well-formed task. -/
theorem isolates_iff (floatOfText : String → Option FloatValue) (logs : Loaded → Bool)
    (loads : Bytes → Except LoadFailure Loaded) (visibilityTimeout now : ℚ)
    (workerIds : List String) (queue : EntryQueue)
    (scanned : ∀ workerId, queue.lists (.inflight workerId) ≠ [] → workerId ∈ workerIds) :
    Isolates floatOfText logs loads visibilityTimeout now workerIds queue ↔
      ∀ workerId, ∀ item ∈ queue.lists (.inflight workerId),
        Judgeable floatOfText logs loads visibilityTimeout now item := by
  have listed {workerId : String} {item : Bytes}
      (member : item ∈ queue.lists (.inflight workerId)) : workerId ∈ workerIds :=
    scanned workerId (List.ne_nil_of_mem member)
  constructor
  · rintro ⟨count, after, returned, isolated⟩ workerId item member
    have judged (other : String) (_ : other ∈ workerIds) (entry : Bytes)
        (stored : entry ∈ queue.lists (.inflight other)) :
        (judge floatOfText loads visibilityTimeout now entry).stops
          (moveLogged loads logs entry) = false := by
      refine Bool.eq_false_of_not_eq_true fun stops => ?_
      obtain ⟨left, raised⟩ := reapLists_stops (listed stored) 0 queue stored stops
      cases raised.symm.trans returned
    obtain ⟨_, _, passed, effect⟩ := reapLists_ok workerIds 0 queue judged
    cases passed.symm.trans returned
    refine judgeable_of_judge (judged workerId (listed member) item member) fun leaves => ?_
    have stays : item ∈ after.lists (.inflight workerId) := by
      rw [effect.inflight, if_pos (listed member)]
      exact List.mem_filter.mpr ⟨member, decide_eq_true leaves⟩
    rw [isolated.inflight] at stays
    exact (List.mem_filter.mp stays).2
  · intro judgeable
    have verdicts := fun workerId item member => judge_of_judgeable (judgeable workerId item member)
    have judged (workerId : String) (_ : workerId ∈ workerIds) (item : Bytes)
        (member : item ∈ queue.lists (.inflight workerId)) :
        (judge floatOfText loads visibilityTimeout now item).stops
          (moveLogged loads logs item) = false := by
      rcases verdicts workerId item member with ⟨leaves, -⟩ | ⟨target, moves, written, -⟩
      · rw [leaves]
        rfl
      · rw [moves, written]
        rfl
    obtain ⟨count, after, passed, effect⟩ := reapLists_ok workerIds 0 queue judged
    rw [Nat.zero_add] at passed
    refine ⟨count, after, passed, fun workerId => ?_, ⟨fun item =>
      match judge floatOfText loads visibilityTimeout now item with
      | .moves target => if isTask floatOfText loads item then target else .dlq
      | .leaves | .raises => .dlq, fun item notTask => ?_, fun target item => ?_⟩, ?_⟩
    · rw [effect.inflight]
      split
      · refine List.filter_congr fun item member => ?_
        rcases verdicts workerId item member with ⟨leaves, young⟩ | ⟨target, moves, -, old, -⟩
        · rw [leaves, young]
          rfl
        · rw [moves, old]
          rfl
      · rename_i unscanned
        have empty : queue.lists (.inflight workerId) = [] :=
          not_not.mp fun some => unscanned (scanned workerId some)
        rw [empty, List.filter_nil]
    · simp only [notTask, Bool.false_eq_true, if_false]
      split <;> rfl
    · rw [effect.targets]
      by_cases occurs : ∃ workerId, item ∈ queue.lists (.inflight workerId)
      · obtain ⟨workerId, member⟩ := occurs
        rcases verdicts workerId item member with ⟨leaves, young⟩ | ⟨found, moves, -, old, unfit⟩
        · simp [leaves, young]
        · have aims : (if isTask floatOfText loads item then found else .dlq) = found := by
            cases task : isTask floatOfText loads item with
            | true => rfl
            | false => exact (unfit task).symm
          simp [moves, old, aims]
      · have none : ∑ workerId ∈ workerIds.toFinset,
            (queue.lists (.inflight workerId)).count item = 0 :=
          Finset.sum_eq_zero fun workerId _ =>
            List.count_eq_zero.mpr fun member => occurs ⟨workerId, member⟩
        simp only [none, ite_self]
    · rw [effect.count_eq]
      refine Finset.sum_congr rfl fun workerId _ => List.countP_congr fun item member => ?_
      rcases verdicts workerId item member with ⟨leaves, young⟩ | ⟨target, moves, -, old, -⟩
      · rw [leaves, young]
        rfl
      · rw [moves, old]
        rfl

end Isolation

/-- The worker `a` has these entries inflight. -/
def inflightOf (items : List Bytes) : EntryQueue where
  lists key := if key = .inflight "a" then items else []
  sorted _ := []

theorem inflightOf_scanned (items : List Bytes) (workerId : String)
    (some : (inflightOf items).lists (.inflight workerId) ≠ []) : workerId ∈ ["a"] := by
  by_cases same : workerId = "a"
  · rw [same]
    exact List.mem_cons_self
  · exact absurd (if_neg fun equal => same (QueueKey.inflight.inj equal)) some

/-- A task claimed at the epoch, and its entry. -/
def overdueTask : LoadedObject := [("claimed_at", .string "0"), ("step_name", .string "ingest")]

def overdueEntry : Bytes :=
  JsonObject.encoded [("claimed_at", .string "0"), ("step_name", .string "ingest")]

/-- `json.loads` on this entry and the others. -/
def loadsOverdue (item : Bytes) : Except LoadFailure Loaded :=
  if item = overdueEntry then .ok (.object overdueTask) else loadsSample item

/-- A step name that is text is logged. -/
def logsText : Loaded → Bool
  | .string _ => true
  | _ => false

/-- A pass moves text that does not parse, a task without a stamp and an overdue one. -/
theorem isolates_sample :
    Isolates FloatValue.ofText logsText loadsOverdue 60 100 ["a"]
      (inflightOf [noJson, emptyObject, overdueEntry]) := by
  refine (isolates_iff FloatValue.ofText logsText loadsOverdue 60 100 ["a"]
    (inflightOf [noJson, emptyObject, overdueEntry])
    (inflightOf_scanned _)).mpr fun workerId item member => ?_
  have listed : item ∈ [noJson, emptyObject, overdueEntry] := by
    unfold inflightOf at member
    dsimp only at member
    split at member
    · exact member
    · cases member
  simp only [List.mem_cons, List.not_mem_nil, or_false] at listed
  rcases listed with rfl | rfl | rfl
  · show decodes noJson = true
    decide
  · show LoadedObject.wellFormed FloatValue.ofText [] = true ∧
      (LoadedObject.isDue FloatValue.ofText 60 100 [] = true →
        decodes emptyObject = true ∧ LoadedObject.logged [] logsText = true)
    decide
  · show LoadedObject.wellFormed FloatValue.ofText overdueTask = true ∧
      (LoadedObject.isDue FloatValue.ofText 60 100 overdueTask = true →
        decodes overdueEntry = true ∧ LoadedObject.logged overdueTask logsText = true)
    decide +kernel

/-- A list ahead of a task without a stamp raises, and nothing is moved. -/
theorem pass_stops :
    reapStuckTasks FloatValue.ofText logsText loadsSample 60 0 ["a"]
        (inflightOf [emptyArray, emptyObject]) = .error (inflightOf [emptyArray, emptyObject]) ∧
      ¬Isolates FloatValue.ofText logsText loadsSample 60 0 ["a"]
        (inflightOf [emptyArray, emptyObject]) := by
  have raised : reapStuckTasks FloatValue.ofText logsText loadsSample 60 0 ["a"]
      (inflightOf [emptyArray, emptyObject]) = .error (inflightOf [emptyArray, emptyObject]) := rfl
  refine ⟨raised, ?_⟩
  rintro ⟨count, after, returned, -⟩
  cases raised.symm.trans returned

end InsuranceOps
