/-
This file models the task queue: the ready list, one inflight list for each
worker, the set of delayed tasks and the dead letters, each at its own key of
the queue server. An entry is the payload its bytes encode; two entries are
equal when their bytes are. Nothing but an acknowledgement takes a task out of
the queue.
-/

import InsuranceOps.Audit
import InsuranceOps.Library.ListStore
import Mathlib.Data.Char
import Mathlib.Data.List.Lex

namespace InsuranceOps

open ListStore

/-! ### The bytes of a task -/

mutual

/-- The text `json.dumps` prints with the separators `,` and `:`; keys keep their order. -/
def Json.dumps : Json → Text
  | .null => "null".toList
  | .bool true => "true".toList
  | .bool false => "false".toList
  | .int value => if value < 0 then '-' :: decimal value.natAbs else decimal value.natAbs
  | .float value => floatText value
  | .negativeZero => "-0.0".toList
  | .string value => quoted value
  | .array items => '[' :: commaSeparated (dumpsItems items) ++ [']']
  | .object entries => Char.ofNat 123 :: commaSeparated (dumpsEntries entries) ++ [Char.ofNat 125]

/-- The texts of a list of values. -/
def dumpsItems : List Json → List Text
  | [] => []
  | item :: rest => item.dumps :: dumpsItems rest

/-- The texts of the entries of an object. -/
def dumpsEntries : List (String × Json) → List Text
  | [] => []
  | (key, value) :: rest => (quoted key ++ ':' :: value.dumps) :: dumpsEntries rest

end

/-! ### Keys -/

/-- The keys of the queue server that hold tasks. -/
inductive QueueKey where
  | ready
  | inflight (workerId : String)
  | delayed
  | dlq
  deriving DecidableEq

/-- The tasks at each key, with scores in epoch milliseconds. -/
abbrev TaskQueue := Store QueueKey JsonObject ℚ

/-- Entries of the delayed set are ordered by score and then by their bytes. -/
def dueBefore (first second : JsonObject × ℚ) : Prop :=
  first.2 < second.2 ∨
    (first.2 = second.2 ∧ (Json.object first.1).dumps ≤ (Json.object second.1).dumps)

instance : DecidableRel dueBefore := fun _ _ => inferInstanceAs (Decidable (_ ∨ _))

namespace TaskQueue

variable (queue : TaskQueue)

/-! ### Commands -/

/-- Push a task payload onto the ready queue. -/
def enqueue (payload : JsonObject) : TaskQueue := queue.lpush .ready payload

/-- Convert a datetime to epoch milliseconds. -/
def epochMs (time : Timestamp) : ℚ := time * 1000

/-- Schedule a task for future execution. -/
def schedule (payload : JsonObject) (runAt : Timestamp) : TaskQueue :=
  queue.zadd dueBefore .delayed payload (epochMs runAt)

/-- Promote due tasks one by one, at most as many as the batch has left; a task that is not yet
mature is put back and ends the batch. -/
def promote (maxScore : ℚ) (queue : TaskQueue) : Nat → TaskQueue
  | 0 => queue
  | remaining + 1 =>
    match queue.zpopmin .delayed with
    | none => queue
    | some ((item, score), popped) =>
      if maxScore < score then popped.zadd dueBefore .delayed item score
      else promote maxScore (popped.lpush .ready item) remaining

/-- Move tasks that are due from the delayed set to the ready list. -/
def matureTasks (now : Timestamp) (batchSize : Nat) : TaskQueue :=
  promote (epochMs now) queue batchSize

/-- Claim the oldest ready task: move it to the worker's inflight list. -/
def claim (workerId : String) : Option (JsonObject × TaskQueue) :=
  queue.rpoplpush .ready (.inflight workerId)

/-- Acknowledge a task: remove it from the worker's inflight list. -/
def ack (workerId : String) (payload : JsonObject) : TaskQueue :=
  queue.lrem (.inflight workerId) payload

/-- Move a failed task to the dead letter queue. -/
def moveToDlq (payload : JsonObject) : TaskQueue := queue.lpush .dlq payload

/-! ### What the queue holds -/

theorem holds_enqueue (payload other : JsonObject) :
    (enqueue queue payload).Holds other ↔ other = payload ∨ queue.Holds other :=
  Store.holds_lpush queue .ready payload other

theorem holds_schedule (payload other : JsonObject) (runAt : Timestamp) :
    (schedule queue payload runAt).Holds other ↔ other = payload ∨ queue.Holds other :=
  Store.holds_zadd dueBefore queue .delayed payload other (epochMs runAt)

/-- Promoting moves tasks within the queue. -/
theorem holds_promote (maxScore : ℚ) (remaining : Nat) (payload : JsonObject) :
    (promote maxScore queue remaining).Holds payload ↔ queue.Holds payload := by
  induction remaining generalizing queue with
  | zero => rfl
  | succ remaining inductionHypothesis =>
    unfold promote
    split
    · rfl
    · rename_i item score popped least
      split
      · rw [Store.holds_zadd, ← Store.zpopmin_some least]
      · rw [inductionHypothesis, Store.holds_lpush, ← Store.zpopmin_some least]

theorem holds_matureTasks (now : Timestamp) (batchSize : Nat) (payload : JsonObject) :
    (matureTasks queue now batchSize).Holds payload ↔ queue.Holds payload :=
  holds_promote queue (epochMs now) batchSize payload

/-- A claimed task was at the right end of the ready list and stays in the queue. -/
theorem claim_some {workerId : String} {payload : JsonObject} {claimed : TaskQueue}
    (taken : claim queue workerId = some (payload, claimed)) :
    (queue.lists .ready).getLast? = some payload ∧
      ∀ other, claimed.Holds other ↔ queue.Holds other :=
  Store.rpoplpush_some taken

/-- An acknowledgement loses at most the task it names. -/
theorem holds_ack_of_ne (workerId : String) {payload other : JsonObject}
    (different : other ≠ payload) (held : queue.Holds other) :
    (ack queue workerId payload).Holds other :=
  Store.holds_lrem_of_ne queue (.inflight workerId) payload different held

theorem holds_of_ack {workerId : String} {payload other : JsonObject}
    (held : (ack queue workerId payload).Holds other) : queue.Holds other :=
  Store.holds_of_lrem queue (.inflight workerId) payload held

/-- A task moved to the dead letters and then acknowledged stays in the queue. -/
theorem holds_ack_moveToDlq (workerId : String) {payload other : JsonObject}
    (held : queue.Holds other) : (ack (moveToDlq queue payload) workerId payload).Holds other :=
  Store.holds_lrem_lpush queue (.inflight workerId) nofun held

theorem holds_of_ack_moveToDlq {workerId : String} {payload other : JsonObject}
    (held : (ack (moveToDlq queue payload) workerId payload).Holds other)
    (taken : queue.Holds payload) : queue.Holds other := by
  rcases (Store.holds_lpush queue .dlq payload other).mp (holds_of_ack _ held) with rfl | old
  · exact taken
  · exact old

end TaskQueue

end InsuranceOps
