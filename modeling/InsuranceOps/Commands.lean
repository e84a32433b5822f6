/-
This file models the task queue at the level of single Redis commands on raw
entries. Relays, workers, reapers, schedulers and operators are processes, each
of which remembers what it has read between two of its commands; one step is
one command of one process, so every interleaving is a run. A process may be
stopped for good after any command. The reaper works from an `LRANGE` snapshot
and ignores what its `LREM` returns.
-/

import InsuranceOps.Loaded
import InsuranceOps.Queue

namespace InsuranceOps

open ListStore

/-! ### Entries -/

/-- An entry of the queue as it is stored. -/
abbrev Bytes := List UInt8

/-- `json.dumps(payload, separators=(",", ":")).encode("utf-8")`; the text is ASCII. -/
def JsonObject.encoded (payload : JsonObject) : Bytes :=
  (Json.object payload).dumps.map fun char => UInt8.ofNat char.toNat

/-- `json.loads` on the entry of one task. -/
def loadsTask (payload : JsonObject) (item : Bytes) : Option Json :=
  if item = payload.encoded then some (.object payload) else none

/-- Where `json.loads` returns JSON and raises nothing but `ValueError`. -/
def loadsJson (loads : Bytes → Option Json) (item : Bytes) : Except LoadFailure Loaded :=
  match loads item with
  | none => .error .valueError
  | some value => .ok value.loaded

/-- The entries `[]`, `{}` and `!`. -/
def emptyArray : Bytes := [0x5B, 0x5D]

def emptyObject : Bytes := [0x7B, 0x7D]

def noJson : Bytes := [0x21]

/-- `json.loads` on these entries. -/
def loadsSample (item : Bytes) : Except LoadFailure Loaded :=
  if item = emptyArray then .ok (.array [])
  else if item = emptyObject then .ok (.object [])
  else .error .valueError

/-- A continuation byte of UTF-8. -/
def isContinuation (byte : UInt8) : Bool := 0x80 ≤ byte ∧ byte ≤ 0xBF

/-- The second byte that may follow a first byte: no overlong form, no surrogate, and nothing past
the last code point. -/
def mayFollow (first second : UInt8) : Bool :=
  if first = 0xE0 then 0xA0 ≤ second ∧ second ≤ 0xBF
  else if first = 0xED then 0x80 ≤ second ∧ second ≤ 0x9F
  else if first = 0xF0 then 0x90 ≤ second ∧ second ≤ 0xBF
  else if first = 0xF4 then 0x80 ≤ second ∧ second ≤ 0x8F
  else isContinuation second

/-- `entry.decode("utf-8")` does not raise. -/
def decodes : Bytes → Bool
  | [] => true
  | first :: rest =>
    if first < 0x80 then decodes rest
    else if first < 0xC2 then false
    else
      match rest with
      | [] => false
      | second :: rest =>
        if !mayFollow first second then false
        else if first < 0xE0 then decodes rest
        else
          match rest with
          | [] => false
          | third :: rest =>
            if !isContinuation third then false
            else if first < 0xF0 then decodes rest
            else
              match rest with
              | [] => false
              | fourth :: rest =>
                if first ≤ 0xF4 ∧ isContinuation fourth then decodes rest else false

/-- The entries at each key. -/
abbrev EntryQueue := Store QueueKey Bytes ℚ

/-- Entries of the delayed set are ordered by score and then by their bytes. -/
def scoredBefore (first second : Bytes × ℚ) : Prop :=
  first.2 < second.2 ∨ (first.2 = second.2 ∧ first.1 ≤ second.1)

instance : DecidableRel scoredBefore := fun _ _ => inferInstanceAs (Decidable (_ ∨ _))

/-! ### The verdict of the reaper -/

/-- `first >= second`, where `none` stands for `TypeError`. -/
def Json.atLeast (first second : Json) : Option Bool := first.loaded.atLeast second.loaded

/-- Where the reaper moves an entry. -/
inductive MoveTarget where
  | ready
  | dlq
  deriving DecidableEq

def MoveTarget.key : MoveTarget → QueueKey
  | .ready => .ready
  | .dlq => .dlq

/-- What the reaper does with an entry of an inflight list. -/
inductive Verdict where
  | leaves
  | raises
  | moves (target : MoveTarget)
  deriving DecidableEq

/-- A move of the reaper, which first decodes the entry. -/
def Verdict.move (item : Bytes) (target : MoveTarget) : Verdict :=
  if decodes item then .moves target else .raises

variable (loads : Bytes → Option Json) (visibilityTimeout : ℚ)

/-- Whether the attempt number of a task has reached the number of attempts it may have. -/
def isExhausted (payload : JsonObject) : Option Bool :=
  ((payload.get? "attempt_number").getD (.int 1)).atLeast
    ((payload.get? "max_attempts").getD (.int 3))

/-- What the reaper does with a task: one without a stamp goes back to the ready list, and so does
one with an overdue stamp, or to the dead letters when its attempts are used up. -/
def taskVerdict (now : ℚ) (item : Bytes) (payload : JsonObject) : Verdict :=
  match payload.get? "claimed_at" with
  | none | some .null => .move item .ready
  | some claimedAt =>
    match FloatValue.ofJson claimedAt with
    | none => .raises
    | some stamp =>
      if stamp.isOverdue now visibilityTimeout then
        match isExhausted payload with
        | none => .raises
        | some true => .move item .dlq
        | some false => .move item .ready
      else .leaves

/-- What the reaper does with an entry: a malformed one goes to the dead letters, and a value that
is no object raises. -/
def verdict (now : ℚ) (item : Bytes) : Verdict :=
  match loads item with
  | none => .move item .dlq
  | some (.object payload) => taskVerdict visibilityTimeout now item payload
  | some _ => .raises

/-! ### Processes -/

/-- A pass of the reaper: when it started, the inflight lists it still has to read, and the rest
of the list it has read. -/
structure ReaperPass where
  now : ℚ
  unread : List String
  workerId : String
  items : List Bytes

/-- What a process is about to do. -/
inductive QueueProcess where
  | idle
  | working (workerId : String) (item : Bytes)
  | deadLettered (workerId : String) (item : Bytes)
  | reaping (pass : ReaperPass)
  | moving (target : MoveTarget) (item : Bytes) (pass : ReaperPass)
  | maturing (maxScore : ℚ) (remaining : Nat)
  | promoting (item : Bytes) (maxScore : ℚ) (remaining : Nat)
  | restoring (item : Bytes) (score : ℚ)
  | requeuing (item : Bytes)

/-- The entry a process has removed from the queue and not pushed again. -/
def QueueProcess.hand : QueueProcess → Option Bytes
  | .moving _ item _ | .promoting item _ _ | .restoring item _ | .requeuing item => some item
  | .idle | .working _ _ | .deadLettered _ _ | .reaping _ | .maturing _ _ => none

/-- A command of a process, or the end of one: a worker that leaves its task inflight after an
exception, or a process that is stopped for good. -/
inductive QueueCommand where
  | enqueue (item : Bytes)
  | schedule (item : Bytes) (score : ℚ)
  | claim (workerId : String)
  | moveToDlq
  | ack
  | abandon
  | scan (now : ℚ) (workerIds : List String)
  | readInflight
  | examine
  | mature (now : ℚ) (batchSize : Nat)
  | popMin
  | push
  | requeue (item : Bytes)
  | drop (item : Bytes)
  | crash
  deriving DecidableEq

/-- The queue and the processes. -/
structure QueueState where
  queue : EntryQueue
  process : Nat → QueueProcess

namespace QueueState

/-- All processes are idle. -/
def resting (queue : EntryQueue) : QueueState := ⟨queue, fun _ => .idle⟩

/-- A command left this queue and its process at this point. -/
def set (state : QueueState) (index : Nat) (queue : EntryQueue) (process : QueueProcess) :
    QueueState :=
  ⟨queue, Function.update state.process index process⟩

/-- One command of one process; a command that is not its next one does nothing. -/
def step (state : QueueState) : Nat × QueueCommand → QueueState
  | (index, command) =>
    let queue := state.queue
    match state.process index, command with
    | _, .crash => state.set index queue .idle
    -- The relay.
    | .idle, .enqueue item => state.set index (queue.lpush .ready item) .idle
    | .idle, .schedule item score =>
      state.set index (queue.zadd scoredBefore .delayed item score) .idle
    -- A worker.
    | .idle, .claim workerId =>
      match queue.rpoplpush .ready (.inflight workerId) with
      | none => state
      | some (item, queue) => state.set index queue (.working workerId item)
    | .working workerId item, .moveToDlq =>
      state.set index (queue.lpush .dlq item) (.deadLettered workerId item)
    | .working workerId item, .ack | .deadLettered workerId item, .ack =>
      state.set index (if decodes item then queue.lrem (.inflight workerId) item else queue) .idle
    | .working _ _, .abandon => state.set index queue .idle
    -- A reaper.
    | .idle, .scan now workerIds => state.set index queue (.reaping ⟨now, workerIds, "", []⟩)
    | .reaping ⟨now, workerId :: unread, _, []⟩, .readInflight =>
      state.set index queue (.reaping ⟨now, unread, workerId, queue.lists (.inflight workerId)⟩)
    | .reaping ⟨_, [], _, []⟩, .readInflight => state.set index queue .idle
    | .reaping ⟨now, unread, workerId, item :: items⟩, .examine =>
      match verdict loads visibilityTimeout now item with
      | .leaves => state.set index queue (.reaping ⟨now, unread, workerId, items⟩)
      | .raises => state.set index queue .idle
      | .moves target =>
        state.set index (queue.lrem (.inflight workerId) item)
          (.moving target item ⟨now, unread, workerId, items⟩)
    | .moving target item pass, .push =>
      state.set index (queue.lpush target.key item) (.reaping pass)
    -- The scheduler.
    | .idle, .mature now batchSize =>
      state.set index queue (.maturing (TaskQueue.epochMs now) batchSize)
    | .maturing _ 0, .popMin => state.set index queue .idle
    | .maturing maxScore (remaining + 1), .popMin =>
      match queue.zpopmin .delayed with
      | none => state.set index queue .idle
      | some ((item, score), queue) =>
        state.set index queue
          (if maxScore < score then .restoring item score else .promoting item maxScore remaining)
    | .promoting item maxScore remaining, .push =>
      state.set index (queue.lpush .ready item) (.maturing maxScore remaining)
    | .restoring item score, .push =>
      state.set index (queue.zadd scoredBefore .delayed item score) .idle
    -- An operator.
    | .idle, .requeue item =>
      if decodes item ∧ item ∈ queue.lists .dlq then
        state.set index (queue.lrem .dlq item) (.requeuing item)
      else state
    | .requeuing item, .push => state.set index (queue.lpush .ready item) .idle
    | .idle, .drop item =>
      if decodes item then state.set index (queue.lrem .dlq item) .idle else state
    | _, _ => state

@[simp] theorem queue_set (state : QueueState) (index : Nat) (queue : EntryQueue)
    (process : QueueProcess) : (state.set index queue process).queue = queue := rfl

@[simp] theorem process_set_self (state : QueueState) (index : Nat) (queue : EntryQueue)
    (process : QueueProcess) : (state.set index queue process).process index = process :=
  Function.update_self _ _ _

@[simp] theorem process_set_of_ne (state : QueueState) {index other : Nat} (queue : EntryQueue)
    (process : QueueProcess) (different : other ≠ index) :
    (state.set index queue process).process other = state.process other :=
  Function.update_of_ne different _ _

@[simp] theorem set_set (state : QueueState) (index : Nat) (queue after : EntryQueue)
    (process next : QueueProcess) :
    (state.set index queue process).set index after next = state.set index after next := by
  unfold set
  rw [Function.update_idem]

/-- The task the relay pushes with a command. -/
def arrival (state : QueueState) : Nat × QueueCommand → Option Bytes
  | (index, .enqueue item) | (index, .schedule item _) =>
    match state.process index with
    | .idle => some item
    | _ => none
  | _ => none

/-- The task a worker acknowledges with a command, and the worker whose list it removes it from. -/
def acknowledged (state : QueueState) : Nat × QueueCommand → Option (String × Bytes)
  | (index, .ack) =>
    match state.process index with
    | .working workerId item | .deadLettered workerId item =>
      if decodes item then some (workerId, item) else none
    | _ => none
  | _ => none

/-- The task an operator drops from the dead letters with a command. -/
def dropped (state : QueueState) : Nat × QueueCommand → Option Bytes
  | (index, .drop item) =>
    match state.process index with
    | .idle => if decodes item ∧ item ∈ state.queue.lists .dlq then some item else none
    | _ => none
  | _ => none

/-- The entry a command takes out of a place to push it again later, with the queue it leaves. -/
def taken (state : QueueState) :
    Nat × QueueCommand → Option (Place QueueKey × Bytes × EntryQueue)
  | (index, command) =>
    match state.process index, command with
    | .reaping ⟨now, _, workerId, item :: _⟩, .examine =>
      match verdict loads visibilityTimeout now item with
      | .moves _ =>
        some (.list (.inflight workerId), item, state.queue.lrem (.inflight workerId) item)
      | .leaves | .raises => none
    | .maturing _ (_ + 1), .popMin =>
      (state.queue.zpopmin .delayed).map fun popped => (.sorted .delayed, popped.1.1, popped.2)
    | .idle, .requeue item =>
      if decodes item ∧ item ∈ state.queue.lists .dlq then
        some (.list .dlq, item, state.queue.lrem .dlq item)
      else none
    | _, _ => none

variable {loads visibilityTimeout}

/-- Taking an entry removes one occurrence from its place. -/
theorem occurs_of_taken {state : QueueState} {label : Nat × QueueCommand} {place : Place QueueKey}
    {item : Bytes} {queue : EntryQueue}
    (taken : state.taken loads visibilityTimeout label = some (place, item, queue)) (value : Bytes)
    (other : Place QueueKey) :
    queue.occurs value other =
      state.queue.occurs value other - if other = place ∧ item = value then 1 else 0 := by
  unfold QueueState.taken at taken
  dsimp only at taken
  split at taken
  · split at taken
    · cases taken
      exact Store.occurs_lrem _ _ _ _ _
    · cases taken
    · cases taken
  · obtain ⟨⟨⟨found, score⟩, next⟩, least, same⟩ := Option.map_eq_some_iff.mp taken
    cases same
    rw [Store.occurs_zpopmin least, Nat.add_sub_cancel]
  · split at taken
    · cases taken
      exact Store.occurs_lrem _ _ _ _ _
    · cases taken
  · cases taken

/-- Taking an entry leaves every other one. -/
theorem holds_of_taken {state : QueueState} {label : Nat × QueueCommand} {place : Place QueueKey}
    {item other : Bytes} {queue : EntryQueue}
    (taken : state.taken loads visibilityTimeout label = some (place, item, queue))
    (different : other ≠ item) (held : state.queue.Holds other) : queue.Holds other := by
  obtain ⟨found, positive⟩ := (Store.holds_iff_occurs _ _).mp held
  refine (Store.holds_iff_occurs _ _).mpr ⟨found, ?_⟩
  rw [occurs_of_taken taken, if_neg fun both => different both.2.symm]
  exact positive

/-- The queue a removal leaves is the queue after its command. -/
theorem queue_step_of_taken {state : QueueState} {label : Nat × QueueCommand}
    {place : Place QueueKey} {item : Bytes} {queue : EntryQueue}
    (taken : state.taken loads visibilityTimeout label = some (place, item, queue)) :
    (state.step loads visibilityTimeout label).queue = queue := by
  obtain ⟨index, command⟩ := label
  unfold QueueState.taken at taken
  dsimp only at taken
  split at taken
  · rename_i reaping
    split at taken
    · rename_i moves
      cases taken
      simp only [QueueState.step, reaping, moves, QueueState.queue_set]
    · cases taken
    · cases taken
  · rename_i maturing
    obtain ⟨⟨⟨found, score⟩, next⟩, least, same⟩ := Option.map_eq_some_iff.mp taken
    cases same
    simp only [QueueState.step, maturing, least, QueueState.queue_set]
  · rename_i idle
    split at taken
    · rename_i listed
      cases taken
      simp only [QueueState.step, idle, if_pos listed, QueueState.queue_set]
    · cases taken
  · cases taken

/-- A command that takes an entry acknowledges and drops none. -/
theorem settles_none_of_taken {state : QueueState} {label : Nat × QueueCommand}
    {place : Place QueueKey} {item : Bytes} {queue : EntryQueue}
    (taken : state.taken loads visibilityTimeout label = some (place, item, queue)) :
    state.acknowledged label = none ∧ state.dropped label = none := by
  obtain ⟨index, command⟩ := label
  unfold QueueState.taken at taken
  dsimp only at taken
  split at taken
  · exact ⟨rfl, rfl⟩
  · exact ⟨rfl, rfl⟩
  · exact ⟨rfl, rfl⟩
  · cases taken

end QueueState

variable (loads : Bytes → Option Json) (visibilityTimeout : ℚ)

/-! ### What a command does -/

/-- What a command does to the queue and to what its process holds in hand. -/
inductive QueueEffect (state : QueueState) (index : Nat) : QueueCommand → QueueState → Prop
  | stays (command : QueueCommand) : QueueEffect state index command state
  | turns {command : QueueCommand} {process : QueueProcess}
      (before : (state.process index).hand = none ∨ command = .crash)
      (after : process.hand = none) :
      QueueEffect state index command (state.set index state.queue process)
  | enqueues {item : Bytes} (idle : state.process index = .idle) :
      QueueEffect state index (.enqueue item)
        (state.set index (state.queue.lpush .ready item) .idle)
  | schedules {item : Bytes} {score : ℚ} (idle : state.process index = .idle) :
      QueueEffect state index (.schedule item score)
        (state.set index (state.queue.zadd scoredBefore .delayed item score) .idle)
  | claims {workerId : String} {item : Bytes} {queue : EntryQueue}
      (idle : state.process index = .idle)
      (claimed : state.queue.rpoplpush .ready (.inflight workerId) = some (item, queue)) :
      QueueEffect state index (.claim workerId) (state.set index queue (.working workerId item))
  | deadLetters {workerId : String} {item : Bytes}
      (worker : state.process index = .working workerId item) :
      QueueEffect state index .moveToDlq
        (state.set index (state.queue.lpush .dlq item) (.deadLettered workerId item))
  | acks {workerId : String} {item : Bytes}
      (acknowledged : state.acknowledged (index, .ack) = some (workerId, item))
      (before : (state.process index).hand = none) :
      QueueEffect state index .ack
        (state.set index (state.queue.lrem (.inflight workerId) item) .idle)
  | takes {command : QueueCommand} {place : Place QueueKey} {item : Bytes} {queue : EntryQueue}
      {process : QueueProcess}
      (taken : state.taken loads visibilityTimeout (index, command) = some (place, item, queue))
      (before : (state.process index).hand = none) (after : process.hand = some item) :
      QueueEffect state index command (state.set index queue process)
  | pushes (target : MoveTarget) {item : Bytes} {process : QueueProcess}
      (before : (state.process index).hand = some item) (after : process.hand = none) :
      QueueEffect state index .push (state.set index (state.queue.lpush target.key item) process)
  | restores {item : Bytes} {score : ℚ} (before : (state.process index).hand = some item) :
      QueueEffect state index .push
        (state.set index (state.queue.zadd scoredBefore .delayed item score) .idle)
  | drops {item : Bytes} (idle : state.process index = .idle) (decoded : decodes item = true) :
      QueueEffect state index (.drop item)
        (state.set index (state.queue.lrem .dlq item) .idle)

/-- The effect of every command. -/
theorem QueueState.step_effect (state : QueueState) (index : Nat) (command : QueueCommand) :
    QueueEffect loads visibilityTimeout state index command
      (state.step loads visibilityTimeout (index, command)) := by
  unfold QueueState.step
  dsimp only
  split
  · exact .turns (.inr rfl) rfl
  · rename_i idle
    exact .enqueues idle
  · rename_i idle
    exact .schedules idle
  · rename_i idle
    split
    · exact .stays _
    · rename_i claimed
      exact .claims idle claimed
  · rename_i working
    exact .deadLetters working
  · rename_i working
    split
    · rename_i decoded
      exact .acks (by simp only [QueueState.acknowledged, working, decoded, if_true])
        (by rw [working]; rfl)
    · exact .turns (.inl (by rw [working]; rfl)) rfl
  · rename_i deadLettered
    split
    · rename_i decoded
      exact .acks (by simp only [QueueState.acknowledged, deadLettered, decoded, if_true])
        (by rw [deadLettered]; rfl)
    · exact .turns (.inl (by rw [deadLettered]; rfl)) rfl
  · rename_i working
    exact .turns (.inl (by rw [working]; rfl)) rfl
  · rename_i idle
    exact .turns (.inl (by rw [idle]; rfl)) rfl
  · rename_i reaping
    exact .turns (.inl (by rw [reaping]; rfl)) rfl
  · rename_i reaping
    exact .turns (.inl (by rw [reaping]; rfl)) rfl
  · rename_i workerId item items reaping
    split
    · exact .turns (.inl (by rw [reaping]; rfl)) rfl
    · exact .turns (.inl (by rw [reaping]; rfl)) rfl
    · rename_i moves
      have taken : state.taken loads visibilityTimeout (index, .examine) = some
          (.list (.inflight workerId), item, state.queue.lrem (.inflight workerId) item) := by
        simp only [QueueState.taken, reaping, moves]
      exact .takes taken (by rw [reaping]; rfl) rfl
  · rename_i moving
    exact .pushes _ (by rw [moving]; rfl) rfl
  · rename_i idle
    exact .turns (.inl (by rw [idle]; rfl)) rfl
  · rename_i maturing
    exact .turns (.inl (by rw [maturing]; rfl)) rfl
  · rename_i maturing
    split
    · exact .turns (.inl (by rw [maturing]; rfl)) rfl
    · rename_i item score queue least
      have taken : state.taken loads visibilityTimeout (index, .popMin) =
          some (.sorted .delayed, item, queue) := by
        simp only [QueueState.taken, maturing, least, Option.map_some]
      refine .takes taken (by rw [maturing]; rfl) ?_
      split <;> rfl
  · rename_i promoting
    exact .pushes .ready (by rw [promoting]; rfl) rfl
  · rename_i restoring
    exact .restores (by rw [restoring]; rfl)
  · rename_i item idle
    split
    · rename_i found
      have taken : state.taken loads visibilityTimeout (index, .requeue item) =
          some (.list .dlq, item, state.queue.lrem .dlq item) := by
        simp only [QueueState.taken, idle, if_pos found]
      exact .takes taken (by rw [idle]; rfl) rfl
    · exact .stays _
  · rename_i requeuing
    exact .pushes .ready (by rw [requeuing]; rfl) rfl
  · rename_i idle
    split
    · rename_i decoded
      exact .drops idle decoded
    · exact .stays _
  · exact .stays _

/-- A command of one process changes no other process. -/
theorem QueueState.process_step_of_ne (state : QueueState) {index other : Nat}
    (command : QueueCommand) (different : other ≠ index) :
    (state.step loads visibilityTimeout (index, command)).process other = state.process other := by
  have effect := state.step_effect loads visibilityTimeout index command
  generalize state.step loads visibilityTimeout (index, command) = next at effect
  cases effect with
  | stays => rfl
  | _ => exact QueueState.process_set_of_ne _ _ _ different

/-! ### Histories -/

/-- A state of the queue with the tasks pushed, acknowledged and dropped so far. -/
structure QueueHistory where
  state : QueueState
  pushed : List Bytes
  acked : List Bytes
  dropped : List Bytes

namespace QueueHistory

/-- All processes rest and nothing was recorded yet. -/
def start (queue : EntryQueue) : QueueHistory := ⟨.resting queue, [], [], []⟩

/-- One command, recorded. -/
def step (history : QueueHistory) (label : Nat × QueueCommand) : QueueHistory where
  state := history.state.step loads visibilityTimeout label
  pushed := (history.state.arrival label).toList ++ history.pushed
  acked := ((history.state.acknowledged label).map Prod.snd).toList ++ history.acked
  dropped := (history.state.dropped label).toList ++ history.dropped

end QueueHistory

end InsuranceOps
