/-
This file proves when the reaper respects the visibility timeout. The age of an
entry is counted from the stamp the relay wrote into it when it pushed it; a
claim does not refresh the stamp. So the time a task waited before its claim,
and every earlier claim, counts against the worker that holds it now. The
reaper waits for the timeout after the last claim of every entry that is
claimed no later than its stamp says, and of no other.
-/

import InsuranceOps.Commands
import InsuranceOps.Library.Transition

namespace InsuranceOps

open ListStore

/-! ### Runs with a clock -/

/-- The task a worker moves into its inflight list with a command. -/
def QueueState.claimed (state : QueueState) : Nat × QueueCommand → Option (String × Bytes)
  | (index, .claim workerId) =>
    match state.process index with
    | .idle => (state.queue.lists .ready).getLast?.map fun item => (workerId, item)
    | _ => none
  | _ => none

/-- A command that reads the clock reads the common one. -/
def QueueCommand.readClock (clock : ℚ) : QueueCommand → QueueCommand
  | .scan _ workerIds => .scan clock workerIds
  | .mature _ batchSize => .mature clock batchSize
  | command => command

/-- The queue, a clock, and when each entry was last moved into each inflight list by a claim. -/
structure ClaimClock where
  state : QueueState
  clock : ℚ
  lastClaim : String → Bytes → Option ℚ

variable (loads : Bytes → Option Json) (visibilityTimeout : ℚ)

/-- The reaper would leave an entry that was claimed at a time, once the timeout has just passed:
its stamp is not older than its claim. -/
def isFresh (claimTime : ℚ) (item : Bytes) : Bool :=
  match verdict loads visibilityTimeout (claimTime + visibilityTimeout) item with
  | .moves _ => false
  | .leaves | .raises => true

namespace ClaimClock

/-- An empty queue at some time. -/
def start (clock : ℚ) : ClaimClock := ⟨.resting .empty, clock, fun _ _ => none⟩

/-- The time of a command; the clock does not go back. -/
def time (timed : ClaimClock) (label : ℚ × Nat × QueueCommand) : ℚ := max timed.clock label.1

/-- One command at a time. -/
def step (timed : ClaimClock) (label : ℚ × Nat × QueueCommand) : ClaimClock where
  state := timed.state.step loads visibilityTimeout
    (label.2.1, label.2.2.readClock (timed.time label))
  clock := timed.time label
  lastClaim :=
    match timed.state.claimed label.2 with
    | some (workerId, item) => Function.update timed.lastClaim workerId
      (Function.update (timed.lastClaim workerId) item (some (timed.time label)))
    | none => timed.lastClaim

/-- Entries are looked up in lists by their equality. -/
local instance entryEquality : LawfulBEq Bytes := inferInstance

/-- The entry of an inflight list that a reaper removes with a command. -/
def reaped (timed : ClaimClock) (label : ℚ × Nat × QueueCommand) : Option (String × Bytes) :=
  match timed.state.taken loads visibilityTimeout label.2 with
  | some (.list (.inflight workerId), item, _) =>
    if item ∈ timed.state.queue.lists (.inflight workerId) then some (workerId, item) else none
  | _ => none

/-- What a reaper removes was last claimed more than the timeout before. -/
def reapsTimedOut (timed : ClaimClock) (label : ℚ × Nat × QueueCommand) : Bool :=
  (timed.reaped loads visibilityTimeout label).all fun (workerId, item) =>
    (timed.lastClaim workerId item).any fun since => visibilityTimeout < timed.time label - since

/-- What a worker claims has a stamp that is not older than the claim. -/
def claimsFresh (timed : ClaimClock) (label : ℚ × Nat × QueueCommand) : Bool :=
  (timed.state.claimed label.2).all fun (_, item) =>
    isFresh loads visibilityTimeout (timed.time label) item

end ClaimClock

/-! ### Verdicts over time -/

section Verdicts

variable {loads : Bytes → Option Json} {visibilityTimeout : ℚ}

theorem FloatValue.isOverdue_mono {stamp : FloatValue} {now later timeout : ℚ} (after : now ≤ later)
    (overdue : stamp.isOverdue now timeout = true) : stamp.isOverdue later timeout = true := by
  cases stamp with
  | finite value =>
    simp only [isOverdue, decide_eq_true_eq] at overdue ⊢
    linarith
  | infinite negative => exact overdue
  | nan => exact overdue

/-- What the reaper moves at some time it moves at every later one. -/
theorem verdict_moves_mono {now later : ℚ} {item : Bytes} {target : MoveTarget}
    (after : now ≤ later) (moves : verdict loads visibilityTimeout now item = .moves target) :
    verdict loads visibilityTimeout later item = .moves target := by
  unfold verdict at moves ⊢
  split at moves
  · exact moves
  · rename_i payload _
    unfold taskVerdict at moves ⊢
    split at moves
    · exact moves
    · exact moves
    · split at moves
      · cases moves
      · rename_i stamp _
        split at moves
        · rename_i overdue
          rw [if_pos (FloatValue.isOverdue_mono after overdue)]
          exact moves
        · cases moves
  · cases moves

/-- The reaper takes a fresh entry only after the timeout has passed since its claim. -/
theorem timedOut_of_isFresh {claimTime now : ℚ} {item : Bytes} {target : MoveTarget}
    (fresh : isFresh loads visibilityTimeout claimTime item = true)
    (moves : verdict loads visibilityTimeout now item = .moves target) :
    visibilityTimeout < now - claimTime := by
  by_contra early
  have reached : now ≤ claimTime + visibilityTimeout := by linarith
  have later := verdict_moves_mono reached moves
  simp only [isFresh, later, Bool.false_eq_true] at fresh

/-- An entry with a readable stamp is fresh at a claim that is not later than the stamp. -/
theorem isFresh_iff {claimTime stamp : ℚ} {item : Bytes} {payload : JsonObject} {claimedAt : Json}
    (loaded : loads item = some (.object payload)) (decoded : decodes item = true)
    (stamped : payload.get? "claimed_at" = some claimedAt)
    (read : FloatValue.ofJson claimedAt = some (.finite stamp))
    (compared : (isExhausted payload).isSome = true) :
    isFresh loads visibilityTimeout claimTime item = true ↔ claimTime ≤ stamp := by
  have overdue : (FloatValue.finite stamp).isOverdue (claimTime + visibilityTimeout)
      visibilityTimeout = true ↔ stamp < claimTime := by
    simp only [FloatValue.isOverdue, decide_eq_true_eq]
    constructor <;> intro less <;> linarith
  obtain ⟨exhausted, comparison⟩ := Option.isSome_iff_exists.mp compared
  have judged : verdict loads visibilityTimeout (claimTime + visibilityTimeout) item =
      if stamp < claimTime then .moves (if exhausted then .dlq else .ready) else .leaves := by
    unfold verdict taskVerdict
    rw [loaded]
    dsimp only
    rw [stamped]
    cases claimedAt with
    | null => cases read
    | _ =>
      dsimp only
      rw [read, comparison]
      dsimp only
      simp only [overdue]
      cases exhausted <;> simp [Verdict.move, decoded]
  unfold isFresh
  rw [judged]
  by_cases less : stamp < claimTime
  · simp [less, not_le.mpr less]
  · simp [less, not_lt.mp less]

end Verdicts

/-! ### Every run -/

section Steps

variable {loads : Bytes → Option Json} {visibilityTimeout : ℚ} {state : QueueState}

/-- When the pass a process is in started. -/
def QueueProcess.passNow : QueueProcess → Option ℚ
  | .reaping pass | .moving _ _ pass => some pass.now
  | _ => none

/-- Only a scan starts a pass. -/
theorem QueueState.passNow_step {index other : Nat} {command : QueueCommand} {now : ℚ}
    (inPass : ((state.step loads visibilityTimeout (index, command)).process other).passNow =
      some now) :
    (state.process other).passNow = some now ∨ ∃ workerIds, command = .scan now workerIds := by
  by_cases self : other = index
  · rw [self] at inPass ⊢
    unfold QueueState.step at inPass
    dsimp only at inPass
    split at inPass
    -- A scan starts a pass, and the commands of a reaper go on with its pass.
    case h_9 =>
      rw [QueueState.process_set_self] at inPass
      cases inPass
      exact .inr ⟨_, rfl⟩
    case h_10 reaping =>
      rw [QueueState.process_set_self] at inPass
      exact .inl (by rw [reaping]; exact inPass)
    case h_12 reaping =>
      rw [reaping]
      left
      split at inPass
      · rwa [QueueState.process_set_self] at inPass
      · rw [QueueState.process_set_self] at inPass
        cases inPass
      · rwa [QueueState.process_set_self] at inPass
    case h_13 moving =>
      rw [QueueState.process_set_self] at inPass
      exact .inl (by rw [moving]; exact inPass)
    -- All other commands leave their process out of a pass, or where it was.
    case h_4 =>
      split at inPass
      · exact .inl inPass
      · rw [QueueState.process_set_self] at inPass
        cases inPass
    case h_16 =>
      split at inPass
      · rw [QueueState.process_set_self] at inPass
        cases inPass
      · rw [QueueState.process_set_self] at inPass
        split at inPass <;> cases inPass
    case h_19 | h_21 =>
      split at inPass
      · rw [QueueState.process_set_self] at inPass
        cases inPass
      · exact .inl inPass
    case h_22 => exact .inl inPass
    all_goals
      rw [QueueState.process_set_self] at inPass
      cases inPass
  · rw [QueueState.process_step_of_ne loads visibilityTimeout state command self] at inPass
    exact .inl inPass

/-- An entry that is in an inflight list after a command was there before or is claimed by it. -/
theorem QueueState.inflight_step {index : Nat} {command : QueueCommand} {workerId : String}
    {item : Bytes}
    (listed : item ∈ (state.step loads visibilityTimeout (index, command)).queue.lists
      (.inflight workerId)) :
    item ∈ state.queue.lists (.inflight workerId) ∨
      state.claimed (index, command) = some (workerId, item) := by
  have positive := (Store.mem_lists_iff _ _ _).mp listed
  rw [Store.mem_lists_iff]
  have effect := state.step_effect loads visibilityTimeout index command
  generalize state.step loads visibilityTimeout (index, command) = next at effect positive
  cases effect with
  | stays => exact .inl positive
  | turns => exact .inl positive
  | enqueues => exact .inl (by simpa [Store.occurs_lpush] using positive)
  | schedules => exact .inl (by simpa [Store.occurs_zadd] using positive)
  | deadLetters => exact .inl (by simpa [Store.occurs_lpush] using positive)
  | pushes target =>
    exact .inl (by cases target <;> simpa [Store.occurs_lpush, MoveTarget.key] using positive)
  | restores => exact .inl (by simpa [Store.occurs_zadd] using positive)
  | acks => exact .inl (Nat.lt_of_lt_of_le positive
      ((Store.occurs_lrem _ _ _ _ _).trans_le (Nat.sub_le _ _)))
  | drops => exact .inl (Nat.lt_of_lt_of_le positive
      ((Store.occurs_lrem _ _ _ _ _).trans_le (Nat.sub_le _ _)))
  | takes taken =>
    exact .inl (Nat.lt_of_lt_of_le positive
      ((QueueState.occurs_of_taken taken _ _).trans_le (Nat.sub_le _ _)))
  | @claims worker moved queue idle claimed =>
    have counts := Store.occurs_rpoplpush claimed item (.list (.inflight workerId))
    simp only [Place.list.injEq, reduceCtorEq, false_and, if_false, Nat.add_zero] at counts
    by_cases both : QueueKey.inflight workerId = .inflight worker ∧ moved = item
    · refine .inr ?_
      obtain ⟨same, rfl⟩ := both
      cases same
      simp only [QueueState.claimed, idle, (Store.rpoplpush_some claimed).1, Option.map_some]
    · rw [if_neg both, Nat.add_zero] at counts
      exact .inl (counts ▸ positive)

/-- What a reaper removes it judged at the start of its pass. -/
theorem QueueState.judged_of_taken {index : Nat} {command : QueueCommand} {workerId : String}
    {item : Bytes} {queue : EntryQueue}
    (taken : state.taken loads visibilityTimeout (index, command) =
      some (.list (.inflight workerId), item, queue)) :
    ∃ now target, (state.process index).passNow = some now ∧
      verdict loads visibilityTimeout now item = .moves target := by
  unfold QueueState.taken at taken
  dsimp only at taken
  split at taken
  · rename_i reaping
    split at taken
    · rename_i moves
      cases taken
      exact ⟨_, _, by rw [reaping]; rfl, moves⟩
    · cases taken
    · cases taken
  · obtain ⟨_, -, same⟩ := Option.map_eq_some_iff.mp taken
    cases same
  · split at taken
    · cases taken
    · cases taken
  · cases taken

end Steps

namespace ClaimClock

variable {loads : Bytes → Option Json} {visibilityTimeout : ℚ} {timed : ClaimClock}

/-- Every entry of an inflight list was fresh at its last claim, and every pass has started. -/
structure FreshClaims (loads : Bytes → Option Json) (visibilityTimeout : ℚ) (timed : ClaimClock) :
    Prop where
  fresh : ∀ workerId item, item ∈ timed.state.queue.lists (.inflight workerId) →
    ∃ since, timed.lastClaim workerId item = some since ∧
      isFresh loads visibilityTimeout since item = true
  started : ∀ index now, (timed.state.process index).passNow = some now → now ≤ timed.clock

/-- Commands are not changed by reading the clock where they claim or take an entry. -/
theorem claimed_readClock (state : QueueState) (clock : ℚ) (index : Nat) (command : QueueCommand) :
    state.claimed (index, command.readClock clock) = state.claimed (index, command) := by
  cases command <;> rfl

/-- One command, with claims of fresh entries only. -/
theorem FreshClaims.step (claims : FreshClaims loads visibilityTimeout timed)
    (label : ℚ × Nat × QueueCommand)
    (fresh : timed.claimsFresh loads visibilityTimeout label = true) :
    FreshClaims loads visibilityTimeout (timed.step loads visibilityTimeout label) := by
  obtain ⟨reading, index, command⟩ := label
  simp only [claimsFresh, Option.all_eq_true] at fresh
  refine ⟨fun workerId item listed => ?_, fun other now inPass => ?_⟩
  · have source := QueueState.inflight_step listed
    rw [claimed_readClock] at source
    show ∃ since, (match timed.state.claimed (index, command) with
      | some (worker, moved) => Function.update timed.lastClaim worker
        (Function.update (timed.lastClaim worker) moved
          (some (timed.time (reading, index, command))))
      | none => timed.lastClaim) workerId item = some since ∧ _
    cases claimed : timed.state.claimed (index, command) with
    | none =>
      rw [claimed] at source
      exact claims.fresh workerId item (source.resolve_right nofun)
    | some entry =>
      obtain ⟨worker, moved⟩ := entry
      by_cases same : worker = workerId ∧ moved = item
      · obtain ⟨rfl, rfl⟩ := same
        refine ⟨_, ?_, fresh _ claimed⟩
        dsimp only
        rw [Function.update_self, Function.update_self]
      · have before : item ∈ timed.state.queue.lists (.inflight workerId) := by
          refine source.resolve_right fun equal => same ?_
          rw [claimed] at equal
          cases equal
          exact ⟨rfl, rfl⟩
        obtain ⟨since, recorded, isFresh⟩ := claims.fresh workerId item before
        refine ⟨since, ?_, isFresh⟩
        dsimp only
        by_cases ofWorker : workerId = worker
        · subst ofWorker
          rw [Function.update_self, Function.update_of_ne fun equal => same ⟨rfl, equal.symm⟩]
          exact recorded
        · rw [Function.update_of_ne ofWorker]
          exact recorded
  · rcases QueueState.passNow_step inPass with before | ⟨workerIds, scans⟩
    · exact (claims.started other now before).trans (le_max_left _ _)
    · cases command <;> cases scans
      exact le_refl _

/-- What a reaper removes was fresh at its last claim, so the timeout has passed since. -/
theorem FreshClaims.reapsTimedOut (claims : FreshClaims loads visibilityTimeout timed)
    (label : ℚ × Nat × QueueCommand) :
    timed.reapsTimedOut loads visibilityTimeout label = true := by
  simp only [ClaimClock.reapsTimedOut, Option.all_eq_true]
  rintro ⟨workerId, item⟩ reaped
  unfold ClaimClock.reaped at reaped
  split at reaped
  · rename_i taken
    split at reaped
    · rename_i listed
      cases reaped
      obtain ⟨since, claimed, fresh⟩ := claims.fresh workerId item listed
      obtain ⟨now, target, inPass, moves⟩ := QueueState.judged_of_taken taken
      have started := claims.started label.2.1 now inPass
      have passed := timedOut_of_isFresh fresh moves
      have reached : timed.clock ≤ timed.time label := le_max_left _ _
      simp only [claimed, Option.any_some, decide_eq_true_eq]
      linarith
    · cases reaped
  · cases reaped

theorem freshClaims_start (clock : ℚ) :
    FreshClaims loads visibilityTimeout (start clock) where
  fresh _ _ listed := absurd listed List.not_mem_nil
  started _ _ inPass := by cases inPass

/-- In every run in which every claimed entry has a stamp that is not older than the claim, a reaper
removes an entry from an inflight list only after the timeout has passed since its last claim. The
age counts from the stamp, so it is at most the time since the claim when the stamp is no older. -/
theorem reaps_timed_out (loads : Bytes → Option Json) (visibilityTimeout clock : ℚ)
    (labels : List (ℚ × Nat × QueueCommand))
    (fresh : Transition.Along (step loads visibilityTimeout)
      (fun timed label => timed.claimsFresh loads visibilityTimeout label = true) (start clock)
      labels) :
    Transition.Along (step loads visibilityTimeout)
      (fun timed label => timed.reapsTimedOut loads visibilityTimeout label = true) (start clock)
      labels :=
  Transition.along_of_invariant _ (FreshClaims loads visibilityTimeout)
    (fun _ label claims fresh => claims.step label fresh)
    (fun _ label claims _ => claims.reapsTimedOut label) _ (freshClaims_start clock) labels fresh

/-- A pass of a reaper that takes the newest entry of the list of one worker. -/
def reaperPass (time : ℚ) (index : Nat) (workerId : String) : List (ℚ × Nat × QueueCommand) :=
  [(time, index, .crash), (time, index, .scan time [workerId]), (time, index, .readInflight),
    (time, index, .examine)]

/-- A reaper that comes before the timeout has passed since the last claim of the newest entry of a
list, but would move it, removes it too early. -/
theorem not_along_reaperPass {index : Nat} {workerId : String} {item : Bytes} {rest : List Bytes}
    {time since : ℚ} {target : MoveTarget} (reached : timed.clock ≤ time)
    (listed : timed.state.queue.lists (.inflight workerId) = item :: rest)
    (claimed : timed.lastClaim workerId item = some since)
    (moves : verdict loads visibilityTimeout time item = .moves target)
    (early : ¬visibilityTimeout < time - since) :
    ¬Transition.Along (step loads visibilityTimeout)
      (fun timed label => timed.reapsTimedOut loads visibilityTimeout label = true) timed
      (reaperPass time index workerId) := by
  have stopped : timed.step loads visibilityTimeout (time, index, .crash) =
      ⟨timed.state.set index timed.state.queue .idle, time, timed.lastClaim⟩ := by
    simp [step, ClaimClock.time, QueueCommand.readClock, QueueState.step, QueueState.claimed,
      max_eq_right reached]
  have scanned (state : QueueState) (idle : state.process index = .idle) :
      (⟨state, time, timed.lastClaim⟩ : ClaimClock).step loads visibilityTimeout
        (time, index, .scan time [workerId]) = ⟨state.set index state.queue
          (.reaping ⟨time, [workerId], "", []⟩), time, timed.lastClaim⟩ := by
    simp [step, ClaimClock.time, QueueCommand.readClock, QueueState.step, QueueState.claimed, idle]
  have read (state : QueueState)
      (reaping : state.process index = .reaping ⟨time, [workerId], "", []⟩) :
      (⟨state, time, timed.lastClaim⟩ : ClaimClock).step loads visibilityTimeout
        (time, index, .readInflight) = ⟨state.set index state.queue
          (.reaping ⟨time, [], workerId, state.queue.lists (.inflight workerId)⟩), time,
          timed.lastClaim⟩ := by
    simp [step, ClaimClock.time, QueueCommand.readClock, QueueState.step, QueueState.claimed,
      reaping]
  rintro ⟨-, -, -, reaps, -⟩
  rw [stopped, scanned _ (QueueState.process_set_self _ _ _ _), QueueState.set_set,
    read _ (QueueState.process_set_self _ _ _ _), QueueState.set_set] at reaps
  simp [ClaimClock.reapsTimedOut, ClaimClock.reaped, QueueState.taken, listed, moves, claimed,
    ClaimClock.time] at reaps
  exact early reaps

/-- After a claim of an entry that is not fresh, a reaper can come exactly when the timeout has
passed and remove the entry too early. -/
theorem not_along_of_stale_claim {index : Nat} {workerId : String} {item : Bytes} {reading : ℚ}
    (timeout : 0 ≤ visibilityTimeout)
    (claimed : timed.state.claimed (index, .claim workerId) = some (workerId, item))
    (stale : isFresh loads visibilityTimeout (timed.time (reading, index, .claim workerId)) item =
      false) :
    ¬Transition.Along (step loads visibilityTimeout)
      (fun timed label => timed.reapsTimedOut loads visibilityTimeout label = true) timed
      ((reading, index, .claim workerId) :: reaperPass
        (timed.time (reading, index, .claim workerId) + visibilityTimeout) (index + 1)
        workerId) := by
  obtain ⟨idle, ready⟩ : timed.state.process index = .idle ∧
      (timed.state.queue.lists .ready).getLast? = some item := by
    unfold QueueState.claimed at claimed
    dsimp only at claimed
    split at claimed
    · rename_i idle
      obtain ⟨found, ready, same⟩ := Option.map_eq_some_iff.mp claimed
      cases same
      exact ⟨idle, ready⟩
    · cases claimed
  generalize time : timed.time (reading, index, .claim workerId) = claimTime at stale ⊢
  obtain ⟨target, moves⟩ : ∃ target,
      verdict loads visibilityTimeout (claimTime + visibilityTimeout) item = .moves target := by
    unfold isFresh at stale
    split at stale
    · exact ⟨_, by assumption⟩
    · cases stale
    · cases stale
  have listed : (timed.step loads visibilityTimeout
      (reading, index, .claim workerId)).state.queue.lists (.inflight workerId) =
        item :: timed.state.queue.lists (.inflight workerId) := by
    simp [step, QueueCommand.readClock, QueueState.step, idle, Store.rpoplpush, ready, Store.lpush]
  have recorded : (timed.step loads visibilityTimeout
      (reading, index, .claim workerId)).lastClaim workerId item = some claimTime := by
    simp [step, claimed, time]
  have reached : (timed.step loads visibilityTimeout (reading, index, .claim workerId)).clock ≤
      claimTime + visibilityTimeout := by
    show timed.time (reading, index, .claim workerId) ≤ _
    rw [time]
    exact le_add_of_nonneg_right timeout
  rintro ⟨-, pass⟩
  exact not_along_reaperPass reached listed recorded moves (by linarith) pass

/-- A task with a stamp. -/
def stampedTask : JsonObject := [("claimed_at", .string "100.0"), ("max_attempts", .int 3)]

/-- The stamped task is pushed, claimed at some time, and later taken by a reaper. -/
def claimedAt (claimTime reapTime : ℚ) : List (ℚ × Nat × QueueCommand) :=
  [(100, 0, .enqueue stampedTask.encoded), (claimTime, 1, .claim "w")] ++
    reaperPass reapTime 2 "w"

/-- A task that is claimed as soon as it is pushed is taken when the timeout has passed. -/
theorem reaps_timed_out_at_once :
    Transition.Along (step (loadsTask stampedTask) 60)
      (fun timed label => timed.reapsTimedOut (loadsTask stampedTask) 60 label = true) (start 0)
      (claimedAt 100 170) :=
  reaps_timed_out (loadsTask stampedTask) 60 0 (claimedAt 100 170) (by decide +kernel)

/-- A task that waited in the ready list is taken from its worker ten seconds after the claim. -/
theorem waiting_counts_as_age :
    ¬Transition.Along (step (loadsTask stampedTask) 60)
      (fun timed label => timed.reapsTimedOut (loadsTask stampedTask) 60 label = true) (start 0)
      (claimedAt 160 170) := by
  decide +kernel

end ClaimClock

end InsuranceOps
