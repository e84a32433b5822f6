/-
This file proves which tasks the reaper returns to the ready list a bounded
number of times while no worker acknowledges them. The attempt number the
verdict compares with the allowed attempts travels in the payload, and nothing
on the way from an inflight list to the ready list and back counts it up. So
the verdict on a task stays what it is: either the reaper never returns the
task, or it returns it again and again without end.
-/

import InsuranceOps.Commands
import InsuranceOps.Library.Transition

namespace InsuranceOps

open ListStore

/-! ### Bounded tasks -/

/-- A stamp that becomes overdue at some time. -/
def FloatValue.ages : FloatValue → Bool
  | .finite _ => true
  | .infinite negative => negative
  | .nan => false

/-- A task with a stamp that never becomes overdue, or whose attempts are used up. -/
def Bounded (payload : JsonObject) (attemptNumber maxAttempts : Int) : Prop :=
  ∃ claimedAt, payload.get? "claimed_at" = some claimedAt ∧ claimedAt ≠ .null ∧
    ((FloatValue.ofJson claimedAt).any FloatValue.ages = true → maxAttempts ≤ attemptNumber)

/-- A command of a reaper pushes this task on the ready list. -/
def QueueState.returns (item : Bytes) (state : QueueState) : Nat × QueueCommand → Bool
  | (index, .push) =>
    match state.process index with
    | .moving .ready moved _ => moved = item
    | _ => false
  | _ => false

variable (loads : Bytes → Option Json) (visibilityTimeout : ℚ)

/-- In every run in which no worker acknowledges a task, reapers return it to the ready list at most
so many times. -/
def ReturnsAtMost (item : Bytes) (bound : Nat) : Prop :=
  ∀ queue labels,
    Transition.Along (QueueState.step loads visibilityTimeout)
      (fun state label => (state.acknowledged label).map Prod.snd ≠ some item)
      (.resting queue) labels →
    Transition.tally (QueueState.step loads visibilityTimeout) (QueueState.returns item)
      (.resting queue) labels ≤ bound

variable {loads visibilityTimeout}

/-! ### What a process moves -/

/-- A process that moves an entry has judged it. -/
def Judged (loads : Bytes → Option Json) (visibilityTimeout : ℚ) (state : QueueState) : Prop :=
  ∀ index target item pass, state.process index = .moving target item pass →
    ∃ now, verdict loads visibilityTimeout now item = .moves target

/-- What a process that takes an entry does with it: if it moves it, it has judged it. -/
theorem QueueState.step_of_taken {state : QueueState} {label : Nat × QueueCommand}
    {place : Place QueueKey} {item : Bytes} {queue : EntryQueue}
    (taken : state.taken loads visibilityTimeout label = some (place, item, queue))
    {target : MoveTarget} {moved : Bytes} {pass : ReaperPass}
    (moving : (state.step loads visibilityTimeout label).process label.1 =
      .moving target moved pass) :
    ∃ now, verdict loads visibilityTimeout now moved = .moves target := by
  obtain ⟨index, command⟩ := label
  unfold QueueState.taken at taken
  dsimp only at taken moving
  split at taken
  · rename_i reaping
    split at taken
    · rename_i moves
      simp only [QueueState.step, reaping, moves, QueueState.process_set_self] at moving
      cases moving
      exact ⟨_, moves⟩
    · cases taken
    · cases taken
  · rename_i maturing
    obtain ⟨⟨⟨found, score⟩, next⟩, least, -⟩ := Option.map_eq_some_iff.mp taken
    simp only [QueueState.step, maturing, least, QueueState.process_set_self] at moving
    split at moving <;> cases moving
  · rename_i idle
    split at taken
    · rename_i listed
      simp only [QueueState.step, idle, if_pos listed, QueueState.process_set_self] at moving
      cases moving
    · cases taken
  · cases taken

theorem Judged.step {state : QueueState} (judged : Judged loads visibilityTimeout state)
    (label : Nat × QueueCommand) :
    Judged loads visibilityTimeout (state.step loads visibilityTimeout label) := by
  obtain ⟨index, command⟩ := label
  intro other target item pass moving
  by_cases self : other = index
  · subst self
    have effect := state.step_effect loads visibilityTimeout other command
    have emptied (process : QueueProcess) (queue : EntryQueue) (after : process.hand = none)
        (next : state.step loads visibilityTimeout (other, command) =
          state.set other queue process) : False := by
      rw [next, QueueState.process_set_self] at moving
      rw [moving] at after
      cases after
    generalize stepped : state.step loads visibilityTimeout (other, command) = next at effect
    cases effect with
    | stays =>
      rw [stepped] at moving
      exact judged other target item pass moving
    | takes taken => exact QueueState.step_of_taken taken moving
    | turns _ after => exact absurd stepped (emptied _ _ after)
    | enqueues => exact absurd stepped (emptied _ _ rfl)
    | schedules => exact absurd stepped (emptied _ _ rfl)
    | claims => exact absurd stepped (emptied _ _ rfl)
    | deadLetters => exact absurd stepped (emptied _ _ rfl)
    | acks => exact absurd stepped (emptied _ _ rfl)
    | pushes _ _ after => exact absurd stepped (emptied _ _ after)
    | restores => exact absurd stepped (emptied _ _ rfl)
    | drops => exact absurd stepped (emptied _ _ rfl)
  · rw [QueueState.process_step_of_ne loads visibilityTimeout state command self] at moving
    exact judged other target item pass moving

theorem judged_resting (queue : EntryQueue) : Judged loads visibilityTimeout (.resting queue) :=
  fun _ _ _ _ moving => by cases moving

/-- A task that no verdict returns is never returned. -/
theorem returnsAtMost_zero {item : Bytes}
    (never : ∀ now, verdict loads visibilityTimeout now item ≠ .moves .ready) :
    ReturnsAtMost loads visibilityTimeout item 0 := by
  intro queue labels _
  refine Nat.le_of_eq (Transition.tally_eq_zero _ (Judged loads visibilityTimeout)
    (fun _ label judged => judged.step label) (fun state label judged => ?_) _
    (judged_resting queue) labels)
  obtain ⟨index, command⟩ := label
  unfold QueueState.returns
  split
  · split
    · rename_i moving
      refine decide_eq_false ?_
      rintro rfl
      obtain ⟨now, moves⟩ := judged _ _ _ _ moving
      exact never now moves
    · rfl
  · rfl

/-! ### An endless redelivery -/

/-- One task waits in the ready list. -/
def onlyReady (item : Bytes) : EntryQueue := Store.empty.lpush .ready item

/-- A worker claims the task and leaves it, and a reaper returns it to the ready list. -/
def redelivery (now : ℚ) : List (Nat × QueueCommand) :=
  [(1, .claim "w"), (1, .abandon), (2, .scan now ["w"]), (2, .readInflight), (2, .examine),
    (2, .push), (2, .readInflight)]

section Redelivery

variable {now : ℚ} {item : Bytes}

/-- The redelivery ends where it starts. -/
theorem run_redelivery (returned : verdict loads visibilityTimeout now item = .moves .ready) :
    Transition.run (QueueState.step loads visibilityTimeout) (.resting (onlyReady item))
      (redelivery now) = .resting (onlyReady item) := by
  simp [redelivery, QueueState.step, QueueState.set, QueueState.resting, onlyReady, Store.empty,
    Store.lpush, Store.rpoplpush, Store.lrem, returned, MoveTarget.key]

theorem tally_redelivery (returned : verdict loads visibilityTimeout now item = .moves .ready) :
    Transition.tally (QueueState.step loads visibilityTimeout) (QueueState.returns item)
      (.resting (onlyReady item)) (redelivery now) = 1 := by
  simp [redelivery, Transition.tally, QueueState.returns, QueueState.step, QueueState.set,
    QueueState.resting, onlyReady, Store.empty, Store.lpush, Store.rpoplpush, Store.lrem, returned]

theorem along_redelivery :
    Transition.Along (QueueState.step loads visibilityTimeout)
      (fun state label => (state.acknowledged label).map Prod.snd ≠ some item)
      (.resting (onlyReady item)) (redelivery now) := by
  simp [redelivery, Transition.Along, QueueState.acknowledged]

/-- A task that some verdict returns is returned more often than any bound. -/
theorem not_returnsAtMost (now : ℚ)
    (returned : verdict loads visibilityTimeout now item = .moves .ready) (bound : Nat) :
    ¬ReturnsAtMost loads visibilityTimeout item bound := by
  intro atMost
  have closed := run_redelivery returned
  have counted := atMost (onlyReady item) (List.replicate (bound + 1) (redelivery now)).flatten
    (Transition.along_replicate _ closed along_redelivery _)
  rw [Transition.tally_replicate _ closed, tally_redelivery returned] at counted
  omega

end Redelivery

/-! ### The bound -/

/-- Integers are compared as they are. -/
theorem isExhausted_of_int {payload : JsonObject} {attemptNumber maxAttempts : Int}
    (attempt : (payload.get? "attempt_number").getD (.int 1) = .int attemptNumber)
    (allowed : (payload.get? "max_attempts").getD (.int 3) = .int maxAttempts) :
    isExhausted payload = some (decide (maxAttempts ≤ attemptNumber)) := by
  simp [isExhausted, attempt, allowed, Json.atLeast, Json.loaded, Loaded.atLeast, Loaded.number,
    FloatValue.atLeast]

theorem moves_ready_iff {item : Bytes} :
    Verdict.move item .ready = .moves .ready ↔ decodes item = true := by
  unfold Verdict.move
  split <;> simp_all

theorem moves_dlq_ne_ready {item : Bytes} : Verdict.move item .dlq ≠ .moves .ready := by
  unfold Verdict.move
  split <;> nofun

theorem FloatValue.exists_isOverdue (stamp : FloatValue) (timeout : ℚ) :
    (∃ now, stamp.isOverdue now timeout = true) ↔ stamp.ages = true := by
  cases stamp with
  | finite value =>
    refine iff_of_true ⟨value + timeout + 1, ?_⟩ rfl
    simp only [isOverdue, decide_eq_true_eq]
    linarith
  | infinite negative => simp [isOverdue, ages]
  | nan => simp [isOverdue, ages]

/-- The verdict on a task with a stamp. -/
theorem taskVerdict_stamped {now : ℚ} {item : Bytes} {payload : JsonObject} {claimedAt : Json}
    (stamped : payload.get? "claimed_at" = some claimedAt) (notNull : claimedAt ≠ .null) :
    taskVerdict visibilityTimeout now item payload =
      match FloatValue.ofJson claimedAt with
      | none => .raises
      | some stamp =>
        if stamp.isOverdue now visibilityTimeout then
          match isExhausted payload with
          | none => .raises
          | some true => .move item .dlq
          | some false => .move item .ready
        else .leaves := by
  unfold taskVerdict
  rw [stamped]
  cases claimedAt with
  | null => exact absurd rfl notNull
  | _ => rfl

/-- The reaper returns a task to the ready list at some time exactly when its entry decodes and it
is not bounded. -/
theorem verdict_ready_iff (visibilityTimeout : ℚ) {item : Bytes} {payload : JsonObject}
    {attemptNumber maxAttempts : Int}
    (loaded : loads item = some (.object payload))
    (attempt : (payload.get? "attempt_number").getD (.int 1) = .int attemptNumber)
    (allowed : (payload.get? "max_attempts").getD (.int 3) = .int maxAttempts) :
    (∃ now, verdict loads visibilityTimeout now item = .moves .ready) ↔
      decodes item = true ∧ ¬Bounded payload attemptNumber maxAttempts := by
  have exhausted := isExhausted_of_int attempt allowed
  have judged (now : ℚ) : verdict loads visibilityTimeout now item =
      taskVerdict visibilityTimeout now item payload := by
    unfold verdict
    rw [loaded]
  simp only [judged]
  cases stamped : payload.get? "claimed_at" with
  | none =>
    simp only [taskVerdict, stamped, moves_ready_iff, exists_const]
    refine iff_self_and.mpr fun _ bounded => ?_
    obtain ⟨claimedAt, found, -⟩ := bounded
    rw [stamped] at found
    cases found
  | some claimedAt =>
    have bounded : Bounded payload attemptNumber maxAttempts ↔ claimedAt ≠ .null ∧
        ((FloatValue.ofJson claimedAt).any FloatValue.ages = true →
          maxAttempts ≤ attemptNumber) := by
      simp only [Bounded, stamped, Option.some.injEq, exists_eq_left']
    rw [bounded]
    by_cases null : claimedAt = .null
    · subst null
      simp only [taskVerdict, stamped, moves_ready_iff, exists_const]
      exact iff_self_and.mpr fun _ holds => holds.1 rfl
    · simp only [taskVerdict_stamped stamped null, exhausted]
      cases read : FloatValue.ofJson claimedAt with
      | none => simp [null]
      | some stamp =>
        have overdue := stamp.exists_isOverdue visibilityTimeout
        by_cases usedUp : maxAttempts ≤ attemptNumber
        · simp only [usedUp, decide_true, implies_true, and_true, null, ne_eq, not_false_eq_true,
            not_true_eq_false, and_false, iff_false, not_exists]
          intro now
          split
          · exact moves_dlq_ne_ready
          · nofun
        · simp only [usedUp, decide_false, Option.any_some, ne_eq, null, not_false_eq_true,
            true_and, imp_false, not_not, ← overdue]
          constructor
          · rintro ⟨now, returned⟩
            split at returned
            · rename_i isOverdue
              exact ⟨moves_ready_iff.mp returned, now, isOverdue⟩
            · cases returned
          · rintro ⟨decoded, now, isOverdue⟩
            exact ⟨now, by rw [if_pos isOverdue]; exact moves_ready_iff.mpr decoded⟩

/-- A task is returned to the ready list at most so often as attempts are left exactly when its
entry does not decode or it is bounded. Nothing on the way from an inflight list to the ready list
and back changes an entry, so its verdict stays: it is returned never, or without end. -/
theorem returnsAtMost_iff (loads : Bytes → Option Json) (visibilityTimeout : ℚ) (item : Bytes)
    (payload : JsonObject) (attemptNumber maxAttempts : Int)
    (loaded : loads item = some (.object payload))
    (attempt : (payload.get? "attempt_number").getD (.int 1) = .int attemptNumber)
    (allowed : (payload.get? "max_attempts").getD (.int 3) = .int maxAttempts) :
    ReturnsAtMost loads visibilityTimeout item (maxAttempts - attemptNumber).toNat ↔
      (decodes item = true → Bounded payload attemptNumber maxAttempts) := by
  have ready := verdict_ready_iff visibilityTimeout loaded attempt allowed
  constructor
  · intro atMost decoded
    by_contra unbounded
    obtain ⟨now, returned⟩ := ready.mpr ⟨decoded, unbounded⟩
    exact not_returnsAtMost now returned _ atMost
  · intro bounded queue labels unacknowledged
    have never (now : ℚ) : verdict loads visibilityTimeout now item ≠ .moves .ready := by
      intro returned
      obtain ⟨decoded, unbounded⟩ := ready.mp ⟨now, returned⟩
      exact unbounded (bounded decoded)
    exact (returnsAtMost_zero never queue labels unacknowledged).trans (Nat.zero_le _)

/-- A task with a stamp and attempts left. -/
def freshTask : JsonObject := [("claimed_at", .string "0.0"), ("max_attempts", .int 3)]

/-- A task whose attempts are used up. -/
def exhaustedTask : JsonObject :=
  [("claimed_at", .string "0.0"), ("attempt_number", .int 3), ("max_attempts", .int 3)]

/-- A task whose attempts are used up, without a stamp. -/
def unstampedTask : JsonObject := [("attempt_number", .int 3), ("max_attempts", .int 3)]

theorem returnsAtMost_exhausted :
    ReturnsAtMost (loadsTask exhaustedTask) 60 exhaustedTask.encoded (3 - 3 : Int).toNat ↔
      (decodes exhaustedTask.encoded = true → Bounded exhaustedTask 3 3) :=
  returnsAtMost_iff (loadsTask exhaustedTask) 60 exhaustedTask.encoded exhaustedTask 3 3
    (by decide +kernel) (by decide +kernel) (by decide +kernel)

/-- A task in its first of three attempts is returned more than twice, and a task without a stamp
whose attempts are used up is returned at all. -/
theorem poison_tasks_return :
    ¬ReturnsAtMost (loadsTask freshTask) 60 freshTask.encoded (3 - 1 : Int).toNat ∧
      ¬ReturnsAtMost (loadsTask unstampedTask) 60 unstampedTask.encoded (3 - 3 : Int).toNat :=
  ⟨not_returnsAtMost 100 (by decide +kernel) _,
    not_returnsAtMost 100 (by decide +kernel) _⟩

end InsuranceOps
