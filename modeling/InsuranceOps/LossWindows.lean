/-
This file proves where the queue loses a task. A claim moves a task in one
command, and a worker pushes to the dead letters before it acknowledges; but
the reaper, the scheduler and a requeue first remove a task and push it with
their next command. A process that is stopped in between takes the task with
it. In every run the queue holds all tasks that are neither acknowledged nor
dropped exactly as long as no such removal takes the only copy of one.
-/

import InsuranceOps.Commands
import InsuranceOps.Library.Transition

namespace InsuranceOps

open ListStore

namespace QueueHistory

variable (loads : Bytes → Option Json) (visibilityTimeout : ℚ)

/-- A task was pushed and is neither acknowledged nor dropped. -/
def Outstanding (history : QueueHistory) (item : Bytes) : Prop :=
  item ∈ history.pushed ∧ item ∉ history.acked ∧ item ∉ history.dropped

/-- Every outstanding task is somewhere in the queue. -/
def Kept (history : QueueHistory) : Prop :=
  ∀ item, history.Outstanding item → history.state.queue.Holds item

/-- A command does not take the only copy of an outstanding task. -/
def LeavesCopy (history : QueueHistory) (label : Nat × QueueCommand) : Prop :=
  ∀ place item queue,
    history.state.taken loads visibilityTimeout label = some (place, item, queue) →
      history.Outstanding item → queue.Holds item

end QueueHistory

section Effects

variable {loads : Bytes → Option Json} {visibilityTimeout : ℚ} {state : QueueState}

/-- A task that arrives is in the queue. -/
theorem QueueState.holds_of_arrival {label : Nat × QueueCommand} {item : Bytes}
    (arrives : state.arrival label = some item) :
    (state.step loads visibilityTimeout label).queue.Holds item := by
  obtain ⟨index, command⟩ := label
  unfold QueueState.arrival at arrives
  split at arrives
  · rename_i same
    cases same
    split at arrives
    · rename_i idle
      cases arrives
      simp only [QueueState.step, idle, QueueState.queue_set]
      exact (Store.holds_lpush _ _ _ _).mpr (.inl rfl)
    · cases arrives
  · rename_i same
    cases same
    split at arrives
    · rename_i idle
      cases arrives
      simp only [QueueState.step, idle, QueueState.queue_set]
      exact (Store.holds_zadd _ _ _ _ _ _).mpr (.inl rfl)
    · cases arrives
  · cases arrives

/-- What the queue holds after a command: all it held, unless the command took it away. -/
theorem QueueEffect.holds {index : Nat} {command : QueueCommand} {next : QueueState}
    (effect : QueueEffect loads visibilityTimeout state index command next) {item : Bytes}
    (held : state.queue.Holds item) :
    next.queue.Holds item ∨ (∃ workerId, state.acknowledged (index, command) =
      some (workerId, item)) ∨ state.dropped (index, command) = some item ∨
      ∃ place, state.taken loads visibilityTimeout (index, command) =
        some (place, item, next.queue) := by
  cases effect with
  | stays => exact .inl held
  | turns => exact .inl held
  | enqueues => exact .inl ((Store.holds_lpush _ _ _ _).mpr (.inr held))
  | schedules => exact .inl ((Store.holds_zadd _ _ _ _ _ _).mpr (.inr held))
  | claims _ claimed => exact .inl (((Store.rpoplpush_some claimed).2 item).mpr held)
  | deadLetters => exact .inl ((Store.holds_lpush _ _ _ _).mpr (.inr held))
  | pushes => exact .inl ((Store.holds_lpush _ _ _ _).mpr (.inr held))
  | restores => exact .inl ((Store.holds_zadd _ _ _ _ _ _).mpr (.inr held))
  | @acks workerId removed acknowledged _ =>
    by_cases same : item = removed
    · exact .inr (.inl ⟨workerId, same ▸ acknowledged⟩)
    · exact .inl (Store.holds_lrem_of_ne _ _ _ same held)
  | @drops removed idle decoded =>
    by_cases same : item = removed
    · by_cases listed : removed ∈ state.queue.lists .dlq
      · exact .inr (.inr (.inl (by simp only [QueueState.dropped, idle, decoded, listed, same,
          and_self, if_true])))
      · rw [QueueState.queue_set, Store.lrem_of_not_mem _ _ _ listed]
        exact .inl held
    · exact .inl (Store.holds_lrem_of_ne _ _ _ same held)
  | @takes _ place removed queue process taken =>
    by_cases same : item = removed
    · exact .inr (.inr (.inr ⟨place, same ▸ taken⟩))
    · exact .inl (QueueState.holds_of_taken taken same held)

end Effects

namespace QueueHistory

variable {loads : Bytes → Option Json} {visibilityTimeout : ℚ} {history : QueueHistory}

/-- One command keeps every outstanding task exactly when it leaves a copy of what it takes. -/
theorem kept_step_iff (kept : history.Kept) (label : Nat × QueueCommand) :
    (history.step loads visibilityTimeout label).Kept ↔
      history.LeavesCopy loads visibilityTimeout label := by
  constructor
  · intro after place item queue taken outstanding
    obtain ⟨noneAcked, noneDropped⟩ := QueueState.settles_none_of_taken taken
    rw [← QueueState.queue_step_of_taken taken]
    refine after item ⟨List.mem_append_right _ outstanding.1, ?_, ?_⟩
    · rw [step, noneAcked]
      exact outstanding.2.1
    · rw [step, noneDropped]
      exact outstanding.2.2
  · rintro leaves item ⟨pushed, notAcked, notDropped⟩
    simp only [step, List.mem_append, Option.mem_toList, not_or] at pushed notAcked notDropped
    rcases pushed with arrives | pushed
    · exact QueueState.holds_of_arrival arrives
    · obtain ⟨index, command⟩ := label
      have outstanding : history.Outstanding item := ⟨pushed, notAcked.2, notDropped.2⟩
      rcases (history.state.step_effect loads visibilityTimeout index command).holds
        (kept item outstanding) with held | ⟨workerId, acked⟩ | dropped | ⟨place, taken⟩
      · exact held
      · exact absurd (by rw [acked]; rfl) notAcked.1
      · exact absurd dropped notDropped.1
      · exact leaves place item _ taken outstanding

/-- In every run, no outstanding task is missing from the queue in any state exactly when no removal
takes the only copy of one. The other commands move a task at once or push it before they remove it.
-/
theorem kept_throughout_iff (loads : Bytes → Option Json) (visibilityTimeout : ℚ)
    (labels : List (Nat × QueueCommand)) :
    Transition.Throughout (step loads visibilityTimeout) Kept (start .empty) labels ↔
      Transition.Along (step loads visibilityTimeout) (LeavesCopy loads visibilityTimeout)
        (start .empty) labels :=
  Transition.throughout_iff_along _ (fun _ label kept => kept_step_iff kept label) _
    (fun _ outstanding => absurd outstanding.1 List.not_mem_nil) labels

/-! ### The windows -/

/-- The only outstanding task is not in the queue. -/
def Loses (history : QueueHistory) (item : Bytes) : Prop :=
  history.pushed = [item] ∧ history.acked = [] ∧ history.dropped = [] ∧
    history.state.queue = .empty

theorem Loses.not_kept {history : QueueHistory} {item : Bytes} (loses : history.Loses item) :
    ¬history.Kept := by
  obtain ⟨pushed, acked, dropped, queue⟩ := loses
  intro kept
  have held := kept item ⟨by rw [pushed]; exact List.mem_singleton_self item,
    by rw [acked]; exact List.not_mem_nil, by rw [dropped]; exact List.not_mem_nil⟩
  rw [queue] at held
  exact Store.not_holds_empty item held

/-- The reaper is stopped between its removal and its push. -/
def reaperStopped (now : ℚ) (item : Bytes) : List (Nat × QueueCommand) :=
  [(0, .enqueue item), (1, .claim "w"), (2, .scan now ["w"]), (2, .readInflight), (2, .examine),
    (2, .crash)]

/-- The scheduler is stopped between its removal and its push. -/
def schedulerStopped (item : Bytes) : List (Nat × QueueCommand) :=
  [(0, .schedule item 0), (1, .mature 0 200), (1, .popMin), (1, .crash)]

/-- An operator is stopped between the removal and the push of a requeue. -/
def requeueStopped (now : ℚ) (item : Bytes) : List (Nat × QueueCommand) :=
  [(0, .enqueue item), (1, .claim "w"), (2, .scan now ["w"]), (2, .readInflight), (2, .examine),
    (2, .push), (3, .requeue item), (3, .crash)]

/-- Whatever the reaper moves is lost when the reaper is stopped in between. -/
theorem loses_reaperStopped {now : ℚ} {item : Bytes} (target : MoveTarget)
    (moves : verdict loads visibilityTimeout now item = .moves target) :
    (Transition.run (step loads visibilityTimeout) (start .empty)
      (reaperStopped now item)).Loses item := by
  simp [Loses, reaperStopped, step, QueueState.step, QueueState.set, start, QueueState.resting,
    QueueState.arrival, QueueState.acknowledged, QueueState.dropped, Store.empty, Store.lpush,
    Store.rpoplpush, Store.lrem, moves]

/-- Whatever the scheduler takes is lost when the scheduler is stopped in between. -/
theorem loses_schedulerStopped (item : Bytes) :
    (Transition.run (step loads visibilityTimeout) (start .empty)
      (schedulerStopped item)).Loses item := by
  simp [Loses, schedulerStopped, step, QueueState.step, QueueState.set, start, QueueState.resting,
    QueueState.arrival, QueueState.acknowledged, QueueState.dropped, Store.empty, Store.zadd,
    Store.zpopmin, TaskQueue.epochMs]

/-- Whatever an operator requeues is lost when the operator is stopped in between. -/
theorem loses_requeueStopped {now : ℚ} {item : Bytes}
    (moves : verdict loads visibilityTimeout now item = .moves .dlq)
    (decoded : decodes item = true) :
    (Transition.run (step loads visibilityTimeout) (start .empty)
      (requeueStopped now item)).Loses item := by
  simp [Loses, requeueStopped, step, QueueState.step, QueueState.set, start, QueueState.resting,
    QueueState.arrival, QueueState.acknowledged, QueueState.dropped, Store.empty, Store.lpush,
    Store.rpoplpush, Store.lrem, MoveTarget.key, moves, decoded]

/-- A task without a stamp. -/
def plainTask : JsonObject := [("step_name", .string "ingest")]

/-- A task whose attempts are used up. -/
def usedUpTask : JsonObject :=
  [("claimed_at", .string "0.0"), ("attempt_number", .int 3), ("max_attempts", .int 3)]

/-- A reaper, a scheduler and an operator that are stopped between their two commands each lose the
one task that was pushed. -/
theorem stopped_movers_lose_tasks :
    ¬(Transition.run (step (loadsTask plainTask) 60) (start .empty)
        (reaperStopped 100 plainTask.encoded)).Kept ∧
      ¬(Transition.run (step (loadsTask plainTask) 60) (start .empty)
        (schedulerStopped plainTask.encoded)).Kept ∧
      ¬(Transition.run (step (loadsTask usedUpTask) 60) (start .empty)
        (requeueStopped 100 usedUpTask.encoded)).Kept :=
  ⟨(loses_reaperStopped .ready (by decide +kernel)).not_kept,
    (loses_schedulerStopped plainTask.encoded).not_kept,
    (loses_requeueStopped (by decide +kernel) (by decide +kernel)).not_kept⟩

end QueueHistory

end InsuranceOps
