/-
This file proves when the movers of the queue keep one copy of each task. A
task in a place of the queue or in the hand of a process is a token, and every
command moves it, or takes it away. The exception are the removals whose result
nobody looks at: the reaper pushes an entry of its snapshot again although its
`LREM` found nothing, and a worker acknowledges a task that was moved away. As
long as these find their entry, no task is multiplied and an acknowledged one
never comes back.
-/

import InsuranceOps.Commands
import InsuranceOps.Library.OneToken
import InsuranceOps.Library.Transition

namespace InsuranceOps

open ListStore OneToken

/-! ### Where an entry is -/

/-- A place of the queue, or the hand of a process. -/
abbrev Spot := Place QueueKey ⊕ Nat

namespace QueueState

/-- How often an entry occurs at a spot. -/
def occurs (state : QueueState) (item : Bytes) : Spot → Nat
  | .inl place => state.queue.occurs item place
  | .inr index => if (state.process index).hand = some item then 1 else 0

/-- An entry occurs nowhere. -/
def Gone (state : QueueState) (item : Bytes) : Prop := ∀ spot, state.occurs item spot = 0

theorem occurs_set_inr_of_ne (state : QueueState) {index other : Nat} (queue : EntryQueue)
    (process : QueueProcess) (item : Bytes) (different : other ≠ index) :
    (state.set index queue process).occurs item (.inr other) = state.occurs item (.inr other) := by
  simp only [occurs, process_set_of_ne _ _ _ different]

theorem occurs_set_inr_self (state : QueueState) (index : Nat) (queue : EntryQueue)
    (process : QueueProcess) (item : Bytes) :
    (state.set index queue process).occurs item (.inr index) =
      if process.hand = some item then 1 else 0 := by
  simp only [occurs, process_set_self]

/-- A command that leaves the hand of its process as it was. -/
theorem occurs_set_inr_of_hand (state : QueueState) {index : Nat} (queue : EntryQueue)
    (process : QueueProcess) (item : Bytes) (same : process.hand = (state.process index).hand)
    (other : Nat) :
    (state.set index queue process).occurs item (.inr other) = state.occurs item (.inr other) := by
  by_cases self : other = index
  · rw [self, occurs_set_inr_self, same]
    rfl
  · exact occurs_set_inr_of_ne state queue process item self

end QueueState

/-- A command of a worker, a reaper, a scheduler or an operator that moves or removes entries: no
new push, no push to the dead letters before the acknowledgement, and no crash. -/
def QueueCommand.moves : QueueCommand → Bool
  | .enqueue _ | .schedule _ _ | .moveToDlq | .crash => false
  | _ => true

namespace QueueHistory

variable (loads : Bytes → Option Json) (visibilityTimeout : ℚ)

/-- A command that takes or acknowledges an entry finds it where it removes it, or there is none:
nowhere, and for a taken one also none that was acknowledged. -/
structure FindsEntry (history : QueueHistory) (label : Nat × QueueCommand) : Prop where
  moves : label.2.moves = true
  taken : ∀ place item queue,
    history.state.taken loads visibilityTimeout label = some (place, item, queue) →
      0 < history.state.queue.occurs item place ∨
        (history.state.Gone item ∧ item ∉ history.acked)
  acknowledged : ∀ workerId item,
    history.state.acknowledged label = some (workerId, item) →
      0 < history.state.queue.occurs item (.list (.inflight workerId)) ∨ history.state.Gone item

/-- Every entry occurs at most once at all places of the queue together. -/
def AtMostOnce (queue : EntryQueue) : Prop := ∀ item, Single (queue.occurs item)

/-- Every entry occurs at most once in the queue, and an acknowledged one nowhere. -/
structure OneCopy (history : QueueHistory) : Prop where
  once : AtMostOnce history.state.queue
  acked : ∀ item ∈ history.acked, ¬history.state.queue.Holds item

/-- Every entry is at one spot at most, and an acknowledged one at none. -/
structure SingleCopies (history : QueueHistory) : Prop where
  single : ∀ item, Single (history.state.occurs item)
  gone : ∀ item ∈ history.acked, history.state.Gone item

end QueueHistory

section Flows

variable {loads : Bytes → Option Json} {visibilityTimeout : ℚ} {state next : QueueState}
  {index : Nat} {command : QueueCommand} {fresh : Prop}

/-- A command that only removes entries. -/
theorem flow_of_lrem {key : QueueKey} {removed : Bytes} {process : QueueProcess}
    (same : process.hand = (state.process index).hand) (item : Bytes) :
    Flow fresh (state.occurs item)
      ((state.set index (state.queue.lrem key removed) process).occurs item) := by
  refine .shrinks ?_
  rintro (place | other)
  · exact (Store.occurs_lrem _ _ _ _ _).trans_le (Nat.sub_le _ _)
  · exact Nat.le_of_eq (QueueState.occurs_set_inr_of_hand _ _ _ _ same other)

/-- A claim moves an entry from the ready list to an inflight list. -/
theorem flow_of_claim {workerId : String} {claimed : Bytes} {queue : EntryQueue}
    (idle : state.process index = .idle)
    (moved : state.queue.rpoplpush .ready (.inflight workerId) = some (claimed, queue))
    (item : Bytes) :
    Flow fresh (state.occurs item)
      ((state.set index queue (.working workerId claimed)).occurs item) := by
  have counts := Store.occurs_rpoplpush moved item
  have hands := QueueState.occurs_set_inr_of_hand state queue (.working workerId claimed) item
    (by rw [idle]; rfl)
  by_cases same : claimed = item
  · simp only [same, and_true] at counts
    have ready := counts (.list .ready)
    have inflight := counts (.list (.inflight workerId))
    simp only [Place.list.injEq, reduceCtorEq, if_true, if_false, Nat.add_zero] at ready inflight
    refine .moves (.inl (.list .ready)) (.inl (.list (.inflight workerId))) ?_ (by simp) ready
      inflight ?_
    · show 0 < state.queue.occurs item (.list .ready)
      omega
    · rintro (place | other) notReady notInflight
      · have elsewhere := counts place
        rw [if_neg fun equal => notReady (congrArg Sum.inl equal),
          if_neg fun equal => notInflight (congrArg Sum.inl equal)] at elsewhere
        exact elsewhere
      · exact hands other
  · refine .of_eq ?_
    rintro (place | other)
    · show queue.occurs item place = state.queue.occurs item place
      simpa only [same, and_false, if_false, Nat.add_zero] using counts place
    · exact hands other

/-- An entry that is taken moves into the hand of its process, or appears there. -/
theorem flow_of_taken {place : Place QueueKey} {removed : Bytes} {queue : EntryQueue}
    {process : QueueProcess}
    (taken : state.taken loads visibilityTimeout (index, command) = some (place, removed, queue))
    (before : (state.process index).hand = none) (after : process.hand = some removed)
    (item : Bytes)
    (found : ∀ place queue,
      state.taken loads visibilityTimeout (index, command) = some (place, item, queue) →
        0 < state.queue.occurs item place ∨ (state.Gone item ∧ fresh)) :
    Flow fresh (state.occurs item) ((state.set index queue process).occurs item) := by
  have counts := QueueState.occurs_of_taken taken item
  have empty : state.occurs item (.inr index) = 0 := by
    simp only [QueueState.occurs, before, reduceCtorEq, if_false]
  have others (other : Nat) (different : other ≠ index) :=
    QueueState.occurs_set_inr_of_ne state queue process item different
  by_cases same : removed = item
  · subst same
    have hand : (state.set index queue process).occurs removed (.inr index) =
        state.occurs removed (.inr index) + 1 := by
      rw [QueueState.occurs_set_inr_self, after, if_pos rfl, empty]
    rcases found place queue taken with positive | ⟨gone, allowed⟩
    · refine .moves (.inl place) (.inr index) positive nofun ?_ hand ?_
      · show queue.occurs removed place + 1 = state.queue.occurs removed place
        rw [counts place, if_pos ⟨rfl, rfl⟩]
        omega
      · rintro (other | other) notPlace notHand
        · show queue.occurs removed other = state.queue.occurs removed other
          rw [counts other, if_neg fun both => notPlace (congrArg Sum.inl both.1), Nat.sub_zero]
        · exact others other fun equal => notHand (congrArg Sum.inr equal)
    · refine .appears allowed (.inr index) gone hand ?_
      rintro (other | other) notHand
      · have zero : state.queue.occurs removed other = 0 := gone (.inl other)
        show queue.occurs removed other = state.queue.occurs removed other
        rw [counts other, zero, Nat.zero_sub]
      · exact others other fun equal => notHand (congrArg Sum.inr equal)
  · refine .of_eq ?_
    rintro (other | other)
    · show queue.occurs item other = state.queue.occurs item other
      rw [counts other, if_neg fun both => same both.2, Nat.sub_zero]
    · by_cases self : other = index
      · rw [self, QueueState.occurs_set_inr_self, after, empty, if_neg]
        exact fun equal => same (Option.some.inj equal)
      · exact others other self

/-- An entry that is pushed moves out of the hand of its process. -/
theorem flow_of_pushed (place : Place QueueKey) {pushed : Bytes} {queue : EntryQueue}
    {process : QueueProcess} (before : (state.process index).hand = some pushed)
    (after : process.hand = none) (item : Bytes)
    (counts : ∀ other, queue.occurs item other =
      state.queue.occurs item other + if other = place ∧ pushed = item then 1 else 0) :
    Flow fresh (state.occurs item) ((state.set index queue process).occurs item) := by
  have others (other : Nat) (different : other ≠ index) :=
    QueueState.occurs_set_inr_of_ne state queue process item different
  have emptied : (state.set index queue process).occurs item (.inr index) = 0 := by
    rw [QueueState.occurs_set_inr_self, after, if_neg nofun]
  by_cases same : pushed = item
  · have hand : state.occurs item (.inr index) = 1 := by
      simp only [QueueState.occurs, before, same, if_true]
    refine .moves (.inr index) (.inl place) (by rw [hand]; exact Nat.zero_lt_one) nofun ?_ ?_ ?_
    · rw [emptied, hand]
    · exact (counts place).trans (by rw [if_pos ⟨rfl, same⟩]; rfl)
    · rintro (other | other) notHand notPlace
      · exact (counts other).trans
          (by rw [if_neg fun both => notPlace (congrArg Sum.inl both.1)]; rfl)
      · exact others other fun equal => notHand (congrArg Sum.inr equal)
  · refine .shrinks ?_
    rintro (other | other)
    · refine Nat.le_of_eq ((counts other).trans ?_)
      rw [if_neg fun both => same both.2]
      rfl
    · by_cases self : other = index
      · rw [self, emptied]
        exact Nat.zero_le _
      · exact Nat.le_of_eq (others other self)

/-- How often an entry occurs flows with every command. -/
theorem QueueEffect.flow (effect : QueueEffect loads visibilityTimeout state index command next)
    (moves : command.moves = true) (item : Bytes) (single : Single (state.occurs item))
    (found : ∀ place queue,
      state.taken loads visibilityTimeout (index, command) = some (place, item, queue) →
        0 < state.queue.occurs item place ∨ (state.Gone item ∧ fresh)) :
    Flow fresh (state.occurs item) (next.occurs item) := by
  cases effect with
  | stays => exact .of_eq fun _ => rfl
  | @turns _ process before after =>
    refine .shrinks ?_
    rintro (place | other)
    · exact Nat.le_refl _
    · by_cases self : other = index
      · rw [self, QueueState.occurs_set_inr_self, after, if_neg (Option.some_ne_none _).symm]
        exact Nat.zero_le _
      · exact Nat.le_of_eq (QueueState.occurs_set_inr_of_ne _ _ _ _ self)
  | enqueues => cases moves
  | schedules => cases moves
  | claims idle claimed => exact flow_of_claim idle claimed item
  | deadLetters => cases moves
  | acks _ before => exact flow_of_lrem (by rw [before]; rfl) item
  | takes taken before after => exact flow_of_taken taken before after item found
  | pushes _ before after =>
    exact flow_of_pushed _ before after item (Store.occurs_lpush _ _ _ _)
  | @restores pushed score before =>
    refine flow_of_pushed (.sorted .delayed) before rfl item fun other => ?_
    rw [Store.occurs_zadd]
    split
    · rename_i both
      -- The entry is in the hand, so it is not in the delayed set.
      have hand : 0 < state.occurs item (.inr index) := by
        simp only [QueueState.occurs, before, both.2, if_true, Nat.zero_lt_one]
      have zero : state.occurs item (.inl other) = 0 := single.eq_zero hand Sum.inl_ne_inr
      exact (congrArg (fun count => count + 1) zero).symm
    · rfl
  | drops idle decoded => exact flow_of_lrem (by rw [idle]) item

variable (loads visibilityTimeout) in
/-- An acknowledgement removes the task from the list of its worker. -/
theorem QueueState.step_of_acknowledged {workerId : String} {item : Bytes}
    (acknowledged : state.acknowledged (index, command) = some (workerId, item)) :
    state.step loads visibilityTimeout (index, command) =
        state.set index (state.queue.lrem (.inflight workerId) item) .idle ∧
      (state.process index).hand = none := by
  unfold QueueState.acknowledged at acknowledged
  split at acknowledged
  · rename_i same
    cases same
    split at acknowledged
    · rename_i working
      split at acknowledged
      · rename_i decoded
        cases acknowledged
        simp only [QueueState.step, working, decoded, if_true, QueueProcess.hand, and_self]
      · cases acknowledged
    · rename_i deadLettered
      split at acknowledged
      · rename_i decoded
        cases acknowledged
        simp only [QueueState.step, deadLettered, decoded, if_true, QueueProcess.hand, and_self]
      · cases acknowledged
    · cases acknowledged
  · cases acknowledged

/-- An acknowledged task that was found in the list of its worker, or nowhere, is gone. -/
theorem gone_of_acknowledged {workerId : String} {item : Bytes} (queue : EntryQueue)
    (before : (state.process index).hand = none) (single : Single (state.occurs item))
    (found : 0 < state.queue.occurs item (.list (.inflight workerId)) ∨ state.Gone item)
    (counts : ∀ place, queue.occurs item place = state.queue.occurs item place -
      if place = .list (.inflight workerId) ∧ item = item then 1 else 0) :
    (state.set index queue .idle).Gone item := by
  have hands := QueueState.occurs_set_inr_of_hand state queue .idle item before.symm
  rcases found with positive | gone
  · have here : 0 < state.occurs item (.inl (.list (.inflight workerId))) := positive
    rintro (place | other)
    · refine (counts place).trans ?_
      by_cases same : place = .list (.inflight workerId)
      · rw [if_pos ⟨same, rfl⟩, same]
        exact Nat.sub_eq_zero_of_le (Nat.le_of_eq (single _ _ here here).2)
      · rw [if_neg fun both => same both.1, Nat.sub_zero]
        exact single.eq_zero here fun equal => same (Sum.inl.inj equal)
    · exact (hands other).trans (single.eq_zero here nofun)
  · rintro (place | other)
    · refine (counts place).trans (Nat.sub_eq_zero_of_le ?_)
      rw [show state.queue.occurs item place = 0 from gone (.inl place)]
      exact Nat.zero_le _
    · exact (hands other).trans (gone (.inr other))

end Flows

/-! ### Every run -/

namespace QueueHistory

variable {loads : Bytes → Option Json} {visibilityTimeout : ℚ} {history : QueueHistory}

/-- One command that finds its entry keeps single copies. -/
theorem SingleCopies.step (copies : SingleCopies history) (label : Nat × QueueCommand)
    (finds : history.FindsEntry loads visibilityTimeout label) :
    SingleCopies (history.step loads visibilityTimeout label) := by
  obtain ⟨index, command⟩ := label
  have effect := history.state.step_effect loads visibilityTimeout index command
  refine ⟨fun item => ?_, fun item acked => ?_⟩
  · exact (effect.flow finds.moves item (copies.single item) fun place queue taken =>
      finds.taken place item queue taken).single (copies.single item)
  · rcases List.mem_append.mp acked with now | before
    · obtain ⟨⟨workerId, found⟩, acknowledged, rfl⟩ :=
        Option.map_eq_some_iff.mp (Option.mem_toList.mp now)
      obtain ⟨stepped, hand⟩ := QueueState.step_of_acknowledged loads visibilityTimeout
        acknowledged
      show (history.state.step loads visibilityTimeout (index, command)).Gone found
      rw [stepped]
      exact gone_of_acknowledged _ hand (copies.single found)
        (finds.acknowledged workerId found acknowledged) (Store.occurs_lrem _ _ _ _)
    · have gone := copies.gone item before
      have found (place : Place QueueKey) (queue : EntryQueue)
          (taken : history.state.taken loads visibilityTimeout (index, command) =
            some (place, item, queue)) :
          0 < history.state.queue.occurs item place ∨ (history.state.Gone item ∧ False) :=
        (finds.taken place item queue taken).imp_right fun both => absurd before both.2
      exact (effect.flow finds.moves item (copies.single item) found).zero gone not_false

theorem singleCopies_start {queue : EntryQueue} (once : AtMostOnce queue) :
    SingleCopies (start queue) := by
  refine ⟨fun item => ?_, nofun⟩
  rintro (first | first) (second | second) firstHere secondHere
  · obtain ⟨same, one⟩ := once item first second firstHere secondHere
    exact ⟨congrArg Sum.inl same, one⟩
  · exact absurd secondHere (Nat.lt_irrefl 0)
  · exact absurd firstHere (Nat.lt_irrefl 0)
  · exact absurd firstHere (Nat.lt_irrefl 0)

theorem SingleCopies.oneCopy (copies : SingleCopies history) : OneCopy history := by
  refine ⟨fun item first second firstHere secondHere => ?_, fun item acked held => ?_⟩
  · obtain ⟨same, one⟩ := copies.single item (.inl first) (.inl second) firstHere secondHere
    exact ⟨Sum.inl.inj same, one⟩
  · obtain ⟨place, positive⟩ := (Store.holds_iff_occurs _ _).mp held
    exact absurd (copies.gone item acked (.inl place)) (Nat.ne_of_gt positive)

/-- As long as every removal finds its entry, every entry occurs at most once in every state a run
reaches, and an acknowledged one nowhere. An entry in the queue or in the hand of a process is a
token: a removal that finds its entry takes one, and the push behind it puts it back. -/
theorem one_copy (loads : Bytes → Option Json) (visibilityTimeout : ℚ) (queue : EntryQueue)
    (once : AtMostOnce queue) (labels : List (Nat × QueueCommand))
    (finds : Transition.Along (step loads visibilityTimeout) (FindsEntry loads visibilityTimeout)
      (start queue) labels) :
    OneCopy (Transition.run (step loads visibilityTimeout) (start queue) labels) :=
  (Transition.run_invariant (step loads visibilityTimeout) SingleCopies
    (fun _ label copies finds => copies.step label finds) _ (singleCopies_start once) labels
    finds).oneCopy

variable (loads visibilityTimeout) in
/-- Every removal of a command removes an entry. -/
def removesFound (history : QueueHistory) (label : Nat × QueueCommand) : Bool :=
  label.2.moves &&
    (history.state.taken loads visibilityTimeout label).all (fun taken =>
      0 < history.state.queue.occurs taken.2.1 taken.1) &&
    (history.state.acknowledged label).all fun acknowledged =>
      0 < history.state.queue.occurs acknowledged.2 (.list (.inflight acknowledged.1))

theorem findsEntry_of_removesFound {label : Nat × QueueCommand}
    (found : removesFound loads visibilityTimeout history label = true) :
    history.FindsEntry loads visibilityTimeout label := by
  simp only [removesFound, Bool.and_eq_true, Option.all_eq_true, decide_eq_true_eq] at found
  exact ⟨found.1.1, fun place item queue taken => .inl (found.1.2 _ taken),
    fun workerId item acknowledged => .inl (found.2 _ acknowledged)⟩

/-! ### Stale snapshots -/

/-- A task that was pushed long ago. -/
def overdueTask : JsonObject := [("claimed_at", .string "0.0"), ("max_attempts", .int 3)]

/-- The overdue task alone waits in the ready list. -/
def oneReady : EntryQueue := Store.empty.lpush .ready overdueTask.encoded

/-- Run commands where the overdue task is ready. -/
def afterOverdue (labels : List (Nat × QueueCommand)) : QueueHistory :=
  Transition.run (step (loadsTask overdueTask) 60) (start oneReady) labels

/-- A pass of a reaper up to its snapshot of the list of one worker. -/
def snapshot (index : Nat) : List (Nat × QueueCommand) :=
  [(index, .scan 100 ["w"]), (index, .readInflight)]

theorem atMostOnce_oneReady : AtMostOnce oneReady := by
  have empty (item : Bytes) (place : Place QueueKey) :
      (Store.empty : EntryQueue).occurs item place = 0 := by
    cases place <;> rfl
  refine fun item => single_of_one (.list .ready) ?_ fun other different => ?_
  · rw [oneReady, Store.occurs_lpush, empty]
    split <;> omega
  · rw [oneReady, Store.occurs_lpush, empty, if_neg fun both => different both.1]

/-- A task that is reclaimed, claimed again and acknowledged is gone. -/
theorem one_copy_reclaimed :
    OneCopy (afterOverdue ([(1, .claim "w")] ++ snapshot 2 ++ [(2, .examine), (2, .push),
      (3, .claim "v"), (3, .ack)])) :=
  one_copy _ _ _ atMostOnce_oneReady _
    (Transition.along_mono _ (fun _ _ => findsEntry_of_removesFound) _ _ (by decide +kernel))

/-- A reaper that read the list of a worker before its acknowledgement pushes the acknowledged task
again, and two reapers that read it both push the task. -/
theorem stale_snapshots_multiply :
    ¬OneCopy (afterOverdue ([(1, .claim "w")] ++ snapshot 2 ++
        [(1, .ack), (2, .examine), (2, .push)])) ∧
      ¬OneCopy (afterOverdue ([(1, .claim "w")] ++ snapshot 2 ++ snapshot 3 ++
        [(2, .examine), (3, .examine), (2, .push), (3, .push)])) := by
  constructor
  · intro copy
    refine copy.acked overdueTask.encoded (by decide +kernel) ?_
    exact .inl ⟨.ready, by decide +kernel⟩
  · intro copy
    have twice := (copy.once overdueTask.encoded (.list .ready) (.list .ready)
      (by decide +kernel) (by decide +kernel)).2
    revert twice
    decide +kernel

end QueueHistory

end InsuranceOps
