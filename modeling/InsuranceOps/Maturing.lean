/-
This file proves what one call of `mature_tasks` does when nothing else happens.
The loop pops the least entry of the delayed set, pushes it on the ready list
while it is due, and puts the first entry back that is not. So it promotes the
due entries in their order, as many as the batch holds, leaves the rest of the
set as it was, and workers claim the promoted entries in that order behind what
was ready before.
-/

import InsuranceOps.Commands
import InsuranceOps.Library.RankedSet

namespace InsuranceOps

open ListStore

/-! ### Promoted entries -/

section Promotion

variable {Value Score : Type}

/-- The queue after the first entries of the delayed set were promoted. -/
def promoteFirst (count : Nat) (queue : Store QueueKey Value Score) :
    Store QueueKey Value Score where
  lists := Function.update queue.lists .ready
    ((((queue.sorted .delayed).take count).map Prod.fst).reverse ++ queue.lists .ready)
  sorted := Function.update queue.sorted .delayed ((queue.sorted .delayed).drop count)

theorem promoteFirst_zero (queue : Store QueueKey Value Score) : promoteFirst 0 queue = queue := by
  unfold promoteFirst
  simp [Function.update_eq_self]

theorem promoteFirst_ready (count : Nat) (queue : Store QueueKey Value Score) :
    (promoteFirst count queue).lists .ready =
      (((queue.sorted .delayed).take count).map Prod.fst).reverse ++ queue.lists .ready := by
  simp only [promoteFirst, Function.update_self]

theorem promoteFirst_delayed (count : Nat) (queue : Store QueueKey Value Score) :
    (promoteFirst count queue).sorted .delayed = (queue.sorted .delayed).drop count := by
  simp only [promoteFirst, Function.update_self]

theorem promoteFirst_lists_of_ne (count : Nat) (queue : Store QueueKey Value Score) {key : QueueKey}
    (other : key ≠ .ready) : (promoteFirst count queue).lists key = queue.lists key :=
  Function.update_of_ne other _ _

theorem promoteFirst_sorted_of_ne (count : Nat) (queue : Store QueueKey Value Score)
    {key : QueueKey} (other : key ≠ .delayed) :
    (promoteFirst count queue).sorted key = queue.sorted key :=
  Function.update_of_ne other _ _

/-- Promoting the least entry and then some more. -/
theorem promoteFirst_succ {queue popped : Store QueueKey Value Score} {item : Value} {score : Score}
    (least : queue.zpopmin .delayed = some ((item, score), popped)) (count : Nat) :
    promoteFirst count (popped.lpush .ready item) = promoteFirst (count + 1) queue := by
  obtain ⟨rest, listed, rfl⟩ := Store.zpopmin_eq_some least
  unfold promoteFirst Store.lpush
  simp [listed, Function.update_idem]

end Promotion

/-! ### The loop -/

section Loop

variable {Value Score : Type} [DecidableEq Value] [LinearOrder Score]
  (before : Value × Score → Value × Score → Prop) [DecidableRel before] (maxScore : Score)

/-- The loop of `mature_tasks`: how many tasks were promoted, and the queue it leaves. -/
def matureLoop : Nat → Nat → Store QueueKey Value Score → Nat × Store QueueKey Value Score
  | 0, promoted, queue => (promoted, queue)
  | remaining + 1, promoted, queue =>
    match queue.zpopmin .delayed with
    | none => (promoted, queue)
    | some ((item, score), popped) =>
      if maxScore < score then (promoted, popped.zadd before .delayed item score)
      else matureLoop remaining (promoted + 1) (popped.lpush .ready item)

variable {before}

/-- The number of entries one call promotes. -/
def promotable (batch : Nat) (queue : Store QueueKey Value Score) : Nat :=
  min batch ((queue.sorted .delayed).countP fun entry => entry.2 ≤ maxScore)

/-- The loop promotes the due entries in their order, as many as the batch has left. -/
theorem matureLoop_eq (scores : ∀ first second, before first second → first.2 ≤ second.2)
    (remaining promoted : Nat) (queue : Store QueueKey Value Score)
    (ranked : Ranked before (queue.sorted .delayed)) :
    matureLoop before maxScore remaining promoted queue =
      (promoted + promotable maxScore remaining queue,
        promoteFirst (promotable maxScore remaining queue) queue) := by
  induction remaining generalizing promoted queue with
  | zero => rw [promotable, Nat.zero_min, promoteFirst_zero]; rfl
  | succ remaining inductionHypothesis =>
    unfold matureLoop
    split
    · rename_i empty
      have none : promotable maxScore (remaining + 1) queue = 0 := by
        rw [promotable, Store.zpopmin_eq_none empty, List.countP_nil, Nat.min_zero]
      rw [none, promoteFirst_zero]
      rfl
    · rename_i item score popped least
      obtain ⟨rest, listed, rfl⟩ := Store.zpopmin_eq_some least
      split
      · -- The least entry is not due, so none is, and putting it back undoes the pop.
        rename_i early
        have sorted : ByScore ((item, score) :: rest) :=
          listed ▸ ranked.ordered.imp (scores _ _)
        have none : promotable maxScore (remaining + 1) queue = 0 := by
          rw [promotable, listed, countP_eq_zero_of_lt sorted early, Nat.min_zero]
        rw [none, promoteFirst_zero, Store.zadd_zpopmin ranked least]
        rfl
      · rename_i due
        have more : promotable maxScore (remaining + 1) queue = promotable maxScore remaining
            (Store.lpush { queue with sorted := Function.update queue.sorted .delayed rest }
              .ready item) + 1 := by
          simp only [promotable, listed, Store.lpush, Function.update_self]
          rw [List.countP_cons_of_pos (by simpa using due)]
          omega
        rw [inductionHypothesis, promoteFirst_succ least, more, Nat.add_assoc, Nat.add_comm 1]
        simp only [Store.lpush, Function.update_self]
        rw [listed] at ranked
        exact ranked.tail

end Loop

/-- Promoting payloads is the same loop. -/
theorem TaskQueue.promote_eq (maxScore : ℚ) (queue : TaskQueue) (remaining promoted : Nat) :
    TaskQueue.promote maxScore queue remaining =
      (matureLoop dueBefore maxScore remaining promoted queue).2 := by
  induction remaining generalizing queue promoted with
  | zero => rfl
  | succ remaining inductionHypothesis =>
    unfold TaskQueue.promote matureLoop
    split
    · rename_i empty
      rw [empty]
    · rename_i item score popped least
      rw [least]
      split
      · rename_i early
        simp only [if_pos early]
      · rename_i due
        simp only [if_neg due]
        exact inductionHypothesis _ _

/-! ### The queue server -/

/-- Members of the delayed set are ordered by score and then by their bytes. -/
def rankedBefore {Score : Type} [LinearOrder Score] (first second : Bytes × Score) : Prop :=
  first.2 < second.2 ∨ first.2 = second.2 ∧ first.1 ≤ second.1

instance {Score : Type} [LinearOrder Score] : DecidableRel (@rankedBefore Score _) :=
  fun _ _ => inferInstanceAs (Decidable (_ ∨ _))

/-- The keys of the queue server; the delayed set holds its members in order, none twice. -/
structure RedisQueue (Score : Type) [LinearOrder Score] extends Store QueueKey Bytes Score where
  ranked : Ranked rankedBefore (sorted .delayed)

section Matured

variable {Score : Type} [LinearOrder Score] (epochMs : Timestamp → Score)

/-- Move tasks that are due from the delayed set to the ready list, and count them. -/
def matureTasks (queue : RedisQueue Score) (now : Timestamp) (batchSize : Nat) :
    Nat × Store QueueKey Bytes Score :=
  matureLoop rankedBefore (epochMs now) batchSize 0 queue.toStore

/-- What some workers claim one after another, each from the right end of the ready list. -/
def claimed : List String → Store QueueKey Bytes Score → List Bytes
  | [], _ => []
  | workerId :: rest, queue =>
    match queue.rpoplpush .ready (.inflight workerId) with
    | none => claimed rest queue
    | some (item, queue) => item :: claimed rest queue

omit [LinearOrder Score] in
/-- Workers claim the ready list from its right end. -/
theorem claimed_eq (workerIds : List String) (queue : Store QueueKey Bytes Score) :
    claimed workerIds queue = (queue.lists .ready).reverse.take workerIds.length := by
  induction workerIds generalizing queue with
  | nil => rfl
  | cons workerId rest inductionHypothesis =>
    rcases List.eq_nil_or_concat (queue.lists .ready) with empty | ⟨initial, item, listed⟩
    · have none : queue.rpoplpush .ready (.inflight workerId) = none := by
        simp [Store.rpoplpush, empty]
      rw [claimed, none, inductionHypothesis, empty]
      simp
    · rw [List.concat_eq_append] at listed
      rw [claimed, Store.rpoplpush, listed, List.getLast?_concat]
      simp [inductionHypothesis, Store.lpush]

/-- One call promotes the due members in their order, as many as the batch holds, and counts them;
workers claim them in that order behind what was ready; every other member keeps its score. The loop
pops the least member, and putting back the first one that is not due undoes its pop. -/
theorem matureTasks_spec (queue : RedisQueue Score) (now : Timestamp) (batchSize : Nat) :
    let delayed := queue.sorted .delayed
    let count := min batchSize (delayed.countP fun entry => entry.2 ≤ epochMs now)
    let promoted := (delayed.take count).map Prod.fst
    let left := (matureTasks epochMs queue now batchSize).2
    (matureTasks epochMs queue now batchSize).1 = count ∧
      left.sorted .delayed = delayed.drop count ∧
      left.lists .ready = promoted.reverse ++ queue.lists .ready ∧
      (∀ workerIds, claimed workerIds left =
        ((queue.lists .ready).reverse ++ promoted).take workerIds.length) ∧
      (∀ key, key ≠ .ready → left.lists key = queue.lists key) ∧
      ∀ key, key ≠ .delayed → left.sorted key = queue.sorted key := by
  intro delayed count promoted left
  have scores (first second : Bytes × Score) (ranks : rankedBefore first second) :
      first.2 ≤ second.2 := ranks.elim le_of_lt fun both => both.1.le
  have matured : matureTasks epochMs queue now batchSize =
      (count, promoteFirst count queue.toStore) := by
    rw [matureTasks, matureLoop_eq (epochMs now) scores batchSize 0 queue.toStore queue.ranked,
      Nat.zero_add]
    rfl
  have leftEq : left = promoteFirst count queue.toStore := congrArg Prod.snd matured
  have ready : left.lists .ready = promoted.reverse ++ queue.lists .ready := by
    rw [leftEq, promoteFirst_ready]
  refine ⟨congrArg Prod.fst matured, ?_, ready, fun workerIds => ?_, fun key other => ?_,
    fun key other => ?_⟩
  · rw [leftEq, promoteFirst_delayed]
  · rw [claimed_eq, ready, List.reverse_append, List.reverse_reverse]
  · rw [leftEq, promoteFirst_lists_of_ne count queue.toStore other]
  · rw [leftEq, promoteFirst_sorted_of_ne count queue.toStore other]

end Matured

/-- Three members in the delayed set, two of them with one score, and one entry that is ready. -/
def tiedQueue : RedisQueue ℚ where
  lists key := if key = .ready then [[0x30]] else []
  sorted key :=
    if key = .delayed then [(emptyArray, 5000), (emptyObject, 5000), (noJson, 7000)] else []
  ranked := ⟨by decide +kernel, by decide +kernel⟩

/-- A batch of one stops inside the tie. A larger one also pops the member that is not due and
puts it back. -/
theorem matureTasks_spec_tied :
    (matureTasks TaskQueue.epochMs tiedQueue 6 1).2.sorted .delayed =
        [(emptyObject, 5000), (noJson, 7000)] ∧
      (matureTasks TaskQueue.epochMs tiedQueue 6 3).1 = 2 ∧
      (matureTasks TaskQueue.epochMs tiedQueue 6 3).2.sorted .delayed = [(noJson, 7000)] ∧
      claimed ["a", "b", "c"] (matureTasks TaskQueue.epochMs tiedQueue 6 3).2 =
        [[0x30], emptyArray, emptyObject] := by
  obtain ⟨-, kept, -⟩ := matureTasks_spec TaskQueue.epochMs tiedQueue 6 1
  obtain ⟨counted, putBack, -, claims, -⟩ := matureTasks_spec TaskQueue.epochMs tiedQueue 6 3
  exact ⟨kept.trans (by decide +kernel), counted.trans (by decide +kernel),
    putBack.trans (by decide +kernel), (claims _).trans (by decide +kernel)⟩

end InsuranceOps
