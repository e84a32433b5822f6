/-
This file puts the API routes, the outbox relay, the scheduler, the worker and
the reaper together as one transition system: the state is the database and the
queue, and a label is one request, one relay batch, one scheduler pass, one
worker iteration or one reaper pass, with what it draws from its surroundings.
-/

import InsuranceOps.Commands
import InsuranceOps.Relay
import InsuranceOps.Worker

namespace InsuranceOps

open ListStore

/-! ### A pass of the reaper -/

section Reaper

variable (visibilityTimeout now : ℚ)

/-- The tasks of one inflight list, each moved where the verdict on it says; whether no verdict
raised. -/
def reapTasks (workerId : String) : List JsonObject → TaskQueue → TaskQueue × Bool
  | [], queue => (queue, true)
  | payload :: rest, queue =>
    match taskVerdict visibilityTimeout now payload.encoded payload with
    | .leaves => reapTasks workerId rest queue
    | .raises => (queue, false)
    | .moves target =>
      reapTasks workerId rest ((queue.lrem (.inflight workerId) payload).lpush target.key payload)

/-- Scan some inflight lists and move stuck tasks; an exception ends the pass. -/
def reaperPass : List String → TaskQueue → TaskQueue
  | [], queue => queue
  | workerId :: rest, queue =>
    match reapTasks visibilityTimeout now workerId (queue.lists (.inflight workerId)) queue with
    | (reaped, true) => reaperPass rest reaped
    | (reaped, false) => reaped

/-- What the reaper takes from one list it pushes on another, so the queue holds what it held. -/
theorem holds_reapTasks (workerId : String) (items : List JsonObject) (queue : TaskQueue)
    (stored : ∀ payload ∈ items, queue.Holds payload) (other : JsonObject) :
    (reapTasks visibilityTimeout now workerId items queue).1.Holds other ↔ queue.Holds other := by
  induction items generalizing queue with
  | nil => exact Iff.rfl
  | cons payload rest inductionHypothesis =>
    have later := fun next member => stored next (List.mem_cons_of_mem payload member)
    rw [reapTasks]
    split
    · exact inductionHypothesis queue later
    · exact Iff.rfl
    · rename_i target _
      have same := fun entry => Store.holds_lpush_lrem queue (.inflight workerId) payload
        target.key entry (stored payload List.mem_cons_self)
      exact (inductionHypothesis _ fun next member => (same next).mpr (later next member)).trans
        (same other)

theorem holds_reaperPass (workerIds : List String) (queue : TaskQueue) (other : JsonObject) :
    (reaperPass visibilityTimeout now workerIds queue).Holds other ↔ queue.Holds other := by
  induction workerIds generalizing queue with
  | nil => exact Iff.rfl
  | cons workerId rest inductionHypothesis =>
    have reaped := holds_reapTasks visibilityTimeout now workerId
      (queue.lists (.inflight workerId)) queue (fun _ member => .inl ⟨_, member⟩) other
    rw [reaperPass]
    split
    · rename_i same
      rw [same] at reaped
      exact (inductionHypothesis _).trans reaped
    · rename_i same
      rw [same] at reaped
      exact reaped

theorem reaperPass_handedOver (queue : TaskQueue) (workerIds : List String) (db : Database) :
    HandedOver db db queue (reaperPass visibilityTimeout now workerIds queue) :=
  .of_queue db (fun payload => (holds_reaperPass _ _ workerIds queue payload).mpr)
    fun payload held => .inl ((holds_reaperPass _ _ workerIds queue payload).mp held)

end Reaper

/-! ### The processes together -/

/-- The database and the task queue. -/
structure Platform where
  db : Database
  queue : TaskQueue

/-- A step of one of the platform's processes. A worker iteration runs at most one handler, so
what that handler returns is part of the label. -/
inductive PlatformEvent where
  | request (made : RouteRequest) (principal : ApiKeyPrincipal) (draws : Draws)
  | relay (draws : RelayDraws)
  | schedule (acquired : Bool) (now : Timestamp)
  | work (workerId : String) (returned : HandlerReturn) (draws : Draws)
  | reap (visibilityTimeout now : ℚ) (workerIds : List String)

/-- A platform with some ingested documents, no run and an empty queue. -/
def Platform.empty (documents : List UUID) : Platform := ⟨.empty documents, .empty⟩

/-- The step of the platform. -/
def Platform.step (registry : WorkflowRegistry) (loads : String → Option Json)
    (platform : Platform) : PlatformEvent → Platform
  | .request made principal draws =>
    ⟨commit platform.db (made.perform registry platform.db draws principal), platform.queue⟩
  | .relay draws =>
    let relayed := relayBatch draws platform.db platform.queue
    ⟨relayed.1, relayed.2⟩
  | .schedule acquired now => ⟨platform.db, schedulerPass acquired now platform.queue⟩
  | .work workerId returned draws =>
    let worked := workerIteration loads (fun _ _ => returned) draws workerId platform.db
      platform.queue
    ⟨worked.1, worked.2⟩
  | .reap visibilityTimeout now workerIds =>
    ⟨platform.db, reaperPass visibilityTimeout now workerIds platform.queue⟩

/-- A run of the registered workflow is created and its first task relayed. -/
def firstTaskRelayed : List PlatformEvent := [
  .request (.createWorkflowRun { workflowName := "claim_intake", documentIds := [] })
    ⟨"key", "operator", "label"⟩ (numberedDraws 1),
  .relay { acquired := true, now := 20, time := fun _ => "20.0", pushError := fun _ => none }]

end InsuranceOps
