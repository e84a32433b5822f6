/-
This file asks whether the relay's advisory lock comes free again. The lock
belongs to the connection that took it, but the relay only names its session:
the commit in front of the unlock gives the connection back to the pool, the
unlock may run on another one, and in an aborted transaction it does not run at
all. There is never more than one process between lock and unlock; but the lock
is released exactly when each unlock reaches the connection that holds it.
-/

import InsuranceOps.ServiceEffects

namespace InsuranceOps

open AdvisoryLock

/-! ### What is asked -/

/-- The connection a relay process has taken the lock with, up to its unlock. -/
def RelayPhase.lockedWith (phase : RelayPhase) : Option Nat :=
  phase.holding.map fun batch => batch.connection

/-- No connection holds the lock but the one its process has taken it with and not yet unlocked, and
there is never more than one process between lock and unlock. -/
structure Services.LockReleased (services : Services) : Prop where
  released : ∀ process connection, services.relayLock.HeldBy (process, connection) →
    (services.relays process).lockedWith = some connection
  exclusive : ∀ first second, (services.relays first).lockedWith.isSome →
    (services.relays second).lockedWith.isSome → first = second

/-- When the unlock is the next statement, it is executed, and by the connection that took the lock:
the transaction is not aborted, and behind a commit the pool hands out the connection it was given
back. -/
def RelayPhase.UnlocksOwn : RelayPhase → RelayAction → Prop
  | .committed batch, .perform _ connection => connection = batch.connection
  | .committed _, .raise _ | .committed _, .refuse | .leaving _, .raise _ | .leaving _, .refuse
  | .aborted _, .perform _ _ | .aborted _, .raise _ | .aborted _, .refuse => False
  | _, _ => True

/-- The relay process whose unlock is due runs it with the connection that took the lock. -/
def UnlocksOwn (services : Services) : ServiceEvent → Prop
  | .relay process action => (services.relays process).UnlocksOwn action
  | _ => True

/-! ### The lock at a step -/

/-- What a step of a relay process does to the lock: nothing, with the process on the same side of
the unlock; taking it; unlocking with some connection; leaving without the unlock; or stopping. -/
inductive LockMove (services : Services) (process : Nat) (action : RelayAction)
    (next : Services) : Prop
  | keeps (lock : next.relayLock = services.relayLock)
      (same : (next.relays process).lockedWith = (services.relays process).lockedWith)
      (met : (services.relays process).UnlocksOwn action)
  | takes (connection : Nat) (outside : (services.relays process).lockedWith = none)
      (taken : services.relayLock.tryLock (process, connection) = some next.relayLock)
      (inside : (next.relays process).lockedWith = some connection)
      (met : (services.relays process).UnlocksOwn action)
  | releases (own connection : Nat) (inside : (services.relays process).lockedWith = some own)
      (lock : next.relayLock = services.relayLock.unlock (process, connection))
      (outside : (next.relays process).lockedWith = none)
      (met : (services.relays process).UnlocksOwn action ↔ connection = own)
  | abandons (own : Nat) (inside : (services.relays process).lockedWith = some own)
      (lock : next.relayLock = services.relayLock)
      (outside : (next.relays process).lockedWith = none)
      (missed : ¬(services.relays process).UnlocksOwn action)
  | stops (lock : next.relayLock = services.relayLock.disconnect fun owner => owner.1 = process)
      (outside : (next.relays process).lockedWith = none)
      (met : (services.relays process).UnlocksOwn action)

section Step

variable {services : Services} {process : Nat} {action : RelayAction}

namespace RelayPhase

variable {phase : RelayPhase} {batch : RelayBatch}

/-- A process that is not due to run the unlock meets the condition. -/
theorem unlocksOwn_of_not_unlocking (elsewhere : phase.unlocking = none) :
    phase.UnlocksOwn action := by
  cases phase with
  | committed batch => cases elsewhere
  | leaving batch => cases elsewhere
  | aborted batch => cases elsewhere
  | _ => cases action <;> trivial

theorem unlocksOwn_acquire (phase : RelayPhase) (connection : Nat) (now : Timestamp) :
    phase.UnlocksOwn (.acquire connection now) := by
  cases phase <;> trivial

theorem unlocksOwn_crash (phase : RelayPhase) : phase.UnlocksOwn .crash := by
  cases phase <;> trivial

theorem unlocking_of_trying (trying : phase.trying = some batch) : phase.unlocking = none := by
  cases phase <;> first | rfl | cases trying

theorem lockedWith_of_trying (trying : phase.trying = some batch) :
    phase.lockedWith = some batch.connection := by
  rw [lockedWith, holding, trying]
  rfl

end RelayPhase

@[simp] theorem Services.relays_proceed (services : Services) (process : Nat)
    (phase : RelayPhase) : (services.proceed process phase).relays process = phase :=
  Function.update_self _ _ _

/-- A step in the try block that stays there, or leaves it with an exception. -/
theorem LockMove.of_trying {batch : RelayBatch} {next : Services}
    (trying : (services.relays process).trying = some batch)
    (lock : next.relayLock = services.relayLock)
    (same : (next.relays process).lockedWith = some batch.connection) :
    LockMove services process action next :=
  .keeps lock (same.trans (RelayPhase.lockedWith_of_trying trying).symm)
    (RelayPhase.unlocksOwn_of_not_unlocking (RelayPhase.unlocking_of_trying trying))

/-- A step behind the unlock. -/
theorem LockMove.of_unlocked {batch : RelayBatch} {next : Services}
    (phase : services.relays process = .unlocked batch)
    (lock : next.relayLock = services.relayLock) (idle : next.relays process = .idle) :
    LockMove services process action next :=
  .keeps lock (by rw [idle, phase]; rfl)
    (RelayPhase.unlocksOwn_of_not_unlocking (by rw [phase]; rfl))

theorem RelayEffect.lockMove {next : Services}
    (effect : RelayEffect services process action next) :
    LockMove services process action next := by
  cases effect with
  | stays _ waits =>
    refine .keeps rfl rfl ?_
    rcases waits with elsewhere | ⟨connection, now, rfl⟩
    · exact RelayPhase.unlocksOwn_of_not_unlocking elsewhere
    · exact RelayPhase.unlocksOwn_acquire _ connection now
  | acquires idle free =>
    exact .takes _ (by rw [idle]; rfl) free (by rw [Services.relays_proceed]; rfl)
      (RelayPhase.unlocksOwn_acquire _ _ _)
  | reads phase =>
    exact .of_trying (by rw [phase]; rfl) rfl (by rw [Services.relays_proceed]; rfl)
  | pushes time phase =>
    exact .of_trying (by rw [phase]; rfl) rfl
      (by rw [Services.pushEntry, Services.relays_proceed]; rfl)
  | marks phase =>
    exact .of_trying (by rw [phase]; rfl) rfl
      (by rw [Services.writeRow, Services.relays_proceed]; rfl)
  | counts phase =>
    exact .of_trying (by rw [phase]; rfl) rfl
      (by rw [Services.writeRow, Services.relays_proceed]; rfl)
  | fails error phase =>
    refine .of_trying ?_ rfl (by rw [Services.relays_proceed]; rfl)
    rcases phase with phase | phase
    · rw [phase]
      rfl
    · rw [phase]
      rfl
  | leaves trying => exact .of_trying trying rfl (by rw [Services.relays_proceed]; rfl)
  | aborts trying =>
    exact .of_trying trying rfl (by rw [Services.rollBack, Services.relays_proceed]; rfl)
  | commits phase =>
    exact .of_trying (by rw [phase]; rfl) rfl
      (by rw [Services.commitBatch, Services.relays_proceed]; rfl)
  | releases phase =>
    refine .releases _ _ (by rw [phase]; rfl) rfl
      (by rw [Services.release, Services.relays_proceed]; rfl) ?_
    rw [phase]
    rfl
  | releasesOwn phase =>
    refine .releases _ _ (by rw [phase]; rfl) rfl
      (by rw [Services.release, Services.relays_proceed]; rfl) (iff_of_true ?_ rfl)
    rw [phase]
    trivial
  | @closesLocked batch _ phase =>
    have idle : ((services.rollBack process .idle).relays process).lockedWith = none := by
      rw [Services.rollBack, Services.relays_proceed]
      rfl
    rcases phase with ⟨phase | phase, ⟨error, rfl⟩ | rfl⟩ |
      ⟨phase, ⟨time, connection, rfl⟩ | ⟨error, rfl⟩ | rfl⟩ <;>
      exact .abandons batch.connection (by rw [phase]; rfl) rfl idle
        (by rw [phase]; exact id)
  | finishes phase =>
    exact .of_unlocked phase rfl (by rw [Services.commitBatch, Services.relays_proceed])
  | closes phase =>
    exact .of_unlocked phase rfl (by rw [Services.rollBack, Services.relays_proceed])
  | crashes =>
    exact .stops rfl (by rw [Services.crash, Services.rollBack, Services.relays_proceed]; rfl)
      (RelayPhase.unlocksOwn_crash _)

end Step

/-! ### Lock and unlock -/

/-- A process between lock and unlock holds the lock. -/
def LockHeld (services : Services) : Prop :=
  ∀ process connection, (services.relays process).lockedWith = some connection →
    services.relayLock.HeldBy (process, connection)

/-- The lock is not taken twice. -/
def TakenOnce (services : Services) : Prop :=
  ∀ grant, services.relayLock = some grant → grant.depth = 1

section Invariants

variable {services next : Services} {process : Nat} {action : RelayAction}

theorem LockHeld.exclusive (held : LockHeld services) (first second : Nat)
    (one : (services.relays first).lockedWith.isSome)
    (two : (services.relays second).lockedWith.isSome) : first = second := by
  obtain ⟨_, one⟩ := Option.isSome_iff_exists.mp one
  obtain ⟨_, two⟩ := Option.isSome_iff_exists.mp two
  exact congrArg Prod.fst ((held first _ one).unique (held second _ two))

/-- The lock is held wherever a process is between lock and unlock, whatever the process does. -/
theorem LockMove.lockHeld (move : LockMove services process action next)
    (others : ∀ other, other ≠ process → next.relays other = services.relays other)
    (held : LockHeld services) : LockHeld next := by
  intro other connection inside
  by_cases same : other = process
  · subst same
    cases move with
    | keeps lock sameSide => rw [lock]; exact held other connection (sameSide ▸ inside)
    | takes own _ taken insideNext =>
      rw [insideNext] at inside
      cases inside
      exact Lock.heldBy_of_tryLock taken
    | releases _ _ _ _ outside => rw [outside] at inside; cases inside
    | abandons _ _ _ outside => rw [outside] at inside; cases inside
    | stops _ outside => rw [outside] at inside; cases inside
  · have insideBefore := held other connection (others other same ▸ inside)
    cases move with
    | keeps lock => rw [lock]; exact insideBefore
    | takes own _ taken =>
      rcases Lock.tryLock_some taken with ⟨free, -⟩ | again
      · rw [free] at insideBefore
        obtain ⟨_, ⟨⟩⟩ := insideBefore
      · exact absurd (congrArg Prod.fst (insideBefore.unique again)) same
    | releases _ connection _ lock =>
      rw [lock]
      exact insideBefore.unlock_of_ne fun equal => same (congrArg Prod.fst equal)
    | abandons _ _ lock => rw [lock]; exact insideBefore
    | stops lock => rw [lock]; exact insideBefore.disconnect (decide_eq_false same)

/-- As long as the lock is released, it is taken once at a time. -/
theorem LockMove.takenOnce (move : LockMove services process action next)
    (once : TakenOnce services) (property : services.LockReleased) : TakenOnce next := by
  intro grant granted
  cases move with
  | keeps lock => exact once grant (lock ▸ granted)
  | takes own outside taken =>
    rcases Lock.tryLock_some taken with ⟨-, fresh⟩ | again
    · rw [fresh] at granted
      cases granted
      rfl
    · rw [property.released process own again] at outside
      cases outside
  | releases _ connection _ lock =>
    rw [lock] at granted
    by_cases held : services.relayLock.HeldBy (process, connection)
    · obtain ⟨depth, held⟩ := held
      have single := once _ held
      dsimp only at single
      rw [held, single, Lock.unlock_once] at granted
      cases granted
    · rw [Lock.unlock_of_not_heldBy held] at granted
      exact once grant granted
  | abandons _ _ lock => exact once grant (lock ▸ granted)
  | stops lock =>
    rw [lock] at granted
    exact once grant (Lock.of_disconnect granted).1

/-- A step of a relay process leaves the lock released exactly when its unlock, if it is due,
reaches the connection that holds it. -/
theorem LockMove.released_iff (move : LockMove services process action next)
    (others : ∀ other, other ≠ process → next.relays other = services.relays other)
    (held : LockHeld services) (once : TakenOnce services) (property : services.LockReleased) :
    next.LockReleased ↔ (services.relays process).UnlocksOwn action := by
  have exclusive := (move.lockHeld others held).exclusive
  have elsewhere {other connection : Nat} (different : other ≠ process)
      (before : services.relayLock.HeldBy (other, connection)) :
      (next.relays other).lockedWith = some connection := by
    rw [others other different]
    exact property.released other connection before
  cases move with
  | keeps lock sameSide met =>
    refine iff_of_true ⟨fun other connection heldNext => ?_, exclusive⟩ met
    rw [lock] at heldNext
    by_cases same : other = process
    · subst same
      exact sameSide.trans (property.released other connection heldNext)
    · exact elsewhere same heldNext
  | takes own _ taken inside met =>
    refine iff_of_true ⟨fun other connection heldNext => ?_, exclusive⟩ met
    cases heldNext.unique (Lock.heldBy_of_tryLock taken)
    exact inside
  | releases own connection inside lock outside met =>
    have ownHeld := held process own inside
    refine Iff.trans ⟨fun propertyNext => ?_, fun reaches => ?_⟩ met.symm
    · by_contra different
      have unheld : ¬services.relayLock.HeldBy (process, connection) := fun other =>
        different (congrArg Prod.snd (other.unique ownHeld))
      have unmoved := Lock.unlock_of_not_heldBy unheld
      rw [← unmoved, ← lock] at ownHeld
      rw [propertyNext.released process own ownHeld] at outside
      cases outside
    · obtain ⟨depth, ownHeld⟩ := ownHeld
      have single := once _ ownHeld
      dsimp only at single
      rw [ownHeld, single, reaches, Lock.unlock_once] at lock
      refine ⟨fun other found heldNext => ?_, exclusive⟩
      rw [lock] at heldNext
      obtain ⟨_, ⟨⟩⟩ := heldNext
  | abandons own inside lock outside missed =>
    refine iff_of_false (fun propertyNext => ?_) missed
    have ownHeld := held process own inside
    rw [← lock] at ownHeld
    rw [propertyNext.released process own ownHeld] at outside
    cases outside
  | stops lock outside met =>
    refine iff_of_true ⟨fun other connection heldNext => ?_, exclusive⟩ met
    rw [lock] at heldNext
    obtain ⟨before, stays⟩ := heldNext.of_disconnect
    exact elsewhere (of_decide_eq_false stays) before

end Invariants

/-! ### Runs of the services -/

section Runs

variable (registry : WorkflowRegistry) (loads : String → Option Json)

/-- What no relay process did left the lock where it was. -/
theorem lockReleased_congr {services next : Services} (kept : RelaysKept services next) :
    next.LockReleased ↔ services.LockReleased := by
  constructor
  · rintro ⟨released, exclusive⟩
    rw [kept.relayLock, kept.relays] at released
    rw [kept.relays] at exclusive
    exact ⟨released, exclusive⟩
  · rintro ⟨released, exclusive⟩
    rw [← kept.relayLock, ← kept.relays] at released
    rw [← kept.relays] at exclusive
    exact ⟨released, exclusive⟩

theorem step_lockHeld (services : Services) (event : ServiceEvent) (held : LockHeld services) :
    LockHeld (services.step registry loads event) := by
  by_cases relayed : ∃ process action, event = .relay process action
  · obtain ⟨process, action, rfl⟩ := relayed
    have effect := services.relayStep_effect process action
    exact effect.lockMove.lockHeld (fun other => effect.relays_of_ne) held
  · have kept := RelaysKept.step loads services registry event
      fun process action same => relayed ⟨process, action, same⟩
    unfold LockHeld
    rw [kept.relays, kept.relayLock]
    exact held

theorem step_takenOnce (services : Services) (event : ServiceEvent) (once : TakenOnce services)
    (property : services.LockReleased) : TakenOnce (services.step registry loads event) := by
  by_cases relayed : ∃ process action, event = .relay process action
  · obtain ⟨process, action, rfl⟩ := relayed
    exact (services.relayStep_effect process action).lockMove.takenOnce once property
  · have kept := RelaysKept.step loads services registry event
      fun process action same => relayed ⟨process, action, same⟩
    unfold TakenOnce
    rw [kept.relayLock]
    exact once

theorem step_lockReleased_iff (services : Services) (event : ServiceEvent)
    (held : LockHeld services) (once : TakenOnce services) (property : services.LockReleased) :
    (services.step registry loads event).LockReleased ↔ UnlocksOwn services event := by
  by_cases relayed : ∃ process action, event = .relay process action
  · obtain ⟨process, action, rfl⟩ := relayed
    have effect := services.relayStep_effect process action
    exact effect.lockMove.released_iff (fun other => effect.relays_of_ne) held once property
  · have kept := RelaysKept.step loads services registry event
      fun process action same => relayed ⟨process, action, same⟩
    refine iff_of_true ((lockReleased_congr kept).mpr property) ?_
    cases event with
    | relay process action => exact absurd ⟨process, action, rfl⟩ relayed
    | _ => trivial

/-- From the start of the services on, in every state of a run the lock is released and taken by one
process at a time, exactly when each unlock is executed by the connection that holds the lock. The
lock belongs to one connection, so an unlock on another one leaves it held behind the process that
took it. -/
theorem relay_lock_released (db : Database) (queue : TaskQueue) (events : List ServiceEvent) :
    Transition.Throughout (Services.step registry loads) Services.LockReleased
        (.resting db queue) events ↔
      Transition.Along (Services.step registry loads) UnlocksOwn (.resting db queue) events := by
  refine Transition.throughout_iff_along_of_invariant (Services.step registry loads)
    (fun services => LockHeld services ∧ TakenOnce services) ?_ ?_ _ ⟨?_, ?_⟩ ⟨?_, ?_⟩ events
  · rintro services event ⟨held, once⟩ property
    exact ⟨step_lockHeld registry loads services event held,
      step_takenOnce registry loads services event once property⟩
  · rintro services event ⟨held, once⟩ property
    exact step_lockReleased_iff registry loads services event held once property
  · exact fun _ _ inside => nomatch inside
  · exact fun _ granted => nomatch granted
  · exact fun _ _ ⟨_, held⟩ => nomatch held
  · exact fun _ _ inside => nomatch inside

/-- Never is more than one process between lock and unlock. -/
theorem relay_lock_exclusive (db : Database) (queue : TaskQueue) (events : List ServiceEvent)
    (first second : Nat) :
    let services := Transition.run (Services.step registry loads) (.resting db queue) events
    (services.relays first).lockedWith.isSome → (services.relays second).lockedWith.isSome →
      first = second := by
  have held := Transition.run_invariant_always (Services.step registry loads) LockHeld
    (step_lockHeld registry loads) (.resting db queue) (fun _ _ inside => nomatch inside) events
  exact held.exclusive first second

end Runs

/-! ### A lock that stays -/

/-- A batch without entries whose unlock gets another connection than its commit gave back. -/
def unlockedElsewhere : List ServiceEvent := [
  .relay 0 (.acquire 0 20), .relay 0 (.perform "20.0" 0), .relay 0 (.perform "20.0" 0),
  .relay 0 (.perform "20.0" 1), .relay 0 (.perform "20.0" 1)]

/-- A batch whose read of the outbox fails, so that its unlock is refused. -/
def unlockRefused : List ServiceEvent := [
  .relay 0 (.acquire 0 20), .relay 0 .refuse, .relay 0 (.perform "20.0" 0)]

def afterBatch (events : List ServiceEvent) : Services :=
  Transition.run (Services.step [claimIntakeV1] fun _ => none)
    (.resting (.empty []) .empty) events

/-- After either batch the process is done and the lock is still held. -/
theorem lock_leaks :
    ¬(afterBatch unlockedElsewhere).LockReleased ∧
      ¬(afterBatch unlockRefused).LockReleased := by
  have elsewhere : (afterBatch unlockedElsewhere).relayLock = some ⟨(0, 0), 1⟩ := rfl
  have refused : (afterBatch unlockRefused).relayLock = some ⟨(0, 0), 1⟩ := rfl
  exact ⟨fun property => (nomatch property.released 0 0 ⟨1, elsewhere⟩),
    fun property => (nomatch property.released 0 0 ⟨1, refused⟩)⟩

end InsuranceOps
