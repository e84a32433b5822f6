/-
This file models the audit chain: the text of a datetime, which is part of what
is hashed, the hash of an event, the lookup of a run's latest event, and the
event `append_audit_event` writes behind it. The events of one run form a chain
when they are numbered from one without a gap, each stores the hash of the one
before it, and each stores the hash of its own content. Writing one more event
keeps every run's events a chain.
-/

import InsuranceOps.Identifier
import InsuranceOps.Library.HashLinked
import Mathlib.Data.List.TakeWhile

namespace InsuranceOps

/-! ### Datetimes -/

/-- Seconds since 1970-01-01T00:00:00+00:00. -/
abbrev Timestamp := ℚ

/-- The date of a day since the epoch in the proleptic Gregorian calendar: year, month and day.
Years start in March here, so that the leap day is the last day of a year. -/
def civilOfDays (days : Int) : Int × Nat × Nat :=
  let shifted := days + 719468
  let era := shifted / 146097
  let dayOfEra := (shifted % 146097).toNat
  let yearOfEra := (dayOfEra - dayOfEra / 1460 + dayOfEra / 36524 - dayOfEra / 146096) / 365
  let dayOfYear := dayOfEra - (365 * yearOfEra + yearOfEra / 4 - yearOfEra / 100)
  let shiftedMonth := (5 * dayOfYear + 2) / 153
  let day := dayOfYear - (153 * shiftedMonth + 2) / 5 + 1
  let month := if shiftedMonth < 10 then shiftedMonth + 3 else shiftedMonth - 9
  (yearOfEra + era * 400 + (if month ≤ 2 then 1 else 0), month, day)

/-- `datetime.isoformat()` of an aware UTC datetime. -/
def isoformat (time : Timestamp) : Text :=
  let micros := ⌊time * 1000000⌋
  let (year, month, day) := civilOfDays (micros / 86400000000)
  let ofDay := (micros % 86400000000).toNat
  let seconds := ofDay / 1000000
  let fraction := ofDay % 1000000
  padded 4 year.toNat ++ '-' :: padded 2 month ++ '-' :: padded 2 day ++
    'T' :: padded 2 (seconds / 3600) ++ ':' :: padded 2 (seconds / 60 % 60) ++
    ':' :: padded 2 (seconds % 60) ++
    (if fraction = 0 then [] else '.' :: padded 6 fraction) ++ "+00:00".toList

example : isoformat (1709210096 + 1 / 4) = "2024-02-29T12:34:56.250000+00:00".toList := by
  decide +kernel

/-! ### Hashes of events -/

/-- A stored hash. -/
abbrev Digest := List UInt8

/-- A row of `audit_events`. -/
structure AuditEventModel where
  auditEventId : UUID
  workflowRunId : UUID
  stepId : Option UUID
  stepAttemptId : Option UUID
  eventType : String
  actor : String
  payload : JsonObject
  occurredAt : Timestamp
  seqInRun : Int
  prevEventHash : Option Digest
  eventHash : Digest
  deriving DecidableEq

/-- The bytes `compute_event_hash` feeds to SHA-256. -/
def hashedBytes (auditEventId workflowRunId : UUID) (actor eventType : String)
    (payload : JsonObject) (occurredAt : Timestamp) (prevEventHash : Option Digest) :
    List UInt8 :=
  auditEventId.bytes ++ workflowRunId.bytes ++ utf8 actor.toList ++ utf8 eventType.toList ++
    utf8 (canonicalJson payload) ++ utf8 (isoformat occurredAt) ++ prevEventHash.getD []

/-- The SHA-256 hash of an audit event. -/
def computeEventHash (auditEventId workflowRunId : UUID) (actor eventType : String)
    (payload : JsonObject) (occurredAt : Timestamp) (prevEventHash : Option Digest) : Digest :=
  Sha256.digest
    (hashedBytes auditEventId workflowRunId actor eventType payload occurredAt prevEventHash)

namespace AuditEventModel

/-- The bytes the hash of a stored row is recomputed from. -/
def hashedBytes (event : AuditEventModel) : List UInt8 :=
  InsuranceOps.hashedBytes event.auditEventId event.workflowRunId event.actor event.eventType
    event.payload event.occurredAt event.prevEventHash

/-- The hash recomputed from a stored row. -/
def expectedHash (event : AuditEventModel) : Digest :=
  computeEventHash event.auditEventId event.workflowRunId event.actor event.eventType
    event.payload event.occurredAt event.prevEventHash

/-- The hashed bytes open with the identifier of the event. -/
theorem hashedBytes_auditEventId {first second : AuditEventModel}
    (same : first.hashedBytes = second.hashedBytes) :
    first.auditEventId = second.auditEventId := by
  simp only [hashedBytes, InsuranceOps.hashedBytes, List.append_assoc] at same
  refine UUID.bytes_injective (List.append_inj_left same ?_)
  rw [UUID.bytes_length, UUID.bytes_length]

end AuditEventModel

/-! ### Writing -/

/-- The arguments of one `append_audit_event` call. -/
structure AppendCall where
  workflowRunId : UUID
  eventType : String
  actor : String
  payload : JsonObject
  stepId : Option UUID := none
  stepAttemptId : Option UUID := none

/-- What one call draws from its surroundings: a fresh `uuid7()` and a reading of the clock. -/
structure EventDraw where
  auditEventId : UUID
  occurredAt : Timestamp

/-- The events of one run. -/
def eventsOf (events : List AuditEventModel) (workflowRunId : UUID) : List AuditEventModel :=
  events.filter fun event => event.workflowRunId = workflowRunId

/-- The latest audit event of a run by `seq_in_run`. -/
def getLatestForRun (events : List AuditEventModel) (workflowRunId : UUID) :
    Option AuditEventModel :=
  ((eventsOf events workflowRunId).insertionSort
    fun first second => second.seqInRun ≤ first.seqInRun).head?

/-- The event one call writes behind the latest event of its run. -/
def nextAuditEvent (latest : Option AuditEventModel) (call : AppendCall) (draw : EventDraw) :
    AuditEventModel :=
  let seqInRun := match latest with
    | some event => event.seqInRun + 1
    | none => 1
  let prevEventHash := latest.map fun event => event.eventHash
  { auditEventId := draw.auditEventId
    workflowRunId := call.workflowRunId
    stepId := call.stepId
    stepAttemptId := call.stepAttemptId
    eventType := call.eventType
    actor := call.actor
    payload := call.payload
    occurredAt := draw.occurredAt
    seqInRun := seqInRun
    prevEventHash := prevEventHash
    eventHash := computeEventHash draw.auditEventId call.workflowRunId call.actor call.eventType
      call.payload draw.occurredAt prevEventHash }

/-- Append a new audit event to the chain of its run. -/
def appendAuditEvent (events : List AuditEventModel) (call : AppendCall) (draw : EventDraw) :
    List AuditEventModel :=
  events ++ [nextAuditEvent (getLatestForRun events call.workflowRunId) call draw]

/-! ### Chains -/

/-- The rows are one gap-free hash chain, listed in the order they were written. -/
structure RunChain (rows : List AuditEventModel) : Prop where
  sequenced : rows.map (fun event => event.seqInRun) =
    (List.range rows.length).map fun (index : Nat) => (index : Int) + 1
  linked : HashLinked.LinkedFrom (fun event => event.prevEventHash)
    (fun event => event.eventHash) none rows
  hashed : ∀ event ∈ rows, event.eventHash = event.expectedHash

theorem runChain_nil : RunChain [] where
  sequenced := rfl
  linked := trivial
  hashed _ member := absurd member List.not_mem_nil

/-- The sequence number at a position of a chain. -/
theorem RunChain.seqInRun_getElem {rows : List AuditEventModel} (chain : RunChain rows)
    (index : Nat) (bound : index < rows.length) : rows[index].seqInRun = index + 1 := by
  have read := congrArg (fun numbers => numbers[index]?) chain.sequenced
  simpa [List.getElem?_eq_getElem bound, bound] using read

/-- An initial segment of a chain is a chain. -/
theorem RunChain.initial {rows segment : List AuditEventModel} (chain : RunChain rows)
    (cut : segment <+: rows) : RunChain segment where
  sequenced := by
    have taken := congrArg (List.take segment.length) chain.sequenced
    rwa [← List.map_take, ← List.prefix_iff_eq_take.mp cut, ← List.map_take, List.take_range,
      min_eq_left cut.length_le] at taken
  linked := chain.linked.initial _ _ cut
  hashed event member := chain.hashed event (cut.subset member)

/-- Sorting rows that stand in the opposite order reverses them. -/
theorem insertionSort_eq_reverse {Row : Type} (before : Row → Row → Prop) [DecidableRel before]
    (rows : List Row) (opposite : rows.Pairwise fun first second => ¬before first second) :
    rows.insertionSort before = rows.reverse := by
  induction rows with
  | nil => rfl
  | cons first rest inductionHypothesis =>
    obtain ⟨behind, remaining⟩ := List.pairwise_cons.mp opposite
    have all : ∀ row ∈ rest.reverse, decide (¬before first row) = true :=
      fun row member => decide_eq_true (behind row (List.mem_reverse.mp member))
    rw [List.insertionSort_cons, inductionHypothesis remaining, List.orderedInsert_eq_take_drop,
      List.takeWhile_eq_self_iff.mpr all, List.dropWhile_eq_nil_iff.mpr all, List.reverse_cons]

/-- The latest event of a chain by sequence number is the last one. -/
theorem RunChain.latest {rows : List AuditEventModel} (chain : RunChain rows) :
    (rows.insertionSort fun first second => second.seqInRun ≤ first.seqInRun).head? =
      rows.getLast? := by
  rw [insertionSort_eq_reverse, List.head?_reverse]
  refine List.pairwise_iff_getElem.mpr fun first second firstBound secondBound earlier => ?_
  rw [chain.seqInRun_getElem first firstBound, chain.seqInRun_getElem second secondBound]
  omega

/-- Writing behind the last event of a chain extends the chain. -/
theorem RunChain.extend {rows : List AuditEventModel} (chain : RunChain rows) (call : AppendCall)
    (draw : EventDraw) : RunChain (rows ++ [nextAuditEvent rows.getLast? call draw]) := by
  constructor
  · rw [List.map_append, chain.sequenced, List.length_append, List.length_singleton,
      List.range_succ, List.map_append, List.map_singleton, List.map_singleton]
    refine congrArg (fun number => _ ++ [number]) ?_
    rcases List.eq_nil_or_concat rows with rfl | ⟨initial, last, rfl⟩
    · rfl
    · have lastNumber := chain.seqInRun_getElem initial.length (by simp)
      simp only [List.concat_eq_append, List.getLast?_concat, nextAuditEvent] at lastNumber ⊢
      rw [List.getElem_concat_length rfl] at lastNumber
      rw [lastNumber, List.length_append, List.length_singleton]
      rfl
  · rw [HashLinked.linkedFrom_concat, HashLinked.tip_eq_getLast?]
    exact ⟨chain.linked, rfl⟩
  · intro event member
    rcases List.mem_append.mp member with old | new
    · exact chain.hashed event old
    · rw [List.mem_singleton.mp new]
      rfl

/-- An event of a chain that no other event follows in number is the last one, and a chain no
event opens is empty. -/
theorem RunChain.getLast?_eq {rows : List AuditEventModel} (chain : RunChain rows)
    {latest : Option AuditEventModel} (stored : ∀ event, latest = some event → event ∈ rows)
    (call : AppendCall) (draw : EventDraw)
    (unseen : ∀ event ∈ rows, event.seqInRun ≠ (nextAuditEvent latest call draw).seqInRun) :
    rows.getLast? = latest := by
  cases latest with
  | none =>
    rw [List.getLast?_eq_none_iff]
    by_contra nonempty
    have bound := List.length_pos_iff.mpr nonempty
    refine unseen _ (List.getElem_mem bound) ?_
    rw [chain.seqInRun_getElem 0 bound]
    rfl
  | some event =>
    obtain ⟨index, bound, rfl⟩ := List.getElem_of_mem (stored event rfl)
    have last : rows.length = index + 1 := by
      by_contra longer
      have next : index + 1 < rows.length := by omega
      refine unseen _ (List.getElem_mem next) ?_
      rw [chain.seqInRun_getElem (index + 1) next, nextAuditEvent,
        chain.seqInRun_getElem index bound]
      rfl
    rw [List.getLast?_eq_getElem?, last, Nat.add_sub_cancel, List.getElem?_eq_getElem bound]

theorem eventsOf_append (first second : List AuditEventModel) (workflowRunId : UUID) :
    eventsOf (first ++ second) workflowRunId =
      eventsOf first workflowRunId ++ eventsOf second workflowRunId :=
  List.filter_append _ _

theorem eventsOf_singleton_self (event : AuditEventModel) :
    eventsOf [event] event.workflowRunId = [event] :=
  List.filter_cons_of_pos (by simp)

theorem eventsOf_singleton_of_ne {event : AuditEventModel} {workflowRunId : UUID}
    (different : event.workflowRunId ≠ workflowRunId) : eventsOf [event] workflowRunId = [] :=
  List.filter_cons_of_neg (by simpa using different)

/-- The events of each run after one event was added. -/
theorem eventsOf_append_nextAuditEvent (events : List AuditEventModel) (call : AppendCall)
    (draw : EventDraw) (workflowRunId : UUID) :
    eventsOf (appendAuditEvent events call draw) workflowRunId =
      if workflowRunId = call.workflowRunId then
        eventsOf events workflowRunId ++
          [nextAuditEvent (getLatestForRun (eventsOf events workflowRunId) workflowRunId) call draw]
      else eventsOf events workflowRunId := by
  have same : eventsOf (eventsOf events workflowRunId) workflowRunId =
      eventsOf events workflowRunId := by
    unfold eventsOf
    rw [List.filter_filter]
    simp
  rw [appendAuditEvent, eventsOf_append]
  split
  · rename_i equal
    subst equal
    rw [show getLatestForRun (eventsOf events _) _ = getLatestForRun events call.workflowRunId by
      unfold getLatestForRun; rw [same]]
    exact congrArg _ (eventsOf_singleton_self _)
  · rename_i different
    rw [eventsOf_singleton_of_ne (Ne.symm different), List.append_nil]

/-- The events of every run form a chain. -/
def Chained (events : List AuditEventModel) : Prop :=
  ∀ workflowRunId, RunChain (eventsOf events workflowRunId)

theorem chained_nil : Chained [] := fun _ => runChain_nil

/-- One call on a log of chains appends to the chain of its run and leaves the others alone. -/
theorem Chained.eventsOf_appendAuditEvent {events : List AuditEventModel}
    (chained : Chained events) (call : AppendCall) (draw : EventDraw) (workflowRunId : UUID) :
    eventsOf (appendAuditEvent events call draw) workflowRunId =
      if call.workflowRunId = workflowRunId then
        eventsOf events workflowRunId ++
          [nextAuditEvent (eventsOf events workflowRunId).getLast? call draw]
      else eventsOf events workflowRunId := by
  rw [appendAuditEvent, eventsOf_append]
  split
  · rename_i same
    subst same
    rw [getLatestForRun, (chained call.workflowRunId).latest]
    exact congrArg _ (eventsOf_singleton_self _)
  · rename_i different
    rw [eventsOf_singleton_of_ne different, List.append_nil]

/-- Writing one more event keeps every run's events a chain. -/
theorem Chained.appendAuditEvent {events : List AuditEventModel} (chained : Chained events)
    (call : AppendCall) (draw : EventDraw) :
    Chained (appendAuditEvent events call draw) := by
  intro workflowRunId
  rw [chained.eventsOf_appendAuditEvent]
  split
  · exact (chained workflowRunId).extend call draw
  · exact chained workflowRunId

end InsuranceOps
