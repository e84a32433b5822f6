/-
This file models concurrent transactions that append audit events, statement
by statement: the lock on the run's row, the read of its latest event, and the
insert. A statement sees what is committed before it and the transaction's own
writes, a lock is held until the transaction ends, and an insert waits for an
uncommitted row it clashes with. In every reachable state the committed events
of every run are one gap-free chain.
-/

import InsuranceOps.Audit
import InsuranceOps.Library.ReadCommitted
import Mathlib.Logic.Relation

namespace InsuranceOps

open ReadCommitted

/-- A row of `workflow_runs` or of `audit_events`. -/
inductive StoredRow where
  | run (workflowRunId : UUID)
  | event (event : AuditEventModel)

/-- How far a transaction is in its current `append_audit_event` call. -/
inductive AppendPhase where
  | between
  | locked (call : AppendCall)
  | latest (call : AppendCall) (latest : Option AuditEventModel)

/-- The database and the transactions running on it. -/
abbrev AppendState := State StoredRow UUID AppendPhase

/-- The audit events among some rows. -/
def auditEvents (rows : List StoredRow) : List AuditEventModel :=
  rows.filterMap fun row => match row with
    | .run _ => none
    | .event event => some event

/-- The columns of the primary keys. -/
def primaryKey : StoredRow → UUID ⊕ UUID
  | .run workflowRunId => .inl workflowRunId
  | .event event => .inr event.auditEventId

/-- The columns of the run's primary key and of `uq_audit_events_run_seq`. -/
def runSeqKey : StoredRow → UUID ⊕ UUID × Int
  | .run workflowRunId => .inl workflowRunId
  | .event event => .inr (event.workflowRunId, event.seqInRun)

/-- One statement of one transaction. A `SELECT ... FOR UPDATE` waits while another transaction
holds the lock; an insert waits while another transaction has inserted a clashing row and not
ended; a refused statement leaves only the rollback. -/
inductive AppendStep : AppendState → AppendState → Prop
  | createRun {state : AppendState} (index : Nat) (workflowRunId : UUID)
      (running : (state.txn index).failed = false)
      (between : (state.txn index).memory = .between)
      (insertable : state.Insertable runSeqKey index (.run workflowRunId)) :
      AppendStep state (state.insert index (.run workflowRunId) .between)
  | lockRun {state : AppendState} (index : Nat) (call : AppendCall)
      (running : (state.txn index).failed = false)
      (between : (state.txn index).memory = .between)
      (found : .run call.workflowRunId ∈ state.visible index)
      (free : state.LockFree index call.workflowRunId) :
      AppendStep state
        (state.proceed index (call.workflowRunId :: (state.txn index).held) (.locked call))
  | lockNothing {state : AppendState} (index : Nat) (call : AppendCall)
      (running : (state.txn index).failed = false)
      (between : (state.txn index).memory = .between)
      (absent : .run call.workflowRunId ∉ state.visible index) :
      AppendStep state (state.proceed index (state.txn index).held (.locked call))
  | readLatest {state : AppendState} (index : Nat) (call : AppendCall)
      (running : (state.txn index).failed = false)
      (locked : (state.txn index).memory = .locked call) :
      AppendStep state (state.proceed index (state.txn index).held
        (.latest call (getLatestForRun (auditEvents (state.visible index)) call.workflowRunId)))
  | insertEvent {state : AppendState} (index : Nat) (call : AppendCall)
      (latest : Option AuditEventModel) (draw : EventDraw)
      (running : (state.txn index).failed = false)
      (read : (state.txn index).memory = .latest call latest)
      (references : .run call.workflowRunId ∈ state.visible index)
      (identified : state.Insertable primaryKey index
        (.event (nextAuditEvent latest call draw)))
      (numbered : state.Insertable runSeqKey index (.event (nextAuditEvent latest call draw))) :
      AppendStep state (state.insert index (.event (nextAuditEvent latest call draw)) .between)
  | refuse {state : AppendState} (index : Nat) :
      AppendStep state (state.fail index)
  | commit {state : AppendState} (index : Nat)
      (running : (state.txn index).failed = false)
      (between : (state.txn index).memory = .between) :
      AppendStep state (state.commit index .between)
  | rollback {state : AppendState} (index : Nat) :
      AppendStep state (state.rollback index .between)

/-! ### Rows and events -/

/-- The events of one run among some rows. -/
def eventsIn (rows : List StoredRow) (workflowRunId : UUID) : List AuditEventModel :=
  eventsOf (auditEvents rows) workflowRunId

theorem eventsIn_append (first second : List StoredRow) (workflowRunId : UUID) :
    eventsIn (first ++ second) workflowRunId =
      eventsIn first workflowRunId ++ eventsIn second workflowRunId := by
  rw [eventsIn, auditEvents, List.filterMap_append]
  exact eventsOf_append _ _ _

@[simp] theorem eventsIn_run (workflowRunId other : UUID) :
    eventsIn [.run other] workflowRunId = [] := rfl

theorem eventsIn_initial {first second : List StoredRow} (cut : first <+: second)
    (workflowRunId : UUID) : eventsIn first workflowRunId <+: eventsIn second workflowRunId := by
  obtain ⟨rest, rfl⟩ := cut
  rw [eventsIn_append]
  exact List.prefix_append _ _

theorem mem_eventsIn {rows : List StoredRow} {workflowRunId : UUID} {event : AuditEventModel} :
    event ∈ eventsIn rows workflowRunId ↔
      .event event ∈ rows ∧ event.workflowRunId = workflowRunId := by
  have stored : event ∈ auditEvents rows ↔ .event event ∈ rows := by
    rw [auditEvents, List.mem_filterMap]
    constructor
    · rintro ⟨row, member, read⟩
      cases row with
      | run _ => cases read
      | event _ => cases read; exact member
    · exact fun member => ⟨_, member, rfl⟩
  rw [eventsIn, eventsOf, List.mem_filter, stored, decide_eq_true_eq]

/-! ### The invariant -/

/-- What every statement preserves: rows are apart by number, what each transaction sees of a
run is a chain, and what it has read as the latest event it still sees. -/
structure Coherent (state : AppendState) : Prop where
  separate : state.Separate runSeqKey
  chained : ∀ index workflowRunId, RunChain (eventsIn (state.visible index) workflowRunId)
  remembered : ∀ index call latest, (state.txn index).memory = .latest call latest →
    ∀ event, latest = some event →
      event ∈ eventsIn (state.visible index) call.workflowRunId

theorem coherent_initial : Coherent (State.initial .between) where
  separate := State.separate_initial _ _
  chained _ _ := runChain_nil
  remembered _ _ _ memory := by cases memory

/-- A statement that inserts nothing. -/
theorem Coherent.set {state : AppendState} (coherent : Coherent state) (index : Nat)
    (txn : Txn StoredRow UUID AppendPhase) (same : txn.own = (state.txn index).own)
    (remembered : ∀ call latest, txn.memory = .latest call latest → ∀ event,
      latest = some event → event ∈ eventsIn (state.visible index) call.workflowRunId) :
    Coherent (state.set index txn) where
  separate := coherent.separate.set index txn (by rw [same])
  chained other workflowRunId := by
    rw [State.visible_set state index txn same]
    exact coherent.chained other workflowRunId
  remembered other call latest memory event isLatest := by
    rw [State.visible_set state index txn same]
    by_cases equal : other = index
    · subst equal
      rw [State.set_txn_self] at memory
      exact remembered call latest memory event isLatest
    · rw [State.set_txn_of_ne state txn equal] at memory
      exact coherent.remembered other call latest memory event isLatest

/-- An insert that keeps what its transaction sees of every run a chain. -/
theorem Coherent.insert {state : AppendState} (coherent : Coherent state) (index : Nat)
    (row : StoredRow) (insertable : state.Insertable runSeqKey index row)
    (chained : ∀ workflowRunId,
      RunChain (eventsIn (state.visible index ++ [row]) workflowRunId)) :
    Coherent (state.insert index row .between) where
  separate := coherent.separate.insert index row _ insertable
  chained other workflowRunId := by
    by_cases equal : other = index
    · rw [equal, State.visible_insert_self]
      exact chained workflowRunId
    · rw [State.visible_insert_of_ne state row _ equal]
      exact coherent.chained other workflowRunId
  remembered other call latest memory event isLatest := by
    by_cases equal : other = index
    · rw [equal, State.insert, State.set_txn_self] at memory
      cases memory
    · rw [State.visible_insert_of_ne state row _ equal]
      rw [State.insert, State.set_txn_of_ne state _ equal] at memory
      exact coherent.remembered other call latest memory event isLatest

/-- The event built behind the latest one a transaction has read still extends the chain it
sees when its number is free. -/
theorem Coherent.insertEvent {state : AppendState} (coherent : Coherent state) (index : Nat)
    (call : AppendCall) (latest : Option AuditEventModel) (draw : EventDraw)
    (read : (state.txn index).memory = .latest call latest)
    (numbered : state.Insertable runSeqKey index (.event (nextAuditEvent latest call draw))) :
    Coherent (state.insert index (.event (nextAuditEvent latest call draw)) .between) := by
  refine coherent.insert index _ numbered fun workflowRunId => ?_
  have chain := coherent.chained index workflowRunId
  rw [eventsIn_append]
  by_cases same : call.workflowRunId = workflowRunId
  · subst same
    have last : (eventsIn (state.visible index) call.workflowRunId).getLast? = latest := by
      refine chain.getLast?_eq (coherent.remembered index call latest read) call draw ?_
      intro event member equal
      obtain ⟨stored, own⟩ := mem_eventsIn.mp member
      refine numbered.unseen _ stored ?_
      rw [runSeqKey, runSeqKey, own, equal]
      rfl
    have extended := chain.extend call draw
    rw [last] at extended
    have single : eventsIn [.event (nextAuditEvent latest call draw)] call.workflowRunId =
        [nextAuditEvent latest call draw] := eventsOf_singleton_self _
    rw [single]
    exact extended
  · have none : eventsIn [.event (nextAuditEvent latest call draw)] workflowRunId = [] :=
      eventsOf_singleton_of_ne same
    rw [none, List.append_nil]
    exact chain

/-- Two transactions cannot both have written to one run. -/
theorem Coherent.exclusive {state : AppendState} (coherent : Coherent state) {first second : Nat}
    (different : first ≠ second) (workflowRunId : UUID) :
    eventsIn (state.txn first).own workflowRunId = [] ∨
      eventsIn (state.txn second).own workflowRunId = [] := by
  by_contra both
  rw [not_or] at both
  have opens (index : Nat) (written : eventsIn (state.txn index).own workflowRunId ≠ []) :
      ∃ event ∈ eventsIn (state.txn index).own workflowRunId,
        event.seqInRun = (eventsIn state.committed workflowRunId).length + 1 := by
    obtain ⟨event, rest, shape⟩ := List.exists_cons_of_ne_nil written
    refine ⟨event, by rw [shape]; exact List.mem_cons_self, ?_⟩
    have chain := coherent.chained index workflowRunId
    rw [State.visible, eventsIn_append, shape] at chain
    have number := chain.seqInRun_getElem (eventsIn state.committed workflowRunId).length
      (by simp)
    rw [List.getElem_append_right le_rfl] at number
    simpa using number
  obtain ⟨event, member, number⟩ := opens first both.1
  obtain ⟨other, otherMember, otherNumber⟩ := opens second both.2
  obtain ⟨stored, own⟩ := mem_eventsIn.mp member
  obtain ⟨otherStored, otherOwn⟩ := mem_eventsIn.mp otherMember
  refine coherent.separate.apart first second different _ stored _ otherStored ?_
  rw [runSeqKey, runSeqKey, own, otherOwn, number, otherNumber]

theorem Coherent.commit {state : AppendState} (coherent : Coherent state) (index : Nat) :
    Coherent (state.commit index .between) := by
  have seen {other : Nat} (different : other ≠ index) (workflowRunId : UUID) :
      eventsIn ((state.commit index .between).visible other) workflowRunId =
        eventsIn state.committed workflowRunId ++
          (eventsIn (state.txn index).own workflowRunId ++
            eventsIn (state.txn other).own workflowRunId) := by
    rw [State.visible_commit_of_ne state _ different, eventsIn_append, State.visible,
      eventsIn_append, List.append_assoc]
  refine ⟨coherent.separate.commit index _, fun other workflowRunId => ?_,
    fun other call latest memory event isLatest => ?_⟩
  · by_cases equal : other = index
    · rw [equal, State.visible_commit_self]
      exact coherent.chained index workflowRunId
    · rw [seen equal]
      rcases coherent.exclusive (Ne.symm equal) workflowRunId with mine | others
      · rw [mine, List.nil_append, ← eventsIn_append]
        exact coherent.chained other workflowRunId
      · rw [others, List.append_nil, ← eventsIn_append]
        exact coherent.chained index workflowRunId
  · by_cases equal : other = index
    · rw [equal, State.commit_txn_self] at memory
      cases memory
    · rw [State.commit_txn_of_ne state _ equal] at memory
      have known := coherent.remembered other call latest memory event isLatest
      rw [State.visible, eventsIn_append] at known
      rw [seen equal]
      rcases List.mem_append.mp known with committed | own
      · exact List.mem_append_left _ committed
      · exact List.mem_append_right _ (List.mem_append_right _ own)

theorem Coherent.rollback {state : AppendState} (coherent : Coherent state) (index : Nat) :
    Coherent (state.rollback index .between) where
  separate := coherent.separate.rollback index _
  chained other workflowRunId := by
    by_cases equal : other = index
    · rw [equal, State.visible_rollback_self]
      exact (coherent.chained index workflowRunId).initial
        (eventsIn_initial (List.prefix_append _ _) workflowRunId)
    · rw [State.rollback, State.visible_set_of_ne state _ equal]
      exact coherent.chained other workflowRunId
  remembered other call latest memory event isLatest := by
    by_cases equal : other = index
    · rw [equal, State.rollback, State.set_txn_self] at memory
      cases memory
    · rw [State.rollback, State.set_txn_of_ne state _ equal] at memory
      rw [State.rollback, State.visible_set_of_ne state _ equal]
      exact coherent.remembered other call latest memory event isLatest

/-- Every statement of every transaction preserves the invariant. -/
theorem AppendStep.coherent {state next : AppendState} (step : AppendStep state next)
    (coherent : Coherent state) : Coherent next := by
  cases step with
  | createRun index workflowRunId _ _ insertable =>
    refine coherent.insert index _ insertable fun other => ?_
    rw [eventsIn_append, eventsIn_run, List.append_nil]
    exact coherent.chained index other
  | lockRun index call =>
    exact coherent.set index _ rfl fun _ _ memory => by cases memory
  | lockNothing index call =>
    exact coherent.set index _ rfl fun _ _ memory => by cases memory
  | readLatest index call =>
    refine coherent.set index _ rfl fun other latest memory event isLatest => ?_
    cases memory
    have listed := List.mem_of_head? isLatest
    exact (List.mem_insertionSort _).mp listed
  | insertEvent index call latest draw _ read _ _ numbered =>
    exact coherent.insertEvent index call latest draw read numbered
  | refuse index => exact coherent.set index _ rfl (coherent.remembered index)
  | commit index => exact coherent.commit index
  | rollback index => exact coherent.rollback index

theorem coherent_reachable {state : AppendState}
    (reached : Relation.ReflTransGen AppendStep (State.initial .between) state) :
    Coherent state := by
  induction reached with
  | refl => exact coherent_initial
  | tail _ step inductionHypothesis => exact step.coherent inductionHypothesis

/-- In every reachable state the committed events of every run are one gap-free hash chain. The lock
on the run's row lets one appender at a time read the latest event and commit, so the event it links
to is still the latest. -/
theorem committed_runChain (state : AppendState)
    (reached : Relation.ReflTransGen AppendStep (State.initial .between) state)
    (workflowRunId : UUID) : RunChain (eventsIn state.committed workflowRunId) :=
  ((coherent_reachable reached).chained 0 workflowRunId).initial
    (eventsIn_initial (List.prefix_append _ _) workflowRunId)

/-! ### Two transactions on one run -/

/-- The event that opens a run. -/
def startedCall : AppendCall :=
  ⟨1, "workflow_run.started", "api_key:operator:1", [], none, none⟩

/-- The event that cancels it. -/
def cancelledCall : AppendCall :=
  ⟨1, "workflow_run.cancelled", "api_key:supervisor:2", [], none, none⟩

def firstEvent : AuditEventModel := nextAuditEvent none startedCall ⟨2, 5⟩

def secondEvent : AuditEventModel := nextAuditEvent (some firstEvent) cancelledCall ⟨3, 4⟩

/-- A transaction has created a run and committed, and another one has locked it to append an
event. A third one has created a run of its own and waits for the lock. -/
def secondWaits : AppendState :=
  ((((State.initial .between).insert 0 (.run 1) .between).commit 0 .between).proceed 1 [1]
    (.locked startedCall)).insert 2 (.run 2) .between

/-- The one that holds the lock has appended its event and committed. -/
def firstAppended : AppendState :=
  ((secondWaits.proceed 1 [1] (.latest startedCall none)).insert 1 (.event firstEvent)
    .between).commit 1 .between

/-- The one that waited has appended an event behind it and committed. -/
def secondAppended : AppendState :=
  (((firstAppended.proceed 2 [1] (.locked cancelledCall)).proceed 2 [1]
    (.latest cancelledCall (some firstEvent))).insert 2 (.event secondEvent) .between).commit 2
      .between

theorem secondWaits_reached :
    Relation.ReflTransGen AppendStep (State.initial .between) secondWaits := by
  have initially : State.Alone .between (State.initial .between : AppendState) 0 :=
    State.alone_initial _ _
  refine .tail (.tail (.tail (.tail .refl
    (.createRun 0 1 rfl rfl (initially.insertable _ _ fun _ stored => ?_))) (.commit 0 rfl rfl))
    (.lockRun 1 startedCall rfl rfl List.mem_cons_self fun other different => ?_))
    (.createRun 2 2 rfl rfl ⟨fun stored member => ?_, fun other different stored member => ?_⟩)
  · exact absurd stored List.not_mem_nil
  · rcases other with _ | _ | other
    · exact List.not_mem_nil
    · exact absurd rfl different
    · exact List.not_mem_nil
  · rw [List.mem_singleton.mp member]
    decide
  · rcases other with _ | _ | other
    · exact absurd member List.not_mem_nil
    · exact absurd member List.not_mem_nil
    · exact absurd member List.not_mem_nil

theorem firstAppended_reached : Relation.ReflTransGen AppendStep secondWaits firstAppended := by
  have apart : ∀ other, other ≠ 1 → ∀ stored ∈ (secondWaits.txn other).own,
      stored = .run 2 := by
    intro other different stored member
    rcases other with _ | _ | _ | other
    · exact absurd member List.not_mem_nil
    · exact absurd rfl different
    · exact List.mem_singleton.mp member
    · exact absurd member List.not_mem_nil
  refine .tail (.tail (.tail .refl (.readLatest 1 startedCall rfl rfl))
    (.insertEvent 1 startedCall none ⟨2, 5⟩ rfl rfl List.mem_cons_self
      ⟨fun stored member => ?_, fun other different stored member => ?_⟩
      ⟨fun stored member => ?_, fun other different stored member => ?_⟩)) (.commit 1 rfl rfl)
  · rw [List.mem_singleton.mp member]
    exact Sum.inl_ne_inr
  · rw [State.proceed, State.set_txn_of_ne _ _ different] at member
    rw [apart other different stored member]
    exact Sum.inl_ne_inr
  · rw [List.mem_singleton.mp member]
    exact Sum.inl_ne_inr
  · rw [State.proceed, State.set_txn_of_ne _ _ different] at member
    rw [apart other different stored member]
    exact Sum.inl_ne_inr

theorem secondAppended_reached :
    Relation.ReflTransGen AppendStep firstAppended secondAppended := by
  have idle : ∀ other, other ≠ 2 → (firstAppended.txn other).own = [] ∧
      (firstAppended.txn other).held = [] := by
    intro other different
    rcases other with _ | _ | _ | other
    · exact ⟨rfl, rfl⟩
    · exact ⟨rfl, rfl⟩
    · exact absurd rfl different
    · exact ⟨rfl, rfl⟩
  have stored (row : StoredRow)
      (member : row ∈ [StoredRow.run 1, .event firstEvent, .run 2]) :
      primaryKey row ≠ primaryKey (.event secondEvent) ∧
        runSeqKey row ≠ runSeqKey (.event secondEvent) := by
    simp only [List.mem_cons, List.not_mem_nil, or_false] at member
    rcases member with rfl | rfl | rfl
    · exact ⟨Sum.inl_ne_inr, Sum.inl_ne_inr⟩
    · refine ⟨fun same => ?_, fun same => ?_⟩
      · cases Sum.inr.inj same
      · exact absurd (congrArg Prod.snd (Sum.inr.inj same)) (by decide)
    · exact ⟨Sum.inl_ne_inr, Sum.inl_ne_inr⟩
  refine .tail (.tail (.tail (.tail .refl
    (.lockRun 2 cancelledCall rfl rfl List.mem_cons_self fun other different => ?_))
    (.readLatest 2 cancelledCall rfl rfl))
    (.insertEvent 2 cancelledCall (some firstEvent) ⟨3, 4⟩ rfl rfl List.mem_cons_self
      ⟨fun row member => ?_, fun other different row member => ?_⟩
      ⟨fun row member => ?_, fun other different row member => ?_⟩)) (.commit 2 rfl rfl)
  · rw [(idle other different).2]
    exact List.not_mem_nil
  · exact (stored row member).1
  · rw [State.proceed, State.set_txn_of_ne _ _ different, State.proceed,
      State.set_txn_of_ne _ _ different, (idle other different).1] at member
    exact absurd member List.not_mem_nil
  · exact (stored row member).2
  · rw [State.proceed, State.set_txn_of_ne _ _ different, State.proceed,
      State.set_txn_of_ne _ _ different, (idle other different).1] at member
    exact absurd member List.not_mem_nil

/-- The second transaction could not lock the run while the first one held it, and both their
events are committed as one chain. -/
theorem committed_runChain_second :
    ¬secondWaits.LockFree 2 1 ∧
      (eventsIn secondAppended.committed 1).map (fun event => event.eventType) =
        ["workflow_run.started", "workflow_run.cancelled"] ∧
      RunChain (eventsIn secondAppended.committed 1) := by
  refine ⟨fun free => ?_, rfl, committed_runChain secondAppended
    ((secondWaits_reached.trans firstAppended_reached).trans secondAppended_reached) 1⟩
  exact free 1 (by decide) List.mem_cons_self

end InsuranceOps
