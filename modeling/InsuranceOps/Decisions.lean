/-
This file proves that a claimed case gets one decision. The requests that pass
the checks of a decision are the claimant's, so they hold one API key and run
one after the other: the first one to commit leaves a case that is decided, and
the checks refuse the others. Until then a request sees the rows as they were,
with its own writes on top, and that is what its commit leaves.
-/

import InsuranceOps.Claimants

namespace InsuranceOps

open RowLocks Transition

/-! ### What a decision leaves -/

namespace Making

variable (making : Making)

/-- The decided case. -/
def decided (actor : String) : EscalationCaseModel :=
  making.esc.decide making.decision.state actor making.decision.payload making.now

/-- The run behind the decision. -/
def leaves (run : WorkflowRunModel) : WorkflowRunModel :=
  if making.decision.takes run.state then making.decision.writeRun run making.now run else run

end Making

/-- The cases and runs before any of the decisions on a case. -/
structure Undecided where
  escalationId : UUID
  esc : EscalationCaseModel
  cases : UUID → Option EscalationCaseModel
  runs : UUID → Option AuditedRun
  stored : cases escalationId = some esc
  claimed : esc.state = .claimed

namespace Undecided

variable (before : Undecided)

/-- The decision of the claimant, on the case as it was. -/
structure Makes (served : Served) (making : Making) (decision : Decision) : Prop where
  about : making.escalationId = before.escalationId
  esc : making.esc = before.esc
  decision : making.decision = decision
  claimant : before.esc.claimedBy = some served.actor

/-- The cases with the decided one. -/
def casesWith (served : Served) (making : Making) : UUID → Option EscalationCaseModel :=
  Function.update before.cases before.escalationId (some (making.decided served.actor))

/-- The runs behind the decision, without its event. -/
def runsWith (making : Making) : UUID → Option AuditedRun :=
  Function.update before.runs before.esc.workflowRunId
    ((before.runs before.esc.workflowRunId).map fun row =>
      { row with run := making.leaves row.run })

/-- What a request sees of the cases and the runs in each phase. -/
def Sees (decision : Decision) (cases : UUID → Option EscalationCaseModel)
    (runs : UUID → Option AuditedRun) : RequestPhase → Prop
  | .received _ request | .keyRead _ request | .authenticated _ request =>
    request = .decide before.escalationId decision ∧ cases = before.cases ∧ runs = before.runs
  | .caseLoaded served making =>
    before.Makes served making decision ∧ cases = before.cases ∧ runs = before.runs
  | .caseFlushed served making | .attemptFlushed served making =>
    before.Makes served making decision ∧ cases = before.casesWith served making ∧
      runs = before.runs
  | .runLoaded served making run =>
    before.Makes served making decision ∧ cases = before.casesWith served making ∧
      runs = before.runs ∧ ∃ row, before.runs before.esc.workflowRunId = some row ∧
        row.run = run ∧ making.decision.takes run.state = true
  | .changed served request call | .runLocked served request call
  | .latestRead served request call _ =>
    ∃ making, before.Makes served making decision ∧ request = making.request ∧
      call = making.call served.actor ∧ cases = before.casesWith served making ∧
      runs = before.runsWith making
  | .appended served request =>
    ∃ making row latest draw, before.Makes served making decision ∧ request = making.request ∧
      before.runs before.esc.workflowRunId = some row ∧
      cases = before.casesWith served making ∧
      runs = Function.update before.runs before.esc.workflowRunId (some
        { run := making.leaves row.run
          events := row.events ++ [nextAuditEvent latest (making.call served.actor) draw] })
  | .answered statusCode => statusCode ≠ 200 ∧ cases = before.cases ∧ runs = before.runs
  | .unmatched _ | .claimed _ _ | .cancelLoaded _ _ _ _ => False

/-- As long as no decision has committed, the rows are as they were, and every request sees them
with its own writes on top. -/
structure Pending (decisions : Nat → Decision) (state : RequestState) : Prop where
  guarded : CasesGuarded state
  cases : ∀ id, (state.cases id).committed = before.cases id
  runs : ∀ id, (state.runs id).committed = before.runs id
  sees : ∀ index, before.Sees (decisions index) (fun id => (state.cases id).visible index)
    (fun id => (state.runs id).visible index) (state.phase index)

theorem Making.call_workflowRunId (making : Making) (actor : String) :
    (making.call actor).workflowRunId = making.esc.workflowRunId := by
  obtain ⟨escalationId, decision, esc, now, stepAttemptId⟩ := making
  cases decision <;> rfl

section Steps

variable {before} {state next : RequestState} {index : Nat} {decision : Decision}

theorem sees_of {phase : RequestPhase} {cases : UUID → Option EscalationCaseModel}
    {runs : UUID → Option AuditedRun} (moved : next.phase index = phase)
    (seenCases : (fun id => (next.cases id).visible index) = cases)
    (seenRuns : (fun id => (next.runs id).visible index) = runs)
    (sees : before.Sees decision cases runs phase) :
    before.Sees decision (fun id => (next.cases id).visible index)
      (fun id => (next.runs id).visible index) (next.phase index) := by
  rw [moved, seenCases, seenRuns]
  exact sees

/-- A run the decision leaves alone stays as it is behind the decision. -/
theorem runsWith_of_leaves {served : Served} {making : Making}
    (makes : before.Makes served making decision)
    (leaves : ∀ row, before.runs making.esc.workflowRunId = some row →
      making.decision.takes row.run.state = false) :
    before.runsWith making = before.runs := by
  rw [makes.esc] at leaves
  refine Function.update_eq_self_iff.mpr ?_
  cases stored : before.runs before.esc.workflowRunId with
  | none => rfl
  | some row =>
    rw [Option.map_some, Making.leaves, if_neg (Bool.eq_false_iff.mp (leaves row stored))]

/-- The flush of a run leaves what the decision makes of it. -/
theorem runsWith_of_takes {served : Served} {making : Making} {row : AuditedRun}
    (makes : before.Makes served making decision)
    (stored : before.runs making.esc.workflowRunId = some row)
    (takes : making.decision.takes row.run.state = true) :
    Function.update before.runs making.esc.workflowRunId
      (some { row with run := making.decision.writeRun row.run making.now row.run }) =
      before.runsWith making := by
  rw [makes.esc] at stored ⊢
  rw [runsWith, stored, Option.map_some, Making.leaves, if_pos takes]

/-- An action that does not commit keeps what its request sees. -/
theorem sees_step (step : RequestStep state index next)
    (uncommitted : ¬((∃ served request, state.phase index = .appended served request) ∧
      next = state.commit index))
    (cases : ∀ id, (state.cases id).committed = before.cases id)
    (runs : ∀ id, (state.runs id).committed = before.runs id)
    (sees : before.Sees decision (fun id => (state.cases id).visible index)
      (fun id => (state.runs id).visible index) (state.phase index)) :
    before.Sees decision (fun id => (next.cases id).visible index)
      (fun id => (next.runs id).visible index) (next.phase index) := by
  have self (phase : RequestPhase) : Function.update state.phase index phase index = phase :=
    Function.update_self ..
  cases step with
  | waits => exact sees
  | commits phase => exact absurd ⟨⟨_, _, phase⟩, rfl⟩ uncommitted
  | refuses error =>
    refine sees_of (self _) rfl rfl ⟨error, ?_, ?_⟩
    · exact funext fun id => (Cell.visible_rollback index _).trans (cases id)
    · exact funext fun id => (Cell.visible_rollback index _).trans (runs id)
  | readsKey phase | touchesKey phase | insertsAttempt phase | insertsNothing phase
  | readsLatest phase =>
    rw [phase] at sees
    exact sees_of (self _) rfl rfl sees
  | misses phase | claims phase | loadsCancelled phase =>
    rw [phase] at sees
    cases sees.1
  | readsClaimed phase | cancels phase =>
    rw [phase] at sees
    exact sees.elim
  | @loadsCase served making phase admitted seen claimed held =>
    rw [phase] at sees
    obtain ⟨made, seenCases, seenRuns⟩ := sees
    obtain ⟨about, decided⟩ := CaseRequest.decide.inj made
    have stored : before.cases making.escalationId = some making.esc :=
      (congrFun seenCases _).symm.trans seen
    rw [about, before.stored] at stored
    have same := (Option.some.inj stored).symm
    exact sees_of (self _) rfl rfl
      ⟨⟨about, same, decided, same ▸ held⟩, seenCases, seenRuns⟩
  | @flushesCase served making row phase seen isFree =>
    rw [phase] at sees
    obtain ⟨makes, seenCases, seenRuns⟩ := sees
    have stored := (congrFun seenCases _).symm.trans seen
    rw [makes.about, before.stored, ← makes.esc] at stored
    cases stored
    refine sees_of (self _) ?_ rfl ⟨makes, rfl, seenRuns⟩
    refine (Cell.visible_update_write _ _ _ _).trans ?_
    rw [seenCases, makes.about]
    rfl
  | @loadsRun served making row phase seen takes =>
    rw [phase] at sees
    obtain ⟨makes, seenCases, seenRuns⟩ := sees
    have stored := (congrFun seenRuns _).symm.trans seen
    rw [makes.esc] at stored
    exact sees_of (self _) rfl rfl ⟨makes, seenCases, seenRuns, row, stored, rfl, takes⟩
  | @leavesRun served making phase leaves =>
    rw [phase] at sees
    obtain ⟨makes, seenCases, seenRuns⟩ := sees
    refine sees_of (self _) rfl rfl ⟨making, makes, rfl, rfl, seenCases, seenRuns.trans ?_⟩
    refine (runsWith_of_leaves makes fun row stored => ?_).symm
    exact leaves row ((congrFun seenRuns _).trans stored)
  | @flushesRun served making run row phase seen isFree =>
    rw [phase] at sees
    obtain ⟨makes, seenCases, seenRuns, found, foundStored, rfl, takes⟩ := sees
    have stored := (congrFun seenRuns _).symm.trans seen
    have same := stored
    rw [makes.esc, foundStored] at same
    cases same
    refine sees_of (self _) rfl ?_ ⟨making, makes, rfl, rfl, seenCases, rfl⟩
    refine (Cell.visible_update_write _ _ _ _).trans ?_
    rw [seenRuns, runsWith_of_takes makes stored takes]
  | @locksRun served request call row phase seen isFree =>
    rw [phase] at sees
    obtain ⟨making, makes, made, called, seenCases, seenRuns⟩ := sees
    refine sees_of (self _) rfl ?_ ⟨making, makes, made, called, seenCases, seenRuns⟩
    refine (Cell.visible_update_write _ _ _ _).trans (Function.update_eq_self_iff.mpr ?_)
    exact seen.symm
  | @appends served request call latest row draw phase seen isFree =>
    rw [phase] at sees
    obtain ⟨making, makes, made, rfl, seenCases, seenRuns⟩ := sees
    have place := (Making.call_workflowRunId making served.actor).trans
      (congrArg EscalationCaseModel.workflowRunId makes.esc)
    have stored := (congrFun seenRuns _).symm.trans seen
    rw [place, runsWith, Function.update_self, Option.map_eq_some_iff] at stored
    obtain ⟨found, foundStored, rfl⟩ := stored
    refine sees_of (self _) rfl ?_
      ⟨making, found, latest, draw, makes, made, foundStored, seenCases, rfl⟩
    refine (Cell.visible_update_write _ _ _ _).trans ?_
    rw [seenRuns, place, runsWith, Function.update_idem]

/-- The request has not come to the checks of its decision, or it was refused. -/
def Waits (before : Undecided) : RequestPhase → Prop
  | .received _ request | .keyRead _ request | .authenticated _ request =>
    ∃ decision, request = .decide before.escalationId decision
  | .answered statusCode => statusCode ≠ 200
  | _ => False

/-- While one request has written the case, no other one is past its checks. -/
theorem Pending.waits {decisions : Nat → Decision} (pending : before.Pending decisions state)
    {version : Option EscalationCaseModel} {other : Nat}
    (held : (state.cases before.escalationId).lock = some (index, version))
    (different : other ≠ index) : before.Waits (state.phase other) := by
  have writes (served : Served) (request : CaseRequest) (writer :
      (state.phase other).writer = some (served, request, before.escalationId)) : False := by
    obtain ⟨-, row, moved, -, own, -⟩ := (pending.guarded other).written _ _ _ writer
    cases own.symm.trans held
    exact different rfl
  have sees := pending.sees other
  cases phase : state.phase other with
  | received apiKeyId request | keyRead served request | authenticated served request =>
    rw [phase] at sees
    exact ⟨_, sees.1⟩
  | answered statusCode =>
    rw [phase] at sees
    exact sees.1
  | unmatched | claimed | cancelLoaded =>
    rw [phase] at sees
    exact sees.elim
  | caseLoaded served making =>
    rw [phase] at sees
    rw [← sees.1.about] at held
    exact absurd (pending.guarded.holder_eq (by rw [phase]; rfl) held) different
  | caseFlushed served making | attemptFlushed served making | runLoaded served making run =>
    rw [phase] at sees
    exact (writes served making.request (by rw [phase, ← sees.1.about]; rfl)).elim
  | changed served request call | runLocked served request call
  | latestRead served request call latest =>
    rw [phase] at sees
    obtain ⟨making, makes, rfl, -⟩ := sees
    exact (writes served making.request (by rw [phase, ← makes.about]; rfl)).elim
  | appended served request =>
    rw [phase] at sees
    obtain ⟨making, row, latest, draw, makes, rfl, -⟩ := sees
    exact (writes served making.request (by rw [phase, ← makes.about]; rfl)).elim

/-- One decision has committed: the case and the run are as it leaves them, its event is the only
new one, and no other request has succeeded. -/
structure DecidedBy (before : Undecided) (decision : Decision) (index : Nat)
    (state : RequestState) : Prop where
  answered : state.phase index = .answered 200
  only : ∀ other, state.phase other = .answered 200 → other = index
  left : ∃ served making row latest draw, before.Makes served making decision ∧
    before.runs before.esc.workflowRunId = some row ∧
    (∀ id, (state.cases id).committed = before.casesWith served making id) ∧
    ∀ id, (state.runs id).committed = Function.update before.runs before.esc.workflowRunId (some
      { run := making.leaves row.run
        events := row.events ++ [nextAuditEvent latest (making.call served.actor) draw] }) id

/-- The state behind the decision: no other request is past its checks. -/
structure Done (before : Undecided) (decision : Decision) (index : Nat)
    (state : RequestState) : Prop where
  guarded : CasesGuarded state
  decided : before.DecidedBy decision index state
  waits : ∀ other, other ≠ index → before.Waits (state.phase other)

/-- The first decision to commit is the one that counts. -/
theorem Pending.commit {decisions : Nat → Decision} (pending : before.Pending decisions state)
    {served : Served} {request : CaseRequest}
    (phase : state.phase index = .appended served request)
    (guarded : CasesGuarded (state.commit index)) :
    before.Done (decisions index) index (state.commit index) := by
  have sees := pending.sees index
  rw [phase] at sees
  obtain ⟨making, row, latest, draw, makes, rfl, stored, seenCases, seenRuns⟩ := sees
  obtain ⟨-, old, moved, -, held, -⟩ := (pending.guarded index).written served making.request
    before.escalationId (by rw [phase, ← makes.about]; rfl)
  have others (other : Nat) (different : other ≠ index) :
      before.Waits ((state.commit index).phase other) := by
    rw [show (state.commit index).phase other = state.phase other from
      Function.update_of_ne different _ _]
    exact pending.waits held different
  refine ⟨guarded, ⟨Function.update_self .., fun other answered => ?_, ?_⟩, others⟩
  · by_contra different
    have waits := others other different
    rw [answered] at waits
    exact waits rfl
  · refine ⟨served, making, row, latest, draw, makes, stored, fun id => ?_, fun id => ?_⟩
    · exact (Cell.committed_commit index _).trans (congrFun seenCases id)
    · exact (Cell.committed_commit index _).trans (congrFun seenRuns id)

theorem waits_of {phase : RequestPhase} (moved : next.phase index = phase)
    (waits : before.Waits phase) : before.Waits (next.phase index) := by
  rw [moved]
  exact waits

/-- A request that comes to its checks behind the decision is refused. -/
theorem Done.waits_step {other : Nat} (done : before.Done decision index state)
    (step : RequestStep state other next) (waits : before.Waits (state.phase other)) :
    SameRows state next ∧ before.Waits (next.phase other) := by
  have self (phase : RequestPhase) : Function.update state.phase other phase other = phase :=
    Function.update_self ..
  refine ⟨step.sameRows_or.resolve_right ?_, ?_⟩
  · rintro ⟨⟨_, _, phase⟩, -⟩
    rw [phase] at waits
    exact waits
  cases step with
  | waits => exact waits
  | refuses error => exact waits_of (self _) error
  | readsKey phase | touchesKey phase =>
    rw [phase] at waits
    exact waits_of (self _) waits
  | misses phase | claims phase | loadsCancelled phase =>
    rw [phase] at waits
    obtain ⟨_, impossible⟩ := waits
    cases impossible
  | @loadsCase served making phase admitted seen claimed held =>
    rw [phase] at waits
    obtain ⟨_, made⟩ := waits
    obtain ⟨decider, other, row, latest, draw, makes, -, cases, -⟩ := done.decided.left
    rw [(done.guarded _).committed_of_unwritten (by rw [phase]; rfl), cases,
      (CaseRequest.decide.inj made).1, casesWith, Function.update_self] at seen
    rw [← Option.some.inj seen, Making.decided] at claimed
    obtain ⟨escalationId, decision, esc, now, stepAttemptId⟩ := other
    cases decision <;> cases claimed
  | readsClaimed phase | flushesCase phase | insertsAttempt phase | insertsNothing phase
  | loadsRun phase | leavesRun phase | flushesRun phase | cancels phase | locksRun phase
  | readsLatest phase | appends phase | commits phase =>
    rw [phase] at waits
    exact waits.elim

theorem Done.step (done : before.Done decision index state) (label : Nat × RequestAction) :
    before.Done decision index (state.step label) := by
  by_cases own : label.1 = index
  · rw [RequestState.step_answered (own ▸ done.decided.answered)]
    exact done
  · have action := state.step_cases label
    obtain ⟨same, moved⟩ := done.waits_step action (done.waits _ own)
    have waits (other : Nat) (different : other ≠ index) :
        before.Waits ((state.step label).phase other) := by
      by_cases mover : other = label.1
      · rw [mover]
        exact moved
      · rw [action.frame.phase other mover]
        exact done.waits other different
    refine ⟨done.guarded.step label, ⟨RequestState.phase_answered done.decided.answered, ?_, ?_⟩,
      waits⟩
    · intro other answered
      by_contra different
      have refused := waits other different
      rw [answered] at refused
      exact refused rfl
    · obtain ⟨served, making, row, latest, draw, makes, stored, cases, runs⟩ := done.decided.left
      exact ⟨served, making, row, latest, draw, makes, stored,
        fun id => (same.cases id).trans (cases id), fun id => (same.runs id).trans (runs id)⟩

/-- An action keeps the rows as they were, or it is the commit of the first decision. -/
theorem Pending.step {decisions : Nat → Decision} (pending : before.Pending decisions state)
    (label : Nat × RequestAction) :
    before.Pending decisions (state.step label) ∨
      before.Done (decisions label.1) label.1 (state.step label) := by
  have action := state.step_cases label
  have guarded := pending.guarded.step label
  by_cases commits : (∃ served request, state.phase label.1 = .appended served request) ∧
      state.step label = state.commit label.1
  · obtain ⟨⟨served, request, phase⟩, next⟩ := commits
    rw [next] at guarded ⊢
    exact .inr (pending.commit phase guarded)
  · have same := action.sameRows_or.resolve_right commits
    refine .inl ⟨guarded, fun id => (same.cases id).trans (pending.cases id),
      fun id => (same.runs id).trans (pending.runs id), fun other => ?_⟩
    by_cases mover : other = label.1
    · subst mover
      exact sees_step action commits pending.cases pending.runs (pending.sees _)
    · refine sees_of (action.frame.phase other mover) ?_ ?_ (pending.sees other)
      · exact funext fun id =>
          (action.frame.cases id).visible_of_committed mover (same.cases id)
      · exact funext fun id => (action.frame.runs id).visible_of_committed mover (same.runs id)

end Steps

/-- Nothing is decided: the cases and runs are as they were, and no request has succeeded. -/
structure Open (before : Undecided) (state : RequestState) : Prop where
  unanswered : ∀ index, state.phase index ≠ .answered 200
  cases : ∀ id, (state.cases id).committed = before.cases id
  runs : ∀ id, (state.runs id).committed = before.runs id

theorem Pending.isOpen {decisions : Nat → Decision} {state : RequestState}
    (pending : before.Pending decisions state) : before.Open state := by
  refine ⟨fun index answered => ?_, pending.cases, pending.runs⟩
  have sees := pending.sees index
  rw [answered] at sees
  exact sees.1 rfl

/-- Requests to decide the case, each with its key, before their first statements. -/
def initial (apiKeys : UUID → Option ApiKeyModel) (humanAttempts : UUID → Option StepAttemptModel)
    (requests : Nat → UUID × Decision) : RequestState :=
  .initial apiKeys before.cases humanAttempts before.runs fun index =>
    ((requests index).1, .decide before.escalationId (requests index).2)

end Undecided

/-- However requests to resolve and to reject a claimed case interleave, one of them commits at
most, and then it alone has left its mark on the case, the run and the audit log. The first commit
leaves a decided case, which the checks of the others refuse: they present the same key and wait for
its row. -/
theorem one_decision (before : Undecided) (apiKeys : UUID → Option ApiKeyModel)
    (humanAttempts : UUID → Option StepAttemptModel) (requests : Nat → UUID × Decision)
    (labels : List (Nat × RequestAction)) :
    before.Open (run RequestState.step (before.initial apiKeys humanAttempts requests) labels) ∨
      ∃ index, before.DecidedBy (requests index).2 index
        (run RequestState.step (before.initial apiKeys humanAttempts requests) labels) := by
  have kept := run_invariant_always RequestState.step
    (fun state => before.Pending (fun index => (requests index).2) state ∨
      ∃ index, before.Done (requests index).2 index state)
    (fun state label reached => reached.elim
      (fun pending => (pending.step label).imp_right fun done => ⟨_, done⟩)
      fun done => .inr (done.imp fun _ done => done.step label))
    (before.initial apiKeys humanAttempts requests)
    (.inl ⟨casesGuarded_initial _ _ _ _ _, fun _ => rfl, fun _ => rfl,
      fun _ => ⟨rfl, rfl, rfl⟩⟩) labels
  exact kept.imp (fun pending => pending.isOpen) fun ⟨index, done⟩ => ⟨index, done.decided⟩

/-- The case when the operator with the key 1 has claimed it. -/
def heldCase : EscalationCaseModel :=
  openCase.claim (Served.actor ⟨1, { role := "operator", label := "o" }⟩) 1

/-- The claimed case of the waiting run. -/
def undecidedCase : Undecided where
  escalationId := 5
  esc := heldCase
  cases id := if id = 5 then some heldCase else none
  runs id := if id = 9 then some ⟨waitingRun, []⟩ else none
  stored := rfl
  claimed := rfl

/-- The claimant resolves the case and rejects it at the same time. -/
def bothDecisions : RequestState :=
  undecidedCase.initial apiKeyRows (fun _ => none) fun index =>
    (1, if index = 0 then .resolve { notes := "ok" }
      else .reject { reasonCode := "FRAUD", notes := "no" })

/-- The rejection waits for the key while the resolution runs, and then finds the case resolved. -/
def decisionOverlap : List (Nat × RequestAction) :=
  statements 3 0 ++ statements 3 1 ++ statements 8 0 ++ statements 3 1

/-- Of two overlapping decisions of the claimant one commits. -/
theorem one_decision_overlap :
    (undecidedCase.Open (run RequestState.step bothDecisions decisionOverlap) ∨
      ∃ index, undecidedCase.DecidedBy (if index = 0 then .resolve { notes := "ok" }
          else .reject { reasonCode := "FRAUD", notes := "no" }) index
        (run RequestState.step bothDecisions decisionOverlap)) ∧
      (run RequestState.step bothDecisions decisionOverlap).caseIn 5 [.resolved] = true :=
  ⟨one_decision undecidedCase apiKeyRows (fun _ => none) (fun index => (1,
      if index = 0 then .resolve { notes := "ok" }
      else .reject { reasonCode := "FRAUD", notes := "no" })) decisionOverlap,
    by decide +kernel⟩

end InsuranceOps
