/-
This file proves that a case has at most one claimant. A claim is an update
that selects the case while it is open, so a second one finds it claimed. Only
the claimant passes the checks of a decision, and the claimant's requests all
present one API key, whose row each of them holds from its authentication to
its end. So between the checks of a decision and its commit no other request
changes the case.
-/

import InsuranceOps.Requests

namespace InsuranceOps

open RowLocks

/-! ### What a request holds -/

namespace RequestPhase

/-- The key whose row the request's transaction holds. -/
def keyHolder : RequestPhase → Option Served
  | .authenticated served _ | .claimed served _ | .caseLoaded served _ | .caseFlushed served _
  | .attemptFlushed served _ | .runLoaded served _ _ | .cancelLoaded served _ _ _
  | .changed served _ _ | .runLocked served _ _ | .latestRead served _ _ _
  | .appended served _ => some served
  | .received _ _ | .keyRead _ _ | .unmatched _ | .answered _ => none

/-- The decision whose checks have passed and whose event is not called for yet. -/
def deciding : RequestPhase → Option (Served × Making)
  | .caseLoaded served making | .caseFlushed served making | .attemptFlushed served making
  | .runLoaded served making _ => some (served, making)
  | _ => none

/-- The request that has written a case, and the case. -/
def writer : RequestPhase → Option (Served × CaseRequest × UUID)
  | .claimed served escalationId => some (served, .claim escalationId, escalationId)
  | .caseFlushed served making | .attemptFlushed served making | .runLoaded served making _ =>
    some (served, making.request, making.escalationId)
  | .changed served request _ | .runLocked served request _ | .latestRead served request _ _
  | .appended served request =>
    request.escalationId.map fun escalationId => (served, request, escalationId)
  | _ => none

theorem keyHolder_of_deciding {phase : RequestPhase} {served : Served} {making : Making}
    (deciding : phase.deciding = some (served, making)) : phase.keyHolder = some served := by
  cases phase <;> simp_all [RequestPhase.deciding, keyHolder]

theorem keyHolder_of_writer {phase : RequestPhase} {served : Served} {request : CaseRequest}
    {escalationId : UUID} (writer : phase.writer = some (served, request, escalationId)) :
    phase.keyHolder = some served := by
  cases phase <;> simp_all [RequestPhase.writer, keyHolder, Option.map_eq_some_iff]

end RequestPhase

/-- The roles of the principals that write cases. -/
def decidingRoles : List String := ["operator", "supervisor"]

theorem actorString_toList (principal : ApiKeyPrincipal) :
    principal.actorString.toList = "api_key:".toList ++ principal.role.toList ++ ":".toList ++
      principal.apiKeyId.toList := by
  simp only [ApiKeyPrincipal.actorString, String.toList_append]
  rfl

/-- Two keys with one actor string are one key. -/
theorem apiKeyId_of_actor {first second : Served} (firstRole : first.key.role ∈ decidingRoles)
    (secondRole : second.key.role ∈ decidingRoles) (same : first.actor = second.actor) :
    first.apiKeyId = second.apiKeyId := by
  have texts := congrArg String.toList same
  rw [actorString_toList, actorString_toList] at texts
  change _ ++ first.key.role.toList ++ _ ++ first.apiKeyId.str.toList =
    _ ++ second.key.role.toList ++ _ ++ second.apiKeyId.str.toList at texts
  simp only [decidingRoles, List.mem_cons, List.not_mem_nil, or_false] at firstRole secondRole
  refine UUID.str_injective (String.ext ?_)
  rcases firstRole with firstRole | firstRole <;> rcases secondRole with secondRole | secondRole
  · simpa [firstRole, secondRole] using texts
  · simp [firstRole, secondRole] at texts
  · simp [firstRole, secondRole] at texts
  · simpa [firstRole, secondRole] using texts

/-! ### How a case moves -/

/-- What the request of an actor makes of the case it writes: it claims an open case, or decides one
that the actor has claimed. -/
def CaseMove (actor : String) (row next : EscalationCaseModel) : CaseRequest → Prop
  | .claim _ => row.state = .opened ∧ ∃ now, next = row.claim actor now
  | .decide _ decision => row.state = .claimed ∧ row.claimedBy = some actor ∧
    ∃ now, next = row.decide decision.state actor decision.payload now
  | .cancel _ _ => False

/-- A decision whose checks have passed, with the case still as it was read. -/
structure CaseLoaded (state : RequestState) (served : Served) (making : Making) : Prop where
  admitted : served.key.role ∈ decidingRoles
  stored : (state.cases making.escalationId).committed = some making.esc
  claimed : making.esc.state = .claimed
  claimant : making.esc.claimedBy = some served.actor

/-- A request that has written its case holds it, and moves it as it should. -/
structure CaseWritten (state : RequestState) (index : Nat) (served : Served)
    (request : CaseRequest) (escalationId : UUID) : Prop where
  admitted : served.key.role ∈ decidingRoles
  moves : ∃ row next, (state.cases escalationId).committed = some row ∧
    (state.cases escalationId).lock = some (index, some next) ∧
    CaseMove served.actor row next request

/-- What holds of one request: it holds the key it authenticated with, and of the cases the one it
has written and no other. -/
structure CaseGuard (state : RequestState) (index : Nat) : Prop where
  keyed : ∀ served, (state.phase index).keyHolder = some served →
    ∃ version, (state.apiKeys served.apiKeyId).lock = some (index, version)
  held : ∀ escalationId version, (state.cases escalationId).lock = some (index, version) →
    ∃ served request, (state.phase index).writer = some (served, request, escalationId)
  written : ∀ served request escalationId,
    (state.phase index).writer = some (served, request, escalationId) →
      CaseWritten state index served request escalationId
  loaded : ∀ served making, (state.phase index).deciding = some (served, making) →
    CaseLoaded state served making

/-- It holds of every request. -/
def CasesGuarded (state : RequestState) : Prop := ∀ index, CaseGuard state index

section Steps

variable {state next : RequestState} {index other : Nat}

/-- No other request holds a case that a decision is going to write: it is claimed, so only the
claimant could have written it, and the claimant's key is held. -/
theorem CasesGuarded.holder_eq (guarded : CasesGuarded state) {served : Served} {making : Making}
    {version : Option EscalationCaseModel}
    (deciding : (state.phase other).deciding = some (served, making))
    (held : (state.cases making.escalationId).lock = some (index, version)) : other = index := by
  have loaded := (guarded other).loaded served making deciding
  obtain ⟨writer, request, writes⟩ := (guarded index).held _ _ held
  obtain ⟨admitted, row, decided, stored, -, move⟩ :=
    (guarded index).written writer request _ writes
  cases stored.symm.trans loaded.stored
  cases request with
  | claim escalationId =>
    have impossible := loaded.claimed.symm.trans move.1
    cases impossible
  | cancel workflowRunId body => exact move.elim
  | decide escalationId decision =>
    have sameActor : served.actor = writer.actor :=
      Option.some.inj (loaded.claimant.symm.trans move.2.1)
    have sameKey := apiKeyId_of_actor loaded.admitted admitted sameActor
    obtain ⟨first, firstHeld⟩ :=
      (guarded other).keyed served (RequestPhase.keyHolder_of_deciding deciding)
    obtain ⟨second, secondHeld⟩ :=
      (guarded index).keyed writer (RequestPhase.keyHolder_of_writer writes)
    rw [sameKey, secondHeld] at firstHeld
    cases firstHeld
    rfl

/-- What holds of a request is left alone by the actions of the others. -/
theorem CasesGuarded.others (guarded : CasesGuarded state) (frame : RequestFrame state index next)
    (different : other ≠ index) : CaseGuard next other := by
  have own := guarded other
  have phase := frame.phase other different
  constructor
  · intro served holder
    rw [phase] at holder
    obtain ⟨version, held⟩ := own.keyed served holder
    exact ⟨version, ((frame.apiKeys _).lock_iff different).mpr held⟩
  · intro escalationId version held
    rw [phase]
    exact own.held escalationId version (((frame.cases _).lock_iff different).mp held)
  · intro served request escalationId writes
    rw [phase] at writes
    obtain ⟨admitted, row, changed, stored, held, move⟩ :=
      own.written served request escalationId writes
    exact ⟨admitted, row, changed,
      ((frame.cases _).committed_of_held different held).trans stored,
      ((frame.cases _).lock_iff different).mpr held, move⟩
  · intro served making deciding
    rw [phase] at deciding
    have loaded := own.loaded served making deciding
    refine ⟨loaded.admitted, ?_, loaded.claimed, loaded.claimant⟩
    rcases (frame.cases making.escalationId).committed_or with same | ⟨version, held, -⟩
    · exact same.trans loaded.stored
    · exact absurd (guarded.holder_eq deciding held) different

/-- A request moves on and writes neither a key nor a case. -/
theorem CaseGuard.advance (own : CaseGuard state index) {old phase : RequestPhase}
    (before : state.phase index = old) (moved : next.phase index = phase)
    (apiKeys : next.apiKeys = state.apiKeys) (cases : next.cases = state.cases)
    (holder : ∀ served, phase.keyHolder = some served → old.keyHolder = some served)
    (writer : phase.writer = old.writer)
    (loaded : ∀ served making, phase.deciding = some (served, making) →
      old.deciding = some (served, making) ∨ CaseLoaded state served making) :
    CaseGuard next index := by
  subst before
  constructor
  · intro served holds
    rw [moved] at holds
    rw [apiKeys]
    exact own.keyed served (holder served holds)
  · intro escalationId version held
    rw [cases] at held
    rw [moved, writer]
    exact own.held escalationId version held
  · intro served request escalationId writes
    rw [moved, writer] at writes
    obtain ⟨admitted, moves⟩ := own.written served request escalationId writes
    exact ⟨admitted, cases.symm ▸ moves⟩
  · intro served making deciding
    rw [moved] at deciding
    obtain ⟨admitted, stored, claimed, claimant⟩ :=
      (loaded served making deciding).elim (own.loaded served making) id
    exact ⟨admitted, cases.symm ▸ stored, claimed, claimant⟩

/-- A request writes its case, and no case before. -/
theorem CaseGuard.putCase (own : CaseGuard state index) {served : Served} {request : CaseRequest}
    {escalationId : UUID} {row changed : EscalationCaseModel} (phase : RequestPhase)
    (holder : (state.phase index).keyHolder = some served)
    (sameHolder : phase.keyHolder = some served)
    (unwritten : (state.phase index).writer = none)
    (writer : phase.writer = some (served, request, escalationId))
    (admitted : served.key.role ∈ decidingRoles)
    (stored : (state.cases escalationId).committed = some row)
    (move : CaseMove served.actor row changed request)
    (loaded : ∀ served making, phase.deciding = some (served, making) →
      CaseLoaded state served making) :
    CaseGuard (state.putCase index escalationId
      ((state.cases escalationId).write index (some changed)) phase) index := by
  have moved : (state.putCase index escalationId
      ((state.cases escalationId).write index (some changed)) phase).phase index = phase :=
    Function.update_self ..
  have committed (place : UUID) := Cell.committed_update_write state.cases escalationId place
    index (some changed)
  constructor
  · intro other holds
    rw [moved, sameHolder] at holds
    cases holds
    exact own.keyed served holder
  · intro place version held
    rw [moved]
    rcases Cell.lock_of_update_write held with ⟨same, -⟩ | ⟨-, before⟩
    · exact ⟨served, request, same ▸ writer⟩
    · obtain ⟨_, _, writes⟩ := own.held place version before
      rw [unwritten] at writes
      cases writes
  · intro other otherRequest place writes
    rw [moved, writer] at writes
    cases writes
    refine ⟨admitted, row, changed, (committed _).trans stored, ?_, move⟩
    dsimp only [RequestState.putCase]
    rw [Function.update_self, Cell.lock_write]
  · intro other making deciding
    rw [moved] at deciding
    obtain ⟨admitted, otherStored, claimed, claimant⟩ := loaded other making deciding
    exact ⟨admitted, (committed _).trans otherStored, claimed, claimant⟩

/-- A request writes the row of its key, which it holds from there on. -/
theorem CaseGuard.putKey (own : CaseGuard state index) {served : Served} {request : CaseRequest}
    {row : Option ApiKeyModel} (before : state.phase index = .keyRead served request) :
    CaseGuard (state.putKey index served.apiKeyId
      ((state.apiKeys served.apiKeyId).write index row) (.authenticated served request)) index := by
  have moved : (state.putKey index served.apiKeyId
      ((state.apiKeys served.apiKeyId).write index row)
      (.authenticated served request)).phase index = .authenticated served request :=
    Function.update_self ..
  constructor
  · intro other holds
    rw [moved] at holds
    cases holds
    refine ⟨row, ?_⟩
    dsimp only [RequestState.putKey]
    rw [Function.update_self, Cell.lock_write]
  · intro escalationId version held
    obtain ⟨_, _, writes⟩ := own.held escalationId version held
    rw [before] at writes
    cases writes
  · intro other otherRequest escalationId writes
    rw [moved] at writes
    cases writes
  · intro other making deciding
    rw [moved] at deciding
    cases deciding

/-- A request is answered and its locks are gone. -/
theorem caseGuard_answered {statusCode : Nat} (moved : next.phase index = .answered statusCode)
    (released : ∀ escalationId version,
      (next.cases escalationId).lock ≠ some (index, version)) : CaseGuard next index := by
  constructor
  · intro served holds
    rw [moved] at holds
    cases holds
  · intro escalationId version held
    exact absurd held (released escalationId version)
  · intro served request escalationId writes
    rw [moved] at writes
    cases writes
  · intro served making deciding
    rw [moved] at deciding
    cases deciding

/-- What a request that has written nothing of a case sees of it is committed. -/
theorem CaseGuard.committed_of_unwritten (own : CaseGuard state index)
    (unwritten : (state.phase index).writer = none) (escalationId : UUID) :
    (state.cases escalationId).visible index = (state.cases escalationId).committed := by
  refine Cell.visible_of_not_held fun version held => ?_
  obtain ⟨_, _, writes⟩ := own.held escalationId version held
  rw [unwritten] at writes
  cases writes

/-- An action keeps what holds of the request that takes it. -/
theorem RequestStep.caseGuard (step : RequestStep state index next)
    (own : CaseGuard state index) : CaseGuard next index := by
  have self (phase : RequestPhase) : Function.update state.phase index phase index = phase :=
    Function.update_self ..
  cases step with
  | waits => exact own
  | refuses =>
    exact caseGuard_answered (self _) fun _ _ held => (Cell.lock_rollback_iff.mp held).2 rfl
  | commits =>
    exact caseGuard_answered (self _) fun _ _ held => (Cell.lock_commit_iff.mp held).2 rfl
  | readsKey phase | misses phase =>
    exact own.advance phase (self _) rfl rfl (by rintro _ ⟨⟩) rfl (by rintro _ _ ⟨⟩)
  | loadsCase phase admitted seen claimed held =>
    refine own.advance phase (self _) rfl rfl (fun _ => id) rfl ?_
    intro served making deciding
    cases deciding
    rw [own.committed_of_unwritten (by rw [phase]; rfl)] at seen
    exact .inr ⟨admitted, seen, claimed, held⟩
  | loadsCancelled phase | readsClaimed phase | leavesRun phase | flushesRun phase
  | cancels phase | locksRun phase | readsLatest phase | appends phase =>
    exact own.advance phase (self _) rfl rfl (fun _ => id) rfl (by rintro _ _ ⟨⟩)
  | insertsAttempt phase | insertsNothing phase | loadsRun phase =>
    exact own.advance phase (self _) rfl rfl (fun _ => id) rfl fun _ _ => .inl
  | touchesKey phase => exact own.putKey phase
  | claims phase admitted seen opened isFree =>
    have unwritten : (state.phase index).writer = none := by rw [phase]; rfl
    rw [own.committed_of_unwritten unwritten] at seen
    refine own.putCase _ (by rw [phase]; rfl) rfl unwritten rfl admitted seen
      ⟨opened, _, rfl⟩ (by rintro _ _ ⟨⟩)
  | flushesCase phase seen isFree =>
    have loaded := own.loaded _ _ (by rw [phase]; rfl)
    have unwritten : (state.phase index).writer = none := by rw [phase]; rfl
    rw [own.committed_of_unwritten unwritten, loaded.stored] at seen
    cases seen
    refine own.putCase _ (by rw [phase]; rfl) rfl unwritten rfl loaded.admitted loaded.stored
      ⟨loaded.claimed, loaded.claimant, _, rfl⟩ ?_
    intro served making deciding
    cases deciding
    exact loaded

theorem CasesGuarded.step (guarded : CasesGuarded state) (label : Nat × RequestAction) :
    CasesGuarded (state.step label) := by
  have action := state.step_cases label
  intro index
  by_cases same : index = label.1
  · subst same
    exact action.caseGuard (guarded _)
  · exact guarded.others action.frame same

/-- A committed case is changed by the commit of a request that has written it. -/
theorem CasesGuarded.committed_step (guarded : CasesGuarded state) (label : Nat × RequestAction)
    (escalationId : UUID) :
    ((state.step label).cases escalationId).committed = (state.cases escalationId).committed ∨
      ∃ served request row moved,
        (state.phase label.1).writer = some (served, request, escalationId) ∧
        (state.cases escalationId).committed = some row ∧
        ((state.step label).cases escalationId).committed = some moved ∧
        CaseMove served.actor row moved request := by
  rcases ((state.step_cases label).frame.cases escalationId).committed_or with
    same | ⟨version, held, next⟩
  · exact .inl same
  · obtain ⟨served, request, writes⟩ := (guarded label.1).held escalationId version held
    obtain ⟨-, row, moved, stored, own, move⟩ :=
      (guarded label.1).written served request escalationId writes
    cases held.symm.trans own
    exact .inr ⟨served, request, row, moved, writes, stored, by rw [next], move⟩

end Steps

theorem casesGuarded_initial (apiKeys : UUID → Option ApiKeyModel)
    (cases : UUID → Option EscalationCaseModel) (humanAttempts : UUID → Option StepAttemptModel)
    (runs : UUID → Option AuditedRun) (requests : Nat → UUID × CaseRequest) :
    CasesGuarded (.initial apiKeys cases humanAttempts runs requests) := fun index => by
  constructor
  · rintro _ ⟨⟩
  · rintro _ _ ⟨⟩
  · rintro _ _ _ ⟨⟩
  · rintro _ _ ⟨⟩

/-! ### One claimant -/

/-- A case that is not open names its claimant, and it was decided by nobody else. -/
structure Attributed (row : EscalationCaseModel) : Prop where
  opened : row.state = .opened → row.claimedBy = none
  resolver : ∀ actor, row.resolvedBy = some actor → row.claimedBy = some actor
  decided : row.state = .resolved ∨ row.state = .rejected → row.resolvedBy ≠ none

/-- A new case is open, and nobody has claimed it. -/
theorem attributed_escalationRow (escalationId workflowRunId stepId : UUID) (result : StepResult)
    (reasonCode : String) (now : Timestamp) :
    Attributed (WorkflowOrchestrator.escalationRow escalationId workflowRunId stepId result
      reasonCode now) where
  opened _ := rfl
  resolver _ resolved := by cases resolved
  decided := nofun

namespace CaseMove

variable {actor : String} {row next : EscalationCaseModel} {request : CaseRequest}

theorem attributed (move : CaseMove actor row next request) (before : Attributed row) :
    Attributed next := by
  cases request with
  | claim escalationId =>
    obtain ⟨opened, now, rfl⟩ := move
    refine ⟨nofun, fun resolver resolved => ?_, nofun⟩
    have impossible := (before.opened opened).symm.trans (before.resolver resolver resolved)
    cases impossible
  | cancel workflowRunId body => exact move.elim
  | decide escalationId decision =>
    obtain ⟨claimed, claimant, now, rfl⟩ := move
    refine ⟨fun opened => ?_, fun resolver resolved => ?_, fun _ => nofun⟩
    · cases decision <;> cases opened
    · cases resolved
      exact claimant

/-- The claimant of a case stays. -/
theorem claimedBy (move : CaseMove actor row next request) (before : Attributed row)
    {claimant : String} (claimed : row.claimedBy = some claimant) :
    next.claimedBy = some claimant := by
  cases request with
  | claim escalationId =>
    obtain ⟨opened, now, rfl⟩ := move
    have impossible := (before.opened opened).symm.trans claimed
    cases impossible
  | cancel workflowRunId body => exact move.elim
  | decide escalationId decision =>
    obtain ⟨-, -, now, rfl⟩ := move
    exact claimed

/-- A case that is decided was claimed before. -/
theorem claimed_of_decided (move : CaseMove actor row next request)
    (decided : next.state = .resolved ∨ next.state = .rejected) : row.state = .claimed := by
  cases request with
  | claim escalationId =>
    obtain ⟨-, now, rfl⟩ := move
    rcases decided with impossible | impossible <;> cases impossible
  | cancel workflowRunId body => exact move.elim
  | decide escalationId decision => exact move.1

/-- No case is opened again. -/
theorem not_opened (move : CaseMove actor row next request) : next.state ≠ .opened := by
  cases request with
  | claim escalationId =>
    obtain ⟨-, now, rfl⟩ := move
    exact nofun
  | cancel workflowRunId body => exact move.elim
  | decide escalationId decision =>
    obtain ⟨-, -, now, rfl⟩ := move
    cases decision <;> exact nofun

end CaseMove

/-- The committed case is in one of these states. -/
def RequestState.caseIn (state : RequestState) (escalationId : UUID)
    (states : List EscalationState) : Bool :=
  (state.cases escalationId).committed.any fun row => row.state ∈ states

/-- The action is the commit of a request that has claimed the case. -/
def RequestState.commitsClaim (escalationId : UUID) (state : RequestState)
    (label : Nat × RequestAction) : Bool :=
  match label.2, state.phase label.1 with
  | .statement _ _, .appended _ (.claim claimedId) => claimedId = escalationId
  | _, _ => false

open Transition in
/-- What the requests on one case keep to: one claim at most, a claimant that stays, no decision
without a claim, a claimant that decides, and errors that change nothing. -/
structure OneClaimant (start : RequestState) (escalationId : UUID)
    (labels : List (Nat × RequestAction)) : Prop where
  single : tally RequestState.step (RequestState.commitsClaim escalationId) start labels ≤ 1
  kept : ∀ first second, labels = first ++ second → ∀ row claimant,
    ((run RequestState.step start first).cases escalationId).committed = some row →
    row.claimedBy = some claimant →
    ∃ last, ((run RequestState.step start labels).cases escalationId).committed = some last ∧
      last.claimedBy = some claimant
  claimedBefore : (run RequestState.step start labels).caseIn escalationId
      [.resolved, .rejected] = true →
    start.caseIn escalationId [.resolved, .rejected] = false →
    ∃ first second, labels = first ++ second ∧
      (run RequestState.step start first).caseIn escalationId [.claimed] = true
  attributed : ∀ row, ((run RequestState.step start labels).cases escalationId).committed =
    some row → Attributed row
  refused : ∀ index statusCode,
    (run RequestState.step start labels).phase index = .answered statusCode →
    statusCode = 403 ∨ statusCode = 404 ∨ statusCode = 409 →
    Along RequestState.step
      (fun state label => label.1 = index → SameRows state (state.step label)) start labels

section OneClaimant

variable {state : RequestState} {escalationId : UUID}

/-- The rows of a case are attributed. -/
def CaseAttributed (escalationId : UUID) (state : RequestState) : Prop :=
  ∀ row, (state.cases escalationId).committed = some row → Attributed row

theorem CasesGuarded.caseAttributed (guarded : CasesGuarded state)
    (attributed : CaseAttributed escalationId state) (label : Nat × RequestAction) :
    CaseAttributed escalationId (state.step label) := by
  intro row stored
  rcases guarded.committed_step label escalationId with
    same | ⟨served, request, old, moved, -, oldStored, movedStored, move⟩
  · exact attributed row (same.symm.trans stored)
  · cases movedStored.symm.trans stored
    exact move.attributed (attributed old oldStored)

theorem caseIn_iff {states : List EscalationState} :
    state.caseIn escalationId states = true ↔
      ∃ row, (state.cases escalationId).committed = some row ∧ row.state ∈ states := by
  simp [RequestState.caseIn, Option.any_eq_true]

/-- A claim that commits finds the case open and leaves it claimed. -/
theorem CasesGuarded.commitsClaim (guarded : CasesGuarded state) {label : Nat × RequestAction}
    (counted : state.commitsClaim escalationId label = true) :
    state.caseIn escalationId [.opened] = true ∧
      ¬(state.step label).caseIn escalationId [.opened] = true := by
  obtain ⟨index, action⟩ := label
  unfold RequestState.commitsClaim at counted
  split at counted
  · rename_i now id served claimedId made phase
    dsimp only at made phase
    subst made
    obtain rfl := of_decide_eq_true counted
    obtain ⟨-, row, moved, stored, held, opened, at', rfl⟩ := (guarded index).written served
      (.claim claimedId) claimedId (by rw [phase]; rfl)
    refine ⟨caseIn_iff.mpr ⟨row, stored, List.mem_singleton.mpr opened⟩, ?_⟩
    have next : state.step (index, .statement now id) = state.commit index := by
      simp only [RequestState.step, RequestState.perform, phase]
    rw [next, caseIn_iff]
    rintro ⟨last, lastStored, lastOpened⟩
    have committed : ((state.commit index).cases claimedId).committed =
        some (row.claim served.actor at') :=
      congrArg Cell.committed (Cell.commit_of_held held)
    cases committed.symm.trans lastStored
    cases List.mem_singleton.mp lastOpened
  · cases counted

/-- A case is not opened again. -/
theorem CasesGuarded.not_opened (guarded : CasesGuarded state)
    (passed : ¬state.caseIn escalationId [.opened] = true) (label : Nat × RequestAction) :
    ¬(state.step label).caseIn escalationId [.opened] = true := by
  rw [caseIn_iff] at passed ⊢
  rintro ⟨row, stored, opened⟩
  rcases guarded.committed_step label escalationId with
    same | ⟨served, request, old, moved, -, oldStored, movedStored, move⟩
  · exact passed ⟨row, same.symm.trans stored, opened⟩
  · cases movedStored.symm.trans stored
    exact move.not_opened (List.mem_singleton.mp opened)

/-- A case that is not decided stays so until it is claimed. -/
theorem CasesGuarded.undecided (guarded : CasesGuarded state) (label : Nat × RequestAction)
    (undecided : state.caseIn escalationId [.resolved, .rejected] = false ∧
      state.caseIn escalationId [.claimed] = false) :
    ((state.step label).caseIn escalationId [.resolved, .rejected] = false ∧
      (state.step label).caseIn escalationId [.claimed] = false) ∨
      (state.step label).caseIn escalationId [.claimed] = true := by
  by_cases claimed : (state.step label).caseIn escalationId [.claimed] = true
  · exact .inr claimed
  refine .inl ⟨Bool.eq_false_iff.mpr fun decided => ?_, Bool.eq_false_iff.mpr claimed⟩
  obtain ⟨row, stored, member⟩ := caseIn_iff.mp decided
  rcases guarded.committed_step label escalationId with
    same | ⟨served, request, old, moved, -, oldStored, movedStored, move⟩
  · exact Bool.eq_false_iff.mp undecided.1 (caseIn_iff.mpr ⟨row, same.symm.trans stored, member⟩)
  · cases movedStored.symm.trans stored
    have was := move.claimed_of_decided (by simpa using member)
    exact Bool.eq_false_iff.mp undecided.2
      (caseIn_iff.mpr ⟨old, oldStored, List.mem_singleton.mpr was⟩)

open Transition in
/-- However the requests on a case interleave, one claim of it succeeds at most, the claimant stays
and is the only one to decide it, and requests answered with an error change nothing. A claim
updates an open case, so a second one finds none; the claimant's requests hold the row of one key to
their end, so no other request moves the case between their checks and their commit. -/
theorem one_claimant (apiKeys : UUID → Option ApiKeyModel)
    (cases : UUID → Option EscalationCaseModel) (humanAttempts : UUID → Option StepAttemptModel)
    (runs : UUID → Option AuditedRun) (requests : Nat → UUID × CaseRequest) (escalationId : UUID)
    (attributed : ∀ row, cases escalationId = some row → Attributed row)
    (labels : List (Nat × RequestAction)) :
    OneClaimant (.initial apiKeys cases humanAttempts runs requests) escalationId labels := by
  have guarded := casesGuarded_initial apiKeys cases humanAttempts runs requests
  have start : CasesGuarded (.initial apiKeys cases humanAttempts runs requests) ∧
      CaseAttributed escalationId (.initial apiKeys cases humanAttempts runs requests) :=
    ⟨guarded, attributed⟩
  generalize RequestState.initial apiKeys cases humanAttempts runs requests = initial at *
  have both (first : List (Nat × RequestAction)) :=
    run_invariant_always RequestState.step
      (fun state => CasesGuarded state ∧ CaseAttributed escalationId state)
      (fun state label both => ⟨both.1.step label, both.1.caseAttributed both.2 label⟩)
      initial start first
  constructor
  · exact tally_le_one RequestState.step CasesGuarded
      (fun state => state.caseIn escalationId [.opened] = true)
      (fun _ label guarded => guarded.step label)
      (fun _ label guarded passed => guarded.not_opened passed label)
      (fun _ _ guarded => guarded.commitsClaim) initial guarded labels
  · rintro first second rfl row claimant stored claimed
    rw [run_append]
    refine (run_invariant_always RequestState.step
      (fun state => (CasesGuarded state ∧ CaseAttributed escalationId state) ∧
        ∃ last, (state.cases escalationId).committed = some last ∧
          last.claimedBy = some claimant) ?_ _ ⟨both first, row, stored, claimed⟩ second).2
    rintro state label ⟨⟨guarded, attributed⟩, last, lastStored, lastClaimed⟩
    refine ⟨⟨guarded.step label, guarded.caseAttributed attributed label⟩, ?_⟩
    rcases guarded.committed_step label escalationId with
      same | ⟨served, request, old, moved, -, oldStored, movedStored, move⟩
    · exact ⟨last, same.trans lastStored, lastClaimed⟩
    · cases oldStored.symm.trans lastStored
      exact ⟨moved, movedStored, move.claimedBy (attributed _ oldStored) lastClaimed⟩
  · intro decided undecided
    by_cases claimed : initial.caseIn escalationId [.claimed] = true
    · exact ⟨[], labels, rfl, claimed⟩
    · exact passes_through RequestState.step CasesGuarded
        (fun state => state.caseIn escalationId [.resolved, .rejected] = false ∧
          state.caseIn escalationId [.claimed] = false)
        (fun state => state.caseIn escalationId [.claimed] = true)
        (fun _ label guarded => guarded.step label)
        (fun _ label guarded => guarded.undecided label) initial guarded
        ⟨undecided, Bool.eq_false_iff.mpr claimed⟩ labels
        fun inside => Bool.eq_false_iff.mp inside.1 decided
  · exact (both labels).2
  · rintro index statusCode answered (rfl | rfl | rfl)
    · exact sameRows_of_refused (by decide) answered
    · exact sameRows_of_refused (by decide) answered
    · exact sameRows_of_refused (by decide) answered

end OneClaimant

/-! ### A contested case -/

/-- A run that waits for a human. -/
def waitingRun : WorkflowRunModel :=
  { workflowRunId := 9, workflowName := "claim_intake", workflowVersion := "v1",
    state := .awaitingHuman, version := 3, createdAt := 0, updatedAt := 0, deadlineAt := 100,
    createdBy := "u" }

/-- The open case of the run. -/
def openCase : EscalationCaseModel :=
  { escalationId := 5, workflowRunId := 9, stepId := 2, state := .opened, reasonCode := "LOW",
    reasonDetail := none, expiresAt := 100, createdAt := 0 }

/-- Two operators, with the keys 1 and 2, and a supervisor with the key 3. -/
def apiKeyRows (id : UUID) : Option ApiKeyModel :=
  if id = 1 ∨ id = 2 then some { role := "operator", label := "o" }
  else if id = 3 then some { role := "supervisor", label := "s" }
  else none

/-- The waiting run and a case of it before some requests. -/
def contested (esc : EscalationCaseModel) (requests : List (UUID × CaseRequest)) : RequestState :=
  .initial apiKeyRows (fun id => if id = 5 then some esc else none) (fun _ => none)
    (fun id => if id = 9 then some ⟨waitingRun, []⟩ else none)
    fun index => requests.getD index (0, .claim 0)

/-- A request runs so many statements. -/
def statements (count index : Nat) : List (Nat × RequestAction) :=
  List.replicate count (index, .statement 1 index)

/-- Two operators claim the case, and the first of them resolves it. -/
def claimedTwice : RequestState :=
  contested openCase [(1, .claim 5), (2, .claim 5), (1, .decide 5 (.resolve { notes := "ok" }))]

/-- The second claim comes to its update while the first one holds the case. -/
def claimOverlap : List (Nat × RequestAction) :=
  statements 3 0 ++ statements 3 1 ++ statements 5 0 ++ statements 2 1 ++ statements 11 2

/-- Of two overlapping claims one succeeds, and its claimant resolves the case. -/
theorem one_claimant_overlap :
    OneClaimant claimedTwice 5 claimOverlap ∧
      (Transition.run RequestState.step claimedTwice claimOverlap).caseIn 5 [.resolved] = true := by
  refine ⟨one_claimant _ _ _ _ _ 5 ?_ claimOverlap, by decide +kernel⟩
  intro row stored
  cases stored
  exact ⟨fun _ => rfl, nofun, nofun⟩

end InsuranceOps
