/-
This file is about the version of a run when requests to cancel it, and to
resolve and reject its cases, overlap. A cancel request changes the run only in
the version it has read. A decision writes the state and the version it has
computed from the run it has read, whatever is stored by then. As long as no
decision flushes a run over a version it has not read, terminal states stay and
the version counts the changes of state.
-/

import InsuranceOps.Claimants

namespace InsuranceOps

open RowLocks Transition WorkflowOrchestrator

/-! ### How a run moves -/

/-- What a transaction makes of a run: it leaves state and version alone, or it changes the state of
a run that is not finished and counts the version up. -/
def RunMove (row next : WorkflowRunModel) : Prop :=
  (next.state = row.state ∧ next.version = row.version) ∨
    (row.state.isTerminal = false ∧ next.state ≠ row.state ∧ next.version = row.version + 1)

theorem runMove_self (row : WorkflowRunModel) : RunMove row row := .inl ⟨rfl, rfl⟩

/-- A decision changes a run that is as it was read. -/
theorem runMove_writeRun {decision : Decision} {read row : WorkflowRunModel} (now : Timestamp)
    (takes : decision.takes read.state = true) (version : row.version = read.version)
    (state : row.state = read.state) : RunMove row (decision.writeRun read now row) := by
  rw [← state] at takes
  cases decision with
  | resolve body =>
    refine .inr ⟨?_, ?_, by rw [Decision.writeRun, version]⟩
    · cases stored : row.state <;> simp [stored, Decision.takes, WorkflowRunState.isTerminal] at *
    · intro same
      rw [← same] at takes
      cases takes
  | reject body =>
    refine .inr ⟨?_, ?_, by rw [Decision.writeRun, version]⟩
    · cases stored : row.state <;> simp [stored, Decision.takes, WorkflowRunState.isTerminal] at *
    · intro same
      rw [← same] at takes
      cases takes

/-- A run a request has read: its version may have been counted up since, and if not, its state is
still the one that was read. -/
def RunSeen (state : RequestState) (workflowRunId : UUID) (read : WorkflowRunModel) : Prop :=
  ∃ row, (state.runs workflowRunId).committed = some row ∧ read.version ≤ row.run.version ∧
    (row.run.version = read.version → row.run.state = read.state)

/-- What a request that is going to change a run has read of it. -/
def RunRead (state : RequestState) : RequestPhase → Prop
  | .cancelLoaded _ workflowRunId _ read =>
    RunSeen state workflowRunId read ∧ cancellable read.state = true
  | .runLoaded _ making read =>
    RunSeen state making.esc.workflowRunId read ∧ making.decision.takes read.state = true
  | _ => True

/-- The phases in which a request may hold a run. -/
def RequestPhase.holdsRun : RequestPhase → Bool
  | .changed _ _ _ | .runLocked _ _ _ | .latestRead _ _ _ _ | .appended _ _ => true
  | _ => false

/-- What holds of one request: the runs it holds move as they should, and the run it is going to
change has moved on from what was read, if it has changed at all. -/
structure RunGuard (state : RequestState) (index : Nat) : Prop where
  held : ∀ workflowRunId version, (state.runs workflowRunId).lock = some (index, version) →
    (state.phase index).holdsRun = true ∧ ∃ row next,
      (state.runs workflowRunId).committed = some row ∧ version = some next ∧
        RunMove row.run next.run
  read : RunRead state (state.phase index)

def RunsGuarded (state : RequestState) : Prop := ∀ index, RunGuard state index

/-- The action is the flush of a run over a version that was not read. -/
def RequestState.overwrites (state : RequestState) (label : Nat × RequestAction) : Bool :=
  match label.2, state.phase label.1 with
  | .statement _ _, .runLoaded _ making read =>
    (state.runs making.esc.workflowRunId).free label.1 &&
      ((state.runs making.esc.workflowRunId).visible label.1).any
        fun row => row.run.version ≠ read.version
  | _, _ => false

section Steps

variable {state next : RequestState} {index other : Nat}

/-- A committed run is changed by the commit of a request that holds it. -/
theorem RunsGuarded.committed_or (guarded : RunsGuarded state)
    (frame : RequestFrame state index next) (workflowRunId : UUID) :
    (next.runs workflowRunId).committed = (state.runs workflowRunId).committed ∨
      ∃ row moved, (state.runs workflowRunId).committed = some row ∧
        (next.runs workflowRunId).committed = some moved ∧ RunMove row.run moved.run := by
  rcases (frame.runs workflowRunId).committed_or with same | ⟨version, held, left⟩
  · exact .inl same
  · obtain ⟨-, row, moved, stored, rfl, move⟩ := (guarded index).held workflowRunId version held
    exact .inr ⟨row, moved, stored, by rw [left], move⟩

/-- What was read of a run stays so: a change of the state counts the version up. -/
theorem RunsGuarded.runSeen (guarded : RunsGuarded state) (frame : RequestFrame state index next)
    {workflowRunId : UUID} {read : WorkflowRunModel} (seen : RunSeen state workflowRunId read) :
    RunSeen next workflowRunId read := by
  obtain ⟨row, stored, older, unchanged⟩ := seen
  rcases guarded.committed_or frame workflowRunId with
    same | ⟨old, moved, oldStored, movedStored, move⟩
  · exact ⟨row, same.trans stored, older, unchanged⟩
  · cases oldStored.symm.trans stored
    refine ⟨moved, movedStored, ?_, fun version => ?_⟩
    · rcases move with ⟨-, version⟩ | ⟨-, -, version⟩ <;> omega
    · rcases move with ⟨state, kept⟩ | ⟨-, -, raised⟩
      · exact state.trans (unchanged (kept ▸ version))
      · omega

theorem RunsGuarded.runRead (guarded : RunsGuarded state) (frame : RequestFrame state index next)
    {phase : RequestPhase} (read : RunRead state phase) : RunRead next phase := by
  cases phase with
  | cancelLoaded => exact ⟨guarded.runSeen frame read.1, read.2⟩
  | runLoaded => exact ⟨guarded.runSeen frame read.1, read.2⟩
  | _ => trivial

/-- What holds of a request is left alone by the actions of the others. -/
theorem RunsGuarded.others (guarded : RunsGuarded state) (frame : RequestFrame state index next)
    (different : other ≠ index) : RunGuard next other := by
  have phase := frame.phase other different
  constructor
  · intro workflowRunId version held
    have before := ((frame.runs workflowRunId).lock_iff different).mp held
    obtain ⟨holds, row, moved, stored, rest⟩ := (guarded other).held workflowRunId version before
    rw [phase]
    exact ⟨holds, row, moved,
      ((frame.runs workflowRunId).committed_of_held different before).trans stored, rest⟩
  · rw [phase]
    exact guarded.runRead frame (guarded other).read

/-- A request that holds no run sees what is committed. -/
theorem RunGuard.committed_of_unheld (own : RunGuard state index)
    (unheld : (state.phase index).holdsRun = false) (workflowRunId : UUID) :
    (state.runs workflowRunId).visible index = (state.runs workflowRunId).committed := by
  refine Cell.visible_of_not_held fun version held => ?_
  have holds := (own.held workflowRunId version held).1
  rw [unheld] at holds
  cases holds

/-- What a request sees of a run is the committed run moved as it should. -/
theorem RunGuard.move_of_visible (own : RunGuard state index) {workflowRunId : UUID}
    {row : AuditedRun} (seen : (state.runs workflowRunId).visible index = some row) :
    ∃ old, (state.runs workflowRunId).committed = some old ∧ RunMove old.run row.run := by
  by_cases held : ∃ version, (state.runs workflowRunId).lock = some (index, version)
  · obtain ⟨version, held⟩ := held
    obtain ⟨-, old, moved, stored, rfl, move⟩ := own.held workflowRunId version held
    rw [Cell.visible_of_held held] at seen
    cases seen
    exact ⟨old, stored, move⟩
  · rw [Cell.visible_of_not_held fun version own => held ⟨version, own⟩] at seen
    exact ⟨row, seen, runMove_self row.run⟩

theorem runRead_of_runs {phase : RequestPhase} (runs : next.runs = state.runs)
    (read : RunRead state phase) : RunRead next phase := by
  cases phase <;> simp only [RunRead, RunSeen, runs] at read ⊢ <;> exact read

/-- A request moves on and writes no run. -/
theorem RunGuard.advance (own : RunGuard state index) {old phase : RequestPhase}
    (before : state.phase index = old) (moved : next.phase index = phase)
    (runs : next.runs = state.runs) (holds : old.holdsRun = true → phase.holdsRun = true)
    (read : RunRead state phase) : RunGuard next index := by
  subst before
  constructor
  · intro workflowRunId version held
    rw [runs] at held ⊢
    rw [moved]
    exact (own.held workflowRunId version held).imp_left holds
  · rw [moved]
    exact runRead_of_runs runs read

/-- A request writes a run. -/
theorem RunGuard.putRun (own : RunGuard state index) {workflowRunId : UUID} {old row : AuditedRun}
    (phase : RequestPhase) (holds : phase.holdsRun = true)
    (stored : (state.runs workflowRunId).committed = some old) (move : RunMove old.run row.run) :
    RunGuard (state.putRun index workflowRunId
      ((state.runs workflowRunId).write index (some row)) phase) index := by
  have moved : (state.putRun index workflowRunId
      ((state.runs workflowRunId).write index (some row)) phase).phase index = phase :=
    Function.update_self ..
  have committed (place : UUID) := Cell.committed_update_write state.runs workflowRunId place
    index (some row)
  constructor
  · intro place version held
    rw [moved]
    refine ⟨holds, ?_⟩
    by_cases same : place = workflowRunId
    · subst same
      dsimp only [RequestState.putRun] at held
      rw [Function.update_self, Cell.lock_write] at held
      cases held
      exact ⟨old, row, (committed _).trans stored, rfl, move⟩
    · dsimp only [RequestState.putRun] at held
      rw [Function.update_of_ne same] at held
      obtain ⟨-, found, next, foundStored, rest⟩ := own.held place version held
      exact ⟨found, next, (committed _).trans foundStored, rest⟩
  · rw [moved]
    cases phase <;> trivial

/-- A request is answered and its locks are gone. -/
theorem runGuard_answered {statusCode : Nat} (moved : next.phase index = .answered statusCode)
    (released : ∀ workflowRunId version,
      (next.runs workflowRunId).lock ≠ some (index, version)) : RunGuard next index := by
  constructor
  · intro workflowRunId version held
    exact absurd held (released workflowRunId version)
  · rw [moved]
    trivial

/-- An action keeps what holds of the request that takes it, unless it flushes a run over a version
that was not read. -/
theorem RequestStep.runGuard (step : RequestStep state index next) (own : RunGuard state index)
    (fresh : ∀ served making read row, state.phase index = .runLoaded served making read →
      (state.runs making.esc.workflowRunId).visible index = some row →
      (state.runs making.esc.workflowRunId).free index = true → row.run.version = read.version) :
    RunGuard next index := by
  have self (phase : RequestPhase) : Function.update state.phase index phase index = phase :=
    Function.update_self ..
  cases step with
  | waits => exact own
  | refuses =>
    exact runGuard_answered (self _) fun _ _ held => (Cell.lock_rollback_iff.mp held).2 rfl
  | commits =>
    exact runGuard_answered (self _) fun _ _ held => (Cell.lock_commit_iff.mp held).2 rfl
  | readsKey phase | touchesKey phase | misses phase | claims phase | loadsCase phase
  | readsClaimed phase | flushesCase phase | insertsAttempt phase | insertsNothing phase
  | leavesRun phase =>
    exact own.advance phase (self _) rfl nofun trivial
  | readsLatest phase => exact own.advance phase (self _) rfl (fun _ => rfl) trivial
  | @loadsCancelled served workflowRunId body row phase admitted seen can =>
    rw [own.committed_of_unheld (by rw [phase]; rfl)] at seen
    exact own.advance phase (self _) rfl nofun ⟨⟨row, seen, le_refl _, fun _ => rfl⟩, can⟩
  | @loadsRun served making row phase seen takes =>
    rw [own.committed_of_unheld (by rw [phase]; rfl)] at seen
    exact own.advance phase (self _) rfl nofun ⟨⟨row, seen, le_refl _, fun _ => rfl⟩, takes⟩
  | @flushesRun served making read row phase seen isFree =>
    have version := fresh served making read row phase seen isFree
    rw [own.committed_of_unheld (by rw [phase]; rfl)] at seen
    have loaded := own.read
    rw [phase] at loaded
    obtain ⟨⟨found, stored, -, unchanged⟩, takes⟩ := loaded
    cases stored.symm.trans seen
    exact own.putRun _ rfl seen
      (runMove_writeRun making.now takes version (unchanged version))
  | @cancels served workflowRunId body read row now phase seen version isFree =>
    rw [own.committed_of_unheld (by rw [phase]; rfl)] at seen
    have loaded := own.read
    rw [phase] at loaded
    obtain ⟨⟨found, stored, -, unchanged⟩, can⟩ := loaded
    cases stored.symm.trans seen
    refine own.putRun _ rfl seen (.inr ⟨?_, ?_, ?_⟩)
    · rw [unchanged version]
      exact cancellable_not_terminal can
    · rintro same
      rw [← unchanged version, ← same] at can
      cases can
    · show read.version + 1 = row.run.version + 1
      rw [version]
  | locksRun phase seen isFree =>
    obtain ⟨old, stored, move⟩ := own.move_of_visible seen
    exact own.putRun _ rfl stored move
  | appends phase seen isFree =>
    obtain ⟨old, stored, move⟩ := own.move_of_visible seen
    exact own.putRun _ rfl stored move

theorem RunsGuarded.step (guarded : RunsGuarded state) (label : Nat × RequestAction)
    (fresh : state.overwrites label = false) : RunsGuarded (state.step label) := by
  have action := state.step_cases label
  intro index
  by_cases same : index = label.1
  · subst same
    obtain ⟨index, taken⟩ := label
    cases taken with
    | rollback =>
      unfold RequestState.step
      dsimp only
      split
      · exact guarded index
      · exact runGuard_answered (Function.update_self ..) fun _ _ held =>
          (Cell.lock_rollback_iff.mp held).2 rfl
    | statement now id =>
      refine action.runGuard (guarded index) fun served making read row phase seen isFree => ?_
      have read_fresh := fresh
      simp only [RequestState.overwrites, phase, seen, isFree, Option.any_some, Bool.true_and,
        decide_eq_false_iff_not, not_not] at read_fresh
      exact read_fresh
  · exact guarded.others action.frame same

end Steps

theorem runsGuarded_initial (apiKeys : UUID → Option ApiKeyModel)
    (cases : UUID → Option EscalationCaseModel) (humanAttempts : UUID → Option StepAttemptModel)
    (runs : UUID → Option AuditedRun) (requests : Nat → UUID × CaseRequest) :
    RunsGuarded (.initial apiKeys cases humanAttempts runs requests) := fun index => by
  constructor
  · rintro _ _ ⟨⟩
  · trivial

/-! ### No lost update -/

/-- The action changes the committed state of the run. -/
def RequestState.changesState (workflowRunId : UUID) (state : RequestState)
    (label : Nat × RequestAction) : Bool :=
  ((state.step label).runs workflowRunId).committed.map (fun row => row.run.state) ≠
    (state.runs workflowRunId).committed.map fun row => row.run.state

/-- What the requests on one run keep to: a committed terminal state stays, and the version counts
the committed changes of the state. -/
structure NoLostUpdate (start : RequestState) (workflowRunId : UUID)
    (labels : List (Nat × RequestAction)) : Prop where
  terminal : ∀ first second, labels = first ++ second → ∀ row,
    ((run RequestState.step start first).runs workflowRunId).committed = some row →
    row.run.state.isTerminal = true →
    ∃ last, ((run RequestState.step start labels).runs workflowRunId).committed = some last ∧
      last.run.state = row.run.state
  version : ∀ row, (start.runs workflowRunId).committed = some row →
    ∃ last, ((run RequestState.step start labels).runs workflowRunId).committed = some last ∧
      last.run.version = row.run.version +
        tally RequestState.step (RequestState.changesState workflowRunId) start labels

section NoLostUpdate

variable {state : RequestState} {workflowRunId : UUID}

/-- One action moves the committed run as one transaction does, and is counted when it changes its
state. -/
theorem RunsGuarded.move (guarded : RunsGuarded state) (label : Nat × RequestAction)
    {row : AuditedRun} (stored : (state.runs workflowRunId).committed = some row) :
    ∃ next, ((state.step label).runs workflowRunId).committed = some next ∧
      RunMove row.run next.run ∧ next.run.version = row.run.version +
        if state.changesState workflowRunId label then 1 else 0 := by
  rcases guarded.committed_or (state.step_cases label).frame workflowRunId with
    same | ⟨old, next, oldStored, nextStored, move⟩
  · refine ⟨row, same.trans stored, runMove_self row.run, ?_⟩
    rw [RequestState.changesState, same, if_neg (by simp)]
    rfl
  · cases oldStored.symm.trans stored
    refine ⟨next, nextStored, move, ?_⟩
    rw [RequestState.changesState, nextStored, stored, Option.map_some, Option.map_some]
    rcases move with ⟨state, version⟩ | ⟨-, changed, version⟩
    · rw [if_neg (by simp [state]), version]
      rfl
    · rw [if_pos (by simpa using changed), version]

/-- However requests to cancel a run and to decide its cases interleave, as long as no decision
flushes the run over a version it has not read, no terminal state is overwritten and the version
counts every change of the state. A decision that flushes over the version it has read raises it by
one from a state that was not terminal, and so does a cancel request. -/
theorem no_lost_update (apiKeys : UUID → Option ApiKeyModel)
    (cases : UUID → Option EscalationCaseModel) (humanAttempts : UUID → Option StepAttemptModel)
    (runs : UUID → Option AuditedRun) (requests : Nat → UUID × CaseRequest)
    (workflowRunId : UUID) (labels : List (Nat × RequestAction))
    (fresh : Along RequestState.step (fun state label => state.overwrites label = false)
      (.initial apiKeys cases humanAttempts runs requests) labels) :
    NoLostUpdate (.initial apiKeys cases humanAttempts runs requests) workflowRunId labels := by
  have guarded := runsGuarded_initial apiKeys cases humanAttempts runs requests
  generalize RequestState.initial apiKeys cases humanAttempts runs requests = start at *
  constructor
  · rintro first second rfl row stored terminal
    rw [along_append] at fresh
    rw [run_append]
    have reached := run_invariant RequestState.step RunsGuarded
      (fun _ label guarded met => guarded.step label met) start guarded first fresh.1
    refine (run_invariant RequestState.step
      (fun state => RunsGuarded state ∧ ∃ last, (state.runs workflowRunId).committed = some last ∧
        last.run.state = row.run.state) ?_ _ ⟨reached, row, stored, rfl⟩ second fresh.2).2
    rintro state label ⟨guarded, last, lastStored, same⟩ met
    obtain ⟨next, nextStored, move, -⟩ := guarded.move label lastStored
    refine ⟨guarded.step label met, next, nextStored, ?_⟩
    rcases move with ⟨kept, -⟩ | ⟨unfinished, -⟩
    · exact kept.trans same
    · rw [same, terminal] at unfinished
      cases unfinished
  · intro row stored
    have stays : ∀ state label, (RunsGuarded state ∧
        ∃ last, (state.runs workflowRunId).committed = some last) →
        state.overwrites label = false → RunsGuarded (state.step label) ∧
          ∃ last, ((state.step label).runs workflowRunId).committed = some last := by
      rintro state label ⟨guarded, last, lastStored⟩ met
      obtain ⟨next, nextStored, -⟩ := guarded.move label lastStored
      exact ⟨guarded.step label met, next, nextStored⟩
    obtain ⟨-, last, lastStored⟩ :=
      run_invariant RequestState.step _ stays start ⟨guarded, row, stored⟩ labels fresh
    refine ⟨last, lastStored, ?_⟩
    have counted := measure_eq_add_tally RequestState.step _
      (fun state => ((state.runs workflowRunId).committed.map fun row => row.run.version).getD 0)
      stays (fun state label ⟨guarded, last, lastStored⟩ met => by
        obtain ⟨next, nextStored, -, version⟩ := guarded.move label lastStored
        rw [lastStored, nextStored]
        exact version) start ⟨guarded, row, stored⟩ labels fresh
    rw [lastStored, stored] at counted
    exact counted

end NoLostUpdate

/-! ### A lost cancellation -/

/-- The claimant resolves the case of the waiting run, and a supervisor cancels the run. -/
def resolvedAndCancelled : RequestState :=
  contested (openCase.claim (Served.actor ⟨1, { role := "operator", label := "o" }⟩) 1)
    [(1, .decide 5 (.resolve { notes := "ok" })), (3, .cancel 9 {})]

/-- The run is resolved first, and the cancel request finds it running. -/
def cancelledLater : List (Nat × RequestAction) := statements 11 0 ++ statements 8 1

/-- The resolution has read the run when it is cancelled, and flushes it behind the cancel. -/
def cancelledBetween : List (Nat × RequestAction) :=
  statements 6 0 ++ statements 8 1 ++ statements 5 0

/-- A cancel behind the resolution is counted like the resolution. -/
theorem no_lost_update_sequential : NoLostUpdate resolvedAndCancelled 9 cancelledLater :=
  no_lost_update _ _ _ _ _ 9 cancelledLater (by decide +kernel)

/-- The committed state and version of the run. -/
def RequestState.stateAndVersion (state : RequestState) (workflowRunId : UUID) :
    Option (WorkflowRunState × Nat) :=
  (state.runs workflowRunId).committed.map fun row => (row.run.state, row.run.version)

/-- A cancel that commits between the read and the flush of a resolution is lost: the cancelled run
runs again, and two changes of state have counted the version up once. -/
theorem cancellation_lost :
    (run RequestState.step resolvedAndCancelled (statements 6 0 ++ statements 8 1)).stateAndVersion
        9 = some (.cancelled, 4) ∧
      (run RequestState.step resolvedAndCancelled cancelledBetween).stateAndVersion 9 =
        some (.running, 4) ∧
      ¬NoLostUpdate resolvedAndCancelled 9 cancelledBetween := by
  have cancelled : (run RequestState.step resolvedAndCancelled
      (statements 6 0 ++ statements 8 1)).stateAndVersion 9 = some (.cancelled, 4) := by
    decide +kernel
  have resumed : (run RequestState.step resolvedAndCancelled cancelledBetween).stateAndVersion 9 =
      some (.running, 4) := by decide +kernel
  refine ⟨cancelled, resumed, fun kept => ?_⟩
  obtain ⟨row, stored, state⟩ := Option.map_eq_some_iff.mp cancelled
  obtain ⟨cancelledState, -⟩ := Prod.mk.inj state
  obtain ⟨last, lastStored, same⟩ := kept.terminal _ _ rfl row stored (by rw [cancelledState]; rfl)
  rw [RequestState.stateAndVersion, lastStored, Option.map_some, same, cancelledState] at resumed
  cases resumed

end InsuranceOps
