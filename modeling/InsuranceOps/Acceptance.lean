/-
This file relates what `append_audit_event` writes to what the verifier
accepts. The writer numbers a run's events in the order they are written; the
verifier reads them by `occurred_at` first. For a run of at most a thousand
events the verifier therefore accepts a log just as it was written whenever
the clock readings do not decrease along the run, and only then.
-/

import InsuranceOps.Verifier

namespace InsuranceOps

/-! ### Logs -/

/-- The rows a sequence of calls writes, on any runs and in the order they commit. -/
def appendAll (events : List AuditEventModel) (calls : List (AppendCall × EventDraw)) :
    List AuditEventModel :=
  calls.foldl (fun events call => appendAuditEvent events call.1 call.2) events

/-- The calls on one run. -/
def callsOn (workflowRunId : UUID) (calls : List (AppendCall × EventDraw)) :
    List (AppendCall × EventDraw) :=
  calls.filter fun call => call.1.workflowRunId = workflowRunId

/-- The clock readings of some calls do not decrease. -/
def NonDecreasing (calls : List (AppendCall × EventDraw)) : Prop :=
  (calls.map fun call => call.2.occurredAt).Pairwise (· ≤ ·)

instance (calls : List (AppendCall × EventDraw)) : Decidable (NonDecreasing calls) :=
  inferInstanceAs (Decidable (List.Pairwise _ _))

theorem Chained.appendAll {events : List AuditEventModel} (chained : Chained events)
    (calls : List (AppendCall × EventDraw)) : Chained (appendAll events calls) :=
  List.foldlRecOn calls _ chained fun _ holds call _ => holds.appendAuditEvent call.1 call.2

/-- A column every event takes from its call alone lists, for one run, what the calls on that
run say. -/
theorem map_eventsOf_appendAll {Column : Type} (column : AuditEventModel → Column)
    (ofCall : AppendCall × EventDraw → Column)
    (reads : ∀ latest call, column (nextAuditEvent latest call.1 call.2) = ofCall call)
    (events : List AuditEventModel) (calls : List (AppendCall × EventDraw))
    (workflowRunId : UUID) :
    (eventsOf (appendAll events calls) workflowRunId).map column =
      (eventsOf events workflowRunId).map column ++ (callsOn workflowRunId calls).map ofCall := by
  induction calls generalizing events with
  | nil => exact (List.append_nil _).symm
  | cons call rest inductionHypothesis =>
    refine (inductionHypothesis (appendAuditEvent events call.1 call.2)).trans ?_
    rw [appendAuditEvent, eventsOf_append, List.map_append, List.append_assoc]
    refine congrArg _ ?_
    by_cases same : call.1.workflowRunId = workflowRunId
    · have calls : callsOn workflowRunId (call :: rest) = call :: callsOn workflowRunId rest :=
        List.filter_cons_of_pos (by simpa using same)
      have own : eventsOf [nextAuditEvent (getLatestForRun events call.1.workflowRunId) call.1
          call.2] workflowRunId = [nextAuditEvent (getLatestForRun events call.1.workflowRunId)
          call.1 call.2] := same ▸ eventsOf_singleton_self _
      rw [own, calls, List.map_singleton, reads]
      rfl
    · have calls : callsOn workflowRunId (call :: rest) = callsOn workflowRunId rest :=
        List.filter_cons_of_neg (by simpa using same)
      rw [eventsOf_singleton_of_ne same, calls]
      rfl

theorem eventsOf_appendAll_length (calls : List (AppendCall × EventDraw)) (workflowRunId : UUID) :
    (eventsOf (appendAll [] calls) workflowRunId).length =
      (callsOn workflowRunId calls).length := by
  have lengths := congrArg List.length (map_eventsOf_appendAll (fun _ => ()) (fun _ => ())
    (fun _ _ => rfl) [] calls workflowRunId)
  simpa [eventsOf] using lengths

/-! ### Distinct hashes -/

/-- No two different contents among the rows have the same SHA-256 hash. -/
def CollisionFree (rows : List AuditEventModel) : Prop :=
  ∀ first ∈ rows, ∀ second ∈ rows, first.expectedHash = second.expectedHash →
    first.hashedBytes = second.hashedBytes

instance (rows : List AuditEventModel) : Decidable (CollisionFree rows) :=
  List.decidableBAll _ rows

/-- Rows with distinct identifiers and right hashes have distinct hashes, as long as SHA-256
does not collide on them. -/
theorem eventHash_nodup {rows : List AuditEventModel}
    (identified : (rows.map fun event => event.auditEventId).Nodup)
    (hashed : ∀ event ∈ rows, event.eventHash = event.expectedHash)
    (collisionFree : CollisionFree rows) :
    (rows.map fun event => event.eventHash).Nodup := by
  have rowsNodup : rows.Nodup := List.Nodup.of_map _ identified
  refine (List.nodup_map_iff_inj_on rowsNodup).mpr fun first firstMember second secondMember same =>
    List.inj_on_of_nodup_map identified firstMember secondMember ?_
  rw [hashed first firstMember, hashed second secondMember] at same
  exact AuditEventModel.hashedBytes_auditEventId
    (collisionFree first firstMember second secondMember same)

/-! ### Acceptance -/

/-- Written with clocks that do not run backwards, a run's rows are in replay order. -/
theorem RunChain.replay_eq {events : List AuditEventModel} {workflowRunId : UUID}
    (chain : RunChain (eventsOf events workflowRunId))
    (monotone : ((eventsOf events workflowRunId).map fun event => event.occurredAt).Pairwise
      (· ≤ ·)) : replay events workflowRunId = eventsOf events workflowRunId := by
  refine InsuranceOps.replay_eq (List.Perm.refl _) ?_ chain.numbered
  refine List.pairwise_iff_getElem.mpr fun first second firstBound secondBound before => ?_
  have readings := List.pairwise_iff_getElem.mp monotone first second
    (by rwa [List.length_map]) (by rwa [List.length_map]) before
  rw [List.getElem_map, List.getElem_map] at readings
  rcases readings.lt_or_eq with earlier | same
  · exact .inl earlier
  · refine .inr ⟨same, ?_⟩
    rw [chain.seqInRun_getElem first firstBound, chain.seqInRun_getElem second secondBound]
    omega

/-- The verifier accepts at most a thousand events written with clocks that do not run
backwards. -/
theorem verifyChain_of_nonDecreasing {calls : List (AppendCall × EventDraw)}
    {workflowRunId : UUID} (few : (callsOn workflowRunId calls).length ≤ 1000)
    (monotone : NonDecreasing (callsOn workflowRunId calls)) :
    (verifyChain (appendAll [] calls) workflowRunId).isValid = true := by
  have chain := chained_nil.appendAll calls workflowRunId
  have readings := map_eventsOf_appendAll (fun event => event.occurredAt)
    (fun call => call.2.occurredAt) (fun _ _ => rfl) [] calls workflowRunId
  rw [verifyChain_isValid, listByWorkflowRun, chain.replay_eq (by rw [readings]; exact monotone),
    List.take_of_length_le (by rw [eventsOf_appendAll_length]; exact few)]
  exact chain.intact

/-- If the verifier accepts a chain it read whole, it read the chain in the order it was
written. -/
theorem RunChain.replay_eq_of_intact {events : List AuditEventModel} {workflowRunId : UUID}
    (chain : RunChain (eventsOf events workflowRunId))
    (distinct : ((eventsOf events workflowRunId).map fun event => event.eventHash).Nodup)
    (intact : Intact (replay events workflowRunId)) :
    replay events workflowRunId = eventsOf events workflowRunId := by
  have perm := replay_perm events workflowRunId
  have same := (chain.linked.eq_take _ _ distinct intact.1
    fun event member => ⟨event, perm.mem_iff.mp member, rfl, rfl⟩).1
  rw [perm.length_eq, List.take_length] at same
  refine List.ext_getElem perm.length_eq fun index bound chainBound => ?_
  refine List.inj_on_of_nodup_map distinct (perm.mem_iff.mp (List.getElem_mem bound))
    (List.getElem_mem chainBound) ?_
  have read := congrArg (fun hashes => hashes[index]?) same
  simpa [bound, chainBound] using read

/-- The verifier accepts the at most thousand events of a run just as they were written exactly when
the clock readings of the run's appends do not decrease. A reading that goes back gives the replay
another order than that of the links, and as the hashes all differ only one order passes. -/
theorem verifyChain_appendAll_iff (calls : List (AppendCall × EventDraw)) (workflowRunId : UUID)
    (few : (callsOn workflowRunId calls).length ≤ 1000)
    (identified : ((callsOn workflowRunId calls).map fun call => call.2.auditEventId).Nodup)
    (collisionFree : CollisionFree (eventsOf (appendAll [] calls) workflowRunId)) :
    (verifyChain (appendAll [] calls) workflowRunId).isValid = true ↔
      NonDecreasing (callsOn workflowRunId calls) := by
  refine ⟨fun valid => ?_, verifyChain_of_nonDecreasing few⟩
  have chain := chained_nil.appendAll calls workflowRunId
  have identifiers := map_eventsOf_appendAll (fun event => event.auditEventId)
    (fun call => call.2.auditEventId) (fun _ _ => rfl) [] calls workflowRunId
  have readings := map_eventsOf_appendAll (fun event => event.occurredAt)
    (fun call => call.2.occurredAt) (fun _ _ => rfl) [] calls workflowRunId
  have distinct := eventHash_nodup (by rw [identifiers]; exact identified) chain.hashed
    collisionFree
  have whole : listByWorkflowRun (appendAll [] calls) workflowRunId =
      replay (appendAll [] calls) workflowRunId := by
    refine List.take_of_length_le ?_
    rw [(replay_perm _ _).length_eq, eventsOf_appendAll_length]
    exact few
  rw [verifyChain_isValid, whole] at valid
  have sorted := replay_sorted (appendAll [] calls) workflowRunId
  rw [chain.replay_eq_of_intact distinct valid] at sorted
  unfold NonDecreasing
  rw [← List.nil_append (List.map _ _)]
  refine readings ▸ List.pairwise_map.mpr (sorted.imp fun ordered => ?_)
  rcases ordered with earlier | ⟨same, _⟩
  · exact earlier.le
  · exact same.le

/-! ### A clock that runs backwards -/

/-- A call with the given clock reading; only the identifier and the reading vary. -/
def tickCall (auditEventId : UUID) (occurredAt : Timestamp) : AppendCall × EventDraw :=
  (⟨1, "workflow_run.started", "api_key:operator:1", [], none, none⟩,
    ⟨auditEventId, occurredAt⟩)

/-- Two appends whose clocks agree on the order are accepted. -/
theorem verifyChain_appendAll_iff_forward :
    (verifyChain (appendAll [] [tickCall 1 5, tickCall 2 10]) 1).isValid = true :=
  (verifyChain_appendAll_iff [tickCall 1 5, tickCall 2 10] 1 (by decide) (by decide)
    (by decide +kernel)).mpr (by decide +kernel)

/-- Two appends of two processes whose clocks disagree: the second reads an earlier time, so the
verifier reads it first and misses the link. -/
theorem verifyChain_rejects_backward_clock :
    ¬ ∀ (calls : List (AppendCall × EventDraw)) (workflowRunId : UUID),
      (callsOn workflowRunId calls).length ≤ 1000 →
      ((callsOn workflowRunId calls).map fun call => call.2.auditEventId).Nodup →
      (verifyChain (appendAll [] calls) workflowRunId).isValid = true := by
  intro accepted
  exact absurd (accepted [tickCall 1 10, tickCall 2 5] 1 (by decide) (by decide))
    (by decide +kernel)

end InsuranceOps
