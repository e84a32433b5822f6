/-
This file says which changes to a stored chain the verifier reports. It reads a
thousand events in replay order, so a change to the content of an event is
reported, at its own position, exactly when the event is one of them. It checks
links and hashes only: sequence numbers and step references are in no hash and
nothing anchors the end of the chain, so deletions and renumberings are
reported exactly when the events it reads are no longer, one by one, an initial
segment of the chain.
-/

import InsuranceOps.Acceptance

namespace InsuranceOps

/-! ### Changing one event -/

/-- A stored row and its changed form: the stored hashes and all columns outside the hash are
kept, the hashed bytes are not. -/
structure Tampered (stored changed : AuditEventModel) : Prop where
  auditEventId : changed.auditEventId = stored.auditEventId
  workflowRunId : changed.workflowRunId = stored.workflowRunId
  stepId : changed.stepId = stored.stepId
  stepAttemptId : changed.stepAttemptId = stored.stepAttemptId
  seqInRun : changed.seqInRun = stored.seqInRun
  prevEventHash : changed.prevEventHash = stored.prevEventHash
  eventHash : changed.eventHash = stored.eventHash
  hashedBytes : changed.hashedBytes ≠ stored.hashedBytes

/-- Replacing the payload by one with a different canonical text changes the hashed bytes. -/
theorem tampered_payload (stored : AuditEventModel) (payload : JsonObject)
    (different : canonicalJson payload ≠ canonicalJson stored.payload) :
    Tampered stored { stored with payload := payload } where
  auditEventId := rfl
  workflowRunId := rfl
  stepId := rfl
  stepAttemptId := rfl
  seqInRun := rfl
  prevEventHash := rfl
  eventHash := rfl
  hashedBytes same := by
    simp only [AuditEventModel.hashedBytes, InsuranceOps.hashedBytes, List.append_assoc,
      List.append_cancel_left_eq, List.append_cancel_right_eq] at same
    exact different (utf8_injective same)

/-- Replacing a row by one that agrees with it on a column leaves that column alone. -/
theorem map_set_same {Column : Type} (column : AuditEventModel → Column)
    {rows : List AuditEventModel} {index : Nat} {original changed : AuditEventModel}
    (found : rows[index]? = some original) (same : column changed = column original) :
    (rows.set index changed).map column = rows.map column := by
  obtain ⟨bound, rfl⟩ := List.getElem?_eq_some_iff.mp found
  rw [List.map_set, same]
  refine (congrArg _ (List.getElem_map _).symm).trans (List.set_getElem_self ?_)
  rw [List.length_map]
  exact bound

/-- One event of a run is changed in place, wherever the changed row is now stored, and the
replay order of the rows is kept. -/
structure TamperedAt (events edited : List AuditEventModel) (workflowRunId : UUID) (index : Nat)
    (original changed : AuditEventModel) : Prop where
  found : (eventsOf events workflowRunId)[index]? = some original
  changes : Tampered original changed
  ordered : ((eventsOf events workflowRunId).set index changed).Pairwise ReplayOrder
  stored : (eventsOf edited workflowRunId).Perm
    ((eventsOf events workflowRunId).set index changed)

section Change

variable {events edited : List AuditEventModel} {workflowRunId : UUID} {index : Nat}
  {original changed : AuditEventModel}

/-- A log written with clocks that do not run backwards stays in replay order when a row is changed
that keeps its run, its time and its number. -/
theorem RunChain.replay_set (chain : RunChain (eventsOf events workflowRunId))
    (monotone : ((eventsOf events workflowRunId).map fun event => event.occurredAt).Pairwise
      (· ≤ ·)) (found : (eventsOf events workflowRunId)[index]? = some original)
    (changed : AuditEventModel) (run : changed.workflowRunId = original.workflowRunId)
    (key : (changed.occurredAt, changed.seqInRun) = (original.occurredAt, original.seqInRun)) :
    ((eventsOf events workflowRunId).set index changed).Pairwise ReplayOrder ∧
      eventsOf ((eventsOf events workflowRunId).set index changed) workflowRunId =
        (eventsOf events workflowRunId).set index changed ∧
      Numbered ((eventsOf events workflowRunId).set index changed) := by
  have keys : ((eventsOf events workflowRunId).set index changed).map
      (fun event => (event.occurredAt, event.seqInRun)) =
        (eventsOf events workflowRunId).map fun event => (event.occurredAt, event.seqInRun) :=
    map_set_same _ found key
  have onKeys (rows : List AuditEventModel) : rows.Pairwise ReplayOrder ↔
      (rows.map fun event => (event.occurredAt, event.seqInRun)).Pairwise fun first second =>
        first.1 < second.1 ∨ first.1 = second.1 ∧ first.2 ≤ second.2 := by
    rw [List.pairwise_map]
    exact Iff.rfl
  have runs (event : AuditEventModel)
      (member : event ∈ (eventsOf events workflowRunId).set index changed) :
      event.workflowRunId = workflowRunId := by
    rcases List.mem_or_eq_of_mem_set member with old | new
    · simpa using (List.mem_filter.mp old).2
    · rw [new, run]
      simpa using (List.mem_filter.mp (List.mem_of_getElem? found)).2
  refine ⟨?_, List.filter_eq_self.mpr fun event member => decide_eq_true (runs event member), ?_⟩
  · have sorted := replay_sorted events workflowRunId
    rw [chain.replay_eq monotone] at sorted
    rw [onKeys, keys, ← onKeys]
    exact sorted
  · have numbers : ((eventsOf events workflowRunId).set index changed).map
        (fun event => event.seqInRun) =
          (eventsOf events workflowRunId).map fun event => event.seqInRun :=
      map_set_same _ found (congrArg Prod.snd key)
    rw [Numbered, numbers]
    exact chain.numbered

/-- Replacing a payload in a log written with clocks that do not run backwards is such a
change. -/
theorem RunChain.tamperedAt_payload (chain : RunChain (eventsOf events workflowRunId))
    (monotone : ((eventsOf events workflowRunId).map fun event => event.occurredAt).Pairwise
      (· ≤ ·)) (found : (eventsOf events workflowRunId)[index]? = some original)
    (payload : JsonObject) (different : canonicalJson payload ≠ canonicalJson original.payload) :
    TamperedAt events
      ((eventsOf events workflowRunId).set index { original with payload := payload })
      workflowRunId index original { original with payload := payload } where
  found := found
  changes := tampered_payload original payload different
  ordered := (chain.replay_set monotone found { original with payload := payload } rfl rfl).1
  stored := by
    rw [(chain.replay_set monotone found { original with payload := payload } rfl rfl).2.1]

/-- The verifier reads the rows of the chain in their order, one of them changed. -/
theorem TamperedAt.replay_eq
    (tampered : TamperedAt events edited workflowRunId index original changed)
    (chain : RunChain (eventsOf events workflowRunId)) :
    replay edited workflowRunId = (eventsOf events workflowRunId).set index changed := by
  refine InsuranceOps.replay_eq tampered.stored tampered.ordered ?_
  rw [Numbered, map_set_same _ tampered.found tampered.changes.seqInRun]
  exact chain.numbered

/-- A changed event among the first thousand is reported at its own index. -/
theorem TamperedAt.detected
    (tampered : TamperedAt events edited workflowRunId index original changed)
    (chain : RunChain (eventsOf events workflowRunId)) (read : index < 1000)
    (collisionFree : CollisionFree [original, changed]) :
    (verifyChain edited workflowRunId).isValid = false ∧
      (verifyChain edited workflowRunId).firstMismatchIndex = some index := by
  obtain ⟨bound, rfl⟩ := List.getElem?_eq_some_iff.mp tampered.found
  have listed : listByWorkflowRun edited workflowRunId =
      (eventsOf events workflowRunId).take index ++
        changed ::
          ((eventsOf events workflowRunId).drop (index + 1)).take (1000 - (index + 1)) := by
    rw [listByWorkflowRun, tampered.replay_eq chain, List.set_eq_take_append_cons_drop,
      if_pos bound, List.take_append, List.take_take, List.length_take, min_eq_left bound.le,
      min_eq_right read.le, show 1000 - index = (1000 - (index + 1)) + 1 by omega,
      List.take_succ_cons]
  have before : Intact ((eventsOf events workflowRunId).take index) :=
    chain.intact.initial (List.take_prefix _ _)
  have length : ((eventsOf events workflowRunId).take index).length = index := by
    rw [List.length_take, min_eq_left bound.le]
  have report := verifyChain_mismatch listed before ?_ ?_
  · rwa [length] at report
  · rw [tampered.changes.prevEventHash]
    exact (HashLinked.linkedFrom_iff_getElem _ _ _ _).mp chain.linked index bound
  · intro same
    refine tampered.changes.hashedBytes (collisionFree changed (by simp) _ (by simp) ?_)
    rw [← same, tampered.changes.eventHash]
    exact chain.hashed _ (List.getElem_mem bound)

/-- A changed event beyond the first thousand is not read. -/
theorem TamperedAt.undetected
    (tampered : TamperedAt events edited workflowRunId index original changed)
    (chain : RunChain (eventsOf events workflowRunId)) (unread : 1000 ≤ index) :
    (verifyChain edited workflowRunId).isValid = true := by
  rw [verifyChain_isValid, listByWorkflowRun, tampered.replay_eq chain,
    List.take_set_of_le unread]
  exact chain.intact.initial (List.take_prefix _ _)

end Change

/-- The event at an index passes the link check and the hash check. -/
def PassesAt (rows : List AuditEventModel) (index : Nat) : Prop :=
  ∀ bound : index < rows.length,
    rows[index].prevEventHash =
      HashLinked.tip (fun event => event.eventHash) none (rows.take index) ∧
    rows[index].eventHash = rows[index].expectedHash

theorem intact_iff_passesAt (rows : List AuditEventModel) :
    Intact rows ↔ ∀ index, PassesAt rows index := by
  rw [Intact, HashLinked.linkedFrom_iff_getElem, List.forall_mem_iff_getElem]
  exact ⟨fun both index bound => ⟨both.1 index bound, both.2 index bound⟩,
    fun each => ⟨fun index bound => (each index bound).1, fun index bound => (each index bound).2⟩⟩

/-- The first rows are intact exactly when each of them passes both checks. -/
theorem intact_take_iff (rows : List AuditEventModel) (count : Nat) :
    Intact (rows.take count) ↔ ∀ index < count, PassesAt rows index := by
  rw [intact_iff_passesAt]
  constructor
  · intro each index read bound
    have passes := each index (by rw [List.length_take]; exact lt_min read bound)
    rwa [List.getElem_take, List.take_take, min_eq_left read.le] at passes
  · intro each index bound
    rw [List.length_take] at bound
    have read := lt_of_lt_of_le bound (min_le_left _ _)
    rw [List.getElem_take, List.take_take, min_eq_left read.le]
    exact each index read (lt_of_lt_of_le bound (min_le_right _ _))

/-- A run is sound when the verifier's acceptance means that every event of it passes. -/
def AcceptanceSound (events : List AuditEventModel) (workflowRunId : UUID) : Prop :=
  (verifyChain events workflowRunId).isValid = true →
    ∀ position, PassesAt (replay events workflowRunId) position

/-- The verifier checks the first thousand events, so what it accepts passes throughout when there
are no more, and else when a failing event is among the first or none is behind them. -/
theorem acceptanceSound_iff (events : List AuditEventModel) (workflowRunId : UUID) :
    AcceptanceSound events workflowRunId ↔
      (eventsOf events workflowRunId).length ≤ 1000 ∨
        (∃ position < 1000, ¬PassesAt (replay events workflowRunId) position) ∨
        ∀ position, 1000 ≤ position → PassesAt (replay events workflowRunId) position := by
  have accepted : (verifyChain events workflowRunId).isValid = true ↔
      ∀ position < 1000, PassesAt (replay events workflowRunId) position := by
    rw [verifyChain_isValid, listByWorkflowRun, intact_take_iff]
  unfold AcceptanceSound
  rw [accepted]
  constructor
  · intro sound
    by_cases early : ∀ position < 1000, PassesAt (replay events workflowRunId) position
    · exact .inr (.inr fun position _ => sound early position)
    · push Not at early
      exact .inr (.inl early)
  · rintro (few | ⟨position, read, fails⟩ | late) early other
    · intro bound
      have inside := bound
      rw [(replay_perm events workflowRunId).length_eq] at inside
      exact early other (by omega) bound
    · exact absurd (early position read) fails
    · by_cases read : other < 1000
      · exact early other read
      · exact late other (not_lt.mp read)

/-- Taking the link out of the thousand and first event of a chain breaks it where the verifier
does not read. -/
theorem RunChain.not_acceptanceSound_set {events : List AuditEventModel} {workflowRunId : UUID}
    {original : AuditEventModel} (chain : RunChain (eventsOf events workflowRunId))
    (monotone : ((eventsOf events workflowRunId).map fun event => event.occurredAt).Pairwise
      (· ≤ ·)) (found : (eventsOf events workflowRunId)[1000]? = some original) :
    ¬AcceptanceSound ((eventsOf events workflowRunId).set 1000
      { original with prevEventHash := none }) workflowRunId := by
  obtain ⟨sorted, own, numbered⟩ := chain.replay_set monotone found
    { original with prevEventHash := none } rfl rfl
  have bound := (List.getElem?_eq_some_iff.mp found).1
  have read := InsuranceOps.replay_eq (List.Perm.of_eq own) sorted numbered
  intro sound
  have linked := (sound ?_ 1000 (by rw [read, List.length_set]; exact bound)).1
  · -- the event behind the thousandth has a predecessor, so its link must not be empty
    simp only [read, List.getElem_set_self, List.take_set_of_le le_rfl] at linked
    rw [List.take_succ_eq_append_getElem (Nat.lt_of_succ_lt bound), HashLinked.tip_concat]
      at linked
    exact absurd linked (by simp)
  · rw [verifyChain_isValid, listByWorkflowRun, read, List.take_set_of_le le_rfl]
    exact chain.intact.initial (List.take_prefix _ _)

/-- Any number of appends to one run at one time. -/
def steadyLog (workflowRunId : UUID) (count : Nat) : List (AppendCall × EventDraw) :=
  (List.range count).map fun index =>
    ({ (tickCall 1 0).1 with workflowRunId := workflowRunId }, ⟨BitVec.ofNat 128 index, 0⟩)

theorem callsOn_steadyLog (workflowRunId : UUID) (count : Nat) :
    callsOn workflowRunId (steadyLog workflowRunId count) = steadyLog workflowRunId count := by
  refine List.filter_eq_self.mpr fun call member => ?_
  obtain ⟨index, -, rfl⟩ := List.mem_map.mp member
  exact decide_eq_true rfl

/-- Behind a thousand events a broken link is never read: every larger number of events has a log
that is accepted and fails. -/
theorem exists_unread_failure (workflowRunId : UUID) {count : Nat} (long : 1000 < count) :
    ∃ events, (eventsOf events workflowRunId).length = count ∧
      ¬AcceptanceSound events workflowRunId := by
  have chain := chained_nil.appendAll (steadyLog workflowRunId count) workflowRunId
  have length := eventsOf_appendAll_length (steadyLog workflowRunId count) workflowRunId
  have readings := map_eventsOf_appendAll (fun event => event.occurredAt)
    (fun call => call.2.occurredAt) (fun _ _ => rfl) [] (steadyLog workflowRunId count)
    workflowRunId
  rw [callsOn_steadyLog] at length readings
  replace length := length.trans ((List.length_map _).trans List.length_range)
  have monotone : ((eventsOf (appendAll [] (steadyLog workflowRunId count)) workflowRunId).map
      fun event => event.occurredAt).Pairwise (· ≤ ·) := by
    rw [readings, steadyLog, List.map_map, List.pairwise_append]
    refine ⟨List.Pairwise.nil, ?_, fun _ member => absurd member List.not_mem_nil⟩
    exact List.pairwise_map.mpr (List.pairwise_of_forall fun _ _ => le_rfl)
  have found := List.getElem?_eq_getElem (length.symm ▸ long : 1000 < _)
  obtain ⟨-, own, -⟩ := chain.replay_set monotone found
    { (eventsOf (appendAll [] (steadyLog workflowRunId count)) workflowRunId)[1000] with
      prevEventHash := none } rfl rfl
  exact ⟨_, (congrArg List.length own).trans (List.length_set.trans length),
    chain.not_acceptanceSound_set monotone found⟩

/-- A change to the content of one event of a log is reported at its own index exactly when the
event is among the first thousand. What the verifier accepts passes throughout exactly when the run
has at most a thousand events, one of the first thousand fails, or none behind them does; and a
thousand is the largest number of events of which this can be said without looking at them. -/
theorem verifyChain_localises (calls : List (AppendCall × EventDraw)) (workflowRunId : UUID)
    (edited : List AuditEventModel) (index : Nat) (original changed : AuditEventModel)
    (tampered : TamperedAt (appendAll [] calls) edited workflowRunId index original changed)
    (collisionFree : CollisionFree [original, changed]) (stored : List AuditEventModel)
    (count : Nat) :
    ((verifyChain edited workflowRunId).isValid = false ∧
      (verifyChain edited workflowRunId).firstMismatchIndex = some index ↔ index < 1000) ∧
    (AcceptanceSound stored workflowRunId ↔
      (eventsOf stored workflowRunId).length ≤ 1000 ∨
        (∃ position < 1000, ¬PassesAt (replay stored workflowRunId) position) ∨
        ∀ position, 1000 ≤ position → PassesAt (replay stored workflowRunId) position) ∧
    ((∀ events, (eventsOf events workflowRunId).length = count →
      AcceptanceSound events workflowRunId) ↔ count ≤ 1000) := by
  have chain := chained_nil.appendAll calls workflowRunId
  refine ⟨⟨?_, fun read => tampered.detected chain read collisionFree⟩,
    acceptanceSound_iff stored workflowRunId, fun sound => ?_, fun few events length => ?_⟩
  · rintro ⟨invalid, -⟩
    by_contra unread
    rw [tampered.undetected chain (not_lt.mp unread)] at invalid
    exact absurd invalid (by decide)
  · by_contra long
    obtain ⟨events, length, unsound⟩ := exists_unread_failure workflowRunId (not_le.mp long)
    exact unsound (sound events length)
  · exact (acceptanceSound_iff events workflowRunId).mpr (.inl (length.trans_le few))

/-- Two appends in clock order. -/
def shortLog : List (AppendCall × EventDraw) := [tickCall 1 5, tickCall 2 10]

/-- The second of two events with another payload is reported at its index, and both events of the
log as it was written pass because the verifier accepts it. -/
theorem verifyChain_localises_shortLog :
    (verifyChain ((eventsOf (appendAll [] shortLog) 1).set 1
      { (appendAll [] shortLog)[1] with payload := [("reason", .null)] }) 1).firstMismatchIndex =
        some 1 ∧
    ∀ position, PassesAt (replay (appendAll [] shortLog) 1) position := by
  have localised := verifyChain_localises shortLog 1 _ 1 _ _
    ((chained_nil.appendAll shortLog 1).tamperedAt_payload (by decide +kernel) rfl
      [("reason", .null)] (by decide +kernel)) (by decide +kernel) (appendAll [] shortLog) 2
  exact ⟨(localised.1.mpr (by decide)).2,
    localised.2.1.mpr (.inl (by decide +kernel)) (by decide +kernel)⟩

/-- A thousand and one appends of one run at one time. -/
def longLog : List (AppendCall × EventDraw) :=
  (List.range 1001).map fun index => tickCall (BitVec.ofNat 128 index) 0

theorem callsOn_longLog : callsOn 1 longLog = longLog := by
  refine List.filter_eq_self.mpr fun call member => ?_
  obtain ⟨index, -, rfl⟩ := List.mem_map.mp member
  rfl

theorem nonDecreasing_longLog : NonDecreasing (callsOn 1 longLog) := by
  rw [callsOn_longLog, NonDecreasing, longLog, List.map_map]
  exact List.pairwise_map.mpr (List.pairwise_of_forall fun _ _ => le_rfl)

/-- In a log of more than a thousand events the payload of a later one can be replaced and the
verifier still accepts. -/
theorem verifyChain_accepts_tampered {calls : List (AppendCall × EventDraw)}
    {workflowRunId : UUID} (monotone : NonDecreasing (callsOn workflowRunId calls))
    (long : 1000 < (callsOn workflowRunId calls).length) :
    ∃ edited original changed,
      TamperedAt (appendAll [] calls) edited workflowRunId 1000 original changed ∧
      (verifyChain edited workflowRunId).isValid = true := by
  have chain := chained_nil.appendAll calls workflowRunId
  have readings := map_eventsOf_appendAll (fun event => event.occurredAt)
    (fun call => call.2.occurredAt) (fun _ _ => rfl) [] calls workflowRunId
  have bound : 1000 < (eventsOf (appendAll [] calls) workflowRunId).length := by
    rw [eventsOf_appendAll_length]
    exact long
  obtain ⟨payload, different⟩ : ∃ payload, canonicalJson payload ≠
      canonicalJson (eventsOf (appendAll [] calls) workflowRunId)[1000].payload := by
    by_cases same : canonicalJson (eventsOf (appendAll [] calls) workflowRunId)[1000].payload =
        canonicalJson []
    · exact ⟨[("reason", .null)], by rw [same]; decide⟩
    · exact ⟨[], fun equal => same equal.symm⟩
  have tampered := chain.tamperedAt_payload (by rw [readings]; exact monotone)
    (List.getElem?_eq_getElem bound) payload different
  exact ⟨_, _, _, tampered, tampered.undetected chain le_rfl⟩

/-- The payload of the thousand and first event is replaced and the verifier still accepts. -/
theorem verifyChain_misses_tampering :
    ¬ ∀ (calls : List (AppendCall × EventDraw)) (workflowRunId : UUID),
      NonDecreasing (callsOn workflowRunId calls) →
      ∀ (edited : List AuditEventModel) (index : Nat) (original changed : AuditEventModel),
      TamperedAt (appendAll [] calls) edited workflowRunId index original changed →
      (verifyChain edited workflowRunId).isValid = false ∧
        (verifyChain edited workflowRunId).firstMismatchIndex = some index := by
  intro localised
  have long : 1000 < (callsOn 1 longLog).length := by
    rw [callsOn_longLog, longLog, List.length_map, List.length_range]
    decide
  obtain ⟨edited, original, changed, tampered, accepted⟩ :=
    verifyChain_accepts_tampered nonDecreasing_longLog long
  have report := localised longLog 1 nonDecreasing_longLog edited 1000 original changed tampered
  rw [report.1] at accepted
  exact absurd accepted (by decide)

/-! ### Deleting and renumbering events -/

/-- A run whose events, all of them, pass the verifier's checks in replay order. -/
structure StoredChain (events : List AuditEventModel) (workflowRunId : UUID) : Prop where
  identified : ((eventsOf events workflowRunId).map fun event => event.auditEventId).Nodup
  intact : Intact (replay events workflowRunId)

/-- A stored row with another sequence number or other step references. -/
def Rewritten (stored row : AuditEventModel) : Prop :=
  row = { stored with
    seqInRun := row.seqInRun, stepId := row.stepId, stepAttemptId := row.stepAttemptId }

/-- Every row of the run is a row stored before, possibly rewritten; others may be gone. -/
def EditedFrom (events edited : List AuditEventModel) (workflowRunId : UUID) : Prop :=
  ∀ row ∈ eventsOf edited workflowRunId, ∃ stored ∈ eventsOf events workflowRunId,
    Rewritten stored row

/-- The identifiers of some events, in their order. -/
def identifiers (rows : List AuditEventModel) : List UUID :=
  rows.map fun event => event.auditEventId

/-- The columns the verifier's checks read survive a rewriting. -/
theorem Rewritten.checked {stored row : AuditEventModel} (rewritten : Rewritten stored row) :
    row.auditEventId = stored.auditEventId ∧ row.prevEventHash = stored.prevEventHash ∧
      row.eventHash = stored.eventHash ∧ row.expectedHash = stored.expectedHash := by
  rw [rewritten]
  exact ⟨rfl, rfl, rfl, rfl⟩

section Edit

variable {events edited : List AuditEventModel} {workflowRunId : UUID}

theorem EditedFrom.listed (drawn : EditedFrom events edited workflowRunId) :
    ∀ row ∈ listByWorkflowRun edited workflowRunId,
      ∃ stored ∈ replay events workflowRunId, Rewritten stored row := by
  intro row member
  have stored := (replay_perm edited workflowRunId).mem_iff.mp (List.mem_of_mem_take member)
  obtain ⟨original, originalMember, rewritten⟩ := drawn row stored
  exact ⟨original, (replay_perm events workflowRunId).mem_iff.mpr originalMember, rewritten⟩

theorem StoredChain.replay_identified (chain : StoredChain events workflowRunId) :
    (identifiers (replay events workflowRunId)).Nodup :=
  ((replay_perm events workflowRunId).map _).nodup_iff.mpr chain.identified

/-- If the verifier accepts the edited rows, the events it read are an initial segment of the
chain. -/
theorem EditedFrom.initial_of_intact (drawn : EditedFrom events edited workflowRunId)
    (chain : StoredChain events workflowRunId)
    (collisionFree : CollisionFree (replay events workflowRunId))
    (intact : Intact (listByWorkflowRun edited workflowRunId)) :
    identifiers (listByWorkflowRun edited workflowRunId) <+:
      identifiers (replay events workflowRunId) := by
  have distinct := eventHash_nodup chain.replay_identified chain.intact.2 collisionFree
  have stored := drawn.listed
  obtain ⟨same, bound⟩ := chain.intact.1.eq_take _ _ distinct intact.1 fun row member => by
    obtain ⟨original, originalMember, rewritten⟩ := stored row member
    exact ⟨original, originalMember, rewritten.checked.2.1, rewritten.checked.2.2.1⟩
  refine List.prefix_iff_eq_take.mpr ?_
  rw [identifiers, identifiers, List.length_map, ← List.map_take]
  refine List.ext_getElem (by simpa using bound) fun index readBound segmentBound => ?_
  rw [List.length_map] at readBound segmentBound
  obtain ⟨original, originalMember, rewritten⟩ := stored _ (List.getElem_mem readBound)
  have digest := congrArg (fun hashes => hashes[index]?) same
  simp only [List.getElem?_map, List.getElem?_eq_getElem readBound,
    List.getElem?_eq_getElem segmentBound, Option.map_some, Option.some_inj] at digest
  rw [List.getElem_map, List.getElem_map, rewritten.checked.1]
  rw [rewritten.checked.2.2.1] at digest
  exact congrArg _ (List.inj_on_of_nodup_map distinct originalMember
    (List.mem_of_mem_take (List.getElem_mem segmentBound)) digest)

/-- Rows that are, by their identifiers, an initial segment of the chain pass all checks. -/
theorem EditedFrom.intact_of_initial (drawn : EditedFrom events edited workflowRunId)
    (chain : StoredChain events workflowRunId)
    (initial : identifiers (listByWorkflowRun edited workflowRunId) <+:
      identifiers (replay events workflowRunId)) :
    Intact (listByWorkflowRun edited workflowRunId) := by
  have stored := drawn.listed
  have bound := initial.length_le
  rw [identifiers, identifiers, List.length_map, List.length_map] at bound
  have original (index : Nat) (read : index < (listByWorkflowRun edited workflowRunId).length)
      (chainRead : index < (replay events workflowRunId).length) :
      Rewritten (replay events workflowRunId)[index]
        (listByWorkflowRun edited workflowRunId)[index] := by
    obtain ⟨row, member, rewritten⟩ := stored _ (List.getElem_mem read)
    have same := initial.getElem (show index < (identifiers _).length by
      rw [identifiers, List.length_map]; exact read)
    simp only [identifiers, List.getElem_map, rewritten.checked.1] at same
    rwa [List.inj_on_of_nodup_map chain.replay_identified member (List.getElem_mem chainRead) same]
      at rewritten
  refine ⟨chain.intact.1.of_initial _ _ (List.prefix_iff_eq_take.mpr ?_), ?_⟩
  · rw [List.length_map, ← List.map_take]
    refine List.ext_getElem (by simpa using bound) fun index readBound segmentBound => ?_
    rw [List.length_map] at readBound
    have checked := (original index readBound (readBound.trans_le bound)).checked
    rw [List.getElem_map, List.getElem_map, List.getElem_take, checked.2.1, checked.2.2.1]
  · intro row member
    obtain ⟨index, read, rfl⟩ := List.getElem_of_mem member
    have checked := (original index read (read.trans_le bound)).checked
    rw [checked.2.2.1, checked.2.2.2]
    exact chain.intact.2 _ (List.getElem_mem _)

end Edit

/-- Deletions and rewritings of a stored chain are reported exactly when the events the verifier
reads are not, by their identifiers, an initial segment of the chain. A kept event still holds its
predecessor's hash, so the links that are read fit exactly where nothing is missing in front of one
of them. -/
theorem verifyChain_edited_iff (events edited : List AuditEventModel) (workflowRunId : UUID)
    (chain : StoredChain events workflowRunId) (drawn : EditedFrom events edited workflowRunId)
    (collisionFree : CollisionFree (replay events workflowRunId)) :
    (verifyChain edited workflowRunId).isValid = false ↔
      ¬ identifiers (listByWorkflowRun edited workflowRunId) <+:
        identifiers (replay events workflowRunId) := by
  rw [← Bool.not_eq_true, verifyChain_isValid, not_iff_not]
  exact ⟨drawn.initial_of_intact chain collisionFree, drawn.intact_of_initial chain⟩

/-- Deleting the end of a chain, all of it included, is never reported. -/
theorem verifyChain_truncated (events : List AuditEventModel) (workflowRunId : UUID)
    (chain : StoredChain events workflowRunId) (kept : Nat) :
    (verifyChain ((replay events workflowRunId).take kept) workflowRunId).isValid = true := by
  have own : eventsOf ((replay events workflowRunId).take kept) workflowRunId =
      (replay events workflowRunId).take kept := by
    refine List.filter_eq_self.mpr fun event member => ?_
    exact (List.mem_filter.mp ((replay_perm events workflowRunId).mem_iff.mp
      (List.mem_of_mem_take member))).2
  have listed : listByWorkflowRun ((replay events workflowRunId).take kept) workflowRunId =
      ((replay events workflowRunId).take kept).take 1000 := by
    rw [listByWorkflowRun, replay, own, List.Pairwise.insertionSort_eq
      ((replay_sorted events workflowRunId).sublist (List.take_sublist _ _))]
  rw [verifyChain_isValid, listed, List.take_take]
  exact chain.intact.initial (List.take_prefix _ _)

/-- Rewriting step references alone is never reported. -/
theorem verifyChain_reattributed (events : List AuditEventModel) (workflowRunId : UUID)
    (chain : StoredChain events workflowRunId)
    (stepId stepAttemptId : AuditEventModel → Option UUID) :
    (verifyChain (events.map fun event =>
      { event with stepId := stepId event, stepAttemptId := stepAttemptId event })
      workflowRunId).isValid = true := by
  let rewrite (event : AuditEventModel) : AuditEventModel :=
    { event with stepId := stepId event, stepAttemptId := stepAttemptId event }
  have own : eventsOf (events.map rewrite) workflowRunId =
      (eventsOf events workflowRunId).map rewrite := by
    rw [eventsOf, List.filter_map]
    rfl
  have drawn : EditedFrom events (events.map rewrite) workflowRunId := by
    intro row member
    rw [own] at member
    obtain ⟨stored, storedMember, rfl⟩ := List.mem_map.mp member
    exact ⟨stored, storedMember, rfl⟩
  have replayed : replay (events.map rewrite) workflowRunId =
      (replay events workflowRunId).map rewrite := by
    rw [replay, own]
    exact (List.map_insertionSort ReplayOrder ReplayOrder rewrite _
      fun _ _ _ _ => Iff.rfl).symm
  refine (verifyChain_isValid _ _).mpr (drawn.intact_of_initial chain ?_)
  rw [listByWorkflowRun, replayed, ← List.map_take, identifiers, List.map_map]
  exact (List.take_prefix _ _).map _

/-- A deletion is reported when the verifier still reads an event that came after the deleted
one. -/
theorem verifyChain_gap (events edited : List AuditEventModel) (workflowRunId : UUID)
    (chain : StoredChain events workflowRunId) (drawn : EditedFrom events edited workflowRunId)
    (collisionFree : CollisionFree (replay events workflowRunId)) {deleted later : Nat}
    (before : deleted < later)
    (bound : deleted < (identifiers (replay events workflowRunId)).length)
    (laterBound : later < (identifiers (replay events workflowRunId)).length)
    (gone : (identifiers (replay events workflowRunId))[deleted] ∉
      identifiers (eventsOf edited workflowRunId))
    (read : (identifiers (replay events workflowRunId))[later] ∈
      identifiers (listByWorkflowRun edited workflowRunId)) :
    (verifyChain edited workflowRunId).isValid = false := by
  rw [← Bool.not_eq_true, verifyChain_isValid]
  intro intact
  have initial := drawn.initial_of_intact chain collisionFree intact
  obtain ⟨position, positionBound, same⟩ := List.getElem_of_mem read
  have place := initial.getElem positionBound
  rw [same] at place
  have equal : later = position :=
    (List.Nodup.getElem_inj_iff chain.replay_identified).mp place
  subst equal
  have kept := initial.getElem (before.trans positionBound)
  refine gone ?_
  rw [← kept]
  have listed := List.getElem_mem (before.trans positionBound)
  obtain ⟨row, member, identifier⟩ := List.mem_map.mp listed
  rw [← identifier]
  exact List.mem_map_of_mem ((replay_perm edited workflowRunId).mem_iff.mp
    (List.mem_of_mem_take member))

/-- What is written with clocks that do not run backwards is such a chain. -/
theorem storedChain_appendAll {calls : List (AppendCall × EventDraw)} {workflowRunId : UUID}
    (monotone : NonDecreasing (callsOn workflowRunId calls))
    (identified : ((callsOn workflowRunId calls).map fun call => call.2.auditEventId).Nodup) :
    StoredChain (appendAll [] calls) workflowRunId := by
  have chain := chained_nil.appendAll calls workflowRunId
  have readings := map_eventsOf_appendAll (fun event => event.occurredAt)
    (fun call => call.2.occurredAt) (fun _ _ => rfl) [] calls workflowRunId
  have ids := map_eventsOf_appendAll (fun event => event.auditEventId)
    (fun call => call.2.auditEventId) (fun _ _ => rfl) [] calls workflowRunId
  refine ⟨by rw [ids]; exact identified, ?_⟩
  rw [chain.replay_eq (by rw [readings]; exact monotone)]
  exact chain.intact

theorem storedChain_shortLog : StoredChain (appendAll [] shortLog) 1 :=
  storedChain_appendAll (by decide +kernel) (by decide)

theorem collisionFree_shortLog : CollisionFree (replay (appendAll [] shortLog) 1) := by
  decide +kernel

/-- Some rows of a log, unchanged, are drawn from it. -/
theorem editedFrom_of_subset {events edited : List AuditEventModel} (workflowRunId : UUID)
    (subset : edited ⊆ events) : EditedFrom events edited workflowRunId := by
  intro row member
  obtain ⟨stored, own⟩ := List.mem_filter.mp member
  exact ⟨row, List.mem_filter.mpr ⟨subset stored, own⟩, rfl⟩

/-- Deleting the first of two events is reported. -/
theorem verifyChain_edited_iff_shortLog :
    (verifyChain ((appendAll [] shortLog).drop 1) 1).isValid = false :=
  (verifyChain_edited_iff (appendAll [] shortLog) _ 1 storedChain_shortLog
    (editedFrom_of_subset 1 (List.drop_subset 1 _)) collisionFree_shortLog).mpr
    (by decide +kernel)

/-- Deleting the last of two events is not. -/
theorem verifyChain_misses_truncation :
    ¬ ∀ (events edited : List AuditEventModel) (workflowRunId : UUID),
      StoredChain events workflowRunId → EditedFrom events edited workflowRunId →
      CollisionFree (replay events workflowRunId) →
      ¬ (eventsOf edited workflowRunId).Perm (eventsOf events workflowRunId) →
      (verifyChain edited workflowRunId).isValid = false := by
  intro reported
  have missed := verifyChain_truncated _ _ storedChain_shortLog 1
  rw [reported (appendAll [] shortLog) _ 1 storedChain_shortLog
    (editedFrom_of_subset 1 fun event member =>
      (List.mem_filter.mp ((replay_perm _ _).mem_iff.mp (List.mem_of_mem_take member))).1)
    collisionFree_shortLog fun perm => absurd perm.length_eq (by decide +kernel)] at missed
  exact absurd missed (by decide)

end InsuranceOps
