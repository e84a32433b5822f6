/-
This file models the audit verifier: the query that reads a run's events in
replay order, at most a thousand of them, and the walk that checks each
event's link and hash and stops at the first mismatch. The verifier answers
that a run is valid exactly when the events it read are linked from nothing
and carry the hashes of their contents.
-/

import InsuranceOps.Audit

namespace InsuranceOps

/-! ### Reading -/

/-- The order the verifier reads events in: by `occurred_at`, then by `seq_in_run`. -/
def ReplayOrder (first second : AuditEventModel) : Prop :=
  first.occurredAt < second.occurredAt ∨
    first.occurredAt = second.occurredAt ∧ first.seqInRun ≤ second.seqInRun

instance : DecidableRel ReplayOrder := fun _ _ => inferInstanceAs (Decidable (_ ∨ _))

/-- All events of a run, in replay order. -/
def replay (events : List AuditEventModel) (workflowRunId : UUID) : List AuditEventModel :=
  (eventsOf events workflowRunId).insertionSort ReplayOrder

/-- List audit events for a workflow run in replay order. -/
def listByWorkflowRun (events : List AuditEventModel) (workflowRunId : UUID)
    (limit : Nat := 1000) : List AuditEventModel :=
  (replay events workflowRunId).take limit

instance : Std.Total ReplayOrder where
  total first second := by
    rcases lt_trichotomy first.occurredAt second.occurredAt with before | same | after
    · exact .inl (.inl before)
    · rcases le_total first.seqInRun second.seqInRun with below | above
      · exact .inl (.inr ⟨same, below⟩)
      · exact .inr (.inr ⟨same.symm, above⟩)
    · exact .inr (.inl after)

instance : IsTrans AuditEventModel ReplayOrder where
  trans first second third := by
    rintro (before | ⟨same, below⟩) (beforeNext | ⟨sameNext, belowNext⟩)
    · exact .inl (before.trans beforeNext)
    · exact .inl (sameNext ▸ before)
    · exact .inl (same ▸ beforeNext)
    · exact .inr ⟨same.trans sameNext, below.trans belowNext⟩

/-- Rows no two of which share a sequence number. -/
def Numbered (rows : List AuditEventModel) : Prop :=
  (rows.map fun event => event.seqInRun).Nodup

theorem replay_perm (events : List AuditEventModel) (workflowRunId : UUID) :
    (replay events workflowRunId).Perm (eventsOf events workflowRunId) :=
  List.perm_insertionSort _ _

theorem replay_sorted (events : List AuditEventModel) (workflowRunId : UUID) :
    (replay events workflowRunId).Pairwise ReplayOrder :=
  List.pairwise_insertionSort _ _

/-- The replay order of a run is the one sorted arrangement of its rows, wherever they are
stored. -/
theorem replay_eq {events rows : List AuditEventModel} {workflowRunId : UUID}
    (same : (eventsOf events workflowRunId).Perm rows) (sorted : rows.Pairwise ReplayOrder)
    (numbered : Numbered rows) : replay events workflowRunId = rows := by
  have perm := (replay_perm events workflowRunId).trans same
  refine List.Perm.eq_of_pairwise (fun first second firstMember secondMember => ?_)
    (replay_sorted events workflowRunId) sorted perm
  intro forward backward
  refine List.inj_on_of_nodup_map numbered (perm.mem_iff.mp firstMember) secondMember ?_
  rcases forward with before | ⟨_, below⟩
  · rcases backward with after | ⟨equal, _⟩
    · exact absurd after before.not_gt
    · exact absurd equal before.ne'
  · rcases backward with after | ⟨_, above⟩
    · rename_i equal
      exact absurd equal after.ne'
    · exact le_antisymm below above

/-! ### Verifying -/

/-- Result of chain verification. -/
structure VerificationResult where
  isValid : Bool
  firstMismatchIndex : Option Nat := none
  detail : Option String := none
  deriving DecidableEq

/-- The walk over the events: the index and the report of the first mismatch. -/
def firstMismatch : Nat → Option Digest → List AuditEventModel → Option (Nat × String)
  | _, _, [] => none
  | index, prevEventHash, event :: rest =>
    if event.prevEventHash ≠ prevEventHash then
      some (index, s!"Event at index {index} (seq_in_run={event.seqInRun}): " ++
        "prev_event_hash does not match previous event's event_hash")
    else if event.eventHash ≠ event.expectedHash then
      some (index, s!"Event at index {index} (seq_in_run={event.seqInRun}): " ++
        "computed event_hash does not match stored value")
    else firstMismatch (index + 1) (some event.eventHash) rest

/-- Verify the integrity of the audit event chain for a workflow run. -/
def verifyChain (events : List AuditEventModel) (workflowRunId : UUID) : VerificationResult :=
  let listed := listByWorkflowRun events workflowRunId
  if listed = [] then { isValid := true, detail := some "No events in chain" }
  else match firstMismatch 0 none listed with
    | some (index, detail) =>
      { isValid := false, firstMismatchIndex := some index, detail := some detail }
    | none => { isValid := true, detail := some s!"All {listed.length} events verified" }

/-! ### What the verifier checks -/

/-- Every row is linked to the one before it, the first one to nothing, and carries the hash of
its content. -/
def Intact (rows : List AuditEventModel) : Prop :=
  HashLinked.LinkedFrom (fun event => event.prevEventHash) (fun event => event.eventHash) none
    rows ∧ ∀ event ∈ rows, event.eventHash = event.expectedHash

theorem RunChain.intact {rows : List AuditEventModel} (chain : RunChain rows) : Intact rows :=
  ⟨chain.linked, chain.hashed⟩

theorem RunChain.numbered {rows : List AuditEventModel} (chain : RunChain rows) :
    Numbered rows := by
  rw [Numbered, chain.sequenced]
  exact List.nodup_range.map fun first second same => by simpa using same

theorem Intact.initial {rows segment : List AuditEventModel} (intact : Intact rows)
    (cut : segment <+: rows) : Intact segment :=
  ⟨intact.1.initial _ _ cut, fun event member => intact.2 event (cut.subset member)⟩

theorem firstMismatch_append (index : Nat) (prevEventHash : Option Digest)
    (first second : List AuditEventModel) :
    firstMismatch index prevEventHash (first ++ second) =
      (firstMismatch index prevEventHash first).or
        (firstMismatch (index + first.length)
          (HashLinked.tip (fun event => event.eventHash) prevEventHash first) second) := by
  induction first generalizing index prevEventHash with
  | nil => rfl
  | cons event rest inductionHypothesis =>
    rw [List.cons_append, firstMismatch, firstMismatch]
    split
    · rfl
    · split
      · rfl
      · rw [inductionHypothesis, List.length_cons, Nat.add_right_comm, Nat.add_assoc]
        rfl

/-- The walk finds no mismatch exactly when every link and every hash is right. -/
theorem firstMismatch_eq_none (index : Nat) (prevEventHash : Option Digest)
    (rows : List AuditEventModel) :
    firstMismatch index prevEventHash rows = none ↔
      HashLinked.LinkedFrom (fun event => event.prevEventHash) (fun event => event.eventHash)
        prevEventHash rows ∧ ∀ event ∈ rows, event.eventHash = event.expectedHash := by
  induction rows generalizing index prevEventHash with
  | nil => simp [firstMismatch, HashLinked.LinkedFrom]
  | cons event rest inductionHypothesis =>
    rw [firstMismatch, HashLinked.LinkedFrom, List.forall_mem_cons]
    by_cases link : event.prevEventHash = prevEventHash
    · rw [if_neg (not_not.mpr link)]
      by_cases hash : event.eventHash = event.expectedHash
      · rw [if_neg (not_not.mpr hash), inductionHypothesis]
        exact ⟨fun both => ⟨⟨link, both.1⟩, hash, both.2⟩, fun all => ⟨all.1.2, all.2.2⟩⟩
      · rw [if_pos hash]
        exact ⟨fun none => absurd none (Option.some_ne_none _), fun all => absurd all.2.1 hash⟩
    · rw [if_pos link]
      exact ⟨fun none => absurd none (Option.some_ne_none _), fun all => absurd all.1.1 link⟩

/-- The verifier answers that a run is valid exactly when the events it read are intact. -/
theorem verifyChain_isValid (events : List AuditEventModel) (workflowRunId : UUID) :
    (verifyChain events workflowRunId).isValid = true ↔
      Intact (listByWorkflowRun events workflowRunId) := by
  unfold verifyChain Intact
  rw [← firstMismatch_eq_none 0]
  by_cases empty : listByWorkflowRun events workflowRunId = []
  · simp only [empty, if_true, firstMismatch]
  · simp only [if_neg empty]
    cases firstMismatch 0 none (listByWorkflowRun events workflowRunId) with
    | none => simp
    | some found => simp

/-- A row whose stored hash is not that of its content is reported, when the rows before it are
intact and it still links to them. -/
theorem verifyChain_mismatch {events : List AuditEventModel} {workflowRunId : UUID}
    {before after : List AuditEventModel} {event : AuditEventModel}
    (listed : listByWorkflowRun events workflowRunId = before ++ event :: after)
    (intact : Intact before)
    (link : event.prevEventHash =
      HashLinked.tip (fun event => event.eventHash) none before)
    (hash : event.eventHash ≠ event.expectedHash) :
    (verifyChain events workflowRunId).isValid = false ∧
      (verifyChain events workflowRunId).firstMismatchIndex = some before.length := by
  have walked := firstMismatch_append 0 none before (event :: after)
  rw [(firstMismatch_eq_none 0 none before).mpr intact, Option.none_or, firstMismatch,
    if_neg (not_not.mpr link), if_pos hash, Nat.zero_add] at walked
  unfold verifyChain
  rw [listed]
  simp only [if_neg (List.append_ne_nil_of_right_ne_nil before (List.cons_ne_nil event after)),
    walked, and_self]

end InsuranceOps
