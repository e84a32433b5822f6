/-
This file shows when the escalation cases are paged without gaps. The cursor of
a page is the time its last case was created at, and the next page holds the
cases created later. So a case is passed over exactly where a page ends between
two cases created at one time.
-/

import InsuranceOps.EventPages

namespace InsuranceOps

/-- What `ORDER BY created_at` promises: the rows, in the order of their times of creation. -/
structure OrdersByCreatedAt (orderBy : List EscalationCaseModel → List EscalationCaseModel) :
    Prop where
  perm : ∀ rows, (orderBy rows).Perm rows
  ordered : ∀ rows, Keyset.Ordered EscalationCaseModel.createdAt (orderBy rows)

section Cases

variable (fromisoformat : String → Option Timestamp)
  (orderByCreatedAt : Nat → List EscalationCaseModel → List EscalationCaseModel)
  (contents : Contents) (state workflowName : Option String) (limit : Nat)

/-- A client that follows the cursors to the last page is given every matching case exactly once. -/
def CasesListed : Prop :=
  ∃ requests last read,
    Keyset.follow (casePages fromisoformat orderByCreatedAt contents state workflowName limit)
      requests = .ended last read ∧
      read.Perm (matchingCases contents state workflowName)

/-- No page ends between two matching cases that were created at one time. -/
def PagesEndApart : Prop :=
  ∀ page, 0 < page → page * limit < (matchingCases contents state workflowName).length →
    Keyset.Untied EscalationCaseModel.createdAt (matchingCases contents state workflowName)
      (page * limit)

theorem caseCursor_ne_empty (row : EscalationCaseModel) : caseCursor row ≠ "" := by
  intro empty
  have chars := congrArg String.toList empty
  rw [caseCursor, String.toList_ofList] at chars
  unfold isoformat at chars
  simp at chars

variable {fromisoformat orderByCreatedAt contents limit}

/-- A request with the cursor of a case is answered by the cases created later. -/
theorem casePages_serves (ordered : ∀ request, OrdersByCreatedAt (orderByCreatedAt request))
    (inverse : ∀ row ∈ contents.escalationCases,
      fromisoformat (caseCursor row) = some row.createdAt) (positive : 1 ≤ limit) :
    Keyset.Serves EscalationCaseModel.createdAt
      (casePages fromisoformat orderByCreatedAt contents state workflowName limit)
      (fun _ => matchingCases contents state workflowName) caseCursor fun _ => limit where
  positive _ := positive
  answers := by
    intro request last stored
    have read : readCursor fromisoformat (last.map caseCursor) =
        .ok (last.map EscalationCaseModel.createdAt) := by
      refine readCursor_map fun row same => ⟨caseCursor_ne_empty row, inverse row ?_⟩
      exact (List.mem_filter.mp (stored row same)).1
    have query : ((matchingCases contents state workflowName).filter fun row =>
        (last.map EscalationCaseModel.createdAt).all fun time => time < row.createdAt) =
          Keyset.beyond EscalationCaseModel.createdAt last
            (matchingCases contents state workflowName) := by
      cases last <;> rfl
    refine ⟨_, (ordered request).perm _, (ordered request).ordered _, ?_⟩
    unfold casePages listEscalations
    rw [read]
    show some (Keyset.cut caseCursor limit _) = _
    rw [Keyset.cut_take, query]

/-- A client is given every matching case exactly once exactly when no page ends between two of them
that were created at one time. The next page asks for later times than its cursor's, which passes
over exactly the cases of that time that did not fit. -/
theorem casesListed_iff (ordered : ∀ request, OrdersByCreatedAt (orderByCreatedAt request))
    (inverse : ∀ row ∈ contents.escalationCases,
      fromisoformat (caseCursor row) = some row.createdAt) (positive : 1 ≤ limit) :
    CasesListed fromisoformat orderByCreatedAt contents state workflowName limit ↔
      PagesEndApart contents state workflowName limit :=
  Keyset.reads_all_iff (casePages_serves state workflowName ordered inverse positive)

end Cases

/-- Two runs that wait for a person at one step each, with open cases created at the given times. -/
def openCases (first second : Timestamp) : Contents where
  documents := []
  workflowRuns := [9, 10].map fun workflowRunId =>
    { workflowRunId := workflowRunId, workflowName := "claim_intake", workflowVersion := "v1",
      state := .awaitingHuman, version := 3, createdAt := 0, updatedAt := 0, deadlineAt := 100,
      createdBy := "u" }
  workflowRunDocuments := []
  steps := [(2, 9), (3, 10)].map fun (stepId, workflowRunId) =>
    { stepId := stepId, workflowRunId := workflowRunId, stepName := "extract", stepIndex := 1,
      state := .queued, maxAttempts := 3, escalateOnFailure := true, retryPolicy := {},
      createdAt := 0 }
  stepAttempts := []
  tasksOutbox := []
  outboxSequence := 0
  escalationCases := [(1, 9, 2, first), (2, 10, 3, second)].map
    fun (escalationId, workflowRunId, stepId, createdAt) =>
      { escalationId := escalationId, workflowRunId := workflowRunId, stepId := stepId,
        state := .opened, reasonCode := "LOW", reasonDetail := none, expiresAt := 100,
        createdAt := createdAt }
  auditEvents := []

/-- The times of the first two seconds are read. -/
def readsSeconds (text : String) : Option Timestamp :=
  if text = "1970-01-01T00:00:00+00:00" then some 0
  else if text = "1970-01-01T00:00:01+00:00" then some 1 else none

/-- The order the rows come in breaks ties. -/
def stableOrder (rows : List EscalationCaseModel) : List EscalationCaseModel :=
  rows.insertionSort fun first second => first.createdAt ≤ second.createdAt

theorem stableOrder_orders : OrdersByCreatedAt stableOrder where
  perm rows := List.perm_insertionSort _ rows
  ordered rows := List.pairwise_insertionSort _ rows

/-- With one case on a page the second of two cases created at one time is passed over. -/
theorem tied_case_skipped :
    ¬CasesListed readsSeconds (fun _ => stableOrder) (openCases 0 0) (some "open") none 1 := by
  rintro ⟨requests, last, read, ended, whole⟩
  have second : (match Keyset.follow (casePages readsSeconds (fun _ => stableOrder) (openCases 0 0)
      (some "open") none 1) 2 with
    | .ended _ read => some read.length
    | _ => none) = some 1 := by
    decide +kernel
  have all : (matchingCases (openCases 0 0) (some "open") none).length = 2 := by decide +kernel
  cases reached : Keyset.follow (casePages readsSeconds (fun _ => stableOrder) (openCases 0 0)
      (some "open") none 1) 2 with
  | asking cursor read =>
    rw [reached] at second
    cases second
  | ended final page =>
    rw [reached] at second
    have still := Keyset.follow_ended_add reached requests
    rw [Nat.add_comm, Keyset.follow_ended_add ended 2] at still
    cases still
    have length := whole.length_eq.trans all
    rw [Option.some.injEq, length] at second
    cases second
  | failed =>
    rw [reached] at second
    cases second

/-- Two cases created one after the other are both listed. -/
theorem later_case_listed :
    CasesListed readsSeconds (fun _ => stableOrder) (openCases 0 1) (some "open") none 1 := by
  refine (casesListed_iff (some "open") none (fun _ => stableOrder_orders) ?_
    (Nat.le_refl 1)).mpr ?_
  · decide +kernel
  · intro page some inside
    have two : (matchingCases (openCases 0 1) (.some "open") none).length = 2 := by decide +kernel
    obtain rfl : page = 1 := by omega
    unfold Keyset.Untied
    decide +kernel

end InsuranceOps
