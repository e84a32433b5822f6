/-
This file shows that the events of a run are paged without gaps. The cursor of
a page is the number of its last event, which is read back as that number; the
numbers of a run are its own and increase as events are appended. So a client
that follows the cursors reads the matching events of the log as it is at the
last request, however the log grows between the pages.
-/

import InsuranceOps.Pages

namespace InsuranceOps

variable {tables : UnicodeTables}

/-! ### Numbers as cursors -/

theorem integerDigits_of_digits {digits : Text} (all : ∀ char ∈ digits, char.isDigit = true)
    {afterDigit : Bool} (some : digits = [] → afterDigit = true) (value : Nat) :
    tables.integerDigits afterDigit value digits = .some (Nat.ofDigitChars 10 digits value) := by
  induction digits generalizing afterDigit value with
  | nil => rw [UnicodeTables.integerDigits, if_pos (some rfl), Nat.ofDigitChars_nil]
  | cons char rest inductionHypothesis =>
    have digit := all char List.mem_cons_self
    have ascii : char.toNat < 128 := (Char.isDigit_iff_toNat.mp digit).2.trans_lt (by decide)
    have read : tables.digit char = .some (char.toNat - '0'.toNat) := by
      rw [UnicodeTables.digit, if_pos ascii, if_pos digit]
    rw [UnicodeTables.integerDigits, read, Nat.ofDigitChars_cons]
    exact inductionHypothesis (fun other member => all other (List.mem_cons_of_mem _ member))
      (fun _ => rfl) _

/-- The text of a number is read as that number. -/
theorem int_intText (value : Int) : tables.int (intText value) = some value := by
  have digits : ∀ char ∈ decimal value.natAbs, char.isDigit = true :=
    fun _ => isDigit_of_mem_decimal
  have read : tables.integerDigits false 0 (decimal value.natAbs) = some value.natAbs := by
    rw [integerDigits_of_digits digits (fun none => absurd none (decimal_ne_nil _)),
      ofDigitChars_decimal]
  have unspaced : ∀ char ∈ intText value, FloatValue.isSpace char = false := by
    intro char member
    have visible (digit : char.isDigit = true) : FloatValue.isSpace char = false := by
      have range := Char.isDigit_iff_toNat.mp digit
      have zero : '0'.toNat = 48 := rfl
      have nine : '9'.toNat = 57 := rfl
      simp [FloatValue.isSpace]
      omega
    unfold intText at member
    split at member
    · rcases List.mem_cons.mp member with rfl | digit
      · rfl
      · exact visible (digits char digit)
    · exact visible (digits char member)
  unfold UnicodeTables.int
  rw [strip_eq_self unspaced]
  unfold intText
  by_cases negative : value < 0
  · simp only [if_pos negative, read, Option.map_some, Int.negOfNat_eq]
    exact congrArg some (by rw [Int.ofNat_eq_natCast]; omega)
  · obtain ⟨first, rest, same⟩ := List.exists_cons_of_ne_nil (decimal_ne_nil value.natAbs)
    have digit := digits first (same ▸ List.mem_cons_self)
    rw [if_neg negative]
    split
    · rename_i signed
      rw [signed] at digits
      cases digits '-' List.mem_cons_self
    · rename_i signed
      rw [signed] at digits
      cases digits '+' List.mem_cons_self
    · rw [read, Option.map_some]
      exact congrArg some (Int.natAbs_of_nonneg (by omega))

/-- The cursor of a row is read back as what it stands for. -/
theorem readCursor_map {Row Value : Type} {read : String → Option Value} {text : Row → String}
    {value : Row → Value} {last : Option Row}
    (some : ∀ row, last = .some row → text row ≠ "" ∧ read (text row) = .some (value row)) :
    readCursor read (last.map text) = .ok (last.map value) := by
  cases last with
  | none => rfl
  | some row =>
    obtain ⟨nonempty, same⟩ := some row rfl
    unfold readCursor givenText
    rw [Option.map_some, Option.filter_some, if_pos (decide_eq_true nonempty)]
    dsimp only
    rw [same]
    rfl

theorem eventCursor_ne_empty (event : AuditEventModel) : eventCursor event ≠ "" := by
  intro empty
  have chars := congrArg String.toList empty
  rw [eventCursor, String.toList_ofList] at chars
  exact intText_ne_nil _ chars

/-! ### The log of a run -/

/-- Appending leaves the events of a run in place. -/
theorem eventsOf_appendAll (events : List AuditEventModel) (calls : List (AppendCall × EventDraw))
    (workflowRunId : UUID) : ∃ more,
      eventsOf (appendAll events calls) workflowRunId = eventsOf events workflowRunId ++ more := by
  induction calls generalizing events with
  | nil => exact ⟨[], (List.append_nil _).symm⟩
  | cons call rest inductionHypothesis =>
    obtain ⟨more, same⟩ := inductionHypothesis (appendAuditEvent events call.1 call.2)
    have added : eventsOf (appendAuditEvent events call.1 call.2) workflowRunId ++ more =
        eventsOf events workflowRunId ++ (eventsOf [nextAuditEvent
          (getLatestForRun events call.1.workflowRunId) call.1 call.2] workflowRunId ++ more) := by
      rw [appendAuditEvent, eventsOf_append, List.append_assoc]
    exact ⟨_, same.trans added⟩

/-- The events of a run stand in the order of their numbers. -/
theorem RunChain.pairwise_seqInRun {rows : List AuditEventModel} (chain : RunChain rows) :
    rows.Pairwise fun first second => first.seqInRun < second.seqInRun := by
  refine List.pairwise_iff_getElem.mpr fun first second firstBound secondBound earlier => ?_
  rw [chain.seqInRun_getElem first firstBound, chain.seqInRun_getElem second secondBound]
  omega

/-- The database between the requests of a client: its log is what calls of `append_audit_event`
have written, which go on from request to request, and the run is stored. -/
structure Appending (contents : Nat → Contents) (workflowRunId : UUID) : Prop where
  begun : ∃ calls, (contents 0).auditEvents = appendAll [] calls
  goesOn : ∀ request, ∃ calls,
    (contents (request + 1)).auditEvents = appendAll (contents request).auditEvents calls
  stored : ∀ request, ∃ run ∈ (contents request).workflowRuns, run.workflowRunId = workflowRunId

section Pages

variable {contents : Nat → Contents} {workflowRunId : UUID}

theorem Appending.chained (appending : Appending contents workflowRunId) (request : Nat) :
    Chained (contents request).auditEvents := by
  induction request with
  | zero =>
    obtain ⟨calls, same⟩ := appending.begun
    rw [same]
    exact chained_nil.appendAll calls
  | succ request inductionHypothesis =>
    obtain ⟨calls, same⟩ := appending.goesOn request
    rw [same]
    exact inductionHypothesis.appendAll calls

theorem Appending.increasing (appending : Appending contents workflowRunId)
    (eventType : Option String) (request : Nat) :
    (matchingEvents (contents request).auditEvents workflowRunId eventType).Pairwise
      fun first second => first.seqInRun < second.seqInRun :=
  (appending.chained request workflowRunId).pairwise_seqInRun.filter _

/-- The matching events grow at the end, by events with greater numbers. -/
theorem Appending.grows (appending : Appending contents workflowRunId)
    (eventType : Option String) :
    Keyset.Grows AuditEventModel.seqInRun fun request =>
      matchingEvents (contents request).auditEvents workflowRunId eventType := by
  intro request
  obtain ⟨calls, same⟩ := appending.goesOn request
  obtain ⟨more, grown⟩ := eventsOf_appendAll (contents request).auditEvents calls workflowRunId
  have next : ∃ new, matchingEvents (contents (request + 1)).auditEvents workflowRunId eventType =
      matchingEvents (contents request).auditEvents workflowRunId eventType ++ new := by
    unfold matchingEvents
    rw [same, grown, List.filter_append]
    exact ⟨_, rfl⟩
  obtain ⟨new, next⟩ := next
  refine ⟨new, next, ?_⟩
  have increasing := appending.increasing eventType (request + 1)
  rw [next] at increasing
  exact (List.pairwise_append.mp increasing).2.2

/-! ### Pages -/

/-- The rows of the pages a client gets. -/
def eventRows (tables : UnicodeTables) (contents : Nat → Contents) (workflowRunId : UUID)
    (eventType : Option String) (limit : Nat → Nat) (request : Nat) (cursor : Option String) :
    Option (List AuditEventModel × Option String) :=
  match selectEvents tables (contents request) workflowRunId eventType cursor (limit request) with
  | .ok answer => some answer
  | .error _ => none

variable (tables contents workflowRunId) in
/-- A client is shown the rows of its pages. -/
theorem eventPages_eq (eventType : Option String) (limit : Nat → Nat) (request : Nat)
    (cursor : Option String) :
    eventPages tables contents workflowRunId eventType limit request cursor =
      (eventRows tables contents workflowRunId eventType limit request cursor).map fun answer =>
        (answer.1.map AuditEventResponse.ofModel, answer.2) := by
  unfold eventPages eventRows getWorkflowRunEvents
  cases selectEvents tables (contents request) workflowRunId eventType cursor (limit request) with
  | ok answer => rfl
  | error failure => rfl

variable (tables) in
/-- A request with the cursor of an event is answered by the events with greater numbers. -/
theorem Appending.serves (appending : Appending contents workflowRunId)
    (eventType : Option String) {limit : Nat → Nat} (positive : ∀ request, 1 ≤ limit request) :
    Keyset.Serves AuditEventModel.seqInRun
      (eventRows tables contents workflowRunId eventType limit)
      (fun request => matchingEvents (contents request).auditEvents workflowRunId eventType)
      eventCursor limit where
  positive := positive
  answers := by
    intro request last _
    obtain ⟨run, stored, same⟩ := appending.stored request
    have found : ((contents request).workflowRuns.find? fun run =>
        run.workflowRunId = workflowRunId).isSome := by
      rw [List.find?_isSome]
      exact ⟨run, stored, decide_eq_true same⟩
    obtain ⟨first, found⟩ := Option.isSome_iff_exists.mp found
    have read : readCursor (fun text => tables.int text.toList) (last.map eventCursor) =
        .ok (last.map AuditEventModel.seqInRun) := by
      refine readCursor_map fun event _ => ⟨eventCursor_ne_empty event, ?_⟩
      rw [eventCursor, String.toList_ofList]
      exact int_intText _
    refine ⟨_, List.perm_insertionSort (fun first second : AuditEventModel =>
      first.seqInRun ≤ second.seqInRun) _, List.pairwise_insertionSort _ _, ?_⟩
    have query : ((matchingEvents (contents request).auditEvents workflowRunId eventType).filter
        fun event => (last.map AuditEventModel.seqInRun).all fun seq => seq < event.seqInRun) =
          Keyset.beyond AuditEventModel.seqInRun last
            (matchingEvents (contents request).auditEvents workflowRunId eventType) := by
      cases last <;> rfl
    unfold eventRows selectEvents
    rw [found, read]
    show some (Keyset.cut eventCursor (limit request) _) = _
    rw [Keyset.cut_take, query]

/-- A client reads the events of a run completely: no request is refused; what it has read after the
last page are the matching events the log holds at that request, each once and in the order of their
numbers; and there is a last page if the log stops growing. -/
structure EventsRead (tables : UnicodeTables) (contents : Nat → Contents) (workflowRunId : UUID)
    (eventType : Option String) (limit : Nat → Nat) : Prop where
  answered : ∀ requests, Keyset.follow
    (eventPages tables contents workflowRunId eventType limit) requests ≠ .failed
  complete : ∀ requests last read,
    Keyset.follow (eventPages tables contents workflowRunId eventType limit) requests =
      .ended last read →
    read = (matchingEvents (contents last).auditEvents workflowRunId eventType).map
        AuditEventResponse.ofModel ∧
      read.Pairwise fun first second => first.seqInRun < second.seqInRun
  ends : ∀ final, (∀ request, final ≤ request →
      (contents request).auditEvents = (contents final).auditEvents) →
    ∃ requests last read,
      Keyset.follow (eventPages tables contents workflowRunId eventType limit) requests =
        .ended last read

/-- However the log grows between the pages, a client reads the events of a run completely. The
numbers of a run are its own and grow, so an event appended later stands behind every cursor. -/
theorem events_read (appending : Appending contents workflowRunId) (eventType : Option String)
    {limit : Nat → Nat} (positive : ∀ request, 1 ≤ limit request) :
    EventsRead tables contents workflowRunId eventType limit := by
  have serves := appending.serves tables eventType positive
  have grows := appending.grows eventType
  have increasing := appending.increasing eventType
  have distinct (request : Nat) := (increasing request).imp fun {first second} less => less.ne
  have shown := Keyset.follow_map AuditEventResponse.ofModel
    (eventPages_eq tables contents workflowRunId eventType limit)
  constructor
  case answered =>
    intro requests
    rw [shown]
    have answered := Keyset.follow_ne_failed serves grows distinct requests
    cases reached : Keyset.follow
        (eventRows tables contents workflowRunId eventType limit) requests with
    | asking cursor read => exact nofun
    | ended last read => exact nofun
    | failed => exact absurd reached answered
  case complete =>
    intro requests last read ended
    rw [shown] at ended
    cases reached : Keyset.follow
        (eventRows tables contents workflowRunId eventType limit) requests with
    | asking cursor rows =>
      rw [reached] at ended
      cases ended
    | ended final rows =>
      rw [reached] at ended
      cases ended
      obtain ⟨whole, ordered⟩ := Keyset.follow_complete serves grows distinct reached
      rw [ordered.eq_of_perm whole (increasing last)]
      exact ⟨rfl, List.pairwise_map.mpr (increasing last)⟩
    | failed =>
      rw [reached] at ended
      cases ended
  case ends =>
    intro final still
    have sameTable (request : Nat) (later : final ≤ request) :
        matchingEvents (contents request).auditEvents workflowRunId eventType =
          matchingEvents (contents final).auditEvents workflowRunId eventType := by
      rw [still request later]
    obtain ⟨requests, last, read, ended⟩ := Keyset.follow_ends serves grows distinct sameTable
    refine ⟨requests, last, read.map AuditEventResponse.ofModel, ?_⟩
    rw [shown, ended]
    rfl

end Pages

/-- An event of a run. -/
def queuedEvent (number : Nat) : AppendCall × EventDraw :=
  ({ workflowRunId := 9, eventType := "step.queued", actor := "worker:w1", payload := [] },
    ⟨Fin.ofNat (2 ^ 128) number, number⟩)

/-- A run, whose log holds one event at the first request, two at the second one and three from then
on. -/
def growingLog (request : Nat) : Contents where
  documents := []
  workflowRuns := [
    { workflowRunId := 9, workflowName := "claim_intake", workflowVersion := "v1",
      state := .running, version := 1, createdAt := 0, updatedAt := 0, deadlineAt := 100,
      createdBy := "u" }]
  workflowRunDocuments := []
  steps := []
  stepAttempts := []
  tasksOutbox := []
  outboxSequence := 0
  escalationCases := []
  auditEvents := appendAll [] ((List.range (min request 2 + 1)).map queuedEvent)

theorem growingLog_appending : Appending growingLog 9 where
  begun := ⟨_, rfl⟩
  goesOn request := by
    unfold growingLog
    by_cases early : request < 2
    · refine ⟨[queuedEvent (min request 2 + 1)], ?_⟩
      rw [show min (request + 1) 2 + 1 = min request 2 + 1 + 1 by omega, List.range_succ,
        List.map_append]
      exact List.foldl_append
    · refine ⟨[], ?_⟩
      rw [show min (request + 1) 2 = min request 2 by omega]
      rfl
  stored _ := ⟨_, List.mem_singleton_self _, rfl⟩

/-- Three pages of one event each read the log. -/
theorem growing_log_read :
    EventsRead ⟨fun _ => none, fun _ => false⟩ growingLog 9 (some "step.queued") fun _ => 1 :=
  events_read growingLog_appending _ fun _ => Nat.le_refl 1

end InsuranceOps
