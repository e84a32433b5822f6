/-
This file follows the review flags from the extract step to the decision of the
validate step. The extract step records how sure its providers were and drops
the record of a call that raised; the validate step reads the fields alone, so a
flag reaches the decision only through them. What the two steps decide is
determined from the documents, and with it when every flag is heeded.
-/

import InsuranceOps.ReviewSteps

namespace InsuranceOps

open ExtractStepHandler

variable (tables : UnicodeTables) (around : Surroundings)

/-! ### What raises a flag -/

/-- A document exists and its payload can be read. -/
def Reads (docId : UUID) (doc : DocumentModel) (content : List UInt8) : Prop :=
  around.documents docId = some doc ∧ around.read doc.payloadRef = .ok content

/-- Every document exists and can be read. -/
def Readable (documentIds : List UUID) : Prop :=
  ∀ docId ∈ documentIds, ∃ doc content, Reads around docId doc content

/-- Something is the case of a document at one of the places. -/
def Somewhere (fact : Nat → DocumentModel → List UInt8 → Prop) (places : List (UUID × Nat)) :
    Prop :=
  ∃ place ∈ places, ∃ doc content, Reads around place.1 doc content ∧ fact place.2 doc content

/-- The OCR result of a document has a page of low confidence. -/
def LowPage (index : Nat) (doc : DocumentModel) (content : List UInt8) : Prop :=
  ∃ ocrResult, ocrCall around index doc content = some (.ok ocrResult) ∧
    ∃ page ∈ ocrResult.pages, page.confidence.isBelow (roundToDouble (7 / 10)) = true

/-- The OCR call of a document raises. -/
def OcrRaised (index : Nat) (doc : DocumentModel) (content : List UInt8) : Prop :=
  ∃ text, ocrCall around index doc content = some (.error text)

/-- The fields of a document. -/
def extracted (index : Nat) (doc : DocumentModel) (content : List UInt8) : ExtractionResult :=
  StubExtractor.extract tables (effectiveContent around index doc content)

/-- The AI enhancement call of a document raises. -/
def AiRaised (index : Nat) (doc : DocumentModel) (content : List UInt8) : Prop :=
  ∃ text, aiCall around index (extracted tables around index doc content) = some (.error text)

/-- No field is found in a document. -/
def Fieldless (index : Nat) (doc : DocumentModel) (content : List UInt8) : Prop :=
  (extracted tables around index doc content).fields = []

/-- A flag is raised: by a page, by a call that raised, or in the output of the extract step. -/
def Flagged (documentIds : List UUID) : Prop :=
  Somewhere around (LowPage around) documentIds.zipIdx ∨
    Somewhere around (OcrRaised around) documentIds.zipIdx ∨
    Somewhere around (AiRaised tables around) documentIds.zipIdx ∨
    ∃ result output, ExtractStepHandler.handle tables around documentIds = .ok result ∧
      result.output = some output ∧ output.aiMetadata.requiresReview = true

/-- The validate step applied to the output of the extract step. -/
def extractThenValidate (documentIds : List UUID) :
    Except String (HandlerResult ValidateOutput) := do
  let extractResult ← ExtractStepHandler.handle tables around documentIds
  ValidateStepHandler.handle tables extractResult.output

/-- Review flags reach the decision: where one is raised, validation does not succeed. -/
def FlagsReach (documentIds : List UUID) : Prop :=
  Flagged tables around documentIds →
    ∀ result, extractThenValidate tables around documentIds = .ok result →
      result.status ≠ .succeeded

/-! ### What passes -/

/-- The field a document gives under a name. -/
def fieldAt (name : String) (place : UUID × Nat) : Option ExtractionField := do
  let doc ← around.documents place.1
  let content ← (around.read doc.payloadRef).toOption
  (extracted tables around place.2 doc content).field? name

/-- The field the last of the documents that have it gives under a name. -/
def lastField (places : List (UUID × Nat)) (name : String) : Option ExtractionField :=
  places.reverse.findSome? (fieldAt tables around name)

/-- The last claim number, policy number and date of loss are ones, and at least three of the five
fields are found. -/
structure Passes (places : List (UUID × Nat)) : Prop where
  claimNumber : (lastField tables around places "claim_number").isSome
  policyNumber : ∃ policy, lastField tables around places "policy_number" = some policy ∧
    isPolicyNumber tables policy.value = true
  dateOfLoss : ∀ date, lastField tables around places "date_of_loss" = some date →
    parseDate tables date.value = true
  enough : 3 ≤ ((patterns tables).map Prod.fst).countP fun name =>
    (lastField tables around places name).isSome

/-- A document has a page of low confidence or no field, or one of its calls raises. -/
def Suspicious (places : List (UUID × Nat)) : Prop :=
  Somewhere around (fun index doc content =>
    LowPage around index doc content ∨ OcrRaised around index doc content ∨
      AiRaised tables around index doc content ∨ Fieldless tables around index doc content) places

/-! ### What one document gives -/

variable {tables around}

theorem load_eq_ok_iff {docId : UUID} {doc : DocumentModel} {content : List UInt8} :
    load around docId = .ok (doc, content) ↔ Reads around docId doc content := by
  unfold load Reads
  cases around.documents docId with
  | none => exact iff_of_false nofun fun reads => nomatch reads.1
  | some found =>
    dsimp only
    rw [Option.some.injEq]
    cases read : around.read found.payloadRef with
    | ok bytes =>
      dsimp only
      rw [Except.ok.injEq, Prod.mk.injEq]
      constructor
      · rintro ⟨rfl, rfl⟩
        exact ⟨rfl, read⟩
      · rintro ⟨rfl, same⟩
        rw [read, Except.ok.injEq] at same
        exact ⟨rfl, same⟩
    | error failure =>
      refine iff_of_false ?_ ?_
      · cases failure <;> exact nofun
      · rintro ⟨rfl, same⟩
        rw [read] at same
        cases same

/-- A record that calls for review: of a low confidence or of a failure. -/
def AIExecutionMetadata.Weak (execution : AIExecutionMetadata) : Prop :=
  execution.confidence.any (FloatValue.isBelow (roundToDouble (7 / 10))) = true ∨
    execution.success = false

theorem requiresReview_iff (executions : List AIExecutionMetadata) :
    (aggregateStepMetadata executions).requiresReview = true ↔
      ∃ execution ∈ executions, execution.Weak := by
  unfold aggregateStepMetadata AIExecutionMetadata.Weak
  dsimp only
  simp only [decide_eq_true_eq, List.any_eq_true, Bool.not_eq_true', ← exists_or, and_or_left]

/-- The least of some values is one of them. -/
theorem floatMin_mem (otherwise : FloatValue) {values : List FloatValue} (some : values ≠ []) :
    floatMin otherwise values ∈ values := by
  cases values with
  | nil => exact absurd rfl some
  | cons first rest =>
    unfold floatMin
    dsimp only
    clear some
    induction rest generalizing first with
    | nil => exact List.mem_cons_self
    | cons value rest inductionHypothesis =>
      rw [List.foldl_cons]
      split
      · exact List.mem_cons_of_mem _ (inductionHypothesis value)
      · refine (List.mem_cons.mp (inductionHypothesis first)).elim (fun same => ?_) fun later => ?_
        · rw [same]
          exact List.mem_cons_self
        · exact List.mem_cons_of_mem _ (List.mem_cons_of_mem _ later)

variable (tables around) in
/-- The least confidence of the pages of a document is low. -/
def LowReading (index : Nat) (doc : DocumentModel) (content : List UInt8) : Prop :=
  ∃ ocrResult, ocrCall around index doc content = some (.ok ocrResult) ∧
    (floatMin (.finite 1) (ocrResult.pages.map fun page => page.confidence)).isBelow
      (roundToDouble (7 / 10)) = true

theorem lowPage_of_lowReading {index : Nat} {doc : DocumentModel} {content : List UInt8}
    (low : LowReading around index doc content) : LowPage around index doc content := by
  obtain ⟨ocrResult, called, below⟩ := low
  by_cases blank : ocrResult.pages.map (fun page => page.confidence) = []
  · rw [blank] at below
    have high : ¬(floatMin (.finite 1) []).isBelow (roundToDouble (7 / 10)) = true := by
      decide +kernel
    exact absurd below high
  · obtain ⟨page, member, least⟩ := List.mem_map.mp (floatMin_mem (.finite 1) blank)
    exact ⟨ocrResult, called, page, member, least ▸ below⟩

variable (tables around) in
/-- A document calls for review where its OCR result or its extraction is weak. -/
def Weak (index : Nat) (doc : DocumentModel) (content : List UInt8) : Prop :=
  LowReading around index doc content ∨ Fieldless tables around index doc content

/-- The record of an extraction calls for review where nothing was extracted. -/
theorem extractionExecution_weak_iff (content : List UInt8) {result : ExtractionResult}
    (stub : ∀ entry ∈ result.fields, entry.2.confidence = stubConfidence) :
    (extractionExecution content result).Weak ↔ result.fields = [] := by
  unfold AIExecutionMetadata.Weak extractionExecution minConfidence
  dsimp only
  rw [Option.any_some, or_iff_left Bool.noConfusion]
  cases least : (result.fields.map fun entry => entry.2.confidence).min? with
  | none =>
    rw [List.min?_eq_none_iff, List.map_eq_nil_iff] at least
    exact iff_of_true (by decide +kernel) least
  | some value =>
    obtain ⟨entry, member, rfl⟩ := List.mem_map.mp (List.min?_mem least)
    refine iff_of_false ?_ (List.ne_nil_of_mem member)
    rw [Option.getD_some, stub entry member]
    decide +kernel

/-- The records of a document call for review exactly where the document does. -/
theorem executions_weak_iff (index : Nat) (doc : DocumentModel) (content : List UInt8) :
    (∃ execution ∈ ocrExecutions around index doc content ++
      extractionExecution (effectiveContent around index doc content)
          (extracted tables around index doc content) ::
        aiExecutions around index (extracted tables around index doc content), execution.Weak) ↔
      Weak tables around index doc content := by
  have ocr : (∃ execution ∈ ocrExecutions around index doc content, execution.Weak) ↔
      LowReading around index doc content := by
    unfold ocrExecutions LowReading
    cases ocrCall around index doc content with
    | none => simp only [List.not_mem_nil, false_and, exists_false, reduceCtorEq]
    | some outcome =>
      cases outcome with
      | error text =>
        simp only [List.not_mem_nil, false_and, exists_false, Option.some.injEq, reduceCtorEq]
      | ok ocrResult =>
        simp only [List.mem_singleton, exists_eq_left, AIExecutionMetadata.Weak, Option.any_some,
          reduceCtorEq, or_false, Option.some.injEq, Except.ok.injEq, exists_eq_left']
  have extraction : (extractionExecution (effectiveContent around index doc content)
      (extracted tables around index doc content)).Weak ↔
        Fieldless tables around index doc content :=
    extractionExecution_weak_iff _ fun entry member => (extract_confidence tables member).2
  have ai : ¬∃ execution ∈ aiExecutions around index (extracted tables around index doc content),
      execution.Weak := by
    rintro ⟨execution, member, weak⟩
    unfold aiExecutions at member
    split at member
    · rw [List.mem_singleton.mp member] at weak
      rcases weak with low | failed
      · cases low
      · cases failed
    · cases member
    · cases member
  simp only [List.mem_append, List.mem_cons, or_and_right, exists_or, exists_eq_left]
  rw [ocr, extraction, or_iff_left ai]
  rfl

/-! ### What all documents give -/

theorem somewhere_append {fact : Nat → DocumentModel → List UInt8 → Prop}
    {places : List (UUID × Nat)} {place : UUID × Nat} {doc : DocumentModel} {content : List UInt8}
    (reads : Reads around place.1 doc content) :
    Somewhere around fact (places ++ [place]) ↔
      Somewhere around fact places ∨ fact place.2 doc content := by
  unfold Somewhere
  simp only [List.mem_append, List.mem_singleton, or_and_right, exists_or, exists_eq_left]
  refine or_congr_right ⟨?_, fun holds => ⟨doc, content, reads, holds⟩⟩
  rintro ⟨other, bytes, ⟨found, read⟩, holds⟩
  obtain ⟨same, sameBytes⟩ := reads
  cases found.symm.trans same
  cases read.symm.trans sameBytes
  exact holds

theorem fieldAt_eq {name : String} {place : UUID × Nat} {doc : DocumentModel}
    {content : List UInt8} (reads : Reads around place.1 doc content) :
    fieldAt tables around name place =
      (extracted tables around place.2 doc content).field? name := by
  unfold fieldAt
  rw [reads.1]
  show (around.read doc.payloadRef).toOption.bind _ = _
  rw [reads.2]
  rfl

theorem lastField_append (places : List (UUID × Nat)) (place : UUID × Nat) (name : String) :
    lastField tables around (places ++ [place]) name =
      (fieldAt tables around name place).or (lastField tables around places name) := by
  unfold lastField
  rw [List.reverse_append, List.reverse_singleton, List.singleton_append, List.findSome?_cons]
  cases fieldAt tables around name place <;> rfl

variable (tables around) in
/-- What the loop has gathered at some places: every document was read, the records call for review
where one of the documents does, and under each name stands the last field that was found. -/
structure Gathers (places : List (UUID × Nat)) (collected : Collected) : Prop where
  reads : ∀ place ∈ places, ∃ doc content, Reads around place.1 doc content
  review : (∃ execution ∈ collected.executions, execution.Weak) ↔
    Somewhere around (Weak tables around) places
  fields : ∃ fields : List (String × ExtractionField),
    collected.fields = fields.map (Prod.map id ExtractionField.serialized) ∧
      (fields.map Prod.fst).Nodup ∧
        ∀ name, Dictionary.get? fields name = lastField tables around places name

theorem gathers_add {places : List (UUID × Nat)} {collected processed : Collected}
    {place : UUID × Nat} (gathers : Gathers tables around places collected)
    (ran : processDocument tables around place = .ok processed) :
    Gathers tables around (places ++ [place]) (collected.add processed) := by
  obtain ⟨⟨doc, content⟩, loaded, added⟩ := Fallible.bind_eq_ok.mp ran
  cases added
  have reads := load_eq_ok_iff.mp loaded
  obtain ⟨fields, stored, distinct, found⟩ := gathers.fields
  refine ⟨fun other member => ?_, ?_, ?_⟩
  · rcases List.mem_append.mp member with before | last
    · exact gathers.reads other before
    · rw [List.mem_singleton.mp last]
      exact ⟨doc, content, reads⟩
  · rw [somewhere_append reads, ← gathers.review, ← executions_weak_iff]
    unfold Collected.add
    dsimp only
    simp only [List.mem_append, or_and_right, exists_or]
    rfl
  · -- The fields of this document are set after the others, and none of its names twice.
    refine ⟨Dictionary.update fields (extracted tables around place.2 doc content).fields, ?_,
      Dictionary.nodup_update distinct _, fun name => ?_⟩
    · rw [← Dictionary.update_map, ← stored]
      rfl
    · have once : ((extracted tables around place.2 doc content).fields.map Prod.fst).Nodup :=
        extract_names_nodup tables _
      rw [Dictionary.get?_update once, lastField_append, fieldAt_eq reads, found]
      rfl

/-- A loop that ends gathers what the documents have. -/
theorem collect_gathers {documentIds : List UUID} {collected : Collected}
    (ran : collect tables around documentIds = .ok collected) :
    Gathers tables around documentIds.zipIdx collected := by
  refine Fallible.foldlM_ok (Gathers tables around) ?_ ?_ ran
  · intro places collected place next gathers stepped
    obtain ⟨processed, worked, added⟩ := Fallible.bind_eq_ok.mp stepped
    cases added
    exact gathers_add gathers worked
  · refine ⟨?_, ?_, [], rfl, List.nodup_nil, fun name => rfl⟩
    · exact fun place member => nomatch member
    · exact iff_of_false (fun ⟨_, member, _⟩ => nomatch member) fun ⟨_, member, _⟩ => nomatch member

variable (tables) in
/-- The loop ends where every document can be read. -/
theorem collect_of_readable {documentIds : List UUID} (readable : Readable around documentIds) :
    ∃ collected, collect tables around documentIds = .ok collected := by
  refine Fallible.exists_ok_of_avoids (Fallible.avoids_foldlM ?_)
  intro before place after collected split _
  have member : place ∈ documentIds.zipIdx := split ▸ List.mem_append_right _ List.mem_cons_self
  obtain ⟨doc, content, reads⟩ := readable place.1 (List.fst_mem_of_mem_zipIdx member)
  refine Fallible.avoids_bind (Fallible.avoids_bind ?_ fun loaded _ => ?_) fun processed _ => ?_
  · rw [load_eq_ok_iff.mpr reads]
    exact Fallible.avoids_ok _ _
  · exact Fallible.avoids_ok _ _
  · exact Fallible.avoids_ok _ _

theorem readable_of_gathers {documentIds : List UUID} {collected : Collected}
    (gathers : Gathers tables around documentIds.zipIdx collected) :
    Readable around documentIds := by
  intro docId member
  rw [← List.zipIdx_map_fst 0 documentIds] at member
  obtain ⟨place, listed, rfl⟩ := List.mem_map.mp member
  exact gathers.reads place listed

/-- A loop that ends early has no output. -/
theorem collect_stopped {documentIds : List UUID} {result : HandlerResult ExtractOutput}
    (stopped : collect tables around documentIds = .error (.returned result)) :
    result.output = none := by
  obtain ⟨_, place, _, collected, _, _, failed⟩ := Fallible.foldlM_error stopped
  rcases Fallible.bind_eq_error.mp failed with failed | ⟨_, _, added⟩
  · rcases Fallible.bind_eq_error.mp failed with notLoaded | ⟨_, _, processed⟩
    · unfold load at notLoaded
      split at notLoaded
      · cases notLoaded
        rfl
      · split at notLoaded <;> cases notLoaded <;> rfl
    · cases processed
  · cases added

/-! ### What validation makes of it -/

theorem serialized_field (field : ExtractionField) : field.serialized.field = .ok field := by
  unfold SerializedField.field ExtractionField.serialized
  dsimp only
  rw [dif_pos field.confident]

/-- The validate step makes the fields again that the extract step has put into its output. -/
theorem reconstruct_serialized {fields : List (String × ExtractionField)} {output : ExtractOutput}
    (stored : output.fields = fields.map (Prod.map id ExtractionField.serialized)) :
    reconstructExtractionResult output = .ok {
      fields := fields
      extractorName := output.extractorName
      extractorVersion := output.extractorVersion } := by
  have made : (fields.map (Prod.map id ExtractionField.serialized)).mapM
      (fun entry => do
        let field ← entry.2.field
        return (entry.1, field)) = (.ok fields : Except String _) := by
    clear stored
    induction fields with
    | nil => rfl
    | cons entry rest inductionHypothesis =>
      rw [List.map_cons, List.mapM_cons, Prod.map_snd, serialized_field, inductionHypothesis]
      rfl
  unfold reconstructExtractionResult
  rw [stored, made]
  rfl

theorem reasons_eq_nil_iff (policyValue : String) :
    RuleBasedValidator.policyReasons tables policyValue = [] ↔
      isPolicyNumber tables policyValue = true := by
  unfold RuleBasedValidator.policyReasons
  split
  · exact iff_of_true rfl ‹_›
  · exact iff_of_false nofun ‹_›

theorem dateReasons_eq_nil_iff (dateValue : String) :
    RuleBasedValidator.dateReasons tables dateValue = [] ↔ parseDate tables dateValue = true := by
  unfold RuleBasedValidator.dateReasons
  split
  · exact iff_of_true rfl ‹_›
  · exact iff_of_false nofun ‹_›

/-- When validation passes: both numbers are there, and policy number and date are well formed. -/
theorem validate_pass_iff (result : ExtractionResult) :
    (RuleBasedValidator.validate tables result).status = .pass ↔
      (result.field? "claim_number").isSome ∧
        (∃ policy, result.field? "policy_number" = some policy ∧
          isPolicyNumber tables policy.value = true) ∧
        ∀ date, result.field? "date_of_loss" = some date → parseDate tables date.value = true := by
  unfold RuleBasedValidator.validate
  cases result.field? "claim_number" with
  | none => exact iff_of_false nofun fun passes => nomatch passes.1
  | some claim =>
    cases result.field? "policy_number" with
    | none => exact iff_of_false nofun fun passes => nomatch passes.2.1
    | some policy =>
      have date : (result.field? "date_of_loss").elim []
          (fun date => RuleBasedValidator.dateReasons tables date.value) = [] ↔
            ∀ date, result.field? "date_of_loss" = some date →
              parseDate tables date.value = true := by
        cases result.field? "date_of_loss" with
        | none => exact iff_of_true rfl nofun
        | some date =>
          rw [Option.elim_some, dateReasons_eq_nil_iff]
          simp only [Option.some.injEq, forall_eq']
      dsimp only
      rw [← date]
      simp only [Option.isSome_some, true_and, Option.some.injEq, exists_eq_left',
        ← reasons_eq_nil_iff, ← List.append_eq_nil_iff]
      split
      · exact iff_of_true rfl ‹_›
      · exact iff_of_false nofun ‹_›

/-- What the validate step decides of fields that pass validation. -/
theorem routed_succeeded_iff {result : ExtractionResult}
    (stub : ∀ entry ∈ result.fields, entry.2.confidence = stubConfidence)
    (few : result.fields.length ≤ 5) :
    (ValidateStepHandler.routed result).status = .succeeded ↔ 3 ≤ result.fields.length := by
  have same : ∀ entry ∈ result.fields.map fun entry => (entry.1, entry.2.confidence),
      entry.2 = stubConfidence := by
    intro entry member
    obtain ⟨field, stored, rfl⟩ := List.mem_map.mp member
    exact stub field stored
  have routing := evaluate_stub same (by rwa [List.length_map])
  rw [List.length_map] at routing
  unfold ValidateStepHandler.routed
  dsimp only
  split
  · exact iff_of_false nofun (Nat.not_le.mpr (routing.mp ‹_›))
  · exact iff_of_true rfl (Nat.not_lt.mp fun missing => absurd (routing.mpr missing) ‹_›)

/-! ### When flags reach the decision -/

theorem lastField_stub {places : List (UUID × Nat)} {name : String} {field : ExtractionField}
    (found : lastField tables around places name = some field) :
    name ∈ (patterns tables).map Prod.fst ∧ field.confidence = stubConfidence := by
  obtain ⟨place, -, has⟩ := List.exists_of_findSome?_eq_some found
  obtain ⟨doc, -, has⟩ := Option.bind_eq_some_iff.mp has
  obtain ⟨content, -, has⟩ := Option.bind_eq_some_iff.mp has
  have member : (name, field) ∈ (extracted tables around place.2 doc content).fields :=
    (Dictionary.get?_eq_some_iff (extract_names_nodup tables _)).mp has
  exact ⟨(extract_names tables _).subset (List.mem_map_of_mem member),
    (extract_confidence tables member).2⟩

/-- There are as many merged fields as names of patterns under which a field is found. -/
theorem length_merged {places : List (UUID × Nat)} {fields : List (String × ExtractionField)}
    (distinct : (fields.map Prod.fst).Nodup)
    (found : ∀ name, Dictionary.get? fields name = lastField tables around places name) :
    fields.length = ((patterns tables).map Prod.fst).countP fun name =>
      (lastField tables around places name).isSome := by
  have same : (fields.map Prod.fst).Perm (((patterns tables).map Prod.fst).filter fun name =>
      (lastField tables around places name).isSome) := by
    have all : ((patterns tables).map Prod.fst).Nodup := by
      rw [pattern_names]
      decide
    refine (List.perm_ext_iff_of_nodup distinct (all.filter _)).mpr fun name => ?_
    rw [List.mem_filter, ← Dictionary.isSome_get?_iff, found]
    constructor
    · intro stored
      obtain ⟨field, last⟩ := Option.isSome_iff_exists.mp stored
      exact ⟨(lastField_stub last).1, stored⟩
    · exact fun listed => listed.2
  rw [List.countP_eq_length_filter, ← same.length_eq, List.length_map]

/-- What the validate step decides of fields of the stub extractor. -/
theorem validate_reconstructed {output : ExtractOutput} {result : ExtractionResult}
    (remade : reconstructExtractionResult output = .ok result)
    (stub : ∀ entry ∈ result.fields, entry.2.confidence = stubConfidence)
    (few : result.fields.length ≤ 5) :
    ∃ decision, ValidateStepHandler.handle tables (some output) = .ok decision ∧
      (decision.status = .succeeded ↔
        (RuleBasedValidator.validate tables result).status = .pass ∧ 3 ≤ result.fields.length) := by
  unfold ValidateStepHandler.handle
  dsimp only
  rw [remade]
  simp only [bind, Except.bind]
  cases (RuleBasedValidator.validate tables result).status with
  | pass => exact ⟨_, rfl, (routed_succeeded_iff stub few).trans (and_iff_right rfl).symm⟩
  | failCorrectable => exact ⟨_, rfl, iff_of_false nofun fun passes => nomatch passes.1⟩
  | failTerminal => exact ⟨_, rfl, iff_of_false nofun fun passes => nomatch passes.1⟩

/-- The validate step succeeds on what has been gathered exactly where it passes. -/
theorem validate_gathered {places : List (UUID × Nat)} {collected : Collected}
    (gathers : Gathers tables around places collected) :
    ∃ decision, ValidateStepHandler.handle tables (some collected.output) = .ok decision ∧
      (decision.status = .succeeded ↔ Passes tables around places) := by
  obtain ⟨fields, stored, distinct, found⟩ := gathers.fields
  have stub : ∀ entry ∈ fields, entry.2.confidence = stubConfidence := by
    intro entry member
    have last : lastField tables around places entry.1 = some entry.2 := by
      rw [← found]
      exact (Dictionary.get?_eq_some_iff distinct).mpr member
    exact (lastField_stub last).2
  have count := length_merged distinct found
  have few : fields.length ≤ 5 := count ▸ List.countP_le_length
  obtain ⟨decision, decided, succeeded⟩ := validate_reconstructed
    (reconstruct_serialized stored : reconstructExtractionResult collected.output = _) stub few
  refine ⟨decision, decided, succeeded.trans ?_⟩
  have named (name : String) : ExtractionResult.field? {
      fields := fields
      extractorName := collected.output.extractorName
      extractorVersion := collected.output.extractorVersion } name =
        lastField tables around places name := found name
  rw [validate_pass_iff, named, named, named, count]
  constructor
  · rintro ⟨⟨claimNumber, policyNumber, dateOfLoss⟩, enough⟩
    exact ⟨claimNumber, policyNumber, dateOfLoss, enough⟩
  · rintro ⟨claimNumber, policyNumber, dateOfLoss, enough⟩
    exact ⟨⟨claimNumber, policyNumber, dateOfLoss⟩, enough⟩

/-- The two steps succeed exactly where every document can be read and what is found passes. -/
theorem extractThenValidate_succeeds_iff (documentIds : List UUID) :
    (∃ result, extractThenValidate tables around documentIds = .ok result ∧
        result.status = .succeeded) ↔
      Readable around documentIds ∧ Passes tables around documentIds.zipIdx := by
  constructor
  · rintro ⟨result, ran, succeeded⟩
    obtain ⟨extractResult, handled, validated⟩ := Fallible.bind_eq_ok.mp ran
    unfold ExtractStepHandler.handle at handled
    split at handled
    · rename_i collected looped
      cases handled
      have gathers := collect_gathers looped
      obtain ⟨decision, decided, passes⟩ := validate_gathered gathers
      cases validated.symm.trans decided
      exact ⟨readable_of_gathers gathers, passes.mp succeeded⟩
    · rename_i stopped
      cases handled
      rw [collect_stopped stopped] at validated
      cases validated
      cases succeeded
    · cases handled
  · rintro ⟨readable, passes⟩
    obtain ⟨collected, looped⟩ := collect_of_readable tables readable
    obtain ⟨decision, decided, succeeded⟩ := validate_gathered (collect_gathers looped)
    have handled : ExtractStepHandler.handle tables around documentIds =
        .ok { status := .succeeded, output := some collected.output } := by
      unfold ExtractStepHandler.handle
      rw [looped]
    exact ⟨decision, Fallible.bind_eq_ok.mpr ⟨_, handled, decided⟩, succeeded.mpr passes⟩

/-- Where the documents are read, a flag is raised exactly where one of them is suspicious. -/
theorem flagged_iff {documentIds : List UUID} (readable : Readable around documentIds) :
    Flagged tables around documentIds ↔ Suspicious tables around documentIds.zipIdx := by
  obtain ⟨collected, looped⟩ := collect_of_readable tables readable
  have output : (∃ result output, ExtractStepHandler.handle tables around documentIds = .ok result ∧
      result.output = some output ∧ output.aiMetadata.requiresReview = true) ↔
        Somewhere around (Weak tables around) documentIds.zipIdx := by
    rw [← (collect_gathers looped).review, ← requiresReview_iff]
    unfold ExtractStepHandler.handle
    rw [looped]
    constructor
    · rintro ⟨result, output, handled, stored, review⟩
      cases handled
      cases stored
      exact review
    · exact fun review => ⟨_, _, rfl, rfl, review⟩
  unfold Flagged Suspicious
  rw [output]
  constructor
  · rintro (⟨place, listed, doc, content, reads, low⟩ |
      ⟨place, listed, doc, content, reads, raised⟩ |
      ⟨place, listed, doc, content, reads, raised⟩ |
      ⟨place, listed, doc, content, reads, low | bare⟩)
    · exact ⟨place, listed, doc, content, reads, .inl low⟩
    · exact ⟨place, listed, doc, content, reads, .inr (.inl raised)⟩
    · exact ⟨place, listed, doc, content, reads, .inr (.inr (.inl raised))⟩
    · exact ⟨place, listed, doc, content, reads, .inl (lowPage_of_lowReading low)⟩
    · exact ⟨place, listed, doc, content, reads, .inr (.inr (.inr bare))⟩
  · rintro ⟨place, listed, doc, content, reads, low | raised | raised | bare⟩
    · exact .inl ⟨place, listed, doc, content, reads, low⟩
    · exact .inr (.inl ⟨place, listed, doc, content, reads, raised⟩)
    · exact .inr (.inr (.inl ⟨place, listed, doc, content, reads, raised⟩))
    · exact .inr (.inr (.inr ⟨place, listed, doc, content, reads, .inr bare⟩))

variable (tables around) in
/-- Review flags reach the decision exactly where they need not: where a document cannot be read, no
document is suspicious, or the fields that are found do not pass by themselves. The validate step
sees the fields alone, so its decision is computed from the documents and compared with what the
extract step records. -/
theorem flags_reach_iff (documentIds : List UUID) :
    FlagsReach tables around documentIds ↔
      ¬(Readable around documentIds ∧ Suspicious tables around documentIds.zipIdx ∧
        Passes tables around documentIds.zipIdx) := by
  constructor
  · rintro reach ⟨readable, suspicious, passes⟩
    obtain ⟨result, ran, succeeded⟩ :=
      (extractThenValidate_succeeds_iff documentIds).mpr ⟨readable, passes⟩
    exact reach ((flagged_iff readable).mpr suspicious) result ran succeeded
  · intro harmless flagged result ran succeeded
    obtain ⟨readable, passes⟩ :=
      (extractThenValidate_succeeds_iff documentIds).mp ⟨result, ran, succeeded⟩
    exact harmless ⟨readable, (flagged_iff readable).mp flagged, passes⟩

/-- A scan of a complete claim form of which the OCR provider is half sure. -/
def blurredScan : Surroundings where
  documents := fun _ => some ⟨"scan", "image/png"⟩
  read := fun _ => .ok [0x89]
  ocrName := "stub_ocr"
  extractText := fun _ _ _ => .ok ⟨[⟨.finite (1 / 2)⟩],
    "Claim Number: CLM-2025-001234 Policy No.: POL-12345678 Type: auto"⟩
  aiName := "stub"
  generate := fun _ _ => .error "timeout"

/-- The scan is flagged by its page and by the output of the extract step, and it is accepted. -/
theorem blurred_scan_accepted :
    ¬FlagsReach ⟨fun _ => none, fun _ => false⟩ blurredScan [⟨0, by decide⟩] := by
  intro reach
  have low : Somewhere blurredScan (LowPage blurredScan) [(⟨0, by decide⟩, 0)] :=
    ⟨_, List.mem_singleton_self _, _, _, ⟨rfl, rfl⟩, _, rfl, _, List.mem_singleton_self _,
      by decide +kernel⟩
  have accepted : ((extractThenValidate ⟨fun _ => none, fun _ => false⟩ blurredScan
      [⟨0, by decide⟩]).toOption.map fun result => result.status) = some .succeeded := by
    decide +kernel
  obtain ⟨result, ran, succeeded⟩ := Option.map_eq_some_iff.mp accepted
  refine reach (.inl low) result ?_ succeeded
  cases outcome : extractThenValidate ⟨fun _ => none, fun _ => false⟩ blurredScan
      [⟨0, by decide⟩] with
  | error text =>
    rw [outcome] at ran
    cases ran
  | ok other =>
    rw [outcome] at ran
    cases ran
    rfl

end InsuranceOps
