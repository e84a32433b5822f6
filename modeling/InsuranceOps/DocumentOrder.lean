/-
This file compares the extractions of the same documents in different orders. A
field of a later document replaces the one of the same name, so what is
extracted depends on the order just when two documents that can be read have
different fields under one name.
-/

import InsuranceOps.ReviewFlags

namespace InsuranceOps

open ExtractStepHandler

variable (tables : UnicodeTables) (around : Surroundings)

/-! ### Fields and orders -/

/-- The OCR provider answers to the same document alike, wherever it stands in the list. -/
def SteadyOcr : Prop :=
  ∀ first second content contentType,
    around.extractText first content contentType = around.extractText second content contentType

/-- The field the extract step returns under a name. -/
def returnedField (documentIds : List UUID) (name : String) : Option SerializedField :=
  match ExtractStepHandler.handle tables around documentIds with
  | .ok result => result.output.bind fun output => Dictionary.get? output.fields name
  | .error _ => none

/-- Extraction does not depend on the order of the documents. -/
def OrderIndependent (documentIds : List UUID) : Prop :=
  ∀ other : List UUID, other.Perm documentIds →
    returnedField tables around other = returnedField tables around documentIds

/-- The field a document gives under a name. -/
def fieldIn (name : String) (docId : UUID) : Option ExtractionField :=
  fieldAt tables around name (docId, 0)

/-- The fields found in the text of a document. -/
def fieldsIn (docId : UUID) : List (String × ExtractionField) :=
  match around.documents docId with
  | some doc => match around.read doc.payloadRef with
    | .ok content => (extracted tables around 0 doc content).fields
    | .error _ => []
  | none => []

/-- Documents that have a field of the same name have the same field there. -/
def Agreeing (documentIds : List UUID) : Prop :=
  ∀ first ∈ documentIds, ∀ second ∈ documentIds, ∀ name field other,
    fieldIn tables around name first = some field →
      fieldIn tables around name second = some other → field = other

/-! ### What is returned -/

variable {tables around}

theorem serialized_injective {first second : ExtractionField}
    (same : first.serialized = second.serialized) : first = second := by
  obtain ⟨name, value, confidence, provenance, confident⟩ := first
  obtain ⟨otherName, otherValue, otherConfidence, otherProvenance, otherConfident⟩ := second
  unfold ExtractionField.serialized at same
  dsimp only at same
  rw [SerializedField.mk.injEq, FloatValue.finite.injEq] at same
  obtain ⟨rfl, rfl, rfl, rfl⟩ := same
  rfl

/-- With a steady provider a document gives the same field at every place. -/
theorem fieldAt_steady (steady : SteadyOcr around) (name : String) (place : UUID × Nat) :
    fieldAt tables around name place = fieldIn tables around name place.1 := by
  have call (doc : DocumentModel) (content : List UInt8) :
      ocrCall around place.2 doc content = ocrCall around 0 doc content := by
    unfold ocrCall
    rw [steady place.2 0]
  unfold fieldIn fieldAt extracted effectiveContent
  simp only [call]

/-- The last field of a name in a list of documents. -/
theorem lastField_zipIdx (steady : SteadyOcr around) (documentIds : List UUID) (name : String) :
    lastField tables around documentIds.zipIdx name =
      documentIds.reverse.findSome? (fieldIn tables around name) := by
  have same : fieldAt tables around name = fieldIn tables around name ∘ Prod.fst :=
    funext fun place => fieldAt_steady steady name place
  unfold lastField
  rw [same, ← List.findSome?_map, List.map_reverse, List.zipIdx_map_fst]

/-- Where every document can be read the last field of a name is returned. -/
theorem returnedField_eq (steady : SteadyOcr around) {documentIds : List UUID}
    (readable : Readable around documentIds) (name : String) :
    returnedField tables around documentIds name =
      (documentIds.reverse.findSome? (fieldIn tables around name)).map
        ExtractionField.serialized := by
  obtain ⟨collected, looped⟩ := collect_of_readable tables readable
  obtain ⟨fields, stored, -, found⟩ := (collect_gathers looped).fields
  have handled : ExtractStepHandler.handle tables around documentIds =
      .ok { status := .succeeded, output := some collected.output } := by
    unfold ExtractStepHandler.handle
    rw [looped]
  unfold returnedField
  rw [handled, ← lastField_zipIdx steady, ← found]
  show Dictionary.get? collected.fields name = _
  rw [stored, Dictionary.get?_map]

/-- Where a document cannot be read no field is returned. -/
theorem returnedField_unreadable {documentIds : List UUID}
    (unreadable : ¬Readable around documentIds) :
    returnedField tables around documentIds = fun _ => none := by
  funext name
  unfold returnedField ExtractStepHandler.handle
  cases looped : collect tables around documentIds with
  | ok collected => exact absurd (readable_of_gathers (collect_gathers looped)) unreadable
  | error stop =>
    cases stop with
    | raised text => rfl
    | returned result =>
      dsimp only
      rw [collect_stopped looped]
      rfl

/-! ### When the order is without effect -/

theorem readable_perm {first second : List UUID} (same : first.Perm second) :
    Readable around first ↔ Readable around second := by
  unfold Readable
  simp only [same.mem_iff]

/-- With agreeing documents the last field is the field of any document that has one. -/
theorem findSome?_agreeing {documentIds : List UUID} (agreeing : Agreeing tables around documentIds)
    {first second : List UUID} (firstAll : first.Perm documentIds)
    (secondAll : second.Perm documentIds) (name : String) :
    first.findSome? (fieldIn tables around name) =
      second.findSome? (fieldIn tables around name) := by
  cases found : second.findSome? (fieldIn tables around name) with
  | none =>
    rw [List.findSome?_eq_none_iff] at found ⊢
    exact fun docId member => found docId (secondAll.mem_iff.mpr (firstAll.mem_iff.mp member))
  | some field =>
    obtain ⟨docId, member, has⟩ := List.exists_of_findSome?_eq_some found
    have listed := secondAll.mem_iff.mp member
    have some : (first.findSome? (fieldIn tables around name)).isSome := by
      rw [List.findSome?_isSome_iff]
      exact ⟨docId, firstAll.mem_iff.mpr listed, by rw [has]; rfl⟩
    obtain ⟨other, last⟩ := Option.isSome_iff_exists.mp some
    obtain ⟨otherId, otherMember, otherHas⟩ := List.exists_of_findSome?_eq_some last
    rw [last, agreeing otherId (firstAll.mem_iff.mp otherMember) docId listed name other field
      otherHas has]

/-- A document can be the last one of the list. -/
theorem returnedField_last (steady : SteadyOcr around) {documentIds : List UUID}
    (readable : Readable around documentIds) {docId : UUID} (listed : docId ∈ documentIds)
    {name : String} {field : ExtractionField}
    (has : fieldIn tables around name docId = some field) :
    ∃ other : List UUID, other.Perm documentIds ∧
      returnedField tables around other name = some field.serialized := by
  have moved : (documentIds.erase docId ++ [docId]).Perm documentIds :=
    (List.perm_append_singleton docId _).trans (List.perm_cons_erase listed).symm
  refine ⟨_, moved, ?_⟩
  rw [returnedField_eq steady ((readable_perm moved).mpr readable), List.reverse_append,
    List.reverse_singleton, List.singleton_append, List.findSome?_cons, has]
  rfl

variable (tables) in
/-- Extraction does not depend on the order of the documents exactly where a document cannot be read
or no two of them have different fields of one name. Of two documents that disagree either can be
put last, where its field is the one returned; among documents that agree the first find is the same
in any order. -/
theorem orderIndependent_iff (steady : SteadyOcr around) (documentIds : List UUID) :
    OrderIndependent tables around documentIds ↔
      (Readable around documentIds → Agreeing tables around documentIds) := by
  constructor
  · intro independent readable first firstListed second secondListed name field other has otherHas
    obtain ⟨firstLast, firstPerm, firstReturned⟩ :=
      returnedField_last steady readable firstListed has
    obtain ⟨secondLast, secondPerm, secondReturned⟩ :=
      returnedField_last steady readable secondListed otherHas
    refine serialized_injective (Option.some.inj ?_)
    rw [← firstReturned, ← secondReturned, independent firstLast firstPerm,
      independent secondLast secondPerm]
  · intro agreeing other moved
    by_cases readable : Readable around documentIds
    · funext name
      rw [returnedField_eq steady ((readable_perm moved).mpr readable),
        returnedField_eq steady readable]
      exact congrArg _ (findSome?_agreeing (agreeing readable) ((List.reverse_perm _).trans moved)
        (List.reverse_perm _) name)
    · rw [returnedField_unreadable readable,
        returnedField_unreadable fun still => readable ((readable_perm moved).mp still)]

/-- Two forms with different claim numbers. -/
def twoForms : Surroundings where
  documents docId := some ⟨if docId = ⟨0, by decide⟩ then "first" else "second", "text/plain"⟩
  read payloadRef :=
    .ok (utf8 (if payloadRef = "first" then "Claim No: A1" else "Claim No: B2").toList)
  ocrName := "mock_ocr"
  extractText _ _ _ := .error ""
  aiName := "mock_ai"
  generate _ _ := .ok ⟨"mock-model-v1", "mock-v1.0", []⟩

/-- The claim number is that of the form that comes last. -/
theorem two_forms_differ : ¬OrderIndependent ⟨fun _ => none, fun _ => false⟩ twoForms
    [⟨0, by decide⟩, ⟨1, by decide⟩] := by
  intro independent
  have same := congrFun (independent [⟨1, by decide⟩, ⟨0, by decide⟩] (List.Perm.swap _ _ _))
    "claim_number"
  have values := congrArg (Option.map fun field => field.value) same
  revert values
  decide +kernel

/-- The field under a name is one of the fields found. -/
theorem mem_fieldsIn {name : String} {docId : UUID} {field : ExtractionField}
    (has : fieldIn tables around name docId = some field) :
    (name, field) ∈ fieldsIn tables around docId := by
  unfold fieldIn fieldAt at has
  unfold fieldsIn
  cases stored : around.documents docId with
  | none => rw [stored] at has; cases has
  | some doc =>
    cases read : around.read doc.payloadRef with
    | error _ => simp [stored, read, Except.toOption] at has
    | ok content =>
      simp only [stored, read, Except.toOption, Option.bind_eq_bind, Option.bind_some,
        ExtractionResult.field?] at has
      obtain ⟨entry, found, rfl⟩ := Option.map_eq_some_iff.mp has
      have named : entry.1 = name := by simpa using List.find?_some found
      rw [← named]
      simpa only [stored, read] using List.mem_of_find?_eq_some found

/-- Two pages of one claim, the first with a date of loss besides. -/
def twoPages : Surroundings where
  documents docId := some ⟨if docId = 0 then "first" else "second", "text/plain"⟩
  read payloadRef := .ok (utf8 (if payloadRef = "first" then
    "Claim No: A1\nDOL: 1/2/2024" else "Claim No: A1").toList)
  ocrName := "mock_ocr"
  extractText _ _ _ := .error ""
  aiName := "mock_ai"
  generate _ _ := .ok ⟨"mock-model-v1", "mock-v1.0", []⟩

/-- The pages have the same claim number in the same place, so they may be swapped; the extraction
has the fields of both. -/
theorem two_pages_independent :
    returnedField ⟨fun _ => none, fun _ => false⟩ twoPages [1, 0] =
      returnedField ⟨fun _ => none, fun _ => false⟩ twoPages [0, 1] ∧
    (returnedField ⟨fun _ => none, fun _ => false⟩ twoPages [0, 1] "claim_number").map
      (fun field => field.value) = some "A1" ∧
    (returnedField ⟨fun _ => none, fun _ => false⟩ twoPages [0, 1] "date_of_loss").map
      (fun field => field.value) = some "1/2/2024" := by
  have cross : ∀ entry ∈ fieldsIn ⟨fun _ => none, fun _ => false⟩ twoPages 0,
      ∀ other ∈ fieldsIn ⟨fun _ => none, fun _ => false⟩ twoPages 1,
        entry.1 = other.1 → entry.2.serialized = other.2.serialized := by decide +kernel
  have agreeing : Agreeing ⟨fun _ => none, fun _ => false⟩ twoPages [0, 1] := by
    simp only [Agreeing, List.mem_cons, List.not_mem_nil, or_false, forall_eq_or_imp, forall_eq]
    refine ⟨⟨fun name field other has otherHas => ?_, fun name field other has otherHas => ?_⟩,
      fun name field other has otherHas => ?_, fun name field other has otherHas => ?_⟩
    · exact Option.some.inj (has.symm.trans otherHas)
    · exact serialized_injective (cross _ (mem_fieldsIn has) _ (mem_fieldsIn otherHas) rfl)
    · exact serialized_injective (cross _ (mem_fieldsIn otherHas) _ (mem_fieldsIn has) rfl).symm
    · exact Option.some.inj (has.symm.trans otherHas)
  have independent := (orderIndependent_iff ⟨fun _ => none, fun _ => false⟩
    (fun _ _ _ _ => rfl : SteadyOcr twoPages) [0, 1]).mpr fun _ => agreeing
  exact ⟨independent [1, 0] (List.Perm.swap _ _ _), by decide +kernel, by decide +kernel⟩

end InsuranceOps
