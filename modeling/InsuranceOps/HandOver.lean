/-
This file models how the fields of any extractor pass from the extract step to
the validate step: they are written into nested dictionaries, one document after
the other, and made again from them. The attributes of a dataclass are not
checked, so they are any values here, except for the confidence, which must be
comparable with numbers and between zero and one.
-/

import InsuranceOps.ReviewFlags

namespace InsuranceOps.HandOver

/-! ### Extraction results -/

/-- The number a value is compared as, if it is one. -/
def numeric? : Json → Option ℚ
  | .bool value => some (if value then 1 else 0)
  | .int value => some value
  | .float value => some value
  | .negativeZero => some 0
  | _ => none

/-- `0.0 <= confidence <= 1.0`, where the comparison does not raise. -/
def inUnit (confidence : Json) : Option Bool :=
  (numeric? confidence).map fun value => 0 ≤ value ∧ value ≤ 1

/-- Source location of an extracted field value. -/
structure Provenance where
  page : Json := .null
  offsetStart : Json := .null
  offsetEnd : Json := .null
  textSnippet : Json := .null
  deriving DecidableEq

/-- A single extracted field with confidence and provenance. -/
structure ExtractionField where
  name : Json
  value : Json
  confidence : Json
  provenance : List Provenance := []
  confident : inUnit confidence = some true
  deriving DecidableEq

/-- Result of running an extractor on document content. -/
structure ExtractionResult where
  fields : List (String × ExtractionField)
  distinct : (fields.map Prod.fst).Nodup
  extractorName : Json
  extractorVersion : Json
  rawText : Json := .null

/-- What making a result from an output raises. -/
inductive ReadError where
  | attributeError (missing : String)
  | keyError (key : String)
  | typeError
  | confidenceOutOfRange (confidence : Json)
  deriving DecidableEq

/-- `ExtractionField(...)` with the check of `__post_init__`. -/
def ExtractionField.make (name value confidence : Json) (provenance : List Provenance) :
    Except ReadError ExtractionField :=
  match confident : inUnit confidence with
  | some true => .ok ⟨name, value, confidence, provenance, confident⟩
  | some false => .error (.confidenceOutOfRange confidence)
  | none => .error .typeError

/-! ### The output of the extract step -/

/-- The dictionary of a source location. -/
def Provenance.serialized (source : Provenance) : Json :=
  .object [("page", source.page), ("offset_start", source.offsetStart),
    ("offset_end", source.offsetEnd), ("text_snippet", source.textSnippet)]

/-- The dictionary of a field. -/
def ExtractionField.serialized (field : ExtractionField) : Json :=
  .object [("name", field.name), ("value", field.value), ("confidence", field.confidence),
    ("provenance", .array (field.provenance.map Provenance.serialized))]

/-- Merge fields from one document. -/
def mergeFields (allFields : JsonObject) (result : ExtractionResult) : JsonObject :=
  Dictionary.update allFields (result.fields.map (Prod.map id ExtractionField.serialized))

/-- An extractor: its names, and what it makes of a content, its type and the metadata of the
document; an error is the text of an exception. -/
structure Extractor where
  name : String
  version : String
  extract : List UInt8 → String → JsonObject → Except String ExtractionResult

namespace ExtractStepHandler

open InsuranceOps.ExtractStepHandler (load ocrCall effectiveContent)

-- Of the providers' records only what they sum up to goes into the output, and nothing reads it.
variable (around : Surroundings) (extractor : Extractor) (metadata : UUID → JsonObject)
  (aiMetadata : List UUID → Json)

/-- The content type given to the extractor: text that the OCR provider read is plain. -/
def effectiveContentType (index : Nat) (doc : DocumentModel) (content : List UInt8) : String :=
  match ocrCall around index doc content with
  | some (.ok _) => "text/plain"
  | some (.error _) | none => doc.contentType

/-- Load a document and extract its fields. -/
def processDocument (place : UUID × Nat) : Except Stop ExtractionResult := do
  let (doc, content) ← load around place.1
  match extractor.extract (effectiveContent around place.2 doc content)
      (effectiveContentType around place.2 doc content) (metadata place.1) with
  | .ok result => return result
  | .error text => throw (.failed .failedRetryable "EXTRACTION_ERROR"
      s!"Extractor failed for document {place.1.str}: {text}")

/-- The output for the merged fields. -/
def output (documentIds : List UUID) (allFields : JsonObject) : JsonObject :=
  [("fields", .object allFields), ("extractor_name", .string extractor.name),
    ("extractor_version", .string extractor.version), ("ai_metadata", aiMetadata documentIds)]

/-- Extract structured data from documents; an error is an exception. -/
def handle (documentIds : List UUID) : Except String (HandlerResult JsonObject) :=
  let merged := documentIds.zipIdx.foldlM (fun allFields place => do
    let result ← processDocument around extractor metadata place
    return mergeFields allFields result) []
  match merged with
  | .ok allFields =>
    .ok { status := .succeeded, output := some (output extractor aiMetadata documentIds allFields) }
  | .error (.returned result) => .ok {
      status := result.status
      errorCode := result.errorCode
      errorDetail := result.errorDetail }
  | .error (.raised text) => .error text

end ExtractStepHandler

/-! ### Reading it in the validate step -/

/-- `value.items()`. -/
def items : Json → Except ReadError JsonObject
  | .object entries => .ok entries
  | _ => .error (.attributeError "items")

/-- `value.get(key, otherwise)`. -/
def getOr (key : String) (otherwise : Json) : Json → Except ReadError Json
  | .object entries => .ok ((Dictionary.get? entries key).getD otherwise)
  | _ => .error (.attributeError "get")

/-- `value[key]`. -/
def getItem (key : String) : Json → Except ReadError Json
  | .object entries =>
    match Dictionary.get? entries key with
    | some value => .ok value
    | none => .error (.keyError key)
  | _ => .error .typeError

/-- What a loop over a value runs through. -/
def iterated : Json → Except ReadError (List Json)
  | .array items => .ok items
  | .object entries => .ok (entries.map fun entry => .string entry.1)
  | .string value => .ok (value.toList.map fun char => .string (String.singleton char))
  | _ => .error .typeError

def readProvenance (source : Json) : Except ReadError Provenance := do
  let page ← getOr "page" .null source
  let offsetStart ← getOr "offset_start" .null source
  let offsetEnd ← getOr "offset_end" .null source
  let textSnippet ← getOr "text_snippet" .null source
  return ⟨page, offsetStart, offsetEnd, textSnippet⟩

def readField (fieldData : Json) : Except ReadError ExtractionField := do
  let sources ← getOr "provenance" (.array []) fieldData
  let provenanceList ← (← iterated sources).mapM readProvenance
  let name ← getItem "name" fieldData
  let value ← getItem "value" fieldData
  let confidence ← getItem "confidence" fieldData
  ExtractionField.make name value confidence provenanceList

/-- Reconstruct an extraction result from the serialized output of the extract step. -/
def reconstructExtractionResult (extractOutput : JsonObject) :
    Except ReadError ExtractionResult := do
  let rawFields ← getOr "fields" (.object []) (.object extractOutput)
  let fields ← (← items rawFields).mapM fun entry => do
    let field ← readField entry.2
    return (entry.1, field)
  let extractorName ← getOr "extractor_name" (.string "unknown") (.object extractOutput)
  let extractorVersion ← getOr "extractor_version" (.string "unknown") (.object extractOutput)
  return {
    fields := Dictionary.update [] fields
    distinct := Dictionary.nodup_update_nil fields
    extractorName := extractorName
    extractorVersion := extractorVersion }

/-! ### What was written is read -/

theorem readProvenance_serialized (source : Provenance) :
    readProvenance source.serialized = .ok source := rfl

theorem make_self (field : ExtractionField) :
    ExtractionField.make field.name field.value field.confidence field.provenance =
      .ok field := by
  unfold ExtractionField.make
  split
  · rfl
  · rename_i outside
    exact absurd (outside.symm.trans field.confident) (by decide)
  · rename_i raises
    exact absurd (raises.symm.trans field.confident) (by decide)

/-- A field is made again from its dictionary. -/
theorem readField_serialized (field : ExtractionField) :
    readField field.serialized = .ok field := by
  have sources : (field.provenance.map Provenance.serialized).mapM readProvenance =
      .ok field.provenance := Fallible.mapM_map_ok readProvenance_serialized _
  calc readField field.serialized
      = (do
          let provenanceList ← (field.provenance.map Provenance.serialized).mapM readProvenance
          ExtractionField.make field.name field.value field.confidence provenanceList) := rfl
    _ = .ok field := by
        rw [sources]
        exact make_self field

/-- The fields of some results, later ones over earlier ones. -/
def mergedFields (results : List ExtractionResult) : List (String × ExtractionField) :=
  (results.map ExtractionResult.fields).foldl Dictionary.update []

theorem mergedFields_nodup (results : List ExtractionResult) :
    ((mergedFields results).map Prod.fst).Nodup :=
  Dictionary.nodup_updates _

/-- Merging dictionaries of fields is merging the fields. -/
theorem foldl_mergeFields (results : List ExtractionResult) :
    results.foldl mergeFields [] =
      (mergedFields results).map (Prod.map id ExtractionField.serialized) := by
  have general (fields : List (String × ExtractionField)) :
      results.foldl mergeFields (fields.map (Prod.map id ExtractionField.serialized)) =
        ((results.map ExtractionResult.fields).foldl Dictionary.update fields).map
          (Prod.map id ExtractionField.serialized) := by
    induction results generalizing fields with
    | nil => rfl
    | cons result rest inductionHypothesis =>
      rw [List.foldl_cons, List.map_cons, List.foldl_cons, mergeFields, Dictionary.update_map,
        inductionHypothesis]
  exact general []

section Handler

open HandOver.ExtractStepHandler

variable {around : Surroundings} {extractor : Extractor} {metadata : UUID → JsonObject}

/-- The handler succeeds where every document has a result. -/
theorem handle_eq (aiMetadata : List UUID → Json) {documentIds : List UUID}
    {results : List ExtractionResult}
    (extracted :
      documentIds.zipIdx.mapM (processDocument around extractor metadata) = .ok results) :
    handle around extractor metadata aiMetadata documentIds = .ok {
      status := .succeeded
      output := some (output extractor aiMetadata documentIds
        ((mergedFields results).map (Prod.map id ExtractionField.serialized))) } := by
  unfold handle
  rw [Fallible.foldlM_of_mapM extracted, foldl_mergeFields]

/-- The merged fields are read from the output as they were. -/
theorem reconstruct_output (aiMetadata : List UUID → Json) (documentIds : List UUID)
    {fields : List (String × ExtractionField)} (distinct : (fields.map Prod.fst).Nodup) :
    reconstructExtractionResult (output extractor aiMetadata documentIds
      (fields.map (Prod.map id ExtractionField.serialized))) = .ok {
        fields := fields
        distinct := distinct
        extractorName := .string extractor.name
        extractorVersion := .string extractor.version } := by
  have entries : (fields.map (Prod.map id ExtractionField.serialized)).mapM
      (fun entry => do
        let field ← readField entry.2
        return (entry.1, field)) = (.ok fields : Except ReadError _) :=
    Fallible.mapM_map_ok (fun entry => by
      rw [Prod.map_snd, readField_serialized]
      rfl) fields
  have same := Dictionary.update_nil distinct
  calc reconstructExtractionResult (output extractor aiMetadata documentIds
        (fields.map (Prod.map id ExtractionField.serialized)))
      = (do
          let fields ← (fields.map (Prod.map id ExtractionField.serialized)).mapM fun entry => do
            let field ← readField entry.2
            return (entry.1, field)
          return {
            fields := Dictionary.update [] fields
            distinct := Dictionary.nodup_update_nil fields
            extractorName := .string extractor.name
            extractorVersion := .string extractor.version }) := rfl
    _ = _ := by
      rw [entries]
      show Except.ok _ = Except.ok _
      simp only [same]

/-- **Hand-over of the fields.** Where every document has a result, the validate step makes from the
output of the extract step the union of their fields, those of later documents over those of earlier
ones, under the names of the extractor. A confidence passes its check again, and the later entries
of a dictionary replace the earlier ones. -/
theorem hand_over (aiMetadata : List UUID → Json) {documentIds : List UUID}
    {results : List ExtractionResult}
    (extracted :
      documentIds.zipIdx.mapM (processDocument around extractor metadata) = .ok results) :
    ∃ extractOutput result,
      handle around extractor metadata aiMetadata documentIds =
        .ok { status := .succeeded, output := some extractOutput } ∧
      reconstructExtractionResult extractOutput = .ok result ∧
      (∀ name, Dictionary.get? result.fields name =
        Dictionary.last? (results.map ExtractionResult.fields) name) ∧
      result.extractorName = .string extractor.name ∧
      result.extractorVersion = .string extractor.version ∧ result.rawText = .null := by
  refine ⟨_, _, handle_eq aiMetadata extracted,
    reconstruct_output aiMetadata documentIds (mergedFields_nodup results), fun name => ?_,
    rfl, rfl, rfl⟩
  have distinct : ∀ fields ∈ results.map ExtractionResult.fields,
      (fields.map Prod.fst).Nodup := by
    intro fields member
    obtain ⟨result, -, rfl⟩ := List.mem_map.mp member
    exact result.distinct
  exact (Dictionary.get?_updates distinct [] name).trans Option.or_none

end Handler

/-! ### The stub extractor -/

/-- A field of the stub extractor. -/
def ExtractionField.ofStub (field : InsuranceOps.ExtractionField) : ExtractionField where
  name := .string field.name
  value := .string field.value
  confidence := .float field.confidence
  provenance := field.provenance.map fun source => {
    page := (source.page.map fun page => Json.int page).getD .null
    offsetStart := (source.offsetStart.map fun offset => Json.int offset).getD .null
    offsetEnd := (source.offsetEnd.map fun offset => Json.int offset).getD .null
    textSnippet := (source.textSnippet.map Json.string).getD .null }
  confident := congrArg some (decide_eq_true field.confident)

theorem ofStub_keys (fields : List (String × InsuranceOps.ExtractionField)) :
    (fields.map (Prod.map id ExtractionField.ofStub)).map Prod.fst = fields.map Prod.fst := by
  rw [List.map_map]
  rfl

/-- A result of the stub extractor. -/
def ExtractionResult.ofStub (result : InsuranceOps.ExtractionResult)
    (distinct : (result.fields.map Prod.fst).Nodup) : ExtractionResult where
  fields := result.fields.map (Prod.map id ExtractionField.ofStub)
  distinct := (ofStub_keys result.fields).symm ▸ distinct
  extractorName := .string result.extractorName
  extractorVersion := .string result.extractorVersion
  rawText := (result.rawText.map Json.string).getD .null

/-- The stub extractor as one of the extractors. -/
def stubExtractor (tables : UnicodeTables) : Extractor where
  name := StubExtractor.name
  version := StubExtractor.version
  extract content _ _ := .ok
    (.ofStub (StubExtractor.extract tables content) (extract_names_nodup tables content))

section Stub

variable {tables : UnicodeTables} {around : Surroundings}

/-- What the loop over the documents has gathered is what the stub extractor hands over. -/
theorem collect_stub (metadata : UUID → JsonObject) {documentIds : List UUID}
    {collected : InsuranceOps.ExtractStepHandler.Collected}
    (ran : InsuranceOps.ExtractStepHandler.collect tables around documentIds = .ok collected) :
    ∃ results, ∃ fields : List (String × InsuranceOps.ExtractionField),
      documentIds.zipIdx.mapM (ExtractStepHandler.processDocument around (stubExtractor tables)
        metadata) = .ok results ∧
      collected.fields = fields.map (Prod.map id InsuranceOps.ExtractionField.serialized) ∧
      mergedFields results = fields.map (Prod.map id ExtractionField.ofStub) := by
  refine Fallible.foldlM_ok (fun places collected => ∃ results,
    ∃ fields : List (String × InsuranceOps.ExtractionField),
    places.mapM (ExtractStepHandler.processDocument around (stubExtractor tables) metadata) =
      .ok results ∧
    collected.fields = fields.map (Prod.map id InsuranceOps.ExtractionField.serialized) ∧
    mergedFields results = fields.map (Prod.map id ExtractionField.ofStub)) ?_ ?_ ran
  · rintro places collected place next ⟨results, fields, extracted, stored, merged⟩ stepped
    obtain ⟨processed, worked, added⟩ := Fallible.bind_eq_ok.mp stepped
    cases added
    obtain ⟨⟨doc, content⟩, loaded, added⟩ := Fallible.bind_eq_ok.mp worked
    cases added
    let stub := StubExtractor.extract tables
      (InsuranceOps.ExtractStepHandler.effectiveContent around place.2 doc content)
    let result : ExtractionResult := .ofStub stub (extract_names_nodup tables _)
    have extractedLast : ExtractStepHandler.processDocument around (stubExtractor tables) metadata
        place = .ok result := Fallible.bind_eq_ok.mpr ⟨(doc, content), loaded, rfl⟩
    refine ⟨results ++ [result], Dictionary.update fields stub.fields, ?_, ?_, ?_⟩
    · rw [List.mapM_append, extracted, List.mapM_cons, extractedLast]
      rfl
    · rw [← Dictionary.update_map, ← stored]
      rfl
    · rw [mergedFields, List.map_append, List.foldl_append, ← mergedFields, merged,
        ← Dictionary.update_map]
      rfl
  · exact ⟨[], [], rfl, rfl, rfl⟩

/-- Where the extract step with the stub extractor succeeds, the validate step makes from its
output, written as dictionaries, the fields it makes in the typed model. -/
theorem handle_stub (metadata : UUID → JsonObject) (aiMetadata : List UUID → Json)
    {documentIds : List UUID} {typed : ExtractOutput}
    (succeeded : InsuranceOps.ExtractStepHandler.handle tables around documentIds =
      .ok { status := .succeeded, output := some typed }) :
    ∃ extractOutput result, ∃ fields : List (String × InsuranceOps.ExtractionField),
      ExtractStepHandler.handle around (stubExtractor tables) metadata aiMetadata documentIds =
        .ok { status := .succeeded, output := some extractOutput } ∧
      InsuranceOps.reconstructExtractionResult typed = .ok {
        fields := fields
        extractorName := typed.extractorName
        extractorVersion := typed.extractorVersion } ∧
      reconstructExtractionResult extractOutput = .ok result ∧
      result.fields = fields.map (Prod.map id ExtractionField.ofStub) := by
  unfold InsuranceOps.ExtractStepHandler.handle at succeeded
  split at succeeded
  · rename_i collected ran
    cases succeeded
    obtain ⟨results, fields, extracted, stored, merged⟩ := collect_stub metadata ran
    exact ⟨_, _, fields, handle_eq aiMetadata extracted, reconstruct_serialized stored,
      reconstruct_output aiMetadata documentIds (mergedFields_nodup results), merged⟩
  · rename_i result stopped
    cases succeeded
    have none : some typed = none := InsuranceOps.collect_stopped stopped
    cases none
  · cases succeeded

end Stub

/-- Two readable documents. -/
def twoDocuments : Surroundings where
  documents id := some ⟨if id = 1 then "first" else "second", "text/plain"⟩
  read payloadRef := .ok (if payloadRef = "first" then [1] else [2])
  ocrName := "none"
  extractText _ _ _ := .error "no OCR"
  aiName := "none"
  generate _ _ := .error "no AI"

/-- An extractor that finds an amount in every content, and where it stands in the second. -/
def amountExtractor : Extractor where
  name := "amounts"
  version := "1"
  extract content _ _ := .ok {
    fields := [("amount", {
      name := .string "amount"
      value := .array [.int content.length, .null]
      confidence := .float (1 / 2)
      provenance := if content = [1] then [] else [{ page := .int 3 }]
      confident := by decide +kernel })]
    distinct := List.nodup_singleton _
    extractorName := .string "amounts"
    extractorVersion := .string "1" }

theorem two_documents_handed_over :
    ∃ extractOutput result,
      ExtractStepHandler.handle twoDocuments amountExtractor (fun _ => []) (fun _ => .null) [1, 2] =
        .ok { status := .succeeded, output := some extractOutput } ∧
      reconstructExtractionResult extractOutput = .ok result ∧
      (Dictionary.get? result.fields "amount").map ExtractionField.provenance =
        some [{ page := .int 3 }] := by
  have extracted : [1, 2].zipIdx.mapM (ExtractStepHandler.processDocument twoDocuments
      amountExtractor fun _ => []) = .ok _ := rfl
  obtain ⟨extractOutput, result, handled, read, fields, -⟩ := hand_over (fun _ => .null) extracted
  refine ⟨extractOutput, result, handled, read, ?_⟩
  rw [fields]
  rfl

end InsuranceOps.HandOver
