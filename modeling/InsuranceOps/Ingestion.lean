/-
This file models the ingestion pipeline, which reads, extracts and enhances one
document like the extract step. The step passes over a provider call that raises
and falls back on the payload; the pipeline lets the exception through. So AI
failures do not block the pipeline just when none of its calls raises.
-/

import InsuranceOps.ReviewFlags

namespace InsuranceOps

open ExtractStepHandler

/-! ### The pipeline -/

/-- Result of the AI-assisted ingestion pipeline. -/
structure IngestionResult where
  extraction : ExtractionResult
  ocrResult : Option OCRResult
  aiEnhancement : Option ProviderResponse
  contentHash : String
  requiresReview : Bool

/-- The providers and settings the pipeline is run with; an error is the text of an exception. -/
structure IngestionSettings where
  ocrProvider : List UInt8 → String → Except String OCRResult
  aiProvider : Option (String → Except String ProviderResponse)
  confidenceThreshold : FloatValue := .finite (roundToDouble (8 / 10))
  enableAiEnhancement : Bool := true

/-- `sha256(content).hexdigest()`. -/
def hexDigest (content : List UInt8) : String :=
  String.ofList ((Sha256.digest content).flatMap fun byte =>
    [hexDigit (byte.toNat / 16), hexDigit (byte.toNat % 16)])

/-- A field as the prompt lists it. -/
def fieldLine (name : String) (field : ExtractionField) : String :=
  s!"  - {name}: {field.value} (confidence: {twoDecimals field.confidence})"

/-- Build a prompt for AI-enhanced field extraction. -/
def buildEnhancementPrompt (text : Text) (extraction : ExtractionResult)
    (lowConfidenceFields : List ExtractionField) : String :=
  let existing := "\n".intercalate (extraction.fields.map fun entry => fieldLine entry.1 entry.2)
  let lowConf := "\n".intercalate (lowConfidenceFields.map fun field => fieldLine field.name field)
  "You are an insurance document extraction assistant.\n" ++
  "Given the following document text, verify and improve the extracted fields.\n\n" ++
  s!"Document text (first 2000 chars):\n{String.ofList (text.take 2000)}\n\n" ++
  s!"Currently extracted fields:\n{existing}\n\n" ++
  "Low-confidence fields needing verification:\n" ++
  (if lowConf = "" then "(none)" else lowConf) ++ "\n\n" ++
  "Expected fields: claim_number, policy_number, claimant_name, " ++
  "date_of_loss, claim_type, description.\n\n" ++
  "Return corrections or confirmations for each field."

section Pipeline

variable (tables : UnicodeTables) (settings : IngestionSettings)

/-- The call of the OCR provider for a document, if it needs one. -/
def ingestionOcrCall (content : List UInt8) (contentType : String) :
    Option (Except String OCRResult) :=
  if contentType ∈ ocrContentTypes then some (settings.ocrProvider content contentType) else none

/-- The call of the AI provider for fields that are few or weak, where enhancement is on. -/
def ingestionAiCall (textContent : List UInt8) (extraction : ExtractionResult) :
    Option (Except String ProviderResponse) :=
  let lowConfidenceFields := (extraction.fields.map Prod.snd).filter fun field =>
    FloatValue.less (.finite field.confidence) settings.confidenceThreshold
  match settings.aiProvider with
  | some generate =>
    if settings.enableAiEnhancement ∧
        (lowConfidenceFields ≠ [] ∨ extraction.fields.length < 3) then
      some (generate (buildEnhancementPrompt (decodeReplace textContent) extraction
        lowConfidenceFields))
    else none
  | none => none

/-- Run the full AI-assisted document ingestion pipeline. -/
def runIngestionPipeline (content : List UInt8) (contentType : String) :
    Except String IngestionResult := do
  let ocrResult ← (ingestionOcrCall settings content contentType).mapM id
  let textContent := ocrResult.elim content fun ocrResult => utf8 ocrResult.fullText.toList
  let extraction := StubExtractor.extract tables textContent
  let aiEnhancement ← (ingestionAiCall settings textContent extraction).mapM id
  return {
    extraction := extraction
    ocrResult := ocrResult
    aiEnhancement := aiEnhancement
    contentHash := hexDigest content
    requiresReview :=
      FloatValue.less (.finite (minConfidence extraction.fields)) settings.confidenceThreshold ∨
        extraction.fields.length < 3 }

end Pipeline

/-! ### Failures of the providers -/

/-- What fields are extracted from: the text of the OCR call where it returned, or the payload. -/
def textRead (content : List UInt8) : Option (Except String OCRResult) → List UInt8
  | some (.ok ocrResult) => utf8 ocrResult.fullText.toList
  | some (.error _) | none => content

section Failures

variable (tables : UnicodeTables) (settings : IngestionSettings) (around : Surroundings)

/-- The fields the pipeline ought to find. -/
def expectedExtraction (content : List UInt8) (contentType : String) : ExtractionResult :=
  StubExtractor.extract tables (textRead content (ingestionOcrCall settings content contentType))

/-- A provider call of the pipeline raises. -/
def PipelineCallRaises (content : List UInt8) (contentType : String) : Prop :=
  (∃ text, ingestionOcrCall settings content contentType = some (.error text)) ∨
    ∃ text, ingestionAiCall settings
      (textRead content (ingestionOcrCall settings content contentType))
      (expectedExtraction tables settings content contentType) = some (.error text)

/-- AI failures block neither the pipeline nor the extract step of a document: both return the
fields of the text that could be read, and the pipeline asks for a review where a call raised. -/
structure NeverBlocked (docId : UUID) (doc : DocumentModel) (content : List UInt8) : Prop where
  pipeline : ∃ result, runIngestionPipeline tables settings content doc.contentType = .ok result ∧
    result.extraction.fields = (expectedExtraction tables settings content doc.contentType).fields
  step : ∃ output, ExtractStepHandler.handle tables around [docId] =
      .ok { status := .succeeded, output := some output } ∧
    output.fields = (StubExtractor.extract tables
      (textRead content (ocrCall around 0 doc content))).fields.map
        (Prod.map id ExtractionField.serialized)
  review : PipelineCallRaises tables settings content doc.contentType →
    ∃ result, runIngestionPipeline tables settings content doc.contentType = .ok result ∧
      result.requiresReview = true

end Failures

section Blocked

variable {tables : UnicodeTables} {settings : IngestionSettings} {around : Surroundings}

/-- A call that is made gives its result or its exception. -/
theorem made_call {Response : Type} (call : Option (Except String Response)) :
    (∃ text, call = some (.error text) ∧ call.mapM id = .error text) ∨
      ∃ response, call = response.map .ok ∧ call.mapM id = .ok response := by
  cases call with
  | none => exact .inr ⟨none, rfl, rfl⟩
  | some outcome =>
    cases outcome with
    | error text => exact .inl ⟨text, rfl, rfl⟩
    | ok response => exact .inr ⟨some response, rfl, rfl⟩

/-- The pipeline returns the fields of the text it could read, or raises with one of its calls. -/
theorem runIngestionPipeline_returns_iff (content : List UInt8) (contentType : String) :
    (∃ result, runIngestionPipeline tables settings content contentType = .ok result ∧
        result.extraction.fields =
          (expectedExtraction tables settings content contentType).fields) ↔
      ¬PipelineCallRaises tables settings content contentType := by
  unfold runIngestionPipeline PipelineCallRaises expectedExtraction
  rcases made_call (ingestionOcrCall settings content contentType) with
    ⟨text, raised, failed⟩ | ⟨ocrResult, returned, read⟩
  · rw [failed, raised]
    refine iff_of_false ?_ fun quiet => quiet (.inl ⟨text, rfl⟩)
    rintro ⟨_, ran, _⟩
    cases ran
  · have text : textRead content (ocrResult.map .ok) =
        ocrResult.elim content fun ocrResult => utf8 ocrResult.fullText.toList := by
      cases ocrResult <;> rfl
    have quiet : ¬∃ text : String, ocrResult.map Except.ok = some (.error text) := by
      rintro ⟨text, same⟩
      cases ocrResult <;> cases same
    rw [read, returned, text, or_iff_right quiet]
    rcases made_call (ingestionAiCall settings
      (ocrResult.elim content fun ocrResult => utf8 ocrResult.fullText.toList)
      (StubExtractor.extract tables
        (ocrResult.elim content fun ocrResult => utf8 ocrResult.fullText.toList))) with
      ⟨text, raised, failed⟩ | ⟨response, returned, enhanced⟩
    · refine iff_of_false ?_ fun quiet => quiet ⟨text, raised⟩
      rintro ⟨_, ran, _⟩
      simp only [bind, Except.bind, failed] at ran
      cases ran
    · refine iff_of_true ?_ ?_
      · simp only [bind, Except.bind, enhanced]
        exact ⟨_, rfl, rfl⟩
      · rintro ⟨text, raised⟩
        rw [returned] at raised
        cases response <;> cases raised

/-- The extract step of a document that can be read returns its fields, whatever the providers
do. -/
theorem step_returns {docId : UUID} {doc : DocumentModel} {content : List UInt8}
    (reads : Reads around docId doc content) :
    ∃ output, ExtractStepHandler.handle tables around [docId] =
        .ok { status := .succeeded, output := some output } ∧
      output.fields = (StubExtractor.extract tables
        (textRead content (ocrCall around 0 doc content))).fields.map
          (Prod.map id ExtractionField.serialized) := by
  have loaded : load around docId = .ok (doc, content) := load_eq_ok_iff.mpr reads
  have same : effectiveContent around 0 doc content =
      textRead content (ocrCall around 0 doc content) := by
    unfold effectiveContent
    cases ocrCall around 0 doc content with
    | none => rfl
    | some outcome => cases outcome <;> rfl
  have collected : ∃ collected, collect tables around [docId] = .ok collected ∧
      collected.fields = Dictionary.update [] ((StubExtractor.extract tables
        (effectiveContent around 0 doc content)).fields.map
          (Prod.map id ExtractionField.serialized)) := by
    unfold collect processDocument
    simp only [List.zipIdx_cons, List.zipIdx_nil, List.foldlM_cons, List.foldlM_nil, loaded, bind,
      Except.bind, pure, Except.pure]
    exact ⟨_, rfl, rfl⟩
  obtain ⟨collected, looped, fields⟩ := collected
  refine ⟨collected.output, ?_, ?_⟩
  · unfold ExtractStepHandler.handle
    rw [looped]
  · rw [← same, show collected.output.fields = collected.fields from rfl, fields,
      Dictionary.update_nil]
    rw [List.map_map]
    exact extract_names_nodup tables _

end Blocked

/-- A scan whose OCR call raises. -/
def unreadableScan : IngestionSettings where
  ocrProvider _ _ := .error "service unavailable"
  aiProvider := none

end InsuranceOps
