/-
This file models the extract step and the validate step. The extract step loads
each document, has an image or PDF read by the OCR provider, extracts its
fields, asks the AI provider about weak ones and sums up what its providers did;
a provider call that raises is passed over. The validate step checks the fields
and routes what passes by their confidences.
-/

import InsuranceOps.Identifier
import InsuranceOps.Validator
import InsuranceOps.Workflow
import InsuranceOps.Library.Dictionary
import InsuranceOps.Library.Fallible

namespace InsuranceOps

/-! ### Providers -/

/-- Extracted text from a single page; of it only the confidence is read. -/
structure OCRPage where
  confidence : FloatValue

/-- Result of OCR processing on a document. -/
structure OCRResult where
  pages : List OCRPage
  fullText : String

/-- Response from an AI provider call. -/
structure ProviderResponse where
  model : String
  promptVersion : String
  usage : List (String × Int) := []

/-- What is read of a row of `documents`. -/
structure DocumentModel where
  payloadRef : String
  contentType : String

/-- What reading a payload raises. -/
inductive ReadFailure where
  | fileNotFound
  | osError (text : String)
  | other (text : String)

/-- What the steps draw from their surroundings: the documents and their payloads, and what the
providers do for the document at each place; an error is the text of an exception. -/
structure Surroundings where
  documents : UUID → Option DocumentModel
  read : String → Except ReadFailure (List UInt8)
  ocrName : String
  extractText : Nat → List UInt8 → String → Except String OCRResult
  aiName : String
  generate : Nat → String → Except String ProviderResponse

/-! ### Execution metadata -/

/-- Metadata about a single AI operation within a step. -/
structure AIExecutionMetadata where
  operationType : String
  providerName : String
  model : String
  promptVersion : String
  inputHash : String := ""
  outputHash : String := ""
  confidence : Option FloatValue := none
  tokenUsage : List (String × Int) := []
  success : Bool := true

/-- Aggregated AI metadata for an entire step execution. -/
structure AIStepMetadata where
  executions : List AIExecutionMetadata
  totalTokens : Int
  minConfidence : Option FloatValue
  requiresReview : Bool

/-- `first < second`. -/
def FloatValue.less : FloatValue → FloatValue → Bool
  | .nan, _ | _, .nan => false
  | first, second => !first.atLeast second

/-- `min(values, default=otherwise)`: the first value stays until one is less. -/
def floatMin (otherwise : FloatValue) : List FloatValue → FloatValue
  | [] => otherwise
  | first :: rest => rest.foldl (fun least value => if value.less least then value else least) first

/-- Aggregate individual AI executions into step-level metadata. -/
def aggregateStepMetadata (executions : List AIExecutionMetadata) : AIStepMetadata :=
  let confidences := executions.filterMap fun execution => execution.confidence
  { executions := executions
    totalTokens := (executions.map fun execution =>
      (execution.tokenUsage.map Prod.snd).sum).sum
    minConfidence := if confidences = [] then none else some (floatMin .nan confidences)
    requiresReview :=
      executions.any (fun execution =>
        execution.confidence.any (FloatValue.isBelow (roundToDouble (7 / 10)))) ∨
      executions.any fun execution => !execution.success }

/-! ### The extract step -/

/-- Result returned by a step handler whose output has a type of its own. -/
structure HandlerResult (Output : Type) where
  status : StepStatus
  output : Option Output := none
  errorCode : Option String := none
  errorDetail : Option String := none

/-- An extracted field as the extract step puts it into its output. -/
structure SerializedField where
  name : String
  value : String
  confidence : FloatValue
  provenance : List Provenance
  deriving DecidableEq

def ExtractionField.serialized (field : ExtractionField) : SerializedField where
  name := field.name
  value := field.value
  confidence := .finite field.confidence
  provenance := field.provenance

/-- The output of the extract step. -/
structure ExtractOutput where
  fields : List (String × SerializedField)
  extractorName : String
  extractorVersion : String
  aiMetadata : AIStepMetadata

/-- How processing the documents ends early: with a result, or with an exception. -/
inductive Stop where
  | returned (result : HandlerResult ExtractOutput)
  | raised (text : String)

def Stop.failed (status : StepStatus) (code detail : String) : Stop :=
  .returned { status := status, errorCode := some code, errorDetail := some detail }

/-- The first sixteen digits of `sha256(content).hexdigest()`. -/
def shortHash (content : List UInt8) : String :=
  String.ofList (((Sha256.digest content).flatMap fun byte =>
    [hexDigit (byte.toNat / 16), hexDigit (byte.toNat % 16)]).take 16)

/-- `str(names)` of a list of names without quotation marks. -/
def listText (names : List String) : String :=
  "[" ++ String.intercalate ", " (names.map fun name => "'" ++ name ++ "'") ++ "]"

/-- The number with two decimals, `:.2f`, of one that is not negative. -/
def twoDecimals (value : ℚ) : String :=
  let hundredths := (roundHalfEven (value * 100)).toNat
  String.ofList (decimal (hundredths / 100) ++ '.' :: padded 2 (hundredths % 100))

/-- Content types that benefit from OCR preprocessing. -/
def ocrContentTypes : List String := ["application/pdf", "image/png", "image/jpeg", "image/tiff"]

namespace ExtractStepHandler

variable (tables : UnicodeTables) (around : Surroundings)

/-- Look a document up and read its payload. -/
def load (docId : UUID) : Except Stop (DocumentModel × List UInt8) :=
  match around.documents docId with
  | none => .error (.failed .failedTerminal "DOCUMENT_NOT_FOUND"
      s!"Document {docId.str} not found during extraction.")
  | some doc =>
    match around.read doc.payloadRef with
    | .ok content => .ok (doc, content)
    | .error .fileNotFound => .error (.failed .failedRetryable "PAYLOAD_NOT_FOUND"
        s!"Payload not found for document {docId.str} (ref: {doc.payloadRef}).")
    | .error (.osError text) => .error (.failed .failedRetryable "PAYLOAD_READ_ERROR"
        s!"Error reading payload for document {docId.str}: {text}")
    | .error (.other text) => .error (.raised text)

/-- The call of the OCR provider for a document, if there is one. -/
def ocrCall (index : Nat) (doc : DocumentModel) (content : List UInt8) :
    Option (Except String OCRResult) :=
  if doc.contentType ∈ ocrContentTypes then
    some (around.extractText index content doc.contentType)
  else none

/-- What the fields are extracted from: the text the OCR provider read, or the payload itself, also
where the call raised. -/
def effectiveContent (index : Nat) (doc : DocumentModel) (content : List UInt8) : List UInt8 :=
  match ocrCall around index doc content with
  | some (.ok ocrResult) => utf8 ocrResult.fullText.toList
  | some (.error _) | none => content

/-- The record of the OCR call; there is none of a call that raised. -/
def ocrExecutions (index : Nat) (doc : DocumentModel) (content : List UInt8) :
    List AIExecutionMetadata :=
  match ocrCall around index doc content with
  | some (.ok ocrResult) => [{
      operationType := "ocr"
      providerName := around.ocrName
      model := "ocr"
      promptVersion := "n/a"
      inputHash := shortHash content
      confidence := some (floatMin (.finite 1) (ocrResult.pages.map fun page => page.confidence)) }]
  | some (.error _) | none => []

/-- The least confidence of some fields, zero where there are none. -/
def minConfidence (fields : List (String × ExtractionField)) : ℚ :=
  ((fields.map fun entry => entry.2.confidence).min?).getD 0

def extractionExecution (content : List UInt8) (result : ExtractionResult) :
    AIExecutionMetadata where
  operationType := "extraction"
  providerName := StubExtractor.name
  model := StubExtractor.name
  promptVersion := StubExtractor.version
  inputHash := shortHash content
  outputHash := shortHash (utf8 (listText ((result.fields.map Prod.fst).insertionSort
    (fun first second => first ≤ second))).toList)
  confidence := some (.finite (minConfidence result.fields))

/-- The call of the AI provider for a document, made where fields are few or weak. -/
def aiCall (index : Nat) (result : ExtractionResult) : Option (Except String ProviderResponse) :=
  let least := minConfidence result.fields
  if least < roundToDouble (8 / 10) ∨ result.fields.length < 3 then
    some (around.generate index ("Verify extraction from insurance document. Fields: " ++
      listText (result.fields.map Prod.fst) ++ ". Min confidence: " ++ twoDecimals least))
  else none

/-- The record of the AI call; there is none of a call that raised. -/
def aiExecutions (index : Nat) (result : ExtractionResult) : List AIExecutionMetadata :=
  match aiCall around index result with
  | some (.ok response) => [{
      operationType := "ai_enhancement"
      providerName := around.aiName
      model := response.model
      promptVersion := response.promptVersion
      tokenUsage := response.usage }]
  | some (.error _) | none => []

/-- What the documents so far have given: the records and the merged fields. -/
structure Collected where
  executions : List AIExecutionMetadata := []
  fields : List (String × SerializedField) := []

/-- What one document gives: its records, in their order, and its fields. -/
def processDocument (place : UUID × Nat) : Except Stop Collected := do
  let (doc, content) ← load around place.1
  let effective := effectiveContent around place.2 doc content
  let result := StubExtractor.extract tables effective
  return {
    executions := ocrExecutions around place.2 doc content ++
      extractionExecution effective result :: aiExecutions around place.2 result
    fields := result.fields.map fun entry => (entry.1, entry.2.serialized) }

/-- Fields of a later document replace those of the same name. -/
def Collected.add (collected processed : Collected) : Collected where
  executions := collected.executions ++ processed.executions
  fields := Dictionary.update collected.fields processed.fields

/-- Process the documents one after the other. -/
def collect (documentIds : List UUID) : Except Stop Collected :=
  documentIds.zipIdx.foldlM (fun collected place => do
    let processed ← processDocument tables around place
    return collected.add processed) {}

/-- The output of what the documents have given. -/
def Collected.output (collected : Collected) : ExtractOutput where
  fields := collected.fields
  extractorName := StubExtractor.name
  extractorVersion := StubExtractor.version
  aiMetadata := aggregateStepMetadata collected.executions

/-- Extract structured data from documents with AI assistance; an error is an exception. -/
def handle (documentIds : List UUID) : Except String (HandlerResult ExtractOutput) :=
  match collect tables around documentIds with
  | .ok collected => .ok { status := .succeeded, output := some collected.output }
  | .error (.returned result) => .ok result
  | .error (.raised text) => .error text

end ExtractStepHandler

/-! ### The validate step -/

/-- The output of the validate step. -/
structure ValidateOutput where
  validationStatus : String
  reviewRouting : Option ReviewRouting := none
  reasons : List ValidationReason := []
  overridesRequested : List (String × String) := []
  validatorName : String := RuleBasedValidator.name
  validatorVersion : String := RuleBasedValidator.version

/-- `repr` of a float. -/
def FloatValue.text : FloatValue → String
  | .finite value => String.ofList (floatText value)
  | .infinite negative => if negative then "-inf" else "inf"
  | .nan => "nan"

/-- Make a field again; one whose confidence is out of range raises. -/
def SerializedField.field (serialized : SerializedField) : Except String ExtractionField :=
  match serialized.confidence with
  | .finite confidence =>
    if confident : 0 ≤ confidence ∧ confidence ≤ 1 then
      .ok ⟨serialized.name, serialized.value, confidence, serialized.provenance, confident⟩
    else .error s!"confidence must be between 0.0 and 1.0, got {serialized.confidence.text}"
  | other => .error s!"confidence must be between 0.0 and 1.0, got {other.text}"

/-- Reconstruct an extraction result from the serialized output of the extract step. -/
def reconstructExtractionResult (output : ExtractOutput) : Except String ExtractionResult := do
  let fields ← output.fields.mapM fun entry => do
    let field ← entry.2.field
    return (entry.1, field)
  return {
    fields := fields
    extractorName := output.extractorName
    extractorVersion := output.extractorVersion }

namespace ValidateStepHandler

variable (tables : UnicodeTables)

/-- The result for fields that passed validation. -/
def routed (result : ExtractionResult) : HandlerResult ValidateOutput :=
  let routing := evaluateReviewRouting
    (result.fields.map fun entry => (entry.1, entry.2.confidence)) {}
  if routing.requiresReview then {
    status := .escalate
    output := some { validationStatus := "pass_with_review", reviewRouting := some routing }
    errorCode := some "REVIEW_REQUIRED"
    errorDetail := some ("Extraction passed validation but requires human review: " ++
      String.intercalate ", " (routing.reasons.map ReviewReason.value)) }
  else {
    status := .succeeded
    output := some { validationStatus := "pass", reviewRouting := some routing } }

/-- The codes of some reasons. -/
def codes (reasons : List ValidationReason) : String :=
  String.intercalate ", " (reasons.map fun reason => reason.code)

/-- Validate extracted data against business rules. -/
def handle (extractOutput : Option ExtractOutput) : Except String (HandlerResult ValidateOutput) :=
  match extractOutput with
  | none => .ok {
      status := .failedTerminal
      errorCode := some "MISSING_EXTRACT_OUTPUT"
      errorDetail := some "No extract step output found in previous_outputs." }
  | some output => do
    let result ← reconstructExtractionResult output
    let outcome := RuleBasedValidator.validate tables result
    match outcome.status with
    | .pass => return routed result
    | .failCorrectable => return {
        status := .escalate
        output := some {
          validationStatus := "fail_correctable"
          reasons := outcome.reasons
          overridesRequested := outcome.overridesRequested }
        errorCode := some "VALIDATION_FAIL_CORRECTABLE"
        errorDetail := some (s!"Validation failed with {outcome.reasons.length} correctable " ++
          s!"issue(s): {codes outcome.reasons}") }
    | .failTerminal => return {
        status := .failedTerminal
        output := some { validationStatus := "fail_terminal", reasons := outcome.reasons }
        errorCode := some "VALIDATION_FAIL_TERMINAL"
        errorDetail := some s!"Validation failed terminally: {codes outcome.reasons}" }

end ValidateStepHandler

end InsuranceOps
