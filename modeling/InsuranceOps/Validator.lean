/-
This file models the validation of extracted fields and the routing of what
passes it. The validator asks for a claim number, for a policy number of a
fixed form and for a date of loss that can be parsed; the routing asks for a
person where fields are too few or their confidences too low.
-/

import InsuranceOps.Extractor

namespace InsuranceOps

open Backtracking

variable (tables : UnicodeTables)

/-! ### Dates -/

/-- A digit of a range. -/
def digitIn (low high : Char) : Expression Char :=
  .one fun char => low.toNat ≤ char.toNat ∧ char.toNat ≤ high.toNat

def exactly (char : Char) : Expression Char := .one fun other => other = char

/-- `%m`. -/
def monthDirective : Expression Char :=
  .alt (.seq (exactly '1') (digitIn '0' '2')) (.alt (.seq (exactly '0') (digitIn '1' '9'))
    (digitIn '1' '9'))

/-- `%d`. -/
def dayDirective : Expression Char :=
  .alt (.seq (exactly '3') (digitIn '0' '1')) (.alt (.seq (digitIn '1' '2') (.one tables.isDecimal))
    (.alt (.seq (exactly '0') (digitIn '1' '9')) (.alt (digitIn '1' '9')
      (.seq (exactly ' ') (digitIn '1' '9')))))

/-- `%Y` or `%y`. -/
def yearDirective (digits : Nat) : Expression Char :=
  .repeated tables.isDecimal digits (some digits)

/-- How much of a text each part of a format reads, the preferred readings first. -/
def formatReadings : List (Expression Char) → Text → List (List Nat)
  | [], _ => [[]]
  | part :: rest, text => (part.readings text).flatMap fun reading =>
      (formatReadings rest (text.drop reading.consumed)).map (reading.consumed :: ·)

/-- `int(text)` of digits, which a space may precede. -/
def UnicodeTables.number (text : Text) : Nat :=
  text.foldl (fun value char => match tables.digit char with
    | some digit => 10 * value + digit
    | none => value) 0

def isLeap (year : Nat) : Bool := year % 4 = 0 ∧ (year % 100 ≠ 0 ∨ year % 400 = 0)

def daysIn (year month : Nat) : Nat :=
  if month = 2 then if isLeap year then 29 else 28
  else if month ∈ [4, 6, 9, 11] then 30 else 31

/-- Whether `date(year, month, day)` is one, for a month that is. -/
def isDate (year month day : Nat) : Bool := 1 ≤ year ∧ 1 ≤ day ∧ day ≤ daysIn year month

/-- The year two digits stand for. -/
def fullYear (digits value : Nat) : Nat :=
  if digits = 4 then value else if value ≤ 68 then 2000 + value else 1900 + value

/-- A format for dates: which of month and day comes first, what separates them, and how many
digits the year has. -/
structure DateFormat where
  monthFirst : Bool
  separator : Char
  yearDigits : Nat

/-- Date formats to try when parsing `date_of_loss`. -/
def dateFormats : List DateFormat := [
  ⟨true, '/', 4⟩, ⟨true, '-', 4⟩, ⟨false, '/', 4⟩, ⟨false, '-', 4⟩,
  ⟨true, '/', 2⟩, ⟨true, '-', 2⟩, ⟨false, '/', 2⟩, ⟨false, '-', 2⟩]

/-- The parts of a format, in order. -/
def DateFormat.parts (format : DateFormat) : List (Expression Char) :=
  let year := yearDirective tables format.yearDigits
  let between := exactly format.separator
  if format.monthFirst then [monthDirective, between, dayDirective tables, between, year]
  else [dayDirective tables, between, monthDirective, between, year]

/-- Whether `datetime.strptime(value, format)` returns: the first reading must be of the whole text,
and what it reads must be a date. -/
def DateFormat.parses (format : DateFormat) (value : Text) : Bool :=
  match (formatReadings (format.parts tables) value).head? with
  | some [first, _, second, _, yearLength] =>
    let one := tables.number (value.take first)
    let other := tables.number (slice value (first + 1) (first + 1 + second))
    let year := fullYear format.yearDigits (tables.number (value.drop (first + second + 2)))
    first + 1 + second + 1 + yearLength = value.length ∧
      (if format.monthFirst then isDate year one other else isDate year other one)
  | _ => false

/-- Attempt to parse a date string. -/
def parseDate (value : String) : Bool :=
  dateFormats.any fun format => format.parses tables value.toList

example : (["01/15/2025", "31-12-99", "2/29/2023", "29/2/2024", "1/2/345"].map
    (parseDate ⟨fun _ => none, fun _ => false⟩)) = [true, true, false, true, false] := by
  decide +kernel

/-! ### Validation -/

/-- A single validation failure reason. -/
structure ValidationReason where
  code : String
  fieldName : Option String := none
  message : String := ""
  detail : List (String × String) := []

inductive ValidationStatus where
  | pass
  | failCorrectable
  | failTerminal
  deriving DecidableEq

/-- Result of validation. -/
structure ValidationOutcome where
  status : ValidationStatus
  reasons : List ValidationReason := []
  overridesRequested : List (String × String) := []

/-- A field by its name. -/
def ExtractionResult.field? (result : ExtractionResult) (name : String) : Option ExtractionField :=
  (result.fields.find? fun entry => entry.1 = name).map Prod.snd

/-- The field of a name is what the pattern of that name finds. -/
theorem field?_extract {name : String} {pattern : Pattern}
    (listed : (name, pattern) ∈ patterns tables) (content : List UInt8) :
    (StubExtractor.extract tables content).field? name =
      pattern.field name (decodeReplace content) := by
  have distinct : ((patterns tables).map Prod.fst).Nodup := by
    rw [pattern_names]
    decide
  refine Option.ext fun field => ?_
  refine (Dictionary.get?_eq_some_iff (extract_names_nodup tables content)).trans ?_
  rw [mem_extract]
  constructor
  · rintro ⟨other, otherListed, found⟩
    cases List.inj_on_of_nodup_map distinct listed otherListed rfl
    exact found
  · exact fun found => ⟨pattern, listed, found⟩

/-- Texts are looked up in lists by their equality. -/
local instance textEquality : LawfulBEq Text := inferInstance

/-- Whether a text matches the pattern of policy numbers; a line feed may end it. -/
def isPolicyNumber (value : String) : Bool :=
  let pattern : Expression Char := .seq (.repeated Char.isUpper 2 (some 3))
    (.seq (exactly '-') (.repeated tables.isDecimal 6 (some 10)))
  (pattern.readings value.toList).any fun reading =>
    value.toList.drop reading.consumed ∈ [[], [Char.ofNat 10]]

namespace RuleBasedValidator

def name : String := "rule_based_validator"

def version : String := "1.0.0"

def missing (fieldName code message : String) : ValidationOutcome where
  status := .failTerminal
  reasons := [{ code := code, fieldName := some fieldName, message := message }]

/-- The complaint about a policy number of another form. -/
def policyReasons (policyValue : String) : List ValidationReason :=
  if isPolicyNumber tables policyValue then []
  else [{
    code := "policy_number_format_invalid"
    fieldName := some "policy_number"
    message := "Policy number '" ++ policyValue ++
      "' does not match the expected format [A-Z]\x7b2,3\x7d-\\d\x7b6,10\x7d."
    detail := [("value", policyValue)] }]

/-- The complaint about a date of loss that is no date. -/
def dateReasons (dateValue : String) : List ValidationReason :=
  if parseDate tables dateValue then []
  else [{
    code := "date_of_loss_invalid"
    fieldName := some "date_of_loss"
    message := s!"Date of loss '{dateValue}' could not be parsed as a valid date."
    detail := [("value", dateValue)] }]

/-- Validate extraction result against business rules. -/
def validate (result : ExtractionResult) : ValidationOutcome :=
  match result.field? "claim_number", result.field? "policy_number" with
  | none, _ => missing "claim_number" "claim_number_missing"
      "Claim number is required but was not found in the document."
  | some _, none => missing "policy_number" "policy_number_missing"
      "Policy number is required but was not found in the document."
  | some _, some policy =>
    let correctable := policyReasons tables policy.value ++
      ((result.field? "date_of_loss").elim [] fun date => dateReasons tables date.value)
    if correctable = [] then { status := .pass }
    else {
      status := .failCorrectable
      reasons := correctable
      overridesRequested := correctable.filterMap fun reason =>
        reason.fieldName.map fun fieldName => (fieldName, reason.code) }

end RuleBasedValidator

/-! ### Doubles -/

/-- The double nearest to a number. -/
def doubleOf (value : ℚ) : ℚ :=
  if value < 0 then -roundToDouble (-value) else roundToDouble value

/-- `sum(values)` of doubles, which keeps the error of each addition and adds what has come
together at the end. -/
def floatSum (values : List ℚ) : ℚ :=
  let (total, lost) := values.foldl (fun (total, lost) value =>
    let next := doubleOf (total + value)
    let error := if |value| ≤ |total| then doubleOf (doubleOf (total - next) + value)
      else doubleOf (doubleOf (value - next) + total)
    (next, doubleOf (lost + error))) (0, 0)
  if lost = 0 then total else doubleOf (total + lost)

/-- `value < bound`. -/
def FloatValue.isBelow (bound : ℚ) : FloatValue → Bool
  | .finite value => value < bound
  | .infinite negative => negative
  | .nan => false

/-! ### Review routing -/

/-- Reasons for routing to manual review. -/
inductive ReviewReason where
  | lowConfidence
  | missingFields
  | conflictingFields
  | ocrQuality
  | aiEnhancementFailed
  | policyRule
  deriving DecidableEq

def ReviewReason.value : ReviewReason → String
  | .lowConfidence => "low_confidence"
  | .missingFields => "missing_fields"
  | .conflictingFields => "conflicting_fields"
  | .ocrQuality => "ocr_quality"
  | .aiEnhancementFailed => "ai_enhancement_failed"
  | .policyRule => "policy_rule"

/-- Confidence thresholds for review routing. -/
structure ReviewThresholds where
  autoApproveMin : ℚ := roundToDouble (9 / 10)
  reviewRequiredBelow : ℚ := roundToDouble (7 / 10)
  rejectBelow : ℚ := roundToDouble (3 / 10)
  minRequiredFields : Int := 3

/-- Result of the review routing decision. -/
structure ReviewRouting where
  requiresReview : Bool
  reasons : List ReviewReason := []
  overallConfidence : ℚ
  fieldConfidences : List (String × ℚ)
  suggestedAction : String

/-- The mean of the field confidences, zero where there are none. -/
def overallConfidence (confidences : List ℚ) : ℚ :=
  if confidences = [] then 0
  else doubleOf (floatSum confidences / confidences.length)

/-- Evaluate whether an extraction result requires manual review. -/
def evaluateReviewRouting (fieldConfidences : List (String × ℚ)) (thresholds : ReviewThresholds)
    (ocrConfidence : Option FloatValue := none) (aiEnhancementSucceeded : Bool := true) :
    ReviewRouting :=
  let reasons :=
    (if fieldConfidences.length < thresholds.minRequiredFields then [.missingFields] else []) ++
    (if fieldConfidences.any fun entry => entry.2 < thresholds.reviewRequiredBelow then
      [.lowConfidence] else []) ++
    (if ocrConfidence.any (FloatValue.isBelow thresholds.reviewRequiredBelow) then
      [.ocrQuality] else []) ++
    (if aiEnhancementSucceeded then [] else [ReviewReason.aiEnhancementFailed])
  let overall := overallConfidence (fieldConfidences.map Prod.snd)
  if overall < thresholds.rejectBelow then {
    requiresReview := true
    reasons := if reasons = [] then [.lowConfidence] else reasons
    overallConfidence := overall
    fieldConfidences := fieldConfidences
    suggestedAction := "reject" }
  else
    let requiresReview := reasons ≠ [] ∨ overall < thresholds.autoApproveMin
    { requiresReview := requiresReview
      reasons := reasons
      overallConfidence := overall
      fieldConfidences := fieldConfidences
      suggestedAction :=
        if requiresReview then
          if doubleOf (thresholds.autoApproveMin * roundToDouble (9 / 10)) ≤ overall then
            "likely_approve"
          else if overall < doubleOf (thresholds.rejectBelow * (3 / 2)) then "likely_reject"
          else "manual_review"
        else "" }

/-! ### The routing of extracted fields -/

/-- The mean of several stub confidences is high enough to pass. -/
theorem stub_overall {count : Nat} (some : 3 ≤ count) (few : count ≤ 5) :
    ({} : ReviewThresholds).autoApproveMin ≤
      overallConfidence (List.replicate count stubConfidence) := by
  obtain rfl | rfl | rfl : count = 3 ∨ count = 4 ∨ count = 5 := by omega
  all_goals decide +kernel

/-- What the routing says of fields the stub extractor found: too few go to review, and nothing
else does. -/
theorem evaluate_stub {fieldConfidences : List (String × ℚ)}
    (stub : ∀ entry ∈ fieldConfidences, entry.2 = stubConfidence)
    (few : fieldConfidences.length ≤ 5) :
    (evaluateReviewRouting fieldConfidences {}).requiresReview = true ↔
      fieldConfidences.length < 3 := by
  have confident : stubConfidence < ({} : ReviewThresholds).reviewRequiredBelow ↔ False := by
    decide +kernel
  have noneLow : (fieldConfidences.any fun entry =>
      entry.2 < ({} : ReviewThresholds).reviewRequiredBelow) = false := by
    rw [List.any_eq_false]
    intro entry member
    rw [stub entry member, decide_eq_true_eq, confident]
    exact not_false
  have values : fieldConfidences.map Prod.snd =
      List.replicate fieldConfidences.length stubConfidence := by
    rw [List.eq_replicate_iff, List.length_map]
    exact ⟨rfl, fun value member => by
      obtain ⟨entry, stored, rfl⟩ := List.mem_map.mp member
      exact stub entry stored⟩
  unfold evaluateReviewRouting
  rw [noneLow, values]
  by_cases missing : (fieldConfidences.length : Int) < ({} : ReviewThresholds).minRequiredFields
  · -- Too few fields are a reason in both branches.
    rw [if_pos missing]
    refine iff_of_true ?_ (Int.ofNat_lt.mp missing)
    dsimp only
    split
    · rfl
    · dsimp only
      rw [decide_eq_true_eq]
      exact Or.inl (List.cons_ne_nil _ _)
  · have few' : ¬fieldConfidences.length < 3 := fun less => missing (Int.ofNat_lt.mpr less)
    have enough : 3 ≤ fieldConfidences.length := Nat.le_of_not_lt few'
    have high := stub_overall enough few
    have notRejected : ¬overallConfidence
        (List.replicate fieldConfidences.length stubConfidence) <
          ({} : ReviewThresholds).rejectBelow := by
      have ordered : ({} : ReviewThresholds).rejectBelow ≤ ({} : ReviewThresholds).autoApproveMin :=
        by decide +kernel
      exact not_lt.mpr (ordered.trans high)
    rw [if_neg missing]
    dsimp only
    rw [if_neg notRejected]
    refine iff_of_false ?_ few'
    simp [not_lt.mpr high]

end InsuranceOps
