/-
This file characterises what the validator accepts. Its pattern of policy
numbers is anchored by a dollar sign, which also stands before a line feed at
the end, and takes any decimal digits. So the validator accepts exactly its
grammar on all values but those with such an end or such digits.
-/

import InsuranceOps.Validator
import InsuranceOps.Library.Language

namespace InsuranceOps

open Backtracking

variable (tables : UnicodeTables)

/-! ### Policy numbers -/

/-- Letters, a hyphen and digits. -/
structure PolicyParts (isDigit : Char → Bool) (letters digits : Text) : Prop where
  enoughLetters : 2 ≤ letters.length
  fewLetters : letters.length ≤ 3
  uppercase : ∀ char ∈ letters, char.isUpper = true
  enoughDigits : 6 ≤ digits.length
  fewDigits : digits.length ≤ 10
  decimals : ∀ char ∈ digits, isDigit char = true

/-- The grammar of policy numbers: two or three ASCII uppercase letters, a hyphen, and six to ten
ASCII digits. -/
def PolicyForm (value : String) : Prop :=
  ∃ letters digits, value.toList = letters ++ '-' :: digits ∧
    PolicyParts Char.isDigit letters digits

/-- A value of the form of policy numbers with a line feed behind it, or with a digit outside
ASCII. -/
def LooselyFormed (value : String) : Prop :=
  ∃ letters digits tail, value.toList = letters ++ '-' :: (digits ++ tail) ∧
    PolicyParts tables.isDecimal letters digits ∧
      (tail = [Char.ofNat 10] ∨ tail = [] ∧ ∃ char ∈ digits, char.isDigit = false)

variable {tables}

/-- What the pattern of policy numbers matches. -/
theorem isPolicyNumber_iff (value : String) :
    isPolicyNumber tables value = true ↔ ∃ letters digits tail,
      value.toList = letters ++ '-' :: (digits ++ tail) ∧
        PolicyParts tables.isDecimal letters digits ∧ (tail = [] ∨ tail = [Char.ofNat 10]) := by
  unfold isPolicyNumber
  dsimp only
  rw [List.any_eq_true]
  constructor
  · rintro ⟨reading, member, ended⟩
    rw [decide_eq_true_eq, List.mem_cons, List.mem_singleton] at ended
    obtain ⟨-, letters, behind, same, ⟨uppercase, enoughLetters, fewLetters⟩, hyphen, digits, rfl,
      ⟨char, rfl, isHyphen⟩, decimals, enoughDigits, fewDigits⟩ :=
        (exists_reading_iff _ _ _).mp ⟨reading, member, rfl⟩
    refine ⟨letters, digits, value.toList.drop reading.consumed, ?_,
      ⟨enoughLetters, fewLetters 3 rfl, uppercase, enoughDigits, fewDigits 10 rfl, decimals⟩, ended⟩
    have split := List.take_append_drop reading.consumed value.toList
    rw [same, of_decide_eq_true isHyphen, List.append_assoc] at split
    exact split.symm
  · rintro ⟨letters, digits, tail, same, parts, ended⟩
    have word : (Expression.seq (.repeated Char.isUpper 2 (some 3)) (.seq (exactly '-')
        (.repeated tables.isDecimal 6 (some 10)))).Matches (letters ++ '-' :: digits) := by
      refine ⟨letters, '-' :: digits, rfl, ⟨parts.uppercase, parts.enoughLetters, ?_⟩, ['-'],
        digits,
        rfl, ⟨'-', rfl, decide_eq_true rfl⟩, parts.decimals, parts.enoughDigits, ?_⟩
      · rintro _ ⟨⟩
        exact parts.fewLetters
      · rintro _ ⟨⟩
        exact parts.fewDigits
    have whole : value.toList = (letters ++ '-' :: digits) ++ tail := by
      rw [same, List.append_assoc]
      rfl
    obtain ⟨reading, member, consumed⟩ := (exists_reading_iff _ value.toList
      (letters ++ '-' :: digits).length).mpr
        ⟨by rw [whole]; exact (List.prefix_append _ tail).length_le,
          by rwa [whole, List.take_left]⟩
    refine ⟨reading, member, decide_eq_true ?_⟩
    rw [consumed, whole, List.drop_left, List.mem_cons, List.mem_singleton]
    exact ended

theorem isUpper_eq (char : Char) :
    char.isUpper = decide (char.val ≥ 'A'.val ∧ char.val ≤ 'Z'.val) := rfl

theorem toNat_of_isUpper {char : Char} (upper : char.isUpper = true) :
    65 ≤ char.toNat ∧ char.toNat ≤ 90 := by
  simpa [isUpper_eq, UInt32.le_iff_toNat_le] using upper

/-- A decimal digit of ASCII is one of the ten. -/
theorem isDigit_of_isDecimal {char : Char} (ascii : char.toNat < 128)
    (decimal : tables.isDecimal char = true) : char.isDigit = true := by
  unfold UnicodeTables.isDecimal UnicodeTables.digit at decimal
  rw [if_pos ascii] at decimal
  split at decimal
  · assumption
  · cases decimal

theorem isDecimal_of_isDigit {char : Char} (digit : char.isDigit = true) :
    tables.isDecimal char = true := by
  have ascii : char.toNat < 128 := (Char.isDigit_iff_toNat.mp digit).2.trans_lt (by decide)
  unfold UnicodeTables.isDecimal UnicodeTables.digit
  rw [if_pos ascii, if_pos digit]
  rfl

theorem policyForm_isPolicyNumber {value : String} (form : PolicyForm value) :
    isPolicyNumber tables value = true := by
  obtain ⟨letters, digits, same, parts⟩ := form
  refine (isPolicyNumber_iff value).mpr ⟨letters, digits, [], ?_, ?_, .inl rfl⟩
  · rw [List.append_nil, same]
  · exact { parts with
      decimals := fun char member => isDecimal_of_isDigit (parts.decimals char member) }

variable (tables) in
/-- Every character of a policy number is an ASCII letter, the hyphen or an ASCII digit. -/
theorem PolicyForm.char {value : String} (form : PolicyForm value) {char : Char}
    (member : char ∈ value.toList) :
    char.toNat < 128 ∧ char ≠ Char.ofNat 10 ∧
      (char.isDigit = true ∨ ¬tables.isDecimal char = true) := by
  obtain ⟨letters, digits, same, parts⟩ := form
  rw [same, List.mem_append, List.mem_cons] at member
  rcases member with letter | rfl | digit
  · have upper := toNat_of_isUpper (parts.uppercase char letter)
    have ascii : char.toNat < 128 := by omega
    refine ⟨ascii, ?_, .inr fun decimal => ?_⟩
    · rintro rfl
      have feed : (Char.ofNat 10).toNat = 10 := rfl
      omega
    · have digit := Char.isDigit_iff_toNat.mp (isDigit_of_isDecimal ascii decimal)
      have nine : '9'.toNat = 57 := rfl
      omega
  · exact ⟨by decide, by decide, .inr (by simp [UnicodeTables.isDecimal, UnicodeTables.digit])⟩
  · have decimal := parts.decimals char digit
    have range := Char.isDigit_iff_toNat.mp decimal
    have zero : '0'.toNat = 48 := rfl
    have nine : '9'.toNat = 57 := rfl
    refine ⟨by omega, ?_, .inl decimal⟩
    rintro rfl
    have feed : (Char.ofNat 10).toNat = 10 := rfl
    omega

/-- The pattern matches beyond the grammar exactly the loosely formed values. -/
theorem looselyFormed_iff (value : String) :
    LooselyFormed tables value ↔ isPolicyNumber tables value = true ∧ ¬PolicyForm value := by
  constructor
  · rintro ⟨letters, digits, tail, same, parts, loose⟩
    refine ⟨(isPolicyNumber_iff value).mpr ⟨letters, digits, tail, same, parts, ?_⟩, fun form => ?_⟩
    · exact loose.elim .inr fun ended => .inl ended.1
    · have member {char : Char} (behind : char ∈ digits ++ tail) : char ∈ value.toList := by
        rw [same]
        exact List.mem_append_right _ (List.mem_cons_of_mem _ behind)
      rcases loose with rfl | ⟨rfl, char, digit, foreign⟩
      · exact (form.char tables (member (List.mem_append_right _
          (List.mem_singleton_self _)))).2.1 rfl
      · rcases (form.char tables (member (List.mem_append_left _ digit))).2.2 with
          known | unknown
        · rw [foreign] at known
          cases known
        · exact unknown (parts.decimals char digit)
  · rintro ⟨matched, other⟩
    obtain ⟨letters, digits, tail, same, parts, ended⟩ := (isPolicyNumber_iff value).mp matched
    refine ⟨letters, digits, tail, same, parts, ended.symm.imp_right fun none => ⟨none, ?_⟩⟩
    by_contra ascii
    simp only [not_exists, not_and, Bool.not_eq_false] at ascii
    refine other ⟨letters, digits, ?_, { parts with decimals := ascii }⟩
    rw [same, none, List.append_nil]

/-- Without digits outside ASCII the pattern decides the grammar but for the line feed. -/
instance (value : String) : Decidable (PolicyForm value) :=
  decidable_of_iff (isPolicyNumber ⟨fun _ => none, fun _ => false⟩ value = true ∧
      Char.ofNat 10 ∉ value.toList) <| by
    constructor
    · rintro ⟨matched, unbroken⟩
      obtain ⟨letters, digits, tail, same, parts, ended⟩ := (isPolicyNumber_iff value).mp matched
      rcases ended with rfl | rfl
      · refine ⟨letters, digits, by rw [same, List.append_nil], { parts with decimals := ?_ }⟩
        intro char member
        have decimal := parts.decimals char member
        by_cases ascii : char.toNat < 128
        · exact isDigit_of_isDecimal ascii decimal
        · rw [UnicodeTables.isDecimal, UnicodeTables.digit, if_neg ascii] at decimal
          cases decimal
      · refine absurd ?_ unbroken
        rw [same]
        exact List.mem_append_right _ (List.mem_cons_of_mem _ (List.mem_append_right _
          (List.mem_singleton_self _)))
    · exact fun form => ⟨policyForm_isPolicyNumber form, fun feed =>
        (form.char ⟨fun _ => none, fun _ => false⟩ feed).2.1 rfl⟩

/-! ### The validator -/

section Validator

variable (tables : UnicodeTables) (result : ExtractionResult)

/-- The codes of some reasons, each with the field it names. -/
def complaints (reasons : List ValidationReason) : List (String × Option String) :=
  reasons.map fun reason => (reason.code, reason.fieldName)

/-- What is wrong with a policy number by the grammar. -/
def policyComplaints (value : String) : List (String × Option String) :=
  if PolicyForm value then [] else [("policy_number_format_invalid", some "policy_number")]

/-- What is wrong with a date of loss, if there is one. -/
def dateComplaints (date : Option ExtractionField) : List (String × Option String) :=
  if date.all fun date => parseDate tables date.value then []
  else [("date_of_loss_invalid", some "date_of_loss")]

/-- The validator accepts exactly its grammar: it fails terminally without a claim number or a
policy number, for the first of them; otherwise its reasons are the failing checks, in their order,
it asks for overrides of their fields, and it passes without any, which means that policy number and
date of loss are well formed. -/
structure AcceptsGrammar : Prop where
  terminal : (RuleBasedValidator.validate tables result).status = .failTerminal ↔
    result.field? "claim_number" = none ∨ result.field? "policy_number" = none
  claimMissing : result.field? "claim_number" = none →
    complaints (RuleBasedValidator.validate tables result).reasons =
      [("claim_number_missing", some "claim_number")]
  policyMissing : result.field? "claim_number" ≠ none → result.field? "policy_number" = none →
    complaints (RuleBasedValidator.validate tables result).reasons =
      [("policy_number_missing", some "policy_number")]
  reasons : result.field? "claim_number" ≠ none →
    ∀ policy, result.field? "policy_number" = some policy →
      complaints (RuleBasedValidator.validate tables result).reasons =
        policyComplaints policy.value ++ dateComplaints tables (result.field? "date_of_loss")
  correctable : result.field? "claim_number" ≠ none → result.field? "policy_number" ≠ none →
    ((RuleBasedValidator.validate tables result).status = .failCorrectable ↔
      (RuleBasedValidator.validate tables result).reasons ≠ [])
  passes : result.field? "claim_number" ≠ none → result.field? "policy_number" ≠ none →
    ((RuleBasedValidator.validate tables result).status = .pass ↔
      (RuleBasedValidator.validate tables result).reasons = [])
  overrides : result.field? "claim_number" ≠ none → result.field? "policy_number" ≠ none →
    (RuleBasedValidator.validate tables result).overridesRequested.map Prod.fst =
      (RuleBasedValidator.validate tables result).reasons.filterMap fun reason => reason.fieldName
  accepted : (RuleBasedValidator.validate tables result).status = .pass →
    (∃ policy, result.field? "policy_number" = some policy ∧ PolicyForm policy.value) ∧
      ∀ date, result.field? "date_of_loss" = some date → parseDate tables date.value = true

/-- Both numbers are there and the policy number is loosely formed. -/
def LoosePolicy : Prop :=
  result.field? "claim_number" ≠ none ∧
    ∃ policy, result.field? "policy_number" = some policy ∧ LooselyFormed tables policy.value

end Validator

section Accepts

variable {tables : UnicodeTables} {result : ExtractionResult}

/-- The reasons the validator finds where both numbers are there. -/
def correctableReasons (tables : UnicodeTables) (result : ExtractionResult)
    (policy : ExtractionField) : List ValidationReason :=
  RuleBasedValidator.policyReasons tables policy.value ++
    ((result.field? "date_of_loss").elim [] fun date =>
      RuleBasedValidator.dateReasons tables date.value)

variable (tables) in
theorem validate_of_claim_missing (missing : result.field? "claim_number" = none) :
    RuleBasedValidator.validate tables result =
      RuleBasedValidator.missing "claim_number" "claim_number_missing"
        "Claim number is required but was not found in the document." := by
  unfold RuleBasedValidator.validate
  rw [missing]

variable (tables) in
theorem validate_of_policy_missing (claimed : result.field? "claim_number" ≠ none)
    (missing : result.field? "policy_number" = none) :
    RuleBasedValidator.validate tables result =
      RuleBasedValidator.missing "policy_number" "policy_number_missing"
        "Policy number is required but was not found in the document." := by
  obtain ⟨claim, found⟩ := Option.ne_none_iff_exists'.mp claimed
  unfold RuleBasedValidator.validate
  rw [found, missing]

variable (tables) in
/-- What the validator decides where both numbers are there. -/
theorem validate_of_both (claimed : result.field? "claim_number" ≠ none) {policy : ExtractionField}
    (insured : result.field? "policy_number" = some policy) :
    (RuleBasedValidator.validate tables result).status =
        (if correctableReasons tables result policy = [] then .pass else .failCorrectable) ∧
      (RuleBasedValidator.validate tables result).reasons =
        correctableReasons tables result policy ∧
        (RuleBasedValidator.validate tables result).overridesRequested =
          (correctableReasons tables result policy).filterMap fun reason =>
            reason.fieldName.map fun fieldName => (fieldName, reason.code) := by
  obtain ⟨claim, found⟩ := Option.ne_none_iff_exists'.mp claimed
  unfold RuleBasedValidator.validate correctableReasons
  rw [found, insured]
  dsimp only
  generalize RuleBasedValidator.policyReasons tables policy.value ++
    ((result.field? "date_of_loss").elim [] fun date =>
      RuleBasedValidator.dateReasons tables date.value) = correctable
  by_cases fine : correctable = []
  · rw [if_pos fine, if_pos fine, fine]
    exact ⟨rfl, rfl, rfl⟩
  · rw [if_neg fine, if_neg fine]
    exact ⟨rfl, rfl, rfl⟩

/-- The reasons are the complaints of the grammar unless the policy number is loosely formed. -/
theorem complaints_correctable_iff (policy : ExtractionField) :
    complaints (correctableReasons tables result policy) =
        policyComplaints policy.value ++ dateComplaints tables (result.field? "date_of_loss") ↔
      ¬LooselyFormed tables policy.value := by
  have dates : complaints ((result.field? "date_of_loss").elim [] fun date =>
      RuleBasedValidator.dateReasons tables date.value) =
        dateComplaints tables (result.field? "date_of_loss") := by
    unfold dateComplaints
    cases result.field? "date_of_loss" with
    | none => rfl
    | some date =>
      rw [Option.elim_some, Option.all_some]
      unfold RuleBasedValidator.dateReasons
      split <;> rfl
  have split : complaints (correctableReasons tables result policy) =
      complaints (RuleBasedValidator.policyReasons tables policy.value) ++
        dateComplaints tables (result.field? "date_of_loss") := by
    rw [← dates]
    unfold correctableReasons complaints
    rw [List.map_append]
  rw [split, List.append_left_inj, looselyFormed_iff]
  unfold policyComplaints RuleBasedValidator.policyReasons
  by_cases matched : isPolicyNumber tables policy.value = true
  · rw [if_pos matched]
    by_cases form : PolicyForm policy.value
    · rw [if_pos form]
      exact iff_of_true rfl fun loose => loose.2 form
    · rw [if_neg form]
      exact iff_of_false nofun fun never => never ⟨matched, form⟩
  · rw [if_neg matched, if_neg fun form => matched (policyForm_isPolicyNumber form)]
    exact iff_of_true rfl fun loose => matched loose.1

/-- The overrides that are requested are of the fields the reasons name. -/
theorem overrides_map_fst (reasons : List ValidationReason) :
    (reasons.filterMap fun reason => reason.fieldName.map fun fieldName =>
      (fieldName, reason.code)).map Prod.fst =
        reasons.filterMap fun reason => reason.fieldName := by
  rw [List.map_filterMap]
  refine List.filterMap_congr fun reason _ => ?_
  rw [Option.map_map]
  cases reason.fieldName <;> rfl

/-- Without complaints the policy number and the date are well formed. -/
theorem well_formed_of_no_complaints {value : String} {date : Option ExtractionField}
    (none : policyComplaints value ++ dateComplaints tables date = []) :
    PolicyForm value ∧ ∀ field, date = some field → parseDate tables field.value = true := by
  obtain ⟨policy, dates⟩ := List.append_eq_nil_iff.mp none
  constructor
  · unfold policyComplaints at policy
    split at policy
    · assumption
    · cases policy
  · rintro field rfl
    unfold dateComplaints at dates
    split at dates
    · assumption
    · cases dates

variable (tables result) in
/-- The validator accepts exactly its grammar on every result but those with both numbers whose
policy number has a line feed behind it or a digit outside ASCII. The pattern's dollar sign and its
class of digits are the two places where it takes more than the grammar. -/
theorem acceptsGrammar_iff : AcceptsGrammar tables result ↔ ¬LoosePolicy tables result := by
  constructor
  · rintro accepts ⟨claimed, policy, insured, loose⟩
    have reasons := accepts.reasons claimed policy insured
    rw [(validate_of_both tables claimed insured).2.1] at reasons
    exact (complaints_correctable_iff policy).mp reasons loose
  · intro strict
    by_cases claimed : result.field? "claim_number" = none
    · have validated := validate_of_claim_missing tables claimed
      exact {
        terminal := by rw [validated]; exact iff_of_true rfl (.inl claimed)
        claimMissing := fun _ => by rw [validated]; rfl
        policyMissing := fun some => absurd claimed some
        reasons := fun some => absurd claimed some
        correctable := fun some => absurd claimed some
        passes := fun some => absurd claimed some
        overrides := fun some => absurd claimed some
        accepted := fun passed => by rw [validated] at passed; cases passed }
    · cases insured : result.field? "policy_number" with
      | none =>
        have validated := validate_of_policy_missing tables claimed insured
        exact {
          terminal := by rw [validated]; exact iff_of_true rfl (.inr insured)
          claimMissing := fun none => absurd none claimed
          policyMissing := fun _ _ => by rw [validated]; rfl
          reasons := fun _ policy found => by rw [insured] at found; cases found
          correctable := fun _ some => absurd insured some
          passes := fun _ some => absurd insured some
          overrides := fun _ some => absurd insured some
          accepted := fun passed => by rw [validated] at passed; cases passed }
      | some policy =>
        obtain ⟨status, reasons, overrides⟩ := validate_of_both tables claimed insured
        have found : complaints (correctableReasons tables result policy) =
            policyComplaints policy.value ++ dateComplaints tables (result.field? "date_of_loss") :=
          (complaints_correctable_iff policy).mpr fun loose =>
            strict ⟨claimed, policy, insured, loose⟩
        have present : result.field? "policy_number" ≠ none := by
          rw [insured]
          exact Option.some_ne_none policy
        have passed : (RuleBasedValidator.validate tables result).status = .pass ↔
            correctableReasons tables result policy = [] := by
          rw [status]
          split
          · exact iff_of_true rfl ‹_›
          · exact iff_of_false nofun ‹_›
        exact {
          terminal := by
            rw [status]
            refine iff_of_false ?_ fun missing => missing.elim claimed present
            split <;> exact nofun
          claimMissing := fun none => absurd none claimed
          policyMissing := fun _ none => absurd none present
          reasons := fun _ other same => by
            cases insured.symm.trans same
            rw [reasons]
            exact found
          correctable := fun _ _ => by
            rw [status, reasons]
            split
            · exact iff_of_false nofun fun some => some ‹_›
            · exact iff_of_true rfl ‹_›
          passes := fun _ _ => by rw [passed, reasons]
          overrides := fun _ _ => by rw [overrides, reasons, overrides_map_fst]
          accepted := fun pass => by
            have none := congrArg complaints (passed.mp pass)
            obtain ⟨form, dates⟩ := well_formed_of_no_complaints (found.symm.trans none)
            exact ⟨⟨policy, insured, form⟩, dates⟩ }

end Accepts

/-- Fields whose policy number ends in a line feed. -/
def brokenNumber : ExtractionResult where
  fields := [
    ("claim_number", ⟨"claim_number", "CLM-1", stubConfidence, [], stubConfidence_mem⟩),
    ("policy_number", ⟨"policy_number", "AB-123456\n", stubConfidence, [], stubConfidence_mem⟩)]
  extractorName := StubExtractor.name
  extractorVersion := StubExtractor.version

/-- They pass, though the line feed is behind the digits. -/
theorem broken_number_passes : ¬AcceptsGrammar ⟨fun _ => none, fun _ => false⟩ brokenNumber := by
  intro accepts
  have passed : (RuleBasedValidator.validate ⟨fun _ => none, fun _ => false⟩ brokenNumber).status =
      .pass := by
    decide +kernel
  obtain ⟨⟨policy, insured, form⟩, -⟩ := accepts.accepted passed
  cases insured
  revert form
  decide +kernel

end InsuranceOps
