/-
This file relates the policy number that is extracted to the token that stands
in the document. The pattern of the extractor stops after ten digits and asks
for no end behind them, and what the validator sees is already cut. So the token
is taken as a whole exactly where it is no longer than that and ends there.
-/

import InsuranceOps.ValidatorGrammar

namespace InsuranceOps

open Backtracking

variable (tables : UnicodeTables)

/-! ### Mentions of a policy number -/

/-- A digit outside ASCII is neither whitespace nor one of the letters `[A-Z]` takes. -/
def UnicodeTables.Lawful : Prop :=
  ∀ char, 128 ≤ char.toNat → (tables.decimalValue char).isSome →
    FloatValue.isSpace char = false ∧ isLetter char = false

/-- The label of a policy number, with what may stand between it and the number. -/
def policyLead : Expression Char :=
  .seq (numbered "policy" "POL") (.repeated isSeparator 0 none)

/-- The number as the extractor takes it. -/
def policyValue : Expression Char :=
  .seq (.repeated isLetter 2 (some 3))
    (.seq (.one fun char => char = '-') (.repeated tables.isDecimal 6 (some 10)))

/-- A policy number is written at a place of a text: a label, two or three letters, a hyphen and at
least six digits, with all the digits that follow each other there. -/
structure PolicyMention (text : Text) (start : Nat) (lead letters digits after : Text) : Prop where
  written : text.drop start = lead ++ (letters ++ '-' :: (digits ++ after))
  label : policyLead.Matches lead
  letters : (Expression.repeated isLetter 2 (some 3)).Matches letters
  decimals : ∀ char ∈ digits, tables.isDecimal char = true
  enough : 6 ≤ digits.length
  ended : ∀ char, after.head? = some char → tables.isDecimal char = false

/-- The first policy number that is mentioned stands alone: if its letters are uppercase, it has at
most ten digits and no word character behind them, and its label does not end in a word
character. -/
def WholeToken (text : Text) : Prop :=
  ∀ start lead letters digits after, PolicyMention tables text start lead letters digits after →
    (∀ earlier < start, ∀ lead letters digits after,
      ¬PolicyMention tables text earlier lead letters digits after) →
    (∀ char ∈ letters, char.isUpper = true) →
      (∀ char, lead.getLast? = some char → tables.isWord char = false) ∧
        digits.length ≤ 10 ∧ ∀ char, after.head? = some char → tables.isWord char = false

/-- A value is the whole token that stands at a span of a text: no word character stands directly
before it, and neither a digit nor a word character directly behind it. -/
structure StandsWhole (text : Text) (value : String) (start stop : Nat) : Prop where
  taken : value.toList = slice text start stop
  before : ∀ char, (text.take start).getLast? = some char → tables.isWord char = false
  behind : ∀ char, text[stop]? = some char →
    tables.isDecimal char = false ∧ tables.isWord char = false

/-- No truncated policy number passes: one that is accepted is the whole token at its recorded
span. -/
def NoTruncation (content : List UInt8) : Prop :=
  ∀ field, (StubExtractor.extract tables content).field? "policy_number" = some field →
    isPolicyNumber tables field.value = true →
      ∀ provenance ∈ field.provenance, ∀ start stop, provenance.offsetStart = some start →
        provenance.offsetEnd = some stop →
          StandsWhole tables (decodeReplace content) field.value start stop

/-! ### The digits of a text -/

variable {tables}

theorem isLower_eq (char : Char) :
    char.isLower = (decide (char.val ≥ 'a'.val) && decide (char.val ≤ 'z'.val)) := rfl

theorem isAlpha_eq (char : Char) : char.isAlpha = (char.isUpper || char.isLower) := rfl

/-- A digit of ASCII is neither whitespace nor a letter nor a mark. -/
theorem digit_apart {char : Char} (low : 48 ≤ char.toNat) (high : char.toNat ≤ 57) :
    FloatValue.isSpace char = false ∧ isLetter char = false ∧ char ∉ ['#', ':', '-', '.'] := by
  have upper : char.isUpper = false := by
    simp [isUpper_eq, UInt32.le_iff_toNat_le]
    omega
  have lower : char.isLower = false := by
    simp [isLower_eq, UInt32.le_iff_toNat_le]
    omega
  refine ⟨?_, ?_, ?_⟩
  · simp [FloatValue.isSpace]
    omega
  · simp [isLetter, isAlpha_eq, upper, lower]
    omega
  · simp only [List.mem_cons, List.not_mem_nil, or_false, not_or]
    refine ⟨?_, ?_, ?_, ?_⟩
    all_goals rintro rfl
    all_goals revert low high
    all_goals decide

/-- Digits are apart from what leads up to them. -/
theorem not_of_isDecimal (lawful : tables.Lawful) {char : Char}
    (decimal : tables.isDecimal char = true) :
    FloatValue.isSpace char = false ∧ isLetter char = false ∧ char ∉ ['#', ':', '-', '.'] := by
  by_cases ascii : char.toNat < 128
  · have range := Char.isDigit_iff_toNat.mp (isDigit_of_isDecimal ascii decimal)
    exact digit_apart range.1 range.2
  · have foreign : (tables.decimalValue char).isSome := by
      unfold UnicodeTables.isDecimal UnicodeTables.digit at decimal
      rwa [if_neg ascii] at decimal
    obtain ⟨space, letter⟩ := lawful char (Nat.le_of_not_lt ascii) foreign
    refine ⟨space, letter, ?_⟩
    simp only [List.mem_cons, List.not_mem_nil, or_false, not_or]
    refine ⟨?_, ?_, ?_, ?_⟩
    all_goals rintro rfl
    all_goals exact ascii (by decide)

/-! ### Labels -/

theorem toNat_toLower (char : Char) : char.toLower.toNat =
    if 65 ≤ char.toNat ∧ char.toNat ≤ 90 then char.toNat + 32 else char.toNat := by
  have range : (char.val ≥ 'A'.val ∧ char.val ≤ 'Z'.val) ↔ 65 ≤ char.toNat ∧ char.toNat ≤ 90 := by
    rw [ge_iff_le, UInt32.le_iff_toNat_le, UInt32.le_iff_toNat_le]
    rfl
  unfold Char.toLower
  split
  · rename_i upper
    rw [if_pos (range.mp upper)]
    have bound := (range.mp upper).2
    show (char.val + ('a'.val - 'A'.val)).toNat = _
    rw [UInt32.toNat_add]
    show (char.toNat + 32) % 2 ^ 32 = _
    omega
  · rw [if_neg (fun inside => ‹¬_› (range.mpr inside))]

theorem isAlpha_iff (char : Char) : char.isAlpha = true ↔
    97 ≤ char.toLower.toNat ∧ char.toLower.toNat ≤ 122 := by
  have alpha : char.isAlpha = true ↔
      (65 ≤ char.toNat ∧ char.toNat ≤ 90) ∨ 97 ≤ char.toNat ∧ char.toNat ≤ 122 := by
    simp [isAlpha_eq, isUpper_eq, isLower_eq, UInt32.le_iff_toNat_le]
  rw [alpha, toNat_toLower]
  split <;> omega

/-- A character that matches one of ASCII when case is ignored is a letter if that is one, and no
digit if that is none. -/
theorem of_ignoringCase (lawful : tables.Lawful) {pattern char : Char}
    (ascii : pattern.toNat < 128) (other : pattern.isDigit = false)
    (same : ignoringCase pattern char = true) :
    isLetter char = pattern.isAlpha ∧ tables.isDecimal char = false := by
  unfold ignoringCase at same
  rw [decide_eq_true_eq] at same
  by_cases lower : char.toLower = pattern.toLower
  · have value := congrArg Char.toNat lower
    rw [toNat_toLower, toNat_toLower] at value
    have low : char.toNat < 128 := by
      split at value <;> split at value <;> omega
    have listed : char.toNat ∉ [0x130, 0x131, 0x17F, 0x212A] := by
      simp
      omega
    refine ⟨?_, Bool.eq_false_iff.mpr fun decimal => ?_⟩
    · rw [isLetter, Bool.eq_iff_iff, decide_eq_true_eq, or_iff_left listed, isAlpha_iff,
        isAlpha_iff, lower]
    · have digit := Char.isDigit_iff_toNat.mp (isDigit_of_isDecimal low decimal)
      have zero : '0'.toNat = 48 := rfl
      have nine : '9'.toNat = 57 := rfl
      have patternDigit : pattern.isDigit = true := by
        rw [Char.isDigit_iff_toNat]
        split at value <;> split at value <;> omega
      rw [other] at patternDigit
      cases patternDigit
  · have special :
        pattern.toLower ∈ ['i', 's', 'k'] ∧ char.toNat ∈ [0x130, 0x131, 0x17F, 0x212A] := by
      simp at same ⊢
      tauto
    have letter : isLetter char = true := decide_eq_true (.inr special.2)
    refine ⟨?_, Bool.eq_false_iff.mpr fun decimal => ?_⟩
    · rw [letter]
      refine ((isAlpha_iff pattern).mpr ?_).symm
      have named := special.1
      simp only [List.mem_cons, List.not_mem_nil, or_false] at named
      rcases named with same | same | same
      all_goals rw [same]
      all_goals decide
    · rw [(not_of_isDecimal lawful decimal).2.1] at letter
      cases letter

/-- What a literal text matches has its letters, and no digits. -/
theorem of_literal_matches (lawful : tables.Lawful) {pattern text : Text}
    (plain : ∀ char ∈ pattern, char.toNat < 128 ∧ char.isDigit = false)
    (matched : (literal pattern).Matches text) :
    text.countP isLetter = pattern.countP Char.isAlpha ∧
      ∀ char ∈ text, tables.isDecimal char = false := by
  induction pattern generalizing text with
  | nil =>
    have none : text = [] :=
      List.eq_nil_iff_forall_not_mem.mpr fun char member => Bool.noConfusion (matched.1 char member)
    rw [none]
    exact ⟨rfl, nofun⟩
  | cons first rest inductionHypothesis =>
    obtain ⟨firstPlain, restPlain⟩ := List.forall_mem_cons.mp plain
    obtain ⟨_, after, rfl, ⟨char, rfl, same⟩, behind⟩ := matched
    obtain ⟨letter, decimal⟩ := of_ignoringCase lawful firstPlain.1 firstPlain.2 same
    obtain ⟨letters, decimals⟩ := inductionHypothesis restPlain behind
    refine ⟨?_, List.forall_mem_cons.mpr ⟨decimal, decimals⟩⟩
    rw [List.singleton_append, List.countP_cons, List.countP_cons, letters, letter]

/-- A separator is neither a letter nor a digit. -/
theorem of_isSeparator (lawful : tables.Lawful) {char : Char}
    (separator : isSeparator char = true) :
    isLetter char = false ∧ tables.isDecimal char = false := by
  constructor
  · rw [isSeparator, decide_eq_true_eq] at separator
    rcases separator with mark | space
    · simp only [List.mem_cons, List.not_mem_nil, or_false] at mark
      rcases mark with rfl | rfl | rfl
      all_goals decide
    · simp [FloatValue.isSpace] at space
      simp [isLetter, isAlpha_eq, isUpper_eq, isLower_eq, UInt32.le_iff_toNat_le]
      omega
  · refine Bool.eq_false_iff.mpr fun decimal => ?_
    obtain ⟨space, -, marks⟩ := not_of_isDecimal lawful decimal
    rw [isSeparator, decide_eq_true_eq, space] at separator
    simp only [List.mem_cons, List.not_mem_nil, or_false, not_or] at marks separator
    tauto

theorem of_separators (lawful : tables.Lawful) {text : Text}
    (separators : ∀ char ∈ text, isSeparator char = true) :
    text.countP isLetter = 0 ∧ ∀ char ∈ text, tables.isDecimal char = false := by
  refine ⟨List.countP_eq_zero.mpr fun char member => ?_, fun char member =>
    (of_isSeparator lawful (separators char member)).2⟩
  rw [(of_isSeparator lawful (separators char member)).1]
  exact nofun

/-- A label has three, six, eight or twelve letters, and no digits. -/
theorem of_policyLead_matches (lawful : tables.Lawful) {lead : Text}
    (matched : policyLead.Matches lead) :
    lead.countP isLetter ∈ [3, 6, 8, 12] ∧ ∀ char ∈ lead, tables.isDecimal char = false := by
  have spelled {pattern : String} {text : Text} (matched : (word pattern).Matches text)
      (plain : pattern.toList.all (fun char => char.toNat < 128 ∧ char.isDigit = false) = true) :
      text.countP isLetter = pattern.toList.countP Char.isAlpha ∧
        ∀ char ∈ text, tables.isDecimal char = false := by
    refine of_literal_matches lawful (fun char member => ?_) matched
    simpa using List.all_eq_true.mp plain char member
  have mark {text : Text} (matched : numberMark.Matches text) :
      text.countP isLetter ∈ [0, 2, 6] ∧ ∀ char ∈ text, tables.isDecimal char = false := by
    rcases matched with (number | sharp | ⟨no, point, rfl, no', point' | rfl⟩) | rfl
    · obtain ⟨letters, decimals⟩ := spelled number rfl
      exact ⟨by rw [letters]; decide, decimals⟩
    · obtain ⟨letters, decimals⟩ := spelled sharp rfl
      exact ⟨by rw [letters]; decide, decimals⟩
    · obtain ⟨letters, decimals⟩ := spelled no' rfl
      obtain ⟨none, others⟩ := spelled point' rfl
      exact ⟨by rw [List.countP_append, letters, none]; decide,
        List.forall_mem_append.mpr ⟨decimals, others⟩⟩
    · obtain ⟨letters, decimals⟩ := spelled no' rfl
      rw [List.append_nil]
      exact ⟨by rw [letters]; decide, decimals⟩
    · exact ⟨by decide, nofun⟩
  obtain ⟨name, behind, rfl, named, between, -, -⟩ := matched
  obtain ⟨none, others⟩ := of_separators lawful between
  rw [List.countP_append, none, Nat.add_zero]
  rw [List.forall_mem_append]
  refine (fun both => ⟨both.1, both.2, others⟩ :
    name.countP isLetter ∈ [3, 6, 8, 12] ∧ (∀ char ∈ name, tables.isDecimal char = false) → _) ?_
  rcases named with ⟨long, _, rfl, spelledLong, space, number, rfl, ⟨spaces, -, -⟩, marked⟩ | short
  · obtain ⟨letters, decimals⟩ := spelled spelledLong rfl
    have separators : ∀ char ∈ space, isSeparator char = true := fun char member =>
      decide_eq_true (.inr (spaces char member))
    obtain ⟨none, blanks⟩ := of_separators lawful separators
    obtain ⟨numberLetters, numberDecimals⟩ := mark marked
    refine ⟨?_, List.forall_mem_append.mpr ⟨decimals,
      List.forall_mem_append.mpr ⟨blanks, numberDecimals⟩⟩⟩
    rw [List.countP_append, List.countP_append, letters, none]
    revert numberLetters
    generalize number.countP isLetter = count
    intro numberLetters
    simp only [List.mem_cons, List.not_mem_nil, or_false] at numberLetters
    rcases numberLetters with rfl | rfl | rfl
    all_goals decide
  · obtain ⟨letters, decimals⟩ := spelled short rfl
    exact ⟨by rw [letters]; decide, decimals⟩

/-! ### Mentions -/

theorem PolicyMention.front (lawful : tables.Lawful) {text : Text} {start : Nat}
    {lead letters digits after : Text}
    (mention : PolicyMention tables text start lead letters digits after) :
    (text.drop start).takeWhile (fun char => !tables.isDecimal char) = lead ++ (letters ++ ['-']) ∧
      (text.drop start).dropWhile (fun char => !tables.isDecimal char) = digits ++ after := by
  have plain : ∀ char ∈ lead ++ (letters ++ ['-']), (!tables.isDecimal char) = true := by
    have hyphen : tables.isDecimal '-' = false := rfl
    have notDecimal : ∀ char ∈ letters, tables.isDecimal char = false := fun char member =>
      Bool.eq_false_iff.mpr fun decimal => by
        have letter := (not_of_isDecimal lawful decimal).2.1
        rw [mention.letters.1 char member] at letter
        cases letter
    simp only [List.mem_append, List.mem_singleton, Bool.not_eq_true']
    rintro char (inLead | inLetters | rfl)
    · exact (of_policyLead_matches lawful mention.label).2 char inLead
    · exact notDecimal char inLetters
    · exact hyphen
  have written : text.drop start = (lead ++ (letters ++ ['-'])) ++ (digits ++ after) := by
    rw [mention.written]
    simp only [List.append_assoc, List.singleton_append]
  have digit : ∃ first rest, digits = first :: rest := by
    cases digits with
    | nil => exact absurd mention.enough (by decide)
    | cons first rest => exact ⟨first, rest, rfl⟩
  obtain ⟨first, rest, rfl⟩ := digit
  have stops : ¬(!tables.isDecimal first) = true := by
    rw [mention.decimals first List.mem_cons_self]
    decide
  rw [written, List.takeWhile_append_of_pos plain, List.dropWhile_append_of_pos plain,
    List.cons_append, List.takeWhile_cons_of_neg (p := fun char => !tables.isDecimal char) stops,
    List.dropWhile_cons_of_neg (p := fun char => !tables.isDecimal char) stops, List.append_nil]
  exact ⟨rfl, rfl⟩

theorem PolicyMention.digits_eq {text : Text} {start : Nat} {lead letters digits after : Text}
    (mention : PolicyMention tables text start lead letters digits after) :
    (digits ++ after).takeWhile tables.isDecimal = digits := by
  rw [List.takeWhile_append_of_pos mention.decimals]
  cases after with
  | nil => exact List.append_nil _
  | cons first rest =>
    rw [List.takeWhile_cons_of_neg (by rw [mention.ended first rfl]; decide), List.append_nil]

/-- At one place a policy number is written in one way. -/
theorem PolicyMention.unique (lawful : tables.Lawful) {text : Text} {start : Nat}
    {lead letters digits after lead' letters' digits' after' : Text}
    (mention : PolicyMention tables text start lead letters digits after)
    (other : PolicyMention tables text start lead' letters' digits' after') :
    lead = lead' ∧ letters = letters' ∧ digits = digits' ∧ after = after' := by
  obtain ⟨front, behind⟩ := mention.front lawful
  obtain ⟨otherFront, otherBehind⟩ := other.front lawful
  rw [otherBehind] at behind
  have sameDigits : digits = digits' := by
    rw [← mention.digits_eq, ← other.digits_eq, behind]
  have sameAfter : after = after' := by
    rw [sameDigits] at behind
    exact (List.append_cancel_left behind).symm
  rw [otherFront, ← List.append_assoc, ← List.append_assoc, List.append_left_inj] at front
  have letterCount {text : Text} (all : ∀ char ∈ text, isLetter char = true) :
      text.countP isLetter = text.length := List.countP_eq_length.mpr all
  have total := congrArg (List.countP isLetter) front
  rw [List.countP_append, List.countP_append, letterCount mention.letters.1,
    letterCount other.letters.1] at total
  have sameLength : letters'.length = letters.length := by
    have few := mention.letters.2
    have otherFew := other.letters.2
    have bound := few.2 3 rfl
    have otherBound := otherFew.2 3 rfl
    have count := (of_policyLead_matches lawful mention.label).1
    have otherCount := (of_policyLead_matches lawful other.label).1
    simp only [List.mem_cons, List.not_mem_nil, or_false] at count otherCount
    omega
  obtain ⟨sameLead, sameLetters⟩ := List.append_inj' front sameLength
  exact ⟨sameLead.symm, sameLetters.symm, sameDigits, sameAfter⟩

/-! ### The reading of a mention -/

/-- The pattern of policy numbers. -/
def policyPattern (tables : UnicodeTables) : Pattern where
  lead := policyLead
  value := policyValue tables

theorem policyPattern_mem : ("policy_number", policyPattern tables) ∈ patterns tables :=
  List.mem_cons_of_mem _ List.mem_cons_self

/-- The first reading of the pattern is of a mention, and its group is the number up to its tenth
digit. -/
theorem mention_of_head? {text : Text} {start : Nat} {reading : Reading}
    (head : ((policyPattern tables).expression.readings (text.drop start)).head? = some reading) :
    ∃ lead letters digits after, PolicyMention tables text start lead letters digits after ∧
      reading.group =
        some (lead.length, lead.length + (letters.length + (1 + min 10 digits.length))) := by
  obtain ⟨label, labelRead, behind, behindHead, rfl⟩ := head?_readings_seq head
  obtain ⟨number, numberHead, rfl⟩ := head?_readings_group behindHead
  obtain ⟨spelled, spelledRead, rest, restHead, rfl⟩ := head?_readings_seq numberHead
  obtain ⟨hyphen, hyphenRead, counted, countedHead, rfl⟩ := head?_readings_seq restHead
  obtain ⟨enough, -, greatest⟩ := head?_readings_repeated countedHead
  obtain ⟨labelFits, labelled⟩ := (exists_reading_iff _ _ _).mp ⟨label, labelRead, rfl⟩
  obtain ⟨spelledFits, letters⟩ := (exists_reading_iff _ _ _).mp ⟨spelled, spelledRead, rfl⟩
  obtain ⟨hyphenFits, char, single, isHyphen⟩ :=
    (exists_reading_iff _ _ _).mp ⟨hyphen, hyphenRead, rfl⟩
  generalize behindLabel : (text.drop start).drop label.consumed = numberText at *
  generalize behindLetters : numberText.drop spelled.consumed = hyphenText at *
  generalize behindHyphen : hyphenText.drop hyphen.consumed = digitText at *
  have hyphenLength : hyphen.consumed = 1 := by
    have length := congrArg List.length single
    rw [List.length_take, Nat.min_eq_left hyphenFits] at length
    exact length
  have written : text.drop start = (text.drop start).take label.consumed ++
      (numberText.take spelled.consumed ++ '-' :: (digitText.takeWhile tables.isDecimal ++
        digitText.dropWhile tables.isDecimal)) := by
    have hyphenWritten : hyphenText = '-' :: digitText := by
      rw [← List.take_append_drop hyphen.consumed hyphenText, single, behindHyphen,
        of_decide_eq_true isHyphen]
      rfl
    rw [List.takeWhile_append_dropWhile, ← hyphenWritten, ← behindLetters, List.take_append_drop,
      ← behindLabel, List.take_append_drop]
  refine ⟨_, _, _, _, ⟨written, labelled, letters, ?_, ?_, ?_⟩, ?_⟩
  · exact fun char member => List.mem_takeWhile_imp member
  · rw [greatest, Option.elim_some] at enough
    omega
  · intro char first
    have stopped := List.head?_dropWhile_not tables.isDecimal digitText
    rw [first] at stopped
    simpa using stopped
  · rw [List.length_take, Nat.min_eq_left labelFits, List.length_take, Nat.min_eq_left spelledFits]
    show some (label.consumed + 0, label.consumed +
      (spelled.consumed + (hyphen.consumed + counted.consumed))) = _
    rw [greatest, hyphenLength, Option.elim_some, Nat.add_zero, Nat.min_comm]

/-- The pattern has a reading exactly where a policy number is mentioned. -/
theorem readings_ne_nil_iff_mention {text : Text} {start : Nat} :
    (policyPattern tables).expression.readings (text.drop start) ≠ [] ↔
      ∃ lead letters digits after, PolicyMention tables text start lead letters digits after := by
  constructor
  · intro some
    obtain ⟨reading, rest, read⟩ := List.exists_cons_of_ne_nil some
    obtain ⟨lead, letters, digits, after, mention, -⟩ :=
      mention_of_head? (List.head?_eq_some_iff.mpr ⟨rest, read⟩)
    exact ⟨lead, letters, digits, after, mention⟩
  · rintro ⟨lead, letters, digits, after, mention⟩
    refine (readings_ne_nil_iff _ _).mpr
      ⟨lead ++ (letters ++ '-' :: digits.take 10), digits.drop 10 ++ after, ?_, ?_⟩
    · rw [mention.written]
      simp only [List.append_assoc, List.cons_append]
      rw [← List.append_assoc (digits.take 10), List.take_append_drop]
    · refine ⟨lead, _, rfl, mention.label, letters, _, rfl, mention.letters, ['-'],
        digits.take 10, rfl, ⟨'-', rfl, rfl⟩,
        fun char member => mention.decimals char (List.mem_of_mem_take member), ?_, ?_⟩
      · rw [List.length_take]
        have enough := mention.enough
        omega
      · rintro _ ⟨⟩
        exact List.length_take_le _ _

/-! ### The field -/

/-- The field the pattern finds is the number of the first mention up to its tenth digit. -/
theorem policy_field_some {text : Text} {field : ExtractionField}
    (found : (policyPattern tables).field "policy_number" text = some field) :
    ∃ start lead letters digits after, PolicyMention tables text start lead letters digits after ∧
      (∀ earlier < start, ∀ lead letters digits after,
        ¬PolicyMention tables text earlier lead letters digits after) ∧
      field.value = String.ofList (FloatValue.strip (letters ++ '-' :: digits.take 10)) ∧
      ∃ provenance begins ends, field.provenance = [provenance] ∧
        provenance.offsetStart = some begins ∧ provenance.offsetEnd = some ends ∧
        text.take begins = text.take start ++ lead ∧
        slice text begins ends = letters ++ '-' :: digits.take 10 ∧
        text.drop ends = digits.drop 10 ++ after := by
  unfold Pattern.field at found
  split at found
  · rename_i position consumed begins ends searched
    cases found
    obtain ⟨fits, head, none⟩ := search_eq_some_iff.mp searched
    obtain ⟨lead, letters, digits, after, mention, group⟩ := mention_of_head? head
    cases group
    have split : text.drop position = lead ++ ((letters ++ '-' :: digits.take 10) ++
        (digits.drop 10 ++ after)) := by
      rw [mention.written]
      simp only [List.append_assoc, List.cons_append]
      rw [← List.append_assoc (digits.take 10), List.take_append_drop]
    have length : (letters ++ '-' :: digits.take 10).length =
        letters.length + (1 + min 10 digits.length) := by
      rw [List.length_append, List.length_cons, List.length_take]
      omega
    have taken : slice text (position + lead.length)
        (position + (lead.length + (letters.length + (1 + min 10 digits.length)))) =
          letters ++ '-' :: digits.take 10 := by
      rw [slice, ← List.drop_drop, split, List.drop_left, Nat.add_sub_add_left,
        Nat.add_sub_cancel_left, ← length, List.take_left]
    refine ⟨position, lead, letters, digits, after, mention, ?_, ?_, _, _, _, rfl, rfl, rfl, ?_,
      taken, ?_⟩
    · intro earlier before lead letters digits after other
      exact readings_ne_nil_iff_mention.mpr ⟨lead, letters, digits, after, other⟩
        (none earlier before)
    · dsimp only
      rw [taken]
    · rw [List.take_add, split, List.take_left]
    · rw [← List.drop_drop, split, ← List.drop_drop, List.drop_left, ← length, List.drop_left]
  · cases found

/-- Where no policy number is mentioned, no field is found. -/
theorem policy_field_none {text : Text}
    (none : (policyPattern tables).field "policy_number" text = none) {start : Nat}
    {lead letters digits after : Text} :
    ¬PolicyMention tables text start lead letters digits after := by
  intro mention
  have nowhere := search_eq_none_iff.mp ((Pattern.field_eq_none_iff _ _ _).mp none)
  have some := readings_ne_nil_iff_mention.mpr ⟨lead, letters, digits, after, mention⟩
  by_cases inside : start ≤ text.length
  · exact some (nowhere start inside)
  · have empty := mention.written
    rw [List.drop_eq_nil_of_le (Nat.le_of_lt (Nat.lt_of_not_le inside))] at empty
    simp at empty

/-- A policy number has no space around it. -/
theorem policy_unstripped (lawful : tables.Lawful) {letters digits : Text}
    (lettered : ∀ char ∈ letters, isLetter char = true)
    (decimals : ∀ char ∈ digits, tables.isDecimal char = true) :
    FloatValue.strip (letters ++ '-' :: digits) = letters ++ '-' :: digits := by
  refine strip_eq_self fun char member => ?_
  rw [List.mem_append, List.mem_cons] at member
  rcases member with letter | rfl | digit
  · refine Bool.eq_false_iff.mpr fun space => ?_
    have letter := lettered char letter
    rw [(of_isSeparator lawful (decide_eq_true (.inr space))).1] at letter
    cases letter
  · rfl
  · exact (not_of_isDecimal lawful (decimals char digit)).1

theorem mention_unstripped (lawful : tables.Lawful) {text : Text} {start : Nat}
    {lead letters digits after : Text}
    (mention : PolicyMention tables text start lead letters digits after) :
    FloatValue.strip (letters ++ '-' :: digits.take 10) = letters ++ '-' :: digits.take 10 :=
  policy_unstripped lawful mention.letters.1 fun char member =>
    mention.decimals char (List.mem_of_mem_take member)

/-- The validator accepts the number of a mention exactly when its letters are uppercase. -/
theorem mention_isPolicyNumber_iff {text : Text} {start : Nat}
    {lead letters digits after : Text}
    (mention : PolicyMention tables text start lead letters digits after) :
    isPolicyNumber tables (String.ofList (letters ++ '-' :: digits.take 10)) = true ↔
      ∀ char ∈ letters, char.isUpper = true := by
  have enough : 6 ≤ (digits.take 10).length := by
    rw [List.length_take]
    have enough := mention.enough
    omega
  have decimals : ∀ char ∈ digits.take 10, tables.isDecimal char = true :=
    fun char member => mention.decimals char (List.mem_of_mem_take member)
  rw [isPolicyNumber_iff, String.toList_ofList]
  constructor
  · rintro ⟨upper, numerals, tail, same, parts, -⟩
    have inLetters : '-' ∉ letters := fun hyphen =>
      Bool.noConfusion ((mention.letters.1 '-' hyphen).symm.trans rfl)
    have inDigits : '-' ∉ digits.take 10 := fun hyphen =>
      Bool.noConfusion ((decimals '-' hyphen).symm.trans rfl)
    have sameLetters := ((List.append_cons_inj_of_notMem inLetters inDigits).mp same).1
    rw [sameLetters]
    exact parts.uppercase
  · intro uppercase
    exact ⟨letters, digits.take 10, [], by rw [List.append_nil],
      ⟨mention.letters.2.1, mention.letters.2.2 3 rfl, uppercase, enough, List.length_take_le _ _,
        decimals⟩, .inl rfl⟩

theorem PolicyMention.lead_ne_nil (lawful : tables.Lawful) {text : Text} {start : Nat}
    {lead letters digits after : Text}
    (mention : PolicyMention tables text start lead letters digits after) : lead ≠ [] := by
  rintro rfl
  exact absurd (of_policyLead_matches lawful mention.label).1 (by decide)

/-- The span of a mention is that of a whole token exactly when its digits are all taken and no word
character stands around it. -/
theorem mention_standsWhole_iff (lawful : tables.Lawful) {text : Text} {start begins ends : Nat}
    {lead letters digits after : Text}
    (mention : PolicyMention tables text start lead letters digits after)
    (before : text.take begins = text.take start ++ lead)
    (taken : slice text begins ends = letters ++ '-' :: digits.take 10)
    (behind : text.drop ends = digits.drop 10 ++ after) :
    StandsWhole tables text (String.ofList (letters ++ '-' :: digits.take 10)) begins ends ↔
      (∀ char, lead.getLast? = some char → tables.isWord char = false) ∧
        digits.length ≤ 10 ∧ ∀ char, after.head? = some char → tables.isWord char = false := by
  have last : (text.take begins).getLast? = lead.getLast? := by
    rw [before, List.getLast?_append_of_ne_nil _ (mention.lead_ne_nil lawful)]
  have followed : text[ends]? = (digits.drop 10 ++ after).head? := by
    rw [← behind, List.head?_drop]
  constructor
  · rintro ⟨-, apart, ended⟩
    rw [last] at apart
    rw [followed] at ended
    cases rest : digits.drop 10 with
    | nil =>
      rw [rest, List.nil_append] at ended
      exact ⟨apart, List.drop_eq_nil_iff.mp rest, fun char first => (ended char first).2⟩
    | cons next others =>
      rw [rest] at ended
      have digit := mention.decimals next (List.mem_of_mem_drop (rest ▸ List.mem_cons_self))
      rw [(ended next rfl).1] at digit
      cases digit
  · rintro ⟨apart, few, ended⟩
    refine ⟨by rw [String.toList_ofList, taken], by rwa [last], ?_⟩
    rw [followed, List.drop_eq_nil_of_le few, List.nil_append]
    exact fun char first => ⟨mention.ended char first, ended char first⟩

/-- No truncated policy number passes exactly when the first policy number that is mentioned, if its
letters are uppercase, stands alone. The extractor takes the first mention and at most ten digits of
it, so what the validator sees is whole just when the token ends there. -/
theorem noTruncation_iff (lawful : tables.Lawful) (content : List UInt8) :
    NoTruncation tables content ↔ WholeToken tables (decodeReplace content) := by
  unfold NoTruncation WholeToken
  rw [field?_extract tables policyPattern_mem]
  generalize decodeReplace content = text
  cases found : (policyPattern tables).field "policy_number" text with
  | none =>
    exact iff_of_true nofun fun _ _ _ _ _ mention => absurd mention (policy_field_none found)
  | some field =>
    obtain ⟨start, lead, letters, digits, after, mention, first, value, provenance, begins, ends,
      only, beginning, ending, before, taken, behind⟩ := policy_field_some found
    rw [mention_unstripped lawful mention] at value
    have accepted := mention_isPolicyNumber_iff mention
    have whole := mention_standsWhole_iff lawful mention before taken behind
    rw [← value] at accepted whole
    constructor
    · intro untruncated start' lead' letters' digits' after' mention' first' uppercase
      have sameStart : start' = start := by
        rcases Nat.lt_trichotomy start' start with before | same | behind
        · exact absurd mention' (first _ before _ _ _ _)
        · exact same
        · exact absurd mention (first' _ behind _ _ _ _)
      subst sameStart
      obtain ⟨rfl, rfl, rfl, rfl⟩ := mention'.unique lawful mention
      exact whole.mp (untruncated field rfl (accepted.mpr uppercase) provenance
        (by rw [only]; exact List.mem_singleton_self _) begins ends beginning ending)
    · rintro alone _ ⟨⟩ formed given listed start' stop' beginning' ending'
      rw [only, List.mem_singleton] at listed
      subst listed
      cases beginning.symm.trans beginning'
      cases ending.symm.trans ending'
      exact whole.mpr (alone start lead letters digits after mention first (accepted.mp formed))

/-- The tables of a runtime that knows no digit or letter outside ASCII. -/
def asciiTables : UnicodeTables := ⟨fun _ => none, fun _ => false⟩

theorem asciiTables_lawful : asciiTables.Lawful := fun _ _ decimal => nomatch decimal

/-- A document in which a policy number has eleven digits. -/
def longNumber : List UInt8 := utf8 "Policy No.: POL-12345678901".toList

/-- Its field is the number without the last of them, which stands behind the span, and passes. -/
theorem long_number_truncated : ¬NoTruncation asciiTables longNumber := by
  intro untruncated
  have found : ((StubExtractor.extract asciiTables longNumber).field? "policy_number").map
      (fun field => (isPolicyNumber asciiTables field.value,
        field.provenance.map fun provenance => (provenance.offsetStart, provenance.offsetEnd))) =
        some (true, [(some 12, some 26)]) := by
    decide +kernel
  obtain ⟨field, extracted, same⟩ := Option.map_eq_some_iff.mp found
  obtain ⟨accepted, spans⟩ := Prod.mk.injEq _ _ _ _ ▸ same
  obtain ⟨provenance, listed, offsets⟩ :=
    List.mem_map.mp (spans ▸ List.mem_singleton_self (some 12, some 26))
  obtain ⟨begins, ends⟩ := Prod.mk.injEq _ _ _ _ ▸ offsets
  have whole := untruncated field extracted accepted provenance listed 12 26 begins ends
  exact Bool.noConfusion (whole.behind '1' (by decide +kernel)).1

/-- A document in which a policy number ends with its tenth digit. -/
def shortNumber : List UInt8 := utf8 "Policy No.: POL-1234567890".toList

theorem short_number_whole : WholeToken asciiTables (decodeReplace shortNumber) := by
  refine (noTruncation_iff asciiTables_lawful shortNumber).mp ?_
  intro field extracted accepted provenance listed start stop begins ends
  have found : ((StubExtractor.extract asciiTables shortNumber).field? "policy_number").map
      (fun field => (field.value, field.provenance.map fun provenance =>
        (provenance.offsetStart, provenance.offsetEnd))) =
        some ("POL-1234567890", [(some 12, some 26)]) := by
    decide +kernel
  rw [extracted, Option.map_some, Option.some.injEq, Prod.mk.injEq] at found
  have spans := List.mem_map_of_mem
    (f := fun provenance => (provenance.offsetStart, provenance.offsetEnd)) listed
  rw [found.2, begins, ends, List.mem_singleton, Prod.mk.injEq, Option.some.injEq,
    Option.some.injEq] at spans
  obtain ⟨rfl, rfl⟩ := spans
  rw [found.1]
  refine ⟨by decide +kernel, fun char last => ?_, fun char behind => ?_⟩
  · rw [show ((decodeReplace shortNumber).take 12).getLast? = some ' ' by decide +kernel] at last
    cases last
    rfl
  · rw [show (decodeReplace shortNumber)[26]? = none by decide +kernel] at behind
    cases behind

end InsuranceOps
