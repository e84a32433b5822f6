/-
This file follows the extraction of a labelled form, a document with one line
for each of some fields. Each pattern takes the value of its own line as a
whole, but it takes it from an earlier line where that can be read, and a field
without a line is found there as well.
-/

import InsuranceOps.FieldReadings

namespace InsuranceOps

open Backtracking

/-! ### Forms -/

/-- A line of a form: a value of the field's capture group, without space around it. -/
structure FormLine (tables : UnicodeTables) where
  field : FormField
  value : Text
  language : (field.value tables).Matches value
  trimmed : FloatValue.strip value = value

section Lines

variable {tables : UnicodeTables}

def FormLine.text (line : FormLine tables) : Text := line.field.label ++ (": ".toList ++ line.value)

/-- The text of some lines, and what follows a line in it. -/
def linesText : List (FormLine tables) → Text
  | [] => []
  | line :: rest => line.text ++ if rest.isEmpty then [] else Char.ofNat 10 :: linesText rest

/-- What follows a line: nothing, or a line feed and the lines behind it. -/
def following (rest : List (FormLine tables)) : Text :=
  if rest.isEmpty then [] else Char.ofNat 10 :: linesText rest

theorem linesText_cons (line : FormLine tables) (rest : List (FormLine tables)) :
    linesText (line :: rest) =
      line.field.label ++ (": ".toList ++ (line.value ++ following rest)) := by
  rw [linesText, FormLine.text, following]
  simp only [List.append_assoc]

end Lines

/-- A document made of lines for different fields. -/
structure LabelledForm (tables : UnicodeTables) where
  lines : List (FormLine tables)
  distinct : (lines.map FormLine.field).Nodup

/-- The value on the line of a field. -/
def ownValue {tables : UnicodeTables} (lines : List (FormLine tables)) (field : FormField) :
    Option Text := (lines.find? fun line => line.field = field).map FormLine.value

/-! ### Labels -/

theorem known_label : ∀ field ∈ FormField.all, ∀ other ∈ FormField.all, field ≠ other →
    (field, other) ≠ (.claimNumber, .claimType) →
      ∀ offset < (other.label ++ ": ".toList).length,
        field.lead.known ((other.label ++ ": ".toList).drop offset) = some [] := by
  decide

theorem known_lineFeed : ∀ field ∈ FormField.all, field.lead.known [Char.ofNat 10] = some [] := by
  decide

theorem readings_end : ∀ field ∈ FormField.all, field.lead.readings [] = [] := by decide

theorem known_naming : ∀ field ∈ FormField.all,
    (field.naming.known (field.label ++ ": ".toList)).bind List.head? =
      some { consumed := field.label.length } := by
  decide

theorem separates_colon : ∀ field ∈ FormField.all,
    (": ".toList.all field.separates && decide (field.leastSeparators ≤ 2)) = true := by
  decide

section Labels

variable {tables : UnicodeTables}

/-- No pattern is read in the label of another field, unless it is that of claim numbers in the
label of claim types. -/
theorem firstAt_label {field other : FormField} (different : field ≠ other)
    (apart : (field, other) ≠ (.claimNumber, .claimType)) (rest : Text) :
    firstAt (field.pattern tables).read (other.label ++ ": ".toList) rest = none := by
  refine (firstAt_congr fun place within nonempty => ?_).trans (firstAt_none _ rest)
  have start := List.suffix_iff_eq_drop.mp within
  have inside : (other.label ++ ": ".toList).length - place.length <
      (other.label ++ ": ".toList).length :=
    Nat.sub_lt (Nat.lt_of_lt_of_le (List.length_pos_iff.mpr nonempty) within.length_le)
      (List.length_pos_iff.mpr nonempty)
  have known := known_label field field.mem_all other other.mem_all different apart _ inside
  rw [← start] at known
  exact Pattern.read_eq_none_of_lead (readings_of_known known rest)

theorem capture_nil (field : FormField) : (field.pattern tables).capture [] = none :=
  Pattern.read_eq_none_of_lead (readings_end field field.mem_all)

/-- A line feed captures nothing. -/
theorem capture_following (field : FormField) (rest : List (FormLine tables)) :
    (field.pattern tables).capture (following rest) =
      (field.pattern tables).capture (linesText rest) := by
  unfold following
  cases rest with
  | nil => rfl
  | cons line rest =>
    have known := readings_of_known (known_lineFeed field field.mem_all) (linesText (line :: rest))
    have unread : (field.pattern tables).read (Char.ofNat 10 :: linesText (line :: rest)) = none :=
      Pattern.read_eq_none_of_lead known
    rw [List.isEmpty_cons, if_neg Bool.false_ne_true, Pattern.capture, unread, Option.none_or]

end Labels

/-! ### Values -/

section Values

variable {tables : UnicodeTables}

/-- The first character of a text without space around it is no space. -/
theorem isSpace_head? {text : Text} (trimmed : FloatValue.strip text = text) {char : Char}
    (first : text.head? = some char) : FloatValue.isSpace char = false := by
  obtain ⟨rest, rfl⟩ := List.head?_eq_some_iff.mp first
  refine Bool.eq_false_iff.mpr fun space => ?_
  have length := congrArg List.length trimmed
  have shorter : (FloatValue.strip (char :: rest)).length ≤ rest.length := by
    unfold FloatValue.strip
    rw [List.length_reverse, List.dropWhile_cons_of_pos space]
    refine (List.dropWhile_suffix _).length_le.trans ?_
    rw [List.length_reverse]
    exact (List.dropWhile_suffix _).length_le
  rw [length, List.length_cons] at shorter
  omega

/-- What follows a line does not go on with it. -/
theorem following_head? {rest : List (FormLine tables)} {char : Char}
    (first : (following rest).head? = some char) : char = Char.ofNat 10 := by
  unfold following at first
  split at first
  · cases first
  · exact (Option.some.inj first).symm

/-- A value does not begin with a separator. -/
theorem separates_head? (faithful : tables.Faithful) (line : FormLine tables) {char : Char}
    (first : line.value.head? = some char) : line.field.separates char = false := by
  obtain ⟨field, value, language, trimmed⟩ := line
  dsimp only at first ⊢
  have space := isSpace_head? trimmed first
  have lettered (letter : isLetter char = true) : isSeparator char = false := by
    refine Bool.eq_false_iff.mpr fun separator => ?_
    rw [(of_isSeparator faithful.lawful separator).1] at letter
    cases letter
  cases field with
  | claimNumber =>
    obtain ⟨_, _, rfl, ⟨_, rfl, accepted⟩, -⟩ := language
    cases first
    rcases of_decide_eq_true accepted with letter | digit
    · exact lettered letter
    · have range := Char.isDigit_iff_toNat.mp digit
      obtain ⟨-, -, marks⟩ := digit_apart range.1 range.2
      simp only [List.mem_cons, List.not_mem_nil, or_false, not_or] at marks
      simp [FormField.separates, isSeparator, space, marks]
  | policyNumber =>
    obtain ⟨letters, _, rfl, ⟨all, enough, -⟩, -⟩ := language
    obtain ⟨other, rest, rfl⟩ :=
      List.exists_cons_of_length_pos (Nat.lt_of_lt_of_le (by decide) enough)
    cases first
    exact lettered (all char List.mem_cons_self)
  | claimant =>
    obtain ⟨rest, rfl⟩ := List.head?_eq_some_iff.mp first
    rcases of_decide_eq_true (language.1 char List.mem_cons_self) with letter | rfl
    · exact isColonOrSpace_of_isLetter faithful.lawful letter
    · cases space
  | dateOfLoss =>
    obtain ⟨digits, _, rfl, ⟨all, enough, -⟩, -⟩ := language
    obtain ⟨other, rest, rfl⟩ := List.exists_cons_of_length_pos enough
    cases first
    exact isColonOrSpace_of_isDecimal faithful.lawful (all char List.mem_cons_self)
  | claimType =>
    obtain ⟨rest, rfl⟩ := List.head?_eq_some_iff.mp first
    exact isColonOrSpace_of_isWord faithful (language.1 char List.mem_cons_self)

/-- The capture group takes a value as a whole where a line ends. -/
theorem value_taken (line : FormLine tables) {tail : Text}
    (ended : ∀ char, tail.head? = some char → char = Char.ofNat 10) :
    ((line.field.value tables).readings (line.value ++ tail)).head? =
      some { consumed := line.value.length } := by
  obtain ⟨field, value, language, -⟩ := line
  dsimp only
  have stops {accepts : Char → Bool} (refused : accepts (Char.ofNat 10) = false) (char : Char)
      (first : tail.head? = some char) : accepts char = false := ended char first ▸ refused
  cases field with
  | claimNumber =>
    obtain ⟨_, rest, rfl, ⟨first, rfl, accepted⟩, all, enough, bounded⟩ := language
    rw [List.append_assoc, List.length_append]
    exact head?_readings_seq_append (head?_readings_one_of first accepted (rest ++ tail))
      (head?_readings_repeated_of all (stops rfl) enough bounded)
  | policyNumber =>
    obtain ⟨letters, _, rfl, ⟨all, enough, bounded⟩, _, digits, rfl, ⟨hyphen, rfl, isHyphen⟩,
      decimals, enoughDigits, fewDigits⟩ := language
    have notLetter : isLetter hyphen = false := by
      rw [of_decide_eq_true isHyphen]
      rfl
    rw [List.append_assoc, List.append_assoc, List.length_append, List.length_append]
    refine head?_readings_seq_append (head?_readings_repeated_of all ?_ enough bounded)
      (head?_readings_seq_append (head?_readings_one_of hyphen isHyphen (digits ++ tail))
        (head?_readings_repeated_of decimals (stops rfl) enoughDigits fewDigits))
    rintro _ ⟨⟩
    exact notLetter
  | claimant => exact head?_readings_repeated_of language.1 (stops rfl) language.2.1 language.2.2
  | dateOfLoss =>
    obtain ⟨month, _, rfl, ⟨months, someMonth, fewMonth⟩, _, _, rfl, ⟨mark, rfl, isMark⟩, day, _,
      rfl, ⟨days, someDay, fewDay⟩, _, year, rfl, ⟨other, rfl, isOther⟩, years, someYear,
      fewYear⟩ := language
    have notDecimal {char : Char} (separator : isDateSeparator char = true) :
        tables.isDecimal char = false := by
      rcases of_decide_eq_true separator with rfl | rfl
      · rfl
      · rfl
    simp only [List.append_assoc, List.length_append]
    refine head?_readings_seq_append (head?_readings_repeated_of months ?_ someMonth fewMonth)
      (head?_readings_seq_append (head?_readings_one_of mark isMark _)
        (head?_readings_seq_append (head?_readings_repeated_of days ?_ someDay fewDay)
          (head?_readings_seq_append (head?_readings_one_of other isOther (year ++ tail))
            (head?_readings_repeated_of years (stops rfl) someYear fewYear))))
    · rintro _ ⟨⟩
      exact notDecimal isMark
    · rintro _ ⟨⟩
      exact notDecimal isOther
  | claimType => exact head?_readings_repeated_of language.1 (stops rfl) language.2.1 language.2.2

theorem value_ne_nil (line : FormLine tables) : line.value ≠ [] := by
  have needs : (line.field.value tables).Needs fun _ => True := by
    cases line.field with
    | claimNumber => exact .inl fun _ _ => trivial
    | policyNumber => exact .inl ⟨by decide, fun _ _ => trivial⟩
    | claimant => exact ⟨by decide, fun _ _ => trivial⟩
    | dateOfLoss => exact .inl ⟨by decide, fun _ _ => trivial⟩
    | claimType => exact ⟨by decide, fun _ _ => trivial⟩
  obtain ⟨char, member, -⟩ := needs.exists_mem line.language
  exact List.ne_nil_of_mem member

/-- A pattern reads the value of its own line. -/
theorem read_own (faithful : tables.Faithful) (line : FormLine tables)
    (rest : List (FormLine tables)) : (line.field.pattern tables).read
      (line.field.label ++ (": ".toList ++ (line.value ++ following rest))) = some line.value := by
  obtain ⟨readings, known, head⟩ := Option.bind_eq_some_iff.mp
    (known_naming line.field line.field.mem_all)
  have named : (line.field.naming.readings
      (line.field.label ++ (": ".toList ++ (line.value ++ following rest)))).head? =
        some { consumed := line.field.label.length } := by
    rw [← List.append_assoc, readings_of_known known, head]
  have separated :
      ((Expression.repeated line.field.separates line.field.leastSeparators none).readings
        (": ".toList ++ (line.value ++ following rest))).head? = some { consumed := 2 } := by
    have allowed := separates_colon line.field line.field.mem_all
    rw [Bool.and_eq_true, List.all_eq_true, decide_eq_true_eq] at allowed
    refine head?_readings_repeated_of allowed.1 (fun char first => ?_) allowed.2 nofun
    obtain ⟨first', others, same⟩ := List.exists_cons_of_ne_nil (value_ne_nil line)
    refine separates_head? faithful line ?_
    rw [same] at first ⊢
    exact first
  have leads := head?_readings_seq_append named separated
  have taken := value_taken line fun char (first : (following rest).head? = some char) =>
    following_head? first
  rw [← List.append_assoc] at leads ⊢
  rw [Pattern.read_of_head? leads (by rw [List.length_append]; rfl) taken rfl, line.trimmed]

end Values

end InsuranceOps
