/-
This file says where the fields of a labelled form stray. The label of claim types
offers a claim number, and so does a policy number whose letters are CLM; a claim
number can hold a policy number; a claimant can be called something that reads like
a claim or a type; and a value that ends with the name of a field makes the next
label its value. Extraction inverts the form exactly where nothing else is offered
first.
-/

import InsuranceOps.LabelledForms
import Mathlib.Data.List.Infix

namespace InsuranceOps

open Backtracking

/-! ### Offers -/

section Offers

variable (tables : UnicodeTables)

/-- Whether a value ends with a name of a field, when case is ignored. -/
def endsNaming (field : FormField) (value : Text) : Bool :=
  value.tails.any fun place => field.spellings.any fun spelled =>
    behindWord spelled.toList place = some []

variable {tables}

/-- The label of the line that follows. -/
def nextLabel (rest : List (FormLine tables)) : Option Text :=
  rest.head?.map fun line => line.field.label

/-- What a field takes of a label, where it is named on the line before it. -/
def labelTaken : FormField → Text → Option Text
  | .claimant, label => some label
  | .claimType, label => some (label.takeWhile isLetter)
  | .claimNumber, _ | .policyNumber, _ | .dateOfLoss, _ => none

/-- The value a line offers to another field: as a label, as a value, or as the end of one. -/
def offered (field : FormField) (line : FormLine tables) (rest : List (FormLine tables)) :
    Option Text :=
  match line.field, field with
  | .claimType, .claimNumber => some "Type".toList
  | .policyNumber, .claimNumber =>
    (behindWord "CLM-".toList line.value).filter fun digits => digits.head?.any Char.isDigit
  | .claimant, .claimNumber => firstAt (claimNumberAt tables) line.value (following rest)
  | .claimNumber, .policyNumber => firstAt (policyNumberAt tables) line.value (following rest)
  | .claimNumber, .claimant | .claimType, .claimant =>
    if endsNaming .claimant line.value then (nextLabel rest).bind (labelTaken .claimant) else none
  | .claimNumber, .claimType =>
    if endsNaming .claimType line.value then (nextLabel rest).bind (labelTaken .claimType) else none
  | .claimant, .claimType => firstAt (claimTypeAt tables) line.value (following rest)
  | _, _ => none

/-- The value that is first offered to a field by the lines before its own. -/
def strayValue (field : FormField) : List (FormLine tables) → Option Text
  | [] => none
  | line :: rest =>
    if line.field = field then none
    else (offered field line rest).or (strayValue field rest)

end Offers

/-! ### Ends of lines -/

section Ends

variable {tables : UnicodeTables}

theorem behindWord_following (spelled : String)
    (plain : spelled.toList.all (fun char => !ignoringCase char (Char.ofNat 10)) = true)
    (place : Text) (rest : List (FormLine tables)) :
    behindWord spelled.toList (place ++ following rest) =
      (behindWord spelled.toList place).map (· ++ following rest) := by
  refine behindWord_append fun char member other first => ?_
  rw [following_head? first]
  simpa using List.all_eq_true.mp plain char member

/-- Behind a line stands nothing, or a line feed and the label of the next line. -/
theorem following_cases (rest : List (FormLine tables)) :
    following rest = [] ∧ nextLabel rest = none ∨
      ∃ (field : FormField) (more : Text), nextLabel rest = some field.label ∧
        following rest = Char.ofNat 10 :: (field.label ++ (": ".toList ++ more)) := by
  cases rest with
  | nil => exact .inl ⟨rfl, rfl⟩
  | cons line rest =>
    refine .inr ⟨line.field, line.value ++ following rest, rfl, ?_⟩
    rw [following, List.isEmpty_cons, if_neg Bool.false_ne_true, linesText_cons]

variable (tables) in
/-- A label begins neither with a colon or a space nor with a digit. -/
theorem label_head? {field : FormField} {more : Text} {char : Char}
    (first : (field.label ++ more).head? = some char) :
    isColonOrSpace char = false ∧ tables.isDecimal char = false := by
  cases field <;> cases first <;> exact ⟨rfl, rfl⟩

/-- A date is taken only where a digit stands. -/
theorem taken_dateOfLoss {text : Text}
    (ended : ∀ char, text.head? = some char → tables.isDecimal char = false) :
    (FormField.dateOfLoss.pattern tables).taken text = none := by
  rw [Pattern.taken_eq_ahead]
  show (Expression.seq (.repeated tables.isDecimal (0 + 1) (some 2)) _).ahead _ text = none
  rw [ahead_seq, ahead_repeated_none ended]

/-- What a field without a number takes behind the end of a line. -/
theorem ahead_following (faithful : tables.Faithful) {field : FormField}
    (named : field.spellings ≠ []) (rest : List (FormLine tables)) :
    (Expression.repeated isColonOrSpace 1 none).ahead (field.pattern tables).taken
        (following rest) = (nextLabel rest).bind (labelTaken field) := by
  rcases following_cases rest with ⟨nothing, unlabelled⟩ | ⟨next, more, label, follows⟩
  · rw [nothing, unlabelled]
    show (Expression.repeated isColonOrSpace (0 + 1) none).ahead _ _ = _
    rw [ahead_repeated_none nofun]
    cases field <;> rfl
  · rw [label, follows, ahead_repeated_single rfl fun char first => (label_head? tables first).1]
    cases field with
    | claimNumber => exact absurd rfl named
    | policyNumber => exact absurd rfl named
    | claimant =>
      have lettered : next.label.all (fun char => isLetter char ∨ char = ' ') = true := by
        cases next <;> rfl
      have head : ((FormField.claimant.value tables).readings
          (next.label ++ (": ".toList ++ more))).head? =
            some { consumed := next.label.length } := by
        refine head?_readings_repeated_of (List.all_eq_true.mp lettered) ?_ ?_ ?_
        · rintro _ ⟨⟩
          rfl
        · cases next <;> decide
        · rintro _ ⟨⟩
          cases next <;> decide
      have stripped : FloatValue.strip next.label = next.label := by cases next <;> rfl
      show (((FormField.claimant.value tables).readings _).head?.map _) = some next.label
      rw [head, Option.map_some, List.take_left, stripped]
    | dateOfLoss => exact taken_dateOfLoss fun char first => (label_head? tables first).2
    | claimType =>
      rw [taken_claimType faithful]
      cases next <;> rfl

end Ends

/-! ### Values without colons and spaces -/

section Apart

variable {tables : UnicodeTables}

theorem spellings_plain : ∀ field ∈ FormField.all, ∀ spelled ∈ field.spellings,
    spelled.toList.all (fun char => !ignoringCase char (Char.ofNat 10)) = true := by
  decide

/-- Values other than those of claimants have neither colons nor spaces. -/
theorem value_apart (faithful : tables.Faithful) {line : FormLine tables}
    (other : line.field ≠ .claimant) : ∀ char ∈ line.value, isColonOrSpace char = false := by
  obtain ⟨field, value, language, trimmed⟩ := line
  have only : (field.value tables).Only fun char => isColonOrSpace char = false := by
    have letters (char : Char) (letter : isLetter char = true) : isColonOrSpace char = false :=
      isColonOrSpace_of_isLetter faithful.lawful letter
    have decimals (char : Char) (decimal : tables.isDecimal char = true) :
        isColonOrSpace char = false := isColonOrSpace_of_isDecimal faithful.lawful decimal
    have words (char : Char) (word : tables.isWord char = true) : isColonOrSpace char = false :=
      isColonOrSpace_of_isWord faithful word
    have marks (char : Char) (mark : isDateSeparator char = true) :
        isColonOrSpace char = false := by
      rcases of_decide_eq_true mark with rfl | rfl <;> rfl
    cases field with
    | claimNumber =>
      refine ⟨fun char accepted => ?_, fun char accepted => ?_⟩
      · rcases of_decide_eq_true accepted with letter | digit
        · exact letters char letter
        · have range := Char.isDigit_iff_toNat.mp digit
          obtain ⟨space, -, others⟩ := digit_apart range.1 range.2
          simp only [List.mem_cons, List.not_mem_nil, or_false, not_or] at others
          simp [isColonOrSpace, space, others.2.1]
      · rcases of_decide_eq_true accepted with word | rfl
        · exact words char word
        · rfl
    | policyNumber =>
      refine ⟨letters, fun char hyphen => ?_, decimals⟩
      rw [of_decide_eq_true hyphen]
      rfl
    | claimant => exact absurd rfl other
    | dateOfLoss => exact ⟨decimals, marks, decimals, marks, decimals⟩
    | claimType => exact words
  exact only.forall_mem language

/-- In a value without colons and spaces a field is named only where the value ends. -/
theorem firstAt_apart {field : FormField} (named : field.spellings ≠ []) {value : Text}
    (apart : ∀ char ∈ value, isColonOrSpace char = false) (rest : List (FormLine tables)) :
    firstAt (field.pattern tables).read value (following rest) =
      if endsNaming field value then
        (Expression.repeated isColonOrSpace 1 none).ahead (field.pattern tables).taken
          (following rest)
      else none := by
  refine firstAt_ite ?_ fun place within => ?_
  · cases field <;> rfl
  · have first : ∀ char ∈ place, isColonOrSpace char = false := fun char member =>
      apart char (within.mem member)
    rw [read_spelled named]
    have each : ∀ spelled ∈ field.spellings,
        (behindWord spelled.toList (place ++ following rest)).bind
          ((Expression.repeated isColonOrSpace 1 none).ahead (field.pattern tables).taken) =
        if behindWord spelled.toList place = some [] then
          (Expression.repeated isColonOrSpace 1 none).ahead (field.pattern tables).taken
            (following rest)
        else none := by
      intro spelled member
      rw [behindWord_following spelled (spellings_plain field field.mem_all spelled member)]
      cases found : behindWord spelled.toList place with
      | none => rfl
      | some behind =>
        rw [Option.map_some, Option.bind_some]
        cases behind with
        | nil => exact (if_pos rfl).symm
        | cons char behind =>
          obtain ⟨lead, parts, -⟩ := behindWord_eq_some found
          rw [if_neg (by simp), List.cons_append]
          show (Expression.repeated isColonOrSpace (0 + 1) none).ahead _ _ = none
          refine ahead_repeated_none fun other same => ?_
          cases same
          exact first char (by rw [parts]; exact List.mem_append_right _ List.mem_cons_self)
    exact findSome?_ite each

end Apart

/-! ### Values with few letters -/

section Letters

variable {tables : UnicodeTables}

/-- A word of ASCII without digits. -/
def plainWord (spelled : Text) : Bool :=
  spelled.all fun char => char.toNat < 128 ∧ char.isDigit = false

/-- A word with more letters than a text is not spelled out there. -/
theorem behindWord_few (lawful : tables.Lawful) {spelled text : Text}
    (plain : plainWord spelled = true)
    (few : text.countP isLetter < spelled.countP Char.isAlpha) :
    behindWord spelled text = none := by
  refine Option.eq_none_iff_forall_ne_some.mpr fun behind found => ?_
  obtain ⟨lead, rfl, -, matched⟩ := behindWord_eq_some found
  have ascii : ∀ char ∈ spelled, char.toNat < 128 ∧ char.isDigit = false := fun char member => by
    simpa using List.all_eq_true.mp plain char member
  rw [List.countP_append, (of_literal_matches lawful ascii matched).1] at few
  omega

/-- Without three letters in it, a place does not begin a numbered field. -/
theorem behindNumber_few (lawful : tables.Lawful) {name short : String} {next : Text → Option Text}
    (plain : [name, short].all (fun spelled => plainWord spelled.toList &&
      spelled.toList.all fun char => !ignoringCase char (Char.ofNat 10)) = true)
    {place : Text} (few : place.countP isLetter < name.toList.countP Char.isAlpha)
    (fewShort : place.countP isLetter < short.toList.countP Char.isAlpha)
    (rest : List (FormLine tables)) :
    behindNumber name short next (place ++ following rest) = none := by
  rw [List.all_cons, List.all_cons, List.all_nil, Bool.and_true, Bool.and_eq_true, Bool.and_eq_true,
    Bool.and_eq_true] at plain
  obtain ⟨⟨namePlain, nameLine⟩, shortPlain, shortLine⟩ := plain
  rw [behindNumber, behindWord_following name nameLine, behindWord_following short shortLine,
    behindWord_few lawful namePlain few, behindWord_few lawful shortPlain fewShort]
  rfl

theorem spellings_long : ∀ field ∈ [FormField.claimant, .claimType], ∀ spelled ∈ field.spellings,
    plainWord spelled.toList = true ∧ 3 < spelled.toList.countP Char.isAlpha := by
  decide

/-- A value with at most three letters ends with no name of a claimant or a type. -/
theorem endsNaming_few (lawful : tables.Lawful) {field : FormField}
    (named : field ∈ [FormField.claimant, .claimType]) {value : Text}
    (few : value.countP isLetter ≤ 3) : endsNaming field value = false := by
  refine List.any_eq_false.mpr fun place within => ?_
  rw [Bool.not_eq_true]
  refine List.any_eq_false.mpr fun spelled member => ?_
  obtain ⟨plain, long⟩ := spellings_long field named spelled member
  have fewer := ((List.mem_tails _ _).mp within).sublist.countP_le (p := isLetter)
  rw [behindWord_few lawful plain (by omega)]
  exact Bool.false_ne_true

/-- A policy number consists of two or three letters, a hyphen and digits. -/
theorem policy_parts {line : FormLine tables} (is : line.field = .policyNumber) :
    ∃ letters digit digits, line.value = letters ++ '-' :: digit :: digits ∧
      (∀ char ∈ letters, isLetter char = true) ∧ letters ≠ [] ∧ letters.length ≤ 3 ∧
        ∀ char ∈ digit :: digits, tables.isDecimal char = true := by
  obtain ⟨field, value, language, trimmed⟩ := line
  subst is
  obtain ⟨letters, _, rfl, ⟨lettered, some, few⟩, _, digits, rfl, ⟨hyphen, rfl, same⟩, decimals,
    enough, -⟩ := language
  obtain ⟨digit, digits, rfl⟩ :=
    List.exists_cons_of_length_pos (Nat.lt_of_lt_of_le (by decide) enough)
  cases of_decide_eq_true same
  exact ⟨letters, digit, digits, rfl, lettered,
    List.length_pos_iff.mp (Nat.lt_of_lt_of_le (by decide) some), few 3 rfl, decimals⟩

theorem countP_decimals (lawful : tables.Lawful) {digits : Text}
    (decimals : ∀ char ∈ digits, tables.isDecimal char = true) : digits.countP isLetter = 0 := by
  refine List.countP_eq_zero.mpr fun char member => ?_
  rw [(not_of_isDecimal lawful (decimals char member)).2.1]
  exact Bool.false_ne_true

/-- A date has no letters. -/
theorem date_letters (lawful : tables.Lawful) {line : FormLine tables}
    (is : line.field = .dateOfLoss) : line.value.countP isLetter = 0 := by
  obtain ⟨field, value, language, trimmed⟩ := line
  subst is
  have only : (FormField.dateOfLoss.value tables).Only fun char => isLetter char = false := by
    have decimals (char : Char) (decimal : tables.isDecimal char = true) : isLetter char = false :=
      (not_of_isDecimal lawful decimal).2.1
    have marks (char : Char) (mark : isDateSeparator char = true) : isLetter char = false := by
      rcases of_decide_eq_true mark with rfl | rfl <;> rfl
    exact ⟨decimals, marks, decimals, marks, decimals⟩
  refine List.countP_eq_zero.mpr fun char member => ?_
  rw [only.forall_mem language char member]
  exact Bool.false_ne_true

theorem policy_countP (lawful : tables.Lawful) {letters digits : Text}
    (lettered : ∀ char ∈ letters, isLetter char = true)
    (decimals : ∀ char ∈ digits, tables.isDecimal char = true) :
    (letters ++ '-' :: digits).countP isLetter = letters.length := by
  rw [List.countP_append, List.countP_eq_length.mpr lettered, List.countP_cons,
    countP_decimals lawful decimals]
  rfl

/-- Digits behind a hyphen are read as a claim number if the first of them is one of ASCII. -/
theorem claimNumber_digits (faithful : tables.Faithful) {digit : Char} {digits : Text}
    (decimals : ∀ char ∈ digit :: digits, tables.isDecimal char = true)
    (rest : List (FormLine tables)) :
    afterSeparators isSeparator 1 (claimNumberValue tables)
        ('-' :: digit :: digits ++ following rest) =
      if digit.isDigit then some (digit :: digits) else none := by
  obtain ⟨decimal, others⟩ := List.forall_mem_cons.mp decimals
  have apart : ¬isSeparator digit = true := by
    intro separator
    rw [(of_isSeparator faithful.lawful separator).2] at decimal
    cases decimal
  have words : ∀ char ∈ digits, decide (tables.isWord char = true ∨ char = '-') = true :=
    fun char member => decide_eq_true (.inl (isWord_of_isDecimal faithful (others char member)))
  have ended : (following rest).takeWhile
      (fun char => decide (tables.isWord char = true ∨ char = '-')) = [] := by
    rcases following_cases rest with ⟨nothing, -⟩ | ⟨_, _, -, follows⟩
    · rw [nothing]
      rfl
    · rw [follows]
      rfl
  rw [afterSeparators, List.cons_append, List.takeWhile_cons_of_pos rfl,
    List.dropWhile_cons_of_pos rfl, List.cons_append, List.takeWhile_cons_of_neg apart,
    List.dropWhile_cons_of_neg apart, List.length_singleton, if_pos (Nat.le_refl 1),
    claimNumberValue, List.takeWhile_append_of_pos words, ended, List.append_nil,
    (not_of_isDecimal faithful.lawful decimal).2.1]
  simp only [Bool.false_eq_true, false_or]

/-- A policy number is read as a claim number if its letters are CLM. -/
theorem firstAt_policy (faithful : tables.Faithful) {line : FormLine tables}
    (is : line.field = .policyNumber) (rest : List (FormLine tables)) :
    firstAt (claimNumberAt tables) line.value (following rest) =
      (behindWord "CLM-".toList line.value).filter fun digits => digits.head?.any Char.isDigit := by
  obtain ⟨letters, digit, digits, value, lettered, some, few, decimals⟩ := policy_parts is
  have count := policy_countP faithful.lawful lettered decimals
  rw [value]
  obtain ⟨letter, letters, rfl⟩ := List.exists_cons_of_ne_nil some
  have behind : firstAt (claimNumberAt tables) (letters ++ '-' :: digit :: digits)
      (following rest) = none := by
    refine (firstAt_congr fun place within _ => ?_).trans (firstAt_none _ (following rest))
    have fewer := within.sublist.countP_le (p := isLetter)
    rw [policy_countP faithful.lawful (List.forall_mem_cons.mp lettered).2 decimals] at fewer
    rw [List.length_cons] at few
    refine behindNumber_few faithful.lawful rfl ?_ ?_ rest
    · exact Nat.lt_of_le_of_lt (fewer.trans (Nat.le_of_succ_le_succ few)) (by decide)
    · exact Nat.lt_of_le_of_lt (fewer.trans (Nat.le_of_succ_le_succ few)) (by decide)
  have whole :
      behindWord "claim".toList ((letter :: letters) ++ '-' :: digit :: digits) = none := by
    refine behindWord_few faithful.lawful rfl ?_
    rw [count]
    exact Nat.lt_of_le_of_lt few (by decide)
  rw [List.cons_append, firstAt, behind, Option.or_none, ← List.cons_append, claimNumberAt,
    behindNumber, behindWord_following "claim" rfl,
    behindWord_following "CLM" rfl, whole,
    show "CLM-".toList = "CLM".toList ++ ['-'] from rfl, behindWord_parts]
  cases found : behindWord "CLM".toList ((letter :: letters) ++ '-' :: digit :: digits) with
  | none => rfl
  | some behind =>
    obtain ⟨lead, parts, length, matched⟩ := behindWord_eq_some found
    have plain : plainWord "CLM".toList = true := rfl
    have ascii (char) (member : char ∈ "CLM".toList) := of_decide_eq_true
      (List.all_eq_true.mp plain char member)
    have spelled := (of_literal_matches faithful.lawful ascii matched).1
    have three : (letter :: letters).length = lead.length := by
      rw [parts, List.countP_append, spelled] at count
      have clm : "CLM".toList.countP Char.isAlpha = 3 := rfl
      have clmLength : "CLM".toList.length = 3 := rfl
      omega
    obtain ⟨-, rfl⟩ := List.append_inj parts three
    rw [Option.map_some, Option.bind_some, claimNumber_digits faithful decimals]
    rfl

end Letters

/-! ### Values without hyphens -/

section Hyphens

variable {tables : UnicodeTables}

/-- Behind the letters of a place without hyphens stands none. -/
theorem dropWhile_unhyphened {place : Text} (unhyphened : '-' ∉ place)
    (rest : List (FormLine tables)) {char : Char}
    (first : ((place ++ following rest).dropWhile isLetter).head? = some char) : char ≠ '-' := by
  rintro rfl
  rw [List.dropWhile_append] at first
  split at first
  · rcases following_cases rest with ⟨nothing, -⟩ | ⟨_, _, -, follows⟩
    · rw [nothing] at first
      cases first
    · rw [follows] at first
      cases first
  · rename_i some
    obtain ⟨other, others, same⟩ :=
      List.exists_cons_of_ne_nil fun empty => some (List.isEmpty_iff.mpr empty)
    rw [same] at first
    cases first
    exact unhyphened ((List.dropWhile_suffix isLetter).mem (by rw [same]; exact List.mem_cons_self))

theorem policyNumberValue_none {text : Text}
    (unhyphened : ∀ char, (text.dropWhile isLetter).head? = some char → char ≠ '-') :
    policyNumberValue tables text = none := by
  unfold policyNumberValue
  cases behind : text.dropWhile isLetter with
  | nil => rfl
  | cons mark rest =>
    exact if_neg fun formed => unhyphened mark (by rw [behind]; rfl) formed.2.1

/-- Separators behind a place without hyphens lead to no policy number. -/
theorem policyNumber_separated {place : Text} (unhyphened : '-' ∉ place)
    (rest : List (FormLine tables)) :
    afterSeparators isSeparator 0 (policyNumberValue tables) (place ++ following rest) = none := by
  rw [afterSeparators, if_pos (Nat.zero_le _), List.dropWhile_append]
  split
  · rcases following_cases rest with ⟨nothing, -⟩ | ⟨field, more, -, follows⟩
    · rw [nothing]
      rfl
    · rw [follows]
      refine policyNumberValue_none fun char first => ?_
      cases field <;> cases first <;> decide
  · refine policyNumberValue_none fun char first => dropWhile_unhyphened ?_ rest first
    exact fun hyphen => unhyphened ((List.dropWhile_suffix isSeparator).mem hyphen)

theorem behindMark_unhyphened {place : Text} (unhyphened : '-' ∉ place)
    (rest : List (FormLine tables)) :
    behindMark (afterSeparators isSeparator 0 (policyNumberValue tables))
      (place ++ following rest) = none := by
  have further (spelled : String)
      (plain : spelled.toList.all (fun char => !ignoringCase char (Char.ofNat 10)) = true)
      {next : Text → Option Text}
      (none : ∀ other, '-' ∉ other → next (other ++ following rest) = none) {place : Text}
      (unhyphened : '-' ∉ place) :
      (behindWord spelled.toList (place ++ following rest)).bind next = .none := by
    rw [behindWord_following spelled plain]
    cases found : behindWord spelled.toList place with
    | none => rfl
    | some behind =>
      obtain ⟨lead, rfl, -⟩ := behindWord_eq_some found
      exact none behind fun hyphen => unhyphened (List.mem_append_right lead hyphen)
  have separated (other : Text) (unhyphened : '-' ∉ other) := policyNumber_separated unhyphened rest
  rw [behindMark, further "number" rfl separated unhyphened,
    further "#" rfl separated unhyphened,
    further "no" rfl (fun other unhyphened => ?_) unhyphened]
  · rfl
  · rw [further "." rfl separated unhyphened, separated other unhyphened]
    rfl

/-- A place without hyphens does not begin a policy number. -/
theorem policyNumberAt_unhyphened {place : Text} (unhyphened : '-' ∉ place)
    (rest : List (FormLine tables)) : policyNumberAt tables (place ++ following rest) = none := by
  have shortened {spelled behind : Text} (found : behindWord spelled place = some behind) :
      '-' ∉ behind := by
    obtain ⟨lead, parts, -⟩ := behindWord_eq_some found
    exact fun hyphen => unhyphened (parts ▸ List.mem_append_right lead hyphen)
  rw [policyNumberAt, behindNumber, behindWord_following "policy" rfl,
    behindWord_following "POL" rfl]
  have short : ((behindWord "POL".toList place).map (· ++ following rest)).bind
      (afterSeparators isSeparator 0 (policyNumberValue tables)) = none := by
    cases found : behindWord "POL".toList place with
    | none => rfl
    | some behind => exact policyNumber_separated (shortened found) rest
  rw [short, Option.or_none]
  cases found : behindWord "policy".toList place with
  | none => rfl
  | some behind =>
    rw [Option.map_some, Option.bind_some, policyNumber_separated (shortened found) rest,
      Option.or_none, List.dropWhile_append]
    split
    · rcases following_cases rest with ⟨nothing, -⟩ | ⟨field, more, -, follows⟩
      · rw [nothing]
        rfl
      · rw [follows]
        cases field <;> rfl
    · refine behindMark_unhyphened (fun hyphen => shortened found ?_) rest
      exact (List.dropWhile_suffix FloatValue.isSpace).mem hyphen

/-- Claimants and claim types have no hyphens. -/
theorem value_unhyphened {line : FormLine tables}
    (is : line.field ∈ [FormField.claimant, .claimType]) : '-' ∉ line.value := by
  obtain ⟨field, value, language, trimmed⟩ := line
  intro hyphen
  have only : (field.value tables).Only fun char => char ≠ '-' := by
    rcases List.mem_pair.mp is with rfl | rfl
    · rintro _ accepted rfl
      cases accepted
    · rintro _ accepted rfl
      cases accepted
  exact only.forall_mem language '-' hyphen rfl

end Hyphens

/-! ### What a line offers -/

section Offered

variable {tables : UnicodeTables}

/-- In the name of a claimant no date is read. -/
theorem firstAt_claimant_date (faithful : tables.Faithful) {line : FormLine tables}
    (is : line.field = .claimant) (rest : List (FormLine tables)) :
    firstAt (FormField.dateOfLoss.pattern tables).read line.value (following rest) = none := by
  obtain ⟨field, value, language, trimmed⟩ := line
  subst is
  have apart : ∀ char ∈ value, tables.isDecimal char = false := by
    have only : (FormField.claimant.value tables).Only
        fun char => tables.isDecimal char = false := by
      intro char accepted
      refine Bool.eq_false_iff.mpr fun decimal => ?_
      obtain ⟨space, letter, -⟩ := not_of_isDecimal faithful.lawful decimal
      rcases of_decide_eq_true accepted with other | rfl
      · rw [letter] at other
        cases other
      · cases space
    exact only.forall_mem language
  have refused (char : Char) (rest : Text) (separator : isColonOrSpace char = true) :
      (FormField.dateOfLoss.pattern tables).taken (char :: rest) = none := by
    refine taken_dateOfLoss fun other same => Bool.eq_false_iff.mpr fun decimal => ?_
    cases same
    rw [isColonOrSpace_of_isDecimal faithful.lawful decimal] at separator
    cases separator
  refine (firstAt_congr fun place within _ => ?_).trans (firstAt_none _ (following rest))
  rw [read_spelled (by exact List.cons_ne_nil _ _), ahead_separators refused]
  refine List.findSome?_eq_none_iff.mpr fun spelled member => ?_
  rw [behindWord_following spelled
    (spellings_plain .dateOfLoss (FormField.mem_all _) spelled member)]
  cases found : behindWord spelled.toList place with
  | none => rfl
  | some behind =>
    obtain ⟨lead, rfl, -⟩ := behindWord_eq_some found
    rw [Option.map_some, Option.bind_some, afterSeparators]
    refine ite_eq_right_iff.mpr fun _ => taken_dateOfLoss fun char first => ?_
    rw [List.dropWhile_append] at first
    split at first
    · rcases following_cases rest with ⟨nothing, -⟩ | ⟨next, more, -, follows⟩
      · rw [nothing] at first
        cases first
      · rw [follows] at first
        cases next <;> cases first <;> rfl
    · rename_i some
      obtain ⟨other, others, same⟩ :=
        List.exists_cons_of_ne_nil fun empty => some (List.isEmpty_iff.mpr empty)
      rw [same] at first
      cases first
      refine apart char (within.mem (List.mem_append_right lead ?_))
      exact (List.dropWhile_suffix isColonOrSpace).mem (by rw [same]; exact List.mem_cons_self)

/-- What a value without colons and spaces offers to a field without a number. -/
theorem firstAt_named (faithful : tables.Faithful) {field : FormField} {line : FormLine tables}
    (named : field.spellings ≠ []) (other : line.field ≠ .claimant)
    (rest : List (FormLine tables)) :
    firstAt (field.pattern tables).read line.value (following rest) =
      if endsNaming field line.value then (nextLabel rest).bind (labelTaken field) else none := by
  rw [firstAt_apart named (value_apart faithful other), ahead_following faithful named]

/-- A value without colons and spaces offers no date. -/
theorem firstAt_undated (faithful : tables.Faithful) {line : FormLine tables}
    (other : line.field ≠ .claimant) (rest : List (FormLine tables)) :
    firstAt (FormField.dateOfLoss.pattern tables).read line.value (following rest) = none := by
  have untaken : (nextLabel rest).bind (labelTaken .dateOfLoss) = none := by
    cases nextLabel rest <;> rfl
  rw [firstAt_named faithful (by decide) other, untaken, ite_self]

/-- A value with few letters offers nothing to a field without a number. -/
theorem firstAt_few (faithful : tables.Faithful) {field : FormField} {line : FormLine tables}
    (named : field.spellings ≠ []) (other : line.field ≠ .claimant)
    (few : line.value.countP isLetter ≤ 3) (rest : List (FormLine tables)) :
    firstAt (field.pattern tables).read line.value (following rest) = none := by
  rw [firstAt_named faithful named other]
  cases field with
  | claimNumber => exact absurd rfl named
  | policyNumber => exact absurd rfl named
  | claimant => exact if_neg (by rw [endsNaming_few faithful.lawful (by decide) few]; decide)
  | dateOfLoss => rw [← firstAt_named faithful named other, firstAt_undated faithful other]
  | claimType => exact if_neg (by rw [endsNaming_few faithful.lawful (by decide) few]; decide)

/-- A value of another field offers what is said of its line. -/
theorem firstAt_value (faithful : tables.Faithful) {field : FormField} {line : FormLine tables}
    (different : line.field ≠ field) (untyped : (field, line.field) ≠ (.claimNumber, .claimType))
    (rest : List (FormLine tables)) :
    firstAt (field.pattern tables).read line.value (following rest) = offered field line rest := by
  unfold offered
  cases kind : line.field with
  | claimNumber =>
    have other : line.field ≠ .claimant := by rw [kind]; decide
    cases field with
    | claimNumber => exact absurd kind different
    | policyNumber => rw [funext (read_policyNumber faithful.lawful)]
    | claimant => exact firstAt_named faithful (by decide) other rest
    | dateOfLoss => exact firstAt_undated faithful other rest
    | claimType => exact firstAt_named faithful (by decide) other rest
  | policyNumber =>
    have other : line.field ≠ .claimant := by rw [kind]; decide
    have few : line.value.countP isLetter ≤ 3 := by
      obtain ⟨letters, digit, digits, value, lettered, -, few, decimals⟩ := policy_parts kind
      rwa [value, policy_countP faithful.lawful lettered decimals]
    cases field with
    | claimNumber =>
      rw [funext (read_claimNumber faithful)]
      exact firstAt_policy faithful kind rest
    | policyNumber => exact absurd kind different
    | claimant => exact firstAt_few faithful (by decide) other few rest
    | dateOfLoss => exact firstAt_few faithful (by decide) other few rest
    | claimType => exact firstAt_few faithful (by decide) other few rest
  | claimant =>
    cases field with
    | claimNumber => rw [funext (read_claimNumber faithful)]
    | policyNumber =>
      have unhyphened : '-' ∉ line.value := value_unhyphened (by rw [kind]; decide)
      rw [funext (read_policyNumber faithful.lawful)]
      refine (firstAt_congr fun place within _ => ?_).trans (firstAt_none _ (following rest))
      exact policyNumberAt_unhyphened (fun hyphen => unhyphened (within.mem hyphen)) rest
    | claimant => exact absurd kind different
    | dateOfLoss => exact firstAt_claimant_date faithful kind rest
    | claimType => rw [funext (read_claimType faithful)]
  | dateOfLoss =>
    have other : line.field ≠ .claimant := by rw [kind]; decide
    have few := date_letters faithful.lawful kind
    have numbered {name short : String} {next : Text → Option Text}
        (plain : [name, short].all (fun spelled => plainWord spelled.toList &&
          spelled.toList.all fun char => !ignoringCase char (Char.ofNat 10)) = true)
        (long : 0 < name.toList.countP Char.isAlpha)
        (short' : 0 < short.toList.countP Char.isAlpha) :
        firstAt (behindNumber name short next) line.value (following rest) = none := by
      refine (firstAt_congr fun place within _ => ?_).trans (firstAt_none _ (following rest))
      have none := Nat.le_zero.mp (few ▸ within.sublist.countP_le (p := isLetter))
      exact behindNumber_few faithful.lawful plain (none ▸ long) (none ▸ short') rest
    cases field with
    | claimNumber =>
      rw [funext (read_claimNumber faithful)]
      exact numbered rfl (by decide) (by decide)
    | policyNumber =>
      rw [funext (read_policyNumber faithful.lawful)]
      exact numbered rfl (by decide) (by decide)
    | claimant => exact firstAt_few faithful (by decide) other (few ▸ Nat.zero_le 3) rest
    | dateOfLoss => exact absurd kind different
    | claimType => exact firstAt_few faithful (by decide) other (few ▸ Nat.zero_le 3) rest
  | claimType =>
    have other : line.field ≠ .claimant := by rw [kind]; decide
    cases field with
    | claimNumber => exact absurd (by rw [kind]) untyped
    | policyNumber =>
      have unhyphened : '-' ∉ line.value := value_unhyphened (by rw [kind]; decide)
      rw [funext (read_policyNumber faithful.lawful)]
      refine (firstAt_congr fun place within _ => ?_).trans (firstAt_none _ (following rest))
      exact policyNumberAt_unhyphened (fun hyphen => unhyphened (within.mem hyphen)) rest
    | claimant => exact firstAt_named faithful (by decide) other rest
    | dateOfLoss => exact firstAt_undated faithful other rest
    | claimType => exact absurd kind different

/-- A line of another field offers what is said of it. -/
theorem firstAt_line (faithful : tables.Faithful) {field : FormField} {line : FormLine tables}
    (different : line.field ≠ field) (rest : List (FormLine tables)) :
    firstAt (field.pattern tables).read (line.field.label ++ (": ".toList ++ line.value))
      (following rest) = offered field line rest := by
  rw [← List.append_assoc, firstAt_append]
  by_cases typed : (field, line.field) = (.claimNumber, .claimType)
  · obtain ⟨rfl, kind⟩ := Prod.mk.injEq _ _ _ _ ▸ typed
    unfold offered
    rw [kind, funext (read_claimNumber faithful)]
    rfl
  · rw [firstAt_label different.symm typed, Option.none_or, firstAt_value faithful different typed]

/-- A form captures for a field what is offered first, or else the value of its own line. -/
theorem capture_lines (faithful : tables.Faithful) (field : FormField)
    (lines : List (FormLine tables)) : (field.pattern tables).capture (linesText lines) =
      (strayValue field lines).or (ownValue lines field) := by
  induction lines with
  | nil => exact capture_nil field
  | cons line rest inductionHypothesis =>
    rw [linesText_cons]
    by_cases same : line.field = field
    · subst same
      have own : ownValue (line :: rest) line.field = some line.value := by
        unfold ownValue
        rw [List.find?_cons_of_pos, Option.map_some]
        exact decide_eq_true rfl
      rw [Pattern.capture_of_read (read_own faithful line rest), strayValue, if_pos rfl, own]
      rfl
    · have later : ownValue (line :: rest) field = ownValue rest field := by
        rw [ownValue, List.find?_cons_of_neg (by rwa [decide_eq_true_eq]), ownValue]
      rw [← List.append_assoc (": ".toList), ← List.append_assoc, Pattern.capture_append,
        firstAt_line faithful same, capture_following, inductionHypothesis, strayValue, if_neg same,
        Option.or_assoc, later]

end Offered

/-! ### Inversion -/

section Inversion

/-- Extraction inverts a form: it finds the value of every line under its field, nothing else, and
without a claim number line the document fails for that reason. -/
structure Inverted (tables : UnicodeTables) (content : List UInt8) (form : LabelledForm tables) :
    Prop where
  values : ∀ field : FormField,
    ((StubExtractor.extract tables content).field? field.name).map (fun found => found.value) =
      (ownValue form.lines field).map String.ofList
  only : ∀ entry ∈ (StubExtractor.extract tables content).fields,
    ∃ line ∈ form.lines, line.field.name = entry.1
  refused : ownValue form.lines .claimNumber = none →
    RuleBasedValidator.validate tables (StubExtractor.extract tables content) =
      RuleBasedValidator.missing "claim_number" "claim_number_missing"
        "Claim number is required but was not found in the document."

variable {tables : UnicodeTables}

theorem extracted_value (faithful : tables.Faithful) (form : LabelledForm tables)
    {content : List UInt8} (text : decodeReplace content = linesText form.lines)
    (field : FormField) :
    ((StubExtractor.extract tables content).field? field.name).map (fun found => found.value) =
      ((strayValue field form.lines).or (ownValue form.lines field)).map String.ofList := by
  have listed : (field.name, field.pattern tables) ∈ patterns tables := by
    rw [FormField.patterns_eq]
    exact List.mem_map_of_mem field.mem_all
  rw [field?_extract tables listed, text, Pattern.field_value, capture_lines faithful]

/-- Extraction inverts a form exactly when what the lines before its own offer to a field first, if
they offer anything, is the very value of its own line. A field takes the first match in the text,
and the lines are searched one after the other. -/
theorem inverted_iff (faithful : tables.Faithful) (form : LabelledForm tables)
    (content : List UInt8) (text : decodeReplace content = linesText form.lines) :
    Inverted tables content form ↔ ∀ field,
      strayValue field form.lines = none ∨
        strayValue field form.lines = ownValue form.lines field := by
  have value := extracted_value faithful form text
  constructor
  · intro inverted field
    have same := (value field).symm.trans (inverted.values field)
    cases stray : strayValue field form.lines with
    | none => exact .inl rfl
    | some other =>
      rw [stray, Option.some_or, Option.map_some] at same
      obtain ⟨own, found, equal⟩ := Option.map_eq_some_iff.mp same.symm
      rw [found, String.ofList_inj.mp equal]
      exact .inr rfl
  · intro unstrayed
    have values (field : FormField) :
        ((StubExtractor.extract tables content).field? field.name).map (fun found => found.value) =
          (ownValue form.lines field).map String.ofList := by
      rw [value field]
      rcases unstrayed field with stray | stray
      · rw [stray, Option.none_or]
      · rw [stray, Option.or_self]
    refine ⟨values, fun entry member => ?_, fun unclaimed => ?_⟩
    · obtain ⟨pattern, listed, found⟩ := (mem_extract tables).mp member
      have given := field?_extract tables listed content
      rw [found] at given
      rw [FormField.patterns_eq] at listed
      obtain ⟨field, -, same⟩ := List.mem_map.mp listed
      obtain ⟨name, -⟩ := Prod.mk.injEq _ _ _ _ ▸ same
      have own := values field
      rw [name, given] at own
      obtain ⟨value, owned, -⟩ := Option.map_eq_some_iff.mp own.symm
      obtain ⟨line, first, -⟩ := Option.map_eq_some_iff.mp owned
      refine ⟨line, List.mem_of_find?_eq_some first, ?_⟩
      have kind := List.find?_some first
      rw [of_decide_eq_true kind, name]
    · have absent := values .claimNumber
      rw [unclaimed] at absent
      exact validate_of_claim_missing tables (Option.map_eq_none_iff.mp absent)

end Inversion

theorem asciiTables_faithful : asciiTables.Faithful :=
  ⟨asciiTables_lawful, fun _ _ other => (nomatch other), fun _ _ decimal => nomatch decimal⟩

/-- A form with one line, for the claim type. -/
def typeForm : LabelledForm asciiTables where
  lines := [⟨.claimType, "auto".toList,
    ⟨List.all_eq_true.mp rfl, by decide, nofun⟩, rfl⟩]
  distinct := by decide

/-- Its label is read as a claim number. -/
theorem type_read_as_number :
    decodeReplace (utf8 "Claim Type: auto".toList) = linesText typeForm.lines ∧
      ¬Inverted asciiTables (utf8 "Claim Type: auto".toList) typeForm := by
  refine ⟨by decide +kernel, fun inverted => ?_⟩
  have found : ((StubExtractor.extract asciiTables (utf8 "Claim Type: auto".toList)).field?
      "claim_number").map (fun found => found.value) = some "Type" := by
    decide +kernel
  have same := found.symm.trans (inverted.values .claimNumber)
  cases same

/-- A form with a line for each field. -/
def sampleForm : LabelledForm asciiTables where
  lines := [
    ⟨.policyNumber, "AB-12345678".toList,
      ⟨"AB".toList, _, rfl, ⟨List.all_eq_true.mp rfl, by decide, by decide⟩,
        ['-'], "12345678".toList, rfl, ⟨'-', rfl, rfl⟩, List.all_eq_true.mp rfl, by decide,
        by decide⟩, rfl⟩,
    ⟨.claimant, "Jane Doe".toList, ⟨List.all_eq_true.mp rfl, by decide, by decide⟩, rfl⟩,
    ⟨.claimNumber, "CLM-2025-001234".toList,
      ⟨['C'], "LM-2025-001234".toList, rfl, ⟨'C', rfl, rfl⟩, List.all_eq_true.mp rfl, by decide,
        nofun⟩, rfl⟩,
    ⟨.dateOfLoss, "01/15/2025".toList,
      ⟨"01".toList, _, rfl, ⟨List.all_eq_true.mp rfl, by decide, by decide⟩,
        ['/'], _, rfl, ⟨'/', rfl, rfl⟩, "15".toList, _, rfl,
        ⟨List.all_eq_true.mp rfl, by decide, by decide⟩, ['/'], "2025".toList, rfl, ⟨'/', rfl, rfl⟩,
        List.all_eq_true.mp rfl, by decide, by decide⟩, rfl⟩,
    ⟨.claimType, "auto".toList, ⟨List.all_eq_true.mp rfl, by decide, nofun⟩, rfl⟩]
  distinct := by decide

def sampleDocument : List UInt8 := utf8 (linesText sampleForm.lines)

theorem sample_inverted : Inverted asciiTables sampleDocument sampleForm := by
  refine (inverted_iff asciiTables_faithful sampleForm sampleDocument (by decide +kernel)).mpr
    fun field => .inl ?_
  cases field <;> decide +kernel

end InsuranceOps
