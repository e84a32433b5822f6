/-
This file reads the five patterns of the extractor at one place of a text. A name
is spelled out, case ignored, the separators behind it are taken as far as they
go, and the value stands there, so that what the matcher prefers among its
readings is one value, found by going through the text once.
-/

import InsuranceOps.Captures

namespace InsuranceOps

open Backtracking

/-! ### Fields -/

/-- The five fields of a form. -/
inductive FormField where
  | claimNumber
  | policyNumber
  | claimant
  | dateOfLoss
  | claimType
  deriving DecidableEq

namespace FormField

/-- The name the value is extracted under. -/
def name : FormField → String
  | .claimNumber => "claim_number"
  | .policyNumber => "policy_number"
  | .claimant => "claimant_name"
  | .dateOfLoss => "date_of_loss"
  | .claimType => "claim_type"

/-- The label of the field's line. -/
def label : FormField → Text
  | .claimNumber => "Claim Number".toList
  | .policyNumber => "Policy Number".toList
  | .claimant => "Claimant".toList
  | .dateOfLoss => "Date of Loss".toList
  | .claimType => "Claim Type".toList

/-- What names the field in its pattern. -/
def naming : FormField → Expression Char
  | .claimNumber => numbered "claim" "CLM"
  | .policyNumber => numbered "policy" "POL"
  | .claimant => .alt (word "claimant") (word "insured")
  | .dateOfLoss => .alt (word "date of loss") (.alt (word "DOL") (word "loss date"))
  | .claimType => .alt (word "type") (word "claim type")

/-- What may stand between the name and the value. -/
def separates : FormField → Char → Bool
  | .claimNumber | .policyNumber => isSeparator
  | .claimant | .dateOfLoss | .claimType => isColonOrSpace

/-- How many separators must stand there. -/
def leastSeparators : FormField → Nat
  | .policyNumber => 0
  | .claimNumber | .claimant | .dateOfLoss | .claimType => 1

/-- What leads up to the value in the field's pattern. -/
def lead (field : FormField) : Expression Char :=
  .seq field.naming (.repeated field.separates field.leastSeparators none)

variable (tables : UnicodeTables)

/-- The capture group of the field's pattern. -/
def value : FormField → Expression Char
  | .claimNumber => .seq (.one fun char => isLetter char ∨ char.isDigit)
      (.repeated (fun char => tables.isWord char ∨ char = '-') 0 none)
  | .policyNumber => policyValue tables
  | .claimant => .repeated (fun char => isLetter char ∨ char = ' ') 2 (some 50)
  | .dateOfLoss => .seq (.repeated tables.isDecimal 1 (some 2)) (.seq (.one isDateSeparator)
      (.seq (.repeated tables.isDecimal 1 (some 2)) (.seq (.one isDateSeparator)
        (.repeated tables.isDecimal 2 (some 4)))))
  | .claimType => .repeated tables.isWord 1 none

/-- The field's pattern. -/
def pattern (field : FormField) : Pattern where
  lead := field.lead
  value := field.value tables

def all : List FormField := [.claimNumber, .policyNumber, .claimant, .dateOfLoss, .claimType]

theorem mem_all (field : FormField) : field ∈ all := by cases field <;> decide

theorem patterns_eq :
    patterns tables = all.map fun field => (field.name, field.pattern tables) := rfl

end FormField

/-! ### Characters -/

/-- What Python's tables say of characters: decimal digits and the other characters of `\w` are no
whitespace, decimal digits are no letters of `[A-Z]`, and they are characters of `\w`. -/
structure UnicodeTables.Faithful (tables : UnicodeTables) : Prop where
  lawful : tables.Lawful
  visible : ∀ char, 128 ≤ char.toNat → tables.isAlnum char = true → FloatValue.isSpace char = false
  digits : ∀ char, 128 ≤ char.toNat → (tables.decimalValue char).isSome → tables.isAlnum char = true

section Characters

variable {tables : UnicodeTables}

theorem isColonOrSpace_of_isDecimal (lawful : tables.Lawful) {char : Char}
    (decimal : tables.isDecimal char = true) : isColonOrSpace char = false := by
  obtain ⟨space, -, marks⟩ := not_of_isDecimal lawful decimal
  simp only [List.mem_cons, List.not_mem_nil, or_false, not_or] at marks
  simp [isColonOrSpace, space, marks.2.1]

theorem isColonOrSpace_of_isLetter (lawful : tables.Lawful) {char : Char}
    (letter : isLetter char = true) : isColonOrSpace char = false := by
  refine Bool.eq_false_iff.mpr fun colon => ?_
  have separator : isSeparator char = true := by
    rw [isColonOrSpace, decide_eq_true_eq] at colon
    rw [isSeparator, decide_eq_true_eq]
    exact colon.imp_left fun same => by rw [same]; decide
  rw [(of_isSeparator lawful separator).1] at letter
  cases letter

/-- Word characters are no whitespace. -/
theorem isColonOrSpace_of_isWord (faithful : tables.Faithful) {char : Char}
    (word : tables.isWord char = true) : isColonOrSpace char = false := by
  refine Bool.eq_false_iff.mpr fun colon => ?_
  rw [isColonOrSpace, decide_eq_true_eq] at colon
  rw [UnicodeTables.isWord, decide_eq_true_eq] at word
  rcases colon with rfl | space
  · revert word
    simp
  · rcases word with rfl | word
    · revert space
      decide
    · by_cases ascii : char.toNat < 128
      · rw [if_pos ascii] at word
        simp [FloatValue.isSpace] at space
        simp [Char.isAlphanum, isAlpha_eq, isUpper_eq, isLower_eq, Char.isDigit,
          UInt32.le_iff_toNat_le] at word
        omega
      · rw [if_neg ascii] at word
        rw [faithful.visible char (Nat.le_of_not_lt ascii) word] at space
        cases space

theorem isWord_of_isDecimal (faithful : tables.Faithful) {char : Char}
    (decimal : tables.isDecimal char = true) : tables.isWord char = true := by
  unfold UnicodeTables.isWord
  by_cases ascii : char.toNat < 128
  · have digit := isDigit_of_isDecimal ascii decimal
    rw [if_pos ascii]
    simp [Char.isAlphanum, digit]
  · have foreign : (tables.decimalValue char).isSome := by
      unfold UnicodeTables.isDecimal UnicodeTables.digit at decimal
      rwa [if_neg ascii] at decimal
    rw [if_neg ascii, faithful.digits char (Nat.le_of_not_lt ascii) foreign]
    simp

/-- Whitespace matches nothing else when case is ignored. -/
theorem ignoringCase_of_isSpace {pattern char : Char} (visible : FloatValue.isSpace pattern = false)
    (space : FloatValue.isSpace char = true) : ignoringCase pattern char = false := by
  refine Bool.eq_false_iff.mpr fun same => ?_
  unfold ignoringCase at same
  simp [FloatValue.isSpace] at space visible
  rw [decide_eq_true_eq] at same
  by_cases lower : char.toLower = pattern.toLower
  · have value := congrArg Char.toNat lower
    rw [toNat_toLower, toNat_toLower] at value
    split at value <;> split at value <;> omega
  · rcases same with same | ⟨-, special⟩ | ⟨-, special⟩ | ⟨-, special⟩
    · exact lower same
    · simp at special
      omega
    · omega
    · omega

end Characters

/-! ### Spelled words -/

/-- What stands behind a word at the start of a text, when case is ignored. -/
def behindWord : Text → Text → Option Text
  | [], text => some text
  | _ :: _, [] => none
  | char :: spelled, other :: text =>
    if ignoringCase char other then behindWord spelled text else none

theorem ahead_literal {Result : Type} {next : Text → Option Result} (spelled text : Text) :
    (literal spelled).ahead next text = (behindWord spelled text).bind next := by
  induction spelled generalizing text with
  | nil =>
    rw [literal, ahead_repeated fun _ _ accepted => Bool.noConfusion accepted]
    have none : text.takeWhile (fun _ => false) = [] := by cases text <;> rfl
    have all : text.dropWhile (fun _ => false) = text := by cases text <;> rfl
    rw [none, all]
    rfl
  | cons char spelled inductionHypothesis =>
    rw [literal, ahead_seq]
    cases text with
    | nil => rfl
    | cons other text =>
      rw [ahead_one_cons, behindWord]
      split
      · exact inductionHypothesis text
      · rfl

theorem ahead_word {Result : Type} {next : Text → Option Result} (spelled : String) (text : Text) :
    (word spelled).ahead next text = (behindWord spelled.toList text).bind next :=
  ahead_literal spelled.toList text

/-- A word that is spelled out is a word of the literal. -/
theorem behindWord_eq_some {spelled text rest : Text}
    (found : behindWord spelled text = some rest) :
    ∃ lead, text = lead ++ rest ∧ lead.length = spelled.length ∧
      (literal spelled).Matches lead := by
  induction spelled generalizing text with
  | nil =>
    cases found
    exact ⟨[], rfl, rfl, fun _ member => (nomatch member), Nat.le_refl _, nofun⟩
  | cons char spelled inductionHypothesis =>
    cases text with
    | nil => cases found
    | cons other text =>
      rw [behindWord] at found
      split at found
      · rename_i same
        obtain ⟨lead, rfl, length, matched⟩ := inductionHypothesis found
        exact ⟨other :: lead, rfl, congrArg Nat.succ length, [other], lead, rfl, ⟨other, rfl, same⟩,
          matched⟩
      · cases found

/-- A word that is spelled out in two parts. -/
theorem behindWord_parts (first second text : Text) :
    behindWord (first ++ second) text = (behindWord first text).bind (behindWord second) := by
  induction first generalizing text with
  | nil => rfl
  | cons char first inductionHypothesis =>
    cases text with
    | nil => rfl
    | cons other text =>
      rw [List.cons_append, behindWord, behindWord]
      split
      · exact inductionHypothesis text
      · rfl

/-- A word does not go on where a line ends. -/
theorem behindWord_append {spelled text rest : Text}
    (within : ∀ char ∈ spelled, ∀ other, rest.head? = some other →
      ignoringCase char other = false) :
    behindWord spelled (text ++ rest) = (behindWord spelled text).map (· ++ rest) := by
  induction spelled generalizing text with
  | nil => rfl
  | cons char spelled inductionHypothesis =>
    obtain ⟨here, others⟩ := List.forall_mem_cons.mp within
    cases text with
    | nil =>
      cases rest with
      | nil => rfl
      | cons other rest =>
        have apart : ¬ignoringCase char other = true := by
          rw [here other rfl]
          exact Bool.false_ne_true
        rw [List.nil_append, behindWord, behindWord, if_neg apart]
        rfl
    | cons other text =>
      rw [List.cons_append, behindWord, behindWord]
      split
      · exact inductionHypothesis others
      · rfl

/-! ### Labels and separators -/

section Leads

variable {next : Text → Option Text}

/-- What is read behind separators, of which there must be so many. -/
def afterSeparators (separates : Char → Bool) (least : Nat) (next : Text → Option Text)
    (text : Text) : Option Text :=
  if least ≤ (text.takeWhile separates).length then next (text.dropWhile separates) else none

theorem ahead_separators {separates : Char → Bool} {least : Nat}
    (refused : ∀ char rest, separates char = true → next (char :: rest) = none) :
    (Expression.repeated separates least none).ahead next =
      afterSeparators separates least next := by
  funext text
  rw [ahead_repeated refused, afterSeparators]
  simp only [Option.all_none, and_true]

/-- What is read behind a mark for a number. -/
def behindMark (next : Text → Option Text) (text : Text) : Option Text :=
  ((behindWord "number".toList text).bind next).or (((behindWord "#".toList text).bind next).or
    ((behindWord "no".toList text).bind fun rest =>
      ((behindWord ".".toList rest).bind next).or (next rest)))

/-- What is read behind a name, which may have a mark for a number, or behind a short name. -/
def behindNumber (name short : String) (next : Text → Option Text) (text : Text) : Option Text :=
  ((behindWord name.toList text).bind fun rest =>
    (behindMark next (rest.dropWhile FloatValue.isSpace)).or (next rest)).or
      ((behindWord short.toList text).bind next)

theorem ahead_numberMark (text : Text) :
    numberMark.ahead next text = (behindMark next text).or (next text) := by
  rw [numberMark, ahead_optional, ahead_alt, ahead_alt, ahead_seq, ahead_word, ahead_word,
    ahead_word]
  congr 2
  congr 1
  congr 1
  funext rest
  rw [ahead_optional, ahead_word]

theorem ahead_numbered (name short : String) (text : Text)
    (absorbed : ∀ char rest result, FloatValue.isSpace char = true → next rest = some result →
      next (char :: rest) = some result) :
    (numbered name short).ahead next text = behindNumber name short next text := by
  have unmarked (char : Char) (rest : Text) (space : FloatValue.isSpace char = true) :
      behindMark next (char :: rest) = none := by
    have starts (first : Char) (visible : FloatValue.isSpace first = false) (others : Text) :
        behindWord (first :: others) (char :: rest) = none := by
      rw [behindWord, ignoringCase_of_isSpace visible space, if_neg Bool.false_ne_true]
    unfold behindMark
    rw [show "number".toList = 'n' :: "umber".toList from rfl, starts 'n' rfl,
      show "#".toList = '#' :: [] from rfl, starts '#' rfl,
      show "no".toList = 'n' :: "o".toList from rfl, starts 'n' rfl]
    rfl
  have marked : numberMark.ahead next = fun text => (behindMark next text).or (next text) :=
    funext ahead_numberMark
  rw [numbered, ahead_alt, ahead_seq, ahead_word, ahead_word, behindNumber]
  congr 2
  funext rest
  rw [ahead_seq, marked, ahead_repeated_or unmarked absorbed]

/-- Whitespace before separators is one of them. -/
theorem afterSeparators_isSpace {least : Nat} {char : Char} {rest result : Text}
    (space : FloatValue.isSpace char = true)
    (found : afterSeparators isSeparator least next rest = some result) :
    afterSeparators isSeparator least next (char :: rest) = some result := by
  have separator : isSeparator char = true := decide_eq_true (.inr space)
  unfold afterSeparators at found ⊢
  rw [List.takeWhile_cons_of_pos separator, List.dropWhile_cons_of_pos separator, List.length_cons]
  split at found
  · rename_i enough
    rw [if_pos (Nat.le_succ_of_le enough), found]
  · cases found

end Leads

/-! ### Values -/

section Values

variable (tables : UnicodeTables)

/-- The claim number at the start of a text. -/
def claimNumberValue : Text → Option Text
  | [] => none
  | char :: rest =>
    if isLetter char ∨ char.isDigit then
      some (char :: rest.takeWhile fun other => tables.isWord other ∨ other = '-')
    else none

/-- The policy number at the start of a text. -/
def policyNumberValue (text : Text) : Option Text :=
  let letters := text.takeWhile isLetter
  match text.dropWhile isLetter with
  | [] => none
  | mark :: rest =>
    let digits := rest.takeWhile tables.isDecimal
    if (2 ≤ letters.length ∧ letters.length ≤ 3) ∧ mark = '-' ∧ 6 ≤ digits.length then
      some (letters ++ '-' :: digits.take 10)
    else none

/-- The claim type at the start of a text. -/
def claimTypeValue (text : Text) : Option Text :=
  if text.takeWhile tables.isWord = [] then none else some (text.takeWhile tables.isWord)

variable {tables}

theorem isSpace_of_not_colon {char : Char} (apart : isColonOrSpace char = false) :
    FloatValue.isSpace char = false := by
  unfold isColonOrSpace at apart
  simp at apart
  exact apart.2

theorem take_remaining {text part rest : Text} (parts : part ++ rest = text) :
    text.take (text.length - rest.length) = part := by
  rw [← parts, List.length_append, Nat.add_sub_cancel, List.take_left]

theorem taken_claimNumber (faithful : tables.Faithful) (text : Text) :
    (FormField.claimNumber.pattern tables).taken text = claimNumberValue tables text := by
  rw [Pattern.taken_eq_ahead]
  show (Expression.seq _ _).ahead _ text = _
  rw [ahead_seq]
  cases text with
  | nil => rfl
  | cons char rest =>
    rw [ahead_one_cons, ahead_repeated_total fun _ => Option.some_ne_none _, claimNumberValue]
    dsimp only [Option.elim_none]
    rw [if_pos (Nat.zero_le _)]
    by_cases accepted : isLetter char ∨ char.isDigit
    · have parts : (char :: rest.takeWhile fun other => tables.isWord other ∨ other = '-') ++
          (rest.dropWhile fun other => tables.isWord other ∨ other = '-') = char :: rest := by
        rw [List.cons_append, List.takeWhile_append_dropWhile]
      have unspaced : ∀ other ∈
          char :: rest.takeWhile fun other => tables.isWord other ∨ other = '-',
            FloatValue.isSpace other = false := by
        refine List.forall_mem_cons.mpr ⟨?_, fun other member => ?_⟩
        · rcases accepted with letter | digit
          · exact isSpace_of_not_colon (isColonOrSpace_of_isLetter faithful.lawful letter)
          · have range := Char.isDigit_iff_toNat.mp digit
            exact (digit_apart range.1 range.2).1
        · have kept := List.mem_takeWhile_imp member
          rcases of_decide_eq_true kept with word | rfl
          · exact isSpace_of_not_colon (isColonOrSpace_of_isWord faithful word)
          · rfl
      rw [if_pos (decide_eq_true accepted), if_pos accepted, drop_takeWhile, take_remaining parts,
        strip_eq_self unspaced]
    · rw [if_neg (by rwa [decide_eq_true_eq]), if_neg accepted]

theorem taken_policyNumber (lawful : tables.Lawful) (text : Text) :
    (FormField.policyNumber.pattern tables).taken text = policyNumberValue tables text := by
  have refused (char : Char) (rest : Text) (letter : isLetter char = true)
      {next : Text → Option Text} :
      (Expression.one fun char => char = '-').ahead next (char :: rest) = none := by
    rw [ahead_one_cons, if_neg]
    rw [decide_eq_true_eq]
    rintro rfl
    cases letter
  rw [Pattern.taken_eq_ahead]
  show (policyValue tables).ahead _ text = _
  rw [policyValue, ahead_seq, ahead_repeated fun char rest letter => by
    rw [ahead_seq]
    exact refused char rest letter]
  unfold policyNumberValue
  simp only [Option.all_some, decide_eq_true_eq]
  cases behind : text.dropWhile isLetter with
  | nil =>
    rw [ahead_seq, ahead_one_nil]
    exact ite_self _
  | cons mark rest =>
    dsimp only
    rw [ahead_seq, ahead_one_cons, ahead_repeated_total fun _ => Option.some_ne_none _]
    dsimp only [Option.elim_some]
    have taken : rest.take (min (rest.takeWhile tables.isDecimal).length 10) =
        (rest.takeWhile tables.isDecimal).take 10 := by
      conv_rhs => rw [List.prefix_iff_eq_take.mp (List.takeWhile_prefix tables.isDecimal)]
      rw [List.take_take, Nat.min_comm]
    have parts : (text.takeWhile isLetter ++ mark :: (rest.takeWhile tables.isDecimal).take 10) ++
        rest.drop (min (rest.takeWhile tables.isDecimal).length 10) = text := by
      rw [← taken, List.append_assoc, List.cons_append, List.take_append_drop, ← behind,
        List.takeWhile_append_dropWhile]
    have digits : ∀ char ∈ (rest.takeWhile tables.isDecimal).take 10,
        tables.isDecimal char = true :=
      fun char member => List.mem_takeWhile_imp (List.mem_of_mem_take member)
    rw [take_remaining parts]
    by_cases formed :
        (2 ≤ (text.takeWhile isLetter).length ∧ (text.takeWhile isLetter).length ≤ 3) ∧
          mark = '-' ∧ 6 ≤ (rest.takeWhile tables.isDecimal).length
    · obtain ⟨counted, rfl, enough⟩ := formed
      have least : 6 ≤ min (rest.takeWhile tables.isDecimal).length 10 :=
        Nat.le_min.mpr ⟨enough, by decide⟩
      rw [if_pos counted, if_pos (decide_eq_true rfl), if_pos least, if_pos ⟨counted, rfl, enough⟩,
        policy_unstripped lawful (fun char member => List.mem_takeWhile_imp member) digits]
    · rw [if_neg formed]
      refine ite_eq_right_iff.mpr fun counted => ite_eq_right_iff.mpr fun hyphen =>
        ite_eq_right_iff.mpr fun least => absurd ⟨counted, of_decide_eq_true hyphen, ?_⟩ formed
      exact (Nat.le_min.mp least).1

theorem taken_claimType (faithful : tables.Faithful) (text : Text) :
    (FormField.claimType.pattern tables).taken text = claimTypeValue tables text := by
  have unspaced : ∀ char ∈ text.takeWhile tables.isWord, FloatValue.isSpace char = false :=
    fun char member => isSpace_of_not_colon
      (isColonOrSpace_of_isWord faithful (List.mem_takeWhile_imp member))
  rw [Pattern.taken_eq_ahead]
  show (Expression.repeated tables.isWord 1 none).ahead _ text = _
  rw [ahead_repeated_total fun _ => Option.some_ne_none _, claimTypeValue]
  dsimp only [Option.elim_none]
  rw [drop_takeWhile]
  by_cases empty : text.takeWhile tables.isWord = []
  · rw [if_pos empty, empty, if_neg (by decide)]
  · have some : 1 ≤ (text.takeWhile tables.isWord).length := List.length_pos_iff.mpr empty
    rw [if_neg empty, if_pos some, take_remaining List.takeWhile_append_dropWhile,
      strip_eq_self unspaced]

end Values

/-! ### Readings -/

section Readings

variable (tables : UnicodeTables)

/-- The claim number that is read at the start of a text. -/
def claimNumberAt (text : Text) : Option Text :=
  behindNumber "claim" "CLM" (afterSeparators isSeparator 1 (claimNumberValue tables)) text

/-- The policy number that is read at the start of a text. -/
def policyNumberAt (text : Text) : Option Text :=
  behindNumber "policy" "POL" (afterSeparators isSeparator 0 (policyNumberValue tables)) text

/-- The claim type that is read at the start of a text. -/
def claimTypeAt (text : Text) : Option Text :=
  ((behindWord "type".toList text).bind
      (afterSeparators isColonOrSpace 1 (claimTypeValue tables))).or
    ((behindWord "claim type".toList text).bind
      (afterSeparators isColonOrSpace 1 (claimTypeValue tables)))

variable {tables}

/-- The words that name a field which has no number. -/
def FormField.spellings : FormField → List String
  | .claimNumber | .policyNumber => []
  | .claimant => ["claimant", "insured"]
  | .dateOfLoss => ["date of loss", "DOL", "loss date"]
  | .claimType => ["type", "claim type"]

theorem read_eq_naming (field : FormField) (text : Text) : (field.pattern tables).read text =
    field.naming.ahead ((Expression.repeated field.separates field.leastSeparators none).ahead
      (field.pattern tables).taken) text := by
  rw [Pattern.read_eq_ahead]
  show (Expression.seq _ _).ahead _ text = _
  rw [ahead_seq]

/-- A field without a number is read behind one of its names. -/
theorem read_spelled {field : FormField} (named : field.spellings ≠ []) (text : Text) :
    (field.pattern tables).read text = field.spellings.findSome? fun spelled =>
      (behindWord spelled.toList text).bind
        ((Expression.repeated isColonOrSpace 1 none).ahead (field.pattern tables).taken) := by
  rw [read_eq_naming]
  cases field with
  | claimNumber => exact absurd rfl named
  | policyNumber => exact absurd rfl named
  | claimant =>
    show (Expression.alt (word "claimant") (word "insured")).ahead _ text = _
    rw [ahead_alt, ahead_word, ahead_word, FormField.spellings, findSome?_cons_or,
      findSome?_cons_or, List.findSome?_nil, Option.or_none]
    rfl
  | dateOfLoss =>
    show (Expression.alt (word "date of loss")
      (.alt (word "DOL") (word "loss date"))).ahead _ text = _
    rw [ahead_alt, ahead_alt, ahead_word, ahead_word, ahead_word, FormField.spellings,
      findSome?_cons_or, findSome?_cons_or, findSome?_cons_or, List.findSome?_nil, Option.or_none]
    rfl
  | claimType =>
    show (Expression.alt (word "type") (word "claim type")).ahead _ text = _
    rw [ahead_alt, ahead_word, ahead_word, FormField.spellings, findSome?_cons_or,
      findSome?_cons_or, List.findSome?_nil, Option.or_none]
    rfl

theorem read_claimNumber (faithful : tables.Faithful) (text : Text) :
    (FormField.claimNumber.pattern tables).read text = claimNumberAt tables text := by
  have refused (char : Char) (rest : Text) (separator : isSeparator char = true) :
      claimNumberValue tables (char :: rest) = none := by
    have letter := (of_isSeparator faithful.lawful separator).1
    have digit : ¬char.isDigit = true := by
      intro digit
      have range := Char.isDigit_iff_toNat.mp digit
      obtain ⟨space, -, marks⟩ := digit_apart range.1 range.2
      simp only [List.mem_cons, List.not_mem_nil, or_false, not_or] at marks
      simp [isSeparator, space, marks] at separator
    rw [claimNumberValue, if_neg]
    rw [letter]
    exact fun either => either.elim Bool.false_ne_true digit
  rw [read_eq_naming, funext (taken_claimNumber faithful)]
  show (numbered "claim" "CLM").ahead ((Expression.repeated isSeparator 1 none).ahead _) text = _
  rw [ahead_separators refused]
  exact ahead_numbered "claim" "CLM" text fun _ _ _ => afterSeparators_isSpace

theorem read_policyNumber (lawful : tables.Lawful) (text : Text) :
    (FormField.policyNumber.pattern tables).read text = policyNumberAt tables text := by
  have refused (char : Char) (rest : Text) (separator : isSeparator char = true) :
      policyNumberValue tables (char :: rest) = none := by
    have letter : ¬isLetter char = true := by
      rw [(of_isSeparator lawful separator).1]
      exact Bool.false_ne_true
    unfold policyNumberValue
    rw [List.takeWhile_cons_of_neg letter, List.dropWhile_cons_of_neg letter]
    exact if_neg fun counted => absurd counted.1.1 (by decide)
  rw [read_eq_naming, funext (taken_policyNumber lawful)]
  show (numbered "policy" "POL").ahead ((Expression.repeated isSeparator 0 none).ahead _) text = _
  rw [ahead_separators refused]
  exact ahead_numbered "policy" "POL" text fun _ _ _ => afterSeparators_isSpace

theorem read_claimType (faithful : tables.Faithful) (text : Text) :
    (FormField.claimType.pattern tables).read text = claimTypeAt tables text := by
  have refused (char : Char) (rest : Text) (separator : isColonOrSpace char = true) :
      claimTypeValue tables (char :: rest) = none := by
    have word : ¬tables.isWord char = true := by
      intro word
      rw [isColonOrSpace_of_isWord faithful word] at separator
      cases separator
    rw [claimTypeValue, List.takeWhile_cons_of_neg word, if_pos rfl]
  rw [read_eq_naming, funext (taken_claimType faithful)]
  show (Expression.alt (word "type") (word "claim type")).ahead
    ((Expression.repeated isColonOrSpace 1 none).ahead _) text = _
  rw [ahead_separators refused, ahead_alt, ahead_word, ahead_word]
  rfl

end Readings

end InsuranceOps
