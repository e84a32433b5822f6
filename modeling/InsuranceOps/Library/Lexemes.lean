/-
This file develops texts of a programming language with the lexical rules of
Python as sequences of lexemes, and the search of such a text for a keyword, its
equals sign and its value by a pattern that knows nothing of lexemes. Where no
literal, comment or longer name looks like the keyword, and only blanks stand
between its parts, the pattern is found in the text if and only if the lexemes
are there.
-/

import InsuranceOps.Library.Scanning

namespace Lexemes

open Scanning

/-- A lexeme with its text. A literal is a whole string, with its prefix and quotes; a joint is a
backslash at the end of a line. -/
inductive Lexeme where
  | name (text : List Char)
  | number (text : List Char)
  | mark (text : List Char)
  | literal (text : List Char)
  | comment (text : List Char)
  | blank (text : List Char)
  | joint
  deriving DecidableEq

def lineFeed : Char := Char.ofNat 10

/-- The characters of a lexeme. -/
def Lexeme.text : Lexeme → List Char
  | .name text | .number text | .mark text | .literal text | .comment text | .blank text => text
  | .joint => [Char.ofNat 92, lineFeed]

/-- The characters of a sequence of lexemes. -/
def textOf (lexemes : List Lexeme) : List Char := lexemes.flatMap Lexeme.text

/-! ### Lexical rules -/

/-- The operators and delimiters. -/
def marks : List (List Char) :=
  ["(", ")", "[", "]", "\x7b", "\x7d", ",", ":", "!", ".", ";", "@", "=", "->", "+=", "-=", "*=",
    "/=", "//=", "%=", "@=", "&=", "|=", "^=", ">>=", "<<=", "**=", "+", "-", "*", "**", "/", "//",
    "%", "<<", ">>", "&", "|", "^", "~", ":=", "<", ">", "<=", ">=", "==", "!=", "..."].map
    String.toList

/-- The letters that may stand before the quote of a literal. -/
def prefixLetters : List Char := "rRbBuUfF".toList

/-- Letters, digits and the underscore. -/
def wordChar (char : Char) : Bool :=
  let code := char.toNat
  (48 ≤ code && code ≤ 57) || (65 ≤ code && code ≤ 90) || code = 95 || (97 ≤ code && code ≤ 122)

/-- The characters of numbers. -/
def numberChar (char : Char) : Bool := char ∈ "0123456789abcdefABCDEFxXoOjJ_.+-".toList

/-- The blanks between lexemes: space, tab, form feed and line feed. -/
def blankChars : List Char := [' ', Char.ofNat 9, Char.ofNat 12, lineFeed]

section Rules

variable (space : Char → Bool)

/-- The characters of names; those outside ASCII are whatever is no whitespace. -/
def nameChar (char : Char) : Bool :=
  wordChar char || (128 ≤ char.toNat && !space char)

/-- The text of a lexeme is one of its kind. -/
def Lexeme.valid : Lexeme → Bool
  | .name text => text ≠ [] && text.all (nameChar space)
  | .number text => text.head?.any (· ∈ "0123456789.".toList) && text.all numberChar
  | .mark text => text ∈ marks
  | .literal text => (text.dropWhile (· ∈ prefixLetters)).head?.any fun char =>
      char.toNat = 34 || char.toNat = 39
  | .comment text => text.head? = some '#' && lineFeed ∉ text
  | .blank text => text ≠ [] && text.all (· ∈ blankChars)
  | .joint => true

/-- Every lexeme is valid, and no name goes on in the text behind it. -/
def lexed : List Lexeme → Bool
  | [] => true
  | lexeme :: rest =>
    lexeme.valid space &&
      (match lexeme with
        | .name _ => !(textOf rest).head?.any (nameChar space)
        | _ => true) &&
      lexed rest

end Rules

/-! ### Keywords by their lexemes -/

/-- Blanks, comments and joints mean nothing between other lexemes. -/
def Lexeme.insignificant : Lexeme → Bool
  | .comment _ | .blank _ | .joint => true
  | .name _ | .number _ | .mark _ | .literal _ => false

def Lexeme.isBlank : Lexeme → Bool
  | .blank _ => true
  | .name _ | .number _ | .mark _ | .literal _ | .comment _ | .joint => false

/-- The lexemes begin with an equals sign, and then the value if one is asked for, apart from some
that are skipped. -/
def spelled (skip : Lexeme → Bool) (value : List Char) (lexemes : List Lexeme) : Bool :=
  match lexemes.dropWhile skip with
  | .mark mark :: rest => mark = ['='] && (value = [] ||
      match rest.dropWhile skip with
      | .name other :: _ => other = value
      | _ => false)
  | _ => false

/-- The keyword stands somewhere with its equals sign and value. -/
def hasKeyword (skip : Lexeme → Bool) (keyword value : List Char) : List Lexeme → Bool
  | [] => false
  | .name text :: rest =>
    (text = keyword && spelled skip value rest) || hasKeyword skip keyword value rest
  | _ :: rest => hasKeyword skip keyword value rest

/-! ### Keywords by a pattern -/

section Pattern

variable (space : Char → Bool) (keyword value : List Char)

/-- The pattern `keyword\s*=\s*value` matches where a text begins. -/
def keywordAt (text : List Char) : Bool :=
  keyword.isPrefixOf text &&
    match (text.drop keyword.length).dropWhile space with
    | char :: rest => char = '=' && value.isPrefixOf (rest.dropWhile space)
    | [] => false

/-- Behind the keyword the pattern runs on into a longer name or operator. -/
def overrun (lexemes : List Lexeme) : Bool :=
  match lexemes.dropWhile Lexeme.isBlank with
  | .mark mark :: rest => (mark = ['=', '='] && value = []) || (mark = ['='] &&
      match rest.dropWhile Lexeme.isBlank with
      | .name other :: _ => value ≠ [] && other ≠ value && value.isPrefixOf other
      | _ => false)
  | _ => false

/-- Somewhere the pattern matches in a literal, in a comment, inside a name, or beyond the lexemes
of the keyword. -/
def lookAlike : List Lexeme → Bool
  | [] => false
  | .literal text :: rest | .comment text :: rest =>
    foundBefore (keywordAt space keyword value) text (textOf rest) || lookAlike rest
  | .name text :: rest =>
    foundBefore (keywordAt space keyword value) text.tail (textOf rest) ||
      (text = keyword && overrun value rest) || lookAlike rest
  | _ :: rest => lookAlike rest

/-- Somewhere a comment or a joint stands between the parts of the keyword. -/
def interrupted : List Lexeme → Bool
  | [] => false
  | .name text :: rest =>
    (text = keyword && spelled Lexeme.insignificant value rest &&
      !spelled Lexeme.isBlank value rest) || interrupted rest
  | _ :: rest => interrupted rest

end Pattern

/-! ### Characters -/

/-- `space` is whitespace: inside ASCII, the characters that `\s` matches. -/
structure Whitespace (space : Char → Bool) : Prop where
  ascii : ∀ char, char.toNat < 128 → (space char = true ↔
    (9 ≤ char.toNat ∧ char.toNat ≤ 13) ∨ (28 ≤ char.toNat ∧ char.toNat ≤ 32))

/-- A character of ASCII that is no control character and no space. -/
def graphic (char : Char) : Bool := 32 < char.toNat && char.toNat < 128

/-- A character of ASCII that is no letter, digit or underscore. -/
def foreign (char : Char) : Bool := char.toNat < 128 && !wordChar char

section Characters

variable {space : Char → Bool}

theorem nameChar_eq_false_of_foreign {char : Char} (apart : foreign char = true) :
    nameChar space char = false := by
  simp only [foreign, Bool.and_eq_true, decide_eq_true_eq, Bool.not_eq_true'] at apart
  have low : decide (128 ≤ char.toNat) = false := decide_eq_false (Nat.not_le_of_lt apart.1)
  rw [nameChar, apart.2, low]
  rfl

theorem visible_of_ascii (whitespace : Whitespace space) {char : Char}
    (low : 32 < char.toNat) (high : char.toNat < 128) : space char = false := by
  refine Bool.eq_false_iff.mpr fun isSpace => ?_
  have range := (whitespace.ascii char high).mp isSpace
  omega

theorem nameChar_visible (whitespace : Whitespace space) {char : Char}
    (inName : nameChar space char = true) : space char = false := by
  simp only [nameChar, wordChar, Bool.or_eq_true, Bool.and_eq_true, decide_eq_true_eq,
    Bool.not_eq_true'] at inName
  rcases inName with word | ⟨-, visible⟩
  · exact visible_of_ascii whitespace (by omega) (by omega)
  · exact visible

theorem nameChar_equals : nameChar space '=' = false := nameChar_eq_false_of_foreign rfl

/-- Where a text goes on with whitespace or an equals sign, no name goes on. -/
theorem nameChar_of_dropWhile (whitespace : Whitespace space) {text rest : List Char}
    (equals : text.dropWhile space = '=' :: rest) : text.head?.any (nameChar space) = false := by
  cases text with
  | nil => rfl
  | cons char text =>
    by_cases blank : space char = true
    · refine Bool.eq_false_iff.mpr fun inName => ?_
      rw [nameChar_visible whitespace inName] at blank
      cases blank
    · rw [List.dropWhile_cons_of_neg blank] at equals
      cases equals
      exact nameChar_equals

theorem blankChars_space (whitespace : Whitespace space) {char : Char}
    (member : char ∈ blankChars) : space char = true := by
  have ranges : ∀ char ∈ blankChars, decide ((9 ≤ char.toNat ∧ char.toNat ≤ 13) ∨
      (28 ≤ char.toNat ∧ char.toNat ≤ 32)) = true := List.all_eq_true.mp rfl
  have range := of_decide_eq_true (ranges char member)
  exact (whitespace.ascii char (by omega)).mpr range

theorem graphic_visible (whitespace : Whitespace space) {char : Char}
    (shown : graphic char = true) : space char = false := by
  simp only [graphic, Bool.and_eq_true, decide_eq_true_eq] at shown
  exact visible_of_ascii whitespace shown.1 shown.2

theorem marks_foreign {mark : List Char} (member : mark ∈ marks) :
    mark ≠ [] ∧ ∀ char ∈ mark, foreign char = true ∧ graphic char = true := by
  have all : marks.all (fun mark => !mark.isEmpty &&
      mark.all fun char => foreign char && graphic char) = true := by decide
  have here := List.all_eq_true.mp all mark member
  simp only [Bool.and_eq_true, Bool.not_eq_true', List.isEmpty_eq_false_iff,
    List.all_eq_true] at here
  exact here

/-- Two operators begin with an equals sign. -/
theorem marks_equals {mark : List Char} (member : mark ∈ marks)
    (begins : mark.head? = some '=') : mark = ['='] ∨ mark = ['=', '='] := by
  have all : marks.all (fun mark => mark.head? != some '=' ||
      (mark == ['='] || mark == ['=', '='])) = true := by decide
  simpa [begins] using List.all_eq_true.mp all mark member

end Characters

/-! ### Lexemes in a text -/

section Texts

variable {space : Char → Bool}

@[simp] theorem textOf_nil : textOf [] = [] := rfl

@[simp] theorem textOf_cons (lexeme : Lexeme) (rest : List Lexeme) :
    textOf (lexeme :: rest) = lexeme.text ++ textOf rest := List.flatMap_cons

@[simp] theorem textOf_append (before after : List Lexeme) :
    textOf (before ++ after) = textOf before ++ textOf after := List.flatMap_append

theorem lexed_cons {lexeme : Lexeme} {rest : List Lexeme}
    (valid : lexed space (lexeme :: rest) = true) :
    lexeme.valid space = true ∧ lexed space rest = true := by
  simp only [lexed, Bool.and_eq_true] at valid
  exact ⟨valid.1.1, valid.2⟩

theorem lexed_name {text : List Char} {rest : List Lexeme}
    (valid : lexed space (.name text :: rest) = true) :
    text ≠ [] ∧ (∀ char ∈ text, nameChar space char = true) ∧
      (textOf rest).head?.any (nameChar space) = false := by
  simp only [lexed, Lexeme.valid, Bool.and_eq_true, decide_eq_true_eq, List.all_eq_true,
    Bool.not_eq_true'] at valid
  exact ⟨valid.1.1.1, valid.1.1.2, valid.1.2⟩

theorem lexed_append {before after : List Lexeme}
    (valid : lexed space (before ++ after) = true) : lexed space after = true := by
  induction before with
  | nil => exact valid
  | cons lexeme rest inductionHypothesis => exact inductionHypothesis (lexed_cons valid).2

theorem lexed_left {before after : List Lexeme}
    (valid : lexed space (before ++ after) = true) : lexed space before = true := by
  induction before with
  | nil => rfl
  | cons lexeme rest inductionHypothesis =>
    obtain ⟨here, later⟩ := lexed_cons valid
    have left := inductionHypothesis later
    cases lexeme with
    | name text =>
      have refused : (textOf (rest ++ after)).head?.any (nameChar space) = false :=
        (lexed_name valid).2.2
      have apart : (textOf rest).head?.any (nameChar space) = false := by
        rw [textOf_append] at refused
        cases shape : textOf rest with
        | nil => rfl
        | cons char chars =>
          rw [shape] at refused
          exact refused
      simp only [lexed, here, left, apart, Bool.not_false, Bool.and_self]
    | number | mark | literal | comment | blank | joint =>
      simp only [lexed, here, left, Bool.and_self]

theorem valid_of_mem {lexemes : List Lexeme} (valid : lexed space lexemes = true)
    {lexeme : Lexeme} (member : lexeme ∈ lexemes) : lexeme.valid space = true := by
  obtain ⟨before, after, rfl⟩ := List.append_of_mem member
  exact (lexed_cons (lexed_append valid)).1

theorem lexed_dropWhile {lexemes : List Lexeme} (valid : lexed space lexemes = true)
    (skip : Lexeme → Bool) : lexed space (lexemes.dropWhile skip) = true := by
  have parts := List.takeWhile_append_dropWhile (p := skip) (l := lexemes)
  exact lexed_append (parts ▸ valid)

theorem number_head {char : Char} {rest : List Char}
    (valid : (Lexeme.number (char :: rest)).valid space = true) :
    char ∈ "0123456789.".toList := by
  simp only [Lexeme.valid, List.head?_cons, Option.any_some, Bool.and_eq_true,
    decide_eq_true_eq] at valid
  exact valid.1

theorem comment_head {char : Char} {rest : List Char}
    (valid : (Lexeme.comment (char :: rest)).valid space = true) : char = '#' := by
  simp only [Lexeme.valid, List.head?_cons, Option.some.injEq, Bool.and_eq_true,
    decide_eq_true_eq] at valid
  exact valid.1

/-- A literal begins with a letter of its prefix or with its quote. -/
theorem literal_head {text : List Char} (valid : (Lexeme.literal text).valid space = true) :
    ∃ char rest, text = char :: rest ∧
      (char ∈ prefixLetters ∨ char.toNat = 34 ∨ char.toNat = 39) := by
  cases text with
  | nil => cases valid
  | cons char rest =>
    refine ⟨char, rest, rfl, ?_⟩
    by_cases letter : char ∈ prefixLetters
    · exact .inl letter
    · right
      simpa [Lexeme.valid, List.dropWhile_cons_of_neg, letter] using valid

/-- A lexeme that is not blank begins with a visible character. -/
theorem visible_head (whitespace : Whitespace space) {lexeme : Lexeme}
    (valid : lexeme.valid space = true) (shown : lexeme.isBlank = false) :
    ∃ char rest, lexeme.text = char :: rest ∧ space char = false := by
  cases lexeme with
  | name text =>
    simp only [Lexeme.valid, Bool.and_eq_true, decide_eq_true_eq, List.all_eq_true] at valid
    obtain ⟨char, rest, rfl⟩ := List.exists_cons_of_ne_nil valid.1
    exact ⟨char, rest, rfl, nameChar_visible whitespace (valid.2 char List.mem_cons_self)⟩
  | number text =>
    cases text with
    | nil => cases valid
    | cons char rest =>
      have shown : ∀ char ∈ "0123456789.".toList, graphic char = true := List.all_eq_true.mp rfl
      exact ⟨char, rest, rfl, graphic_visible whitespace (shown char (number_head valid))⟩
  | mark text =>
    obtain ⟨some, chars⟩ := marks_foreign (of_decide_eq_true valid)
    obtain ⟨char, rest, rfl⟩ := List.exists_cons_of_ne_nil some
    exact ⟨char, rest, rfl, graphic_visible whitespace (chars char List.mem_cons_self).2⟩
  | literal text =>
    obtain ⟨char, rest, rfl, shape⟩ := literal_head valid
    refine ⟨char, rest, rfl, ?_⟩
    rcases shape with letter | quote
    · have shown : ∀ char ∈ prefixLetters, graphic char = true := List.all_eq_true.mp rfl
      exact graphic_visible whitespace (shown char letter)
    · exact visible_of_ascii whitespace (by omega) (by omega)
  | comment text =>
    cases text with
    | nil => cases valid
    | cons char rest =>
      have hash := comment_head valid
      subst hash
      exact ⟨_, rest, rfl, visible_of_ascii whitespace (by decide) (by decide)⟩
  | blank text => cases shown
  | joint => exact ⟨_, _, rfl, visible_of_ascii whitespace (by decide) (by decide)⟩

/-- Blanks are whitespace. -/
theorem space_of_isBlank (whitespace : Whitespace space) {lexeme : Lexeme}
    (valid : lexeme.valid space = true) (blank : lexeme.isBlank = true) :
    ∀ char ∈ lexeme.text, space char = true := by
  cases lexeme with
  | blank text =>
    simp only [Lexeme.valid, Bool.and_eq_true, List.all_eq_true, decide_eq_true_eq] at valid
    exact fun char member => blankChars_space whitespace (valid.2 char member)
  | name | number | mark | literal | comment | joint => cases blank

/-- Skipping whitespace is skipping blanks. -/
theorem dropWhile_textOf (whitespace : Whitespace space) {lexemes : List Lexeme}
    (valid : lexed space lexemes = true) :
    (textOf lexemes).dropWhile space = textOf (lexemes.dropWhile Lexeme.isBlank) := by
  induction lexemes with
  | nil => rfl
  | cons lexeme rest inductionHypothesis =>
    obtain ⟨here, later⟩ := lexed_cons valid
    rw [textOf_cons]
    by_cases blank : lexeme.isBlank = true
    · rw [List.dropWhile_cons_of_pos blank, ← inductionHypothesis later]
      exact List.dropWhile_append_of_pos (space_of_isBlank whitespace here blank)
    · rw [List.dropWhile_cons_of_neg blank, textOf_cons]
      obtain ⟨char, text, shape, visible⟩ := visible_head whitespace here
        (Bool.eq_false_iff.mpr blank)
      rw [shape, List.cons_append]
      exact List.dropWhile_cons_of_neg (Bool.eq_false_iff.mp visible)

end Texts

/-! ### Matches at lexemes -/

/-- A keyword and a value the rules tell apart from numbers and literals. -/
structure Keyword (keyword value : List Char) : Prop where
  some : keyword ≠ []
  word : keyword.all wordChar = true
  number : keyword.head?.any numberChar = false
  valueWord : value.all wordChar = true
  valueNumber : value.head?.any (· ∈ "0123456789.".toList) = false
  valuePrefix : value = [] ∨ value.any (· ∉ prefixLetters) = true

section Matches

variable {space : Char → Bool} {keyword value : List Char}

theorem nameChar_of_wordChar {char : Char} (word : wordChar char = true) :
    nameChar space char = true := by
  rw [nameChar, word]
  rfl

theorem takeWhile_of_head {accepts : Char → Bool} {text : List Char}
    (refused : text.head?.any accepts = false) : text.takeWhile accepts = [] := by
  cases text with
  | nil => rfl
  | cons char rest => exact List.takeWhile_cons_of_neg (Bool.eq_false_iff.mp refused)

/-- The longest beginning whose characters are accepted. -/
theorem takeWhile_append {accepts : Char → Bool} {text behind : List Char}
    (all : ∀ char ∈ text, accepts char = true) (refused : behind.head?.any accepts = false) :
    (text ++ behind).takeWhile accepts = text := by
  rw [List.takeWhile_append_of_pos all, takeWhile_of_head refused, List.append_nil]

/-- Texts that are accepted and go on with something refused are told apart. -/
theorem append_inj_of_accepted {accepts : Char → Bool} {first second behind other : List Char}
    (firstAll : ∀ char ∈ first, accepts char = true)
    (secondAll : ∀ char ∈ second, accepts char = true)
    (refused : behind.head?.any accepts = false) (otherRefused : other.head?.any accepts = false)
    (same : first ++ behind = second ++ other) : first = second ∧ behind = other := by
  have firsts : first = second := by
    rw [← takeWhile_append firstAll refused, same, takeWhile_append secondAll otherRefused]
  subst firsts
  exact ⟨rfl, List.append_cancel_left same⟩

/-- An accepted beginning of a text lies in its longest accepted beginning. -/
theorem prefix_takeWhile {accepts : Char → Bool} {first text : List Char}
    (all : ∀ char ∈ first, accepts char = true) (begins : first <+: text) :
    first <+: text.takeWhile accepts := by
  obtain ⟨behind, rfl⟩ := begins
  rw [List.takeWhile_append_of_pos all]
  exact List.prefix_append _ _

/-- Only operators begin with an equals sign. -/
theorem mark_of_equals {lexeme : Lexeme} (valid : lexeme.valid space = true) {rest : List Char}
    (begins : lexeme.text = '=' :: rest) :
    ∃ mark, lexeme = .mark mark ∧ (mark = ['='] ∨ mark = ['=', '=']) := by
  cases lexeme with
  | name text =>
    cases begins
    simp only [Lexeme.valid, Bool.and_eq_true, List.all_eq_true] at valid
    exact absurd (valid.2 '=' List.mem_cons_self) (Bool.eq_false_iff.mp nameChar_equals)
  | number text =>
    cases begins
    exact absurd (number_head valid) (by decide)
  | mark text =>
    cases begins
    exact ⟨_, rfl, marks_equals (of_decide_eq_true valid) rfl⟩
  | literal text =>
    obtain ⟨char, behind, shape, head⟩ := literal_head valid
    cases begins.symm.trans shape
    exact absurd head (by decide)
  | comment text =>
    cases begins
    exact absurd (comment_head valid) (by decide)
  | blank text =>
    cases begins
    simp only [Lexeme.valid, Bool.and_eq_true, List.all_eq_true, decide_eq_true_eq] at valid
    exact absurd (valid.2 '=' List.mem_cons_self) (by decide)
  | joint => cases begins

/-- Only names and literals begin with a letter or underscore. -/
theorem name_of_word {lexeme : Lexeme} (valid : lexeme.valid space = true) {char : Char}
    {rest : List Char} (begins : lexeme.text = char :: rest) (word : wordChar char = true)
    (noNumber : char ∉ "0123456789.".toList) :
    (∃ text, lexeme = .name text) ∨ ∃ text, lexeme = .literal text := by
  have apart (other : foreign char = true) : False := by
    rw [foreign, word] at other
    exact absurd (Bool.and_eq_true_iff.mp other).2 (by decide)
  cases lexeme with
  | name text => exact .inl ⟨text, rfl⟩
  | number text =>
    cases begins
    exact absurd (number_head valid) noNumber
  | mark text =>
    cases begins
    exact (apart ((marks_foreign (of_decide_eq_true valid)).2 char List.mem_cons_self).1).elim
  | literal text => exact .inr ⟨text, rfl⟩
  | comment text =>
    cases begins
    rw [comment_head valid] at word
    exact absurd word (by decide)
  | blank text =>
    cases begins
    simp only [Lexeme.valid, Bool.and_eq_true, List.all_eq_true, decide_eq_true_eq] at valid
    have blanks : ∀ char ∈ blankChars, foreign char = true := List.all_eq_true.mp rfl
    exact (apart (blanks char (valid.2 char List.mem_cons_self))).elim
  | joint =>
    cases begins
    exact absurd word (by decide)

/-- What names and a literal begin with in common are letters of its prefix. -/
theorem letters_of_literal {text first behind : List Char}
    (valid : (Lexeme.literal text).valid space = true)
    (named : ∀ char ∈ first, nameChar space char = true) (begins : first <+: text ++ behind) :
    ∀ char ∈ first, char ∈ prefixLetters := by
  have letters : ∀ char ∈ text.takeWhile (· ∈ prefixLetters), char ∈ prefixLetters :=
    fun char member => by simpa using List.mem_takeWhile_imp member
  have word : ∀ char ∈ prefixLetters, wordChar char = true := List.all_eq_true.mp rfl
  have parts : text ++ behind = text.takeWhile (· ∈ prefixLetters) ++
      (text.dropWhile (· ∈ prefixLetters) ++ behind) := by
    rw [← List.append_assoc, List.takeWhile_append_dropWhile]
  have refused : (text.dropWhile (· ∈ prefixLetters) ++ behind).head?.any (nameChar space) =
      false := by
    cases shape : text.dropWhile (· ∈ prefixLetters) with
    | nil =>
      rw [Lexeme.valid, shape] at valid
      cases valid
    | cons quote rest =>
      rw [Lexeme.valid, shape] at valid
      have code : quote.toNat = 34 ∨ quote.toNat = 39 := by simpa using valid
      refine nameChar_eq_false_of_foreign ?_
      simp only [foreign, wordChar, Bool.and_eq_true, Bool.not_eq_true', decide_eq_true_eq,
        Bool.or_eq_false_iff, Bool.and_eq_false_iff, decide_eq_false_iff_not]
      omega
  have inside := prefix_takeWhile named begins
  rw [parts, takeWhile_append
    (fun char member => nameChar_of_wordChar (word char (letters char member))) refused] at inside
  exact fun char member => letters char (inside.subset member)

/-- The equals sign of the pattern is found where the lexemes have an operator that begins so. -/
theorem dropWhile_equals (whitespace : Whitespace space) {lexemes : List Lexeme}
    (valid : lexed space lexemes = true) {rest : List Char}
    (equals : (textOf lexemes).dropWhile space = '=' :: rest) :
    ∃ mark after, lexemes.dropWhile Lexeme.isBlank = .mark mark :: after ∧
      (mark = ['='] ∧ rest = textOf after ∨ mark = ['=', '='] ∧ rest = '=' :: textOf after) := by
  rw [dropWhile_textOf whitespace valid] at equals
  have skipped := lexed_dropWhile valid Lexeme.isBlank
  cases shape : lexemes.dropWhile Lexeme.isBlank with
  | nil =>
    rw [shape] at equals
    cases equals
  | cons lexeme after =>
    rw [shape] at equals skipped
    obtain ⟨here, -⟩ := lexed_cons skipped
    have shown : lexeme.isBlank = false := by
      have first := List.head?_dropWhile_not Lexeme.isBlank lexemes
      rw [shape] at first
      exact first
    obtain ⟨char, text, head, visible⟩ := visible_head whitespace here shown
    rw [textOf_cons, head, List.cons_append] at equals
    cases equals
    obtain ⟨mark, rfl, either⟩ := mark_of_equals here head
    have parts : mark = '=' :: text := head
    refine ⟨mark, after, rfl, either.imp (fun one => ⟨one, ?_⟩) fun two => ⟨two, ?_⟩⟩
    · cases parts.symm.trans one
      rfl
    · cases parts.symm.trans two
      rfl

theorem textOf_dropWhile_of_mark (whitespace : Whitespace space) {lexemes after : List Lexeme}
    (valid : lexed space lexemes = true) {mark : List Char}
    (shape : lexemes.dropWhile Lexeme.isBlank = .mark mark :: after) :
    (textOf lexemes).dropWhile space = mark ++ textOf after := by
  rw [dropWhile_textOf whitespace valid, shape, textOf_cons]
  rfl

/-- The value of the pattern is found where the lexemes have a name that begins so. -/
theorem value_prefix_iff (whitespace : Whitespace space) (asked : Keyword keyword value)
    (some : value ≠ []) {lexemes : List Lexeme} (valid : lexed space lexemes = true) :
    value <+: (textOf lexemes).dropWhile space ↔
      ∃ other after, lexemes.dropWhile Lexeme.isBlank = .name other :: after ∧
        value <+: other := by
  have named : ∀ char ∈ value, nameChar space char = true :=
    fun char member => nameChar_of_wordChar (List.all_eq_true.mp asked.valueWord char member)
  rw [dropWhile_textOf whitespace valid]
  have skipped := lexed_dropWhile valid Lexeme.isBlank
  constructor
  · intro begins
    obtain ⟨char, rest, rfl⟩ := List.exists_cons_of_ne_nil some
    cases shape : lexemes.dropWhile Lexeme.isBlank with
    | nil =>
      rw [shape] at begins
      cases List.prefix_nil.mp begins
    | cons lexeme after =>
      rw [shape] at begins skipped
      obtain ⟨here, -⟩ := lexed_cons skipped
      have shown : lexeme.isBlank = false := by
        have first := List.head?_dropWhile_not Lexeme.isBlank lexemes
        rw [shape] at first
        exact first
      obtain ⟨first, text, head, -⟩ := visible_head whitespace here shown
      rw [textOf_cons] at begins
      have same : char = first := by
        rw [head] at begins
        exact (List.cons_prefix_cons.mp begins).1
      subst same
      rcases name_of_word here head (List.all_eq_true.mp asked.valueWord char List.mem_cons_self)
        (of_decide_eq_false asked.valueNumber) with ⟨other, rfl⟩ | ⟨literal, rfl⟩
      · obtain ⟨-, all, refused⟩ := lexed_name skipped
        refine ⟨other, after, rfl, ?_⟩
        have inside := prefix_takeWhile named begins
        rwa [show (Lexeme.name other).text = other from rfl, takeWhile_append all refused]
          at inside
      · -- The characters of the value would all stand before the quote.
        obtain ⟨outside, member, noPrefix⟩ :=
          List.any_eq_true.mp (asked.valuePrefix.resolve_left some)
        exact absurd (letters_of_literal here named begins outside member)
          (of_decide_eq_true noPrefix)
  · rintro ⟨other, after, shape, begins⟩
    rw [shape, textOf_cons]
    exact begins.trans (List.prefix_append _ _)

/-- The parts of a match. -/
theorem keywordAt_iff {text : List Char} : keywordAt space keyword value text = true ↔
    ∃ behind rest, text = keyword ++ behind ∧ behind.dropWhile space = '=' :: rest ∧
      value <+: rest.dropWhile space := by
  rw [keywordAt, Bool.and_eq_true, List.isPrefixOf_iff_prefix]
  constructor
  · rintro ⟨⟨behind, rfl⟩, matched⟩
    rw [List.drop_left] at matched
    cases shape : behind.dropWhile space with
    | nil =>
      rw [shape] at matched
      cases matched
    | cons char rest =>
      rw [shape] at matched
      simp only [Bool.and_eq_true, decide_eq_true_eq, List.isPrefixOf_iff_prefix] at matched
      exact ⟨behind, rest, rfl, by rw [shape, matched.1], matched.2⟩
  · rintro ⟨behind, rest, rfl, equals, begins⟩
    refine ⟨List.prefix_append _ _, ?_⟩
    rw [List.drop_left, equals]
    simp only [decide_true, Bool.true_and, List.isPrefixOf_iff_prefix]
    exact begins

/-- What stands behind the keyword where the pattern goes on: the lexemes asked for, or longer
ones. -/
theorem behind_keyword_iff (whitespace : Whitespace space) (asked : Keyword keyword value)
    {lexemes : List Lexeme} (valid : lexed space lexemes = true) :
    (∃ rest, (textOf lexemes).dropWhile space = '=' :: rest ∧ value <+: rest.dropWhile space) ↔
      spelled Lexeme.isBlank value lexemes = true ∨ overrun value lexemes = true := by
  constructor
  · rintro ⟨rest, equals, begins⟩
    obtain ⟨mark, after, shape, either⟩ := dropWhile_equals whitespace valid equals
    have behind : lexed space after = true :=
      (lexed_cons (shape ▸ lexed_dropWhile valid Lexeme.isBlank)).2
    simp only [spelled, overrun, shape]
    by_cases some : value = []
    · rcases either with ⟨rfl, -⟩ | ⟨rfl, -⟩
      · left
        simp [some]
      · right
        simp [some]
    · rcases either with ⟨rfl, rfl⟩ | ⟨rfl, rfl⟩
      · obtain ⟨other, later, named, starts⟩ :=
          (value_prefix_iff whitespace asked some behind).mp begins
        by_cases same : other = value
        · left
          simp [named, same]
        · right
          simp [named, same, some, List.isPrefixOf_iff_prefix.mpr starts]
      · -- A second equals sign is no beginning of the value.
        rw [List.dropWhile_cons_of_neg
          (Bool.eq_false_iff.mp (visible_of_ascii whitespace (by decide) (by decide)))] at begins
        obtain ⟨char, chars, rfl⟩ := List.exists_cons_of_ne_nil some
        have word := List.all_eq_true.mp asked.valueWord char List.mem_cons_self
        rw [(List.cons_prefix_cons.mp begins).1] at word
        exact absurd word (by decide)
  · simp only [spelled, overrun]
    cases shape : lexemes.dropWhile Lexeme.isBlank with
    | nil => simp
    | cons lexeme after =>
      have behind : lexed space after = true :=
        (lexed_cons (shape ▸ lexed_dropWhile valid Lexeme.isBlank)).2
      cases lexeme with
      | mark mark =>
        have text := textOf_dropWhile_of_mark whitespace valid shape
        simp only [Bool.or_eq_true, Bool.and_eq_true, decide_eq_true_eq]
        rintro (⟨rfl, none | starts⟩ | ⟨rfl, none⟩ | ⟨rfl, starts⟩)
        · exact ⟨_, text, none ▸ List.nil_prefix⟩
        · refine ⟨_, text, ?_⟩
          split at starts
          · rename_i other later named
            obtain rfl := of_decide_eq_true starts
            by_cases some : other = []
            · exact some ▸ List.nil_prefix
            · exact (value_prefix_iff whitespace asked some behind).mpr
                ⟨_, _, named, List.prefix_rfl⟩
          · cases starts
        · exact ⟨_, text, none ▸ List.nil_prefix⟩
        · refine ⟨_, text, ?_⟩
          split at starts
          · rename_i other later named
            simp only [Bool.and_eq_true, decide_eq_true_eq, List.isPrefixOf_iff_prefix] at starts
            exact (value_prefix_iff whitespace asked starts.1.1 behind).mpr
              ⟨_, _, named, starts.2⟩
          · cases starts
      | name | number | literal | comment | blank | joint => simp

/-- At a name the pattern matches if the name is the keyword and it goes on behind it. -/
theorem keywordAt_name (whitespace : Whitespace space) (asked : Keyword keyword value)
    {text : List Char} {rest : List Lexeme} (valid : lexed space (.name text :: rest) = true) :
    keywordAt space keyword value (text ++ textOf rest) = true ↔
      text = keyword ∧ (spelled Lexeme.isBlank value rest = true ∨ overrun value rest = true) := by
  obtain ⟨-, all, refused⟩ := lexed_name valid
  rw [← behind_keyword_iff whitespace asked (lexed_cons valid).2, keywordAt_iff]
  constructor
  · rintro ⟨behind, found, same, equals, begins⟩
    obtain ⟨rfl, rfl⟩ := append_inj_of_accepted all
      (fun char member => nameChar_of_wordChar (List.all_eq_true.mp asked.word char member)) refused
      (nameChar_of_dropWhile whitespace equals) same
    exact ⟨rfl, found, equals, begins⟩
  · rintro ⟨rfl, found, equals, begins⟩
    exact ⟨_, found, rfl, equals, begins⟩

end Matches

/-! ### The search -/

section Search

variable {space : Char → Bool} {keyword value : List Char}

/-- No match begins where no character begins the keyword. -/
theorem foundBefore_of_heads {text : List Char}
    (apart : ∀ char ∈ text, keyword.head? ≠ some char) (some : keyword ≠ []) (behind : List Char) :
    foundBefore (keywordAt space keyword value) text behind = false := by
  obtain ⟨first, rest, rfl⟩ := List.exists_cons_of_ne_nil some
  induction text with
  | nil => rfl
  | cons char text inductionHypothesis =>
    have other : first ≠ char := fun same => apart char List.mem_cons_self (by rw [same]; rfl)
    have here : keywordAt space (first :: rest) value (char :: text ++ behind) = false := by
      simp [keywordAt, List.isPrefixOf, other]
    rw [foundBefore, here, Bool.false_or]
    exact inductionHypothesis fun char member => apart char (List.mem_cons_of_mem _ member)

/-- No match begins in a number, an operator, a blank or a joint. -/
theorem foundBefore_of_plain (asked : Keyword keyword value) {lexeme : Lexeme}
    (valid : lexeme.valid space = true) (behind : List Char)
    (plain : ∀ text, lexeme ≠ .name text ∧ lexeme ≠ .literal text ∧ lexeme ≠ .comment text) :
    foundBefore (keywordAt space keyword value) lexeme.text behind = false := by
  refine foundBefore_of_heads (fun char member begins => ?_) asked.some behind
  have word : wordChar char = true :=
    List.all_eq_true.mp asked.word char (List.mem_of_mem_head? begins)
  have apart (other : foreign char = true) : False := by
    rw [foreign, word] at other
    exact absurd (Bool.and_eq_true_iff.mp other).2 (by decide)
  cases lexeme with
  | name text => exact (plain text).1 rfl
  | number text =>
    simp only [Lexeme.valid, Bool.and_eq_true, List.all_eq_true] at valid
    have apart := asked.number
    rw [begins, Option.any_some, valid.2 char member] at apart
    cases apart
  | mark text => exact apart ((marks_foreign (of_decide_eq_true valid)).2 char member).1
  | literal text => exact (plain text).2.1 rfl
  | comment text => exact (plain text).2.2 rfl
  | blank text =>
    simp only [Lexeme.valid, Bool.and_eq_true, List.all_eq_true, decide_eq_true_eq] at valid
    have blanks : ∀ char ∈ blankChars, foreign char = true := List.all_eq_true.mp rfl
    exact apart (blanks char (valid.2 char member))
  | joint =>
    have joints : ∀ char ∈ Lexeme.joint.text, foreign char = true := List.all_eq_true.mp rfl
    exact apart (joints char member)

/-- What follows the blanks follows whatever else is skipped, unless it is skipped itself. -/
theorem dropWhile_insignificant {lexemes after : List Lexeme} {lexeme : Lexeme}
    (shape : lexemes.dropWhile Lexeme.isBlank = lexeme :: after)
    (significant : lexeme.insignificant = false) :
    lexemes.dropWhile Lexeme.insignificant = lexeme :: after := by
  induction lexemes with
  | nil => cases shape
  | cons first rest inductionHypothesis =>
    by_cases blank : first.isBlank = true
    · rw [List.dropWhile_cons_of_pos blank] at shape
      have skipped : first.insignificant = true := by
        cases first with
        | blank => rfl
        | name | number | mark | literal | comment | joint => cases blank
      rw [List.dropWhile_cons_of_pos skipped]
      exact inductionHypothesis shape
    · rw [List.dropWhile_cons_of_neg blank] at shape
      cases shape
      exact List.dropWhile_cons_of_neg (Bool.eq_false_iff.mp significant)

/-- With only blanks between them, the parts are there. -/
theorem spelled_insignificant {lexemes : List Lexeme}
    (blanks : spelled Lexeme.isBlank value lexemes = true) :
    spelled Lexeme.insignificant value lexemes = true := by
  unfold spelled at blanks ⊢
  split at blanks
  · rename_i mark rest shape
    rw [dropWhile_insignificant shape rfl]
    simp only [Bool.and_eq_true, Bool.or_eq_true] at blanks ⊢
    refine ⟨blanks.1, blanks.2.imp_right fun named => ?_⟩
    split at named
    · rename_i other later shape
      rw [dropWhile_insignificant shape rfl]
      exact named
    · cases named
  · cases blanks

/-- At a name that is followed by no longer parts and no interrupted ones, the pattern matches if
and only if the keyword stands there with its value. -/
theorem keywordAt_parts (whitespace : Whitespace space) (asked : Keyword keyword value)
    {text : List Char} {rest : List Lexeme} (valid : lexed space (.name text :: rest) = true)
    (short : (decide (text = keyword) && overrun value rest) = false)
    (whole : (decide (text = keyword) && spelled Lexeme.insignificant value rest &&
      !spelled Lexeme.isBlank value rest) = false) :
    keywordAt space keyword value (text ++ textOf rest) =
      (decide (text = keyword) && spelled Lexeme.insignificant value rest) := by
  rw [Bool.eq_iff_iff, keywordAt_name whitespace asked valid, Bool.and_eq_true,
    decide_eq_true_eq]
  refine and_congr_right fun same => ?_
  simp only [same, decide_true, Bool.true_and] at short whole
  constructor
  · rintro (blanks | longer)
    · exact spelled_insignificant blanks
    · rw [short] at longer
      cases longer
  · intro skipped
    rw [skipped, Bool.true_and] at whole
    exact .inl (by simpa using whole)

/-- Without look-alikes and interruptions the pattern is found if and only if the lexemes have the
keyword with its value. -/
theorem found_textOf (whitespace : Whitespace space) (asked : Keyword keyword value)
    {lexemes : List Lexeme} (valid : lexed space lexemes = true)
    (looks : lookAlike space keyword value lexemes = false)
    (parts : interrupted keyword value lexemes = false) :
    found (keywordAt space keyword value) (textOf lexemes) =
      hasKeyword Lexeme.insignificant keyword value lexemes := by
  unfold found
  induction lexemes with
  | nil => rfl
  | cons lexeme rest inductionHypothesis =>
    obtain ⟨here, later⟩ := lexed_cons valid
    rw [textOf_cons, foundBefore_append, List.append_nil]
    cases lexeme with
    | name text =>
      simp only [lookAlike, interrupted, Bool.or_eq_false_iff] at looks parts
      obtain ⟨some, -⟩ := lexed_name valid
      obtain ⟨char, chars, rfl⟩ := List.exists_cons_of_ne_nil some
      have atName := keywordAt_parts whitespace asked valid looks.1.2 parts.1
      have insideName : foundBefore (keywordAt space keyword value) chars (textOf rest) = false :=
        looks.1.1
      rw [Lexeme.text, foundBefore, atName, insideName, Bool.or_false, hasKeyword,
        ← inductionHypothesis later looks.2 parts.2]
    | literal text | comment text =>
      simp only [lookAlike, interrupted, Bool.or_eq_false_iff] at looks parts
      rw [Lexeme.text, looks.1, Bool.false_or]
      exact inductionHypothesis later looks.2 parts
    | number | mark | blank | joint =>
      rw [foundBefore_of_plain asked here _ (by simp), Bool.false_or]
      exact inductionHypothesis later looks parts

end Search

/-! ### Keywords in a part of the lexemes -/

section Parts

variable {skip : Lexeme → Bool} {keyword value : List Char}

/-- Lexemes without the name of the keyword have no part in it. -/
theorem hasKeyword_append {before : List Lexeme} (absent : .name keyword ∉ before)
    (after : List Lexeme) :
    hasKeyword skip keyword value (before ++ after) = hasKeyword skip keyword value after := by
  induction before with
  | nil => rfl
  | cons lexeme rest inductionHypothesis =>
    rw [List.mem_cons, not_or] at absent
    have later := inductionHypothesis absent.2
    cases lexeme with
    | name text =>
      have other : text ≠ keyword := fun same => absent.1 (by rw [same])
      rw [List.cons_append, hasKeyword, decide_eq_false other, Bool.false_and, Bool.false_or, later]
    | number | mark | literal | comment | blank | joint => exact later

/-- An operator behind the lexemes that is no equals sign is not taken for one. -/
theorem spelled_close {mark : List Char} (other : mark ≠ ['=']) (kept : skip (.mark mark) = false)
    (lexemes : List Lexeme) :
    spelled skip value (lexemes ++ [.mark mark]) = spelled skip value lexemes := by
  have last : [Lexeme.mark mark].dropWhile skip = [.mark mark] :=
    List.dropWhile_cons_of_neg (Bool.eq_false_iff.mp kept)
  unfold spelled
  rw [List.dropWhile_append, last]
  cases lexemes.dropWhile skip with
  | nil => simp [other]
  | cons lexeme rest =>
    cases lexeme with
    | mark text =>
      simp only [List.isEmpty_cons, Bool.false_eq_true, if_false, List.cons_append,
        List.dropWhile_append, last]
      cases rest.dropWhile skip with
      | nil => rfl
      | cons next others => cases next <;> rfl
    | name | number | literal | comment | blank | joint => rfl

theorem hasKeyword_close {mark : List Char} (other : mark ≠ ['='])
    (kept : skip (.mark mark) = false) (lexemes : List Lexeme) :
    hasKeyword skip keyword value (lexemes ++ [.mark mark]) =
      hasKeyword skip keyword value lexemes := by
  induction lexemes with
  | nil => rfl
  | cons lexeme rest inductionHypothesis =>
    cases lexeme with
    | name text =>
      rw [List.cons_append, hasKeyword, hasKeyword, spelled_close other kept, inductionHypothesis]
    | number | mark | literal | comment | blank | joint => exact inductionHypothesis

end Parts

end Lexemes
