/-
This file relates what the migration lint reports of a call to what the call is by
the lexical rules of Python. A migration is a sequence of lexemes around a call
behind the header of `upgrade`. Where the text shows the header, the call and its
parentheses as the lint reads them, and nothing else looks like a keyword, an added
column is reported if and only if its arguments have `nullable=False` and no
`server_default`, and a created index if and only if its arguments do not have
`postgresql_concurrently=True` and it stands in no `op.create_table`. The lint reads
a text and not lexemes, so each way in which the two come apart is told from the
text of the call up to the parenthesis that closes it there.
-/

import InsuranceOps.Library.Lexemes
import InsuranceOps.MigrationLint
import Mathlib.Data.List.Chain

namespace InsuranceOps

open Backtracking Lexemes Scanning

namespace MigrationLint

/-! ### Calls -/

/-- The parentheses and other operators, without what stands in literals and comments. -/
def delimiters (lexemes : List Lexeme) : Text :=
  lexemes.flatMap fun lexeme =>
    match lexeme with
    | .mark text => text
    | .name _ | .number _ | .literal _ | .comment _ | .blank _ | .joint => []

/-- A call of an operation on `op`. Between its parts stands nothing that means anything, and its
last parenthesis is the one that closes it. -/
structure Call where
  operation : Text
  beforeDot : List Lexeme
  behindDot : List Lexeme
  beforeArguments : List Lexeme
  arguments : List Lexeme
  spread : (beforeDot ++ behindDot ++ beforeArguments).all Lexeme.insignificant = true
  closed : balanced '(' ')' 0 (delimiters arguments) = true

/-- What stands before the parenthesis of the call. -/
def Call.callee (call : Call) : List Lexeme :=
  .name "op".toList :: (call.beforeDot ++ .mark ".".toList :: (call.behindDot ++
    .name call.operation :: call.beforeArguments))

def Call.lexemes (call : Call) : List Lexeme :=
  call.callee ++ .mark "(".toList :: (call.arguments ++ [.mark ")".toList])

/-- The column is added with `nullable=False` and no `server_default`. -/
def Call.lacksDefault (call : Call) : Bool :=
  hasKeyword Lexeme.insignificant "nullable".toList "False".toList call.arguments &&
    !hasKeyword Lexeme.insignificant "server_default".toList [] call.arguments

/-- The index is created without `postgresql_concurrently=True`. -/
def Call.lacksConcurrently (call : Call) : Bool :=
  !hasKeyword Lexeme.insignificant "postgresql_concurrently".toList "True".toList call.arguments

/-! ### Migrations -/

/-- The lexemes of a file with a function `upgrade` and a call behind its header. -/
structure Parts where
  outer : List Lexeme
  behindDef : List Lexeme
  behindName : List Lexeme
  parameters : List Lexeme
  annotation : List Lexeme
  lead : List Lexeme
  call : Call
  after : List Lexeme

namespace Parts

/-- The header of `upgrade` up to its annotation. -/
def signature (parts : Parts) : List Lexeme :=
  .name "def".toList :: (parts.behindDef ++ .name "upgrade".toList :: (parts.behindName ++
    .mark "(".toList :: (parts.parameters ++ [.mark ")".toList])))

def header (parts : Parts) : List Lexeme :=
  parts.signature ++ parts.annotation ++ [.mark ":".toList]

def lexemes (parts : Parts) : List Lexeme :=
  parts.outer ++ parts.header ++ parts.lead ++ parts.call.lexemes ++ parts.after

/-- The text of the file. -/
def content (parts : Parts) : Text := textOf parts.lexemes

/-- Where the body begins as the lint cuts it, behind the first character after the colon. -/
def bodyStart (parts : Parts) : Nat := (textOf (parts.outer ++ parts.header)).length + 1

/-- Where the call begins. -/
def position (parts : Parts) : Nat := (textOf (parts.outer ++ parts.header ++ parts.lead)).length

end Parts

/-- A migration file by the lexical rules. -/
structure Migration extends Parts where
  lexed : lexed FloatValue.isSpace toParts.lexemes = true

/-- A check reports a pattern at a position of a file. -/
def ReportedAt (tables : UnicodeTables) (content : Text) (filepath pattern : String)
    (position : Nat) : Prop :=
  ∃ finding, (position, finding) ∈ placedFindings tables content filepath ∧
    finding.pattern = pattern

/-! ### What the lint reads of a call -/

/-- The text from a position of the file on, as far as the lint reads it: to the end of the body it
cuts out. -/
def readFrom (content : Text) (position : Nat) : Text :=
  match extractUpgradeBody content with
  | some upgradeBody =>
    if bodyOffset content upgradeBody ≤ position then
      upgradeBody.drop (position - bodyOffset content upgradeBody)
    else []
  | none => []

/-- A text begins with a call that is written in one piece: nothing but whitespace stands in it
before its parenthesis. -/
def Written (operation : String) (text : Text) : Prop :=
  ∃ gap behind : Text, (∀ char ∈ gap, FloatValue.isSpace char = true) ∧
    text = "op.".toList ++ operation.toList ++ (gap ++ '(' :: behind)

/-- A text up to the parenthesis that closes its first one, where those of literals and comments
count; none if none closes it. -/
def closedText (text : Text) : Text := (upToClosing '(' ')' 0 text).getD []

/-- Somewhere in a text a keyword stands with only whitespace around its equals sign, be it in a
literal, in a comment or at the end of a longer name. -/
def shows (keyword value : String) (text : Text) : Bool :=
  found (keywordAt FloatValue.isSpace keyword.toList value.toList) text

section Misread

variable (migration : Migration)

/-- The text of the call and of what follows, as far as the lint reads it. -/
def Migration.readText : Text := readFrom migration.content migration.position

/-- An added column that is misread: one that lacks the default and is not read as a call, whose
`nullable=False` does not show in the text up to its closing, or beside which that text shows a
`server_default`; or one that does not, and whose text looks as if it did. -/
inductive MisreadColumn : Prop where
  | unread (lacks : migration.call.lacksDefault = true)
      (unwritten : ¬Written "add_column" migration.readText)
  | hidden (lacks : migration.call.lacksDefault = true)
      (unseen : shows "nullable" "False" (closedText migration.readText) = false)
  | excused (lacks : migration.call.lacksDefault = true)
      (seen : shows "server_default" "" (closedText migration.readText) = true)
  | imagined (has : migration.call.lacksDefault = false)
      (written : Written "add_column" migration.readText)
      (nullable : shows "nullable" "False" (closedText migration.readText) = true)
      (default : shows "server_default" "" (closedText migration.readText) = false)

/-- A created index that is misread: one that lacks the option and is not read as a call, stands
where more parentheses were opened than closed since the last `op.create_table(`, or shows the
option in the text up to its closing; or one that has the option, and whose text does not show
it. -/
inductive MisreadIndex : Prop where
  | unread (lacks : migration.call.lacksConcurrently = true)
      (unwritten : ¬Written "create_index" migration.readText)
  | skipped (lacks : migration.call.lacksConcurrently = true)
      (inside : isInsideCreateTable migration.content migration.position = true)
  | excused (lacks : migration.call.lacksConcurrently = true)
      (seen : shows "postgresql_concurrently" "True" (closedText migration.readText) = true)
  | hidden (has : migration.call.lacksConcurrently = false)
      (written : Written "create_index" migration.readText)
      (outside : isInsideCreateTable migration.content migration.position = false)
      (unseen : shows "postgresql_concurrently" "True" (closedText migration.readText) = false)

end Misread

/-- The text shows the header, the call and its keywords as the lint reads them. -/
structure Plain (migration : Migration) (keywords : List (Text × Text)) : Prop where
  -- The header is `def upgrade()`, what may follow, and a colon at the end of its line.
  behindDef : textOf migration.behindDef = [' ']
  behindName : textOf migration.behindName = []
  parameters : textOf migration.parameters = []
  annotation : foundBefore ":\n".toList.isPrefixOf (textOf migration.annotation)
    (textOf (.mark ":".toList :: (migration.lead ++ migration.call.lexemes ++ migration.after))) =
      false
  newline : (textOf migration.lead).head? = some newline
  -- It is the first such line, and no line of the body up to the end of the call begins as the
  -- next function.
  line : lineStart MigrationLint.newline true (textOf migration.outer) = true
  first : lineBefore MigrationLint.newline "def upgrade()".toList.isPrefixOf true
    (textOf migration.outer) (textOf (migration.header ++
      (migration.lead ++ migration.call.lexemes ++ migration.after))) = false
  body : lineBefore MigrationLint.newline "def ".toList.isPrefixOf true
    (textOf (migration.lead ++ migration.call.lexemes)).tail (textOf migration.after) = false
  -- The text of the body stands nowhere before the body.
  offset : (extractUpgradeBody migration.content).all (fun upgradeBody =>
    find upgradeBody migration.content = some migration.bodyStart) = true
  -- The call is in one piece, and the parentheses in its literals and comments change nothing.
  beforeDot : textOf migration.call.beforeDot = []
  behindDot : textOf migration.call.behindDot = []
  beforeArguments : migration.call.beforeArguments.all Lexeme.isBlank = true
  brackets : balanced '(' ')' 0 (textOf migration.call.arguments) = true
  -- Nothing looks like a keyword but a keyword, whose parts have only blanks between them.
  looks : ∀ keyword ∈ keywords,
    lookAlike FloatValue.isSpace keyword.1 keyword.2 migration.call.lexemes = false
  parts : ∀ keyword ∈ keywords,
    interrupted keyword.1 keyword.2 migration.call.lexemes = false

/-! ### Keywords -/

theorem whitespace_isSpace : Whitespace FloatValue.isSpace where
  ascii char low := by
    simp only [FloatValue.isSpace, List.mem_cons, List.not_mem_nil, or_false,
      decide_eq_true_eq]
    omega

theorem keyword_nullable : Keyword "nullable".toList "False".toList where
  some := by decide
  word := by decide
  number := by decide
  valueWord := by decide
  valueNumber := by decide
  valuePrefix := by decide

theorem keyword_serverDefault : Keyword "server_default".toList [] where
  some := by decide
  word := by decide
  number := by decide
  valueWord := by decide
  valueNumber := by decide
  valuePrefix := by decide

theorem keyword_concurrently : Keyword "postgresql_concurrently".toList "True".toList where
  some := by decide
  word := by decide
  number := by decide
  valueWord := by decide
  valueNumber := by decide
  valuePrefix := by decide

/-- An equals sign behind whitespace, and then what is read. -/
theorem equals_isSome (next : Text → Option Text) (text : Text) :
    (spaces.ahead ((exactly "=".toList).ahead next) text).isSome =
      match text.dropWhile FloatValue.isSpace with
      | char :: rest => decide (char = '=') && (next rest).isSome
      | [] => false := by
  have equals : spaces.ahead ((exactly "=".toList).ahead next) text =
      (exactly ['=']).ahead next (text.dropWhile FloatValue.isSpace) :=
    ahead_spaces (fun _ => rfl) rfl
  rw [equals, ahead_exactly]
  cases text.dropWhile FloatValue.isSpace with
  | nil => rfl
  | cons char rest =>
    by_cases same : char = '='
    · subst same
      rfl
    · have other : ('=' == char) = false := beq_eq_false_iff_ne.mpr (Ne.symm same)
      rw [List.isPrefixOf, other]
      exact (congrArg (· && (next rest).isSome) (decide_eq_false same)).symm

/-- A keyword with a value is matched where the pattern of its text matches. -/
theorem keywordRe_isSome (keyword value : String) {first : Char} {others : Text}
    (shape : value.toList = first :: others) (visible : FloatValue.isSpace first = false)
    (text : Text) : ((keywordRe keyword value).leaves text).isSome =
      keywordAt FloatValue.isSpace keyword.toList value.toList text := by
  have parts : (Expression.seq (exactly "=".toList)
      (.seq spaces (exactly value.toList))).ahead some =
        (exactly "=".toList).ahead ((Expression.seq spaces (exactly value.toList)).ahead some) :=
    funext fun text => ahead_seq _ _
  have valued (text : Text) : ((Expression.seq spaces (exactly value.toList)).ahead some
      text).isSome = value.toList.isPrefixOf (text.dropWhile FloatValue.isSpace) := by
    rw [ahead_seq, shape, ahead_spaces (fun _ => rfl) visible, ahead_exactly]
    cases List.isPrefixOf (first :: others) _ <;> rfl
  rw [Expression.leaves, keywordRe, ahead_seq, ahead_exactly, keywordAt]
  cases keyword.toList.isPrefixOf text with
  | false => rfl
  | true =>
    rw [if_pos rfl, Bool.true_and, ahead_seq, parts, equals_isSome]
    cases (text.drop keyword.toList.length).dropWhile FloatValue.isSpace with
    | nil => rfl
    | cons char rest => exact congrArg (decide (char = '=') && ·) (valued rest)

/-- `server_default` is matched where the pattern of its text without a value matches. -/
theorem serverDefaultRe_isSome (text : Text) : (serverDefaultRe.leaves text).isSome =
    keywordAt FloatValue.isSpace "server_default".toList [] text := by
  rw [Expression.leaves, serverDefaultRe, ahead_seq, ahead_exactly, keywordAt]
  cases "server_default".toList.isPrefixOf text with
  | false => rfl
  | true =>
    rw [if_pos rfl, Bool.true_and, ahead_seq, equals_isSome]
    rfl

theorem search_nullable (text : Text) :
    (nullableFalseRe.search text).isSome = shows "nullable" "False" text :=
  (search_isSome rfl).trans
    (congrArg (found · text) (funext (keywordRe_isSome "nullable" "False" rfl rfl)))

theorem search_serverDefault (text : Text) :
    (serverDefaultRe.search text).isSome = shows "server_default" "" text :=
  (search_isSome rfl).trans (congrArg (found · text) (funext serverDefaultRe_isSome))

theorem search_concurrently (text : Text) :
    (concurrentlyRe.search text).isSome = shows "postgresql_concurrently" "True" text :=
  (search_isSome rfl).trans
    (congrArg (found · text) (funext (keywordRe_isSome "postgresql_concurrently" "True" rfl rfl)))

/-! ### Calls in a body -/

/-- No letter `p` follows a letter `o`. -/
def Unlike (text : Text) : Prop := text.IsChain fun first second => first = 'o' → second ≠ 'p'

instance (text : Text) : Decidable (Unlike text) := inferInstanceAs (Decidable (text.IsChain _))

theorem unlike_of_not_mem {text : Text} (absent : 'o' ∉ text) : Unlike text := by
  induction text with
  | nil => exact .nil
  | cons first rest inductionHypothesis =>
    rw [List.mem_cons, not_or] at absent
    exact (inductionHypothesis absent.2).cons fun _ _ same => absurd same.symm absent.1

/-- A match of a call does not reach into another call. -/
theorem matchLength_le {operation : String} (unlike : Unlike ("p.".toList ++ operation.toList))
    (last : ("p.".toList ++ operation.toList).getLast? ≠ some 'o') {near behind : Text}
    {count : Nat} (some : near ≠ [])
    (matched : (callRe operation).matchLength (near ++ 'o' :: 'p' :: behind) = Option.some count) :
    count ≤ near.length := by
  obtain ⟨whole, rest, parts, rfl, leaves⟩ := matchLength_eq_some_iff.mp matched
  obtain ⟨gap, blanks, text⟩ := callRe_leaves_iff.mp leaves
  have shape : whole = 'o' :: ("p.".toList ++ operation.toList ++ (gap ++ ['('])) := by
    have same : whole ++ rest =
        'o' :: ("p.".toList ++ operation.toList ++ (gap ++ ['('])) ++ rest := by
      rw [← parts, text]
      simp
    exact List.append_cancel_right same
  have calm : Unlike ("p.".toList ++ operation.toList ++ (gap ++ ['('])) := by
    refine unlike.append (unlike_of_not_mem fun member => ?_)
      fun char ends _ _ same => absurd (same ▸ ends) last
    rcases List.mem_append.mp member with inGap | mark
    · exact absurd (blanks _ inGap) (by decide)
    · exact absurd mark (by decide)
  refine Nat.le_of_not_lt fun longer => ?_
  obtain ⟨char, before, rfl⟩ := List.exists_cons_of_ne_nil some
  rcases List.append_eq_append_iff.mp parts with ⟨inside, split, begins⟩ | ⟨_, split, -⟩
  · -- The call that follows would begin inside the match.
    rw [shape, List.cons_append, List.cons.injEq] at split
    have within : Unlike inside := calm.suffix ⟨before, split.2.symm⟩
    match inside, begins with
    | [], _ =>
      rw [shape, split.2] at longer
      simp at longer
    | [first], begins =>
      obtain rfl := (List.cons.inj begins).1
      have ends := split.2
      rw [← List.append_assoc] at ends
      exact absurd (List.append_inj_right' ends rfl) (by decide)
    | first :: second :: _, begins =>
      cases begins
      exact List.IsChain.rel within rfl rfl
  · have lengths := congrArg List.length split
    rw [List.length_append] at lengths
    omega

/-- The calls that are found in a text are those written in one piece. -/
theorem mem_finditer_iff {operation : String} (unlike : Unlike ("p.".toList ++ operation.toList))
    (last : ("p.".toList ++ operation.toList).getLast? ≠ some 'o') {text : Text} {start : Nat} :
    start ∈ (callRe operation).finditer text ↔ Written operation (text.drop start) := by
  constructor
  · intro member
    obtain ⟨before, behind, rfl, rfl, matched⟩ := of_mem_starts member
    obtain ⟨count, matched⟩ := Option.isSome_iff_exists.mp matched
    obtain ⟨whole, rest, rfl, -, leaves⟩ := matchLength_eq_some_iff.mp matched
    obtain ⟨gap, blanks, shape⟩ := callRe_leaves_iff.mp leaves
    rw [Nat.zero_add, List.drop_left]
    exact ⟨gap, rest, blanks, shape⟩
  · rintro ⟨gap, behind, blanks, shape⟩
    have within : start ≤ text.length := by
      refine Nat.le_of_not_lt fun beyond => ?_
      rw [List.drop_eq_nil_of_le beyond.le] at shape
      cases shape
    have matched := matchLength_eq_some_iff.mpr
      ⟨"op.".toList ++ operation.toList ++ (gap ++ ['(']), behind, by rw [shape]; simp, rfl,
        callRe_leaves_iff.mpr ⟨gap, blanks, shape⟩⟩
    have found : 0 + (text.take start).length ∈
        (callRe operation).finditer (text.take start ++ text.drop start) := by
      refine mem_starts matched ?_ ?_ (fun near some _ count reached => ?_) (Nat.zero_le _)
      · simp
      · rw [shape]
        simp
      · rw [shape] at reached
        exact matchLength_le unlike last some reached
    rwa [Nat.zero_add, List.length_take_of_le within, List.take_append_drop] at found

section Positions

variable {content upgradeBody : Text} {position : Nat}

theorem readFrom_eq (extracted : extractUpgradeBody content = some upgradeBody) :
    readFrom content position = if bodyOffset content upgradeBody ≤ position then
      upgradeBody.drop (position - bodyOffset content upgradeBody) else [] := by
  rw [readFrom, extracted]

theorem not_written_nil (operation : String) : ¬Written operation [] := by
  rintro ⟨gap, behind, -, shape⟩
  cases shape

/-- What is read is the text of the file. -/
theorem readFrom_prefix (content : Text) (position : Nat) :
    readFrom content position <+: content.drop position := by
  unfold readFrom
  split
  · rename_i upgradeBody extracted
    split
    · rename_i reached
      obtain ⟨before, behind, whole, place⟩ := extractUpgradeBody_within extracted
      obtain ⟨start, rfl⟩ := Nat.exists_eq_add_of_le reached
      have dropped : content.drop (bodyOffset content upgradeBody + start) =
          upgradeBody.drop start ++ behind.drop (start - upgradeBody.length) := by
        rw [← List.drop_drop, ← place]
        nth_rewrite 1 [whole]
        rw [List.drop_left, List.drop_append]
      rw [Nat.add_sub_cancel_left, dropped]
      exact List.prefix_append _ _
    · exact List.nil_prefix
  · exact List.nil_prefix

/-- A check reports a call where one is written, if its condition holds there. -/
theorem mem_findingsOf_position (extracted : extractUpgradeBody content = some upgradeBody)
    {operation : String} (unlike : Unlike ("p.".toList ++ operation.toList))
    (last : ("p.".toList ++ operation.toList).getLast? ≠ some 'o') (filepath : String)
    (reported : Nat → Nat → Bool) (pattern message : String) :
    (∃ finding, (position, finding) ∈ findingsOf content upgradeBody filepath (callRe operation)
        reported pattern message) ↔
      Written operation (readFrom content position) ∧
        reported position (position - bodyOffset content upgradeBody) = true := by
  rw [readFrom_eq extracted]
  constructor
  · rintro ⟨finding, member⟩
    obtain ⟨start, found, holds, entry⟩ := mem_findingsOf_iff.mp member
    obtain ⟨rfl, -⟩ := Prod.mk.inj entry
    rw [if_pos (Nat.le_add_right _ _), Nat.add_sub_cancel_left]
    exact ⟨(mem_finditer_iff unlike last).mp found, holds⟩
  · rintro ⟨written, holds⟩
    split at written
    · rename_i reached
      obtain ⟨start, rfl⟩ := Nat.exists_eq_add_of_le reached
      rw [Nat.add_sub_cancel_left] at written holds
      exact ⟨_, mem_findingsOf_iff.mpr
        ⟨start, (mem_finditer_iff unlike last).mpr written, holds, rfl⟩⟩
    · exact absurd written (not_written_nil operation)

/-- The statement at a position is the text that is read from there, up to its closing. -/
theorem closedText_readFrom (extracted : extractUpgradeBody content = some upgradeBody)
    {operation : String} (written : Written operation (readFrom content position)) :
    statementText upgradeBody (position - bodyOffset content upgradeBody) =
      closedText (readFrom content position) := by
  rw [readFrom_eq extracted] at written ⊢
  split at written
  · rename_i reached
    rw [if_pos reached]
    rfl
  · exact absurd written (not_written_nil operation)

end Positions

/-! ### The cut -/

section Cut

variable {migration : Migration} {keywords : List (Text × Text)}

theorem textOf_signature (plain : Plain migration keywords) :
    textOf migration.signature = "def upgrade()".toList := by
  simp only [Parts.signature, textOf_cons, textOf_append, plain.behindDef, plain.behindName,
    plain.parameters, Lexeme.text, textOf_nil]
  rfl

/-- The body up to the end of the call, and the line it begins behind. -/
theorem textOf_lead (plain : Plain migration keywords) :
    textOf migration.lead = newline :: (textOf migration.lead).tail := by
  obtain ⟨tail, shape⟩ := List.head?_eq_some_iff.mp plain.newline
  rw [shape]
  rfl

/-- What stands from the colon of the header on. -/
theorem textOf_colon (plain : Plain migration keywords) :
    textOf (.mark ":".toList :: (migration.lead ++ migration.call.lexemes ++ migration.after)) =
      ":\n".toList ++ ((textOf (migration.lead ++ migration.call.lexemes)).tail ++
        textOf migration.after) := by
  simp only [textOf_cons, textOf_append]
  rw [textOf_lead plain]
  rfl

/-- What is read at the header. -/
theorem readUpgrade_header (plain : Plain migration keywords) :
    readUpgrade (textOf (migration.header ++
      (migration.lead ++ migration.call.lexemes ++ migration.after))) =
        some (upToLine newline "def ".toList.isPrefixOf true
          ((textOf (migration.lead ++ migration.call.lexemes)).tail ++
            textOf migration.after)) := by
  have colon := textOf_colon plain
  have header : textOf (migration.header ++
      (migration.lead ++ migration.call.lexemes ++ migration.after)) =
        "def upgrade()".toList ++ (textOf migration.annotation ++ textOf (.mark ":".toList ::
          (migration.lead ++ migration.call.lexemes ++ migration.after))) := by
    rw [← textOf_signature plain, ← textOf_append, ← textOf_append, Parts.header]
    simp only [List.append_assoc, List.singleton_append]
  rw [header, readUpgrade, if_pos (List.isPrefixOf_iff_prefix.mpr (List.prefix_append _ _)),
    List.drop_left, colon, behindFirst_append (by decide) (colon ▸ plain.annotation)]
  rfl

/-- The lint cuts out a body in which the call stands where it stands in the file. -/
theorem extractUpgradeBody_eq (plain : Plain migration keywords) :
    ∃ behind, extractUpgradeBody migration.content =
      some ((textOf migration.lead).tail ++ (textOf migration.call.lexemes ++ behind)) := by
  have whole : migration.content = textOf migration.outer ++ textOf (migration.header ++
      (migration.lead ++ migration.call.lexemes ++ migration.after)) := by
    simp only [Parts.content, Parts.lexemes, textOf_append, List.append_assoc]
  have unread (text : Text) (fails : "def upgrade()".toList.isPrefixOf text = false) :
      readUpgrade text = none := if_neg (Bool.eq_false_iff.mp fails)
  have skipped := firstLine_append unread plain.first
  have read := readUpgrade_header plain
  have found : extractUpgradeBody migration.content = readUpgrade (textOf (migration.header ++
      (migration.lead ++ migration.call.lexemes ++ migration.after))) := by
    rw [extractUpgradeBody, whole, skipped, plain.line]
    cases shape : textOf (migration.header ++
        (migration.lead ++ migration.call.lexemes ++ migration.after)) with
    | nil =>
      rw [shape] at read
      cases read
    | cons char text =>
      rw [shape] at read
      rw [firstLine, if_pos rfl, read, Option.some_or]
  have leads : (textOf (migration.lead ++ migration.call.lexemes)).tail =
      (textOf migration.lead).tail ++ textOf migration.call.lexemes := by
    rw [textOf_append, textOf_lead plain]
    rfl
  rw [upToLine_append plain.body, leads] at read
  exact ⟨_, (found.trans read).trans (congrArg some (List.append_assoc ..))⟩

/-- The call stands in the body behind what leads to it. -/
theorem position_eq (plain : Plain migration keywords) {upgradeBody : Text}
    (extracted : extractUpgradeBody migration.content = some upgradeBody) :
    bodyOffset migration.content upgradeBody + (textOf migration.lead).tail.length =
      migration.position := by
  have offset := plain.offset
  rw [extracted, Option.all_some, decide_eq_true_eq] at offset
  have lead := congrArg List.length (textOf_lead plain)
  rw [List.length_cons] at lead
  rw [bodyOffset, offset, Option.getD_some, Parts.bodyStart, Parts.position,
    textOf_append _ migration.lead, List.length_append]
  omega

end Cut

/-! ### A call that stands plainly in the text -/

section Found

variable {migration : Migration} {keywords : List (Text × Text)}

theorem lexed_call (migration : Migration) :
    lexed FloatValue.isSpace migration.call.lexemes = true :=
  lexed_append (lexed_left migration.lexed)

/-- The call begins with its name, and only whitespace stands before its parenthesis. -/
theorem callee_text (plain : Plain migration keywords) : ∃ gap : Text,
    (∀ char ∈ gap, FloatValue.isSpace char = true) ∧
      textOf migration.call.callee = "op.".toList ++ migration.call.operation ++ gap := by
  refine ⟨textOf migration.call.beforeArguments, ?_, ?_⟩
  · intro char member
    obtain ⟨lexeme, listed, inside⟩ := List.mem_flatMap.mp member
    have part : lexeme ∈ migration.call.lexemes := by
      simp only [Call.lexemes, Call.callee, List.mem_append, List.mem_cons]
      simp only [listed, true_or, or_true]
    exact space_of_isBlank whitespace_isSpace (valid_of_mem (lexed_call migration) part)
      (List.all_eq_true.mp plain.beforeArguments lexeme listed) char inside
  · simp only [Call.callee, textOf_cons, textOf_append, plain.beforeDot, plain.behindDot,
      Lexeme.text, List.nil_append]
    simp only [List.append_assoc]
    rfl

/-- The lint reads the text of the call. -/
theorem readText_eq (plain : Plain migration keywords) :
    ∃ behind, migration.readText = textOf migration.call.lexemes ++ behind := by
  obtain ⟨behind, extracted⟩ := extractUpgradeBody_eq plain
  have place := position_eq plain extracted
  refine ⟨behind, ?_⟩
  rw [Migration.readText, readFrom_eq extracted, ← place, if_pos (Nat.le_add_right _ _),
    Nat.add_sub_cancel_left, List.drop_left]

theorem written_of_plain (plain : Plain migration keywords) {operation : String}
    (called : migration.call.operation = operation.toList) :
    Written operation migration.readText := by
  obtain ⟨behind, read⟩ := readText_eq plain
  obtain ⟨gap, blanks, callee⟩ := callee_text plain
  refine ⟨gap, textOf migration.call.arguments ++ ')' :: behind, blanks, ?_⟩
  rw [read, ← called, ← List.append_assoc _ gap, ← callee]
  simp only [Call.lexemes, textOf_append, textOf_cons, textOf_nil, List.append_assoc]
  rfl

/-- The text up to its closing is that of the call. -/
theorem closedText_eq (plain : Plain migration keywords)
    (operation : migration.call.operation.all (fun char => char != '(' && char != ')') = true) :
    closedText migration.readText = textOf migration.call.lexemes := by
  obtain ⟨behind, read⟩ := readText_eq plain
  obtain ⟨gap, blanks, callee⟩ := callee_text plain
  have text : textOf migration.call.lexemes ++ behind = textOf migration.call.callee ++
      '(' :: (textOf migration.call.arguments ++ ')' :: behind) := by
    simp only [Call.lexemes, textOf_append, textOf_cons, textOf_nil, List.append_assoc]
    rfl
  have closed : upToClosing '(' ')' ((0 : Nat) + 1) (textOf migration.call.arguments ++
      ')' :: behind) = some (textOf migration.call.arguments ++ [')']) :=
    upToClosing_balanced (by decide) plain.brackets behind
  have opened : upToClosing '(' ')' 0 ('(' :: (textOf migration.call.arguments ++ ')' :: behind)) =
      some ('(' :: (textOf migration.call.arguments ++ [')'])) := by
    rw [upToClosing, if_pos (by rfl)]
    exact congrArg (Option.map ('(' :: ·)) closed
  rw [closedText, read, text, upToClosing_append, opened]
  · simp only [Call.lexemes, textOf_append, textOf_cons, textOf_nil]
    rfl
  · intro char member
    have apart : char ≠ '(' ∧ char ≠ ')' := by
      rw [callee, List.mem_append, List.mem_append] at member
      rcases member with (prefixed | named) | blank
      · have prefixes : "op.".toList.all (fun char => char != '(' && char != ')') = true := rfl
        simpa using List.all_eq_true.mp prefixes char prefixed
      · simpa using List.all_eq_true.mp operation char named
      · constructor <;> rintro rfl <;> exact absurd (blanks _ blank) (by decide)
    exact apart.imp beq_eq_false_iff_ne.mpr beq_eq_false_iff_ne.mpr

/-- The keywords of a call are those of its arguments. -/
theorem hasKeyword_call (call : Call) {keyword : Text} (value : Text)
    (noOp : "op".toList ≠ keyword) (noOperation : call.operation ≠ keyword) :
    hasKeyword Lexeme.insignificant keyword value call.lexemes =
      hasKeyword Lexeme.insignificant keyword value call.arguments := by
  have gaps : Lexeme.name keyword ∉ call.beforeDot ++ call.behindDot ++ call.beforeArguments :=
    fun listed => Bool.false_ne_true (List.all_eq_true.mp call.spread _ listed)
  simp only [List.mem_append, not_or] at gaps
  have callee : Lexeme.name keyword ∉ call.callee ++ [.mark "(".toList] := by
    simp only [Call.callee, List.mem_append, List.mem_cons, List.not_mem_nil, or_false,
      Lexeme.name.injEq, reduceCtorEq, false_or, not_or]
    exact ⟨noOp.symm, gaps.1.1, gaps.1.2, noOperation.symm, gaps.2⟩
  rw [Call.lexemes, ← List.singleton_append, ← List.append_assoc, hasKeyword_append callee,
    hasKeyword_close (by decide) rfl]

/-- The text up to its closing shows a keyword if and only if the call's own arguments have it. -/
theorem shows_closedText (plain : Plain migration keywords) {keyword value : String}
    (listed : (keyword.toList, value.toList) ∈ keywords)
    (asked : Keyword keyword.toList value.toList)
    (operation : migration.call.operation.all (fun char => char != '(' && char != ')') = true)
    (noOp : "op".toList ≠ keyword.toList)
    (noOperation : migration.call.operation ≠ keyword.toList) :
    shows keyword value (closedText migration.readText) =
      hasKeyword Lexeme.insignificant keyword.toList value.toList migration.call.arguments := by
  rw [closedText_eq plain operation, shows,
    found_textOf whitespace_isSpace asked (lexed_call migration) (plain.looks _ listed)
      (plain.parts _ listed), hasKeyword_call _ _ noOp noOperation]

/-- An added column that stands plainly in the text is not misread. -/
theorem not_misreadColumn_of_plain (called : migration.call.operation = "add_column".toList)
    (plain : Plain migration
      [("nullable".toList, "False".toList), ("server_default".toList, "".toList)]) :
    ¬MisreadColumn migration := by
  have nullable := shows_closedText plain List.mem_cons_self keyword_nullable (called ▸ by decide)
    (by decide) (called ▸ by decide)
  have default := shows_closedText plain (List.mem_cons_of_mem _ List.mem_cons_self)
    keyword_serverDefault (called ▸ by decide) (by decide) (called ▸ by decide)
  have judged : migration.call.lacksDefault =
      (shows "nullable" "False" (closedText migration.readText) &&
        !shows "server_default" "" (closedText migration.readText)) := by
    rw [nullable, default]
    rfl
  rintro (⟨-, unwritten⟩ | ⟨lacks, unseen⟩ | ⟨lacks, seen⟩ | ⟨has, -, shown, unseen⟩)
  · exact unwritten (written_of_plain plain called)
  · rw [judged, unseen] at lacks
    cases lacks
  · rw [judged, seen, Bool.not_true, Bool.and_false] at lacks
    cases lacks
  · rw [judged, shown, unseen] at has
    cases has

/-- A created index that stands plainly in the text is misread only by the count of parentheses
that is to tell whether it stands in an `op.create_table`. -/
theorem misreadIndex_iff_of_plain (called : migration.call.operation = "create_index".toList)
    (plain : Plain migration [("postgresql_concurrently".toList, "True".toList)]) :
    MisreadIndex migration ↔ migration.call.lacksConcurrently = true ∧
      isInsideCreateTable migration.content migration.position = true := by
  have concurrently := shows_closedText plain List.mem_cons_self keyword_concurrently
    (called ▸ by decide) (by decide) (called ▸ by decide)
  have judged : migration.call.lacksConcurrently =
      !shows "postgresql_concurrently" "True" (closedText migration.readText) := by
    rw [concurrently]
    rfl
  constructor
  · rintro (⟨-, unwritten⟩ | ⟨lacks, inside⟩ | ⟨lacks, seen⟩ | ⟨has, -, -, unseen⟩)
    · exact absurd (written_of_plain plain called) unwritten
    · exact ⟨lacks, inside⟩
    · rw [judged, seen] at lacks
      cases lacks
    · rw [judged, unseen] at has
      cases has
  · rintro ⟨lacks, inside⟩
    exact .skipped lacks inside

end Found

/-! ### What is reported -/

section Reported

variable {content : Text} {position : Nat} (tables : UnicodeTables) (filepath : String)
  (regular : isInitialMigration tables content = false)

include regular

/-- An added column is reported where one is written whose text shows `nullable=False` and no
`server_default`. -/
theorem column_reported_iff :
    ReportedAt tables content filepath "ADD_COLUMN_NOT_NULL_NO_DEFAULT" position ↔
      Written "add_column" (readFrom content position) ∧
        shows "nullable" "False" (closedText (readFrom content position)) = true ∧
        shows "server_default" "" (closedText (readFrom content position)) = false := by
  refine (exists_congr fun finding => mem_addColumn_iff).trans ?_
  rw [regular]
  cases extracted : extractUpgradeBody content with
  | none =>
    rw [readFrom, extracted]
    refine ⟨?_, ?_⟩
    · rintro ⟨_, _, ⟨⟩, -⟩
    · exact fun reported => absurd reported.1 (not_written_nil _)
  | some upgradeBody =>
    simp only [Option.some.injEq, exists_eq_left', checkAddColumnNotNull, if_neg Bool.false_ne_true]
    have unlike : Unlike ("p.".toList ++ "add_column".toList) := by decide
    refine (mem_findingsOf_position extracted unlike (by decide) filepath _ _ _).trans ?_
    refine and_congr_right fun written => ?_
    rw [closedText_readFrom extracted written, search_nullable, search_serverDefault,
      Bool.and_eq_true, Bool.not_eq_true']

/-- A created index is reported where one is written that is not taken to stand in an
`op.create_table` and whose text does not show `postgresql_concurrently=True`. -/
theorem index_reported_iff :
    ReportedAt tables content filepath "CREATE_INDEX_WITHOUT_CONCURRENTLY" position ↔
      Written "create_index" (readFrom content position) ∧
        isInsideCreateTable content position = false ∧
        shows "postgresql_concurrently" "True" (closedText (readFrom content position)) =
          false := by
  refine (exists_congr fun finding => mem_createIndex_iff).trans ?_
  rw [regular]
  cases extracted : extractUpgradeBody content with
  | none =>
    rw [readFrom, extracted]
    refine ⟨?_, ?_⟩
    · rintro ⟨_, _, ⟨⟩, -⟩
    · exact fun reported => absurd reported.1 (not_written_nil _)
  | some upgradeBody =>
    simp only [Option.some.injEq, exists_eq_left', checkCreateIndexWithoutConcurrently,
      if_neg Bool.false_ne_true]
    have unlike : Unlike ("p.".toList ++ "create_index".toList) := by decide
    refine (mem_findingsOf_position extracted unlike (by decide) filepath _ _ _).trans ?_
    refine and_congr_right fun written => ?_
    rw [closedText_readFrom extracted written, search_concurrently, Bool.and_eq_true,
      Bool.not_eq_true', Bool.not_eq_true']

end Reported

instance (tables : UnicodeTables) (content : Text) (filepath pattern : String) (position : Nat) :
    Decidable (ReportedAt tables content filepath pattern position) :=
  decidable_of_iff ((placedFindings tables content filepath).any (fun entry =>
      entry.1 = position ∧ entry.2.pattern = pattern) = true) <| by
    simp only [List.any_eq_true, decide_eq_true_eq, Prod.exists, ReportedAt]
    exact ⟨fun ⟨_, finding, member, same, named⟩ => ⟨finding, same ▸ member, named⟩,
      fun ⟨finding, member, named⟩ => ⟨position, finding, member, rfl, named⟩⟩

/-! ### Files -/

/-- The characters of the files below are all ASCII. -/
def plainTables : UnicodeTables := ⟨fun _ => none, fun _ => false⟩

/-- A call written without gaps. -/
def plainCall (operation : String) (arguments : List Lexeme)
    (closed : balanced '(' ')' 0 (delimiters arguments) = true) : Call where
  operation := operation.toList
  beforeDot := []
  behindDot := []
  beforeArguments := []
  arguments := arguments
  spread := rfl
  closed := closed

def indent : List Lexeme := [.blank "\n    ".toList]

def comma : List Lexeme := [.mark ",".toList, .blank " ".toList]

/-- A file whose `upgrade` has one call. -/
def upgradeWith (lead : List Lexeme) (call : Call) (after : List Lexeme) : Parts where
  outer := []
  behindDef := [.blank " ".toList]
  behindName := []
  parameters := []
  annotation := [.blank " ".toList, .mark "->".toList, .blank " ".toList, .name "None".toList]
  lead := lead
  call := call
  after := after

/-- A keyword argument. -/
def keywordArgument (keyword : String) (value : Lexeme) : List Lexeme :=
  [.name keyword.toList, .mark "=".toList, value]

def required : List Lexeme := keywordArgument "nullable" (.name "False".toList)

/-- The arguments `'users', sa.Column('email', …)` with more arguments of the column. -/
def columnArguments (options : List Lexeme) : List Lexeme :=
  .literal "'users'".toList :: comma ++ [.name "sa".toList, .mark ".".toList,
    .name "Column".toList, .mark "(".toList, .literal "'email'".toList] ++ comma ++ options ++
    [.mark ")".toList]

/-- The arguments `'ix', 'users', …` of an index. -/
def indexArguments (options : List Lexeme) : List Lexeme :=
  .literal "'ix'".toList :: comma ++ .literal "'users'".toList :: options

/-- `op.add_column('users', sa.Column('email', comment='(new)', nullable=False))`. -/
def requiredColumn : Migration where
  toParts := upgradeWith indent (plainCall "add_column" (columnArguments (keywordArgument "comment"
    (.literal "'(new)'".toList) ++ comma ++ required)) (by decide)) indent
  lexed := by decide

/-- `op.create_index('ix', 'users', postgresql_concurrently=True)`. -/
def concurrentIndex : Migration where
  toParts := upgradeWith indent (plainCall "create_index" (indexArguments (comma ++
    keywordArgument "postgresql_concurrently" (.name "True".toList))) (by decide)) indent
  lexed := by decide

/-- The parentheses of a literal, `comment=':))'`, close the call before `nullable=False`. -/
def quotedParentheses : Migration where
  toParts := upgradeWith indent (plainCall "add_column" (columnArguments
    (keywordArgument "comment" (.literal "':))'".toList) ++ comma ++ required)) (by decide)) indent
  lexed := by decide

/-- A comment in the call mentions `nullable=False`. -/
def mentioned : Migration where
  toParts := upgradeWith indent (plainCall "add_column" (columnArguments
    (.comment "# no nullable=False".toList :: indent)) (by decide)) indent
  lexed := by decide

/-- The keyword and its equals sign stand on two joined lines. -/
def joined : Migration where
  toParts := upgradeWith indent (plainCall "add_column" (columnArguments [.name "nullable".toList,
    .joint, .mark "=".toList, .name "False".toList]) (by decide)) indent
  lexed := by decide

/-- `op .add_column(…)`. -/
def spaced : Migration where
  toParts := upgradeWith indent { plainCall "add_column" (columnArguments required) (by decide) with
    beforeDot := [.blank " ".toList]
    spread := rfl } indent
  lexed := by decide

/-- The header has a comment behind its colon. -/
def commentedHeader : Migration where
  toParts := upgradeWith (.blank " ".toList :: .comment "# adds".toList :: indent)
    (plainCall "add_column" (columnArguments required) (by decide)) indent
  lexed := by decide

/-- A literal before the call has a line that begins as a function. -/
def quotedFunction : Migration where
  toParts := upgradeWith (indent ++ .literal "'''\ndef x'''".toList :: indent)
    (plainCall "add_column" (columnArguments required) (by decide)) indent
  lexed := by decide

/-- `op.create_table('users', op.create_index('ix', 'users'))`. -/
def indexInTable : Migration where
  toParts := upgradeWith (indent ++ [.name "op".toList, .mark ".".toList,
      .name "create_table".toList, .mark "(".toList, .literal "'users'".toList] ++ comma)
    (plainCall "create_index" (indexArguments []) (by decide)) (.mark ")".toList :: indent)
  lexed := by decide

theorem requiredColumn_plain : Plain requiredColumn
    [("nullable".toList, "False".toList), ("server_default".toList, "".toList)] where
  behindDef := rfl
  behindName := rfl
  parameters := rfl
  annotation := by decide +kernel
  newline := by decide +kernel
  line := by decide +kernel
  first := by decide +kernel
  body := by decide +kernel
  offset := by decide +kernel
  beforeDot := rfl
  behindDot := rfl
  beforeArguments := rfl
  brackets := by decide +kernel
  looks := by decide +kernel
  parts := by decide +kernel

theorem concurrentIndex_plain : Plain concurrentIndex
    [("postgresql_concurrently".toList, "True".toList)] where
  behindDef := rfl
  behindName := rfl
  parameters := rfl
  annotation := by decide +kernel
  newline := by decide +kernel
  line := by decide +kernel
  first := by decide +kernel
  body := by decide +kernel
  offset := by decide +kernel
  beforeDot := rfl
  behindDot := rfl
  beforeArguments := rfl
  brackets := by decide +kernel
  looks := by decide +kernel
  parts := by decide +kernel

end MigrationLint

end InsuranceOps
