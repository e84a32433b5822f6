/-
This file models the migration lint: the cut of the body of `upgrade` out of a
migration file, the end of a statement by counting parentheses, and the four
checks that search the body for operations. Each finding is kept with the
absolute position it is made at. Every finding names the file and the line of its
position, and an initial migration has none.
-/

import InsuranceOps.Extractor
import InsuranceOps.Library.Occurrences

namespace InsuranceOps

open Backtracking Scanning

namespace MigrationLint

/-! ### Patterns -/

def newline : Char := Char.ofNat 10

/-- `\s*`. -/
def spaces : Expression Char := .repeated FloatValue.isSpace 0 none

/-- A call `op.operation\s*\(`. -/
def callRe (operation : String) : Expression Char :=
  .seq (exactly ("op.".toList ++ operation.toList)) (.seq spaces (exactly "(".toList))

/-- A keyword argument `keyword\s*=\s*value`. -/
def keywordRe (keyword value : String) : Expression Char :=
  .seq (exactly keyword.toList) (.seq spaces
    (.seq (exactly "=".toList) (.seq spaces (exactly value.toList))))

def createIndexRe : Expression Char := callRe "create_index"

def concurrentlyRe : Expression Char := keywordRe "postgresql_concurrently" "True"

def addColumnRe : Expression Char := callRe "add_column"

def nullableFalseRe : Expression Char := keywordRe "nullable" "False"

/-- `server_default\s*=`. -/
def serverDefaultRe : Expression Char :=
  .seq (exactly "server_default".toList) (.seq spaces (exactly "=".toList))

def dropColumnRe : Expression Char := callRe "drop_column"

def dropTableRe : Expression Char := callRe "drop_table"

def opExecuteRe : Expression Char := callRe "execute"

/-- The initial migration marker up to its `\b`. -/
def initialMigrationRe : Expression Char :=
  .seq (exactly "down_revision".toList) (.seq spaces
    (.seq (.one fun char => char = '=' ∨ char = ':') (.seq spaces
      (.seq (.optional (.seq (exactly "Union[str,".toList) (.seq spaces
          (.seq (exactly "None]".toList) (.seq spaces (.seq (exactly "=".toList) spaces))))))
        (exactly "None".toList)))))

section Tables

variable (tables : UnicodeTables)

/-- `INSERT\s+INTO`, `UPDATE\s+\w` or `DELETE\s+FROM`, ignoring case. -/
def dataManipRe : Expression Char :=
  .alt (.seq (word "INSERT") (.seq (.repeated FloatValue.isSpace 1 none) (word "INTO")))
    (.alt (.seq (word "UPDATE") (.seq (.repeated FloatValue.isSpace 1 none) (.one tables.isWord)))
      (.seq (word "DELETE") (.seq (.repeated FloatValue.isSpace 1 none) (word "FROM"))))

/-- The initial migration marker stands somewhere, and its last word ends there. -/
def isInitialMigration (content : Text) : Bool :=
  found (fun text => (initialMigrationRe.ahead (fun rest =>
    if rest.head?.any tables.isWord then none else some ()) text).isSome) content

end Tables

/-! ### Parts of a file -/

/-- What stands between the colon at the end of a line that follows `def upgrade()` and the next
line that begins with `def `. -/
def readUpgrade (text : Text) : Option Text :=
  let header := "def upgrade()".toList
  if header.isPrefixOf text then
    (behindFirst ":\n".toList (text.drop header.length)).map
      (upToLine newline "def ".toList.isPrefixOf true)
  else none

/-- `_extract_upgrade_body`. -/
def extractUpgradeBody (content : Text) : Option Text := firstLine newline readUpgrade true content

/-- The text from the last place on where a part stands. -/
def fromLast (part : Text) : Text → Option Text
  | [] => none
  | char :: text =>
    (fromLast part text).or (if part.isPrefixOf (char :: text) then some (char :: text) else none)

/-- `_is_inside_create_table`: the last `op.create_table(` before the position is not closed by
then. -/
def isInsideCreateTable (content : Text) (matchStart : Nat) : Bool :=
  match fromLast "op.create_table(".toList (content.take matchStart) with
  | none => false
  | some segment =>
    0 < segment.foldl (fun (depth : Int) char =>
      if char = '(' then depth + 1 else if char = ')' then depth - 1 else depth) 0

/-- `_get_line_number`. -/
def getLineNumber (content : Text) (position : Nat) : Nat :=
  (content.take position).count newline + 1

/-- The text of the statement at a position of the body; a statement that is never closed has
none. -/
def statementText (upgradeBody : Text) (start : Nat) : Text :=
  (upToClosing '(' ')' 0 (upgradeBody.drop start)).getD []

/-- `content.find(upgrade_body)`; the body is part of the file. -/
def bodyOffset (content upgradeBody : Text) : Nat := (find upgradeBody content).getD 0

/-! ### Checks -/

/-- A single lint finding. -/
structure Finding where
  file : String
  line : Nat
  pattern : String
  message : String
  severity : String := "warning"
  deriving DecidableEq

/-- Result of checking a single migration file. -/
structure CheckResult where
  file : String
  findings : List Finding := []
  isInitial : Bool := false
  deriving DecidableEq

section Checks

variable (tables : UnicodeTables) (content upgradeBody : Text) (filepath : String)
  (isInitial : Bool)

/-- The loop of a check: for each match of a call in the body that is to be reported, its absolute
position and the finding there. -/
def findingsOf (call : Expression Char) (reported : Nat → Nat → Bool) (pattern message : String) :
    List (Nat × Finding) :=
  let offset := bodyOffset content upgradeBody
  (call.finditer upgradeBody).filterMap fun start =>
    let absPos := offset + start
    if reported absPos start then
      some (absPos, {
        file := filepath
        line := getLineNumber content absPos
        pattern := pattern
        message := message })
    else none

/-- `_check_create_index_without_concurrently`. -/
def checkCreateIndexWithoutConcurrently : List (Nat × Finding) :=
  if isInitial then [] else
    findingsOf content upgradeBody filepath createIndexRe
      (fun absPos start => !isInsideCreateTable content absPos &&
        !(concurrentlyRe.search (statementText upgradeBody start)).isSome)
      "CREATE_INDEX_WITHOUT_CONCURRENTLY"
      ("op.create_index() on an existing table without " ++
        "postgresql_concurrently=True may hold a long lock")

/-- `_check_add_column_not_null`. -/
def checkAddColumnNotNull : List (Nat × Finding) :=
  if isInitial then [] else
    findingsOf content upgradeBody filepath addColumnRe
      (fun _ start => (nullableFalseRe.search (statementText upgradeBody start)).isSome &&
        !(serverDefaultRe.search (statementText upgradeBody start)).isSome)
      "ADD_COLUMN_NOT_NULL_NO_DEFAULT"
      ("op.add_column() with nullable=False and no server_default " ++
        "will lock the table for a full rewrite on large tables")

/-- `_check_drop_operations`. -/
def checkDropOperations : List (Nat × Finding) :=
  if isInitial then [] else
    findingsOf content upgradeBody filepath dropColumnRe (fun _ _ => true)
      "DROP_COLUMN"
      ("op.drop_column() should follow expand-migrate-contract. " ++
        "Ensure this is the 'contract' phase with prior expand and migrate steps.") ++
    findingsOf content upgradeBody filepath dropTableRe (fun _ _ => true)
      "DROP_TABLE"
      ("op.drop_table() is destructive. Ensure this follows " ++
        "expand-migrate-contract discipline.")

/-- `_check_data_manipulation`. -/
def checkDataManipulation : List (Nat × Finding) :=
  if isInitial then [] else
    findingsOf content upgradeBody filepath opExecuteRe
      (fun _ start => ((dataManipRe tables).search (statementText upgradeBody start)).isSome)
      "DML_IN_MIGRATION"
      ("Data manipulation (INSERT/UPDATE/DELETE) in a DDL migration. " ++
        "Consider separating data migrations into their own idempotent script.")

/-- The findings of all checks with their positions. -/
def placedFindings : List (Nat × Finding) :=
  let isInitial := isInitialMigration tables content
  match extractUpgradeBody content with
  | none => []
  | some upgradeBody =>
    checkCreateIndexWithoutConcurrently content upgradeBody filepath isInitial ++
      checkAddColumnNotNull content upgradeBody filepath isInitial ++
      checkDropOperations content upgradeBody filepath isInitial ++
      checkDataManipulation tables content upgradeBody filepath isInitial

/-- `check_migration_file` of a file that has been read. -/
def checkMigrationFile : CheckResult where
  file := filepath
  findings := (placedFindings tables content filepath).map Prod.snd
  isInitial := isInitialMigration tables content

end Checks

/-- The body stands in the file at its offset. -/
theorem extractUpgradeBody_within {content upgradeBody : Text}
    (extracted : extractUpgradeBody content = some upgradeBody) :
    ∃ before behind, content = before ++ (upgradeBody ++ behind) ∧
      before.length = bodyOffset content upgradeBody := by
  obtain ⟨line, within, read⟩ := firstLine_eq_some extracted
  rw [readUpgrade, Option.ite_none_right_eq_some, Option.map_eq_some_iff] at read
  obtain ⟨-, behind, colon, rfl⟩ := read
  have suffix := ((behindFirst_suffix colon).trans (List.drop_suffix _ _)).trans within
  obtain ⟨offset, found⟩ := Option.isSome_iff_exists.mp
    (find_isSome ((upToLine_within "def ".toList.isPrefixOf true behind).isInfix.trans
      suffix.isInfix))
  rw [bodyOffset, found]
  exact find_eq_some found

/-! ### Findings -/

section Findings

variable {tables : UnicodeTables} {content upgradeBody : Text} {filepath : String}

/-- What a finding of a check says. -/
theorem mem_findingsOf_iff {call : Expression Char} {reported : Nat → Nat → Bool}
    {pattern message : String} {entry : Nat × Finding} :
    entry ∈ findingsOf content upgradeBody filepath call reported pattern message ↔
      ∃ start ∈ call.finditer upgradeBody,
        reported (bodyOffset content upgradeBody + start) start = true ∧
        entry = (bodyOffset content upgradeBody + start, {
          file := filepath
          line := getLineNumber content (bodyOffset content upgradeBody + start)
          pattern := pattern
          message := message }) := by
  simp only [findingsOf, List.mem_filterMap, Option.ite_none_right_eq_some, Option.some.injEq,
    eq_comm (a := entry)]

/-- A finding names the file and the line of its position, and its pattern is the check's. -/
structure Placed (content : Text) (filepath : String) (patterns : List String)
    (entry : Nat × Finding) : Prop where
  file : entry.2.file = filepath
  line : entry.2.line = getLineNumber content entry.1
  pattern : entry.2.pattern ∈ patterns
  severity : entry.2.severity = "warning"

theorem Placed.mono {patterns others : List String} {entry : Nat × Finding}
    (placed : Placed content filepath patterns entry) (within : patterns ⊆ others) :
    Placed content filepath others entry :=
  { placed with pattern := within placed.pattern }

theorem placed_of_mem {call : Expression Char} {reported : Nat → Nat → Bool}
    {pattern message : String} {entry : Nat × Finding}
    (member : entry ∈ findingsOf content upgradeBody filepath call reported pattern message) :
    Placed content filepath [pattern] entry := by
  obtain ⟨start, -, -, rfl⟩ := mem_findingsOf_iff.mp member
  exact ⟨rfl, rfl, List.mem_cons_self, rfl⟩

theorem placed_createIndex {isInitial : Bool} {entry : Nat × Finding} (member : entry ∈
      checkCreateIndexWithoutConcurrently content upgradeBody filepath isInitial) :
    isInitial = false ∧ Placed content filepath ["CREATE_INDEX_WITHOUT_CONCURRENTLY"] entry := by
  cases isInitial with
  | true => cases member
  | false =>
    rw [checkCreateIndexWithoutConcurrently, if_neg Bool.false_ne_true] at member
    exact ⟨rfl, placed_of_mem member⟩

theorem placed_addColumn {isInitial : Bool} {entry : Nat × Finding}
    (member : entry ∈ checkAddColumnNotNull content upgradeBody filepath isInitial) :
    isInitial = false ∧ Placed content filepath ["ADD_COLUMN_NOT_NULL_NO_DEFAULT"] entry := by
  cases isInitial with
  | true => cases member
  | false =>
    rw [checkAddColumnNotNull, if_neg Bool.false_ne_true] at member
    exact ⟨rfl, placed_of_mem member⟩

theorem placed_drop {isInitial : Bool} {entry : Nat × Finding}
    (member : entry ∈ checkDropOperations content upgradeBody filepath isInitial) :
    isInitial = false ∧ Placed content filepath ["DROP_COLUMN", "DROP_TABLE"] entry := by
  cases isInitial with
  | true => cases member
  | false =>
    rcases List.mem_append.mp member with column | table
    · exact ⟨rfl, (placed_of_mem column).mono (by decide)⟩
    · exact ⟨rfl, (placed_of_mem table).mono (by decide)⟩

theorem placed_dataManipulation {isInitial : Bool} {entry : Nat × Finding}
    (member : entry ∈ checkDataManipulation tables content upgradeBody filepath isInitial) :
    isInitial = false ∧ Placed content filepath ["DML_IN_MIGRATION"] entry := by
  cases isInitial with
  | true => cases member
  | false =>
    rw [checkDataManipulation, if_neg Bool.false_ne_true] at member
    exact ⟨rfl, placed_of_mem member⟩

/-- The findings of a file are those of its checks. -/
theorem mem_placedFindings_iff {entry : Nat × Finding} :
    entry ∈ placedFindings tables content filepath ↔
      ∃ upgradeBody, extractUpgradeBody content = some upgradeBody ∧
        (entry ∈ checkCreateIndexWithoutConcurrently content upgradeBody filepath
            (isInitialMigration tables content) ∨
          entry ∈ checkAddColumnNotNull content upgradeBody filepath
            (isInitialMigration tables content) ∨
          entry ∈ checkDropOperations content upgradeBody filepath
            (isInitialMigration tables content) ∨
          entry ∈ checkDataManipulation tables content upgradeBody filepath
            (isInitialMigration tables content)) := by
  unfold placedFindings
  cases extractUpgradeBody content with
  | none => simp
  | some upgradeBody => simp

/-- Every finding of a file is made in a file that is no initial migration, and names the file and
the line of its position. -/
theorem placed_of_mem_placedFindings {entry : Nat × Finding}
    (member : entry ∈ placedFindings tables content filepath) :
    isInitialMigration tables content = false ∧ Placed content filepath
      ["CREATE_INDEX_WITHOUT_CONCURRENTLY", "ADD_COLUMN_NOT_NULL_NO_DEFAULT", "DROP_COLUMN",
        "DROP_TABLE", "DML_IN_MIGRATION"] entry := by
  obtain ⟨upgradeBody, -, index | column | drop | data⟩ := mem_placedFindings_iff.mp member
  · exact (placed_createIndex index).imp_right (·.mono (by decide))
  · exact (placed_addColumn column).imp_right (·.mono (by decide))
  · exact (placed_drop drop).imp_right (·.mono (by decide))
  · exact (placed_dataManipulation data).imp_right (·.mono (by decide))

/-- The findings of the check for added columns are those with its pattern. -/
theorem mem_addColumn_iff {entry : Nat × Finding} :
    (entry ∈ placedFindings tables content filepath ∧
        entry.2.pattern = "ADD_COLUMN_NOT_NULL_NO_DEFAULT") ↔
      ∃ upgradeBody, extractUpgradeBody content = some upgradeBody ∧
        entry ∈ checkAddColumnNotNull content upgradeBody filepath
          (isInitialMigration tables content) := by
  rw [mem_placedFindings_iff]
  constructor
  · rintro ⟨⟨upgradeBody, extracted, member⟩, pattern⟩
    refine ⟨upgradeBody, extracted, ?_⟩
    rcases member with index | column | drop | data
    · exact absurd (pattern ▸ (placed_createIndex index).2.pattern) (by decide)
    · exact column
    · exact absurd (pattern ▸ (placed_drop drop).2.pattern) (by decide)
    · exact absurd (pattern ▸ (placed_dataManipulation data).2.pattern) (by decide)
  · rintro ⟨upgradeBody, extracted, column⟩
    exact ⟨⟨upgradeBody, extracted, .inr (.inl column)⟩,
      List.mem_singleton.mp (placed_addColumn column).2.pattern⟩

/-- The findings of the check for created indexes are those with its pattern. -/
theorem mem_createIndex_iff {entry : Nat × Finding} :
    (entry ∈ placedFindings tables content filepath ∧
        entry.2.pattern = "CREATE_INDEX_WITHOUT_CONCURRENTLY") ↔
      ∃ upgradeBody, extractUpgradeBody content = some upgradeBody ∧
        entry ∈ checkCreateIndexWithoutConcurrently content upgradeBody filepath
          (isInitialMigration tables content) := by
  rw [mem_placedFindings_iff]
  constructor
  · rintro ⟨⟨upgradeBody, extracted, member⟩, pattern⟩
    refine ⟨upgradeBody, extracted, ?_⟩
    rcases member with index | column | drop | data
    · exact index
    · exact absurd (pattern ▸ (placed_addColumn column).2.pattern) (by decide)
    · exact absurd (pattern ▸ (placed_drop drop).2.pattern) (by decide)
    · exact absurd (pattern ▸ (placed_dataManipulation data).2.pattern) (by decide)
  · rintro ⟨upgradeBody, extracted, index⟩
    exact ⟨⟨upgradeBody, extracted, .inl index⟩,
      List.mem_singleton.mp (placed_createIndex index).2.pattern⟩

end Findings

/-! ### Matches of the patterns -/

section Matches

variable {Result : Type}

/-- `\s*` before a text that does not begin with whitespace takes all of it. -/
theorem ahead_spaces {expected next : Text → Option Result} {first : Char} {rest text : Text}
    (begins : ∀ text, expected text = (exactly (first :: rest)).ahead next text)
    (visible : FloatValue.isSpace first = false) :
    spaces.ahead expected text =
      (exactly (first :: rest)).ahead next (text.dropWhile FloatValue.isSpace) := by
  have refused (char : Char) (behind : Text) (space : FloatValue.isSpace char = true) :
      expected (char :: behind) = none := by
    have other : (first == char) = false := beq_eq_false_iff_ne.mpr fun same => by
      rw [same, space] at visible
      cases visible
    rw [begins, ahead_exactly, List.isPrefixOf, other, Bool.false_and, if_neg Bool.false_ne_true]
  rw [spaces, ahead_repeated refused, if_pos ⟨Nat.zero_le _, rfl⟩, begins]

/-- A call is matched up to its parenthesis. -/
theorem callRe_leaves_iff {operation : String} {text behind : Text} :
    (callRe operation).leaves text = some behind ↔ ∃ gap : Text,
      (∀ char ∈ gap, FloatValue.isSpace char = true) ∧
        text = "op.".toList ++ operation.toList ++ (gap ++ '(' :: behind) := by
  have opening (text : Text) : spaces.ahead ((exactly "(".toList).ahead some) text =
      (exactly ['(']).ahead some (text.dropWhile FloatValue.isSpace) :=
    ahead_spaces (fun _ => rfl) rfl
  rw [Expression.leaves, callRe, ahead_seq, ahead_exactly, Option.ite_none_right_eq_some,
    List.isPrefixOf_iff_prefix, ahead_seq, opening, ahead_exactly, Option.ite_none_right_eq_some,
    List.isPrefixOf_iff_prefix]
  constructor
  · rintro ⟨⟨rest, rfl⟩, ⟨after, opened⟩, left⟩
    rw [List.drop_left] at opened left
    rw [← opened] at left
    cases left
    refine ⟨rest.takeWhile FloatValue.isSpace, fun char member => List.mem_takeWhile_imp member, ?_⟩
    have opened : '(' :: after = rest.dropWhile FloatValue.isSpace := opened
    rw [show List.drop ['('].length (['('] ++ after) = after from rfl, opened,
      List.takeWhile_append_dropWhile]
  · rintro ⟨gap, spaces, rfl⟩
    rw [List.drop_left, List.dropWhile_append_of_pos spaces]
    exact ⟨List.prefix_append _ _, List.prefix_append ['('] behind, rfl⟩

end Matches

end MigrationLint

end InsuranceOps
