/-
This file models the stub extractor. It decodes a document as UTF-8, putting a
replacement character where the bytes are malformed, and searches the text with
one regular expression for each of five fields. What it finds carries a fixed
confidence and says where in the text it stands.
-/

import InsuranceOps.Loaded
import InsuranceOps.Library.Backtracking
import InsuranceOps.Library.Dictionary
import Mathlib.Data.List.TakeWhile

namespace InsuranceOps

open Backtracking

/-! ### Decoding -/

/-- The replacement character, put where bytes are no UTF-8. -/
def replacementChar : Char := Char.ofNat 0xFFFD

/-- Whether a byte lies in a range. -/
def byteIn (low high byte : UInt8) : Bool := low ≤ byte ∧ byte ≤ high

/-- A sequence that has begun: the bits it has given, how many bytes it still needs, and which
bytes can come next. -/
structure Pending where
  bits : Nat
  needed : Nat
  accepts : UInt8 → Bool

/-- The sequence of several bytes a first byte begins, if it can begin one. -/
def Pending.ofFirst (byte : UInt8) : Option Pending :=
  if byteIn 0xC2 0xDF byte then some ⟨byte.toNat % 32, 1, byteIn 0x80 0xBF⟩
  else if byte = 0xE0 then some ⟨0, 2, byteIn 0xA0 0xBF⟩
  else if byte = 0xED then some ⟨13, 2, byteIn 0x80 0x9F⟩
  else if byteIn 0xE1 0xEF byte then some ⟨byte.toNat % 16, 2, byteIn 0x80 0xBF⟩
  else if byte = 0xF0 then some ⟨0, 3, byteIn 0x90 0xBF⟩
  else if byteIn 0xF1 0xF3 byte then some ⟨byte.toNat % 8, 3, byteIn 0x80 0xBF⟩
  else if byte = 0xF4 then some ⟨4, 3, byteIn 0x80 0x8F⟩
  else none

/-- What a byte gives where a character begins, and the sequence it begins. -/
def firstByte (byte : UInt8) : Text × Option Pending :=
  if byte < 0x80 then ([Char.ofNat byte.toNat], none)
  else match Pending.ofFirst byte with
    | some pending => ([], some pending)
    | none => ([replacementChar], none)

/-- What a byte gives inside a sequence, and the sequence that goes on. A byte that does not fit
replaces what has begun as a whole and is read anew. -/
def nextByte (pending : Pending) (byte : UInt8) : Text × Option Pending :=
  if pending.accepts byte then
    let bits := pending.bits * 64 + byte.toNat % 64
    if pending.needed = 1 then ([Char.ofNat bits], none)
    else ([], some ⟨bits, pending.needed - 1, byteIn 0x80 0xBF⟩)
  else
    let (chars, began) := firstByte byte
    (replacementChar :: chars, began)

def decodeFrom : Option Pending → List UInt8 → Text
  | none, [] => []
  | some _, [] => [replacementChar]
  | began, byte :: rest =>
    let (chars, goesOn) := match began with
      | none => firstByte byte
      | some pending => nextByte pending byte
    chars ++ decodeFrom goesOn rest

/-- `content.decode("utf-8", errors="replace")`. -/
def decodeReplace (content : List UInt8) : Text := decodeFrom none content

example : decodeReplace [0x41, 0xE2, 0x82, 0xAC, 0xE2, 0x82, 0x42, 0xC0, 0xF0, 0x9F] =
    ['A', Char.ofNat 0x20AC, replacementChar, 'B', replacementChar, replacementChar] := by
  decide +kernel

/-! ### Patterns -/

/-- What the program takes from the Unicode tables of its runtime outside ASCII: the values of
decimal digits, and which characters `str.isalnum` has. -/
structure UnicodeTables where
  decimalValue : Char → Option Nat
  isAlnum : Char → Bool

/-- Whether a character matches another one when case is ignored. Some letters outside ASCII have
an ASCII letter as their other case. -/
def ignoringCase (pattern char : Char) : Bool :=
  char.toLower = pattern.toLower ∨
    (pattern.toLower = 'i' ∧ char.toNat ∈ [0x130, 0x131]) ∨
    (pattern.toLower = 's' ∧ char.toNat = 0x17F) ∨ (pattern.toLower = 'k' ∧ char.toNat = 0x212A)

/-- `[A-Z]` when case is ignored. -/
def isLetter (char : Char) : Bool :=
  char.isAlpha ∨ char.toNat ∈ [0x130, 0x131, 0x17F, 0x212A]

/-- A literal text when case is ignored. -/
def literal : Text → Expression Char
  | [] => .repeated (fun _ => false) 0 none
  | char :: rest => .seq (.one (ignoringCase char)) (literal rest)

def word (text : String) : Expression Char := literal text.toList

/-- A pattern: what leads up to a value, and the value. -/
structure Pattern where
  lead : Expression Char
  value : Expression Char

def Pattern.expression (pattern : Pattern) : Expression Char :=
  .seq pattern.lead (.group pattern.value)

/-- `number|#|no\.?`, which may be left out. -/
def numberMark : Expression Char :=
  .optional (.alt (word "number") (.alt (word "#") (.seq (word "no") (.optional (word ".")))))

/-- A name followed by a mark for a number, or a short name. -/
def numbered (name short : String) : Expression Char :=
  .alt (.seq (word name) (.seq (.repeated FloatValue.isSpace 0 none) numberMark)) (word short)

def isSeparator (char : Char) : Bool := char ∈ ['#', ':', '-'] ∨ FloatValue.isSpace char

def isColonOrSpace (char : Char) : Bool := char = ':' ∨ FloatValue.isSpace char

variable (tables : UnicodeTables)

/-- The value of a decimal digit. -/
def UnicodeTables.digit (char : Char) : Option Nat :=
  if char.toNat < 128 then if char.isDigit then some (char.toNat - '0'.toNat) else none
  else tables.decimalValue char

/-- `\d`. -/
def UnicodeTables.isDecimal (char : Char) : Bool := (tables.digit char).isSome

/-- `\w`. -/
def UnicodeTables.isWord (char : Char) : Bool :=
  char = '_' ∨ (if char.toNat < 128 then char.isAlphanum else tables.isAlnum char)

/-- A slash or a hyphen. -/
def isDateSeparator (char : Char) : Bool := char = '/' ∨ char = '-'

/-- Regex patterns for claim fields. -/
def patterns : List (String × Pattern) := [
  ("claim_number", {
    lead := .seq (numbered "claim" "CLM") (.repeated isSeparator 1 none)
    value := .seq (.one fun char => isLetter char ∨ char.isDigit)
      (.repeated (fun char => tables.isWord char ∨ char = '-') 0 none) }),
  ("policy_number", {
    lead := .seq (numbered "policy" "POL") (.repeated isSeparator 0 none)
    value := .seq (.repeated isLetter 2 (some 3))
      (.seq (.one fun char => char = '-') (.repeated tables.isDecimal 6 (some 10))) }),
  ("claimant_name", {
    lead := .seq (.alt (word "claimant") (word "insured")) (.repeated isColonOrSpace 1 none)
    value := .repeated (fun char => isLetter char ∨ char = ' ') 2 (some 50) }),
  ("date_of_loss", {
    lead := .seq (.alt (word "date of loss") (.alt (word "DOL") (word "loss date")))
      (.repeated isColonOrSpace 1 none)
    value := .seq (.repeated tables.isDecimal 1 (some 2)) (.seq (.one isDateSeparator)
      (.seq (.repeated tables.isDecimal 1 (some 2)) (.seq (.one isDateSeparator)
        (.repeated tables.isDecimal 2 (some 4))))) }),
  ("claim_type", {
    lead := .seq (.alt (word "type") (word "claim type")) (.repeated isColonOrSpace 1 none)
    value := .repeated tables.isWord 1 none })]

/-! ### Fields -/

/-- Source location of an extracted field value. -/
structure Provenance where
  page : Option Nat := none
  offsetStart : Option Nat := none
  offsetEnd : Option Nat := none
  textSnippet : Option String := none
  deriving DecidableEq

/-- A single extracted field with confidence and provenance; making one with another confidence
raises. -/
structure ExtractionField where
  name : String
  value : String
  confidence : ℚ
  provenance : List Provenance
  confident : 0 ≤ confidence ∧ confidence ≤ 1

/-- Result of running an extractor on document content. -/
structure ExtractionResult where
  fields : List (String × ExtractionField)
  extractorName : String
  extractorVersion : String
  rawText : Option String := none

/-- The confidence of every field the stub extractor finds, `0.95`. -/
def stubConfidence : ℚ := roundToDouble (95 / 100)

theorem stubConfidence_mem : 0 ≤ stubConfidence ∧ stubConfidence ≤ 1 := by decide +kernel

/-- Part of a text, as a string. -/
def slice (text : Text) (start stop : Nat) : Text := (text.drop start).take (stop - start)

/-- The field a pattern finds in a text. -/
def Pattern.field (pattern : Pattern) (name : String) (text : Text) : Option ExtractionField :=
  match pattern.expression.search text with
  | some (position, ⟨consumed, some (start, stop)⟩) => some {
      name := name
      value := String.ofList (FloatValue.strip (slice text (position + start) (position + stop)))
      confidence := stubConfidence
      provenance := [{
        offsetStart := some (position + start)
        offsetEnd := some (position + stop)
        textSnippet := some (String.ofList (slice text position (position + consumed))) }]
      confident := stubConfidence_mem }
  | _ => none

namespace StubExtractor

def name : String := "stub_extractor"

def version : String := "1.0.0"

/-- Extract structured fields from text content using regex patterns; the content type and the
metadata go unread. -/
def extract (content : List UInt8) : ExtractionResult :=
  let text := decodeReplace content
  { fields := (patterns tables).filterMap fun entry =>
      (entry.2.field entry.1 text).map fun field => (entry.1, field)
    extractorName := name
    extractorVersion := version
    rawText := some (String.ofList text) }

end StubExtractor

/-! ### What is extracted -/

/-- A text without spaces is stripped of nothing. -/
theorem strip_eq_self {text : Text} (none : ∀ char ∈ text, FloatValue.isSpace char = false) :
    FloatValue.strip text = text := by
  have keep {chars : Text} (kept : ∀ char ∈ chars, FloatValue.isSpace char = false) :
      chars.dropWhile FloatValue.isSpace = chars := by
    refine List.dropWhile_eq_self_iff.mpr fun some => ?_
    rw [kept _ (List.getElem_mem some)]
    exact nofun
  rw [FloatValue.strip, keep none, keep fun char member => none char (List.mem_reverse.mp member),
    List.reverse_reverse]

/-- A reading of a pattern says where its value stands. -/
theorem Pattern.reading_group (pattern : Pattern) {text : Text} {reading : Reading}
    (member : reading ∈ pattern.expression.readings text) :
    ∃ start stop, reading.group = some (start, stop) := by
  obtain ⟨before, -, member⟩ := List.mem_flatMap.mp member
  obtain ⟨behind, read, rfl⟩ := List.mem_map.mp member
  obtain ⟨inner, -, rfl⟩ := List.mem_map.mp read
  exact ⟨before.consumed + 0, before.consumed + inner.consumed, rfl⟩

/-- A pattern finds a field wherever its expression is found. -/
theorem Pattern.field_eq_none_iff (pattern : Pattern) (name : String) (text : Text) :
    pattern.field name text = none ↔ pattern.expression.search text = none := by
  unfold Pattern.field
  cases found : pattern.expression.search text with
  | none => exact iff_of_true rfl rfl
  | some result =>
    obtain ⟨position, consumed, group⟩ := result
    obtain ⟨start, stop, grouped⟩ := pattern.reading_group (search_mem found)
    dsimp only at grouped
    rw [grouped]
    exact iff_of_false nofun nofun

/-- A field stands where its provenance says: the offsets are in order and within the text, and the
value is the text between them without the space around it. -/
theorem Pattern.field_stands {pattern : Pattern} {name : String} {text : Text}
    {field : ExtractionField} (found : pattern.field name text = some field) :
    field.name = name ∧ field.confidence = stubConfidence ∧
      ∃ start stop snippet, start ≤ stop ∧ stop ≤ text.length ∧
        field.provenance = [{ offsetStart := start, offsetEnd := stop, textSnippet := snippet }] ∧
        field.value = String.ofList (FloatValue.strip (slice text start stop)) := by
  unfold Pattern.field at found
  split at found
  · rename_i position consumed start stop searched
    cases found
    obtain ⟨bound, within⟩ := search_within searched
    have inside := within.group start stop rfl
    have fits := within.consumed
    dsimp only at inside fits
    exact ⟨rfl, rfl, _, _, _, by omega, by omega, rfl, rfl⟩
  · cases found

theorem pattern_names : (patterns tables).map Prod.fst =
    ["claim_number", "policy_number", "claimant_name", "date_of_loss", "claim_type"] := rfl

/-- The fields of a document come under the names of the patterns, each at most once. -/
theorem extract_names (content : List UInt8) :
    ((StubExtractor.extract tables content).fields.map Prod.fst).Sublist
      ((patterns tables).map Prod.fst) := by
  unfold StubExtractor.extract
  dsimp only
  induction patterns tables with
  | nil => exact List.nil_sublist _
  | cons entry rest inductionHypothesis =>
    rw [List.filterMap_cons]
    cases found : entry.2.field entry.1 (decodeReplace content) with
    | none => exact inductionHypothesis.cons _
    | some field => exact inductionHypothesis.cons_cons _

theorem extract_names_nodup (content : List UInt8) :
    ((StubExtractor.extract tables content).fields.map Prod.fst).Nodup :=
  (extract_names tables content).nodup (by rw [pattern_names]; decide)

/-- The entries of the extracted fields: a pattern and what it found, under its name. -/
theorem mem_extract {content : List UInt8} {name : String} {field : ExtractionField} :
    (name, field) ∈ (StubExtractor.extract tables content).fields ↔
      ∃ pattern, (name, pattern) ∈ patterns tables ∧
        pattern.field name (decodeReplace content) = some field := by
  unfold StubExtractor.extract
  simp only [List.mem_filterMap, Option.map_eq_some_iff, Prod.mk.injEq, Prod.exists]
  constructor
  · rintro ⟨other, pattern, listed, found, read, rfl, rfl⟩
    exact ⟨pattern, listed, read⟩
  · rintro ⟨pattern, listed, read⟩
    exact ⟨name, pattern, listed, field, read, rfl, rfl⟩

theorem extract_confidence {content : List UInt8} {entry : String × ExtractionField}
    (member : entry ∈ (StubExtractor.extract tables content).fields) :
    entry.2.name = entry.1 ∧ entry.2.confidence = stubConfidence := by
  obtain ⟨pattern, -, found⟩ := (mem_extract tables).mp member
  obtain ⟨name, confidence, -⟩ := Pattern.field_stands found
  exact ⟨name, confidence⟩

end InsuranceOps
