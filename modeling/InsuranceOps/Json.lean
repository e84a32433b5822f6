/-
This file models the JSON values the platform stores and hashes, and the text
`canonical_json` prints for them: keys sorted at every level, the separators
`,` and `:` without blanks, and every character outside printable ASCII
escaped. Floats are their exact values; their text is the shortest decimal
that reads back as the same double, as `repr` prints it. The negative zero,
the one finite float its value does not determine, has its own constructor.
-/

import Mathlib.Data.List.Sort
import Mathlib.Data.Nat.Log
import Mathlib.Data.Rat.Floor

namespace InsuranceOps

/-- The JSON values of payloads, outputs and resolution bodies. -/
inductive Json where
  | null
  | bool (value : Bool)
  | int (value : Int)
  | float (value : ℚ)
  | negativeZero
  | string (value : String)
  | array (items : List Json)
  | object (entries : List (String × Json))

/-- A Python `dict` with string keys, in insertion order. -/
abbrev JsonObject := List (String × Json)

/-! ### Tests of values -/

mutual

/-- The value and every value nested in it pass a test. -/
def Json.everywhere (test : Json → Bool) : Json → Bool
  | .array items => test (.array items) && everywhereItems test items
  | .object entries => test (.object entries) && everywhereEntries test entries
  | value => test value

/-- The values of a list, and every value nested in them, pass a test. -/
def everywhereItems (test : Json → Bool) : List Json → Bool
  | [] => true
  | item :: rest => item.everywhere test && everywhereItems test rest

/-- The values of some entries, and every value nested in them, pass a test. -/
def everywhereEntries (test : Json → Bool) : List (String × Json) → Bool
  | [] => true
  | (_, value) :: rest => value.everywhere test && everywhereEntries test rest

end

theorem everywhereItems_eq (test : Json → Bool) (items : List Json) :
    everywhereItems test items = true ↔ ∀ item ∈ items, item.everywhere test = true := by
  induction items with
  | nil => simp [everywhereItems]
  | cons item rest inductionHypothesis => simp [everywhereItems, inductionHypothesis]

theorem everywhereEntries_eq (test : Json → Bool) (entries : JsonObject) :
    everywhereEntries test entries = true ↔
      ∀ entry ∈ entries, entry.2.everywhere test = true := by
  induction entries with
  | nil => simp [everywhereEntries]
  | cons entry rest inductionHypothesis => simp [everywhereEntries, inductionHypothesis]

theorem Json.everywhere_array (test : Json → Bool) (items : List Json) :
    (Json.array items).everywhere test = true ↔
      test (.array items) = true ∧ ∀ item ∈ items, item.everywhere test = true := by
  rw [Json.everywhere, Bool.and_eq_true, everywhereItems_eq]

theorem Json.everywhere_object (test : Json → Bool) (entries : JsonObject) :
    (Json.object entries).everywhere test = true ↔
      test (.object entries) = true ∧ ∀ entry ∈ entries, entry.2.everywhere test = true := by
  rw [Json.everywhere, Bool.and_eq_true, everywhereEntries_eq]

/-- A `TEXT` column takes every text without a zero byte. -/
def storableText (text : String) : Bool := !text.toUTF8.data.toList.contains 0

/-- Only U+0000 is encoded with a zero byte. -/
theorem zero_mem_utf8EncodeChar {char : Char} :
    0 ∈ String.utf8EncodeChar char ↔ char = Char.ofNat 0 := by
  have value : char = Char.ofNat 0 ↔ char.val.toNat = 0 := by
    rw [Char.ext_iff, ← UInt32.toNat_inj]
    rfl
  have zero (number : Nat) : 0 = UInt8.ofNat number ↔ number % 256 = 0 := by
    rw [← UInt8.toNat_inj, UInt8.toNat_ofNat', eq_comm]
    rfl
  rw [value]
  unfold String.utf8EncodeChar
  dsimp only
  generalize char.val.toNat = number
  split_ifs <;> simp only [List.mem_cons, List.not_mem_nil, or_false, zero] <;> omega

theorem storableText_iff (text : String) :
    storableText text = true ↔ Char.ofNat 0 ∉ text.toList := by
  have bytes : text.toUTF8.data.toList = text.toList.flatMap String.utf8EncodeChar := by
    rw [String.toUTF8, ← String.utf8Encode_toList, List.utf8Encode, List.data_toByteArray]
  rw [storableText, bytes, Bool.not_eq_true', List.contains_eq_mem, decide_eq_false_iff_not,
    List.mem_flatMap]
  simp only [zero_mem_utf8EncodeChar, exists_eq_right]

/-- The texts and the keys of a value, but for those nested in it, are storable. -/
def Json.textsStorable : Json → Bool
  | .string value => storableText value
  | .object entries => entries.all fun entry => storableText entry.1
  | .null | .bool _ | .int _ | .float _ | .negativeZero | .array _ => true

/-- A `JSONB` column takes every value without U+0000 in a text or a key. -/
def Json.storable (value : Json) : Bool := value.everywhere Json.textsStorable

/-! ### Equality of values -/

mutual

/-- Equality of two values. -/
def Json.same : Json → Json → Bool
  | .null, .null => true
  | .bool first, .bool second => first == second
  | .int first, .int second => first == second
  | .float first, .float second => first == second
  | .negativeZero, .negativeZero => true
  | .string first, .string second => first == second
  | .array first, .array second => sameItems first second
  | .object first, .object second => sameEntries first second
  | _, _ => false

/-- Equality of two lists of values. -/
def sameItems : List Json → List Json → Bool
  | [], [] => true
  | first :: firsts, second :: seconds => first.same second && sameItems firsts seconds
  | _, _ => false

/-- Equality of two lists of entries. -/
def sameEntries : List (String × Json) → List (String × Json) → Bool
  | [], [] => true
  | (firstKey, first) :: firsts, (secondKey, second) :: seconds =>
    firstKey == secondKey && first.same second && sameEntries firsts seconds
  | _, _ => false

end

mutual

theorem Json.same_iff (first second : Json) : first.same second = true ↔ first = second := by
  match first, second with
  | .array firsts, .array seconds =>
    simp only [Json.same, sameItems_iff, Json.array.injEq]
  | .object firsts, .object seconds =>
    simp only [Json.same, sameEntries_iff, Json.object.injEq]
  | .null, second => cases second <;> simp [Json.same]
  | .bool _, second => cases second <;> simp [Json.same]
  | .int _, second => cases second <;> simp [Json.same]
  | .float _, second => cases second <;> simp [Json.same]
  | .negativeZero, second => cases second <;> simp [Json.same]
  | .string _, second => cases second <;> simp [Json.same]
  | .array _, .null => simp [Json.same]
  | .array _, .bool _ => simp [Json.same]
  | .array _, .int _ => simp [Json.same]
  | .array _, .float _ => simp [Json.same]
  | .array _, .negativeZero => simp [Json.same]
  | .array _, .string _ => simp [Json.same]
  | .array _, .object _ => simp [Json.same]
  | .object _, .null => simp [Json.same]
  | .object _, .bool _ => simp [Json.same]
  | .object _, .int _ => simp [Json.same]
  | .object _, .float _ => simp [Json.same]
  | .object _, .negativeZero => simp [Json.same]
  | .object _, .string _ => simp [Json.same]
  | .object _, .array _ => simp [Json.same]

theorem sameItems_iff (firsts seconds : List Json) :
    sameItems firsts seconds = true ↔ firsts = seconds := by
  match firsts, seconds with
  | [], [] => simp [sameItems]
  | [], _ :: _ => simp [sameItems]
  | _ :: _, [] => simp [sameItems]
  | first :: firsts, second :: seconds =>
    simp only [sameItems, Bool.and_eq_true, Json.same_iff, sameItems_iff, List.cons.injEq]

theorem sameEntries_iff (firsts seconds : List (String × Json)) :
    sameEntries firsts seconds = true ↔ firsts = seconds := by
  match firsts, seconds with
  | [], [] => simp [sameEntries]
  | [], _ :: _ => simp [sameEntries]
  | _ :: _, [] => simp [sameEntries]
  | (firstKey, first) :: firsts, (secondKey, second) :: seconds =>
    simp only [sameEntries, Bool.and_eq_true, beq_iff_eq, Json.same_iff, sameEntries_iff,
      List.cons.injEq, Prod.mk.injEq]

end

instance : DecidableEq Json := fun first second =>
  decidable_of_iff (first.same second = true) (Json.same_iff first second)

/-! ### Reading a `dict` -/

/-- `payload.get(key)`. -/
def JsonObject.get? (entries : JsonObject) (key : String) : Option Json :=
  (entries.find? fun entry => entry.1 = key).map Prod.snd

/-- `payload[key] = value`: an existing key keeps its place, a new one comes last. -/
def JsonObject.set (entries : JsonObject) (key : String) (value : Json) : JsonObject :=
  if entries.any (fun entry => entry.1 = key) then
    entries.map fun entry => if entry.1 = key then (key, value) else entry
  else entries ++ [(key, value)]

/-- Python's truth value of a JSON value. -/
def Json.truthy : Json → Bool
  | .null | .bool false | .int 0 | .negativeZero | .string "" | .array [] | .object [] => false
  | .float value => value != 0
  | _ => true

/-- Setting a key leaves the value under every other key alone. -/
theorem JsonObject.get?_set_of_ne (entries : JsonObject) {key other : String} (value : Json)
    (different : other ≠ key) : (entries.set key value).get? other = entries.get? other := by
  unfold JsonObject.set JsonObject.get?
  split
  · rw [List.find?_map]
    have tests : ((fun entry : String × Json => decide (entry.1 = other)) ∘
        fun entry => if entry.1 = key then (key, value) else entry) =
        fun entry => decide (entry.1 = other) := by
      funext entry
      show decide ((if entry.1 = key then (key, value) else entry).1 = other) = _
      split
      · rename_i same
        rw [same]
      · rfl
    rw [tests, Option.map_map]
    cases found : entries.find? fun entry => decide (entry.1 = other) with
    | none => rfl
    | some entry =>
      have keyEq : entry.1 = other := by simpa using List.find?_some found
      simp only [Option.map_some, Function.comp_apply, keyEq, if_neg different]
  · rw [List.find?_append]
    have absent : [(key, value)].find? (fun entry => decide (entry.1 = other)) = none := by
      simp [Ne.symm different]
    rw [absent, Option.or_none]

/-! ### Text -/

/-- Text as the sequence of its characters. -/
abbrev Text := List Char

/-- `text.encode("utf-8")`. -/
def utf8 (text : Text) : List UInt8 := text.flatMap String.utf8EncodeChar

/-- Texts are told apart by their encodings. -/
theorem utf8_injective {first second : Text} (same : utf8 first = utf8 second) :
    first = second := by
  have strings : String.ofList first = String.ofList second :=
    String.toByteArray_inj.mp (congrArg List.toByteArray same)
  have chars := congrArg String.toList strings
  rwa [String.toList_ofList, String.toList_ofList] at chars

/-- A hexadecimal digit, in lower case. -/
def hexDigit (value : Nat) : Char :=
  if value < 10 then Char.ofNat (48 + value) else Char.ofNat (87 + value)

/-- The decimal digits of a natural number. -/
def decimal (value : Nat) : Text := Nat.toDigits 10 value

/-- The decimal digits, padded with zeros on the left. -/
def padded (width value : Nat) : Text :=
  List.replicate (width - (decimal value).length) '0' ++ decimal value

def quotationMark : Char := Char.ofNat 34

def backslash : Char := Char.ofNat 92

/-- The escape of one UTF-16 code unit. -/
def unicodeEscape (code : Nat) : Text :=
  [backslash, 'u', hexDigit (code / 4096 % 16), hexDigit (code / 256 % 16),
    hexDigit (code / 16 % 16), hexDigit (code % 16)]

/-- One character of a JSON string under `ensure_ascii`. -/
def escapeChar (char : Char) : Text :=
  let code := char.toNat
  if code = 34 then [backslash, quotationMark]
  else if code = 92 then [backslash, backslash]
  else if code = 10 then [backslash, 'n']
  else if code = 13 then [backslash, 'r']
  else if code = 9 then [backslash, 't']
  else if code = 12 then [backslash, 'f']
  else if code = 8 then [backslash, 'b']
  else if 32 ≤ code ∧ code ≤ 126 then [char]
  else if code < 65536 then unicodeEscape code
  else unicodeEscape (55296 + (code - 65536) / 1024) ++
    unicodeEscape (56320 + (code - 65536) % 1024)

/-- A JSON string literal. -/
def quoted (value : String) : Text :=
  quotationMark :: value.toList.flatMap escapeChar ++ [quotationMark]

/-- A list of texts with the separator `,`. -/
def commaSeparated : List Text → Text
  | [] => []
  | [item] => item
  | item :: rest => item ++ ',' :: commaSeparated rest

/-! ### The text of a float -/

/-- Round to an integer, ties to even. -/
def roundHalfEven (value : ℚ) : Int :=
  let below := ⌊value⌋
  let rest := value - below
  if rest < 1 / 2 then below
  else if 1 / 2 < rest then below + 1
  else if below % 2 = 0 then below else below + 1

/-- The power of two at or below a positive number, as an exponent. -/
def binaryExponent (value : ℚ) : Int :=
  if 1 ≤ value then Nat.log 2 ⌊value⌋₊ else -(Nat.clog 2 ⌈1 / value⌉₊ : Int)

/-- The power of ten at or below a positive number, as an exponent. -/
def decimalExponent (value : ℚ) : Int :=
  if 1 ≤ value then Nat.log 10 ⌊value⌋₊ else -(Nat.clog 10 ⌈1 / value⌉₊ : Int)

/-- The double nearest to a positive number, ties to even. -/
def roundToDouble (value : ℚ) : ℚ :=
  let ulp : ℚ := 2 ^ max (binaryExponent value - 52) (-1074)
  roundHalfEven (value / ulp) * ulp

/-- A positive number scaled so that some digits stand before the point. -/
def scaledTo (count : Nat) (value : ℚ) : ℚ :=
  value * 10 ^ ((count : Int) - 1 - decimalExponent value)

/-- Digits of a number and their decimal exponent, where one digit too many is carried. -/
def carried (count : Nat) (digits : Int) (value : ℚ) : Nat × Int :=
  if digits = 10 ^ count then (10 ^ (count - 1), decimalExponent value + 1)
  else (digits.toNat, decimalExponent value)

/-- The digits and the decimal exponent of a positive number rounded to some digits. -/
def significant (count : Nat) (value : ℚ) : Nat × Int :=
  carried count (roundHalfEven (scaledTo count value)) value

/-- The same on the side of the number that it is not rounded to. -/
def significantBeyond (count : Nat) (value : ℚ) : Nat × Int :=
  let nearest := roundHalfEven (scaledTo count value)
  carried count (if nearest ≤ scaledTo count value then nearest + 1 else nearest - 1) value

/-- Digits with a decimal exponent read back as a number. -/
def readsBack (value : ℚ) (count : Nat) (found : Nat × Int) : Bool :=
  roundToDouble (found.1 * 10 ^ (found.2 - ((count : Int) - 1))) = value

/-- The digits closest to the number among the fewest that read back as it, and their decimal
exponent. Doubles lie closer together below a power of two than above it, so the digits nearest to
the power can belong to another double where those beyond it still read back. -/
def shortest (value : ℚ) : Nat × Int :=
  let found := (List.range' 1 17).findSome? fun count =>
    [significant count value, significantBeyond count value].find? (readsBack value count)
  found.getD (significant 17 value)

/-- `repr` of a positive float: plain decimal from `1e-4` up to `1e16`, else scientific. -/
def positiveFloatText (value : ℚ) : Text :=
  let (number, exponent) := shortest value
  let digits := decimal number
  if exponent < -4 ∨ 16 ≤ exponent then
    let fraction := digits.drop 1
    digits.take 1 ++ (if fraction = [] then [] else '.' :: fraction) ++
      'e' :: (if exponent < 0 then '-' else '+') :: padded 2 exponent.natAbs
  else if exponent < 0 then
    '0' :: '.' :: List.replicate (exponent.natAbs - 1) '0' ++ digits
  else
    let whole := exponent.toNat + 1
    let fraction := digits.drop whole
    digits.take whole ++ List.replicate (whole - digits.length) '0' ++
      '.' :: if fraction = [] then ['0'] else fraction

/-- `repr` of a float. -/
def floatText (value : ℚ) : Text :=
  if value = 0 then "0.0".toList
  else if value < 0 then '-' :: positiveFloatText (-value)
  else positiveFloatText value

example : floatText (1 / 2 ^ 44) = "5.684341886080802e-14".toList := by decide +kernel

/-! ### `canonical_json` -/

mutual

/-- The canonical text of one value: entries are printed first and then sorted by key. -/
def Json.canonical : Json → Text
  | .null => "null".toList
  | .bool true => "true".toList
  | .bool false => "false".toList
  | .int value => if value < 0 then '-' :: decimal value.natAbs else decimal value.natAbs
  | .float value => floatText value
  | .negativeZero => "-0.0".toList
  | .string value => quoted value
  | .array items => '[' :: commaSeparated (canonicalItems items) ++ [']']
  | .object entries =>
    let sorted := (canonicalEntries entries).insertionSort fun first second =>
      first.1 ≤ second.1
    Char.ofNat 123 ::
      commaSeparated (sorted.map fun entry => quoted entry.1 ++ ':' :: entry.2) ++
      [Char.ofNat 125]

/-- The canonical texts of a list of values. -/
def canonicalItems : List Json → List Text
  | [] => []
  | item :: rest => item.canonical :: canonicalItems rest

/-- The keys of an object with the canonical texts of their values. -/
def canonicalEntries : List (String × Json) → List (String × Text)
  | [] => []
  | (key, value) :: rest => (key, value.canonical) :: canonicalEntries rest

end

/-- Serialize a payload to canonical JSON (sorted keys, no whitespace). -/
def canonicalJson (payload : JsonObject) : Text := (Json.object payload).canonical

example : canonicalJson [("b", .array [.int (-1), .null]), ("a", .string "é\n")] =
    "\x7b\"a\":\"\\u00e9\\n\",\"b\":[-1,null]\x7d".toList := by decide

end InsuranceOps
