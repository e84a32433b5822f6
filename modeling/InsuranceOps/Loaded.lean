/-
This file models the values `json.loads` returns. They are the JSON values and,
at any depth, the floats a payload can name although JSON has no number for
them: the infinities and NaN. A float can also be read from text, where `float`
takes the decimal digits and the white space of every script. Two values are
compared as Python compares them: numbers by their value, lists by the first
items that differ, and values of different types not at all.
-/

import InsuranceOps.Json

namespace InsuranceOps

/-! ### White space and digits -/

/-- `text.strip(chars)`. -/
def strip (removes : Char → Bool) (text : Text) : Text :=
  ((text.dropWhile removes).reverse.dropWhile removes).reverse

namespace FloatValue

/-- Whitespace that `str.strip` removes. -/
def isSpace (char : Char) : Bool :=
  char.toNat ∈ [0x20, 0x85, 0xA0, 0x1680, 0x2028, 0x2029, 0x202F, 0x205F, 0x3000] ∨
    (0x09 ≤ char.toNat ∧ char.toNat ≤ 0x0D) ∨ (0x1C ≤ char.toNat ∧ char.toNat ≤ 0x1F) ∨
    (0x2000 ≤ char.toNat ∧ char.toNat ≤ 0x200A)

def strip (text : Text) : Text :=
  (((text.dropWhile isSpace).reverse).dropWhile isSpace).reverse

end FloatValue

/-- The zeros of the decimal digits in Unicode 15.0; the digits up to nine follow each of them. -/
def decimalZeros : List Nat :=
  [0x0030, 0x0660, 0x06F0, 0x07C0, 0x0966, 0x09E6, 0x0A66, 0x0AE6, 0x0B66, 0x0BE6, 0x0C66, 0x0CE6,
   0x0D66, 0x0DE6, 0x0E50, 0x0ED0, 0x0F20, 0x1040, 0x1090, 0x17E0, 0x1810, 0x1946, 0x19D0, 0x1A80,
   0x1A90, 0x1B50, 0x1BB0, 0x1C40, 0x1C50, 0xA620, 0xA8D0, 0xA900, 0xA9D0, 0xA9F0, 0xAA50, 0xABF0,
   0xFF10, 0x104A0, 0x10D30, 0x11066, 0x110F0, 0x11136, 0x111D0, 0x112F0, 0x11450, 0x114D0,
   0x11650, 0x116C0, 0x11730, 0x118E0, 0x11950, 0x11C50, 0x11D50, 0x11DA0, 0x11F50, 0x16A60,
   0x16AC0, 0x16B50, 0x1D7CE, 0x1D7D8, 0x1D7E2, 0x1D7EC, 0x1D7F6, 0x1E140, 0x1E2F0, 0x1E4F0,
   0x1E950, 0x1FBF0]

/-- `unicodedata.decimal(char)`. -/
def decimalDigit (char : Char) : Option Nat :=
  (decimalZeros.find? fun start => start ≤ char.toNat ∧ char.toNat ≤ start + 9).map fun start =>
    char.toNat - start

/-- The character `int` and `float` read for a character: white space outside ASCII is a blank, and
a decimal digit is its ASCII digit. No other character outside ASCII is part of a number. -/
def numeralChar (char : Char) : Char :=
  if char.toNat < 128 then char
  else if FloatValue.isSpace char then ' '
  else match decimalDigit char with
    | some digit => Char.ofNat (48 + digit)
    | none => '?'

/-- The blanks around a number that `int` and `float` skip. -/
def blank (char : Char) : Bool := char = ' ' || (9 ≤ char.toNat && char.toNat ≤ 13)

/-! ### Floats -/

/-- A Python float that is read from a payload. -/
inductive FloatValue where
  | finite (value : ℚ)
  | infinite (negative : Bool)
  | nan
  deriving DecidableEq

namespace FloatValue

/-- The float nearest to a number is infinite from here on. -/
def overflowBound : ℚ := 2 ^ 1024 - 2 ^ 970

def ofRat (value : ℚ) : FloatValue :=
  if overflowBound ≤ |value| then .infinite (value < 0) else .finite value

def negated : FloatValue → FloatValue
  | .finite value => .finite (-value)
  | .infinite negative => .infinite !negative
  | .nan => .nan

/-- The digits a number starts with, where an underscore may stand between two digits, and the
text behind them. -/
def digits (afterDigit : Bool) : Text → Text × Text
  | [] => ([], [])
  | char :: rest =>
    if char.isDigit then
      let (found, behind) := digits true rest
      (char :: found, behind)
    else if char = '_' ∧ afterDigit ∧ (rest.head?.any Char.isDigit) then digits false rest
    else ([], char :: rest)

/-- The number decimal digits stand for. -/
def ofDigits (found : Text) : Nat :=
  found.foldl (fun value char => 10 * value + (char.toNat - '0'.toNat)) 0

/-- The exponent part of a number; it ends the text. -/
def exponent : Text → Option Int
  | [] => some 0
  | mark :: rest =>
    if mark = 'e' ∨ mark = 'E' then
      let (negative, rest) := match rest with
        | '-' :: rest => (true, rest)
        | '+' :: rest => (false, rest)
        | rest => (false, rest)
      match digits false rest with
      | ([], _) => none
      | (found, []) => some (if negative then -(ofDigits found : Int) else ofDigits found)
      | _ => none
    else none

/-- A decimal number without sign. -/
def unsigned (text : Text) : Option FloatValue :=
  let lower := text.map Char.toLower
  if lower = "inf".toList ∨ lower = "infinity".toList then some (.infinite false)
  else if lower = "nan".toList then some .nan
  else
    let (whole, rest) := digits false text
    let (part, rest) := match rest with
      | '.' :: rest => digits false rest
      | rest => ([], rest)
    if whole = [] ∧ part = [] then none
    else (exponent rest).map fun power =>
      ofRat ((ofDigits (whole ++ part) : ℚ) * (10 : ℚ) ^ (power - (part.length : Int)))

/-- `float(text)`, where `none` stands for `ValueError`. -/
def ofText (text : String) : Option FloatValue :=
  match InsuranceOps.strip blank (text.toList.map numeralChar) with
  | '-' :: rest => (unsigned rest).map negated
  | '+' :: rest => unsigned rest
  | rest => unsigned rest

/-- `float(value)`, where `none` stands for `TypeError`, `ValueError` or `OverflowError`. -/
def ofJson : Json → Option FloatValue
  | .int value => if overflowBound ≤ |(value : ℚ)| then none else some (.finite value)
  | .float value => some (.finite value)
  | .negativeZero | .bool false => some (.finite 0)
  | .bool true => some (.finite 1)
  | .string text => ofText text
  | .null | .array _ | .object _ => none

/-- `now - value > timeout`. -/
def isOverdue (now timeout : ℚ) : FloatValue → Bool
  | .finite value => timeout < now - value
  | .infinite negative => negative
  | .nan => false

end FloatValue

example : FloatValue.ofText " 1714.5e1_0" = some (.finite 17145000000000) := by decide +kernel

example : FloatValue.ofText "\u3000١٠٠" = some (.finite 100) := by decide +kernel

/-- `first >= second`. -/
def FloatValue.atLeast : FloatValue → FloatValue → Bool
  | .nan, _ | _, .nan => false
  | .infinite false, _ | _, .infinite true => true
  | .finite first, .finite second => second ≤ first
  | _, _ => false

/-! ### Values -/

/-- What `json.loads` returns. -/
inductive Loaded where
  | null
  | bool (value : Bool)
  | int (value : Int)
  | float (value : FloatValue)
  | string (value : String)
  | array (items : List Loaded)
  | object (entries : List (String × Loaded))

/-- Why `json.loads` raises: a `ValueError`, or an exception of another class. -/
inductive LoadFailure where
  | valueError
  | other
  deriving DecidableEq

/-- A `dict` that `json.loads` returns. -/
abbrev LoadedObject := List (String × Loaded)

/-- `entries.get(key)`. -/
def LoadedObject.get? (entries : LoadedObject) (key : String) : Option Loaded :=
  (entries.find? fun entry => entry.1 = key).map Prod.snd

mutual

/-- A JSON value as `json.loads` returns it. -/
def Json.loaded : Json → Loaded
  | .null => .null
  | .bool value => .bool value
  | .int value => .int value
  | .float value => .float (.finite value)
  | .negativeZero => .float (.finite 0)
  | .string value => .string value
  | .array items => .array (loadedItems items)
  | .object entries => .object (loadedEntries entries)

def loadedItems : List Json → List Loaded
  | [] => []
  | item :: rest => item.loaded :: loadedItems rest

def loadedEntries : List (String × Json) → List (String × Loaded)
  | [] => []
  | (key, value) :: rest => (key, value.loaded) :: loadedEntries rest

end

theorem LoadedObject.get?_loadedEntries (payload : JsonObject) (key : String) :
    LoadedObject.get? (loadedEntries payload) key = (payload.get? key).map Json.loaded := by
  unfold LoadedObject.get? JsonObject.get?
  induction payload with
  | nil => rfl
  | cons entry rest inductionHypothesis =>
    obtain ⟨name, value⟩ := entry
    rw [loadedEntries, List.find?_cons, List.find?_cons]
    by_cases same : name = key
    · simp [same]
    · simpa [same] using inductionHypothesis

/-! ### Comparisons -/

namespace Loaded

/-- The number a value is compared as. -/
def number : Loaded → Option FloatValue
  | .int value => some (.finite value)
  | .float value => some value
  | .bool value => some (.finite (if value then 1 else 0))
  | .null | .string _ | .array _ | .object _ => none

mutual

/-- `first is second or first == second`, which is how items of lists and values of a `dict` are
compared. The parser has one NaN object, so NaN is equal to itself there. -/
def equal : Loaded → Loaded → Bool
  | .null, .null => true
  | .string first, .string second => first = second
  | .array firsts, .array seconds => equalItems firsts seconds
  | .object firsts, .object seconds =>
    firsts.length = seconds.length && equalEntries firsts seconds
  | first, second =>
    match first.number, second.number with
    | some first, some second => first = second
    | _, _ => false

def equalItems : List Loaded → List Loaded → Bool
  | [], [] => true
  | first :: firsts, second :: seconds => first.equal second && equalItems firsts seconds
  | _, _ => false

/-- Every entry has its equal among the others. -/
def equalEntries : List (String × Loaded) → LoadedObject → Bool
  | [], _ => true
  | (key, first) :: firsts, seconds =>
    (match seconds.get? key with
      | some second => first.equal second
      | none => false) && equalEntries firsts seconds

end

mutual

/-- `first >= second`, where `none` stands for `TypeError`. -/
def atLeast : Loaded → Loaded → Option Bool
  | .string first, .string second => some (second ≤ first)
  | .array firsts, .array seconds => atLeastItems firsts seconds
  | first, second =>
    match first.number, second.number with
    | some first, some second => some (first.atLeast second)
    | _, _ => none

/-- Lists are compared by the first items that differ, and then by their lengths. -/
def atLeastItems : List Loaded → List Loaded → Option Bool
  | _, [] => some true
  | [], _ :: _ => some false
  | first :: firsts, second :: seconds =>
    if first.equal second then atLeastItems firsts seconds else first.atLeast second

end

example :
    (array [int 1, float (.infinite false)]).atLeast (array [bool true, int 7]) = some true := by
  decide +kernel

example :
    (array [float .nan, string "a"]).atLeast (array [float .nan, int 1]) = none ∧
      (float .nan).atLeast (float .nan) = some false := by
  decide

end Loaded

end InsuranceOps
