/-
This file models the UUIDs that name every row: their sixteen bytes, which open
the hashed bytes of an audit event, their text, which is how a task payload
carries them, and the parsing of that text by the `UUID` constructor. Parsing
the text of an identifier gives the identifier back, so a task payload names
the rows it was written for.
-/

import InsuranceOps.Loaded
import InsuranceOps.Library.Sha256

namespace InsuranceOps

/-- A UUID is its 128-bit number. -/
abbrev UUID := BitVec 128

namespace UUID

/-- `uuid.bytes`. -/
def bytes (id : UUID) : List UInt8 := Sha256.bigEndian 16 id.toNat

@[simp] theorem bytes_length (id : UUID) : id.bytes.length = 16 := Sha256.bigEndian_length _ _

theorem bytes_injective {first second : UUID} (same : first.bytes = second.bytes) :
    first = second :=
  BitVec.eq_of_toNat_eq (Sha256.bigEndian_injective first.isLt second.isLt same)

/-- The thirty-two hexadecimal digits, `uuid.hex`. -/
def hex (id : UUID) : Text := (Positional.digits 16 32 id.toNat).map hexDigit

/-- `str(uuid)`: the digits in groups of eight, four, four, four and twelve. -/
def text (id : UUID) : Text :=
  id.hex.take 8 ++ '-' :: ((id.hex.drop 8).take 4 ++ '-' :: ((id.hex.drop 12).take 4 ++
    '-' :: ((id.hex.drop 16).take 4 ++ '-' :: id.hex.drop 20)))

/-- `str(uuid)` as a string value. -/
def str (id : UUID) : String := String.ofList id.text

end UUID

/-! ### Parsing -/

/-- `text.replace(pattern, "")`: drop the occurrences from left to right, `skip` counting the
characters of the current one that are still to be dropped. -/
def removeAll (pattern : Text) : Nat → Text → Text
  | _, [] => []
  | skip + 1, _ :: rest => removeAll pattern skip rest
  | 0, char :: rest =>
    if pattern.isPrefixOf (char :: rest) then removeAll pattern (pattern.length - 1) rest
    else char :: removeAll pattern 0 rest

/-- The value of a hexadecimal digit, in either case. -/
def hexValue (char : Char) : Option Nat :=
  let code := char.toNat
  if 48 ≤ code ∧ code ≤ 57 then some (code - 48)
  else if 97 ≤ code ∧ code ≤ 102 then some (code - 87)
  else if 65 ≤ code ∧ code ≤ 70 then some (code - 55)
  else none

/-- The digits of an `int` literal: an underscore may stand between two digits. -/
def digitsValue (value : Nat) : Bool → Text → Option Nat
  | afterDigit, [] => if afterDigit then some value else none
  | afterDigit, char :: rest =>
    if afterDigit ∧ char = '_' then digitsValue value false rest
    else match hexValue char with
      | some digit => digitsValue (16 * value + digit) true rest
      | none => none

/-- The length of the prefix `0x` of a literal, with the underscore that may follow it. -/
def hexPrefix (text : Text) : Nat :=
  if text[0]? = some '0' ∧ (text[1]? = some 'x' ∨ text[1]? = some 'X') then
    if text[2]? = some '_' then 3 else 2
  else 0

/-- `int(text, 16)` on text without a minus sign: blanks around the number, a plus sign, the prefix
`0x` and the decimal digits of every script are allowed. -/
def intOfHex (text : Text) : Option Nat :=
  let stripped := strip blank (text.map numeralChar)
  let unsigned := if stripped[0]? = some '+' then stripped.drop 1 else stripped
  digitsValue 0 false (unsigned.drop (hexPrefix unsigned))

/-- `UUID(text)`, or `none` where the constructor raises `ValueError`. -/
def uuidOfText (text : Text) : Option UUID :=
  let unbraced := strip (fun char => char = Char.ofNat 123 || char = Char.ofNat 125)
    (removeAll "uuid:".toList 0 (removeAll "urn:".toList 0 text))
  let hex := unbraced.filter fun char => char ≠ '-'
  if hex.length = 32 then (intOfHex hex).map (BitVec.ofNat 128) else none

example : uuidOfText (List.replicate 32 '١') = some 0x11111111111111111111111111111111 := by
  decide +kernel

/-! ### Parsing the text of an identifier -/

theorem hexValue_hexDigit {digit : Nat} (small : digit < 16) :
    hexValue (hexDigit digit) = some digit := by
  have all : ∀ value : Fin 16, hexValue (hexDigit value) = some value.val := by decide
  exact all ⟨digit, small⟩

/-- The characters of an identifier's text are hexadecimal digits and hyphens. -/
def Plain (char : Char) : Prop := char = '-' ∨ hexValue char ≠ none

theorem UUID.hex_value (id : UUID) : ∀ char ∈ id.hex, hexValue char ≠ none := by
  intro char member
  obtain ⟨digit, stored, rfl⟩ := List.mem_map.mp member
  rw [hexValue_hexDigit (Positional.digits_lt (by decide) _ _ digit stored)]
  exact Option.some_ne_none _

theorem UUID.text_plain (id : UUID) : ∀ char ∈ id.text, Plain char := by
  intro char member
  simp only [UUID.text, List.mem_append, List.mem_cons] at member
  rcases member with h | h | h | h | h | h | h | h | h
  · exact .inr (id.hex_value char (List.mem_of_mem_take h))
  · exact .inl h
  · exact .inr (id.hex_value char (List.mem_of_mem_drop (List.mem_of_mem_take h)))
  · exact .inl h
  · exact .inr (id.hex_value char (List.mem_of_mem_drop (List.mem_of_mem_take h)))
  · exact .inl h
  · exact .inr (id.hex_value char (List.mem_of_mem_drop (List.mem_of_mem_take h)))
  · exact .inl h
  · exact .inr (id.hex_value char (List.mem_of_mem_drop h))

theorem removeAll_of_not_mem (first : Char) (pattern text : Text) (absent : first ∉ text) :
    removeAll (first :: pattern) 0 text = text := by
  induction text with
  | nil => rfl
  | cons char rest inductionHypothesis =>
    rw [List.mem_cons, not_or] at absent
    rw [removeAll, if_neg, inductionHypothesis absent.2]
    simp only [List.isPrefixOf, Bool.and_eq_true, beq_iff_eq, not_and]
    exact fun equal => absurd equal absent.1

theorem strip_of_none (removes : Char → Bool) (text : Text)
    (none : ∀ char ∈ text, removes char = false) : strip removes text = text := by
  have keep (chars : Text) (kept : ∀ char ∈ chars, removes char = false) :
      chars.dropWhile removes = chars := by
    cases chars with
    | nil => rfl
    | cons char rest =>
      rw [List.dropWhile_cons_of_neg (by rw [kept char List.mem_cons_self]; decide)]
  rw [strip, keep text none, keep _ (fun char member => none char (List.mem_reverse.mp member)),
    List.reverse_reverse]

theorem digitsValue_hex (digits : List Nat) (small : ∀ digit ∈ digits, digit < 16)
    (value : Nat) (afterDigit : Bool) (nonempty : digits = [] → afterDigit = true) :
    digitsValue value afterDigit (digits.map hexDigit) =
      some (digits.foldl (fun value digit => 16 * value + digit) value) := by
  induction digits generalizing value afterDigit with
  | nil => rw [nonempty rfl]; rfl
  | cons digit rest inductionHypothesis =>
    have isDigit := hexValue_hexDigit (small digit List.mem_cons_self)
    have notUnderscore : hexDigit digit ≠ '_' := by
      intro equal
      rw [equal] at isDigit
      exact absurd isDigit (by simp [hexValue])
    rw [List.map_cons, digitsValue, if_neg fun both => notUnderscore both.2, isDigit]
    exact inductionHypothesis (fun other member => small other (List.mem_cons_of_mem _ member))
      _ _ fun _ => rfl

theorem strip_blank_hex (id : UUID) : strip blank id.hex = id.hex := by
  refine strip_of_none _ _ fun char member => ?_
  by_contra isBlank
  rw [Bool.not_eq_false] at isBlank
  refine id.hex_value char member ?_
  simp only [blank, Bool.or_eq_true, Bool.and_eq_true, decide_eq_true_eq] at isBlank
  unfold hexValue
  rcases isBlank with rfl | range
  · rfl
  · rw [if_neg (by omega), if_neg (by omega), if_neg (by omega)]

/-- The digits of an identifier are ASCII, and read as they are. -/
theorem numeralChar_hex (id : UUID) : id.hex.map numeralChar = id.hex := by
  refine List.map_congr_left (fun char member => ?_) |>.trans (List.map_id _)
  have digit := id.hex_value char member
  have ascii : char.toNat < 128 := by
    by_contra high
    refine digit ?_
    unfold hexValue
    rw [if_neg (by omega), if_neg (by omega), if_neg (by omega)]
  exact if_pos ascii

/-- Reading the digits of an identifier as an `int` gives its number. -/
theorem intOfHex_hex (id : UUID) : intOfHex id.hex = some id.toNat := by
  have whole : digitsValue 0 false id.hex = some id.toNat := by
    rw [UUID.hex, digitsValue_hex _ (Positional.digits_lt (by decide) _ _) 0 false
      (fun empty => absurd (congrArg List.length empty) (by rw [Positional.digits_length]; decide))]
    refine congrArg some ((Positional.read_digits 16 32 id.toNat).trans ?_)
    exact Nat.mod_eq_of_lt id.isLt
  have stored {index : Nat} {char : Char} (read : id.hex[index]? = some char) :
      hexValue char ≠ none := id.hex_value char (List.mem_of_getElem? read)
  have noPrefix : hexPrefix id.hex = 0 :=
    if_neg fun both => both.2.elim (fun read => stored read rfl) fun read => stored read rfl
  unfold intOfHex
  simp only [numeralChar_hex, strip_blank_hex]
  rw [if_neg fun read => stored read rfl, noPrefix, List.drop_zero, whole]

/-- Without the hyphens the text of an identifier is its digits. -/
theorem UUID.text_digits (id : UUID) : id.text.filter (fun char => char ≠ '-') = id.hex := by
  have part (chars : Text) (sub : ∀ char ∈ chars, char ∈ id.hex) :
      chars.filter (fun char => char ≠ '-') = chars := by
    refine List.filter_eq_self.mpr fun char member => decide_eq_true ?_
    rintro rfl
    exact id.hex_value '-' (sub '-' member) rfl
  have hyphen (chars : Text) : ('-' :: chars).filter (fun char => char ≠ '-') =
      chars.filter fun char => char ≠ '-' := List.filter_cons_of_neg (by decide)
  have drops (first second : Nat) :
      (id.hex.drop first).take second ++ id.hex.drop (first + second) = id.hex.drop first := by
    rw [← List.drop_drop, List.take_append_drop]
  simp only [UUID.text, List.filter_append, hyphen]
  rw [part _ fun char member => List.mem_of_mem_take member,
    part _ fun char member => List.mem_of_mem_drop (List.mem_of_mem_take member),
    part _ fun char member => List.mem_of_mem_drop (List.mem_of_mem_take member),
    part _ fun char member => List.mem_of_mem_drop (List.mem_of_mem_take member),
    part _ fun char member => List.mem_of_mem_drop member,
    drops 16 4, drops 12 4, drops 8 4, List.take_append_drop]

/-- The text of an identifier parses to that identifier. -/
theorem uuidOfText_text (id : UUID) : uuidOfText id.text = some id := by
  have noU : 'u' ∉ id.text := fun member => by
    rcases id.text_plain 'u' member with equal | value
    · exact absurd equal (by decide)
    · exact value rfl
  have unbraced : strip (fun char => char = Char.ofNat 123 || char = Char.ofNat 125) id.text =
      id.text := by
    refine strip_of_none _ _ fun char member => ?_
    have plain := id.text_plain char member
    by_contra brace
    simp only [Bool.not_eq_false, Bool.or_eq_true, decide_eq_true_eq] at brace
    rcases brace with rfl | rfl
    · rcases plain with equal | value
      · exact absurd equal (by decide)
      · exact value rfl
    · rcases plain with equal | value
      · exact absurd equal (by decide)
      · exact value rfl
  have length : id.hex.length = 32 := by
    rw [UUID.hex, List.length_map, Positional.digits_length]
  unfold uuidOfText
  rw [show "urn:".toList = 'u' :: "rn:".toList from rfl,
    show "uuid:".toList = 'u' :: "uid:".toList from rfl,
    removeAll_of_not_mem _ _ _ noU, removeAll_of_not_mem _ _ _ noU]
  simp only [unbraced, UUID.text_digits, length, if_true, intOfHex_hex, Option.map_some]
  rw [BitVec.ofNat_toNat, BitVec.setWidth_eq]

theorem uuidOfText_str (id : UUID) : uuidOfText id.str.toList = some id := by
  rw [UUID.str, String.toList_ofList, uuidOfText_text]

theorem UUID.str_injective {first second : UUID} (same : first.str = second.str) :
    first = second := by
  have parsed := uuidOfText_str first
  rw [same, uuidOfText_str] at parsed
  exact (Option.some_inj.mp parsed).symm

end InsuranceOps
