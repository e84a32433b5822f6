/-
This file says how JSON text reads back. Induction over a value covers every
value nested in it. The characters of a string are found again behind their
escapes, pairs of escapes for one character included; a number ends where a
character stands that no number holds; and the first character of a text tells
the kind of the value. So the text `json.dumps` prints for a value whose floats
are doubles can be read in one way only.
-/

import InsuranceOps.Identifier
import InsuranceOps.NumberText
import InsuranceOps.Queue
import InsuranceOps.Library.UniqueReading

namespace InsuranceOps

open UniqueReading

/-! ### Values and the values nested in them -/

/-- A property of all values: arrays and objects may use it of the values they hold. -/
@[elab_as_elim] theorem Json.inductionOn {holds : Json → Prop} (value : Json)
    (null : holds .null) (bool : ∀ value, holds (.bool value))
    (int : ∀ value, holds (.int value)) (float : ∀ value, holds (.float value))
    (negativeZero : holds .negativeZero) (string : ∀ value, holds (.string value))
    (array : ∀ items, (∀ item ∈ items, holds item) → holds (.array items))
    (object : ∀ entries : JsonObject, (∀ entry ∈ entries, holds entry.2) →
      holds (.object entries)) : holds value :=
  match value with
  | .null => null
  | .bool value => bool value
  | .int value => int value
  | .float value => float value
  | .negativeZero => negativeZero
  | .string value => string value
  | .array items => array items fun item _ =>
    Json.inductionOn item null bool int float negativeZero string array object
  | .object entries => object entries fun entry member =>
    have := List.sizeOf_lt_of_mem member
    have : sizeOf entry.2 < sizeOf entry := by cases entry; simp
    Json.inductionOn entry.2 null bool int float negativeZero string array object
termination_by sizeOf value
decreasing_by
  · have := List.sizeOf_lt_of_mem ‹_›
    simp; omega
  · simp; omega

/-- A test everywhere in a value is a test of the value. -/
theorem Json.everywhere_self {test : Json → Bool} {value : Json}
    (passes : value.everywhere test = true) : test value = true := by
  cases value with
  | array items => exact ((Json.everywhere_array test items).mp passes).1
  | object entries => exact ((Json.everywhere_object test entries).mp passes).1
  | _ => exact passes

/-- A test that implies another one everywhere. -/
theorem Json.everywhere_imp {test other : Json → Bool}
    (implies : ∀ value, test value = true → other value = true) (value : Json)
    (passes : value.everywhere test = true) : value.everywhere other = true := by
  induction value using Json.inductionOn with
  | array items inductionHypothesis =>
    obtain ⟨here, inItems⟩ := (Json.everywhere_array _ _).mp passes
    exact (Json.everywhere_array _ _).mpr ⟨implies _ here, fun item member =>
      inductionHypothesis item member (inItems item member)⟩
  | object entries inductionHypothesis =>
    obtain ⟨here, inEntries⟩ := (Json.everywhere_object _ _).mp passes
    exact (Json.everywhere_object _ _).mpr ⟨implies _ here, fun entry member =>
      inductionHypothesis entry member (inEntries entry member)⟩
  | _ => exact implies _ passes

/-- The value is no float. -/
def Json.notFloat : Json → Bool
  | .float _ | .negativeZero => false
  | _ => true

/-- The value is no object that holds a key twice, as no Python `dict` does. -/
def Json.distinctKeys : Json → Bool
  | .object entries => decide (entries.map Prod.fst).Nodup
  | _ => true

/-! ### Characters of strings -/

/-- The code unit four hexadecimal digits stand for. -/
def readCodeUnit : Text → Option (Nat × Text)
  | first :: second :: third :: fourth :: rest =>
    match hexValue first, hexValue second, hexValue third, hexValue fourth with
    | some first, some second, some third, some fourth =>
      some (4096 * first + 256 * second + 16 * third + fourth, rest)
    | _, _, _, _ => none
  | _ => none

/-- The character a letter behind a backslash stands for. -/
def unescaped (letter : Char) : Char :=
  if letter = 'n' then Char.ofNat 10
  else if letter = 'r' then Char.ofNat 13
  else if letter = 't' then Char.ofNat 9
  else if letter = 'f' then Char.ofNat 12
  else if letter = 'b' then Char.ofNat 8
  else letter

/-- Read one character of a JSON string: a code unit that opens a surrogate pair takes the escape
of the other half with it. -/
def readChar : Text → Option (Char × Text)
  | [] => none
  | char :: rest =>
    if char ≠ backslash then some (char, rest)
    else match rest with
      | [] => none
      | letter :: rest =>
        if letter ≠ 'u' then some (unescaped letter, rest)
        else match readCodeUnit rest with
          | none => none
          | some (code, rest) =>
            if 55296 ≤ code ∧ code < 56320 then
              match readCodeUnit (rest.drop 2) with
              | none => none
              | some (low, rest) =>
                some (Char.ofNat (65536 + 1024 * (code - 55296) + (low - 56320)), rest)
            else some (Char.ofNat code, rest)

theorem readCodeUnit_hexDigits {code : Nat} (small : code < 65536) (rest : Text) :
    readCodeUnit (hexDigit (code / 4096 % 16) :: hexDigit (code / 256 % 16) ::
      hexDigit (code / 16 % 16) :: hexDigit (code % 16) :: rest) = some (code, rest) := by
  have bounded (number : Nat) : hexValue (hexDigit (number % 16)) = some (number % 16) :=
    hexValue_hexDigit (Nat.mod_lt _ (by decide))
  have whole : 4096 * (code / 4096 % 16) + 256 * (code / 256 % 16) + 16 * (code / 16 % 16) +
      code % 16 = code := by omega
  simp only [readCodeUnit, bounded, whole]

theorem readChar_plain {char : Char} (plain : char ≠ backslash) (rest : Text) :
    readChar (char :: rest) = some (char, rest) := by
  unfold readChar
  exact if_pos plain

theorem readChar_letter {letter : Char} (short : letter ≠ 'u') (rest : Text) :
    readChar (backslash :: letter :: rest) = some (unescaped letter, rest) := by
  unfold readChar
  exact (if_neg (not_not_intro rfl)).trans (if_pos short)

/-- An escape that opens no surrogate pair stands for its code. -/
theorem readChar_unicodeEscape {code : Nat} (small : code < 65536)
    (scalar : ¬(55296 ≤ code ∧ code < 56320)) (rest : Text) :
    readChar (unicodeEscape code ++ rest) = some (Char.ofNat code, rest) := by
  unfold readChar
  simp only [unicodeEscape, List.cons_append, List.nil_append, ne_eq, not_true_eq_false, if_false,
    readCodeUnit_hexDigits small, if_neg scalar]

/-- Two escapes that are a surrogate pair stand for one character. -/
theorem readChar_surrogates {high low : Nat} (highBound : high < 1024) (lowBound : low < 1024)
    (rest : Text) :
    readChar (unicodeEscape (55296 + high) ++ unicodeEscape (56320 + low) ++ rest) =
      some (Char.ofNat (65536 + 1024 * high + low), rest) := by
  have first : 55296 + high < 65536 := by omega
  have second : 56320 + low < 65536 := by omega
  have surrogate : 55296 ≤ 55296 + high ∧ 55296 + high < 56320 := by omega
  unfold readChar
  simp only [unicodeEscape, List.cons_append, List.nil_append, ne_eq, not_true_eq_false, if_false,
    readCodeUnit_hexDigits first, if_pos surrogate, List.drop_succ_cons, List.drop_zero,
    readCodeUnit_hexDigits second, Nat.add_sub_cancel_left]

/-- A character is found again behind its escape. -/
theorem readChar_escapeChar (char : Char) (rest : Text) :
    readChar (escapeChar char ++ rest) = some (char, rest) := by
  have named {code : Nat} (equal : char.toNat = code) : Char.ofNat code = char := by
    rw [← equal, Char.ofNat_toNat]
  have letter {code : Nat} {sign : Char} (short : sign ≠ 'u')
      (stands : unescaped sign = Char.ofNat code) (equal : char.toNat = code) :
      readChar (backslash :: sign :: rest) = some (char, rest) := by
    rw [readChar_letter short, stands, named equal]
  unfold escapeChar
  simp only []
  split_ifs with quote slash newline feed tab form back printable basic
  · exact letter (by decide) (by decide) quote
  · exact letter (by decide) (by decide) slash
  · exact letter (by decide) (by decide) newline
  · exact letter (by decide) (by decide) feed
  · exact letter (by decide) (by decide) tab
  · exact letter (by decide) (by decide) form
  · exact letter (by decide) (by decide) back
  · exact readChar_plain (fun equal => slash (by rw [equal]; rfl)) rest
  · -- No scalar value is half of a surrogate pair.
    have scalar : ¬(55296 ≤ char.toNat ∧ char.toNat < 56320) := by
      rintro ⟨low, high⟩
      rcases char.valid with below | above
      · exact absurd below (not_lt.mpr low)
      · exact absurd (lt_trans above.1 high) (by decide)
    rw [readChar_unicodeEscape basic scalar, Char.ofNat_toNat]
  · have bound : char.toNat < 1114112 := by
      rcases char.valid with below | above
      · exact lt_trans below (by decide)
      · exact above.2
    rw [readChar_surrogates (by omega) (by omega)]
    exact congrArg (fun read => some (read, rest)) (named (by omega))

theorem escapeChar_splits (first second : Char) :
    Splits (fun _ => True) escapeChar first second :=
  splits_of_reads readChar_escapeChar first second

/-- No escape starts with the mark that closes a string. -/
theorem escapeChar_cons (char : Char) :
    ∃ symbol tail, escapeChar char = symbol :: tail ∧ symbol ≠ quotationMark := by
  unfold escapeChar
  simp only []
  split_ifs with quote
  case pos => exact ⟨_, _, rfl, by decide⟩
  all_goals first
    | exact ⟨_, _, rfl, by decide⟩
    | exact ⟨char, [], rfl, fun equal => quote (by rw [equal]; rfl)⟩

/-- A string literal ends where its closing mark stands. -/
theorem quoted_splits (first second : String) :
    Splits (fun _ => True) quoted first second := by
  intro rest left _ _ same
  simp only [quoted, List.cons_append, List.append_assoc] at same
  obtain ⟨chars, rests⟩ :=
    flatMap_inj_of_splits escapeChar_splits escapeChar_cons (List.cons.inj same).2
  exact ⟨String.toList_inj.mp chars, rests⟩

/-! ### Kinds of values -/

/-- What the first character of a JSON text tells about the value. -/
inductive JsonKind where
  | null
  | bool (value : Bool)
  | number
  | string
  | array
  | object
  deriving DecidableEq

/-- The kind of the value a character opens. -/
def opens (char : Char) : Option JsonKind :=
  if char = 'n' then some .null
  else if char = 't' then some (.bool true)
  else if char = 'f' then some (.bool false)
  else if char = quotationMark then some .string
  else if char = '[' then some .array
  else if char = Char.ofNat 123 then some .object
  else if numeral char then some .number
  else none

/-- The kind of a value. -/
def Json.kind : Json → JsonKind
  | .null => .null
  | .bool value => .bool value
  | .int _ | .float _ | .negativeZero => .number
  | .string _ => .string
  | .array _ => .array
  | .object _ => .object

theorem opens_numeral {char : Char} (written : numeral char = true) :
    opens char = some .number := by
  unfold opens
  split_ifs with h h h h h h
  all_goals first
    | rfl
    | exact absurd written (by rw [h]; decide)

/-- A text made of the characters of numbers opens a number. -/
theorem opens_number {text : Text} (written : ∀ char ∈ text, numeral char = true)
    (nonempty : text ≠ []) : ∃ char tail, text = char :: tail ∧ opens char = some .number := by
  obtain ⟨char, tail, rfl⟩ := List.exists_cons_of_ne_nil nonempty
  exact ⟨char, tail, rfl, opens_numeral (written char List.mem_cons_self)⟩

/-- The first character of a text tells the kind of the value. -/
theorem Json.dumps_cons (value : Json) :
    ∃ char tail, value.dumps = char :: tail ∧ opens char = some value.kind := by
  cases value with
  | null => exact ⟨_, _, rfl, rfl⟩
  | bool value => cases value <;> exact ⟨_, _, rfl, rfl⟩
  | int value => exact opens_number (fun _ member => intText_numeral member) (intText_ne_nil value)
  | float value => exact opens_number (floatText_numeral value) (floatText_ne_nil value)
  | negativeZero => exact ⟨_, _, rfl, rfl⟩
  | string value => exact ⟨_, _, rfl, rfl⟩
  | array items => exact ⟨_, _, rfl, rfl⟩
  | object entries => exact ⟨_, _, rfl, rfl⟩

/-- Two values with one text in front of their continuations are of one kind. -/
theorem Json.kind_eq_of_dumps {first second : Json} {rest left : Text}
    (same : first.dumps ++ rest = second.dumps ++ left) : first.kind = second.kind := by
  obtain ⟨char, tail, text, opened⟩ := first.dumps_cons
  obtain ⟨other, remaining, otherText, otherOpened⟩ := second.dumps_cons
  rw [text, otherText, List.cons_append, List.cons_append] at same
  rw [(List.cons.inj same).1, otherOpened] at opened
  exact (Option.some.inj opened).symm

/-- The text of a value does not start with a character that opens no value. -/
theorem Json.dumps_ne_of_opens {closing : Char} (closes : opens closing = none) (value : Json) :
    ∃ symbol tail, value.dumps = symbol :: tail ∧ symbol ≠ closing := by
  obtain ⟨char, tail, text, opened⟩ := value.dumps_cons
  refine ⟨char, tail, text, ?_⟩
  rintro rfl
  exact absurd (opened.symm.trans closes) (Option.some_ne_none _)

/-! ### Reading whole values -/

theorem dumpsItems_eq (items : List Json) : dumpsItems items = items.map Json.dumps := by
  induction items with
  | nil => rfl
  | cons item rest inductionHypothesis => rw [dumpsItems, inductionHypothesis, List.map_cons]

/-- The text of one entry of an object. -/
def entryText (entry : String × Json) : Text := quoted entry.1 ++ ':' :: entry.2.dumps

theorem dumpsEntries_eq (entries : JsonObject) : dumpsEntries entries = entries.map entryText := by
  induction entries with
  | nil => rfl
  | cons entry rest inductionHypothesis =>
    obtain ⟨key, value⟩ := entry
    rw [dumpsEntries, inductionHypothesis, List.map_cons]
    rfl

theorem commaSeparated_eq : ∀ texts : List Text, commaSeparated texts = separated ',' texts
  | [] => rfl
  | [_] => rfl
  | text :: next :: more => by
    rw [separated_cons _ _ (List.cons_ne_nil _ _), ← commaSeparated_eq (next :: more)]
    rfl

theorem Json.dumps_array (items : List Json) (rest : Text) :
    (Json.array items).dumps ++ rest =
      '[' :: (separated ',' (items.map Json.dumps) ++ ']' :: rest) := by
  rw [Json.dumps, commaSeparated_eq, dumpsItems_eq]
  simp

theorem Json.dumps_object (entries : JsonObject) (rest : Text) :
    (Json.object entries).dumps ++ rest = Char.ofNat 123 ::
      (separated ',' (entries.map entryText) ++ Char.ofNat 125 :: rest) := by
  rw [Json.dumps, commaSeparated_eq, dumpsEntries_eq]
  simp

/-- No number goes on behind these characters. -/
def Delimits (rest : Text) : Prop := Outside (fun char => numeral char = true) rest

theorem delimits_cons {char : Char} (other : numeral char = false) (tail : Text) :
    Delimits (char :: tail) := outside_cons (by rw [other]; decide) tail

/-- A number is written with the characters of numbers. -/
theorem Json.dumps_numeral {value : Json} (number : value.kind = .number) :
    ∀ char ∈ value.dumps, numeral char = true := by
  cases value with
  | int value => exact fun _ member => intText_numeral member
  | float value => exact floatText_numeral value
  | negativeZero => exact List.all_eq_true.mp rfl
  | _ => nomatch number

/-- The text of a number reads back as the number. -/
theorem loadsNumber_dumps {value : Json} (number : value.kind = .number)
    (double : value.isDouble = true) : loadsNumber value.dumps = value := by
  cases value with
  | int value => exact loadsNumber_intText value
  | float value => exact loadsNumber_floatText (of_decide_eq_true double)
  | negativeZero => exact loadsNumber_negativeZero
  | _ => nomatch number

/-- A number ends in front of a character no number holds, and tells the value. -/
theorem Json.number_splits {first second : Json} (firstNumber : first.kind = .number)
    (secondNumber : second.kind = .number) (firstDouble : first.isDouble = true)
    (secondDouble : second.isDouble = true) : Splits Delimits Json.dumps first second := by
  intro rest left after behind same
  obtain ⟨texts, rests⟩ := append_inj_of_class (Json.dumps_numeral firstNumber)
    (Json.dumps_numeral secondNumber) after behind same
  rw [← loadsNumber_dumps firstNumber firstDouble, texts,
    loadsNumber_dumps secondNumber secondDouble]
  exact ⟨rfl, rests⟩

/-- Entries split where their values do. -/
theorem entryText_splits {first second : String × Json}
    (splits : Splits Delimits Json.dumps first.2 second.2) :
    Splits Delimits entryText first second := by
  intro rest left after behind same
  simp only [entryText, List.append_assoc, List.cons_append] at same
  obtain ⟨keys, tails⟩ := quoted_splits first.1 second.1 _ _ trivial trivial same
  obtain ⟨values, rests⟩ := splits rest left after behind (List.cons.inj tails).2
  exact ⟨Prod.ext keys values, rests⟩

/-- The text of a value whose floats are doubles ends in front of a character no number holds, and
tells the value. -/
theorem Json.dumps_splits (first : Json) : ∀ second : Json,
    first.everywhere Json.isDouble = true → second.everywhere Json.isDouble = true →
      Splits Delimits Json.dumps first second := by
  have numbers {first second : Json} (number : first.kind = .number)
      (double : first.everywhere Json.isDouble = true)
      (otherDouble : second.everywhere Json.isDouble = true) :
      Splits Delimits Json.dumps first second := fun rest left after behind same =>
    Json.number_splits number ((Json.kind_eq_of_dumps same).symm.trans number)
      (Json.everywhere_self double) (Json.everywhere_self otherDouble) rest left after behind same
  induction first using Json.inductionOn with
  | null =>
    intro second _ _ rest left _ _ same
    have kinds := Json.kind_eq_of_dumps same
    cases second with
    | null => exact ⟨rfl, List.append_cancel_left same⟩
    | _ => nomatch kinds
  | bool value =>
    intro second _ _ rest left _ _ same
    have kinds := Json.kind_eq_of_dumps same
    cases second with
    | bool other =>
      obtain rfl : value = other := JsonKind.bool.inj kinds
      exact ⟨rfl, List.append_cancel_left same⟩
    | _ => nomatch kinds
  | int value => exact fun second => numbers rfl
  | float value => exact fun second => numbers rfl
  | negativeZero => exact fun second => numbers rfl
  | string value =>
    intro second _ _ rest left _ _ same
    have kinds := Json.kind_eq_of_dumps same
    cases second with
    | string other =>
      obtain ⟨rfl, rests⟩ := quoted_splits value other rest left trivial trivial same
      exact ⟨rfl, rests⟩
    | _ => nomatch kinds
  | array items inductionHypothesis =>
    intro second double otherDouble rest left _ _ same
    have kinds := Json.kind_eq_of_dumps same
    cases second with
    | array others =>
      rw [Json.dumps_array, Json.dumps_array] at same
      have itemsDouble := ((Json.everywhere_array _ _).mp double).2
      have othersDouble := ((Json.everywhere_array _ _).mp otherDouble).2
      obtain ⟨rfl, rests⟩ := separated_inj_of_splits (by decide)
        (delimits_cons (by decide)) (delimits_cons (by decide))
        (fun item member other found => inductionHypothesis item member other
          (itemsDouble item member) (othersDouble other found))
        (fun item _ => item.dumps_ne_of_opens (by decide)) (List.cons.inj same).2
      exact ⟨rfl, rests⟩
    | _ => nomatch kinds
  | object entries inductionHypothesis =>
    intro second double otherDouble rest left _ _ same
    have kinds := Json.kind_eq_of_dumps same
    cases second with
    | object others =>
      rw [Json.dumps_object, Json.dumps_object] at same
      have entriesDouble := ((Json.everywhere_object _ _).mp double).2
      have othersDouble := ((Json.everywhere_object _ _).mp otherDouble).2
      obtain ⟨rfl, rests⟩ := separated_inj_of_splits (by decide)
        (delimits_cons (by decide)) (delimits_cons (by decide))
        (fun entry member other found => entryText_splits
          (inductionHypothesis entry member other.2 (entriesDouble entry member)
            (othersDouble other found)))
        (fun entry _ => ⟨_, _, rfl, by decide⟩) (List.cons.inj same).2
      exact ⟨rfl, rests⟩
    | _ => nomatch kinds

end InsuranceOps
