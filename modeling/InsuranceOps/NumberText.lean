/-
This file reads number literals. A literal is an exact decimal: digits, and how
many of them stand behind the point. Reading the text of an integer gives the
integer, and reading the text of a double gives an exact decimal whose nearest
double it is; so the text of a number tells the number.
-/

import InsuranceOps.Doubles

namespace InsuranceOps

/-! ### Characters of numbers -/

/-- The characters numbers are written with. -/
def numeral (char : Char) : Bool :=
  char.isDigit || char = '-' || char = '+' || char = '.' || char = 'e'

theorem numeral_of_isDigit {char : Char} (digit : char.isDigit = true) : numeral char = true := by
  simp [numeral, digit]

theorem isDigit_of_mem_decimal {value : Nat} {char : Char} (member : char ∈ decimal value) :
    char.isDigit = true := Nat.isDigit_of_mem_toDigits (by decide) (by decide) member

theorem decimal_ne_nil (value : Nat) : decimal value ≠ [] := Nat.toDigits_ne_nil

/-- The text of an integer. -/
def intText (value : Int) : Text :=
  if value < 0 then '-' :: decimal value.natAbs else decimal value.natAbs

theorem intText_numeral {value : Int} {char : Char} (member : char ∈ intText value) :
    numeral char = true := by
  unfold intText at member
  split at member
  · rcases List.mem_cons.mp member with rfl | digit
    · rfl
    · exact numeral_of_isDigit (isDigit_of_mem_decimal digit)
  · exact numeral_of_isDigit (isDigit_of_mem_decimal member)

theorem intText_ne_nil (value : Int) : intText value ≠ [] := by
  unfold intText
  split
  · exact List.cons_ne_nil _ _
  · exact decimal_ne_nil _

theorem padded_isDigit {width value : Nat} {char : Char} (member : char ∈ padded width value) :
    char.isDigit = true := by
  rcases List.mem_append.mp member with zero | digit
  · rw [(List.mem_replicate.mp zero).2]
    rfl
  · exact isDigit_of_mem_decimal digit

theorem le_padded_length (width value : Nat) : width ≤ (padded width value).length := by
  rw [padded, List.length_append, List.length_replicate]
  omega

theorem padded_numeral {width value : Nat} {char : Char} (member : char ∈ padded width value) :
    numeral char = true := numeral_of_isDigit (padded_isDigit member)

theorem positiveFloatText_numeral (value : ℚ) :
    ∀ char ∈ positiveFloatText value, numeral char = true := by
  have digits (number : Nat) : ∀ char ∈ decimal number, numeral char = true :=
    fun _ member => numeral_of_isDigit (isDigit_of_mem_decimal member)
  have zeros (count : Nat) : ∀ char ∈ List.replicate count '0', numeral char = true :=
    fun char member => by rw [(List.mem_replicate.mp member).2]; rfl
  unfold positiveFloatText
  simp only []
  split
  · simp only [List.forall_mem_append, List.forall_mem_cons]
    refine ⟨⟨fun _ member => digits _ _ (List.mem_of_mem_take member), ?_⟩, rfl, ?_,
      fun _ member => padded_numeral member⟩
    · split
      · exact fun _ member => absurd member List.not_mem_nil
      · simp only [List.forall_mem_cons]
        exact ⟨rfl, fun _ member => digits _ _ (List.mem_of_mem_drop member)⟩
    · split <;> rfl
  · split
    · simp only [List.cons_append, List.forall_mem_append, List.forall_mem_cons]
      exact ⟨rfl, rfl, zeros _, digits _⟩
    · simp only [List.forall_mem_append, List.forall_mem_cons]
      refine ⟨⟨fun _ member => digits _ _ (List.mem_of_mem_take member), zeros _⟩, rfl, ?_⟩
      split
      · exact fun _ member => by rw [List.mem_singleton.mp member]; rfl
      · exact fun _ member => digits _ _ (List.mem_of_mem_drop member)

theorem positiveFloatText_ne_nil (value : ℚ) : positiveFloatText value ≠ [] := by
  unfold positiveFloatText
  simp only []
  split
  · simp
  · split <;> simp

/-- A float is written with the characters of numbers. -/
theorem floatText_numeral (value : ℚ) : ∀ char ∈ floatText value, numeral char = true := by
  unfold floatText
  split
  · exact List.all_eq_true.mp rfl
  · split
    · exact List.forall_mem_cons.mpr ⟨rfl, positiveFloatText_numeral _⟩
    · exact positiveFloatText_numeral _

theorem floatText_ne_nil (value : ℚ) : floatText value ≠ [] := by
  unfold floatText
  split
  · decide
  · split
    · exact List.cons_ne_nil _ _
    · exact positiveFloatText_ne_nil _

/-! ### Literals as exact decimals -/

/-- An exact decimal: its digits, and how many of them stand behind the point. -/
structure Numeric where
  unscaled : Int
  scale : Nat

/-- The exact value of a decimal. -/
def Numeric.value (number : Numeric) : ℚ := number.unscaled / 10 ^ number.scale

/-- The exponent of a literal. -/
def readExponent : Text → Int
  | '-' :: digits => -Nat.ofDigitChars 10 digits 0
  | '+' :: digits => Nat.ofDigitChars 10 digits 0
  | digits => Nat.ofDigitChars 10 digits 0

/-- The exact decimal a number literal stands for. -/
def readNumeric (text : Text) : Numeric :=
  let unsigned := if text.head? = some '-' then text.drop 1 else text
  let mantissa := unsigned.takeWhile fun char => char ≠ 'e'
  let exponent := readExponent ((unsigned.dropWhile fun char => char ≠ 'e').drop 1)
  let whole := mantissa.takeWhile fun char => char ≠ '.'
  let fraction := (mantissa.dropWhile fun char => char ≠ '.').drop 1
  let digits : Int := Nat.ofDigitChars 10 (whole ++ fraction) 0
  let scale := (fraction.length : Int) - exponent
  ⟨(if text.head? = some '-' then -digits else digits) * 10 ^ (-scale).toNat, scale.toNat⟩

/-- The minus sign of a negative literal. -/
def signText (negative : Bool) : Text := if negative then ['-'] else []

/-- The sign of a negative literal. -/
def signed (negative : Bool) (number : Nat) : Int := if negative then -number else number

theorem takeWhile_until {stop : Char} {text rest : Text} (before : ∀ char ∈ text, char ≠ stop)
    (after : rest = [] ∨ ∃ tail, rest = stop :: tail) :
    (text ++ rest).takeWhile (fun char => char ≠ stop) = text ∧
      (text ++ rest).dropWhile (fun char => char ≠ stop) = rest := by
  have passes : ∀ char ∈ text, decide (char ≠ stop) = true :=
    fun char member => decide_eq_true (before char member)
  rw [List.takeWhile_append_of_pos passes, List.dropWhile_append_of_pos passes]
  rcases after with rfl | ⟨tail, rfl⟩
  · exact ⟨List.append_nil text, rfl⟩
  · simp

/-- A literal is read part by part: sign, digits, fraction and exponent. -/
theorem readNumeric_parts {whole point power : Text} (negative : Bool) (nonempty : whole ≠ [])
    (wholeDigits : ∀ char ∈ whole, char.isDigit = true)
    (pointed : point = [] ∨
      ∃ fraction, point = '.' :: fraction ∧ ∀ char ∈ fraction, char.isDigit = true)
    (powered : power = [] ∨ ∃ exponent, power = 'e' :: exponent) :
    readNumeric (signText negative ++ (whole ++ point ++ power)) =
      ⟨signed negative (Nat.ofDigitChars 10 (whole ++ point.drop 1) 0) *
          10 ^ (readExponent (power.drop 1) - ((point.drop 1).length : Int)).toNat,
        ((point.drop 1).length - readExponent (power.drop 1)).toNat⟩ := by
  have unit {number : Char} (digit : number.isDigit = true) {mark : Char}
      (other : mark.isDigit = false) : number ≠ mark := by
    rintro rfl
    exact absurd digit (by rw [other]; decide)
  have pointDigits : ∀ char ∈ whole ++ point, char ≠ 'e' := by
    refine List.forall_mem_append.mpr ⟨fun char member => unit (wholeDigits char member) rfl, ?_⟩
    rcases pointed with rfl | ⟨fraction, rfl, digits⟩
    · exact fun _ member => absurd member List.not_mem_nil
    · exact List.forall_mem_cons.mpr ⟨by decide, fun char member => unit (digits char member) rfl⟩
  obtain ⟨mantissa, behind⟩ := takeWhile_until pointDigits powered
  have unpointed : ∀ char ∈ whole, char ≠ '.' := fun char member =>
    unit (wholeDigits char member) rfl
  obtain ⟨before, after⟩ := takeWhile_until unpointed
    (pointed.imp_right fun ⟨fraction, found, _⟩ => ⟨fraction, found⟩)
  have signs : ((signText negative ++ (whole ++ point ++ power)).head? = some '-') =
      (negative = true) := by
    obtain ⟨first, tail, rfl⟩ := List.exists_cons_of_ne_nil nonempty
    cases negative with
    | true => simp [signText]
    | false =>
      have noSign : first ≠ '-' := unit (wholeDigits first List.mem_cons_self) rfl
      simp [signText, noSign]
  have unsigned : (if (signText negative ++ (whole ++ point ++ power)).head? = some '-' then
      (signText negative ++ (whole ++ point ++ power)).drop 1 else
        signText negative ++ (whole ++ point ++ power)) = whole ++ point ++ power := by
    simp only [signs]
    cases negative <;> rfl
  unfold readNumeric
  simp only [unsigned, mantissa, behind, before, after]
  simp only [signs, neg_sub]
  cases negative <;> rfl

/-- The decimal with these digits and this power of ten. -/
def Numeric.ofPower (number : Int) (power : Int) : Numeric :=
  ⟨number * 10 ^ power.toNat, (-power).toNat⟩

theorem Numeric.ofPower_value (number power : Int) :
    (Numeric.ofPower number power).value = number * 10 ^ power := by
  rw [ofPower, value]
  rcases le_total 0 power with whole | fraction
  · obtain ⟨exponent, rfl⟩ := Int.eq_ofNat_of_zero_le whole
    simp
  · obtain ⟨exponent, negated⟩ := Int.eq_ofNat_of_zero_le (neg_nonneg.mpr fraction)
    obtain rfl : power = -(exponent : Int) := by omega
    simp [div_eq_mul_inv]

theorem readNumeric_power {whole point power : Text} (negative : Bool) (nonempty : whole ≠ [])
    (wholeDigits : ∀ char ∈ whole, char.isDigit = true)
    (pointed : point = [] ∨
      ∃ fraction, point = '.' :: fraction ∧ ∀ char ∈ fraction, char.isDigit = true)
    (powered : power = [] ∨ ∃ exponent, power = 'e' :: exponent) :
    readNumeric (signText negative ++ (whole ++ point ++ power)) =
      Numeric.ofPower (signed negative (Nat.ofDigitChars 10 (whole ++ point.drop 1) 0))
        (readExponent (power.drop 1) - ((point.drop 1).length : Int)) := by
  rw [readNumeric_parts negative nonempty wholeDigits pointed powered, Numeric.ofPower, neg_sub]

/-- A literal with a fraction and without an exponent. -/
theorem readNumeric_pointed {whole fraction : Text} (negative : Bool) (nonempty : whole ≠ [])
    (wholeDigits : ∀ char ∈ whole, char.isDigit = true)
    (fractionDigits : ∀ char ∈ fraction, char.isDigit = true) :
    readNumeric (signText negative ++ (whole ++ '.' :: fraction)) =
      Numeric.ofPower (signed negative (Nat.ofDigitChars 10 (whole ++ fraction) 0))
        (-(fraction.length : Int)) := by
  have parts : whole ++ '.' :: fraction = whole ++ '.' :: fraction ++ [] := by simp
  rw [parts, readNumeric_power negative nonempty wholeDigits (.inr ⟨_, rfl, fractionDigits⟩)
    (.inl rfl), List.drop_succ_cons, List.drop_zero]
  simp [readExponent]

/-- An integer is read without a point. -/
theorem readNumeric_intText (value : Int) : readNumeric (intText value) = ⟨value, 0⟩ := by
  have parts : intText value =
      signText (value < 0) ++ (decimal value.natAbs ++ [] ++ []) := by
    unfold intText signText
    split <;> simp_all
  rw [parts, readNumeric_parts _ (decimal_ne_nil _) (fun _ => isDigit_of_mem_decimal) (.inl rfl)
    (.inl rfl)]
  have read :
      Nat.ofDigitChars 10 (decimal value.natAbs ++ ([] : Text).drop 1) 0 = value.natAbs := by
    rw [List.drop_nil, List.append_nil, decimal, Nat.ofDigitChars_ten_toDigits]
  have restored : signed (value < 0) value.natAbs = value := by
    unfold signed
    simp only [decide_eq_true_eq]
    split <;> omega
  rw [read, restored]
  simp [readExponent]

/-- The digits of a number are as many as its size says. -/
theorem decimal_length {count number : Nat} (some : 0 < count)
    (size : 10 ^ (count - 1) ≤ number ∧ number < 10 ^ count) : (decimal number).length = count := by
  have most : (decimal number).length ≤ count :=
    (Nat.length_toDigits_le_iff (by decide) some).mpr size.2
  have least : count ≤ (decimal number).length := by
    by_contra fewer
    have shorter : (decimal number).length ≤ count - 1 := by omega
    have positive : 0 < count - 1 :=
      lt_of_lt_of_le (List.length_pos_iff.mpr (decimal_ne_nil number)) shorter
    have := (Nat.length_toDigits_le_iff (by decide) positive).mp shorter
    omega
  omega

theorem ofDigitChars_zeros (count : Nat) (digits : Text) :
    Nat.ofDigitChars 10 (List.replicate count '0' ++ digits) 0 = Nat.ofDigitChars 10 digits 0 := by
  rw [Nat.ofDigitChars_append, Nat.ofDigitChars_replicate_zero, Nat.mul_zero]

theorem ofDigitChars_decimal (number : Nat) : Nat.ofDigitChars 10 (decimal number) 0 = number :=
  Nat.ofDigitChars_ten_toDigits

theorem ofDigitChars_padded (width value : Nat) :
    Nat.ofDigitChars 10 (padded width value) 0 = value := by
  rw [padded, ofDigitChars_zeros, ofDigitChars_decimal]

theorem readExponent_signed (exponent : Int) :
    readExponent ((if exponent < 0 then '-' else '+') :: padded 2 exponent.natAbs) = exponent := by
  split
  · rw [readExponent, ofDigitChars_padded]
    omega
  · rw [readExponent, ofDigitChars_padded]
    omega

/-- What reading the text of a positive double finds: the decimal with its shortest digits, without
a digit behind the point just when the text has a large exponent. -/
def ReadsDigits (text : Text) (count number : Nat) (exponent : Int) : Prop :=
  ∀ negative, ∃ (digits : Nat) (power : Int),
    readNumeric (signText negative ++ text) = Numeric.ofPower (signed negative digits) power ∧
      (digits : ℚ) * 10 ^ power = decimalValue count number exponent ∧
      (0 ≤ power ↔ 16 ≤ exponent)

section Forms

variable {count number : Nat} (some : 1 ≤ count)
  (size : 10 ^ (count - 1) ≤ number ∧ number < 10 ^ count)

include some size

/-- One digit, a fraction and an exponent. -/
theorem readsDigits_scientific {exponent : Int} (most : count ≤ 17)
    (scientific : exponent < -4 ∨ 16 ≤ exponent) :
    ReadsDigits ((decimal number).take 1 ++
      (if (decimal number).drop 1 = [] then [] else '.' :: (decimal number).drop 1) ++
      'e' :: (if exponent < 0 then '-' else '+') :: padded 2 exponent.natAbs)
      count number exponent := by
  intro negative
  have length := decimal_length some size
  have digits : ∀ char ∈ decimal number, char.isDigit = true := fun _ => isDigit_of_mem_decimal
  have fraction : (if (decimal number).drop 1 = [] then ([] : Text)
      else '.' :: (decimal number).drop 1).drop 1 = (decimal number).drop 1 := by
    split
    · rename_i empty
      rw [empty, List.drop_nil]
    · rfl
  have pointed : (if (decimal number).drop 1 = [] then ([] : Text)
      else '.' :: (decimal number).drop 1) = [] ∨ ∃ fraction, (if (decimal number).drop 1 = [] then
        ([] : Text) else '.' :: (decimal number).drop 1) = '.' :: fraction ∧
          ∀ char ∈ fraction, char.isDigit = true := by
    split
    · exact .inl rfl
    · exact .inr ⟨_, rfl, fun char member => digits char (List.mem_of_mem_drop member)⟩
  refine ⟨number, exponent - ((count : Int) - 1), ?_, rfl, by omega⟩
  rw [readNumeric_power negative (by simp [decimal_ne_nil])
    (fun char member => digits char (List.mem_of_mem_take member)) pointed (.inr ⟨_, rfl⟩),
    fraction, List.take_append_drop, ofDigitChars_decimal, List.drop_succ_cons, List.drop_zero,
    readExponent_signed, List.length_drop, length]
  congr 1
  omega

/-- Zeros behind the point, and then the digits. -/
theorem readsDigits_small {exponent : Int} (small : exponent < 0) :
    ReadsDigits ('0' :: '.' :: List.replicate (exponent.natAbs - 1) '0' ++ decimal number)
      count number exponent := by
  intro negative
  have length := decimal_length some size
  have digits : ∀ char ∈ List.replicate (exponent.natAbs - 1) '0' ++ decimal number,
      char.isDigit = true := by
    refine List.forall_mem_append.mpr ⟨fun char member => ?_, fun _ => isDigit_of_mem_decimal⟩
    rw [(List.mem_replicate.mp member).2]
    rfl
  have parts : '0' :: '.' :: List.replicate (exponent.natAbs - 1) '0' ++ decimal number =
      ['0'] ++ '.' :: (List.replicate (exponent.natAbs - 1) '0' ++ decimal number) := rfl
  have read : Nat.ofDigitChars 10 (['0'] ++ (List.replicate (exponent.natAbs - 1) '0' ++
      decimal number)) 0 = number := by
    rw [show ['0'] = List.replicate 1 '0' from rfl, ofDigitChars_zeros, ofDigitChars_zeros,
      ofDigitChars_decimal]
  refine ⟨number, exponent - ((count : Int) - 1), ?_, rfl, by omega⟩
  rw [parts, readNumeric_pointed negative (by simp) (List.all_eq_true.mp rfl) digits, read,
    List.length_append, List.length_replicate, length]
  congr 1
  omega

/-- The digits with a point among or behind them. -/
theorem readsDigits_plain {exponent : Int} (large : 0 ≤ exponent) (plain : exponent < 16) :
    ReadsDigits ((decimal number).take (exponent.toNat + 1) ++
      List.replicate (exponent.toNat + 1 - (decimal number).length) '0' ++
      '.' :: if (decimal number).drop (exponent.toNat + 1) = [] then ['0']
        else (decimal number).drop (exponent.toNat + 1)) count number exponent := by
  intro negative
  have length := decimal_length some size
  obtain ⟨before, rfl⟩ := Int.eq_ofNat_of_zero_le large
  have whole : ∀ char ∈ (decimal number).take (before + 1) ++
      List.replicate (before + 1 - (decimal number).length) '0', char.isDigit = true := by
    refine List.forall_mem_append.mpr
      ⟨fun char member => isDigit_of_mem_decimal (List.mem_of_mem_take member),
        fun char member => ?_⟩
    rw [(List.mem_replicate.mp member).2]
    rfl
  have nonempty : (decimal number).take (before + 1) ++
      List.replicate (before + 1 - (decimal number).length) '0' ≠ [] := by
    simp [decimal_ne_nil]
  rw [Int.toNat_natCast]
  by_cases behind : (decimal number).drop (before + 1) = []
  · -- No digit is left for the fraction: zeros up to the point, and one behind it.
    have fits : count ≤ before + 1 := by
      rw [← length]
      exact List.drop_eq_nil_iff.mp behind
    rw [if_pos behind]
    refine ⟨number * 10 ^ (before + 1 - count) * 10, -1, ?_, ?_, by omega⟩
    · have zero : ∀ char ∈ ['0'], char.isDigit = true := List.all_eq_true.mp rfl
      rw [readNumeric_pointed negative nonempty whole zero]
      have read : Nat.ofDigitChars 10 ((decimal number).take (before + 1) ++
          List.replicate (before + 1 - (decimal number).length) '0' ++ ['0']) 0 =
          number * 10 ^ (before + 1 - count) * 10 := by
        rw [List.take_of_length_le (by omega), Nat.ofDigitChars_append, Nat.ofDigitChars_append,
          ofDigitChars_decimal, Nat.ofDigitChars_replicate_zero, length]
        simp [Nat.ofDigitChars_cons, Nat.mul_comm]
      rw [read]
      rfl
    · have zeros : (before : Int) - ((count : Int) - 1) = (before + 1 - count : Nat) := by omega
      rw [decimalValue, zeros, zpow_natCast]
      push_cast
      rw [zpow_neg_one, mul_assoc, mul_inv_cancel₀ (by norm_num), mul_one]
  · have longer : before + 1 < count := by
      rw [← length]
      exact not_le.mp fun fits => behind (List.drop_eq_nil_iff.mpr fits)
    rw [if_neg behind]
    refine ⟨number, (before : Int) - ((count : Int) - 1), ?_, rfl, by omega⟩
    rw [readNumeric_pointed negative nonempty whole fun char member =>
        isDigit_of_mem_decimal (List.mem_of_mem_drop member), length,
      show before + 1 - count = 0 by omega, List.replicate_zero, List.append_nil,
      List.take_append_drop, ofDigitChars_decimal, List.length_drop, length]
    congr 1
    omega

end Forms

/-- The text of a positive double reads as the decimal with its shortest digits. -/
theorem positiveFloatText_readsDigits {value : ℚ} {count : Nat}
    (reads : ReadsBack value count (shortest value).1 (shortest value).2) :
    ReadsDigits (positiveFloatText value) count (shortest value).1 (shortest value).2 := by
  obtain ⟨⟨some, most⟩, size, -⟩ := reads
  unfold positiveFloatText
  simp only []
  split
  · rename_i scientific
    exact readsDigits_scientific some size most scientific
  · rename_i plain
    split
    · rename_i small
      exact readsDigits_small some size small
    · rename_i large
      exact readsDigits_plain some size (by omega) (by omega)

/-! ### Numbers Python reads -/

/-- The double nearest to an exact decimal; a negative literal that rounds to zero is the negative
zero. -/
def nearestDouble (negative : Bool) (value : ℚ) : Json :=
  if roundToDouble |value| = 0 then if negative then .negativeZero else .float 0
  else .float (if negative then -roundToDouble |value| else roundToDouble |value|)

/-- `json.loads` of a number literal: an `int` where it has neither fraction nor exponent. -/
def loadsNumber (text : Text) : Json :=
  if '.' ∈ text ∨ 'e' ∈ text then
    nearestDouble (text.head? = some '-') (readNumeric text).value
  else .int (readNumeric text).unscaled

/-- A float is a double. -/
def Json.isDouble : Json → Bool
  | .float value => roundToDouble |value| = |value|
  | _ => true

theorem loadsNumber_intText (value : Int) : loadsNumber (intText value) = .int value := by
  have exact {mark : Char} (other : mark.isDigit = false) (minus : mark ≠ '-') :
      mark ∉ intText value := by
    unfold intText
    split
    · rw [List.mem_cons, not_or]
      exact ⟨minus, fun member =>
        absurd (isDigit_of_mem_decimal member) (by rw [other]; decide)⟩
    · exact fun member => absurd (isDigit_of_mem_decimal member) (by rw [other]; decide)
  rw [loadsNumber, if_neg, readNumeric_intText]
  rintro (point | power)
  · exact exact rfl (by decide) point
  · exact exact rfl (by decide) power

/-- The text of a positive float starts with a digit and has a point or an exponent. -/
theorem positiveFloatText_form (value : ℚ) :
    (∃ char tail, positiveFloatText value = char :: tail ∧ char.isDigit = true) ∧
      ('.' ∈ positiveFloatText value ∨ 'e' ∈ positiveFloatText value) := by
  obtain ⟨first, tail, digits⟩ :=
    List.exists_cons_of_ne_nil (decimal_ne_nil (shortest value).1)
  have member : first ∈ decimal (shortest value).1 := by
    rw [digits]
    exact List.mem_cons_self
  have digit := isDigit_of_mem_decimal member
  unfold positiveFloatText
  simp only [digits]
  split
  · exact ⟨⟨first, _, rfl, digit⟩, .inr (by simp)⟩
  · split
    · exact ⟨⟨_, _, rfl, rfl⟩, .inl (by simp)⟩
    · exact ⟨⟨first, _, rfl, digit⟩, .inl (by simp)⟩

theorem floatText_eq {value : ℚ} (nonzero : value ≠ 0) :
    floatText value = signText (value < 0) ++ positiveFloatText |value| := by
  rw [floatText, if_neg nonzero]
  split
  · rename_i negative
    rw [abs_of_neg negative]
    simp [signText, negative]
  · rename_i positive
    rw [abs_of_nonneg (not_lt.mp positive)]
    simp [signText, not_lt.mp positive]

/-- What reading the text of a double finds. -/
theorem readNumeric_floatText {value : ℚ} (nonzero : value ≠ 0)
    (double : roundToDouble |value| = |value|) :
    ∃ (digits : Nat) (power : Int),
      readNumeric (floatText value) = Numeric.ofPower (signed (value < 0) digits) power ∧
        roundToDouble (digits * 10 ^ power) = |value| ∧ (0 ≤ power ↔ 10 ^ 16 ≤ |value|) := by
  have positive := abs_pos.mpr nonzero
  obtain ⟨count, reads⟩ := shortest_readsBack positive double
  obtain ⟨digits, power, read, exact, whole⟩ :=
    positiveFloatText_readsDigits reads (value < 0)
  refine ⟨digits, power, ?_, ?_, whole.trans (shortest_exponent positive double)⟩
  · rw [floatText_eq nonzero, read]
  · rw [exact, reads.reads]

theorem signed_abs (negative : Bool) (digits : Nat) (power : Int) :
    |((signed negative digits : Int) : ℚ) * 10 ^ power| = digits * 10 ^ power := by
  rw [abs_mul, abs_of_pos (zpow_pos (by norm_num : (0 : ℚ) < 10) power)]
  cases negative <;> simp [signed]

/-- The nearest double of a decimal that rounds to the size of a number is the number. -/
theorem nearestDouble_eq {value exact : ℚ} (nonzero : value ≠ 0)
    (rounded : roundToDouble |exact| = |value|) :
    nearestDouble (value < 0) exact = .float value := by
  rw [nearestDouble, rounded, if_neg (abs_ne_zero.mpr nonzero)]
  congr 1
  simp only [decide_eq_true_eq]
  split
  · rename_i negative
    rw [abs_of_neg negative, neg_neg]
  · rename_i positive
    rw [abs_of_nonneg (not_lt.mp positive)]

/-- The text of a double reads back as the double. -/
theorem loadsNumber_floatText {value : ℚ} (double : roundToDouble |value| = |value|) :
    loadsNumber (floatText value) = .float value := by
  by_cases zero : value = 0
  · subst zero
    decide +kernel
  · obtain ⟨digits, power, read, rounded, -⟩ := readNumeric_floatText zero double
    obtain ⟨⟨first, tail, text, digit⟩, marked⟩ := positiveFloatText_form |value|
    have signs : (floatText value).head? = some '-' ↔ value < 0 := by
      have plain : first ≠ '-' := by
        rintro rfl
        exact absurd digit (by decide)
      rw [floatText_eq zero, text, signText]
      by_cases negative : value < 0
      · simp [negative]
      · simp [negative, plain]
    rw [loadsNumber, if_pos, read, Numeric.ofPower_value]
    · simp only [signs]
      exact nearestDouble_eq zero (by rw [signed_abs, rounded])
    · rw [floatText_eq zero]
      exact marked.imp (List.mem_append_right _) (List.mem_append_right _)

theorem loadsNumber_negativeZero : loadsNumber "-0.0".toList = .negativeZero := by decide +kernel

end InsuranceOps
