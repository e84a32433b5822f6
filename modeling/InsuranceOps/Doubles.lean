/-
This file proves that the text of a float reads back as the same double.
Rounding to a double forgets changes that are small against the number, and
seventeen digits change a number by less than that. So the search for the
shortest digits that read back always succeeds, and the digits it finds are as
many as it looked for.
-/

import InsuranceOps.Json
import Mathlib.Data.Int.Log
import Mathlib.Tactic.Linarith
import Mathlib.Tactic.FieldSimp
import Mathlib.Tactic.Positivity

namespace InsuranceOps

/-! ### Rounding to an integer -/

theorem roundHalfEven_error (value : ℚ) : |(roundHalfEven value : ℚ) - value| ≤ 1 / 2 := by
  have below := Int.floor_le value
  have above := Int.lt_floor_add_one value
  unfold roundHalfEven
  simp only []
  split_ifs <;> push_cast <;> rw [abs_le] <;> constructor <;> linarith

/-- A number nearer than one half to an integer rounds to it. -/
theorem roundHalfEven_eq {value : ℚ} {number : Int} (near : |value - number| < 1 / 2) :
    roundHalfEven value = number := by
  have error := roundHalfEven_error value
  rw [abs_le] at error
  rw [abs_lt] at near
  have upper : (roundHalfEven value : ℚ) < number + 1 := by linarith
  have lower : (number : ℚ) < roundHalfEven value + 1 := by linarith
  have upper' : roundHalfEven value < number + 1 := by exact_mod_cast upper
  have lower' : number < roundHalfEven value + 1 := by exact_mod_cast lower
  omega

/-! ### Powers at or below a number -/

theorem binaryExponent_eq (value : ℚ) : binaryExponent value = Int.log 2 value := by
  unfold binaryExponent Int.log
  rw [one_div]

theorem decimalExponent_eq (value : ℚ) : decimalExponent value = Int.log 10 value := by
  unfold decimalExponent Int.log
  rw [one_div]

theorem binaryExponent_le {value : ℚ} (positive : 0 < value) :
    (2 : ℚ) ^ binaryExponent value ≤ value := by
  rw [binaryExponent_eq]
  exact_mod_cast Int.zpow_log_le_self (b := 2) (by decide) positive

theorem lt_binaryExponent (value : ℚ) : value < (2 : ℚ) ^ (binaryExponent value + 1) := by
  rw [binaryExponent_eq]
  exact_mod_cast Int.lt_zpow_succ_log_self (b := 2) (by decide) value

theorem decimalExponent_le {value : ℚ} (positive : 0 < value) :
    (10 : ℚ) ^ decimalExponent value ≤ value := by
  rw [decimalExponent_eq]
  exact_mod_cast Int.zpow_log_le_self (b := 10) (by decide) positive

theorem lt_decimalExponent (value : ℚ) : value < (10 : ℚ) ^ (decimalExponent value + 1) := by
  rw [decimalExponent_eq]
  exact_mod_cast Int.lt_zpow_succ_log_self (b := 10) (by decide) value

/-! ### Rounding to a double -/

/-- The exponent of the last bit a double of this size has. -/
def lastBit (value : ℚ) : Int := max (binaryExponent value - 52) (-1074)

theorem roundToDouble_eq (value : ℚ) :
    roundToDouble value = roundHalfEven (value / 2 ^ lastBit value) * 2 ^ lastBit value := rfl

/-- A double is a whole number of its last bit. -/
theorem exists_bits {value : ℚ} (double : roundToDouble value = value) :
    ∃ bits : Int, value = bits * 2 ^ lastBit value :=
  ⟨_, (roundToDouble_eq value ▸ double).symm⟩

theorem zpow_two_add (first second : Int) : (2 : ℚ) ^ (first + second) = 2 ^ first * 2 ^ second :=
  zpow_add₀ (by norm_num) first second

/-- A number has at most 53 bits above its last one. -/
theorem lt_lastBit (value : ℚ) : value < 2 ^ 53 * 2 ^ lastBit value := by
  have size : (2 : ℚ) ^ (binaryExponent value + 1) ≤ 2 ^ (53 + lastBit value) :=
    zpow_le_zpow_right₀ (by norm_num) (by unfold lastBit; omega)
  rw [zpow_two_add 53] at size
  exact lt_of_lt_of_le (lt_binaryExponent value) size

/-- A small change of a double does not lift it over the next power of two. -/
theorem binaryExponent_le_of_near {value other : ℚ} (positive : 0 < value)
    (double : roundToDouble value = value) (near : other - value ≤ value / (2 * 10 ^ 16))
    (otherPositive : 0 < other) : binaryExponent other ≤ binaryExponent value := by
  by_contra longer
  obtain ⟨bits, whole⟩ := exists_bits double
  have unit : (0 : ℚ) < 2 ^ lastBit value := zpow_pos (by norm_num) _
  have top := lt_binaryExponent value
  have lifted : (2 : ℚ) ^ (binaryExponent value + 1) ≤ other :=
    le_trans (zpow_le_zpow_right₀ (by norm_num) (by omega)) (binaryExponent_le otherPositive)
  have someBit : (1 : ℚ) ≤ bits := by
    have : (0 : ℚ) < bits := by
      rw [whole] at positive
      exact (mul_pos_iff_of_pos_right unit).mp positive
    exact_mod_cast this
  -- The next power of two is a whole number of last bits, so the double stays one of them below.
  have under : lastBit value < binaryExponent value + 1 := by
    refine (zpow_lt_zpow_iff_right₀ (by norm_num : (1 : ℚ) < 2)).mp (lt_of_le_of_lt ?_ top)
    calc (2 : ℚ) ^ lastBit value ≤ bits * 2 ^ lastBit value := le_mul_of_one_le_left unit.le someBit
      _ = value := whole.symm
  obtain ⟨count, counted⟩ := Int.le.dest under.le
  have power : (2 : ℚ) ^ (binaryExponent value + 1) = 2 ^ count * 2 ^ lastBit value := by
    rw [← counted, zpow_two_add, zpow_natCast, mul_comm]
  have room : value + 2 ^ lastBit value ≤ 2 ^ (binaryExponent value + 1) := by
    have fewer : (bits : ℚ) < 2 ^ count := by
      refine lt_of_mul_lt_mul_right ?_ unit.le
      rwa [← power, ← whole]
    have fewerBits : bits + 1 ≤ 2 ^ count := by exact_mod_cast fewer
    have counts : (bits : ℚ) + 1 ≤ 2 ^ count := by exact_mod_cast fewerBits
    calc value + 2 ^ lastBit value = (bits + 1) * 2 ^ lastBit value := by
          rw [add_mul, one_mul, ← whole]
      _ ≤ 2 ^ count * 2 ^ lastBit value := mul_le_mul_of_nonneg_right counts unit.le
      _ = 2 ^ (binaryExponent value + 1) := power.symm
  have size := lt_lastBit value
  have small : value / (2 * 10 ^ 16) < 2 ^ lastBit value := by
    rw [div_lt_iff₀ (by positivity)]
    linarith
  linarith

/-- Rounding to a double forgets a change that is small against the number. -/
theorem roundToDouble_of_near {value other : ℚ} (positive : 0 < value)
    (double : roundToDouble value = value)
    (near : |other - value| ≤ value / (2 * 10 ^ 16)) : roundToDouble other = value := by
  obtain ⟨bits, whole⟩ := exists_bits double
  obtain ⟨above, below⟩ := abs_le.mp near
  have tiny : value / (2 * 10 ^ 16) < value := by
    rw [div_lt_iff₀ (by positivity)]
    linarith
  have otherPositive : 0 < other := by linarith
  have exponents := binaryExponent_le_of_near positive double below otherPositive
  have lower : lastBit other ≤ lastBit value := by
    unfold lastBit
    omega
  obtain ⟨count, counted⟩ := Int.le.dest lower
  have unit : (0 : ℚ) < 2 ^ lastBit other := zpow_pos (by norm_num) _
  have finer : value = (bits * 2 ^ count : Int) * 2 ^ lastBit other := by
    rw [whole, ← counted, zpow_two_add, zpow_natCast]
    push_cast
    ring
  have size := lt_lastBit other
  have half : value / (2 * 10 ^ 16) < 1 / 2 * 2 ^ lastBit other := by
    rw [div_lt_iff₀ (by positivity)] at tiny ⊢
    have : value * (2 * 10 ^ 16 - 1) ≤ other * (2 * 10 ^ 16) := by
      have := mul_le_mul_of_nonneg_right above (by positivity : (0 : ℚ) ≤ 2 * 10 ^ 16)
      rw [neg_mul, div_mul_cancel₀ _ (by positivity)] at this
      linarith
    linarith
  have rounded : roundHalfEven (other / 2 ^ lastBit other) = bits * 2 ^ count := by
    refine roundHalfEven_eq ?_
    have scaled : other / 2 ^ lastBit other - (bits * 2 ^ count : Int) =
        (other - value) / 2 ^ lastBit other := by
      rw [sub_div, finer, mul_div_cancel_right₀ _ unit.ne']
    rw [scaled, abs_div, abs_of_pos unit, div_lt_iff₀ unit]
    exact lt_of_le_of_lt near half
  rw [roundToDouble_eq, rounded, ← finer]

/-! ### Digits of a number -/

/-- The number some digits and the decimal exponent of the first of them stand for. -/
def decimalValue (count number : Nat) (exponent : Int) : ℚ :=
  number * 10 ^ (exponent - ((count : Int) - 1))

theorem zpow_ten_add (first second : Int) :
    (10 : ℚ) ^ (first + second) = 10 ^ first * 10 ^ second := zpow_add₀ (by norm_num) first second

theorem decimalValue_power {count : Nat} (some : 0 < count) (exponent : Int) :
    decimalValue count (10 ^ (count - 1)) exponent = 10 ^ exponent := by
  rw [decimalValue, Nat.cast_pow, Nat.cast_ofNat, ← zpow_natCast, ← zpow_ten_add]
  congr 1
  omega

theorem scaledTo_bounds {count : Nat} {value : ℚ} (some : 0 < count) (positive : 0 < value) :
    (10 : ℚ) ^ (count - 1) ≤ scaledTo count value ∧ scaledTo count value < 10 ^ count := by
  have scale : (0 : ℚ) < 10 ^ ((count : Int) - 1 - decimalExponent value) :=
    zpow_pos (by norm_num) _
  constructor
  · calc (10 : ℚ) ^ (count - 1)
        = 10 ^ decimalExponent value * 10 ^ ((count : Int) - 1 - decimalExponent value) := by
          rw [← zpow_ten_add, ← zpow_natCast]
          congr 1
          omega
      _ ≤ scaledTo count value := mul_le_mul_of_nonneg_right (decimalExponent_le positive) scale.le
  · calc scaledTo count value
        < 10 ^ (decimalExponent value + 1) * 10 ^ ((count : Int) - 1 - decimalExponent value) :=
          mul_lt_mul_of_pos_right (lt_decimalExponent value) scale
      _ = 10 ^ count := by
          rw [← zpow_ten_add, ← zpow_natCast]
          congr 1
          omega

/-- Rounding to some digits changes the number by at most half of the last one. -/
theorem decimalValue_error {count number : Nat} {value : ℚ}
    (rounded : roundHalfEven (scaledTo count value) = number) :
    |decimalValue count number (decimalExponent value) - value| ≤
      10 ^ (decimalExponent value - ((count : Int) - 1)) / 2 := by
  have unit : (0 : ℚ) < 10 ^ (decimalExponent value - ((count : Int) - 1)) :=
    zpow_pos (by norm_num) _
  have unscaled : value =
      scaledTo count value * 10 ^ (decimalExponent value - ((count : Int) - 1)) := by
    rw [scaledTo, mul_assoc, ← zpow_ten_add]
    simp
  have error := roundHalfEven_error (scaledTo count value)
  rw [rounded] at error
  calc |decimalValue count number (decimalExponent value) - value|
      = |((number : Int) : ℚ) - scaledTo count value| *
          10 ^ (decimalExponent value - ((count : Int) - 1)) := by
        nth_rewrite 2 [unscaled]
        rw [decimalValue, ← sub_mul, abs_mul, abs_of_pos unit, Int.cast_natCast]
    _ ≤ 1 / 2 * 10 ^ (decimalExponent value - ((count : Int) - 1)) :=
        mul_le_mul_of_nonneg_right error unit.le
    _ = 10 ^ (decimalExponent value - ((count : Int) - 1)) / 2 := by ring

/-- A number scaled to some digits rounds to that many, or to the next power of ten. -/
theorem nearest_bounds {count : Nat} {value : ℚ} (some : 0 < count) (positive : 0 < value) :
    (10 : Int) ^ (count - 1) ≤ roundHalfEven (scaledTo count value) ∧
      roundHalfEven (scaledTo count value) ≤ 10 ^ count := by
  obtain ⟨low, high⟩ := scaledTo_bounds some positive
  obtain ⟨below, above⟩ := abs_le.mp (roundHalfEven_error (scaledTo count value))
  constructor
  · have : ((10 ^ (count - 1) : Int) : ℚ) < roundHalfEven (scaledTo count value) + 1 := by
      push_cast
      linarith
    exact Int.lt_add_one_iff.mp (by exact_mod_cast this)
  · have : (roundHalfEven (scaledTo count value) : ℚ) < (10 ^ count : Int) + 1 := by
      push_cast
      linarith
    exact Int.lt_add_one_iff.mp (by exact_mod_cast this)

/-- So does the number on its other side. -/
theorem beyond_bounds {count : Nat} {value : ℚ} (some : 0 < count) (positive : 0 < value) :
    let nearest := roundHalfEven (scaledTo count value)
    let beyond := if nearest ≤ scaledTo count value then nearest + 1 else nearest - 1
    (10 : Int) ^ (count - 1) ≤ beyond ∧ beyond ≤ 10 ^ count := by
  intro nearest beyond
  obtain ⟨low, high⟩ := scaledTo_bounds some positive
  obtain ⟨least, most⟩ : (10 : Int) ^ (count - 1) ≤ nearest ∧ nearest ≤ 10 ^ count :=
    nearest_bounds some positive
  show (10 : Int) ^ (count - 1) ≤ ite _ _ _ ∧ ite _ _ _ ≤ (10 : Int) ^ count
  split
  · rename_i below
    have : (nearest : ℚ) < (10 ^ count : Int) := by
      push_cast
      exact lt_of_le_of_lt below high
    have : nearest < 10 ^ count := by exact_mod_cast this
    omega
  · rename_i above
    have : ((10 ^ (count - 1) : Int) : ℚ) < nearest := by
      push_cast
      exact lt_of_le_of_lt low (not_le.mp above)
    have : (10 : Int) ^ (count - 1) < nearest := by exact_mod_cast this
    omega

/-- Digits in these bounds are as many as counted once one too many is carried. -/
theorem carried_size {count : Nat} (some : 0 < count) {digits : Int} (value : ℚ)
    (least : (10 : Int) ^ (count - 1) ≤ digits) (most : digits ≤ 10 ^ count) :
    10 ^ (count - 1) ≤ (carried count digits value).1 ∧
      (carried count digits value).1 < 10 ^ count := by
  unfold carried
  split
  · exact ⟨le_rfl, Nat.pow_lt_pow_right (by decide) (by omega)⟩
  · rename_i fits
    have nonnegative : 0 ≤ digits := le_trans (by positivity) least
    have whole : (digits.toNat : Int) = digits := Int.toNat_of_nonneg nonnegative
    have most' : digits < 10 ^ count := lt_of_le_of_ne most fits
    rw [← whole] at least most'
    exact ⟨by exact_mod_cast least, by exact_mod_cast most'⟩

theorem significant_size {count : Nat} {value : ℚ} (some : 0 < count) (positive : 0 < value) :
    10 ^ (count - 1) ≤ (significant count value).1 ∧ (significant count value).1 < 10 ^ count :=
  carried_size some value (nearest_bounds some positive).1 (nearest_bounds some positive).2

theorem significantBeyond_size {count : Nat} {value : ℚ} (some : 0 < count)
    (positive : 0 < value) : 10 ^ (count - 1) ≤ (significantBeyond count value).1 ∧
      (significantBeyond count value).1 < 10 ^ count :=
  carried_size some value (beyond_bounds some positive).1 (beyond_bounds some positive).2

/-- Carrying keeps the number: it is written with one digit less. -/
theorem decimalValue_carried {count : Nat} (some : 0 < count) {digits : Int} (value : ℚ)
    (nonnegative : 0 ≤ digits) :
    decimalValue count (carried count digits value).1 (carried count digits value).2 =
      decimalValue count digits.toNat (decimalExponent value) := by
  unfold carried
  split
  · rename_i power
    have whole : digits.toNat = 10 ^ count := by
      have : (digits.toNat : Int) = (10 ^ count : Nat) := by
        rw [Int.toNat_of_nonneg nonnegative, power]
        push_cast
        rfl
      exact_mod_cast this
    rw [whole, decimalValue, decimalValue, add_sub_right_comm, zpow_ten_add,
      show count = count - 1 + 1 by omega, Nat.add_sub_cancel, pow_succ]
    push_cast
    ring
  · rfl

/-- Rounding to some digits changes the number by at most half of the last one. -/
theorem significant_error (count : Nat) {value : ℚ} (some : 0 < count) (positive : 0 < value) :
    |decimalValue count (significant count value).1 (significant count value).2 - value| ≤
      10 ^ (decimalExponent value - ((count : Int) - 1)) / 2 := by
  have nonnegative : 0 ≤ roundHalfEven (scaledTo count value) :=
    le_trans (by positivity) (nearest_bounds some positive).1
  rw [significant, decimalValue_carried some value nonnegative]
  exact decimalValue_error (Int.toNat_of_nonneg nonnegative).symm

/-! ### The shortest digits -/

/-- The digits found are as many as counted, and read back as the number. -/
structure ReadsBack (value : ℚ) (count number : Nat) (exponent : Int) : Prop where
  counted : 1 ≤ count ∧ count ≤ 17
  size : 10 ^ (count - 1) ≤ number ∧ number < 10 ^ count
  reads : roundToDouble (decimalValue count number exponent) = value

/-- Seventeen digits of a double read back. -/
theorem seventeen_digits {value : ℚ} (positive : 0 < value)
    (double : roundToDouble value = value) :
    roundToDouble (decimalValue 17 (significant 17 value).1 (significant 17 value).2) = value := by
  have error := significant_error 17 (by decide) positive
  refine roundToDouble_of_near positive double (le_trans error ?_)
  rw [zpow_sub₀ (by norm_num), div_div]
  refine div_le_div₀ positive.le (decimalExponent_le positive) (by positivity) ?_
  norm_num

/-- The shortest digits are some digits on one side of the number that read back. -/
theorem shortest_eq {value : ℚ} (positive : 0 < value) (double : roundToDouble value = value) :
    ∃ count, 1 ≤ count ∧ count ≤ 17 ∧
      (shortest value = significant count value ∨
        shortest value = significantBeyond count value) ∧
      roundToDouble (decimalValue count (shortest value).1 (shortest value).2) = value := by
  unfold shortest
  cases found : (List.range' 1 17).findSome? fun count =>
      [significant count value, significantBeyond count value].find? (readsBack value count) with
  | none => exact ⟨17, by decide, le_rfl, .inl rfl, seventeen_digits positive double⟩
  | some digits =>
    obtain ⟨count, counted, first⟩ := List.exists_of_findSome?_eq_some found
    have bounds := List.mem_range'_1.mp counted
    have reads : readsBack value count digits = true := List.find?_some first
    refine ⟨count, by omega, by omega, ?_, of_decide_eq_true reads⟩
    simpa using List.mem_of_find?_eq_some first

/-- The shortest digits of a double read back. -/
theorem shortest_readsBack {value : ℚ} (positive : 0 < value)
    (double : roundToDouble value = value) :
    ∃ count, ReadsBack value count (shortest value).1 (shortest value).2 := by
  obtain ⟨count, some, most, found, reads⟩ := shortest_eq positive double
  refine ⟨count, ⟨some, most⟩, ?_, reads⟩
  rcases found with nearest | beyond
  · rw [nearest]
    exact significant_size some positive
  · rw [beyond]
    exact significantBeyond_size some positive

/-- The exponent of digits is that of the number, or they were carried to a power of ten. -/
theorem carried_exponent (count : Nat) (digits : Int) (value : ℚ) :
    (carried count digits value).2 = decimalExponent value ∨
      carried count digits value = (10 ^ (count - 1), decimalExponent value + 1) := by
  unfold carried
  split
  · exact .inr rfl
  · exact .inl rfl

/-- A double is written with an exponent from ten to the sixteenth on. -/
theorem shortest_exponent {value : ℚ} (positive : 0 < value)
    (double : roundToDouble value = value) : 16 ≤ (shortest value).2 ↔ 10 ^ 16 ≤ value := by
  obtain ⟨count, some, -, found, reads⟩ := shortest_eq positive double
  have exponent : (shortest value).2 = decimalExponent value ∨
      shortest value = (10 ^ (count - 1), decimalExponent value + 1) := by
    rcases found with nearest | beyond
    · rw [nearest]
      exact carried_exponent _ _ _
    · rw [beyond]
      exact carried_exponent _ _ _
  have bottom := decimalExponent_le positive
  have top := lt_decimalExponent value
  have large (exponent : 16 ≤ decimalExponent value) : (10 : ℚ) ^ 16 ≤ value :=
    le_trans (by exact_mod_cast zpow_le_zpow_right₀ (by norm_num : (1 : ℚ) ≤ 10) exponent) bottom
  have long (size : (10 : ℚ) ^ 16 ≤ value) : 16 ≤ decimalExponent value := by
    have powers := (zpow_lt_zpow_iff_right₀ (by norm_num : (1 : ℚ) < 10)).mp
      (lt_of_le_of_lt (by exact_mod_cast size : (10 : ℚ) ^ (16 : Int) ≤ value) top)
    omega
  rcases exponent with same | carried
  · rw [same]
    exact ⟨large, long⟩
  · rw [carried] at reads ⊢
    refine ⟨fun exponent => ?_, fun size => (long size).trans (by simp)⟩
    by_cases below : 16 ≤ decimalExponent value
    · exact large below
    · -- Rounded up to the sixteenth power of ten, which is a double itself.
      have last : decimalExponent value + 1 = 16 := by
        simp only at exponent
        omega
      have power : decimalValue count (10 ^ (count - 1)) (decimalExponent value + 1) = 10 ^ 16 := by
        rw [decimalValue_power some, last]
        exact_mod_cast rfl
      have exact : roundToDouble (10 ^ 16) = 10 ^ 16 := by decide +kernel
      rw [power, exact] at reads
      exact reads.le

end InsuranceOps
