/-
This file lays fields of bits out in a number, the first one on top. A field that
fits its width is found again by shifting and cutting, layouts of the same widths
are told apart by their fields, and the top field decides which number is less.
-/

import Mathlib.Data.List.Induction
import Mathlib.Data.Nat.Bitwise
import InsuranceOps.Library.Positional

namespace BitFields

/-- A field: its width and its value. -/
abbrev Field := Nat × Nat

/-- The bits of some fields together. -/
def width (fields : List Field) : Nat := (fields.map Prod.fst).sum

/-- The number that has the fields one below the other. -/
def number : List Field → Nat
  | [] => 0
  | field :: rest => field.2 * 2 ^ width rest + number rest

/-- Every field fits its width. -/
def Fits (fields : List Field) : Prop := ∀ field ∈ fields, field.2 < 2 ^ field.1

theorem width_cons (field : Field) (rest : List Field) :
    width (field :: rest) = field.1 + width rest := by
  rw [width, List.map_cons, List.sum_cons, width]

theorem width_singleton (field : Field) : width [field] = field.1 := by
  rw [width_cons]
  rfl

theorem number_singleton (field : Field) : number [field] = field.2 := by
  rw [number, number, Nat.add_zero]
  exact Nat.mul_one _

theorem Fits.tail {field : Field} {rest : List Field} (fits : Fits (field :: rest)) : Fits rest :=
  fun other member => fits other (List.mem_cons_of_mem _ member)

theorem number_lt {fields : List Field} (fits : Fits fields) :
    number fields < 2 ^ width fields := by
  induction fields with
  | nil => exact Nat.one_pos
  | cons field rest inductionHypothesis =>
    have low := inductionHypothesis fits.tail
    have high := fits field List.mem_cons_self
    rw [number, width_cons, Nat.pow_add]
    calc field.2 * 2 ^ width rest + number rest
        < field.2 * 2 ^ width rest + 2 ^ width rest := Nat.add_lt_add_left low _
      _ = (field.2 + 1) * 2 ^ width rest := (Nat.succ_mul _ _).symm
      _ ≤ 2 ^ field.1 * 2 ^ width rest := Nat.mul_le_mul_right _ high

theorem width_append (before after : List Field) :
    width (before ++ after) = width before + width after := by
  rw [width, List.map_append, List.sum_append, width, width]

/-- The fields on top stand shifted over the others. -/
theorem number_append (before after : List Field) :
    number (before ++ after) = number before * 2 ^ width after + number after := by
  induction before with
  | nil => rw [List.nil_append, number, Nat.zero_mul, Nat.zero_add]
  | cons field rest inductionHypothesis =>
    rw [List.cons_append, number, number, inductionHypothesis, width_append, Nat.pow_add,
      Nat.add_mul, Nat.mul_assoc, Nat.add_assoc]

/-- The fields on top are found by shifting the others away. -/
theorem number_append_div (before : List Field) {after : List Field} (fits : Fits after) :
    number (before ++ after) / 2 ^ width after = number before := by
  have positive : 0 < 2 ^ width after := Nat.two_pow_pos _
  rw [number_append, Nat.mul_comm, Nat.mul_add_div positive, Nat.div_eq_of_lt (number_lt fits),
    Nat.add_zero]

/-- The field at the bottom is found by cutting. -/
theorem number_concat_mod (before : List Field) {field : Field} (fits : field.2 < 2 ^ field.1) :
    number (before ++ [field]) % 2 ^ field.1 = field.2 := by
  rw [number_append, number_singleton, width_singleton, Nat.mul_comm, Nat.mul_add_mod,
    Nat.mod_eq_of_lt fits]

/-- A field is found again at its place. -/
theorem field_eq (before : List Field) {after : List Field} {field : Field}
    (fits : Fits (before ++ field :: after)) :
    number (before ++ field :: after) / 2 ^ width after % 2 ^ field.1 = field.2 := by
  have fitsBehind : Fits (field :: after) := fun other member =>
    fits other (List.mem_append_right _ member)
  have split : before ++ field :: after = (before ++ [field]) ++ after := by
    rw [List.append_assoc, List.singleton_append]
  rw [split, number_append_div _ fitsBehind.tail,
    number_concat_mod _ (fitsBehind field List.mem_cons_self)]

/-- A field may be seen as two. -/
theorem number_split (before : List Field) (high low value : Nat) (after : List Field) :
    number (before ++ (high + low, value) :: after) =
      number (before ++ (high, value / 2 ^ low) :: (low, value % 2 ^ low) :: after) := by
  simp only [number_append, number, width_cons, Nat.add_assoc]
  rw [Nat.pow_add 2 low, ← Nat.mul_assoc, ← Nat.add_assoc (_ * 2 ^ width after),
    ← Nat.add_mul, Nat.div_add_mod']

/-- Digits of so many bits each are fields. -/
theorem read_eq_number (size : Nat) (digits : List Nat) :
    Positional.read (2 ^ size) digits = number (digits.map (Prod.mk size)) := by
  induction digits using List.reverseRecOn with
  | nil => rfl
  | append_singleton digits digit inductionHypothesis =>
    rw [Positional.read_concat, inductionHypothesis, List.map_append, List.map_singleton,
      number_append, number_singleton, width_singleton, Nat.mul_comm]

/-- A greater field on top makes a greater number, whatever stands below. -/
theorem number_lt_number {first second : Nat} {size : Nat} {lower upper : List Field}
    (less : first < second) (same : width lower = width upper) (fits : Fits lower) :
    number ((size, first) :: lower) < number ((size, second) :: upper) := by
  rw [number, number, ← same]
  calc first * 2 ^ width lower + number lower
      < first * 2 ^ width lower + 2 ^ width lower := Nat.add_lt_add_left (number_lt fits) _
    _ = (first + 1) * 2 ^ width lower := (Nat.succ_mul _ _).symm
    _ ≤ second * 2 ^ width lower := Nat.mul_le_mul_right _ less
    _ ≤ second * 2 ^ width lower + number upper := Nat.le_add_right _ _

/-- Setting a field on top by an or over the bits that are there. -/
theorem shiftLeft_or {fields : List Field} (fits : Fits fields) (size value : Nat) :
    value <<< width fields ||| number fields = number ((size, value) :: fields) := by
  rw [← Nat.shiftLeft_add_eq_or_of_lt (number_lt fits), Nat.shiftLeft_eq, number]

end BitFields
