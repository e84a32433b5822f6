/-
This file follows a payload through a JSONB column. Postgres keeps a number as
an exact decimal and prints it without an exponent and without the sign of a
zero, and Python reads a literal without fraction and exponent as an `int`. So
the canonical text of a payload, and with it the hash of its event, survives
storage just when no float in it is the negative zero or so large that `repr`
writes it with an exponent and no fraction is left.
-/

import InsuranceOps.Audit
import InsuranceOps.CanonicalForm

namespace InsuranceOps

/-! ### Numbers -/

/-- The plain decimal text Postgres prints for a number. -/
def Numeric.text (number : Numeric) : Text :=
  let digits := padded (number.scale + 1) number.unscaled.natAbs
  signText (number.unscaled < 0) ++ (digits.take (digits.length - number.scale) ++
    if number.scale = 0 then [] else '.' :: digits.drop (digits.length - number.scale))

/-- A number literal after it was stored as JSONB and read again. -/
def readBackNumber (literal : Text) : Json := loadsNumber (readNumeric literal).text

theorem signed_natAbs (number : Int) : signed (number < 0) number.natAbs = number := by
  unfold signed
  simp only [decide_eq_true_eq]
  split <;> omega

/-- The text of a number without digits behind the point. -/
theorem Numeric.text_whole {number : Numeric} (whole : number.scale = 0) :
    number.text = signText (number.unscaled < 0) ++
      (padded 1 number.unscaled.natAbs ++ [] ++ []) := by
  unfold Numeric.text
  simp [whole]

/-- The text of a number with digits behind the point. -/
theorem Numeric.text_fraction {number : Numeric} (fraction : number.scale ≠ 0) :
    ∃ whole behind, number.text = signText (number.unscaled < 0) ++ (whole ++ '.' :: behind) ∧
      whole ≠ [] ∧ whole ++ behind = padded (number.scale + 1) number.unscaled.natAbs ∧
      behind.length = number.scale := by
  have long := le_padded_length (number.scale + 1) number.unscaled.natAbs
  refine ⟨_, _, by simp only [Numeric.text, if_neg fraction]; rfl, ?_,
    List.take_append_drop _ _, ?_⟩
  · rw [← List.length_pos_iff, List.length_take]
    omega
  · rw [List.length_drop]
    omega

/-- The text of a number reads as the number. -/
theorem readNumeric_text (number : Numeric) : readNumeric number.text = number := by
  by_cases whole : number.scale = 0
  · rw [number.text_whole whole, readNumeric_power _ (by simp [padded, decimal_ne_nil])
      (fun _ => padded_isDigit) (.inl rfl) (.inl rfl), List.drop_nil, List.append_nil,
      ofDigitChars_padded, signed_natAbs]
    obtain ⟨unscaled, scale⟩ := number
    obtain rfl : scale = 0 := whole
    simp [Numeric.ofPower, readExponent]
  · obtain ⟨before, behind, text, nonempty, digits, size⟩ := Numeric.text_fraction whole
    have isDigits : ∀ char ∈ before ++ behind, char.isDigit = true := by
      rw [digits]
      exact fun _ => padded_isDigit
    obtain ⟨beforeDigits, behindDigits⟩ := List.forall_mem_append.mp isDigits
    rw [text, readNumeric_pointed _ nonempty beforeDigits behindDigits, digits,
      ofDigitChars_padded, signed_natAbs, size]
    simp [Numeric.ofPower]

/-- A number is read as an `int` where no digit is left behind the point, else as the nearest
double. -/
theorem loadsNumber_text (number : Numeric) : loadsNumber number.text =
    if number.scale = 0 then .int number.unscaled
    else nearestDouble (number.unscaled < 0) number.value := by
  have unsigned {mark : Char} (other : mark.isDigit = false) {text : Text}
      (digits : ∀ char ∈ text, char.isDigit = true) : mark ∉ text := fun member =>
    absurd (digits mark member) (by rw [other]; decide)
  have notSign {mark : Char} (minus : mark ≠ '-') (negative : Bool) : mark ∉ signText negative := by
    cases negative <;> simp [signText, minus]
  by_cases whole : number.scale = 0
  · have exact {mark : Char} (other : mark.isDigit = false) (minus : mark ≠ '-') :
        mark ∉ number.text := by
      rw [number.text_whole whole, List.append_nil, List.append_nil, List.mem_append, not_or]
      exact ⟨notSign minus _, unsigned other fun _ => padded_isDigit⟩
    rw [if_pos whole, loadsNumber, if_neg, readNumeric_text]
    rintro (point | power)
    · exact exact rfl (by decide) point
    · exact exact rfl (by decide) power
  · obtain ⟨before, behind, text, nonempty, digits, -⟩ := Numeric.text_fraction whole
    have signs : number.text.head? = some '-' ↔ number.unscaled < 0 := by
      obtain ⟨first, tail, rfl⟩ := List.exists_cons_of_ne_nil nonempty
      have isDigit : first.isDigit = true := by
        refine padded_isDigit (?_ : first ∈ padded (number.scale + 1) number.unscaled.natAbs)
        rw [← digits]
        exact List.mem_cons_self
      have plain : first ≠ '-' := by
        rintro rfl
        exact absurd isDigit (by decide)
      rw [text, signText]
      by_cases negative : number.unscaled < 0
      · simp [negative]
      · simp [negative, plain]
    rw [if_neg whole, loadsNumber, if_pos, readNumeric_text]
    · simp only [signs]
    · rw [text]
      exact .inl (by simp)

/-! ### Payloads -/

/-- The order JSONB keeps the keys of an object in: by length, and then by their bytes. -/
def jsonbOrder (first second : String × Json) : Prop :=
  first.1.utf8ByteSize < second.1.utf8ByteSize ∨
    first.1.utf8ByteSize = second.1.utf8ByteSize ∧ first.1 ≤ second.1

instance : DecidableRel jsonbOrder := fun _ _ => inferInstanceAs (Decidable (_ ∨ _))

mutual

/-- A value read back from a JSONB column. -/
def Json.readBack : Json → Json
  | .int value => readBackNumber (Json.int value).dumps
  | .float value => readBackNumber (Json.float value).dumps
  | .negativeZero => readBackNumber Json.negativeZero.dumps
  | .array items => .array (readBackItems items)
  | .object entries => .object ((readBackEntries entries).insertionSort jsonbOrder)
  | value => value

/-- The values of a list, read back. -/
def readBackItems : List Json → List Json
  | [] => []
  | item :: rest => item.readBack :: readBackItems rest

/-- The entries of an object with their values read back. -/
def readBackEntries : List (String × Json) → List (String × Json)
  | [] => []
  | (key, value) :: rest => (key, value.readBack) :: readBackEntries rest

end

/-- A payload read back from a JSONB column. -/
def readBackPayload (payload : JsonObject) : JsonObject :=
  (readBackEntries payload).insertionSort jsonbOrder

/-- The value is no float that `repr` writes without a fraction or with the sign of a zero. -/
def Json.survives : Json → Bool
  | .float value => |value| < 10 ^ 16
  | .negativeZero => false
  | _ => true

theorem readBackItems_eq (items : List Json) : readBackItems items = items.map Json.readBack := by
  induction items with
  | nil => rfl
  | cons item rest inductionHypothesis => exact congrArg (List.cons _) inductionHypothesis

/-- One entry with its value read back. -/
def readBackEntry (entry : String × Json) : String × Json := (entry.1, entry.2.readBack)

theorem readBackEntries_eq (entries : JsonObject) :
    readBackEntries entries = entries.map readBackEntry := by
  induction entries with
  | nil => rfl
  | cons entry rest inductionHypothesis =>
    obtain ⟨key, value⟩ := entry
    exact congrArg (List.cons _) inductionHypothesis

theorem Json.readBack_array (items : List Json) :
    (Json.array items).readBack = .array (items.map Json.readBack) :=
  congrArg Json.array (readBackItems_eq items)

theorem Json.readBack_object (entries : JsonObject) :
    (Json.object entries).readBack =
      .object ((entries.map readBackEntry).insertionSort jsonbOrder) := by
  show Json.object ((readBackEntries entries).insertionSort jsonbOrder) = _
  rw [readBackEntries_eq]

theorem Json.readBack_int (value : Int) : (Json.int value).readBack = .int value := by
  show readBackNumber (intText value) = .int value
  rw [readBackNumber, readNumeric_intText, loadsNumber_text, if_pos rfl]

/-- A zero is read back as the float, whatever its sign. -/
theorem zero_readBack : Json.negativeZero.readBack = .float 0 ∧
    loadsNumber (readNumeric (floatText 0)).text = .float 0 ∧
    (Json.float 0).isDouble = true := by decide +kernel

theorem Json.readBack_negativeZero : Json.negativeZero.readBack = .float 0 := zero_readBack.1

theorem roundToDouble_zero : roundToDouble 0 = 0 := by
  have double : roundToDouble |0| = |0| := of_decide_eq_true zero_readBack.2.2
  rwa [abs_zero] at double

/-- A double below ten to the sixteenth is read back as it was, a larger one as an `int`. -/
theorem Json.readBack_float {value : ℚ} (double : (Json.float value).isDouble = true) :
    if |value| < 10 ^ 16 then (Json.float value).readBack = .float value
    else ∃ number, (Json.float value).readBack = .int number := by
  have rounds : roundToDouble |value| = |value| := of_decide_eq_true double
  show if |value| < 10 ^ 16 then readBackNumber (floatText value) = .float value
    else ∃ number, readBackNumber (floatText value) = .int number
  rw [readBackNumber]
  by_cases zero : value = 0
  · subst zero
    rw [if_pos (by norm_num)]
    exact zero_readBack.2.1
  · obtain ⟨digits, power, read, rounded, whole⟩ := readNumeric_floatText zero rounds
    rw [read, loadsNumber_text]
    split
    · rename_i small
      have fraction : power < 0 := not_le.mp fun large => absurd (whole.mp large) (not_le.mpr small)
      have scaled : (Numeric.ofPower (signed (value < 0) digits) power).scale ≠ 0 := by
        simp only [Numeric.ofPower]
        omega
      have positive : digits ≠ 0 := by
        rintro rfl
        rw [Nat.cast_zero, zero_mul, roundToDouble_zero] at rounded
        exact zero (abs_eq_zero.mp rounded.symm)
      have signs :
          (Numeric.ofPower (signed (value < 0) digits) power).unscaled < 0 ↔ value < 0 := by
        simp only [Numeric.ofPower, show power.toNat = 0 by omega, pow_zero, mul_one, signed,
          decide_eq_true_eq]
        by_cases negative : value < 0
        · rw [if_pos negative]
          exact iff_of_true (by omega) negative
        · rw [if_neg negative]
          exact iff_of_false (by omega) negative
      rw [if_neg scaled, Numeric.ofPower_value]
      simp only [signs]
      exact nearestDouble_eq zero (by rw [signed_abs, rounded])
    · rename_i large
      have power : 0 ≤ power := whole.mpr (not_lt.mp large)
      refine ⟨_, if_pos ?_⟩
      simp only [Numeric.ofPower]
      omega

/-- Reading an object back keeps its keys. -/
theorem readBack_keys {entries : JsonObject} (keys : (entries.map Prod.fst).Nodup) :
    (((entries.map readBackEntry).insertionSort jsonbOrder).map Prod.fst).Nodup := by
  refine ((List.perm_insertionSort jsonbOrder _).map Prod.fst).nodup_iff.mpr ?_
  rwa [List.map_map]

/-- A value read back is the same value just when every number in it survives. -/
theorem Json.denote_readBack (value : Json) (double : value.everywhere Json.isDouble = true)
    (distinct : value.everywhere Json.distinctKeys = true) :
    value.readBack.denote = value.denote ↔ value.everywhere Json.survives = true := by
  induction value using Json.inductionOn with
  | null => exact iff_of_true rfl rfl
  | bool value => exact iff_of_true rfl rfl
  | int value => exact iff_of_true (by rw [Json.readBack_int]) rfl
  | float value =>
    have kept := Json.readBack_float double
    split at kept
    · rename_i small
      exact iff_of_true (by rw [kept]) (decide_eq_true small)
    · rename_i large
      obtain ⟨number, read⟩ := kept
      refine iff_of_false (by rw [read]; exact fun same => nomatch same) ?_
      exact fun survives => large (of_decide_eq_true survives)
  | negativeZero =>
    refine iff_of_false ?_ (by decide)
    rw [Json.readBack_negativeZero]
    exact fun same => nomatch same
  | string value => exact iff_of_true rfl rfl
  | array items inductionHypothesis =>
    obtain ⟨-, inItems⟩ := (Json.everywhere_array _ _).mp double
    obtain ⟨-, distinctItems⟩ := (Json.everywhere_array _ _).mp distinct
    rw [Json.readBack_array, Json.denote, Json.denote, JsonValue.array.injEq, denoteItems_eq,
      denoteItems_eq, List.map_map, List.map_inj_left, Json.everywhere_array]
    constructor
    · intro same
      exact ⟨rfl, fun item member => (inductionHypothesis item member (inItems item member)
        (distinctItems item member)).mp (same item member)⟩
    · rintro ⟨-, survive⟩ item member
      exact (inductionHypothesis item member (inItems item member)
        (distinctItems item member)).mpr (survive item member)
  | object entries inductionHypothesis =>
    obtain ⟨-, inEntries⟩ := (Json.everywhere_object _ _).mp double
    obtain ⟨here, distinctEntries⟩ := (Json.everywhere_object _ _).mp distinct
    have keys : (entries.map Prod.fst).Nodup := of_decide_eq_true here
    have readKeys := readBack_keys keys
    have stored {key : String} {value : Json} : (key, value) ∈
        (entries.map readBackEntry).insertionSort jsonbOrder ↔
          ∃ original, (key, original) ∈ entries ∧ original.readBack = value := by
      rw [List.mem_insertionSort, List.mem_map]
      constructor
      · rintro ⟨entry, member, same⟩
        obtain ⟨rfl, rfl⟩ := Prod.mk.inj same
        exact ⟨entry.2, member, rfl⟩
      · rintro ⟨original, member, rfl⟩
        exact ⟨_, member, rfl⟩
    rw [Json.readBack_object, Json.denote, Json.denote, JsonValue.object.injEq,
      Json.everywhere_object]
    constructor
    · refine fun same => ⟨rfl, fun entry member => ?_⟩
      have found := (denoteEntries_eq_some keys).mpr ⟨entry.2, member, rfl⟩
      rw [← same, denoteEntries_eq_some readKeys] at found
      obtain ⟨value, read, values⟩ := found
      obtain ⟨original, member', rfl⟩ := stored.mp read
      obtain rfl : original = entry.2 := (Prod.mk.inj
        (List.inj_on_of_nodup_map keys member' member rfl)).2
      exact (inductionHypothesis entry member (inEntries entry member)
        (distinctEntries entry member)).mp values
    · rintro ⟨-, survive⟩
      have same (entry : String × Json) (member : entry ∈ entries) :=
        (inductionHypothesis entry member (inEntries entry member)
          (distinctEntries entry member)).mpr (survive entry member)
      refine denoteEntries_congr readKeys keys fun key member => ⟨?_, ?_⟩
      · rintro ⟨value, read, rfl⟩
        obtain ⟨original, member, rfl⟩ := stored.mp read
        exact ⟨original, member, (same _ member).symm⟩
      · rintro ⟨value, member, rfl⟩
        exact ⟨_, stored.mpr ⟨value, member, rfl⟩, same _ member⟩

/-- Reading a value back keeps its floats doubles. -/
theorem Json.readBack_isDouble (value : Json) (double : value.everywhere Json.isDouble = true) :
    value.readBack.everywhere Json.isDouble = true := by
  induction value using Json.inductionOn with
  | int value => rw [Json.readBack_int]; rfl
  | float value =>
    have kept := Json.readBack_float double
    split at kept
    · rw [kept]
      exact double
    · obtain ⟨number, read⟩ := kept
      rw [read]
      rfl
  | negativeZero =>
    rw [Json.readBack_negativeZero]
    exact zero_readBack.2.2
  | array items inductionHypothesis =>
    obtain ⟨-, inItems⟩ := (Json.everywhere_array _ _).mp double
    rw [Json.readBack_array, Json.everywhere_array]
    refine ⟨rfl, fun read member => ?_⟩
    obtain ⟨item, stored, rfl⟩ := List.mem_map.mp member
    exact inductionHypothesis item stored (inItems item stored)
  | object entries inductionHypothesis =>
    obtain ⟨-, inEntries⟩ := (Json.everywhere_object _ _).mp double
    rw [Json.readBack_object, Json.everywhere_object]
    refine ⟨rfl, fun read member => ?_⟩
    obtain ⟨entry, stored, rfl⟩ := List.mem_map.mp ((List.mem_insertionSort jsonbOrder).mp member)
    exact inductionHypothesis entry stored (inEntries entry stored)
  | _ => rfl

/-- A number literal is read as a number. -/
theorem loadsNumber_number (text : Text) :
    (loadsNumber text).everywhere Json.distinctKeys = true := by
  unfold loadsNumber nearestDouble
  split_ifs <;> rfl

/-- Reading a value back keeps the keys of its objects distinct. -/
theorem Json.readBack_distinctKeys (value : Json)
    (distinct : value.everywhere Json.distinctKeys = true) :
    value.readBack.everywhere Json.distinctKeys = true := by
  induction value using Json.inductionOn with
  | int value => exact loadsNumber_number _
  | float value => exact loadsNumber_number _
  | negativeZero => exact loadsNumber_number (readNumeric Json.negativeZero.dumps).text
  | array items inductionHypothesis =>
    obtain ⟨-, inItems⟩ := (Json.everywhere_array _ _).mp distinct
    rw [Json.readBack_array, Json.everywhere_array]
    refine ⟨rfl, fun read member => ?_⟩
    obtain ⟨item, stored, rfl⟩ := List.mem_map.mp member
    exact inductionHypothesis item stored (inItems item stored)
  | object entries inductionHypothesis =>
    obtain ⟨here, inEntries⟩ := (Json.everywhere_object _ _).mp distinct
    rw [Json.readBack_object, Json.everywhere_object]
    refine ⟨decide_eq_true (readBack_keys (of_decide_eq_true here)), fun read member => ?_⟩
    obtain ⟨entry, stored, rfl⟩ := List.mem_map.mp ((List.mem_insertionSort jsonbOrder).mp member)
    exact inductionHypothesis entry stored (inEntries entry stored)
  | _ => rfl

/-! ### Hashes -/

/-- A payload as Python holds it: its floats are doubles, and no object holds a key twice. -/
structure PythonPayload where
  entries : JsonObject
  double : (Json.object entries).everywhere Json.isDouble = true
  distinct : (Json.object entries).everywhere Json.distinctKeys = true

/-- A stored event with its payload read back. -/
def AuditEventModel.readBack (event : AuditEventModel) : AuditEventModel :=
  { event with payload := readBackPayload event.payload }

theorem canonicalJson_readBackPayload (payload : PythonPayload) :
    canonicalJson (readBackPayload payload.entries) = canonicalJson payload.entries ↔
      (Json.object payload.entries).everywhere Json.survives = true := by
  have read : Json.object (readBackPayload payload.entries) =
      (Json.object payload.entries).readBack := rfl
  rw [canonicalJson, canonicalJson, read,
    Json.canonical_eq_iff (Json.readBack_isDouble _ payload.double) payload.double
      (Json.readBack_distinctKeys _ payload.distinct) payload.distinct,
    Json.denote_readBack _ payload.double payload.distinct]

/-- The canonical text of the payload an event was hashed with is that of the payload read back just
when every number in the payload survives, and then the hash recomputed from the stored row is the
stored one. Canonical texts are equal just when the values are, and storage changes no value but
numbers, each by itself. -/
theorem hash_survives_storage (latest : Option AuditEventModel) (call : AppendCall)
    (draw : EventDraw) (payload : PythonPayload) :
    let event := nextAuditEvent latest { call with payload := payload.entries } draw
    (canonicalJson event.readBack.payload = canonicalJson event.payload ↔
      (Json.object payload.entries).everywhere Json.survives = true) ∧
    ((Json.object payload.entries).everywhere Json.survives = true →
      event.readBack.expectedHash = event.eventHash) := by
  intro event
  have texts := canonicalJson_readBackPayload payload
  refine ⟨texts, fun survive => ?_⟩
  have same := texts.mpr survive
  show computeEventHash event.auditEventId event.workflowRunId event.actor event.eventType
    (readBackPayload payload.entries) event.occurredAt event.prevEventHash = event.eventHash
  unfold computeEventHash hashedBytes
  rw [same]
  rfl

/-- The inputs of a run with a large premium. -/
def largePremium : PythonPayload where
  entries := [("inputs", .object [("premium", .float (10 ^ 16))])]
  double := by decide +kernel
  distinct := by decide +kernel

/-- The inputs of a run with a negative zero. -/
def zeroRefund : PythonPayload where
  entries := [("inputs", .object [("refund", .negativeZero)])]
  double := by decide +kernel
  distinct := by decide +kernel

/-- A large float is read back as an `int`, and a negative zero as zero: other texts. -/
theorem hash_lost_in_storage :
    (canonicalJson largePremium.entries = "\x7b\"inputs\":\x7b\"premium\":1e+16\x7d\x7d".toList ∧
      canonicalJson (readBackPayload largePremium.entries) =
        "\x7b\"inputs\":\x7b\"premium\":10000000000000000\x7d\x7d".toList) ∧
    canonicalJson zeroRefund.entries = "\x7b\"inputs\":\x7b\"refund\":-0.0\x7d\x7d".toList ∧
      canonicalJson (readBackPayload zeroRefund.entries) =
        "\x7b\"inputs\":\x7b\"refund\":0.0\x7d\x7d".toList := by
  decide +kernel

end InsuranceOps
