/-
This file models the generation of the identifiers of audit events, UUIDs of
version 7. The parts that the code shifts into place and combines with `or` are
the fields of a number: none reaches into its neighbour, the timestamp is the
field on top, so it orders the identifiers, and every field is found again.
-/

import InsuranceOps.Identifier
import InsuranceOps.Library.BitFields

namespace InsuranceOps

/-- `UUID(int=...)`: a number of more than 128 bits is refused. -/
def UUID.ofInt (int : Nat) : Except String UUID :=
  if int < 1 <<< 128 then .ok (BitVec.ofNat 128 int)
  else .error "int is out of range (need a 128-bit value)"

/-- `int.from_bytes(bytes, "big")`. -/
def fromBytesBig (bytes : List UInt8) : Nat := Positional.read 256 (bytes.map UInt8.toNat)

/-- `uuid_int` of `uuid7` for what the clock and `os.urandom` gave. -/
def uuidInt (timestampMs : Nat) (randBytes : Vector UInt8 10) : Nat :=
  let uuidInt := (timestampMs &&& 0xFFFFFFFFFFFF) <<< 80
  let uuidInt := uuidInt ||| 0x7 <<< 76
  let randA := (randBytes[0].toNat <<< 4) ||| (randBytes[1].toNat >>> 4)
  let uuidInt := uuidInt ||| (randA &&& 0xFFF) <<< 64
  let uuidInt := uuidInt ||| 0b10 <<< 62
  let randB := fromBytesBig (randBytes.toList.drop 2) &&& 0x3FFFFFFFFFFFFFFF
  uuidInt ||| randB

/-- `uuid7`. -/
def uuid7 (timestampMs : Nat) (randBytes : Vector UInt8 10) : Except String UUID :=
  UUID.ofInt (uuidInt timestampMs randBytes)

/-! ### What the fields hold -/

/-- The first twelve of the eighty random bits. -/
def firstBits (randBytes : Vector UInt8 10) : Nat := fromBytesBig randBytes.toList / 2 ^ 68

/-- The low sixty-two bits of the last eight random bytes. -/
def lastBits (randBytes : Vector UInt8 10) : Nat :=
  fromBytesBig (randBytes.toList.drop 2) % 2 ^ 62

/-- The layout of RFC 9562: timestamp, version, `rand_a`, variant and `rand_b`. -/
def layout (timestampMs : Nat) (randBytes : Vector UInt8 10) : List BitFields.Field :=
  [(48, timestampMs % 2 ^ 48), (4, 7), (12, firstBits randBytes), (2, 2),
    (62, lastBits randBytes)]

/-- The fields of the bytes of a number, eight bits each. -/
def byteFields (bytes : List UInt8) : List BitFields.Field :=
  bytes.map fun byte => (8, byte.toNat)

theorem fromBytesBig_eq (bytes : List UInt8) :
    fromBytesBig bytes = BitFields.number (byteFields bytes) := by
  rw [fromBytesBig, show 256 = 2 ^ 8 from rfl, BitFields.read_eq_number, List.map_map]
  rfl

theorem byteFields_fit (bytes : List UInt8) : BitFields.Fits (byteFields bytes) := by
  intro field member
  obtain ⟨byte, -, rfl⟩ := List.mem_map.mp member
  exact byte.toNat_lt

theorem byteFields_width (bytes : List UInt8) :
    BitFields.width (byteFields bytes) = 8 * bytes.length := by
  rw [BitFields.width, byteFields, List.map_map]
  induction bytes with
  | nil => rfl
  | cons byte rest inductionHypothesis =>
    rw [List.map_cons, List.sum_cons, inductionHypothesis, List.length_cons, Nat.mul_succ,
      Nat.add_comm]
    rfl

/-- The first byte and the upper half of the second are the first twelve bits. -/
theorem randA_eq (randBytes : Vector UInt8 10) :
    (randBytes[0].toNat <<< 4) ||| (randBytes[1].toNat >>> 4) = firstBits randBytes := by
  have bytes : byteFields randBytes.toList =
      [(8, randBytes[0].toNat)] ++ (4 + 4, randBytes[1].toNat) ::
        byteFields (randBytes.toList.drop 2) := by
    obtain ⟨⟨list⟩, length⟩ := randBytes
    match list, length with
    | first :: second :: rest, _ => rfl
  have fits : BitFields.Fits
      ((4, randBytes[1].toNat % 2 ^ 4) :: byteFields (randBytes.toList.drop 2)) :=
    List.forall_mem_cons.mpr ⟨Nat.mod_lt _ (Nat.two_pow_pos 4), byteFields_fit _⟩
  have width : BitFields.width
      ((4, randBytes[1].toNat % 2 ^ 4) :: byteFields (randBytes.toList.drop 2)) = 68 := by
    rw [BitFields.width_cons, byteFields_width, List.length_drop, Vector.length_toList]
  have upper : BitFields.Fits [(4, randBytes[1].toNat / 2 ^ 4)] :=
    List.forall_mem_singleton.mpr (Nat.div_lt_of_lt_mul randBytes[1].toNat_lt)
  calc (randBytes[0].toNat <<< 4) ||| (randBytes[1].toNat >>> 4)
      = randBytes[0].toNat <<< BitFields.width [(4, randBytes[1].toNat / 2 ^ 4)] |||
          BitFields.number [(4, randBytes[1].toNat / 2 ^ 4)] := by
        rw [BitFields.number_singleton, BitFields.width_singleton, Nat.shiftRight_eq_div_pow]
    _ = BitFields.number [(8, randBytes[0].toNat), (4, randBytes[1].toNat / 2 ^ 4)] :=
        BitFields.shiftLeft_or upper 8 _
    _ = firstBits randBytes := by
        rw [firstBits, fromBytesBig_eq, bytes, BitFields.number_split, ← width,
          List.append_cons, BitFields.number_append_div _ fits]
        rfl

theorem firstBits_lt (randBytes : Vector UInt8 10) : firstBits randBytes < 2 ^ 12 := by
  have whole := BitFields.number_lt (byteFields_fit randBytes.toList)
  rw [byteFields_width, Vector.length_toList, ← fromBytesBig_eq] at whole
  exact Nat.div_lt_of_lt_mul whole

theorem layout_fits (timestampMs : Nat) (randBytes : Vector UInt8 10) :
    BitFields.Fits (layout timestampMs randBytes) := by
  simp only [BitFields.Fits, layout, List.forall_mem_cons, List.not_mem_nil, false_imp_iff,
    implies_true, and_true]
  exact ⟨Nat.mod_lt _ (Nat.two_pow_pos 48), by decide, firstBits_lt randBytes, by decide,
    Nat.mod_lt _ (Nat.two_pow_pos 62)⟩

/-- The parts combined by `or` are the fields of the layout. -/
theorem uuidInt_eq (timestampMs : Nat) (randBytes : Vector UInt8 10) :
    uuidInt timestampMs randBytes = BitFields.number (layout timestampMs randBytes) := by
  have fits := layout_fits timestampMs randBytes
  unfold uuidInt
  simp only [randA_eq]
  rw [show 0xFFFFFFFFFFFF = 2 ^ 48 - 1 from rfl, show 0xFFF = 2 ^ 12 - 1 from rfl,
    show 0x3FFFFFFFFFFFFFFF = 2 ^ 62 - 1 from rfl]
  simp only [Nat.and_two_pow_sub_one_eq_mod, Nat.mod_eq_of_lt (firstBits_lt randBytes),
    Nat.lor_assoc]
  rw [layout, ← BitFields.shiftLeft_or fits.tail, ← BitFields.shiftLeft_or fits.tail.tail,
    ← BitFields.shiftLeft_or fits.tail.tail.tail, ← BitFields.shiftLeft_or fits.tail.tail.tail.tail,
    BitFields.number_singleton]
  rfl

theorem layout_width (timestampMs : Nat) (randBytes : Vector UInt8 10) :
    BitFields.width (layout timestampMs randBytes) = 128 := rfl

theorem uuidInt_lt (timestampMs : Nat) (randBytes : Vector UInt8 10) :
    uuidInt timestampMs randBytes < 2 ^ 128 := by
  rw [uuidInt_eq, ← layout_width timestampMs randBytes]
  exact BitFields.number_lt (layout_fits timestampMs randBytes)

/-- The number fits, so the constructor does not raise. -/
theorem uuid7_eq (timestampMs : Nat) (randBytes : Vector UInt8 10) :
    uuid7 timestampMs randBytes = .ok (BitVec.ofNat 128 (uuidInt timestampMs randBytes)) :=
  if_pos (uuidInt_lt timestampMs randBytes)

theorem uuid7_toNat {timestampMs : Nat} {randBytes : Vector UInt8 10} {id : UUID}
    (made : uuid7 timestampMs randBytes = .ok id) : id.toNat = uuidInt timestampMs randBytes := by
  rw [uuid7_eq] at made
  rw [← Except.ok.inj made, BitVec.toNat_ofNat, Nat.mod_eq_of_lt (uuidInt_lt _ _)]

/-! ### Fields -/

/-- A 128-bit number whose fields are the timestamp, the version, the first twelve random bits,
the variant and the last sixty-two random bits. -/
structure LaidOut (int timestampMs : Nat) (randBytes : Vector UInt8 10) : Prop where
  bounded : int < 2 ^ 128
  timestamp : int / 2 ^ 80 = timestampMs % 2 ^ 48
  version : int / 2 ^ 76 % 2 ^ 4 = 7
  randA : int / 2 ^ 64 % 2 ^ 12 = firstBits randBytes
  variant : int / 2 ^ 62 % 2 ^ 2 = 0b10
  randB : int % 2 ^ 62 = lastBits randBytes

theorem uuidInt_laidOut (timestampMs : Nat) (randBytes : Vector UInt8 10) :
    LaidOut (uuidInt timestampMs randBytes) timestampMs randBytes := by
  have fits := layout_fits timestampMs randBytes
  have high := BitFields.number_append_div [(48, timestampMs % 2 ^ 48)] fits.tail
  rw [BitFields.number_singleton] at high
  rw [uuidInt_eq]
  exact ⟨BitFields.number_lt fits, high,
    BitFields.field_eq [(48, _)] fits,
    BitFields.field_eq [(48, _), (4, _)] fits,
    BitFields.field_eq [(48, _), (4, _), (12, _)] fits,
    BitFields.number_concat_mod [(48, _), (4, _), (12, _), (2, _)]
      (Nat.mod_lt _ (Nat.two_pow_pos 62))⟩

/-- The smaller millisecond makes the smaller number. -/
theorem uuidInt_lt_uuidInt {first second : Nat} (less : first < second) (fits : second < 2 ^ 48)
    (firstBytes secondBytes : Vector UInt8 10) :
    uuidInt first firstBytes < uuidInt second secondBytes := by
  rw [uuidInt_eq, uuidInt_eq, layout, layout, Nat.mod_eq_of_lt fits,
    Nat.mod_eq_of_lt (less.trans fits)]
  exact BitFields.number_lt_number less rfl (layout_fits first firstBytes).tail

/-- **Layout of the identifiers.** Every timestamp and all random bytes make an identifier whose
fields are the parts, an earlier millisecond makes a smaller one, and equal identifiers come from
equal parts. The parts are shifted to disjoint positions, so the number is their sum, with the
timestamp on top. -/
theorem uuid7_layout :
    (∀ timestampMs randBytes, ∃ id, uuid7 timestampMs randBytes = .ok id ∧
      id.toNat = uuidInt timestampMs randBytes ∧
      LaidOut (uuidInt timestampMs randBytes) timestampMs randBytes) ∧
    (∀ first second firstBytes secondBytes firstId secondId, first < second → second < 2 ^ 48 →
      uuid7 first firstBytes = .ok firstId → uuid7 second secondBytes = .ok secondId →
      firstId < secondId) ∧
    ∀ first second firstBytes secondBytes, uuid7 first firstBytes = uuid7 second secondBytes →
      first % 2 ^ 48 = second % 2 ^ 48 ∧
      (first < 2 ^ 48 → second < 2 ^ 48 → first = second) ∧
      firstBits firstBytes = firstBits secondBytes ∧
      lastBits firstBytes = lastBits secondBytes := by
  refine ⟨fun timestampMs randBytes => ⟨_, uuid7_eq _ _, uuid7_toNat (uuid7_eq _ _),
    uuidInt_laidOut timestampMs randBytes⟩, ?_, ?_⟩
  · intro first second firstBytes secondBytes firstId secondId less fits firstMade secondMade
    rw [BitVec.lt_def, uuid7_toNat firstMade, uuid7_toNat secondMade]
    exact uuidInt_lt_uuidInt less fits firstBytes secondBytes
  · intro first second firstBytes secondBytes same
    have made : uuid7 second secondBytes = .ok (BitVec.ofNat 128 (uuidInt first firstBytes)) :=
      same.symm.trans (uuid7_eq first firstBytes)
    have ints : uuidInt first firstBytes = uuidInt second secondBytes :=
      (uuid7_toNat (uuid7_eq first firstBytes)).symm.trans (uuid7_toNat made)
    have left := uuidInt_laidOut first firstBytes
    have right := uuidInt_laidOut second secondBytes
    rw [ints] at left
    have timestamps := left.timestamp.symm.trans right.timestamp
    refine ⟨timestamps, fun firstFits secondFits => ?_, left.randA.symm.trans right.randA,
      left.randB.symm.trans right.randB⟩
    rwa [Nat.mod_eq_of_lt firstFits, Nat.mod_eq_of_lt secondFits] at timestamps

end InsuranceOps
