/-
This file develops SHA-256 over lists of bytes: the padded message is cut into
blocks of sixteen words, the message schedule extends each block to one word a
round, and sixty-four rounds of compression fold the blocks into eight words.
The digest has thirty-two bytes by construction.
-/

import InsuranceOps.Library.Positional

namespace Sha256

/-- A 32-bit word; addition wraps. -/
abbrev Word := BitVec 32

/-- The eight words of the chaining value. -/
structure Chaining where
  a : Word
  b : Word
  c : Word
  d : Word
  e : Word
  f : Word
  g : Word
  h : Word

/-- The first words of the fractional parts of the cube roots of the first primes. -/
def roundConstants : List Word := [
  0x428a2f98, 0x71374491, 0xb5c0fbcf, 0xe9b5dba5, 0x3956c25b, 0x59f111f1,
  0x923f82a4, 0xab1c5ed5, 0xd807aa98, 0x12835b01, 0x243185be, 0x550c7dc3,
  0x72be5d74, 0x80deb1fe, 0x9bdc06a7, 0xc19bf174, 0xe49b69c1, 0xefbe4786,
  0x0fc19dc6, 0x240ca1cc, 0x2de92c6f, 0x4a7484aa, 0x5cb0a9dc, 0x76f988da,
  0x983e5152, 0xa831c66d, 0xb00327c8, 0xbf597fc7, 0xc6e00bf3, 0xd5a79147,
  0x06ca6351, 0x14292967, 0x27b70a85, 0x2e1b2138, 0x4d2c6dfc, 0x53380d13,
  0x650a7354, 0x766a0abb, 0x81c2c92e, 0x92722c85, 0xa2bfe8a1, 0xa81a664b,
  0xc24b8b70, 0xc76c51a3, 0xd192e819, 0xd6990624, 0xf40e3585, 0x106aa070,
  0x19a4c116, 0x1e376c08, 0x2748774c, 0x34b0bcb5, 0x391c0cb3, 0x4ed8aa4a,
  0x5b9cca4f, 0x682e6ff3, 0x748f82ee, 0x78a5636f, 0x84c87814, 0x8cc70208,
  0x90befffa, 0xa4506ceb, 0xbef9a3f7, 0xc67178f2]

/-- The first words of the fractional parts of the square roots of the first primes. -/
def initialChaining : Chaining :=
  ⟨0x6a09e667, 0xbb67ae85, 0x3c6ef372, 0xa54ff53a, 0x510e527f, 0x9b05688c, 0x1f83d9ab,
    0x5be0cd19⟩

/-! ### Padding -/

/-- The big-endian bytes of a number, as many as asked for. -/
def bigEndian (count value : Nat) : List UInt8 :=
  (Positional.digits 256 count value).map UInt8.ofNat

@[simp] theorem bigEndian_length (count value : Nat) : (bigEndian count value).length = count := by
  rw [bigEndian, List.length_map, Positional.digits_length]

/-- Numbers that fit the width are told apart by their bytes. -/
theorem bigEndian_injective {count first second : Nat} (firstFits : first < 256 ^ count)
    (secondFits : second < 256 ^ count)
    (same : bigEndian count first = bigEndian count second) : first = second := by
  have readBack (value : Nat) :
      (bigEndian count value).map UInt8.toNat = Positional.digits 256 count value := by
    rw [bigEndian, List.map_map]
    refine (List.map_congr_left fun digit member => ?_).trans (List.map_id _)
    exact UInt8.toNat_ofNat_of_lt' (Positional.digits_lt (by decide) count value digit member)
  refine Positional.digits_injective firstFits secondFits ?_
  rw [← readBack, ← readBack, same]

/-- A set bit, zeros up to the last eight bytes of a block, and the length in bits. -/
def padding (length : Nat) : List UInt8 :=
  0x80 :: List.replicate ((119 - length % 64) % 64) 0 ++ bigEndian 8 (8 * length)

/-- The word four bytes spell, high byte first. -/
def wordOfBytes (bytes : List UInt8) : Word :=
  BitVec.ofNat 32 (bytes.foldl (fun value byte => 256 * value + byte.toNat) 0)

/-- The blocks of a padded message, each as sixteen words. -/
def blocks (message : List UInt8) : List (List Word) :=
  let padded := message ++ padding message.length
  (List.range (padded.length / 64)).map fun block =>
    (List.range 16).map fun word => wordOfBytes ((padded.drop (64 * block + 4 * word)).take 4)

/-! ### Compression -/

/-- Extend the schedule by one word; its words are kept latest first. -/
def extend (words : List Word) : List Word :=
  let word (back : Nat) : Word := words.getD (back - 1) 0
  let small0 := (word 15).rotateRight 7 ^^^ (word 15).rotateRight 18 ^^^ word 15 >>> 3
  let small1 := (word 2).rotateRight 17 ^^^ (word 2).rotateRight 19 ^^^ word 2 >>> 10
  (small1 + word 7 + small0 + word 16) :: words

/-- The words of the sixty-four rounds, in the order the rounds use them. -/
def schedule (block : List Word) : List Word :=
  (Nat.repeat extend 48 block.reverse).reverse

/-- One round. -/
def round (state : Chaining) (constant word : Word) : Chaining :=
  let big1 := state.e.rotateRight 6 ^^^ state.e.rotateRight 11 ^^^ state.e.rotateRight 25
  let choose := (state.e &&& state.f) ^^^ (~~~state.e &&& state.g)
  let first := state.h + big1 + choose + constant + word
  let big0 := state.a.rotateRight 2 ^^^ state.a.rotateRight 13 ^^^ state.a.rotateRight 22
  let majority := (state.a &&& state.b) ^^^ (state.a &&& state.c) ^^^ (state.b &&& state.c)
  ⟨first + (big0 + majority), state.a, state.b, state.c, state.d + first, state.e, state.f,
    state.g⟩

/-- Sixty-four rounds over one block, added to the chaining value. -/
def compress (state : Chaining) (block : List Word) : Chaining :=
  let last := (roundConstants.zip (schedule block)).foldl
    (fun current pair => round current pair.1 pair.2) state
  ⟨state.a + last.a, state.b + last.b, state.c + last.c, state.d + last.d, state.e + last.e,
    state.f + last.f, state.g + last.g, state.h + last.h⟩

/-- The bytes of the chaining value. -/
def Chaining.bytes (state : Chaining) : List UInt8 :=
  [state.a, state.b, state.c, state.d, state.e, state.f, state.g, state.h].flatMap
    fun word => bigEndian 4 word.toNat

/-- The SHA-256 digest of a message. -/
def digest (message : List UInt8) : List UInt8 :=
  ((blocks message).foldl compress initialChaining).bytes

theorem digest_length (message : List UInt8) : (digest message).length = 32 := by
  simp only [digest, Chaining.bytes, List.length_flatMap, bigEndian_length, List.map_cons,
    List.map_nil, List.sum_cons, List.sum_nil]
  rfl

end Sha256
