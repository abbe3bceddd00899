import Mathlib
import SmallScheme.Number

/-!
# Doubles and their patterns

A double is its bit pattern: a sign bit, an exponent field of 11 bits and a fraction field
of 52 bits, side by side. The logic knows a double by unpacking that pattern into a sign, a
significand and an exponent, and packing the three again. This module carries over to patterns
as naturals that the trip there and back changes nothing, and reads the classes of doubles off
them. The lemmas about unpacking and packing that it starts from come with the whole of Mathlib and
with no part of it.

The pattern nearest to a quotient is found from the quotient alone, whatever fraction it is
written as, and a quotient that is a double gives that double back: nothing is rounded where
nothing has to be.

## Main results

* `Number.ofPattern_bits`: a double is the one with its own pattern.
* `Number.bits_ofPattern`: every pattern up to that of infinity is the pattern of its double.
* `Number.isNaN_iff`, `Number.isInf_iff`: not-a-number and infinity by their patterns.
* `Number.nearestBits_mul_left`: a common factor does not change the nearest pattern.
* `Number.nearestBits_of_exact`: a quotient of exactly the steps of a pattern rounds to it.
-/

open Float.Model Float.Model.UnpackedFloat

namespace SmallScheme

/-- A word of 64 bits, as the format of doubles takes it apart. -/
abbrev Word := BitVec Format.binary64.numBits

/-! ### The fields of a word -/

/-- The fraction field of a word is its last 52 bits. -/
theorem toNat_unpackMantissa (w : Word) :
    (unpackMantissa w).toNat = w.toNat % 2 ^ 52 := by
  simp [unpackMantissa, BitVec.extractLsb]

/-- The exponent field of a word is the 11 bits in front of its last 52. -/
theorem toNat_unpackExponent (w : Word) :
    (unpackExponent w).toNat = w.toNat / 2 ^ 52 % 2 ^ 11 := by
  simp [unpackExponent, BitVec.extractLsb, Nat.shiftRight_eq_div_pow]

/-- The exponent field is all ones exactly when it is `2047` as a natural. -/
theorem unpackExponent_eq_ones_iff (w : Word) :
    unpackExponent w = -1#_ ↔ w.toNat / 2 ^ 52 % 2 ^ 11 = 2047 := by
  rw [← BitVec.toNat_inj, toNat_unpackExponent]
  rfl

theorem unpackMantissa_eq_zero_iff (w : Word) :
    unpackMantissa w = 0#_ ↔ w.toNat % 2 ^ 52 = 0 := by
  rw [← BitVec.toNat_inj, toNat_unpackMantissa]
  rfl

/-- A word of at most `Number.infinityBits` is valid, since none of the many patterns of
not-a-number is as small. -/
theorem valid_of_le_infinityBits {w : Word} (h : w.toNat ≤ Number.infinityBits) :
    Format.binary64.Valid w := by
  refine ⟨fun ones nonzero => absurd ?_ nonzero⟩
  rw [unpackExponent_eq_ones_iff] at ones
  rw [unpackMantissa_eq_zero_iff]
  rw [Number.infinityBits] at h
  omega

/-- A word unpacks to not-a-number or to an infinity exactly when its exponent field is all ones: to
an infinity if its fraction field is zero, and to not-a-number if it is not. -/
theorem unpack_special_iff (w : Word) :
    ((unpack .binary64 w).isNaN = true ↔ unpackExponent w = -1#_ ∧ unpackMantissa w ≠ 0#_) ∧
      ((unpack .binary64 w).isInf = true ↔ unpackExponent w = -1#_ ∧ unpackMantissa w = 0#_) := by
  rw [UnpackedFloat.unpack]
  split
  · next ones =>
    split
    · next zero => simp [UnpackedFloat.isInf, ones, zero]
    · next nonzero => simp [UnpackedFloat.isInf, ones, nonzero]
  · next notOnes =>
    constructor
    · refine iff_of_false ?_ fun h => notOnes h.1
      split
      · split <;> simp
      · simp
    · refine iff_of_false ?_ fun h => notOnes h.1
      split
      · split <;> simp [UnpackedFloat.isInf]
      · simp [UnpackedFloat.isInf]

/-! ### Numbers -/

namespace Number

/-- **`Number.ofPattern` undoes `Number.bits`**, for every double. -/
theorem ofPattern_bits (x : Number) : ofPattern x.bits = x := by
  rw [ofPattern, bits, UInt64.ofNat_toNat, Float.ofBits_toBits]

/-- **`Number.bits` undoes `Number.ofPattern`, up to the pattern of infinity.** The patterns beyond
it are those of not-a-number, which has a single one. -/
theorem bits_ofPattern {b : Nat} (h : b ≤ infinityBits) : (ofPattern b).bits = b := by
  have bound : b < 2 ^ 64 := Nat.lt_of_le_of_lt h (by decide)
  have word : (UInt64.ofNat b).toBitVec.toNat = b := by
    rw [UInt64.toNat_toBitVec, UInt64.toNat_ofNat', Nat.mod_eq_of_lt bound]
  have packed := pack_unpack_of_valid (valid_of_le_infinityBits (by rwa [word]))
  simp only [bits, ofPattern, Float.ofBits, Float.Model.ofBits, Float.Model.pack, Float.toBits,
    packed, UInt64.ofBitVec_toBitVec]
  exact word

/-- A double is not-a-number exactly when its pattern without sign is beyond
`Number.infinityBits`. -/
theorem isNaN_iff (x : Number) : x.isNaN = true ↔ infinityBits < x.unsignedBits := by
  have word : x.toBits.toBitVec.toNat = x.bits := rfl
  refine (unpack_special_iff x.toBits.toBitVec).1.trans ?_
  rw [ne_eq, unpackExponent_eq_ones_iff, unpackMantissa_eq_zero_iff, word, unsignedBits,
    infinityBits]
  omega

/-- A double is infinite exactly when its pattern without sign is `Number.infinityBits`. -/
theorem isInf_iff (x : Number) : x.isInf = true ↔ x.unsignedBits = infinityBits := by
  have word : x.toBits.toBitVec.toNat = x.bits := rfl
  refine (unpack_special_iff x.toBits.toBitVec).2.trans ?_
  rw [unpackExponent_eq_ones_iff, unpackMantissa_eq_zero_iff, word, unsignedBits, infinityBits]
  omega

/-- A double with a clear sign bit is the double of its pattern without sign. -/
theorem ofPattern_unsignedBits {x : Number} (h : x.isNegative = false) :
    ofPattern x.unsignedBits = x := by
  have small : x.bits < 2 ^ 63 := by simpa [isNegative] using h
  rw [unsignedBits, Nat.mod_eq_of_lt small, ofPattern_bits]

/-- Doubles with the same sign bit and the same pattern without sign are equal. -/
theorem eq_of_unsignedBits {x y : Number} (signs : x.isNegative = y.isNegative)
    (patterns : x.unsignedBits = y.unsignedBits) : x = y := by
  have bound (z : Number) : z.bits < 2 ^ 64 := UInt64.toNat_lt z.toBits
  have same : x.bits = y.bits := by
    have boundX := bound x
    have boundY := bound y
    rw [unsignedBits, unsignedBits] at patterns
    rw [isNegative, isNegative, Bool.eq_iff_iff, decide_eq_true_iff, decide_eq_true_iff] at signs
    omega
  rw [← ofPattern_bits x, same, ofPattern_bits]

/-- The pattern without sign of a number other than not-a-number is at most
`Number.infinityBits`. -/
theorem unsignedBits_le {x : Number} (defined : x.isNaN = false) :
    x.unsignedBits ≤ infinityBits :=
  Nat.le_of_not_lt fun beyond => Bool.eq_false_iff.1 defined ((isNaN_iff x).2 beyond)

/-- No pattern up to `Number.infinityBits` is that of not-a-number. -/
theorem isNaN_ofPattern {b : Nat} (h : b ≤ infinityBits) : (ofPattern b).isNaN = false := by
  rw [Bool.eq_false_iff, ne_eq, isNaN_iff, unsignedBits, bits_ofPattern h]
  rw [infinityBits] at *
  omega

/-- The double of a pattern up to `Number.infinityBits` has a clear sign bit. -/
theorem isNegative_ofPattern {b : Nat} (h : b ≤ infinityBits) :
    (ofPattern b).isNegative = false := by
  rw [isNegative, bits_ofPattern h]
  rw [infinityBits] at h
  simp only [decide_eq_false_iff_not, Nat.not_le]
  omega

/-- The double of a pattern up to `Number.infinityBits` has that pattern as its pattern without
sign. -/
theorem unsignedBits_ofPattern {b : Nat} (h : b ≤ infinityBits) :
    (ofPattern b).unsignedBits = b := by
  rw [unsignedBits, bits_ofPattern h]
  rw [infinityBits] at h
  omega

/-! ### Rounding -/

-- Powers of naturals are those of `Nat` itself here, as they are in `Number.nearestBits`.
attribute [local instance (20000)] instPowNat

/-- `Number.nearestBits` is never beyond `Number.infinityBits`. -/
theorem nearestBits_le (num den : Nat) : nearestBits num den ≤ infinityBits :=
  Nat.min_le_right _ _

/-- `Number.roundDiv` of a quotient without remainder is the quotient. -/
theorem roundDiv_of_exact {num den q : Nat} (pos : 0 < den) (exact : num = q * den) :
    roundDiv num den = q := by
  subst exact
  rw [roundDiv, Nat.mul_mod_left, Nat.mul_div_cancel _ pos, if_pos (Or.inl (by omega))]

/-- `Number.roundDiv` is not changed by a common factor of its two arguments. -/
theorem roundDiv_mul_left {k : Nat} (pos : 0 < k) (num den : Nat) :
    roundDiv (k * num) (k * den) = roundDiv num den := by
  have twice : 2 * (k * (num % den)) = k * (2 * (num % den)) := by
    rw [Nat.mul_left_comm]
  simp only [roundDiv, Nat.mul_mod_mul_left, Nat.mul_div_mul_left _ _ pos, twice,
    Nat.mul_lt_mul_left pos, Nat.mul_left_cancel_iff pos]

/-- **`Number.nearestBits` is not changed by a common factor** of its two arguments. -/
theorem nearestBits_mul_left {k : Nat} (pos : 0 < k) (num den : Nat) :
    nearestBits (k * num) (k * den) = nearestBits num den := by
  simp only [nearestBits, Nat.mul_assoc, Nat.mul_div_mul_left _ _ pos, roundDiv_mul_left pos]

/-! ### Exact quotients -/

/-- The last bit of a pattern's significand stands 52 places below the leading bit of its steps, or
at the least place: the place that `Number.nearestBits` computes for an exact quotient. -/
theorem log2_steps_sub (b : Nat) : (steps b).log2 - 52 = lastPlace b := by
  rw [steps, significand]
  by_cases h : b < 2 ^ 53
  · -- subnormal, or of the smallest exponent: the significand is the pattern itself
    have place : lastPlace b = 0 := by
      rw [lastPlace]
      omega
    rw [place]
    by_cases zero : b = 0
    · subst zero
      decide
    · have log : (b - 0 * 2 ^ 52).log2 < 53 := (Nat.log2_lt (by omega)).2 (by omega)
      rw [Nat.pow_zero, Nat.mul_one]
      omega
  · have lower : 2 ^ 52 ≤ b - lastPlace b * 2 ^ 52 := by
      rw [lastPlace]
      omega
    have upper : b - lastPlace b * 2 ^ 52 < 2 ^ 53 := by
      rw [lastPlace]
      omega
    generalize b - lastPlace b * 2 ^ 52 = m at lower upper
    generalize lastPlace b = k
    have positive : 0 < m * 2 ^ k := Nat.mul_pos (by omega) (Nat.two_pow_pos k)
    have least : 52 + k ≤ (m * 2 ^ k).log2 := by
      rw [Nat.le_log2 (by omega), Nat.pow_add]
      exact Nat.mul_le_mul_right _ lower
    have most : (m * 2 ^ k).log2 < 53 + k := by
      rw [Nat.log2_lt (by omega), Nat.pow_add]
      exact Nat.mul_lt_mul_of_pos_right upper (Nat.two_pow_pos k)
    omega

/-- A pattern is its last place in units of `2 ^ 52` and its significand together. -/
theorem lastPlace_mul_add_significand (b : Nat) : lastPlace b * 2 ^ 52 + significand b = b := by
  rw [significand, lastPlace]
  omega

/-- **Rounding gives exact quotients back**: if `num / den` is as many smallest steps as a pattern
stands for, `Number.nearestBits` gives that pattern. -/
theorem nearestBits_of_exact {num den b : Nat} (pos : 0 < den) (bound : b ≤ infinityBits)
    (exact : num * 2 ^ (1074 : Nat) = steps b * den) : nearestBits num den = b := by
  have rounded : roundDiv (steps b * den) (den * 2 ^ lastPlace b) = significand b := by
    refine roundDiv_of_exact (Nat.mul_pos pos (Nat.two_pow_pos _)) ?_
    rw [steps, Nat.mul_assoc, Nat.mul_comm den]
  rw [nearestBits, exact, Nat.mul_div_cancel _ pos]
  rw [log2_steps_sub, rounded, lastPlace_mul_add_significand, Nat.min_eq_left bound]

end Number

end SmallScheme
