import SmallScheme.Proofs.Number.Pattern

/-!
# Sums and products with their neutral elements

Sums start from `0` and products from `1`, and it should not matter whether such a start comes in
once or twice. For products it does not: a double times `1` is exact, so rounding gives it back. For
sums it does not either, but for one number: `0` and `-0` make `0`. So `-0` has to be kept out, and
a sum is `-0` only if its first term is. Where two finite terms do not cancel out, the reason is
that their sum is a whole number of smallest steps, which rounding never takes to zero.

Both facts are about doubles taken apart into sign, significand and exponent
(`Number.unpacked`).

## Main results

* `Number.one_mul_eq`: a product with `1` is the other factor.
* `Number.zero_add_eq`: a sum with `0` is the other term, if that is not `-0`.
* `Number.add_ne_negZero`: a sum is not `-0` if its first term is not.
* `Number.zero_add_foldl`: a sum that starts from `0` can start from it again.
-/

open Float.Model Float.Model.UnpackedFloat

namespace SmallScheme.Number

/-! ### Doubles taken apart -/

/-- A double taken apart into its sign, significand and exponent. -/
def unpacked (x : Number) : UnpackedFloat :=
  x.toModel.unpack

/-- A double is what packing its `Number.unpacked` gives. -/
theorem pack_unpacked (x : Number) : Float.ofModel (.pack x.unpacked) = x :=
  Float.ofBits_toBits x

/-- The sum of two doubles is the packed sum of their `Number.unpacked`. -/
theorem add_eq (x y : Number) :
    x + y = Float.ofModel (.pack (UnpackedFloat.add .binary64 x.unpacked y.unpacked)) :=
  rfl

/-- The product of two doubles is the packed product of their `Number.unpacked`. -/
theorem mul_eq (x y : Number) :
    x * y = Float.ofModel (.pack (UnpackedFloat.mul .binary64 x.unpacked y.unpacked)) :=
  rfl

/-- The exponent that rounding aims at leaves 53 bits to the significand, unless it would be below
that of the smallest step. -/
theorem targetExponent_eq (m : Nat) (e : Int) :
    Format.binary64.targetExponent (totalExponent m e) = max (m.log2 + e - 52) (-1074) := by
  have least : Format.binary64.minExponent = -1074 := by decide
  have width : (Format.binary64.mantissaBits : Int) = 53 := by decide
  rw [Format.targetExponent, totalExponent, least, width]
  congr 1
  omega

/-- Whether a significand goes with an exponent, which is then the one that rounding aims at. -/
def IsCanonical (m : Nat) (e : Int) : Prop :=
  Format.binary64.targetExponent (totalExponent m e) = e

/-- The significand of a normal double has its implicit bit in front of the fraction field. -/
theorem toNat_implicit_append (fraction : BitVec 52) :
    (1#1 ++ fraction).toNat = 2 ^ 52 + fraction.toNat := by
  have side := Nat.two_pow_add_eq_or_of_lt fraction.isLt 1
  rw [Nat.mul_one] at side
  rw [BitVec.toNat_append, side]
  rfl

/-- The significand and the exponent of an unpacked word are `IsCanonical`. -/
theorem isCanonical_of_unpack {w : Word} {s : Sign} {m : Nat} {e : Int} {pos : 0 < m}
    (h : UnpackedFloat.unpack .binary64 w = .finite s m e pos) : IsCanonical m e := by
  have fraction := toNat_unpackMantissa w
  have offset : ((Format.binary64.exponentBias : Int) +
      Format.binary64.mantissaBitsWithoutImplicit) = 1075 := by decide
  rw [IsCanonical, targetExponent_eq]
  rw [UnpackedFloat.unpack, offset] at h
  split at h
  · split at h <;> cases h
  · split at h
    · next zero =>
      split at h
      · cases h
      · -- subnormal: the exponent is the least one, and the significand has 52 bits at most
        injection h with _ isMantissa isExponent
        have none : (unpackExponent w).toNat = 0 := by
          rw [zero]
          rfl
        have small : m.log2 < 52 := (Nat.log2_lt (by omega)).2 (by omega)
        omega
    · next nonzero =>
      injection h with _ isMantissa isExponent
      have some : (unpackExponent w).toNat ≠ 0 := fun none => nonzero (BitVec.eq_of_toNat_eq none)
      have isSum := (toNat_implicit_append (unpackMantissa w)).symm.trans isMantissa
      have leading : m.log2 = 52 := (Nat.log2_eq_iff (by omega)).2 (by omega)
      omega

/-! ### Shifting -/

/-- Shifting a significand to the right by `k` divides it by `2 ^ k`. -/
theorem mantissa_shiftRight (em : ExtendedMantissa) (k : Nat) :
    (em >>> k).mantissa = em.mantissa / 2 ^ k := by
  induction k with
  | zero => exact (Nat.div_one em.mantissa).symm
  | succ k ih =>
      change (em >>> k).shiftRightOne.mantissa = _
      rw [ExtendedMantissa.shiftRightOne, ih, Nat.div_div_eq_div_mul, Nat.pow_succ]

/-- Shifting a significand with `k` zeros at its end to the right by `k` loses nothing. -/
theorem shiftRight_of_exact (m k : Nat) :
    (⟨m * 2 ^ k, false, false⟩ : ExtendedMantissa) >>> k = ⟨m, false, false⟩ := by
  induction k generalizing m with
  | zero => exact congrArg (ExtendedMantissa.mk · false false) (Nat.mul_one m)
  | succ k ih =>
      have double : m * 2 ^ (k + 1) = m * 2 * 2 ^ k := by rw [Nat.pow_succ', Nat.mul_assoc]
      change ((⟨m * 2 ^ (k + 1), false, false⟩ : ExtendedMantissa) >>> k).shiftRightOne = _
      rw [double, ih, ExtendedMantissa.shiftRightOne, Nat.mul_div_cancel _ (by decide),
        Nat.mul_mod_left]
      rfl

/-- Appending `k` zeros to a natural moves its leading bit up by `k`. -/
theorem log2_mul_two_pow {m : Nat} (pos : 0 < m) (k : Nat) : (m * 2 ^ k).log2 = m.log2 + k := by
  induction k with
  | zero => rw [Nat.pow_zero, Nat.mul_one, Nat.add_zero]
  | succ k ih =>
      have nonzero : m * 2 ^ k ≠ 0 := Nat.ne_of_gt (Nat.mul_pos pos (Nat.two_pow_pos k))
      rw [Nat.pow_succ', Nat.mul_left_comm, Nat.log2_two_mul nonzero, ih, Nat.add_assoc]

/-- A significand and an exponent that are `IsCanonical` are found again by `shiftToTargetExponent`,
whatever number of zeros is appended to the significand. -/
theorem shiftToTargetExponent_of_isCanonical {m : Nat} {e : Int} (pos : 0 < m)
    (canonical : IsCanonical m e) (k : Nat) :
    shiftToTargetExponent .binary64 (m * 2 ^ k) (e - k) .exact = (⟨m, false, false⟩, e) := by
  rw [IsCanonical, targetExponent_eq] at canonical
  have target : Format.binary64.targetExponent (totalExponent (m * 2 ^ k) (e - k)) = e := by
    rw [targetExponent_eq, log2_mul_two_pow pos]
    omega
  have distance : (e - (e - k)).toNat = k := by omega
  rw [shiftToTargetExponent, target, shiftToExponent, distance,
    ExtendedMantissa.ofMantissaAndAccuracy]
  simp only [shiftRight_of_exact]
  congr 1
  omega

/-- What `shiftToTargetExponent` makes of a positive significand is positive again and has at most
53 bits, and the exponent does not fall. -/
theorem shiftToTargetExponent_bounds {m : Nat} {e : Int} (pos : 0 < m) (least : -1074 ≤ e)
    (accuracy : Accuracy) :
    0 < (shiftToTargetExponent .binary64 m e accuracy).1.mantissa ∧
      (shiftToTargetExponent .binary64 m e accuracy).1.mantissa < 2 ^ 53 ∧
      e ≤ (shiftToTargetExponent .binary64 m e accuracy).2 := by
  have start : (ExtendedMantissa.ofMantissaAndAccuracy m accuracy).mantissa = m := by
    cases accuracy with
    | exact => rfl
    | inexact side => cases side <;> rfl
  have distance : (max ((m.log2 : Int) + e - 52) (-1074) - e).toNat = m.log2 - 52 := by omega
  have lower : 2 ^ m.log2 ≤ m := Nat.log2_self_le (Nat.ne_of_gt pos)
  have upper : m < 2 ^ (m.log2 + 1) := Nat.lt_log2_self
  rw [shiftToTargetExponent, targetExponent_eq, shiftToExponent]
  simp only [mantissa_shiftRight, start, distance]
  refine ⟨Nat.div_pos (le_trans ?_ lower) (Nat.two_pow_pos _), ?_, by omega⟩
  · exact Nat.pow_le_pow_right (by decide) (by omega)
  · rw [Nat.div_lt_iff_lt_mul (Nat.two_pow_pos _), ← Nat.pow_add]
    exact lt_of_lt_of_le upper (Nat.pow_le_pow_right (by decide) (by omega))

/-! ### Rounding -/

/-- **Rounding gives back what need not be rounded**: a significand and an exponent that are
`IsCanonical`, whatever number of zeros is appended to the significand. -/
theorem roundWithAccuracy_of_isCanonical {m : Nat} {e : Int} (pos : 0 < m)
    (canonical : IsCanonical m e) (s : Sign) (k : Nat) :
    roundWithAccuracy .binary64 s (m * 2 ^ k) (e - k) .exact = .finite s m e pos := by
  have once := shiftToTargetExponent_of_isCanonical pos canonical k
  have again := shiftToTargetExponent_of_isCanonical pos canonical 0
  rw [Nat.pow_zero, Nat.mul_one, Int.ofNat_zero, Int.sub_zero] at again
  have rounded : (⟨m, false, false⟩ : ExtendedMantissa).roundedMantissa = m := rfl
  simp only [roundWithAccuracy, once, rounded, again]
  rw [dif_neg (Nat.ne_of_gt pos)]

/-- A significand is never rounded to a smaller one than it is without the bits behind it. -/
theorem le_roundedMantissa (em : ExtendedMantissa) : em.mantissa ≤ em.roundedMantissa := by
  rw [ExtendedMantissa.roundedMantissa]
  cases em.accuracy with
  | exact => exact Nat.le_refl _
  | inexact side =>
      cases side with
      | lt => exact Nat.le_refl _
      | eq => exact Nat.le_add_right _ _
      | gt => exact Nat.le_succ _

/-- Whether the significand and the exponent of a number that is finite and not zero are in the
range of doubles, overflow aside. -/
def InRange : UnpackedFloat → Prop
  | .finite _ m e _ => m < 2 ^ 53 ∧ -1074 ≤ e
  | _ => True

/-- The parts of a double are `InRange`. -/
theorem inRange_unpacked (x : Number) : InRange x.unpacked := by
  cases parts : x.unpacked with
  | finite s m e pos =>
      have canonical := isCanonical_of_unpack parts
      rw [IsCanonical, targetExponent_eq] at canonical
      have bits : m.log2 < 53 := by omega
      exact ⟨(Nat.log2_lt (Nat.ne_of_gt pos)).1 bits, by omega⟩
  | _ => trivial

/-- `roundWithAccuracy` of a positive significand and an exponent of at least that of the smallest
step is finite, not zero, and in range. -/
theorem exists_roundWithAccuracy_eq {m : Nat} {e : Int} (pos : 0 < m) (least : -1074 ≤ e)
    (s : Sign) (accuracy : Accuracy) :
    ∃ m' e' pos', roundWithAccuracy .binary64 s m e accuracy = .finite s m' e' pos' ∧
      m' < 2 ^ 53 ∧ -1074 ≤ e' := by
  obtain ⟨some, -, higher⟩ := shiftToTargetExponent_bounds pos least accuracy
  -- rounding may carry into a bit more, so there is a second shift
  have rounded := lt_of_lt_of_le some (le_roundedMantissa _)
  obtain ⟨some', bound, higher'⟩ :=
    shiftToTargetExponent_bounds rounded (le_trans least higher) .exact
  refine ⟨_, _, some', ?_, bound, le_trans least (le_trans higher higher')⟩
  simp only [roundWithAccuracy]
  rw [dif_neg (Nat.ne_of_gt some')]

/-- `UnpackedFloat.round`, which appends zeros to the significand before it rounds, is finite,
not zero and in range for a positive significand and an exponent of at least that of the smallest
step. -/
theorem exists_round_eq {m : Nat} {e : Int} (pos : 0 < m) (least : -1074 ≤ e) (s : Sign) :
    ∃ m' e' pos', UnpackedFloat.round .binary64 s m e = .finite s m' e' pos' ∧
      m' < 2 ^ 53 ∧ -1074 ≤ e' := by
  rw [UnpackedFloat.round, targetExponent_eq]
  simp only [decreaseExponent, Nat.shiftLeft_eq]
  refine exists_roundWithAccuracy_eq (Nat.mul_pos pos (Nat.two_pow_pos _)) ?_ s .exact
  omega

/-- A whole number of smallest steps is normalized to the positive zero, or to a finite number that
is not zero and in range. -/
theorem normalize_cases {e : Int} (least : -1074 ≤ e) (m : Int) :
    UnpackedFloat.normalize .binary64 m e .positive = .zero .positive ∨
      ∃ s m' e' pos', UnpackedFloat.normalize .binary64 m e .positive = .finite s m' e' pos' ∧
        m' < 2 ^ 53 ∧ -1074 ≤ e' := by
  rw [UnpackedFloat.normalize]
  split
  · next isNegative =>
    have below := Int.compare_eq_lt.1 isNegative
    exact Or.inr ⟨.negative, exists_round_eq (by omega) least .negative⟩
  · exact Or.inl rfl
  · next isPositive =>
    have above := Int.compare_eq_gt.1 isPositive
    exact Or.inr ⟨.positive, exists_round_eq (by omega) least .positive⟩

/-! ### Sums -/

/-- The sum of two numbers that are `InRange` is `InRange`, and it is the negative zero only if the
first of them is. -/
theorem inRange_add {u v : UnpackedFloat} (inRange : InRange u) (inRange' : InRange v) :
    InRange (UnpackedFloat.add .binary64 u v) ∧
      (UnpackedFloat.add .binary64 u v = .zero .negative → u = .zero .negative) := by
  cases u with
  | notANumber => exact ⟨trivial, nofun⟩
  | infinity s =>
      cases v with
      | infinity t =>
          simp only [UnpackedFloat.add]
          split
          · exact ⟨trivial, nofun⟩
          · exact ⟨trivial, nofun⟩
      | _ => exact ⟨trivial, nofun⟩
  | zero s =>
      cases v with
      | zero t =>
          simp only [UnpackedFloat.add]
          split
          · exact ⟨trivial, id⟩
          · exact ⟨trivial, nofun⟩
      | finite t m e pos => exact ⟨inRange', nofun⟩
      | _ => exact ⟨trivial, nofun⟩
  | finite s m e pos =>
      cases v with
      | finite t m' e' pos' =>
          have least : -1074 ≤ min e e' := le_min inRange.2 inRange'.2
          simp only [UnpackedFloat.add, decreaseExponent]
          generalize (_ : Int) + _ = sum
          rcases normalize_cases least sum with zero | ⟨s, m', e', pos', isFinite, inRange⟩
          · rw [zero]
            exact ⟨trivial, nofun⟩
          · rw [isFinite]
            exact ⟨inRange, nofun⟩
      | zero t => exact ⟨inRange, nofun⟩
      | _ => exact ⟨trivial, nofun⟩

/-- A packed zero has zeros in its exponent field and in its fraction field. -/
theorem fields_packedZero (s : Sign) :
    unpackExponent (packedZero .binary64 s) = 0#11 ∧
      unpackMantissa (packedZero .binary64 s) = 0#52 := by
  rw [packedZero, unpackExponent_packComponents, unpackMantissa_packComponents]
  exact ⟨rfl, rfl⟩

/-- A finite number that is `InRange` and not zero is not packed as zero. -/
theorem pack_finite_ne_packedZero {s : Sign} {m : Nat} {e : Int} {pos : 0 < m}
    (inRange : InRange (.finite s m e pos)) (t : Sign) :
    UnpackedFloat.pack .binary64 (.finite s m e pos) ≠ packedZero .binary64 t := by
  intro isZero
  obtain ⟨exponent, fraction⟩ := fields_packedZero t
  obtain ⟨small, least⟩ := inRange
  have bias : (Format.binary64.exponentBias : Int) = 1023 := by decide
  have width : Format.binary64.mantissaBits = 53 := by decide
  rw [← isZero] at exponent fraction
  simp only [UnpackedFloat.pack] at exponent fraction
  split at exponent
  · rw [packedInfinity, unpackExponent_packComponents] at exponent
    exact absurd exponent (by decide)
  · next finite =>
    rw [if_neg finite] at fraction
    split at exponent
    · -- normal: the exponent field is not zero
      rw [unpackExponent_packComponents] at exponent
      have field := congrArg BitVec.toNat exponent
      rw [BitVec.toNat_ofNat, BitVec.toNat_ofNat, Nat.zero_mod] at field
      omega
    · -- subnormal: the fraction field is the whole significand
      next subnormal =>
      rw [if_neg subnormal, unpackMantissa_packComponents] at fraction
      have field := congrArg BitVec.toNat fraction
      rw [BitVec.toNat_ofNat, BitVec.toNat_ofNat, Nat.zero_mod] at field
      have bits : m.log2 < 53 := (Nat.log2_lt (Nat.ne_of_gt pos)).2 small
      have narrow : m < 2 ^ 52 := (Nat.log2_lt (Nat.ne_of_gt pos)).1 (by omega)
      rw [Nat.mod_eq_of_lt narrow] at field
      omega

/-- Of the numbers that are `InRange`, only the zero with a sign is packed as that zero. -/
theorem eq_zero_of_pack {u : UnpackedFloat} {s : Sign} (inRange : InRange u)
    (h : UnpackedFloat.pack .binary64 u = packedZero .binary64 s) : u = .zero s := by
  have exponent := (fields_packedZero s).1
  rw [← h] at exponent
  cases u with
  | notANumber => exact absurd exponent (by decide)
  | infinity t =>
      rw [UnpackedFloat.pack, packedInfinity, unpackExponent_packComponents] at exponent
      exact absurd exponent (by decide)
  | zero t =>
      have same := congrArg unpackSign h
      rw [UnpackedFloat.pack, packedZero, packedZero, unpackSign_packComponents,
        unpackSign_packComponents] at same
      rw [← Sign.ofBitVec_toBitVec t, same, Sign.ofBitVec_toBitVec]
  | finite t m e pos => exact absurd h (pack_finite_ne_packedZero inRange s)

/-- A double is `-0` exactly when its `Number.unpacked` is the negative zero. -/
theorem eq_negZero_iff (x : Number) : x = -0 ↔ x.unpacked = .zero .negative := by
  have packed : (-0 : Number) = Float.ofModel (.pack (.zero .negative)) := by decide
  constructor
  · rintro rfl
    rfl
  · intro parts
    rw [packed, ← parts, pack_unpacked]

/-- **A sum is not `-0` if its first term is not.** -/
theorem add_ne_negZero {x y : Number} (h : x ≠ -0) : x + y ≠ -0 := by
  intro isZero
  obtain ⟨inRange, onlyIf⟩ := inRange_add (inRange_unpacked x) (inRange_unpacked y)
  have packed : UnpackedFloat.pack .binary64
      (UnpackedFloat.add .binary64 x.unpacked y.unpacked) = packedZero .binary64 .negative :=
    congrArg (fun z : Number => z.toBits.toBitVec) isZero
  exact h ((eq_negZero_iff x).2 (onlyIf (eq_zero_of_pack inRange packed)))

/-- **`0 + x` is `x`**, unless `x` is `-0`. -/
theorem zero_add_eq {x : Number} (h : x ≠ -0) : 0 + x = x := by
  have same : UnpackedFloat.add .binary64 (unpacked 0) x.unpacked = x.unpacked := by
    have zero : unpacked 0 = .zero .positive := rfl
    rw [zero]
    cases parts : x.unpacked with
    | zero s =>
        cases s with
        | positive => rfl
        | negative => exact absurd ((eq_negZero_iff x).2 parts) h
    | _ => rfl
  rw [add_eq, same, pack_unpacked]

/-- A sum of many terms that starts from something other than `-0` is not `-0`. -/
theorem foldl_add_ne_negZero {start : Number} (h : start ≠ -0) (xs : List Number) :
    xs.foldl (· + ·) start ≠ -0 := by
  induction xs generalizing start with
  | nil => exact h
  | cons x xs ih => exact ih (add_ne_negZero h)

/-- **A sum that starts from `0` is not changed by adding it to `0`.** -/
theorem zero_add_foldl (xs : List Number) :
    0 + xs.foldl (· + ·) 0 = xs.foldl (· + ·) (0 : Number) :=
  zero_add_eq (foldl_add_ne_negZero (by decide) xs)

/-! ### Products -/

/-- **`1 * x` is `x`**, for every double. -/
theorem one_mul_eq (x : Number) : 1 * x = x := by
  have same : UnpackedFloat.mul .binary64 (unpacked 1) x.unpacked = x.unpacked := by
    have one : unpacked 1 = .finite .positive (2 ^ 52) (-52) (by decide) := rfl
    have signs (s : Sign) : Sign.positive * s = s := by cases s <;> rfl
    rw [one]
    cases parts : x.unpacked with
    | notANumber => rfl
    | infinity s => rw [UnpackedFloat.mul, signs]
    | zero s => rw [UnpackedFloat.mul, signs]
    | finite s m e pos =>
        have product : (-52 : Int) + e = e - (52 : Nat) := by omega
        rw [UnpackedFloat.mul, signs, Nat.mul_comm, product]
        exact roundWithAccuracy_of_isCanonical pos (isCanonical_of_unpack parts) s 52
  rw [mul_eq, same, pack_unpacked]

end SmallScheme.Number
