import SmallScheme.Proofs.Number.Arithmetic

/-!
# The order of numbers

A double has a rank among the doubles (`Number.rank`): its pattern without sign, counted upwards
from zero if the sign bit is clear and downwards if it is set. Ranks are integers, and both zeros
have the same one. Comparing two doubles takes them apart and looks at signs, exponents and
significands in turn; what comes of it is the order of their ranks, unless one of them is
not-a-number, which is neither less than anything nor equal to it.

## Main results

* `Number.hasParts_unpacked`: the parts of a double, by its pattern.
* `Number.Ranked.compare_eq`: parts are compared as ranks are.
* `Number.lt_iff`, `Number.beq_iff`: what `<` and `==` say of two doubles.
-/

open Float.Model Float.Model.UnpackedFloat

namespace SmallScheme.Number

/-! ### Parts by patterns -/

/-- The sign of a number, as its sign bit has it. -/
def sign (x : Number) : Sign :=
  if x.isNegative then .negative else .positive

/-- The sign field of a word is its first bit. -/
theorem toNat_unpackSign (w : Word) : (unpackSign w).toNat = w.toNat / 2 ^ 63 % 2 := by
  simp [unpackSign, BitVec.extractLsb, Nat.shiftRight_eq_div_pow]

/-- The sign field of a word stands for the negative sign exactly when the first bit is set. -/
theorem ofBitVec_unpackSign (w : Word) :
    Sign.ofBitVec (unpackSign w) = if 2 ^ 63 ≤ w.toNat then .negative else .positive := by
  have bound : w.toNat < 2 ^ 64 := w.isLt
  have field := toNat_unpackSign w
  rw [Sign.ofBitVec]
  split
  · next clear =>
    have zero : (unpackSign w).toNat = 0 := congrArg BitVec.toNat clear
    rw [if_neg (by omega)]
  · next set =>
    have nonzero : (unpackSign w).toNat ≠ 0 := fun zero => set (BitVec.eq_of_toNat_eq zero)
    rw [if_pos (by omega)]

/-- What a number is taken apart into: the class goes with its pattern without sign, and a finite
number has the significand and the last place of that pattern. -/
inductive HasParts (x : Number) : UnpackedFloat → Prop
  | notANumber : infinityBits < x.unsignedBits → HasParts x .notANumber
  | infinity : x.unsignedBits = infinityBits → HasParts x (.infinity x.sign)
  | zero : x.unsignedBits = 0 → HasParts x (.zero x.sign)
  | finite {m : Nat} {e : Int} {pos : 0 < m} : x.unsignedBits < infinityBits →
      m = significand x.unsignedBits → e = lastPlace x.unsignedBits - 1074 →
      HasParts x (.finite x.sign m e pos)

/-- **The `Number.unpacked` of a double has the significand and the last place of its pattern.** -/
theorem hasParts_unpacked (x : Number) : HasParts x x.unpacked := by
  obtain ⟨w, parts, word⟩ :
      ∃ w : Word, x.unpacked = UnpackedFloat.unpack .binary64 w ∧ w.toNat = x.bits :=
    ⟨x.toBits.toBitVec, rfl, rfl⟩
  have bound : w.toNat < 2 ^ 64 := w.isLt
  have exponent := toNat_unpackExponent w
  have fraction := toNat_unpackMantissa w
  have isSign : Sign.ofBitVec (unpackSign w) = x.sign := by
    rw [ofBitVec_unpackSign, word, sign, isNegative]
    simp
  have offset : ((Format.binary64.exponentBias : Int) +
      Format.binary64.mantissaBitsWithoutImplicit) = 1075 := by decide
  have unsigned : x.unsignedBits = w.toNat % 2 ^ 63 := by rw [unsignedBits, word]
  rw [parts, UnpackedFloat.unpack, offset, isSign]
  split
  · next ones =>
    rw [unpackExponent_eq_ones_iff] at ones
    split
    · next zero =>
      rw [unpackMantissa_eq_zero_iff] at zero
      refine .infinity ?_
      rw [unsigned, infinityBits]
      omega
    · next nonzero =>
      rw [unpackMantissa_eq_zero_iff] at nonzero
      refine .notANumber ?_
      rw [unsigned, infinityBits]
      omega
  · next notOnes =>
    rw [unpackExponent_eq_ones_iff] at notOnes
    have finite : x.unsignedBits < infinityBits := by
      rw [unsigned, infinityBits]
      omega
    split
    · next noExponent =>
      have none : (unpackExponent w).toNat = 0 := congrArg BitVec.toNat noExponent
      split
      · next zero =>
        rw [unpackMantissa_eq_zero_iff] at zero
        refine .zero ?_
        rw [unsigned]
        omega
      · -- subnormal: the significand is the fraction field, at the least place
        refine .finite finite ?_ ?_
        · rw [significand, lastPlace, unsigned]
          omega
        · rw [lastPlace, unsigned]
          omega
    · next hasExponent =>
      have some : (unpackExponent w).toNat ≠ 0 :=
        fun none => hasExponent (BitVec.eq_of_toNat_eq none)
      refine .finite finite ?_ ?_
      · rw [toNat_implicit_append, significand, lastPlace, unsigned]
        omega
      · rw [lastPlace, unsigned]
        omega

/-! ### Ranks -/

/-- The place of a number among all numbers, counted from zero: its pattern, and below zero where
the sign bit is set. The two zeros share a place. -/
def rank (x : Number) : Int :=
  x.sign.apply x.unsignedBits

/-- The parts of a number other than not-a-number, and the `Number.rank` that goes with them. -/
inductive Ranked : UnpackedFloat → Int → Prop
  | infinity {s : Sign} : Ranked (.infinity s) (s.apply infinityBits)
  | zero {s : Sign} : Ranked (.zero s) 0
  | finite {s : Sign} {m b : Nat} {e : Int} {pos : 0 < m} :
      m = significand b → e = lastPlace b - 1074 → 0 < b → b < infinityBits →
      Ranked (.finite s m e pos) (s.apply b)

/-- The `Number.unpacked` of a number other than not-a-number goes with its `Number.rank`. -/
theorem ranked_unpacked {x : Number} (defined : x.isNaN = false) : Ranked x.unpacked x.rank := by
  rw [Bool.eq_false_iff, ne_eq, isNaN_iff] at defined
  have parts := hasParts_unpacked x
  rw [rank]
  generalize x.unpacked = u at parts
  cases parts with
  | notANumber beyond => exact absurd beyond defined
  | infinity infinite =>
      rw [infinite]
      exact .infinity
  | zero isZero =>
      rw [isZero]
      cases x.sign with
      | positive => exact .zero
      | negative => exact .zero
  | @finite m e pos finite isSignificand isPlace =>
      refine .finite isSignificand isPlace (Nat.pos_of_ne_zero fun zero => ?_) finite
      rw [zero] at isSignificand
      exact Nat.ne_of_gt pos isSignificand

/-- Comparing the last places of two patterns first and then their significands is comparing the
patterns. -/
theorem compare_place_then_significand (b c : Nat) :
    (compare ((lastPlace b : Int) - 1074) (lastPlace c - 1074)).then
      (compare (significand b) (significand c)) = compare (b : Int) c := by
  have smaller {b c : Nat} (h : b < c) :
      lastPlace b < lastPlace c ∨ lastPlace b = lastPlace c ∧ significand b < significand c := by
    rw [significand, significand, lastPlace, lastPlace]
    omega
  rcases Nat.lt_trichotomy b c with less | rfl | greater
  · rw [Int.compare_eq_lt.2 (Int.ofNat_lt.2 less)]
    rcases smaller less with place | ⟨place, bits⟩
    · rw [Int.compare_eq_lt.2 (by omega)]
      rfl
    · rw [place, Int.compare_eq_eq.2 rfl, Nat.compare_eq_lt.2 bits]
      rfl
  · rw [Int.compare_eq_eq.2 rfl, Int.compare_eq_eq.2 rfl, Nat.compare_eq_eq.2 rfl]
    rfl
  · rw [Int.compare_eq_gt.2 (Int.ofNat_lt.2 greater)]
    rcases smaller greater with place | ⟨place, bits⟩
    · rw [Int.compare_eq_gt.2 (by omega)]
      rfl
    · rw [place, Int.compare_eq_eq.2 rfl, Nat.compare_eq_gt.2 bits]
      rfl

/-- Comparing the opposites of two integers is comparing the integers the other way around. -/
theorem compare_neg_neg (a b : Int) : compare (-a) (-b) = compare b a := by
  simp only [Int.compare_eq_ite_lt, Int.neg_lt_neg_iff]

/-- **`UnpackedFloat.compare` compares the ranks** that go with its two arguments. -/
theorem Ranked.compare_eq {u v : UnpackedFloat} {a b : Int} (first : Ranked u a)
    (second : Ranked v b) : u.compare v = some (compare a b) := by
  have less {a b : Int} (h : a < b) : some Ordering.lt = some (compare a b) :=
    congrArg some (Int.compare_eq_lt.2 h).symm
  have greater {a b : Int} (h : b < a) : some Ordering.gt = some (compare a b) :=
    congrArg some (Int.compare_eq_gt.2 h).symm
  -- infinities are beyond all patterns of finite numbers, whatever the signs of these
  have between {b : Nat} (s : Sign) (bound : b < infinityBits) :
      -(infinityBits : Int) < s.apply b ∧ s.apply b < infinityBits := by
    cases s with
    | positive => simp only [Sign.apply]; omega
    | negative => simp only [Sign.apply]; omega
  cases first with
  | @infinity s =>
      cases second with
      | @infinity t => cases s <;> cases t <;> rfl
      | zero => cases s <;> rfl
      | @finite t _ _ _ _ _ _ _ bound =>
          cases s with
          | positive => exact greater (between t bound).2
          | negative => exact less (between t bound).1
  | zero =>
      cases second with
      | @infinity t => cases t <;> rfl
      | zero => rfl
      | @finite t _ _ _ _ _ _ positive _ =>
          cases t with
          | positive => exact less (Int.natCast_pos.2 positive)
          | negative => exact greater (Int.neg_neg_of_pos (Int.natCast_pos.2 positive))
  | @finite s _ b _ _ isSignificand isPlace positive bound =>
      cases second with
      | @infinity t =>
          cases t with
          | positive => cases s <;> exact less (between _ bound).2
          | negative => cases s <;> exact greater (between _ bound).1
      | zero =>
          cases s with
          | positive => exact greater (Int.natCast_pos.2 positive)
          | negative => exact less (Int.neg_neg_of_pos (Int.natCast_pos.2 positive))
      | @finite t _ c _ _ isSignificand' isPlace' positive' =>
          have magnitudes := compare_place_then_significand b c
          rw [← isSignificand, ← isSignificand', ← isPlace, ← isPlace'] at magnitudes
          cases s with
          | positive =>
              cases t with
              | positive => exact congrArg some magnitudes
              | negative => exact greater (by simp only [Sign.apply]; omega)
          | negative =>
              cases t with
              | positive => exact less (by simp only [Sign.apply]; omega)
              | negative =>
                  refine congrArg some ?_
                  rw [magnitudes, Int.compare_swap]
                  exact (compare_neg_neg _ _).symm

/-! ### Comparing numbers -/

theorem unpacked_of_isNaN {x : Number} (undefined : x.isNaN = true) : x.unpacked = .notANumber :=
  Float.Model.UnpackedFloat.isNaN_iff.1 undefined

/-- `UnpackedFloat.compare` of two doubles has an answer exactly when neither is not-a-number, and
then the answer is the order of their `Number.rank`. -/
theorem compare_unpacked_iff {x y : Number} {o : Ordering} :
    x.unpacked.compare y.unpacked = some o ↔
      x.isNaN = false ∧ y.isNaN = false ∧ compare x.rank y.rank = o := by
  cases undefined : x.isNaN with
  | true =>
      rw [unpacked_of_isNaN undefined]
      cases y.unpacked <;> simp [UnpackedFloat.compare]
  | false =>
      cases undefined' : y.isNaN with
      | true =>
          rw [unpacked_of_isNaN undefined']
          cases x.unpacked <;> simp [UnpackedFloat.compare]
      | false =>
          rw [(ranked_unpacked undefined).compare_eq (ranked_unpacked undefined'),
            Option.some.injEq]
          simp

/-- **`x < y` holds exactly when the `Number.rank` of `x` is less than that of `y`**, and neither is
not-a-number. -/
theorem lt_iff {x y : Number} :
    x < y ↔ x.isNaN = false ∧ y.isNaN = false ∧ x.rank < y.rank := by
  have asked : x < y ↔ (x.unpacked.compare y.unpacked == some .lt) = true := decide_eq_true_iff
  rw [asked, beq_iff_eq, compare_unpacked_iff, Int.compare_eq_lt]

/-- **`x == y` holds exactly when `x` and `y` have the same `Number.rank`**, and neither is
not-a-number. -/
theorem beq_iff {x y : Number} :
    (x == y) = true ↔ x.isNaN = false ∧ y.isNaN = false ∧ x.rank = y.rank := by
  have asked : (x == y) = (x.unpacked.compare y.unpacked == some .eq) := rfl
  rw [asked, beq_iff_eq, compare_unpacked_iff, Int.compare_eq_eq]

end SmallScheme.Number
