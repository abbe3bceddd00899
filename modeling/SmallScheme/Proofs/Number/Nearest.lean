import Mathlib.Algebra.Order.Field.Basic
import Mathlib.Algebra.Order.Ring.Rat
import Mathlib.Tactic.NormNum
import Mathlib.Tactic.Ring
import SmallScheme.Proofs.Number.Order

/-!
# Correct rounding

The double that a quotient is rounded to is nearer to it than any other double, or as near as the
other and even. Infinity takes part in this as the double of its pattern, `2 ^ 1024`, so quotients
beyond the largest finite double by half a last place or more go to infinity.

Magnitudes are counted in smallest steps. Around a quotient that needs the last place `2 ^ place`,
all patterns stand for multiples of it, but for those that are below the quotient anyway. So
rounding to the nearest multiple is rounding to the nearest pattern.

## Main results

* `Number.steps_strictMono`: a larger pattern stands for more steps.
* `Number.nearer_roundDiv`: rounding a quotient gives the nearest multiple.
* `Number.nearer_nearestBits`: the rounded pattern is the nearest up to that of infinity.
* `Number.isNearest_nearest`: the rounded double is the nearest to a quotient.
* `Decimal.isNearest_toNumber`: the double of a decimal is the nearest to its value.
-/

open Float.Model Float.Model.UnpackedFloat

namespace SmallScheme.Number

-- Powers of naturals are those of `Nat` itself here, as they are in `Number.nearestBits`.
attribute [local instance (20000)] instPowNat

/-! ### Steps -/

/-- A significand has at most 53 bits. -/
theorem significand_lt (b : Nat) : significand b < 2 ^ 53 := by
  rw [significand, lastPlace]
  omega

/-- The significand of a pattern has all 53 bits, unless its last place is the least one. -/
theorem le_significand {b : Nat} (place : 0 < lastPlace b) : 2 ^ 52 ≤ significand b := by
  rw [lastPlace] at place
  rw [significand, lastPlace]
  omega

/-- A pattern with a last place below `place` has fewer steps than `2 ^ 52` units of `place`. -/
theorem steps_lt_of_lastPlace_lt {b place : Nat} (lower : lastPlace b < place) :
    steps b < 2 ^ 52 * 2 ^ place := by
  obtain ⟨k, rfl⟩ := Nat.exists_eq_add_of_lt lower
  calc steps b
      < 2 ^ 53 * 2 ^ lastPlace b :=
        Nat.mul_lt_mul_of_pos_right (significand_lt b) (Nat.two_pow_pos _)
    _ ≤ 2 ^ 53 * 2 ^ (lastPlace b + k) :=
        Nat.mul_le_mul_left _ (Nat.pow_le_pow_right (by decide) (Nat.le_add_right _ _))
    _ = 2 ^ 52 * 2 ^ (lastPlace b + k + 1) := by rw [Nat.pow_succ 2 (lastPlace b + k)]; ring

/-- **A larger pattern stands for more steps.** -/
theorem steps_strictMono : StrictMono steps := by
  intro b c less
  have places : lastPlace b ≤ lastPlace c := by
    rw [lastPlace, lastPlace]
    omega
  rcases Nat.lt_or_eq_of_le places with lower | same
  · refine Nat.lt_of_lt_of_le (steps_lt_of_lastPlace_lt lower) ?_
    exact Nat.mul_le_mul_right _ (le_significand (Nat.lt_of_le_of_lt (Nat.zero_le _) lower))
  · rw [steps, steps, same]
    refine Nat.mul_lt_mul_of_pos_right ?_ (Nat.two_pow_pos _)
    rw [significand, significand, same]
    have fits : lastPlace c * 2 ^ 52 ≤ b := by
      rw [← same, lastPlace]
      omega
    omega

/-- The steps of a pattern are a multiple of `2 ^ place` for every place up to its last one. -/
theorem exists_steps_eq_mul {b place : Nat} (higher : place ≤ lastPlace b) :
    ∃ k, steps b = k * 2 ^ place := by
  obtain ⟨j, isPlace⟩ := Nat.exists_eq_add_of_le higher
  exact ⟨significand b * 2 ^ j, by rw [steps, isPlace, Nat.pow_add]; ring⟩

/-- The steps of the pattern `place * 2 ^ 52 + m` are `m` units of `place`. The bound on `m` allows
for a significand that was rounded up and carries into the exponent. -/
theorem steps_add {place m : Nat} (bound : m ≤ 2 ^ 53) (leading : place = 0 ∨ 2 ^ 52 ≤ m) :
    steps (place * 2 ^ 52 + m) = m * 2 ^ place := by
  by_cases carries : m = 2 ^ 53
  · have isPlace : lastPlace (place * 2 ^ 52 + m) = place + 1 := by
      rw [lastPlace]
      omega
    rw [steps, significand, isPlace, carries, Nat.pow_succ 2 place]
    have isSignificand : place * 2 ^ 52 + 2 ^ 53 - (place + 1) * 2 ^ 52 = 2 ^ 52 := by omega
    rw [isSignificand]
    ring
  · have isPlace : lastPlace (place * 2 ^ 52 + m) = place := by
      rw [lastPlace]
      omega
    rw [steps, significand, isPlace, Nat.add_sub_cancel_left]

/-! ### Nearest multiples -/

/-- How far a quotient is from so many steps, times the denominator. -/
def distance (scaled den : Nat) (z : Int) : Nat :=
  ((scaled : Int) - z * den).natAbs

/-- Whether the first of two counts is nearer to a quotient, or as near as the second where it is
preferred. -/
def Nearer (scaled den : Nat) (preferred : Prop) (y z : Int) : Prop :=
  distance scaled den y < distance scaled den z ∨
    distance scaled den y = distance scaled den z ∧ preferred

/-- Of two counts that are not above a quotient, the larger is the nearer to it. -/
theorem distance_lt_of_lt {scaled den y z : Nat} (pos : 0 < den) (less : y < z)
    (under : z * den ≤ scaled) : distance scaled den z < distance scaled den y := by
  have products := Nat.mul_lt_mul_of_pos_right less pos
  rw [distance, distance, ← Int.natCast_mul, ← Int.natCast_mul]
  omega

/-- A quotient that the larger of two counts is `Nearer` to is not below the smaller one. -/
theorem le_of_nearer {scaled den y z : Nat} {preferred : Prop} (pos : 0 < den) (less : z < y)
    (nearer : Nearer scaled den preferred y z) : z * den ≤ scaled := by
  have products := Nat.mul_lt_mul_of_pos_right less pos
  rw [Nearer, distance, distance, ← Int.natCast_mul, ← Int.natCast_mul] at nearer
  omega

/-- A count that is `Nearer` to a quotient than zero, or is zero, is also nearer to it than every
count below zero. -/
theorem Nearer.neg {scaled den y : Nat} {preferred : Prop}
    (zero : y = 0 ∧ preferred ∨ Nearer scaled den preferred y (0 : Nat)) (z : Nat) :
    Nearer scaled den preferred y (-(z : Int)) := by
  have atZero : distance scaled den (0 : Nat) = scaled := by simp [distance]
  have below : distance scaled den (-(z : Int)) = scaled + z * den := by
    rw [distance, neg_mul, sub_neg_eq_add, ← Int.natCast_mul, ← Int.natCast_add,
      Int.natAbs_natCast]
  rw [Nearer, atZero] at zero
  rw [Nearer, below]
  have asNear (near : distance scaled den y = scaled) (isPreferred : preferred) :
      distance scaled den y < scaled + z * den ∨
        distance scaled den y = scaled + z * den ∧ preferred := by
    rcases Nat.lt_or_eq_of_le (Nat.le_add_right scaled (z * den)) with less | equal
    · exact Or.inl (Nat.lt_of_le_of_lt near.le less)
    · exact Or.inr ⟨near.trans equal, isPreferred⟩
  rcases zero with ⟨rfl, isPreferred⟩ | less | ⟨equal, isPreferred⟩
  · exact asNear atZero isPreferred
  · exact Or.inl (Nat.lt_of_lt_of_le less (Nat.le_add_right scaled _))
  · exact asNear equal isPreferred

/-- The distance of a quotient from `m * 2 ^ place` is that of the quotient in units of `place` from
`m`. -/
theorem distance_mul (scaled den place m : Nat) :
    distance scaled den ((m * 2 ^ place : Nat) : Int) = distance scaled (den * 2 ^ place) m := by
  rw [distance, distance]
  push_cast
  congr 1
  ring

/-- **`Number.roundDiv` is nearer to the quotient than any other natural**, or as near and even. -/
theorem nearer_roundDiv {num den k : Nat} (pos : 0 < den) (other : k ≠ roundDiv num den) :
    Nearer num den (roundDiv num den % 2 = 0) (roundDiv num den) k := by
  have whole := Nat.div_add_mod' num den
  have small := Nat.mod_lt num pos
  have above : (num / den + 1) * den = num / den * den + den := Nat.succ_mul _ _
  have apart {j l : Nat} (h : j < l) : j * den + den ≤ l * den := by
    rw [← Nat.succ_mul]
    exact Nat.mul_le_mul_right den h
  rw [Nearer, distance, distance, ← Int.natCast_mul, ← Int.natCast_mul]
  rw [roundDiv] at other ⊢
  rcases Nat.lt_trichotomy k (num / den) with below | rfl | beyond
  · have step := apart below
    split <;> omega
  · split at other
    · exact absurd rfl other
    · next up =>
      rw [if_neg up]
      omega
  · split at other
    · next down =>
      rw [if_pos down]
      have step := apart beyond
      omega
    · next up =>
      rw [if_neg up]
      have further : num / den + 1 < k := Nat.lt_of_le_of_ne beyond (Ne.symm other)
      have step := apart further
      omega

/-! ### Nearest patterns -/

/-- The nearest pattern, before it is cut off at infinity. -/
def uncutBits (num den : Nat) : Nat :=
  let place := (num * 2 ^ (1074 : Nat) / den).log2 - 52
  place * 2 ^ 52 + roundDiv (num * 2 ^ (1074 : Nat)) (den * 2 ^ place)

/-- **A quotient that is rounded at its place has 53 bits**, or one more where rounding carries. At
the least place it may have fewer, and at any other the quotient itself has 53 bits. -/
theorem roundDiv_place {scaled den place : Nat} (pos : 0 < den)
    (isPlace : (scaled / den).log2 - 52 = place) :
    roundDiv scaled (den * 2 ^ place) ≤ 2 ^ 53 ∧
      (place = 0 ∨ 2 ^ 52 ≤ roundDiv scaled (den * 2 ^ place) ∧
        2 ^ 52 * (den * 2 ^ place) ≤ scaled) := by
  have unit : 0 < den * 2 ^ place := Nat.mul_pos pos (Nat.two_pow_pos place)
  have isQuotient : scaled / (den * 2 ^ place) = scaled / den / 2 ^ place :=
    (Nat.div_div_eq_div_mul _ _ _).symm
  have most : scaled / (den * 2 ^ place) < 2 ^ 53 := by
    rw [isQuotient, Nat.div_lt_iff_lt_mul (Nat.two_pow_pos place), ← Nat.pow_add]
    by_cases zero : scaled / den = 0
    · rw [zero]
      exact Nat.two_pow_pos _
    · exact (Nat.log2_lt zero).1 (by omega)
  have rounded : roundDiv scaled (den * 2 ^ place) = scaled / (den * 2 ^ place) ∨
      roundDiv scaled (den * 2 ^ place) = scaled / (den * 2 ^ place) + 1 := by
    rw [roundDiv]
    split
    · exact Or.inl rfl
    · exact Or.inr rfl
  refine ⟨by omega, ?_⟩
  by_cases least : place = 0
  · exact Or.inl least
  · have lower : 2 ^ 52 ≤ scaled / (den * 2 ^ place) := by
      have zero : scaled / den ≠ 0 := by
        intro zero
        rw [zero] at isPlace
        exact least isPlace.symm
      rw [isQuotient, Nat.le_div_iff_mul_le (Nat.two_pow_pos place), ← Nat.pow_add,
        ← Nat.le_log2 zero]
      omega
    exact Or.inr ⟨by omega, (Nat.le_div_iff_mul_le unit).1 lower⟩

/-- **`uncutBits` is the nearest of all patterns to a quotient**, those beyond infinity included, or
as near as another and even. -/
theorem nearer_uncutBits {num den c : Nat} (pos : 0 < den) (other : c ≠ uncutBits num den) :
    Nearer (num * 2 ^ (1074 : Nat)) den (uncutBits num den % 2 = 0) (steps (uncutBits num den))
      (steps c) := by
  rw [uncutBits] at other ⊢
  generalize num * 2 ^ (1074 : Nat) = scaled at *
  generalize isPlace : (scaled / den).log2 - 52 = place at *
  obtain ⟨bound, leading⟩ := roundDiv_place pos isPlace
  have multiple {k : Nat} (h : k ≠ roundDiv scaled (den * 2 ^ place)) :=
    nearer_roundDiv (Nat.mul_pos pos (Nat.two_pow_pos place)) h
  generalize roundDiv scaled (den * 2 ^ place) = m at *
  have isSteps := steps_add bound (leading.imp_right And.left)
  have even : (place * 2 ^ 52 + m) % 2 = 0 ↔ m % 2 = 0 := by omega
  rw [Nearer, isSteps, even, distance_mul]
  rcases Nat.lt_or_ge (lastPlace c) place with lower | higher
  · -- the quotient is not below `2 ^ 52` at this place, and the steps of the pattern are
    refine Or.inl ?_
    obtain ⟨-, reached⟩ := leading.resolve_left (Nat.ne_of_gt (Nat.zero_lt_of_lt lower))
    have nearEnough : distance scaled (den * 2 ^ place) m ≤
        distance scaled (den * 2 ^ place) (2 ^ 52 : Nat) := by
      by_cases same : 2 ^ 52 = m
      · rw [same]
      · rcases multiple same with less | ⟨equal, -⟩
        · exact Nat.le_of_lt less
        · exact Nat.le_of_eq equal
    refine Nat.lt_of_le_of_lt nearEnough ?_
    rw [← distance_mul]
    refine distance_lt_of_lt pos (steps_lt_of_lastPlace_lt lower) ?_
    rwa [Nat.mul_assoc, Nat.mul_comm (2 ^ place)]
  · obtain ⟨k, isMultiple⟩ := exists_steps_eq_mul higher
    rw [isMultiple, distance_mul]
    refine multiple fun same => other (steps_strictMono.injective ?_)
    rw [isMultiple, isSteps, same]

/-- **`Number.nearestBits` is the nearest to a quotient of the patterns up to that of infinity**, or
as near as another and even. -/
theorem nearer_nearestBits {num den c : Nat} (pos : 0 < den) (bound : c ≤ infinityBits)
    (other : c ≠ nearestBits num den) :
    Nearer (num * 2 ^ (1074 : Nat)) den (nearestBits num den % 2 = 0) (steps (nearestBits num den))
      (steps c) := by
  have cut : nearestBits num den = min (uncutBits num den) infinityBits := rfl
  rw [cut] at other ⊢
  rcases Nat.le_total (uncutBits num den) infinityBits with inside | beyond
  · rw [Nat.min_eq_left inside] at other ⊢
    exact nearer_uncutBits pos other
  · rw [Nat.min_eq_right beyond] at other ⊢
    rcases Nat.eq_or_lt_of_le beyond with same | further
    · rw [same] at other ⊢
      exact nearer_uncutBits pos other
    · -- nearer to a pattern beyond infinity than to infinity, the quotient is not below that
      have least : Nearer (num * 2 ^ (1074 : Nat)) den _ _ (steps infinityBits) :=
        nearer_uncutBits pos (Nat.ne_of_lt further)
      exact Or.inl (distance_lt_of_lt pos (steps_strictMono (Nat.lt_of_le_of_ne bound other))
        (le_of_nearer pos (steps_strictMono further) least))

/-! ### Nearest doubles -/

/-- The value of a double, by its parts. Infinity counts as the power of two that comes next. -/
def value (x : Number) : ℚ :=
  match x.unpacked with
  | .finite s m e _ => s.apply m * 2 ^ e
  | .infinity s => s.apply 1 * 2 ^ (1024 : ℤ)
  | .zero _ => 0
  | .notANumber => 0

/-- The steps of a pattern, in units of `2 ^ -1074`, are its significand at its last place. -/
theorem steps_eq_zpow (b : Nat) :
    (steps b : ℚ) / 2 ^ 1074 = significand b * 2 ^ ((lastPlace b : ℤ) - 1074) := by
  have power (k : Nat) : ((2 ^ k : Nat) : ℚ) = 2 ^ (k : ℤ) := by
    rw [Nat.cast_pow, Nat.cast_ofNat, zpow_natCast]
  rw [steps, Nat.cast_mul, power, zpow_sub₀ (by decide), mul_div_assoc]
  rfl

/-- The pattern of infinity, read as if it were that of a finite number, stands for `2 ^ 1024`. -/
theorem significand_infinityBits :
    (significand infinityBits : ℚ) * 2 ^ ((lastPlace infinityBits : ℤ) - 1074) =
      2 ^ (1024 : ℤ) := by
  have isSignificand : significand infinityBits = 2 ^ 52 := by decide
  have isPlace : lastPlace infinityBits = 2046 := by decide
  have leading : ((2 ^ 52 : Nat) : ℚ) = 2 ^ (52 : ℤ) := by norm_num
  have exponents : (52 : ℤ) + ((2046 : Nat) - 1074) = 1024 := by decide
  rw [isSignificand, isPlace, leading, ← zpow_add₀ (by decide), exponents]

/-- **The `Number.value` of a double is that of the steps of its pattern**, with its sign. -/
theorem value_eq {x : Number} (defined : x.isNaN = false) :
    x.value = x.sign.apply (steps x.unsignedBits) / 2 ^ 1074 := by
  have factor (s : Sign) (n : Nat) : (s.apply n : ℚ) = s.apply 1 * n := by
    cases s <;> simp [Sign.apply]
  have parts := hasParts_unpacked x
  rw [value, factor, mul_div_assoc, steps_eq_zpow]
  generalize x.unpacked = u at parts
  cases parts with
  | notANumber beyond => exact absurd ((isNaN_iff x).2 beyond) (Bool.eq_false_iff.1 defined)
  | infinity infinite =>
      rw [infinite, significand_infinityBits]
  | zero isZero =>
      have none : significand 0 = 0 := rfl
      rw [isZero, none, Nat.cast_zero, zero_mul, mul_zero]
  | finite _ isSignificand isPlace =>
      simp only [isPlace, isSignificand]
      rw [factor, mul_assoc]

/-- Whether a double is the nearest to a value: every other is further away, or as far away where
this one has the even pattern. -/
structure IsNearest (v : ℚ) (x : Number) : Prop where
  defined : x.isNaN = false
  closest : ∀ y : Number, y.isNaN = false → y ≠ x →
    |v - x.value| < |v - y.value| ∨ |v - x.value| = |v - y.value| ∧ x.bits % 2 = 0

/-- The distance of a quotient from the value of a double is its `distance` from the steps of the
double's pattern, in units of the denominator and of the smallest step. -/
theorem abs_sub_value {num den : Nat} {x : Number} (pos : 0 < den) (defined : x.isNaN = false) :
    |(num : ℚ) / den - x.value| =
      distance (num * 2 ^ (1074 : Nat)) den (x.sign.apply (steps x.unsignedBits)) /
        (den * 2 ^ 1074) := by
  have denPos : (0 : ℚ) < den := Nat.cast_pos.2 pos
  have scalePos : (0 : ℚ) < 2 ^ 1074 := pow_pos (by decide) 1074
  have isScaled (k : Nat) : ((num * 2 ^ k : Nat) : ℚ) = num * 2 ^ k := by
    rw [Nat.cast_mul, Nat.cast_pow, Nat.cast_ofNat]
  rw [value_eq defined, distance, div_sub_div _ _ denPos.ne' scalePos.ne', abs_div,
    abs_of_pos (mul_pos denPos scalePos), ← isScaled 1074, mul_comm (den : ℚ)]
  generalize num * 2 ^ (1074 : Nat) = scaled
  rw [Nat.cast_natAbs, Int.cast_abs, Int.cast_sub, Int.cast_mul, Int.cast_natCast, Int.cast_natCast]

/-- The double `Number.nearest` is nearer to its quotient than every other double, those with their
sign bit set included, or as near and of an even pattern. -/
theorem nearer_nearest {num den : Nat} {y : Number} (pos : 0 < den) (defined : y.isNaN = false)
    (other : y ≠ nearest num den) :
    Nearer (num * 2 ^ (1074 : Nat)) den (nearestBits num den % 2 = 0) (steps (nearestBits num den))
      (y.sign.apply (steps y.unsignedBits)) := by
  have bound := unsignedBits_le defined
  rw [sign]
  split
  · next negative =>
    refine Nearer.neg ?_ _
    by_cases zero : nearestBits num den = 0
    · rw [zero]
      exact Or.inl ⟨rfl, rfl⟩
    · exact Or.inr (nearer_nearestBits pos (Nat.zero_le _) (Ne.symm zero))
  · next positive =>
    refine nearer_nearestBits pos bound fun same => other ?_
    rw [← ofPattern_unsignedBits (Bool.eq_false_iff.2 positive), same, nearest]

/-- **`Number.nearest num den` is the nearest double to `num / den`**, of two the even one. -/
theorem isNearest_nearest (num : Nat) {den : Nat} (pos : 0 < den) :
    IsNearest ((num : ℚ) / den) (nearest num den) := by
  have bound := nearestBits_le num den
  have isSign : (nearest num den).sign = .positive := by
    rw [sign, nearest, isNegative_ofPattern bound]
    rfl
  have isPattern : (nearest num den).unsignedBits = nearestBits num den :=
    unsignedBits_ofPattern bound
  have isDefined : (nearest num den).isNaN = false := isNaN_ofPattern bound
  refine ⟨isDefined, fun y defined other => ?_⟩
  have nearer := nearer_nearest pos defined other
  rw [abs_sub_value pos isDefined, abs_sub_value pos defined, isSign, isPattern, nearest,
    bits_ofPattern bound]
  have unit : (0 : ℚ) < den * 2 ^ 1074 :=
    mul_pos (Nat.cast_pos.2 pos) (pow_pos (by decide) 1074)
  rw [div_lt_div_iff_of_pos_right unit, div_left_inj' unit.ne', Nat.cast_lt, Nat.cast_inj]
  exact nearer

end SmallScheme.Number

namespace SmallScheme.Decimal

/-- The value of a decimal as a rational. -/
def value (d : Decimal) : ℚ :=
  d.digits / 10 ^ d.places

/-- **`Decimal.toNumber` is correctly rounded**: it is the double nearest to the decimal's value. -/
theorem isNearest_toNumber (d : Decimal) : Number.IsNearest d.value d.toNumber := by
  have unit : 0 < 10 ^ d.places := Nat.pow_pos (by decide)
  have nearest := Number.isNearest_nearest d.digits unit
  rw [Nat.cast_pow, Nat.cast_ofNat] at nearest
  exact nearest

end SmallScheme.Decimal
