/-!
# Numbers

Numbers of the language are IEEE 754 doubles. This module reads the bit pattern of a
double as an exact count of smallest steps (`Number.steps`, in units of `2 ^ -1074`) and
goes back from an exact quotient of naturals to the pattern nearest to it
(`Number.nearestBits`), a tie going to the even pattern.

Patterns with a clear sign bit are ordered as the numbers they stand for, from `0` at
pattern `0` to infinity at `Number.infinityBits`. A pattern is its exponent field and its
fraction field side by side, so a significand that rounds up past its largest value
carries into the exponent by itself, and a result beyond the largest finite double is cut
off at infinity.

A decimal is a natural over a power of ten. Finite doubles are decimals
(`Decimal.ofBits`), a literal of the language denotes one (`Decimal.ofLiteral`), and
every decimal has one plain positional text without an exponent and without idle zeros
after the point (`Decimal.chars`). The shortest decimal of a double is found from its exact
one: ever fewer digits are dropped from the right, until one of the two neighbours that are
left reads back as the same double. Not dropping any always succeeds, so the search is
bounded by the exact decimal itself.

## Main definitions

* `Number.bits`: the pattern of a double as a natural.
* `Number.steps`: how many smallest steps a pattern without sign stands for.
* `Number.nearestBits`, `Number.nearest`: the rounded quotient, as a pattern and as a
  double.
* `Decimal.toNumber`: the double nearest to a decimal.
* `Decimal.ofBits`, `Decimal.shortest`: the exact and the shortest decimal of a double.
* `Decimal.ofText?`, `Decimal.ofLiteral`, `Decimal.chars`: reading and writing.
-/

namespace SmallScheme

-- Powers are those of `Nat` itself here, whatever algebra is imported beside this module. For the
-- same reason an exponent that is a literal says that it is a natural.
attribute [local instance (20000)] instPowNat

/-- A number of the language: an IEEE 754 double, with one not-a-number. -/
abbrev Number := Float

namespace Number

/-- The bit pattern of a double, as a natural below `2 ^ 64`. -/
def bits (x : Number) : Nat :=
  x.toBits.toNat

/-- The pattern of positive infinity: all exponent bits set and nothing else. -/
def infinityBits : Nat :=
  2047 * 2 ^ (52 : Nat)

/-- The double with a given pattern. -/
def ofPattern (b : Nat) : Number :=
  Float.ofBits (UInt64.ofNat b)

/-- Whether the sign bit is set; it is set on `-0` and clear on the not-a-number. -/
def isNegative (x : Number) : Bool :=
  2 ^ (63 : Nat) ≤ x.bits

/-- The pattern with its sign bit cleared. -/
def unsignedBits (x : Number) : Nat :=
  x.bits % 2 ^ (63 : Nat)

/-- The place of the last bit of a pattern's significand, counted from `2 ^ -1074`.
Patterns below `2 ^ 53` share place `0`: these are the subnormal doubles and the smallest
normal ones. -/
def lastPlace (b : Nat) : Nat :=
  b / 2 ^ (52 : Nat) - 1

/-- The significand of a pattern. Above the subnormals it has its leading bit back, which
the pattern leaves implicit. -/
def significand (b : Nat) : Nat :=
  b - lastPlace b * 2 ^ (52 : Nat)

/-- The magnitude of a finite pattern in units of `2 ^ -1074`, the smallest positive
double. -/
def steps (b : Nat) : Nat :=
  significand b * 2 ^ lastPlace b

/-- The quotient rounded to the nearest natural, a tie going to the even one. -/
def roundDiv (num den : Nat) : Nat :=
  let q := num / den
  let r := num % den
  if 2 * r < den ∨ (2 * r = den ∧ q % 2 = 0) then q else q + 1

/-- The pattern nearest to `num / den`, a tie going to the even pattern. The significand
keeps 53 bits where the quotient has that many above `2 ^ -1074`. -/
def nearestBits (num den : Nat) : Nat :=
  let scaled := num * 2 ^ (1074 : Nat)
  let place := (scaled / den).log2 - 52
  min (place * 2 ^ (52 : Nat) + roundDiv scaled (den * 2 ^ place)) infinityBits

/-- The double nearest to `num / den`. -/
def nearest (num den : Nat) : Number :=
  ofPattern (nearestBits num den)

end Number

/-! ### Decimals -/

/-- The number `digits / 10 ^ places`. -/
structure Decimal where
  digits : Nat
  places : Nat
deriving DecidableEq, Repr

namespace Decimal

/-- The double nearest to a decimal. -/
def toNumber (d : Decimal) : Number :=
  Number.nearest d.digits (10 ^ d.places)

/-! ### From doubles -/

/-- The exact decimal of a finite pattern without sign: halving a decimal appends a digit,
so a last place of `-k` binary places takes `k` decimal ones. -/
def ofBits (b : Nat) : Decimal :=
  let place := Number.lastPlace b
  if 1074 ≤ place then
    ⟨Number.significand b * 2 ^ (place - 1074), 0⟩
  else
    ⟨Number.significand b * 5 ^ (1074 - place), 1074 - place⟩

/-- Drops `count` digits of a decimal that is pattern `b` exactly: of the two multiples of
`10 ^ count` around its digits, the nearest that still reads as `b`. The upper one is
tried first where both are equally near. -/
def dropDigits? (b : Nat) (d : Decimal) (count : Nat) : Option Nat :=
  let unit := 10 ^ count
  let below := d.digits / unit * unit
  let above := below + unit
  let candidates := if 2 * (d.digits - below) < unit then [below, above] else [above, below]
  candidates.find? fun c => Number.nearestBits c (10 ^ d.places) = b

/-- The digits that are left after dropping as many as possible, at most `count`. -/
def dropMost (b : Nat) (d : Decimal) : Nat → Nat
  | 0 => d.digits
  | count + 1 => (dropDigits? b d (count + 1)).getD (dropMost b d count)

/-- Removes zeros at the end of the places after the point. -/
def trim : (digits places : Nat) → Decimal
  | digits, 0 => ⟨digits, 0⟩
  | digits, places + 1 =>
    if digits % 10 = 0 then trim (digits / 10) places else ⟨digits, places + 1⟩

/-- The shortest decimal that reads as a given finite pattern, and the nearest to it among
those. -/
def shortest (b : Nat) : Decimal :=
  let exact := ofBits b
  let length := (Nat.toDigits 10 exact.digits).length
  trim (dropMost b exact (length - 1)) exact.places

/-! ### Text -/

/-- The last `count` decimal digits of a natural, zeros on the left included. -/
def lastDigits : (count n : Nat) → List Char
  | 0, _ => []
  | count + 1, n => lastDigits count (n / 10) ++ [(n % 10).digitChar]

/-- The characters of a decimal: the digits before the point, then the point and one digit
for each place, if there is any. -/
def chars (d : Decimal) : List Char :=
  Nat.toDigits 10 (d.digits / 10 ^ d.places) ++
    if d.places = 0 then [] else '.' :: lastDigits d.places d.digits

/-! ### Literals -/

/-- The part of a run before its second point, all of it where there are fewer than two. -/
def upToSecondPoint (run : List Char) : List Char :=
  let behind := run.dropWhile (· ≠ '.')
  run.takeWhile (· ≠ '.') ++ (behind.take 1 ++ (behind.drop 1).takeWhile (· ≠ '.'))

/-- The decimal of a positional text: digits with a point among them or at an end, or without
one, but not a point alone. Signs and exponents, which no literal has, are not read. -/
def ofText? (text : List Char) : Option Decimal :=
  let whole := text.takeWhile Char.isDigit
  let behind := text.dropWhile Char.isDigit
  let fraction := behind.drop 1
  if behind.head?.all (· = '.') ∧ fraction.all Char.isDigit ∧ whole ++ fraction ≠ [] then
    some ⟨Nat.ofDigitChars 10 (whole ++ fraction) 0, fraction.length⟩
  else none

/-- The decimal that a run of digits and points denotes: that of the text before the second
point, and zero should that be none. -/
def ofLiteral (run : List Char) : Decimal :=
  (ofText? (upToSecondPoint run)).getD ⟨0, 0⟩

end Decimal

/-! ### The text of a number -/

namespace Number

/-- The shortest digits of a number, never with an exponent. -/
def text (x : Number) : String :=
  if x.isNaN then "NaN"
  else
    (if x.isNegative then "-" else "") ++
      if x.isInf then "inf" else String.ofList (Decimal.shortest x.unsignedBits).chars

/-- The number that a run of digits and points in a source stands for. -/
def ofLiteral (run : List Char) : Number :=
  (Decimal.ofLiteral run).toNumber

end Number

end SmallScheme
