import Mathlib.Tactic.Ring
import SmallScheme.Form
import SmallScheme.Proofs.Number.Pattern
import SmallScheme.Proofs.Text

/-!
# Numbers read back from their text

A number that is no not-a-number and has a clear sign bit is written, in source form, as a
run of digits with at most one point, and that run is read as the same number. The digits of
a finite number are those of its shortest decimal. They read back because the search for it
keeps a decimal only if it does, and starts from the exact one; that trailing zeros are
dropped afterwards leaves the quotient as it was.

In the other direction, whatever run of digits and points a literal is, the number that it
stands for is of this kind.

## Main results

* `Decimal.ofText?_eq_some_iff`: which texts are read, and as which decimals.
* `Decimal.denotes_ofLiteral`: what is read from a literal is what the literal denotes.
* `Decimal.ofLiteral_chars`: reading the text of a decimal gives the decimal.
* `Decimal.nearestBits_shortest`: the shortest decimal of a pattern rounds to the pattern.
* `Form.ofLiteral_numberText`: the source text of a number is read as that number.
* `Number.isNaN_ofLiteral`, `Number.isNegative_ofLiteral`: what a literal never stands for.
-/

namespace SmallScheme

namespace Decimal

/-! ### The text of a literal -/

/-- There is no point among digits. -/
theorem point_notMem {digits : List Char} (h : ∀ c ∈ digits, c.isDigit = true) : '.' ∉ digits :=
  fun member => Bool.noConfusion (h _ member)

/-- `Decimal.upToSecondPoint` keeps all of a run without points. -/
theorem upToSecondPoint_of_notMem {run : List Char} (none : '.' ∉ run) :
    upToSecondPoint run = run := by
  obtain ⟨taken, dropped⟩ := Text.takeWhile_append_eq (p := (· ≠ '.')) run []
    (fun c member => decide_eq_true fun point => none (point ▸ member)) (by simp)
  rw [List.append_nil] at taken dropped
  simp only [upToSecondPoint, taken, dropped, List.take_nil, List.drop_nil, List.takeWhile_nil,
    List.append_nil]

/-- `Decimal.upToSecondPoint` keeps what stands before the first point of a run, the point, and what
stands behind it before the next one. -/
theorem upToSecondPoint_append {whole fraction rest : List Char} (first : '.' ∉ whole)
    (second : '.' ∉ fraction) (stop : ∀ c ∈ rest.head?, c = '.') :
    upToSecondPoint (whole ++ '.' :: (fraction ++ rest)) = whole ++ '.' :: fraction := by
  have other {cs : List Char} (noPoint : '.' ∉ cs) : ∀ c ∈ cs, decide (c ≠ '.') = true :=
    fun c member => decide_eq_true fun point => noPoint (point ▸ member)
  obtain ⟨taken, dropped⟩ := Text.takeWhile_append_eq (p := (· ≠ '.')) whole
    ('.' :: (fraction ++ rest)) (other first) (by simp)
  obtain ⟨fractionTaken, -⟩ := Text.takeWhile_append_eq (p := (· ≠ '.')) fraction rest
    (other second) fun c isHead => by simp [stop c isHead]
  simp only [upToSecondPoint, taken, dropped, List.take_succ_cons, List.take_zero,
    List.drop_succ_cons, List.drop_zero, fractionTaken]
  rfl

/-- The positional texts of decimals: digits, with or without a point among them. -/
inductive IsText : List Char → Decimal → Prop
  | whole {digits : List Char} :
      (∀ c ∈ digits, c.isDigit = true) → digits ≠ [] →
      IsText digits ⟨Nat.ofDigitChars 10 digits 0, 0⟩
  | point {whole fraction : List Char} :
      (∀ c ∈ whole, c.isDigit = true) → (∀ c ∈ fraction, c.isDigit = true) →
      whole ++ fraction ≠ [] →
      IsText (whole ++ '.' :: fraction)
        ⟨Nat.ofDigitChars 10 (whole ++ fraction) 0, fraction.length⟩

/-- `Decimal.ofText?` reads digits that are followed by nothing, or by a point and further digits,
if there is any digit among them. -/
theorem ofText?_append {whole behind : List Char} (digits : ∀ c ∈ whole, c.isDigit = true)
    (point : ∀ c ∈ behind.head?, c = '.') (places : ∀ c ∈ behind.drop 1, c.isDigit = true) :
    ofText? (whole ++ behind) =
      if whole ++ behind.drop 1 ≠ [] then
        some ⟨Nat.ofDigitChars 10 (whole ++ behind.drop 1) 0, (behind.drop 1).length⟩
      else none := by
  obtain ⟨taken, dropped⟩ := Text.takeWhile_append_eq whole behind digits fun c isHead => by
    rw [point c isHead]
    rfl
  have isPoint : behind.head?.all (· = '.') = true := by
    simpa [Option.all_eq_true] using point
  have areDigits : (behind.drop 1).all Char.isDigit = true := List.all_eq_true.2 places
  simp only [ofText?, taken, dropped, isPoint, areDigits, true_and]

/-- **`Decimal.ofText?` reads a text as a decimal exactly when the text is one of that decimal.** -/
theorem ofText?_eq_some_iff {text : List Char} {d : Decimal} :
    ofText? text = some d ↔ IsText text d := by
  constructor
  · intro read
    rw [ofText?] at read
    split at read
    · next shape =>
      obtain ⟨isPoint, areDigits, nonempty⟩ := shape
      cases read
      have digits : ∀ c ∈ text.takeWhile Char.isDigit, c.isDigit = true :=
        fun c member => List.mem_takeWhile_imp member
      have split : text.takeWhile Char.isDigit ++ text.dropWhile Char.isDigit = text :=
        List.takeWhile_append_dropWhile
      generalize text.takeWhile Char.isDigit = whole at *
      generalize text.dropWhile Char.isDigit = behind at *
      subst split
      cases behind with
      | nil =>
          rw [List.drop_nil, List.append_nil] at *
          exact .whole digits nonempty
      | cons c fraction =>
          obtain rfl : c = '.' := by simpa using isPoint
          exact .point digits (List.all_eq_true.1 areDigits) nonempty
    · cases read
  · intro isText
    cases isText with
    | whole digits nonempty =>
        have read : ofText? (text ++ []) = _ := ofText?_append digits (by simp) (by simp)
        rw [List.drop_nil, List.append_nil, if_pos nonempty] at read
        exact read
    | @point whole fraction digits places nonempty =>
        have read : ofText? (whole ++ '.' :: fraction) = _ :=
          ofText?_append digits (by simp) places
        rw [List.drop_succ_cons, List.drop_zero, if_pos nonempty] at read
        exact read

/-! ### What a literal denotes -/

/-- The decimal that a run of digits and points denotes: what stands before the second point
counts, or all of it if there is none. -/
inductive Denotes : List Char → Decimal → Prop
  | whole {digits : List Char} :
      (∀ c ∈ digits, c.isDigit = true) →
      Denotes digits ⟨Nat.ofDigitChars 10 digits 0, 0⟩
  | point {whole fraction rest : List Char} :
      (∀ c ∈ whole, c.isDigit = true) → (∀ c ∈ fraction, c.isDigit = true) →
      (∀ c ∈ rest.head?, c = '.') →
      Denotes (whole ++ '.' :: (fraction ++ rest))
        ⟨Nat.ofDigitChars 10 (whole ++ fraction) 0, fraction.length⟩

/-- `Decimal.ofLiteral` reads a run as the decimal whose text stands before its second point. -/
theorem ofLiteral_of_isText {run : List Char} {d : Decimal} (h : IsText (upToSecondPoint run) d) :
    ofLiteral run = d := by
  rw [ofLiteral, ofText?_eq_some_iff.2 h, Option.getD_some]

/-- A run that `Denotes` a decimal is read as that decimal by `Decimal.ofLiteral`. -/
theorem Denotes.ofLiteral_eq {run : List Char} {d : Decimal} (h : Denotes run d) :
    ofLiteral run = d := by
  cases h with
  | whole digits =>
      by_cases empty : run = []
      · subst empty
        rfl
      · refine ofLiteral_of_isText ?_
        rw [upToSecondPoint_of_notMem (point_notMem digits)]
        exact .whole digits empty
  | @point whole fraction rest digits places stop =>
      have counted := upToSecondPoint_append (point_notMem digits) (point_notMem places) stop
      by_cases empty : whole ++ fraction = []
      · obtain ⟨rfl, rfl⟩ := List.append_eq_nil_iff.1 empty
        rw [ofLiteral, counted]
        rfl
      · refine ofLiteral_of_isText ?_
        rw [counted]
        exact .point digits places empty

/-- Every run of digits and points `Denotes` some decimal. -/
theorem exists_denotes {run : List Char} (run_chars : ∀ c ∈ run, c.isDigit = true ∨ c = '.') :
    ∃ d, Denotes run d := by
  have digits : ∀ c ∈ run.takeWhile Char.isDigit, c.isDigit = true :=
    fun c hc => List.mem_takeWhile_imp hc
  have stop : ∀ c ∈ (run.dropWhile Char.isDigit).head?, c = '.' := by
    intro c hc
    have member := (List.dropWhile_sublist Char.isDigit).mem (List.mem_of_head? hc)
    exact (run_chars c member).resolve_left (by simp [Text.eq_false_of_mem_head?_dropWhile c hc])
  have split : run.takeWhile Char.isDigit ++ run.dropWhile Char.isDigit = run :=
    List.takeWhile_append_dropWhile
  generalize run.takeWhile Char.isDigit = whole at *
  cases behind : run.dropWhile Char.isDigit with
  | nil =>
      rw [behind, List.append_nil] at split
      subst split
      exact ⟨_, .whole digits⟩
  | cons c cs =>
      rw [behind] at split stop
      subst split
      obtain rfl : c = '.' := stop c rfl
      have places : ∀ d ∈ cs.takeWhile Char.isDigit, d.isDigit = true :=
        fun d hd => List.mem_takeWhile_imp hd
      have last : ∀ d ∈ (cs.dropWhile Char.isDigit).head?, d = '.' := by
        intro d hd
        have member := (List.dropWhile_sublist Char.isDigit).mem (List.mem_of_head? hd)
        exact (run_chars d (by simp [member])).resolve_left
          (by simp [Text.eq_false_of_mem_head?_dropWhile d hd])
      have denotes := Denotes.point digits places last
      rw [List.takeWhile_append_dropWhile] at denotes
      exact ⟨_, denotes⟩

/-- Every run of digits and points `Denotes` what `Decimal.ofLiteral` reads from it. -/
theorem denotes_ofLiteral {run : List Char} (run_chars : ∀ c ∈ run, c.isDigit = true ∨ c = '.') :
    Denotes run (ofLiteral run) := by
  obtain ⟨d, denotes⟩ := exists_denotes run_chars
  rw [denotes.ofLiteral_eq]
  exact denotes

/-! ### The characters of a decimal -/

/-- The decimal digits of a natural are digit characters. -/
theorem isDigit_of_mem_toDigits {n : Nat} : ∀ c ∈ Nat.toDigits 10 n, c.isDigit = true :=
  fun _ member => Nat.isDigit_of_mem_toDigits (by decide) (by decide) member

/-- `Decimal.lastDigits` gives as many digits as it is asked for. -/
theorem length_lastDigits (count n : Nat) : (lastDigits count n).length = count := by
  induction count generalizing n with
  | zero => rfl
  | succ count ih => rw [lastDigits, List.length_append, ih, List.length_singleton]

/-- The digits that `Decimal.lastDigits` gives are digit characters. -/
theorem isDigit_of_mem_lastDigits {count n : Nat} {c : Char} (h : c ∈ lastDigits count n) :
    c.isDigit = true := by
  induction count generalizing n with
  | zero => exact absurd h List.not_mem_nil
  | succ count ih =>
      rw [lastDigits, List.mem_append, List.mem_singleton] at h
      obtain h | rfl := h
      · exact ih h
      · rw [Nat.isDigit_digitChar]
        exact decide_eq_true (Nat.mod_lt n (by decide))

/-- Reading `count` last digits of a natural behind other digits multiplies the value of these by
`10 ^ count` and adds the remainder of the natural. -/
theorem ofDigitChars_lastDigits (count n init : Nat) :
    Nat.ofDigitChars 10 (lastDigits count n) init = init * 10 ^ count + n % 10 ^ count := by
  induction count generalizing n with
  | zero => simp [lastDigits, Nat.mod_one]
  | succ count ih =>
      have digit : n % 10 < 10 := Nat.mod_lt n (by decide)
      have split : n % 10 ^ (count + 1) = n / 10 % 10 ^ count * 10 + n % 10 := by
        rw [Nat.pow_succ', Nat.mod_mul, Nat.mul_comm, Nat.add_comm]
      rw [lastDigits, Nat.ofDigitChars_append, ih,
        Nat.ofDigitChars_cons_digitChar_of_lt_ten digit, Nat.ofDigitChars_nil, split,
        Nat.pow_succ]
      ring

/-- The run `Decimal.chars` of a decimal `Denotes` that decimal, with all its places. -/
theorem denotes_chars (d : Decimal) : Denotes d.chars d := by
  obtain ⟨digits, places⟩ := d
  have whole : ∀ c ∈ Nat.toDigits 10 (digits / 10 ^ places), c.isDigit = true :=
    isDigit_of_mem_toDigits
  by_cases none : places = 0
  · subst none
    have denotes := Denotes.whole whole
    rw [Nat.ofDigitChars_ten_toDigits, Nat.pow_zero, Nat.div_one] at denotes
    rw [chars, if_pos rfl, List.append_nil, Nat.pow_zero, Nat.div_one]
    exact denotes
  · have fraction : ∀ c ∈ lastDigits places digits, c.isDigit = true :=
      fun c h => isDigit_of_mem_lastDigits h
    have denotes : Denotes (_ ++ '.' :: (lastDigits places digits ++ [])) _ :=
      .point whole fraction (by simp)
    rw [List.append_nil, Nat.ofDigitChars_append, Nat.ofDigitChars_ten_toDigits,
      ofDigitChars_lastDigits, length_lastDigits, Nat.div_add_mod'] at denotes
    rw [chars, if_neg none]
    exact denotes

/-- **`Decimal.ofLiteral` undoes `Decimal.chars`.** -/
theorem ofLiteral_chars (d : Decimal) : ofLiteral d.chars = d :=
  d.denotes_chars.ofLiteral_eq

/-- The text `Decimal.chars` of a decimal begins with a digit and goes on with digits and points. -/
theorem chars_run (d : Decimal) :
    ∃ c cs, d.chars = c :: cs ∧ c.isDigit = true ∧ ∀ x ∈ cs, x.isDigit = true ∨ x = '.' := by
  have whole : ∀ c ∈ Nat.toDigits 10 (d.digits / 10 ^ d.places), c.isDigit = true :=
    isDigit_of_mem_toDigits
  obtain ⟨c, cs, first⟩ := List.exists_cons_of_ne_nil
    (Nat.toDigits_ne_nil (n := d.digits / 10 ^ d.places) (b := 10))
  rw [first] at whole
  refine ⟨c, cs ++ _, by rw [chars, first, List.cons_append], whole c List.mem_cons_self, ?_⟩
  intro x hx
  obtain hx | hx := List.mem_append.1 hx
  · exact Or.inl (whole x (List.mem_cons_of_mem c hx))
  · split at hx
    · exact absurd hx List.not_mem_nil
    · obtain rfl | hx := List.mem_cons.1 hx
      · exact Or.inr rfl
      · exact Or.inl (isDigit_of_mem_lastDigits hx)

/-! ### The shortest decimal -/

/-- The exact decimal `Decimal.ofBits` of a pattern rounds to the pattern. -/
theorem nearestBits_ofBits {b : Nat} (h : b ≤ Number.infinityBits) :
    Number.nearestBits (ofBits b).digits (10 ^ (ofBits b).places) = b := by
  refine Number.nearestBits_of_exact (Nat.pow_pos (by decide)) h ?_
  rw [Number.steps, ofBits]
  generalize Number.significand b = m
  generalize Number.lastPlace b = k
  generalize 1074 = unit
  by_cases large : unit ≤ k
  · obtain ⟨j, rfl⟩ := Nat.exists_eq_add_of_le large
    rw [if_pos large, Nat.add_sub_cancel_left]
    ring
  · -- a place of `2 ^ -j` is `5 ^ j` in units of `10 ^ -j`
    rw [if_neg large]
    obtain ⟨j, rfl⟩ := Nat.exists_eq_add_of_le (Nat.le_of_not_le large)
    have ten : (10 : Nat) ^ j = 2 ^ j * 5 ^ j := by rw [← Nat.mul_pow]
    rw [Nat.add_sub_cancel_left, ten]
    ring

/-- `Decimal.dropMost` leaves a decimal that rounds to the same pattern as before. -/
theorem nearestBits_dropMost {b : Nat} {d : Decimal}
    (exact : Number.nearestBits d.digits (10 ^ d.places) = b) (count : Nat) :
    Number.nearestBits (dropMost b d count) (10 ^ d.places) = b := by
  induction count with
  | zero => exact exact
  | succ count ih =>
      rw [dropMost]
      cases found : dropDigits? b d (count + 1) with
      | none => exact ih
      | some c =>
          have reads := List.find?_some found
          exact of_decide_eq_true reads

/-- `Decimal.trim` does not change what a decimal rounds to. -/
theorem nearestBits_trim (digits places : Nat) :
    Number.nearestBits (trim digits places).digits (10 ^ (trim digits places).places) =
      Number.nearestBits digits (10 ^ places) := by
  induction places generalizing digits with
  | zero => rfl
  | succ places ih =>
      rw [trim]
      split
      · next zero =>
        have tenfold : digits = 10 * (digits / 10) := by omega
        rw [ih, Nat.pow_succ', ← Number.nearestBits_mul_left (by decide : 0 < 10), ← tenfold]
      · rfl

/-- **The decimal `Decimal.shortest` of a pattern rounds to the pattern.** -/
theorem nearestBits_shortest {b : Nat} (h : b ≤ Number.infinityBits) :
    Number.nearestBits (shortest b).digits (10 ^ (shortest b).places) = b := by
  rw [shortest, nearestBits_trim]
  exact nearestBits_dropMost (nearestBits_ofBits h) _

end Decimal

/-! ### Numbers in source form -/

namespace Number

/-- The number of a literal is never not-a-number. -/
theorem isNaN_ofLiteral (run : List Char) : (ofLiteral run).isNaN = false :=
  isNaN_ofPattern (nearestBits_le _ _)

/-- The number of a literal has a clear sign bit. -/
theorem isNegative_ofLiteral (run : List Char) : (ofLiteral run).isNegative = false :=
  isNegative_ofPattern (nearestBits_le _ _)

/-- The text of a finite number with a clear sign bit is that of its `Decimal.shortest`. -/
theorem toList_text {x : Number} (defined : x.isNaN = false) (positive : x.isNegative = false)
    (finite : ¬ x.isInf = true) :
    x.text.toList = (Decimal.shortest x.unsignedBits).chars := by
  rw [text, if_neg (Bool.eq_false_iff.1 defined), if_neg (Bool.eq_false_iff.1 positive),
    if_neg finite, String.empty_append, String.toList_ofList]

end Number

namespace Form

/-- The digits that stand for infinity. -/
def infinityDigits : List Char :=
  '1' :: List.replicate 309 '0'

/-- The digits that `numberText` writes for infinity are read as infinity. -/
theorem ofLiteral_infinityDigits :
    Number.ofLiteral infinityDigits = Number.ofPattern Number.infinityBits := by
  have read : Decimal.ofLiteral infinityDigits = ⟨10 ^ 309, 0⟩ := by decide +kernel
  have large : Number.nearestBits (10 ^ 309) (10 ^ 0) = Number.infinityBits := by decide +kernel
  rw [Number.ofLiteral, read, Decimal.toNumber, Number.nearest, large]

/-- **`Number.ofLiteral` undoes `numberText`** for every number other than not-a-number whose sign
bit is clear. -/
theorem ofLiteral_numberText {x : Number} (defined : x.isNaN = false)
    (positive : x.isNegative = false) : Number.ofLiteral (numberText x).toList = x := by
  have same := Number.ofPattern_unsignedBits positive
  rw [numberText]
  split
  · next infinite =>
    rw [Number.isInf_iff] at infinite
    rw [String.toList_ofList, ← same, infinite]
    exact ofLiteral_infinityDigits
  · next finite =>
    rw [Number.toList_text defined positive finite, Number.ofLiteral, Decimal.ofLiteral_chars,
      Decimal.toNumber, Number.nearest,
      Decimal.nearestBits_shortest (Number.unsignedBits_le defined), same]

/-- The source text of a number other than not-a-number whose sign bit is clear begins with a digit
and goes on with digits and points. -/
theorem numberText_run {x : Number} (defined : x.isNaN = false)
    (positive : x.isNegative = false) :
    ∃ c cs, (numberText x).toList = c :: cs ∧ c.isDigit = true ∧
      ∀ y ∈ cs, y.isDigit = true ∨ y = '.' := by
  rw [numberText]
  split
  · refine ⟨'1', List.replicate 309 '0', String.toList_ofList, rfl, fun y hy => Or.inl ?_⟩
    rw [List.eq_of_mem_replicate hy]
    rfl
  · next finite =>
    rw [Number.toList_text defined positive finite]
    exact Decimal.chars_run _

end Form

end SmallScheme
