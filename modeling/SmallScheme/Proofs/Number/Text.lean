import SmallScheme.Proofs.Number.Literal

/-!
# Numbers known from their text

Numbers with different patterns have different texts. The text of a number begins with a minus sign
if its sign bit is set, and the rest tells not-a-number, infinity and finite numbers apart by the
first character. The digits of a finite number are those of a decimal that rounds to it, so no other
number has them.

## Main results

* `Number.magnitudeChars_injective`: a pattern without sign is known from its characters.
* `Number.text_injective`: a number is known from its text.
* `Number.lineFeed_notMem_text`: the text of a number has no line feed.
-/

namespace SmallScheme.Number

variable {x y : Number}

/-- There is a single not-a-number. -/
theorem eq_of_isNaN (undefined : x.isNaN = true) (undefined' : y.isNaN = true) : x = y := by
  rw [Float.isNaN_eq_decide_eq_nan, decide_eq_true_iff] at undefined undefined'
  exact undefined.trans undefined'.symm

/-- The characters of a pattern without sign. -/
def magnitudeChars (b : Nat) : List Char :=
  if b = infinityBits then ['i', 'n', 'f'] else (Decimal.shortest b).chars

/-- The characters of a pattern without sign are `inf` for the pattern of infinity, and else begin
with a digit and go on with digits and points. -/
theorem magnitudeChars_cases (b : Nat) :
    b = infinityBits ∧ magnitudeChars b = ['i', 'n', 'f'] ∨
      magnitudeChars b = (Decimal.shortest b).chars ∧
        ∃ c cs, magnitudeChars b = c :: cs ∧ c.isDigit = true ∧
          ∀ x ∈ cs, x.isDigit = true ∨ x = '.' := by
  rw [magnitudeChars]
  split
  · next infinite => exact Or.inl ⟨infinite, rfl⟩
  · exact Or.inr ⟨rfl, Decimal.chars_run _⟩

/-- **Patterns without sign that have the same `magnitudeChars` are equal**, up to that of
infinity. -/
theorem magnitudeChars_injective {b c : Nat} (bound : b ≤ infinityBits) (bound' : c ≤ infinityBits)
    (same : magnitudeChars b = magnitudeChars c) : b = c := by
  rcases magnitudeChars_cases b with ⟨infinite, word⟩ | ⟨digits, d, ds, first, digit, -⟩
  · rcases magnitudeChars_cases c with ⟨infinite', -⟩ | ⟨-, d, ds, first, digit, -⟩
    · exact infinite.trans infinite'.symm
    · obtain ⟨rfl, -⟩ := List.cons.inj (word.symm.trans (same.trans first))
      cases digit
  · rcases magnitudeChars_cases c with ⟨-, word⟩ | ⟨digits', -⟩
    · obtain ⟨rfl, -⟩ := List.cons.inj (first.symm.trans (same.trans word))
      cases digit
    · -- the same decimal, which rounds to both patterns
      have decimals : Decimal.shortest b = Decimal.shortest c := by
        rw [← Decimal.ofLiteral_chars (Decimal.shortest b), ← digits, same, digits',
          Decimal.ofLiteral_chars]
      rw [← Decimal.nearestBits_shortest bound, decimals, Decimal.nearestBits_shortest bound']

/-- The first of the `magnitudeChars` of a pattern is neither a minus sign nor the `N` of
not-a-number. -/
theorem head?_magnitudeChars (b : Nat) : ∀ c ∈ (magnitudeChars b).head?, c ≠ '-' ∧ c ≠ 'N' := by
  intro c isHead
  rcases magnitudeChars_cases b with ⟨-, word⟩ | ⟨-, d, ds, first, digit, -⟩
  · rw [word] at isHead
    cases isHead
    decide
  · rw [first] at isHead
    cases isHead
    constructor
    · rintro rfl
      cases digit
    · rintro rfl
      cases digit

/-- The text of a number other than not-a-number is the `magnitudeChars` of its pattern without
sign, behind a minus sign if the sign bit is set. -/
theorem toList_text_of_defined (defined : x.isNaN = false) :
    x.text.toList = (if x.isNegative then ['-'] else []) ++ magnitudeChars x.unsignedBits := by
  rw [text, if_neg (Bool.eq_false_iff.1 defined), String.toList_append]
  congr 1
  · split <;> rfl
  · rw [magnitudeChars]
    by_cases infinite : x.isInf = true
    · rw [if_pos infinite, if_pos ((isInf_iff x).1 infinite)]
      rfl
    · rw [if_neg infinite, if_neg (mt (isInf_iff x).2 infinite), String.toList_ofList]

/-- A number is not-a-number exactly when its text begins with `N`. -/
theorem isNaN_iff_head?_text : x.isNaN = true ↔ x.text.toList.head? = some 'N' := by
  constructor
  · intro undefined
    rw [text, if_pos undefined]
    rfl
  · intro isHead
    by_contra notNaN
    rw [toList_text_of_defined (Bool.eq_false_iff.2 notNaN)] at isHead
    split at isHead
    · cases isHead
    · exact (head?_magnitudeChars _ _ isHead).2 rfl

/-- The sign bit of a number other than not-a-number is set exactly when its text begins with a
minus sign. -/
theorem isNegative_iff_head?_text (defined : x.isNaN = false) :
    x.isNegative = true ↔ x.text.toList.head? = some '-' := by
  rw [toList_text_of_defined defined]
  constructor
  · intro negative
    rw [if_pos negative]
    rfl
  · intro isHead
    by_contra positive
    rw [if_neg positive] at isHead
    exact (head?_magnitudeChars _ _ isHead).1 rfl

/-- **Numbers with the same `Number.text` are equal**, also in their sign bit. -/
theorem text_injective (same : x.text = y.text) : x = y := by
  have kinds : x.isNaN = y.isNaN := by
    rw [Bool.eq_iff_iff, isNaN_iff_head?_text, same, ← isNaN_iff_head?_text]
  cases undefined : x.isNaN with
  | true => exact eq_of_isNaN undefined (kinds.symm.trans undefined)
  | false =>
      have undefined' := kinds.symm.trans undefined
      have signs : x.isNegative = y.isNegative := by
        rw [Bool.eq_iff_iff, isNegative_iff_head?_text undefined, same,
          ← isNegative_iff_head?_text undefined']
      have characters := congrArg String.toList same
      rw [toList_text_of_defined undefined, toList_text_of_defined undefined', signs,
        List.append_cancel_left_eq] at characters
      exact eq_of_unsignedBits signs (magnitudeChars_injective (unsignedBits_le undefined)
        (unsignedBits_le undefined') characters)

/-- The text of a number has no line feed. -/
theorem lineFeed_notMem_text (x : Number) : '\n' ∉ x.text.toList := by
  have magnitude (b : Nat) : '\n' ∉ magnitudeChars b := by
    rcases magnitudeChars_cases b with ⟨-, word⟩ | ⟨-, c, cs, first, digit, others⟩
    · rw [word]
      decide
    · rw [first, List.mem_cons, not_or]
      refine ⟨?_, fun member => ?_⟩
      · rintro rfl
        cases digit
      · rcases others _ member with digit | point
        · cases digit
        · cases point
  cases undefined : x.isNaN with
  | true =>
      rw [text, if_pos undefined]
      decide
  | false =>
      rw [toList_text_of_defined undefined, List.mem_append, not_or]
      refine ⟨?_, magnitude _⟩
      split
      · decide
      · exact List.not_mem_nil

end SmallScheme.Number
