import Mathlib.Order.Compare
import SmallScheme.Proofs.Number.Order
import SmallScheme.Proofs.Text.Order
import SmallScheme.Proofs.Value.Equality

/-!
# Comparisons

The procedures `<`, `=` and `>` look at the same order. Two numbers other than not-a-number stand in
one of three relations to each other, which is the order of their ranks, and so do two strings,
which is the order of their code points and of their bytes. Each procedure asks for one of the three
relations, and so exactly one of them answers that it holds.

## Main results

* `Procedure.compare_cases`: what two values there are to be compared.
* `Procedure.related_of_comparable`: two values that can be compared stand in one relation.
* `Procedure.apply_comparison`: how the three procedures fit together, on all values.
-/

namespace SmallScheme.Procedure

variable {x y z : Value}

/-! ### What can be compared -/

/-- Two numbers, neither of which is not-a-number, or two strings. -/
inductive Comparable : Value → Value → Prop
  | numbers {a b : Number} : a.isNaN = false → b.isNaN = false → Comparable (.number a) (.number b)
  | strings {s t : String} : Comparable (.string s) (.string t)

/-- Two values are two numbers, or two strings, or `Procedure.compare` fails on them in either
order. -/
theorem compare_cases (x y : Value) :
    (∃ a b, x = .number a ∧ y = .number b) ∨ (∃ s t, x = .string s ∧ y = .string t) ∨
      ∀ (p : Procedure) (numbers : Number → Number → Bool) (strings : String → String → Bool),
        (∃ e, p.compare numbers strings x y = .error e) ∧
          ∃ e, p.compare numbers strings y x = .error e := by
  cases x with
  | number a =>
      cases y with
      | number b => exact Or.inl ⟨a, b, rfl, rfl⟩
      | _ => exact Or.inr (Or.inr fun p numbers strings => ⟨⟨_, rfl⟩, ⟨_, rfl⟩⟩)
  | string s =>
      cases y with
      | string t => exact Or.inr (Or.inl ⟨s, t, rfl, rfl⟩)
      | _ => exact Or.inr (Or.inr fun p numbers strings => ⟨⟨_, rfl⟩, ⟨_, rfl⟩⟩)
  | _ => cases y <;> exact Or.inr (Or.inr fun p numbers strings => ⟨⟨_, rfl⟩, ⟨_, rfl⟩⟩)

/-- **`<` is `>` with its arguments exchanged**, where they fail as well as where they answer. -/
theorem less_or_greater (x y : Value) :
    (∃ e e', less.apply [x, y] = .error e ∧ greater.apply [y, x] = .error e') ∨
      ∃ b, less.apply [x, y] = .ok (.boolean b) ∧ greater.apply [y, x] = .ok (.boolean b) := by
  rcases compare_cases x y with ⟨a, b, rfl, rfl⟩ | ⟨s, t, rfl, rfl⟩ | refused
  · exact Or.inr ⟨decide (a < b), rfl, rfl⟩
  · exact Or.inr ⟨decide (s < t), rfl, rfl⟩
  · obtain ⟨⟨e, fails⟩, -⟩ := refused less (· < ·) (· < ·)
    obtain ⟨-, e', fails'⟩ := refused greater (· > ·) (· > ·)
    exact Or.inl ⟨e, e', fails, fails'⟩

/-! ### Answers -/

/-- On two numbers, `<`, `=` and `>` answer by the order and the equality of doubles. -/
theorem apply_numbers (a b : Number) :
    less.apply [.number a, .number b] = .ok (.boolean (decide (a < b))) ∧
      equal.apply [.number a, .number b] = .ok (.boolean (a == b)) ∧
      greater.apply [.number a, .number b] = .ok (.boolean (decide (b < a))) := by
  have same : (Value.number a == .number b) = (a == b) := by
    change Value.beq (.number a) (.number b) = _
    rw [Value.beq]
  refine ⟨rfl, ?_, rfl⟩
  rw [← same]
  rfl

/-- On two strings, `<`, `=` and `>` answer by the order and the equality of texts. -/
theorem apply_strings (s t : String) :
    less.apply [.string s, .string t] = .ok (.boolean (decide (s < t))) ∧
      equal.apply [.string s, .string t] = .ok (.boolean (decide (s = t))) ∧
      greater.apply [.string s, .string t] = .ok (.boolean (decide (t < s))) := by
  have same : (Value.string s == .string t) = decide (s = t) := by
    change Value.beq (.string s) (.string t) = _
    rw [Value.beq]
    rfl
  refine ⟨rfl, ?_, rfl⟩
  rw [← same]
  rfl

/-- What the three procedures answer where the first argument stands in a relation to the second. -/
def Answers (x y : Value) (relation : Ordering) : Prop :=
  less.apply [x, y] = .ok (.boolean (relation == .lt)) ∧
    equal.apply [x, y] = .ok (.boolean (relation == .eq)) ∧
    greater.apply [x, y] = .ok (.boolean (relation == .gt))

/-- The three procedures `Answers` a relation if each of them holds exactly for its own relation. -/
theorem answers_of_iff {less? equal? greater? : Bool} {relation : Ordering}
    (isLess : less.apply [x, y] = .ok (.boolean less?))
    (isEqual : equal.apply [x, y] = .ok (.boolean equal?))
    (isGreater : greater.apply [x, y] = .ok (.boolean greater?))
    (asks : (less? = true ↔ relation = .lt) ∧ (equal? = true ↔ relation = .eq) ∧
      (greater? = true ↔ relation = .gt)) : Answers x y relation := by
  obtain ⟨lt, eq, gt⟩ := asks
  rw [Answers, isLess, isEqual, isGreater, Bool.eq_iff_iff.2 (lt.trans beq_iff_eq.symm),
    Bool.eq_iff_iff.2 (eq.trans beq_iff_eq.symm), Bool.eq_iff_iff.2 (gt.trans beq_iff_eq.symm)]
  exact ⟨rfl, rfl, rfl⟩

/-- **Two values that are `Comparable` stand in one relation, and the three procedures answer
it.** -/
theorem related_of_comparable (h : Comparable x y) : ∃ relation, Answers x y relation := by
  cases h with
  | @numbers a b defined defined' =>
      obtain ⟨isLess, isEqual, isGreater⟩ := apply_numbers a b
      refine ⟨cmp a.rank b.rank, answers_of_iff isLess isEqual isGreater ⟨?_, ?_, ?_⟩⟩
      · rw [decide_eq_true_iff, Number.lt_iff, cmp_eq_lt_iff]
        exact ⟨fun h => h.2.2, fun h => ⟨defined, defined', h⟩⟩
      · rw [Number.beq_iff, cmp_eq_eq_iff]
        exact ⟨fun h => h.2.2, fun h => ⟨defined, defined', h⟩⟩
      · rw [decide_eq_true_iff, Number.lt_iff, cmp_eq_gt_iff]
        exact ⟨fun h => h.2.2, fun h => ⟨defined', defined, h⟩⟩
  | @strings s t =>
      obtain ⟨isLess, isEqual, isGreater⟩ := apply_strings s t
      refine ⟨cmp s t, answers_of_iff isLess isEqual isGreater ⟨?_, ?_, ?_⟩⟩
      · rw [decide_eq_true_iff, cmp_eq_lt_iff]
      · rw [decide_eq_true_iff, cmp_eq_eq_iff]
      · rw [decide_eq_true_iff, cmp_eq_gt_iff]

/-- A property holds of `<`, `=` and `>` exactly when it holds of each of them. -/
theorem forall_comparison {motive : Procedure → Prop} :
    (∀ p ∈ [less, equal, greater], motive p) ↔ motive less ∧ motive equal ∧ motive greater := by
  simp

/-- None of the three procedures holds of two numbers if one of them is not-a-number. -/
theorem apply_isNaN {a b : Number} (undefined : a.isNaN = true ∨ b.isNaN = true) :
    ∀ p ∈ [less, equal, greater], p.apply [.number a, .number b] = .ok (.boolean false) := by
  have no {r : Prop} (h : a.isNaN = false ∧ b.isNaN = false ∧ r) : False := by
    rcases undefined with first | second
    · exact Bool.false_ne_true (h.1.symm.trans first)
    · exact Bool.false_ne_true (h.2.1.symm.trans second)
  obtain ⟨isLess, isEqual, isGreater⟩ := apply_numbers a b
  rw [decide_eq_false (fun h => no (Number.lt_iff.1 h))] at isLess
  rw [Bool.eq_false_iff.2 (fun h => no (Number.beq_iff.1 h))] at isEqual
  rw [decide_eq_false (fun h => no (and_left_comm.1 (Number.lt_iff.1 h)))] at isGreater
  exact forall_comparison.2 ⟨isLess, isEqual, isGreater⟩

/-- `<` holds exactly of two numbers in the order of doubles and of two strings in the order of
texts. -/
theorem less_iff :
    less.apply [x, y] = .ok (.boolean true) ↔
      (∃ a b, x = .number a ∧ y = .number b ∧ a < b) ∨
        ∃ s t, x = .string s ∧ y = .string t ∧ s < t := by
  constructor
  · intro holds
    rcases compare_cases x y with ⟨a, b, rfl, rfl⟩ | ⟨s, t, rfl, rfl⟩ | refused
    · rw [(apply_numbers a b).1, Except.ok.injEq, Value.boolean.injEq, decide_eq_true_iff] at holds
      exact Or.inl ⟨a, b, rfl, rfl, holds⟩
    · rw [(apply_strings s t).1, Except.ok.injEq, Value.boolean.injEq, decide_eq_true_iff] at holds
      exact Or.inr ⟨s, t, rfl, rfl, holds⟩
    · obtain ⟨⟨e, fails⟩, -⟩ := refused less (· < ·) (· < ·)
      exact absurd (fails.symm.trans holds) (by simp)
  · rintro (⟨a, b, rfl, rfl, h⟩ | ⟨s, t, rfl, rfl, h⟩)
    · rw [(apply_numbers a b).1, decide_eq_true h]
    · rw [(apply_strings s t).1, decide_eq_true h]

/-- `<` is transitive, on all values. -/
theorem less_trans (first : less.apply [x, y] = .ok (.boolean true))
    (next : less.apply [y, z] = .ok (.boolean true)) :
    less.apply [x, z] = .ok (.boolean true) := by
  rw [less_iff] at first next ⊢
  rcases first with ⟨a, b, rfl, rfl, h⟩ | ⟨s, t, rfl, rfl, h⟩
  · obtain ⟨b', c, same, rfl, h'⟩ | ⟨_, _, other, -⟩ := next
    · obtain rfl := Value.number.inj same
      obtain ⟨defined, -, less⟩ := Number.lt_iff.1 h
      obtain ⟨-, defined', less'⟩ := Number.lt_iff.1 h'
      exact Or.inl ⟨a, c, rfl, rfl, Number.lt_iff.2 ⟨defined, defined', less.trans less'⟩⟩
    · exact absurd other (by simp)
  · obtain ⟨_, _, other, -⟩ | ⟨t', u, same, rfl, h'⟩ := next
    · exact absurd other (by simp)
    · obtain rfl := Value.string.inj same
      exact Or.inr ⟨s, u, rfl, rfl, h.trans h'⟩

/-! ### All three -/

/-- **The comparisons `<`, `=` and `>` fit together.** `<` is `>` with its arguments exchanged, on
all values. Of two numbers other than not-a-number and of two strings, exactly one comparison holds;
none holds of numbers one of which is not-a-number. `<` is transitive, and it orders strings as
words, by code points, which is also the order of their bytes. -/
theorem apply_comparison :
    (∀ x y : Value,
      (∃ e e', less.apply [x, y] = .error e ∧ greater.apply [y, x] = .error e') ∨
        ∃ b, less.apply [x, y] = .ok (.boolean b) ∧ greater.apply [y, x] = .ok (.boolean b)) ∧
    (∀ x y : Value, Comparable x y →
      ∃ p ∈ [less, equal, greater], ∀ q ∈ [less, equal, greater],
        q.apply [x, y] = .ok (.boolean (decide (q = p)))) ∧
    (∀ a b : Number, a.isNaN = true ∨ b.isNaN = true →
      ∀ q ∈ [less, equal, greater], q.apply [.number a, .number b] = .ok (.boolean false)) ∧
    (∀ x y z : Value, less.apply [x, y] = .ok (.boolean true) →
      less.apply [y, z] = .ok (.boolean true) → less.apply [x, z] = .ok (.boolean true)) ∧
    ∀ s t : String,
      (less.apply [.string s, .string t] = .ok (.boolean true) ↔
        List.Lex (· < ·) (Text.codePoints s) (Text.codePoints t)) ∧
      (less.apply [.string s, .string t] = .ok (.boolean true) ↔
        List.Lex (· < ·) (Dialogue.encode s) (Dialogue.encode t)) := by
  refine ⟨less_or_greater, fun x y comparable => ?_, fun a b => apply_isNaN,
    fun x y z => less_trans, fun s t => ?_⟩
  · obtain ⟨relation, isLess, isEqual, isGreater⟩ := related_of_comparable comparable
    simp only [forall_comparison, isLess, isEqual, isGreater]
    cases relation with
    | lt => exact ⟨less, by simp, rfl, rfl, rfl⟩
    | eq => exact ⟨equal, by simp, rfl, rfl, rfl⟩
    | gt => exact ⟨greater, by simp, rfl, rfl, rfl⟩
  · have holds : less.apply [.string s, .string t] = .ok (.boolean true) ↔ s < t := by
      rw [(apply_strings s t).1, Except.ok.injEq, Value.boolean.injEq, decide_eq_true_iff]
    exact ⟨holds.trans Text.codePoints_lex_iff.symm, holds.trans Text.encode_lt_iff.symm⟩

/-- Both zeros are the same to all three comparisons, not-a-number is none of them to itself, and
`"é"` comes between `"e"` and a character beyond the first plane. -/
theorem apply_comparison_zeros_and_words :
    (∃ p ∈ [less, equal, greater], ∀ q ∈ [less, equal, greater],
      q.apply [.number 0, .number (-0)] = .ok (.boolean (decide (q = p)))) ∧
    (∀ q ∈ [less, equal, greater],
      q.apply [.number (0 / 0), .number (0 / 0)] = .ok (.boolean false)) ∧
    less.apply [.string "e", .string "𝄞"] = .ok (.boolean true) := by
  obtain ⟨-, exactlyOne, none, trans, -⟩ := apply_comparison
  exact ⟨exactlyOne _ _ (.numbers (by decide) (by decide)), none _ _ (Or.inl (by decide)),
    trans _ (.string "é") _ (less_iff.2 (Or.inr ⟨_, _, rfl, rfl, by decide⟩))
      (less_iff.2 (Or.inr ⟨_, _, rfl, rfl, by decide⟩))⟩

end SmallScheme.Procedure
