import SmallScheme.Procedure.Apply
import SmallScheme.Proofs.Form.Equality
import SmallScheme.Proofs.Value.Parts

/-!
# Equal values

Values are compared by their content, as forms are (`Value.Equals`), and a form among the values is
equal to forms alone. This equality, which programs ask for with `=`, is symmetric and transitive. A
value differs from itself only if it holds not-a-number, be it as an item of a list at any depth or
inside a form.

## Main results

* `Value.beq_iff_equals`: what `==` on values says.
* `Value.beq_self_iff`: which values are equal to themselves.
-/

namespace SmallScheme.Value

variable {u v w : Value} {items : List Value}

/-! ### What equality says -/

/-- Whether two values are alike, with numbers and forms that are equal in the same places. -/
inductive Equals : Value → Value → Prop
  | number {x y : Number} : (x == y) = true → Equals (number x) (number y)
  | string {s : String} : Equals (string s) (string s)
  | boolean {b : Bool} : Equals (boolean b) (boolean b)
  | symbol {name : String} : Equals (symbol name) (symbol name)
  | list {xs ys : List Value} :
      List.Forall₂ (fun x y => (x == y) = true) xs ys → Equals (list xs) (list ys)
  | procedure {p : Procedure} : Equals (procedure p) (procedure p)
  | form {f g : Form} : (f == g) = true → Equals (form f) (form g)

/-- Lists of values are equal exactly when they are equal item by item. -/
theorem beqAll_iff {xs ys : List Value} :
    beqAll xs ys = true ↔ List.Forall₂ (fun x y => (x == y) = true) xs ys := by
  induction xs generalizing ys with
  | nil => cases ys <;> simp [beqAll]
  | cons x xs ih =>
      cases ys with
      | nil => simp [beqAll]
      | cons y ys =>
          rw [beqAll, Bool.and_eq_true, ih, List.forall₂_cons]
          rfl

/-- **Values are equal exactly when `Value.Equals` relates them**: they are alike and have equal
numbers and forms in the same places. -/
theorem beq_iff_equals : (v == w) = true ↔ v.Equals w := by
  constructor
  · intro same
    change beq v w = true at same
    cases v <;> cases w <;> simp only [beq, reduceCtorEq, beq_iff_eq, beqAll_iff] at same
    case number.number => exact .number same
    case string.string => subst same; exact .string
    case boolean.boolean => subst same; exact .boolean
    case symbol.symbol => subst same; exact .symbol
    case list.list => exact .list same
    case procedure.procedure => subst same; exact .procedure
    case form.form => exact .form same
  · intro equals
    change beq v w = true
    cases equals with
    | number same => rwa [beq]
    | string => simp [beq]
    | boolean => simp [beq]
    | symbol => simp [beq]
    | list each => rwa [beq, beqAll_iff]
    | procedure => simp [beq]
    | form same => rwa [beq]

/-- Equality of values is symmetric. -/
theorem beq_symm (same : (v == w) = true) : (w == v) = true := by
  induction v generalizing w with
  | number x =>
      cases beq_iff_equals.1 same with
      | number equal => exact beq_iff_equals.2 (.number (BEq.symm equal))
  | list xs ih =>
      cases beq_iff_equals.1 same with
      | list each =>
          exact beq_iff_equals.2 (.list (forall₂_symm (fun x member y => ih x member) each))
  | form f =>
      cases beq_iff_equals.1 same with
      | form equal => exact beq_iff_equals.2 (.form (BEq.symm equal))
  | string s => cases beq_iff_equals.1 same; exact same
  | boolean b => cases beq_iff_equals.1 same; exact same
  | symbol name => cases beq_iff_equals.1 same; exact same
  | procedure p => cases beq_iff_equals.1 same; exact same

/-- Equality of values is transitive. -/
theorem beq_trans (first : (u == v) = true) (next : (v == w) = true) : (u == w) = true := by
  induction u generalizing v w with
  | number x =>
      cases beq_iff_equals.1 first with
      | number equal =>
          cases beq_iff_equals.1 next with
          | number equal' => exact beq_iff_equals.2 (.number (BEq.trans equal equal'))
  | list xs ih =>
      cases beq_iff_equals.1 first with
      | list each =>
          cases beq_iff_equals.1 next with
          | list each' =>
              exact beq_iff_equals.2
                (.list (forall₂_trans (fun x member y z => ih x member) each each'))
  | form f =>
      cases beq_iff_equals.1 first with
      | form equal =>
          cases beq_iff_equals.1 next with
          | form equal' => exact beq_iff_equals.2 (.form (BEq.trans equal equal'))
  | string s => cases beq_iff_equals.1 first; exact next
  | boolean b => cases beq_iff_equals.1 first; exact next
  | symbol name => cases beq_iff_equals.1 first; exact next
  | procedure p => cases beq_iff_equals.1 first; exact next

instance : PartialEquivBEq Value where
  symm := beq_symm
  trans := beq_trans

/-! ### Equal to itself -/

/-- Whether not-a-number is a part of a value, or occurs in a form that is a part of it. -/
def HoldsNaN (value : Value) : Prop :=
  (∃ x : Number, x.isNaN = true ∧ (number x).PartOf value) ∨
    ∃ f : Form, f.HoldsNaN ∧ (form f).PartOf value

/-- A value that is no list holds not-a-number exactly when it is that, or a form that holds it. -/
theorem holdsNaN_iff_of_not_list (atom : ∀ items, v ≠ list items) :
    v.HoldsNaN ↔ (∃ x : Number, x.isNaN = true ∧ v = number x) ∨
      ∃ f : Form, f.HoldsNaN ∧ v = form f := by
  have only (part : Value) : part.PartOf v ↔ v = part := by
    constructor
    · intro isPart
      exact (isPart.eq_of_not_list atom).symm
    · rintro rfl
      exact .refl _
  simp only [HoldsNaN, only]

/-- A list holds not-a-number exactly when one of its items does. -/
theorem holdsNaN_list : (list items).HoldsNaN ↔ ∃ item ∈ items, item.HoldsNaN := by
  simp only [HoldsNaN, partOf_list_iff, reduceCtorEq, false_or]
  constructor
  · rintro (⟨x, isNaN, item, member, inside⟩ | ⟨f, holds, item, member, inside⟩)
    · exact ⟨item, member, Or.inl ⟨x, isNaN, inside⟩⟩
    · exact ⟨item, member, Or.inr ⟨f, holds, inside⟩⟩
  · rintro ⟨item, member, ⟨x, isNaN, inside⟩ | ⟨f, holds, inside⟩⟩
    · exact Or.inl ⟨x, isNaN, item, member, inside⟩
    · exact Or.inr ⟨f, holds, item, member, inside⟩

/-- **A value is equal to itself exactly when it does not hold not-a-number.** -/
theorem beq_self_iff : (v == v) = true ↔ ¬ v.HoldsNaN := by
  induction v with
  | number x =>
      rw [holdsNaN_iff_of_not_list (by simp)]
      change (x == x) = true ↔ _
      rw [Number.beq_self_iff]
      simp only [number.injEq, reduceCtorEq, and_false, exists_false, or_false, exists_eq_right']
  | list items ih =>
      rw [holdsNaN_list]
      change beqAll items items = true ↔ _
      rw [beqAll_iff, List.forall₂_same]
      push Not
      exact forall₂_congr ih
  | form f =>
      rw [holdsNaN_iff_of_not_list (by simp)]
      change (f == f) = true ↔ _
      rw [Form.beq_self_iff]
      simp only [form.injEq, reduceCtorEq, and_false, exists_false, false_or, exists_eq_right']
  | string s =>
      rw [holdsNaN_iff_of_not_list (by simp)]
      exact iff_of_true (beq_iff_equals.2 .string) (by simp)
  | boolean b =>
      rw [holdsNaN_iff_of_not_list (by simp)]
      exact iff_of_true (beq_iff_equals.2 .boolean) (by simp)
  | symbol name =>
      rw [holdsNaN_iff_of_not_list (by simp)]
      exact iff_of_true (beq_iff_equals.2 .symbol) (by simp)
  | procedure p =>
      rw [holdsNaN_iff_of_not_list (by simp)]
      exact iff_of_true (beq_iff_equals.2 .procedure) (by simp)

/-- A form is not equal to a value of any other kind. -/
theorem form_beq_eq_false {f : Form} (other : ∀ g, v ≠ form g) : (form f == v) = false := by
  rw [← Bool.not_eq_true, beq_iff_equals]
  rintro ⟨⟩
  exact other _ rfl

end SmallScheme.Value
