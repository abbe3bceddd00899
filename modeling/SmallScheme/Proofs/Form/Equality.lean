import Mathlib.Data.List.Forall2
import SmallScheme.Proofs.Form.Readable

/-!
# Equal forms

Forms are compared by their content, constructor by constructor (`Form.Equals`). As on numbers, such
an equality is symmetric and transitive. A form differs from itself only if not-a-number occurs in
it, which is in no form that was read.

## Main results

* `Form.beq_iff_equals`: what `==` on forms says.
* `Form.beq_self_iff`: which forms are equal to themselves.
-/

namespace SmallScheme

/-! ### Item by item -/

section

variable {α : Type} {r : α → α → Prop} {xs ys zs : List α}

/-- A relation item by item is symmetric if it is on the items. -/
theorem forall₂_symm (symm : ∀ x ∈ xs, ∀ y, r x y → r y x) (h : List.Forall₂ r xs ys) :
    List.Forall₂ r ys xs :=
  (((List.forall₂_and_left xs ys).2 ⟨symm, h⟩).imp fun _ y both => both.1 y both.2).flip

/-- A relation item by item is transitive if it is on the items. -/
theorem forall₂_trans (trans : ∀ x ∈ xs, ∀ y z, r x y → r y z → r x z)
    (h : List.Forall₂ r xs ys) (h' : List.Forall₂ r ys zs) : List.Forall₂ r xs zs := by
  induction h generalizing zs with
  | nil => exact h'
  | cons first _ ih =>
      obtain ⟨head, tail⟩ := List.forall_mem_cons.1 trans
      cases h' with
      | cons next others => exact .cons (head _ _ first next) (ih tail others)

end

namespace Number

/-- A number is equal to itself unless it is not-a-number. -/
theorem beq_self_iff {x : Number} : (x == x) = true ↔ ¬ x.isNaN = true := by
  simp

end Number

namespace Form

variable {f g h inner : Form} {items : List Form}

/-! ### What equality says -/

/-- Whether two forms are alike, with numbers that are equal in the same places. -/
inductive Equals : Form → Form → Prop
  | number {x y : Number} : (x == y) = true → Equals (number x) (number y)
  | string {s : String} : Equals (string s) (string s)
  | boolean {b : Bool} : Equals (boolean b) (boolean b)
  | symbol {name : String} : Equals (symbol name) (symbol name)
  | list {xs ys : List Form} :
      List.Forall₂ (fun x y => (x == y) = true) xs ys → Equals (list xs) (list ys)
  | quote {x y : Form} : (x == y) = true → Equals (quote x) (quote y)

/-- Lists of forms are equal exactly when they are equal item by item. -/
theorem beqAll_iff {xs ys : List Form} :
    beqAll xs ys = true ↔ List.Forall₂ (fun x y => (x == y) = true) xs ys := by
  induction xs generalizing ys with
  | nil => cases ys <;> simp [beqAll]
  | cons x xs ih =>
      cases ys with
      | nil => simp [beqAll]
      | cons y ys =>
          rw [beqAll, Bool.and_eq_true, ih, List.forall₂_cons]
          rfl

/-- **Forms are equal exactly when `Form.Equals` relates them**: they are alike and have equal
numbers in the same places. -/
theorem beq_iff_equals : (f == g) = true ↔ f.Equals g := by
  constructor
  · intro same
    change beq f g = true at same
    cases f <;> cases g <;> simp only [beq, reduceCtorEq, beq_iff_eq, beqAll_iff] at same
    case number.number => exact .number same
    case string.string => subst same; exact .string
    case boolean.boolean => subst same; exact .boolean
    case symbol.symbol => subst same; exact .symbol
    case list.list => exact .list same
    case quote.quote => exact .quote same
  · intro equals
    change beq f g = true
    cases equals with
    | number same => rwa [beq]
    | string => simp [beq]
    | boolean => simp [beq]
    | symbol => simp [beq]
    | list each => rwa [beq, beqAll_iff]
    | quote same => rwa [beq]

/-- Equality of forms is symmetric. -/
theorem beq_symm (same : (f == g) = true) : (g == f) = true := by
  induction f generalizing g with
  | number x =>
      cases beq_iff_equals.1 same with
      | number equal => exact beq_iff_equals.2 (.number (BEq.symm equal))
  | list xs ih =>
      cases beq_iff_equals.1 same with
      | list each =>
          exact beq_iff_equals.2 (.list (forall₂_symm (fun x member y => ih x member) each))
  | quote x ih =>
      cases beq_iff_equals.1 same with
      | quote equal => exact beq_iff_equals.2 (.quote (ih equal))
  | string s => cases beq_iff_equals.1 same; exact same
  | boolean b => cases beq_iff_equals.1 same; exact same
  | symbol name => cases beq_iff_equals.1 same; exact same

/-- Equality of forms is transitive. -/
theorem beq_trans (first : (f == g) = true) (next : (g == h) = true) : (f == h) = true := by
  induction f generalizing g h with
  | number x =>
      cases beq_iff_equals.1 first with
      | number equal =>
          cases beq_iff_equals.1 next with
          | number equal' => exact beq_iff_equals.2 (.number (BEq.trans equal equal'))
  | list xs ih =>
      cases beq_iff_equals.1 first with
      | list each =>
          cases beq_iff_equals.1 next with
          | list each' =>
              exact beq_iff_equals.2
                (.list (forall₂_trans (fun x member y z => ih x member) each each'))
  | quote x ih =>
      cases beq_iff_equals.1 first with
      | quote equal =>
          cases beq_iff_equals.1 next with
          | quote equal' => exact beq_iff_equals.2 (.quote (ih equal equal'))
  | string s => cases beq_iff_equals.1 first; exact next
  | boolean b => cases beq_iff_equals.1 first; exact next
  | symbol name => cases beq_iff_equals.1 first; exact next

instance : PartialEquivBEq Form where
  symm := beq_symm
  trans := beq_trans

/-! ### Equal to itself -/

/-- Whether not-a-number occurs in a form. -/
def HoldsNaN (form : Form) : Prop :=
  ∃ x : Number, x.isNaN = true ∧ (number x).OccursIn form

/-- A number holds not-a-number exactly when it is that. -/
theorem holdsNaN_number {x : Number} : (number x).HoldsNaN ↔ x.isNaN = true := by
  constructor
  · rintro ⟨y, isNaN, occurs⟩
    rcases occursIn_iff.1 occurs with same | ⟨child, ⟨⟩, -⟩
    cases same
    exact isNaN
  · intro isNaN
    exact ⟨x, isNaN, .refl _⟩

/-- A form that is no number holds not-a-number exactly when one of its children does. -/
theorem holdsNaN_iff_child (other : ∀ x, f ≠ number x) :
    f.HoldsNaN ↔ ∃ child : Form, child.IsChild f ∧ child.HoldsNaN := by
  constructor
  · rintro ⟨x, isNaN, occurs⟩
    rcases occursIn_iff.1 occurs with same | ⟨child, isChild, inside⟩
    · exact absurd same (other x)
    · exact ⟨child, isChild, x, isNaN, inside⟩
  · rintro ⟨child, isChild, x, isNaN, inside⟩
    exact ⟨x, isNaN, inside.of_child isChild⟩

/-- A list holds not-a-number exactly when one of its items does. -/
theorem holdsNaN_list : (list items).HoldsNaN ↔ ∃ item ∈ items, item.HoldsNaN := by
  rw [holdsNaN_iff_child (by simp)]
  constructor
  · rintro ⟨item, ⟨member⟩, holds⟩
    exact ⟨item, member, holds⟩
  · rintro ⟨item, member, holds⟩
    exact ⟨item, .item member, holds⟩

/-- A quoted form holds not-a-number exactly when what is quoted does. -/
theorem holdsNaN_quote : (quote inner).HoldsNaN ↔ inner.HoldsNaN := by
  rw [holdsNaN_iff_child (by simp)]
  constructor
  · rintro ⟨_, ⟨⟩, holds⟩
    exact holds
  · intro holds
    exact ⟨inner, .quoted inner, holds⟩

/-- **A form is equal to itself exactly when not-a-number does not occur in it.** -/
theorem beq_self_iff : (f == f) = true ↔ ¬ f.HoldsNaN := by
  have childless {form : Form} (equals : form.Equals form) (other : ∀ x, form ≠ number x)
      (none : ∀ child, ¬ IsChild child form) : (form == form) = true ↔ ¬ form.HoldsNaN := by
    refine iff_of_true (beq_iff_equals.2 equals) fun holds => ?_
    obtain ⟨child, isChild, -⟩ := (holdsNaN_iff_child other).1 holds
    exact none child isChild
  induction f with
  | number x =>
      rw [holdsNaN_number, ← Number.beq_self_iff]
      rfl
  | list items ih =>
      rw [holdsNaN_list]
      change beqAll items items = true ↔ _
      rw [beqAll_iff, List.forall₂_same]
      push Not
      exact forall₂_congr ih
  | quote inner ih =>
      rw [holdsNaN_quote]
      exact ih
  | string s => exact childless .string (by simp) (by rintro _ ⟨⟩)
  | boolean b => exact childless .boolean (by simp) (by rintro _ ⟨⟩)
  | symbol name => exact childless .symbol (by simp) (by rintro _ ⟨⟩)

/-- Not-a-number does not occur in a readable form. -/
theorem Readable.not_holdsNaN (readable : f.Readable) : ¬ f.HoldsNaN := by
  rintro ⟨x, isNaN, occurs⟩
  cases readable.of_occursIn occurs with
  | number defined _ =>
      rw [defined] at isNaN
      cases isNaN

end Form

end SmallScheme
