import Mathlib.Logic.Function.Iterate
import SmallScheme.Proofs.Evaluation.Rules
import SmallScheme.Proofs.Scope

/-!
# Lists through the evaluator

`cons` puts together what `car` and `cdr` take apart, and `list` is `cons` as often as it has
arguments. As laws about forms these have to hold for arguments that fail as well, so each is an
equation that says in which order the arguments are evaluated and which failure is the first.

What stands behind the first item is spliced in by `cons` only if it is a list as a value. Any other
value, a form that is a list among them, becomes a single item.

## Main results

* `Form.eval_list_cons`: `list` puts its first argument in front of a list of the others.
* `Form.eval_call_cons`: what is called on a `cons` is applied to the list that it makes.
* `Form.eval_cons_car_cdr`: a list taken apart and put together again.
* `Form.eval_iterate_cdr`: the items of a list that are left after some have been taken away.
* `Form.eval_list_algebra`: the laws of `cons`, `car`, `cdr`, `list` and `null?` together.
-/

namespace SmallScheme

namespace Procedure

/-- What stands behind the first item after a value has been put in front of another one: the items
of a list, or the other value as a single item. -/
def itemsBehind : Value → List Value
  | .list items => items
  | other => [other]

/-- `construct` puts a value in front of the `itemsBehind` of another one. -/
theorem construct_eq (first other : Value) :
    construct first other = .list (first :: itemsBehind other) := by
  cases other <;> rfl

/-- The `itemsBehind` of a value that is no list are that value alone. -/
theorem itemsBehind_of_not_list {other : Value} (atom : ∀ items, other ≠ .list items) :
    itemsBehind other = [other] := by
  cases other with
  | list items => exact absurd rfl (atom items)
  | _ => rfl

end Procedure

namespace Form

open Procedure (construct construct_eq itemsBehind itemsBehind_of_not_list)

variable {scope : Scope}

/-- **`(list a b ...)` evaluates as `(cons a (list b ...))` does**, to the same value or the same
error. -/
theorem eval_list_cons (providesList : scope.Provides .list) (providesCons : scope.Provides .cons)
    (first : Form) (others : List Form) :
    (Procedure.list.call (first :: others)).eval none scope =
      (Procedure.cons.call [first, Procedure.list.call others]).eval none scope := by
  rw [eval_call_two providesCons, eval_call providesList, eval_call providesList, evalAll_cons]
  cases first.eval none scope with
  | error e => rfl
  | ok value =>
      cases evalAll scope others with
      | error e => rfl
      | ok values => rfl

/-- A procedure called on a `cons` is applied to the list that the values of both parts make, once
both are there. -/
theorem eval_call_cons {p : Procedure} (provides : scope.Provides p)
    (providesCons : scope.Provides .cons) (first second : Form) :
    (p.call [Procedure.cons.call [first, second]]).eval none scope =
      (first.eval none scope).bind fun x => (second.eval none scope).bind fun y =>
        p.apply [.list (x :: itemsBehind y)] := by
  rw [eval_call_one provides, eval_call_two providesCons]
  cases first.eval none scope with
  | error e => rfl
  | ok x =>
      cases second.eval none scope with
      | error e => rfl
      | ok y => exact congrArg (fun pair => p.apply [pair]) (construct_eq x y)

/-- A procedure called on a `cons` of two forms with values is applied to the list that these
make. -/
theorem eval_call_cons_of_values {p : Procedure} (provides : scope.Provides p)
    (providesCons : scope.Provides .cons) {first second : Form} {x y : Value}
    (isFirst : first.eval none scope = .ok x) (isSecond : second.eval none scope = .ok y) :
    (p.call [Procedure.cons.call [first, second]]).eval none scope =
      p.apply [.list (x :: itemsBehind y)] := by
  rw [eval_call_cons provides providesCons, isFirst, isSecond]
  rfl

/-- A procedure called on a `cons` fails as the first part does, or else as the second does. -/
theorem eval_call_cons_fails {p : Procedure} (provides : scope.Provides p)
    (providesCons : scope.Provides .cons) {first second : Form} {e : EvalError}
    (fails : first.eval none scope = .error e ∨
      (∃ x, first.eval none scope = .ok x) ∧ second.eval none scope = .error e) :
    (p.call [Procedure.cons.call [first, second]]).eval none scope = .error e := by
  rw [eval_call_cons provides providesCons]
  rcases fails with early | ⟨⟨x, isFirst⟩, late⟩
  · rw [early]
    rfl
  · rw [isFirst, late]
    rfl

/-- Taking a value apart by `car` and `cdr` and putting it together again by `cons` fails as `car`
does, or else as `cdr` does. -/
theorem eval_cons_car_cdr (providesCons : scope.Provides .cons)
    (providesCar : scope.Provides .car) (providesCdr : scope.Provides .cdr)
    {form : Form} {value : Value} (isValue : form.eval none scope = .ok value) :
    (Procedure.cons.call [Procedure.car.call [form], Procedure.cdr.call [form]]).eval none scope =
      (Procedure.car.apply [value]).bind fun first =>
        (Procedure.cdr.apply [value]).bind fun rest => .ok (construct first rest) := by
  rw [eval_call_two providesCons, eval_call_one providesCar, eval_call_one providesCdr, isValue]
  rfl

/-- **`cdr`, called `count` times on a list, drops its first `count` items.** -/
theorem eval_iterate_cdr (providesCdr : scope.Provides .cdr) {form : Form} {items : List Value}
    (isList : form.eval none scope = .ok (.list items)) (count : Nat) :
    ((fun inner => Procedure.cdr.call [inner])^[count] form).eval none scope =
      .ok (.list (items.drop count)) := by
  induction count with
  | zero => exact isList
  | succ count ih =>
      rw [Function.iterate_succ_apply', eval_call_one providesCdr, ih, ← List.drop_drop]
      rfl

/-- **The algebra of lists**, in any scope that provides `cons`, `car`, `cdr`, `list` and `null?`. A
list of items is its first item in front of the list of the others. What `cons` puts together, `car`
and `cdr` take apart, and it is not empty; a failure of the first part comes before one of the
second, and both before anything is put together. Putting together what has been taken apart gives a
list back, and fails on an empty list and on what is no list as `car` does. Any number of items can
be taken away from a list, but no more than it has. -/
theorem eval_list_algebra
    (provides : ∀ p ∈ [Procedure.cons, .car, .cdr, .list, .isNull], scope.Provides p) :
    (∀ (first : Form) (others : List Form),
      (Procedure.list.call (first :: others)).eval none scope =
        (Procedure.cons.call [first, Procedure.list.call others]).eval none scope) ∧
    (∀ (first second : Form) (x y : Value),
      first.eval none scope = .ok x → second.eval none scope = .ok y →
      (Procedure.car.call [Procedure.cons.call [first, second]]).eval none scope = .ok x ∧
      (∀ items, y = .list items →
        (Procedure.cdr.call [Procedure.cons.call [first, second]]).eval none scope =
          .ok (.list items)) ∧
      ((∀ items, y ≠ .list items) →
        (Procedure.cdr.call [Procedure.cons.call [first, second]]).eval none scope =
          .ok (.list [y])) ∧
      (Procedure.isNull.call [Procedure.cons.call [first, second]]).eval none scope =
        .ok (.boolean false)) ∧
    (∀ (first second : Form) (e : EvalError),
      (first.eval none scope = .error e ∨
        (∃ x, first.eval none scope = .ok x) ∧ second.eval none scope = .error e) →
      ∀ p ∈ [Procedure.car, .cdr, .isNull],
        (p.call [Procedure.cons.call [first, second]]).eval none scope = .error e) ∧
    (∀ (form : Form) (value : Value), form.eval none scope = .ok value →
      ((∃ first others, value = .list (first :: others)) →
        (Procedure.cons.call [Procedure.car.call [form],
          Procedure.cdr.call [form]]).eval none scope = .ok value) ∧
      (value = .list [] →
        (Procedure.cons.call [Procedure.car.call [form],
          Procedure.cdr.call [form]]).eval none scope = .error (.emptyList "car")) ∧
      ((∀ items, value ≠ .list items) →
        (Procedure.cons.call [Procedure.car.call [form],
          Procedure.cdr.call [form]]).eval none scope =
            .error (.unsupportedArgType "car" value.typeName))) ∧
    ∀ (form : Form) (items : List Value), form.eval none scope = .ok (.list items) →
      ∀ count, ((fun inner => Procedure.cdr.call [inner])^[count] form).eval none scope =
        .ok (.list (items.drop (min count items.length))) := by
  have providesCons := provides .cons (by simp)
  have providesCar := provides .car (by simp)
  have providesCdr := provides .cdr (by simp)
  have providesList := provides .list (by simp)
  have providesNull := provides .isNull (by simp)
  refine ⟨eval_list_cons providesList providesCons, ?_, ?_, ?_, ?_⟩
  · intro first second x y isFirst isSecond
    have takes {p : Procedure} (isProvided : scope.Provides p) :=
      eval_call_cons_of_values isProvided providesCons isFirst isSecond
    refine ⟨takes providesCar, ?_, ?_, takes providesNull⟩
    · rintro items rfl
      exact takes providesCdr
    · intro atom
      rw [takes providesCdr, itemsBehind_of_not_list atom]
      rfl
  · intro first second e fails p member
    have isProvided : scope.Provides p := provides p (by revert p; simp)
    exact eval_call_cons_fails isProvided providesCons fails
  · intro form value isValue
    rw [eval_cons_car_cdr providesCons providesCar providesCdr isValue]
    refine ⟨?_, ?_, ?_⟩
    · rintro ⟨first, others, rfl⟩
      rfl
    · rintro rfl
      rfl
    · intro atom
      cases value with
      | list items => exact absurd rfl (atom items)
      | _ => rfl
  · intro form items isList count
    rw [← List.drop_eq_drop_min]
    exact eval_iterate_cdr providesCdr isList count

/-- A program takes apart what it has put together: behind a first item, the items of a quoted list
are spliced in, and a list that is quoted twice is a single item. An argument that fails is reported
by `list` as it is by `cons`. -/
theorem eval_list_algebra_quoted :
    (∀ p ∈ [Procedure.cons, .car, .cdr, .list, .isNull], Scope.program.Provides p) ∧
      (Procedure.cdr.call [Procedure.cons.call [number 1, quote (list [number 2])]]).eval none
        .program = .ok (.list [.form (number 2)]) ∧
      (Procedure.cdr.call [Procedure.cons.call [number 1, quote (quote (list [number 2]))]]).eval
        none .program = .ok (.list [.form (list [number 2])]) ∧
      (Procedure.isNull.call [Procedure.cons.call [number 1, symbol "unbound"]]).eval none
        .program = .error (.undefinedSymbol "unbound") ∧
      (Procedure.list.call [number 1, symbol "unbound"]).eval none .program =
        (Procedure.cons.call [number 1, Procedure.list.call [symbol "unbound"]]).eval none
          .program ∧
      ((fun inner => Procedure.cdr.call [inner])^[3] (quote (list [number 1, number 2]))).eval none
        .program = .ok (.list []) := by
  have provides : ∀ p ∈ [Procedure.cons, .car, .cdr, .list, .isNull],
      Scope.program.Provides p := by
    intro p _
    rw [Scope.Provides, Scope.get?_program, Procedure.ofName?_name]
    rfl
  obtain ⟨lists, takesApart, fails, -, iterates⟩ := eval_list_algebra provides
  obtain ⟨-, splices, -, -⟩ := takesApart (number 1) (quote (list [number 2])) _ _ rfl rfl
  obtain ⟨-, -, wraps, -⟩ := takesApart (number 1) (quote (quote (list [number 2]))) _ _ rfl rfl
  have noItem : ∀ items, Value.form (list [number 2]) ≠ .list items := by simp
  have unbound := fails (number 1) (symbol "unbound") _ (Or.inr ⟨⟨_, rfl⟩, rfl⟩) .isNull (by simp)
  have empties := iterates (quote (list [number 1, number 2])) _ rfl 3
  exact ⟨provides, splices _ rfl, wraps noItem, unbound, lists (number 1) [symbol "unbound"],
    empties⟩

end Form

end SmallScheme
