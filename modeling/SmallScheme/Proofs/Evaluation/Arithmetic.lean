import SmallScheme.Proofs.Evaluation.Rules
import SmallScheme.Proofs.Procedure.Arithmetic
import SmallScheme.Proofs.Scope

/-!
# Nested and flat arithmetic

A call of an arithmetic procedure whose first argument is a call of the same procedure comes to what
the call with all arguments side by side comes to. The two calls differ in the order of their checks
only: the nested one has looked at the first arguments before it evaluates the others, the flat one
evaluates all of them first. So where one of the first arguments is no number and one of the others
has no value, they report different errors, but they fail both.

## Main results

* `Form.eval_nested`, `Form.eval_flat`: the two calls by the values of their arguments.
* `Form.eval_nested_of_values`: nested and flat arithmetic come to the same if all arguments have
  values.
* `Form.eval_nested_fails_iff`: nested arithmetic fails exactly when flat arithmetic does.
* `Form.eval_nested_arithmetic`: how nested and flat arithmetic agree, with the error that is
  reported for values that are no numbers.
-/

namespace SmallScheme.Form

open Procedure (arithmetic apply_append apply_leftmost exists_apply_eq_number)

variable {scope : Scope} {p : Procedure} {inner outer : List Form}

/-- `evalAll` of two groups of forms gives the values of the first group and then those of the
second. -/
theorem evalAll_append (scope : Scope) (forms others : List Form) :
    evalAll scope (forms ++ others) =
      (evalAll scope forms).bind fun values =>
        (evalAll scope others).bind fun more => .ok (values ++ more) := by
  induction forms with
  | nil =>
      rw [List.nil_append, evalAll_nil]
      change evalAll scope others = (evalAll scope others).bind .ok
      cases evalAll scope others <;> rfl
  | cons form forms ih =>
      rw [List.cons_append, evalAll_cons, evalAll_cons, ih]
      cases form.eval none scope with
      | error e => rfl
      | ok value =>
          cases evalAll scope forms with
          | error e => rfl
          | ok values => cases evalAll scope others <;> rfl

/-- A call whose first argument is a call of the same procedure applies it to the values of the
inner arguments before it evaluates the outer ones. -/
theorem eval_nested (provides : scope.Provides p) (inner outer : List Form) :
    (p.call (p.call inner :: outer)).eval none scope =
      (evalAll scope inner).bind fun values => (p.apply values).bind fun value =>
        (evalAll scope outer).bind fun more => p.apply (value :: more) := by
  rw [eval_call provides, evalAll_cons, eval_call provides]
  cases evalAll scope inner with
  | error e => rfl
  | ok values =>
      change ((p.apply values).bind _).bind p.apply = (p.apply values).bind _
      cases p.apply values with
      | error e => rfl
      | ok value => cases evalAll scope outer <;> rfl

/-- A call with two groups of arguments evaluates all of them before it applies the procedure. -/
theorem eval_flat (provides : scope.Provides p) (inner outer : List Form) :
    (p.call (inner ++ outer)).eval none scope =
      (evalAll scope inner).bind fun values =>
        (evalAll scope outer).bind fun more => p.apply (values ++ more) := by
  rw [eval_call provides, evalAll_append]
  cases evalAll scope inner with
  | error e => rfl
  | ok values => cases evalAll scope outer <;> rfl

/-- `evalAll` gives as many values as there are forms. -/
theorem length_of_evalAll {forms : List Form} {values : List Value}
    (areValues : evalAll scope forms = .ok values) : forms.length = values.length :=
  (evalAll_eq_ok_iff.1 areValues).length_eq

/-- `evalAll` gives numbers if each of the forms evaluates to a number. -/
theorem exists_evalAll_of_numbers {forms : List Form}
    (numbers : ∀ form ∈ forms, ∃ x, form.eval none scope = .ok (.number x)) :
    ∃ values, evalAll scope forms = .ok values ∧ ∀ value ∈ values, ∃ x, value = .number x := by
  induction forms with
  | nil => exact ⟨[], evalAll_nil scope, by simp⟩
  | cons form forms ih =>
      obtain ⟨x, isNumber⟩ := numbers form List.mem_cons_self
      obtain ⟨values, areValues, areNumbers⟩ :=
        ih fun other member => numbers other (List.mem_cons_of_mem form member)
      refine ⟨.number x :: values, ?_, List.forall_mem_cons.2 ⟨⟨x, rfl⟩, areNumbers⟩⟩
      rw [evalAll_cons, isNumber, areValues]
      rfl

/-- **The nested and the flat call of an arithmetic procedure both apply it to all values
together**, if all arguments have values. -/
theorem eval_nested_of_values (provides : scope.Provides p) (member : p ∈ arithmetic)
    (right : p.arity.accepts inner.length = true) {values : List Value}
    (areValues : evalAll scope (inner ++ outer) = .ok values) :
    (p.call (p.call inner :: outer)).eval none scope = p.apply values ∧
      (p.call (inner ++ outer)).eval none scope = p.apply values := by
  rw [evalAll_append] at areValues
  obtain ⟨first, areFirst, behind⟩ := bind_eq_ok areValues
  obtain ⟨more, areMore, whole⟩ := bind_eq_ok behind
  cases whole
  rw [length_of_evalAll areFirst] at right
  rw [eval_nested provides, eval_flat provides, areFirst, areMore]
  exact ⟨apply_append member right more, rfl⟩

/-- **The nested call of an arithmetic procedure fails exactly when the flat one does.** -/
theorem eval_nested_fails_iff (provides : scope.Provides p) (member : p ∈ arithmetic)
    (right : p.arity.accepts inner.length = true) :
    (∃ e, (p.call (p.call inner :: outer)).eval none scope = .error e) ↔
      ∃ e, (p.call (inner ++ outer)).eval none scope = .error e := by
  rw [eval_nested provides, eval_flat provides]
  cases areFirst : evalAll scope inner with
  | error e => exact Iff.rfl
  | ok values =>
      rw [length_of_evalAll areFirst] at right
      change (∃ e, (p.apply values).bind _ = .error e) ↔
        ∃ e, (evalAll scope outer).bind _ = .error e
      cases evalAll scope outer with
      | ok more =>
          change (∃ e, ((p.apply values).bind fun value => p.apply (value :: more)) = .error e) ↔ _
          rw [apply_append member right]
          rfl
      | error late =>
          -- the flat call fails here, and the nested one here or before
          refine iff_of_true ?_ ⟨late, rfl⟩
          cases p.apply values with
          | error early => exact ⟨early, rfl⟩
          | ok value => exact ⟨late, rfl⟩

/-- **Nested and flat arithmetic agree**, for `+`, `-`, `*` and `/` where the scope provides them
under their names, if there is a first argument or the procedure needs none. If all arguments have
numbers for their values, both come to the same number. Each fails exactly when the other does, and
if all arguments have values, with the type of the leftmost that is no number. Of a single argument,
`-` and `/` give the number back. -/
theorem eval_nested_arithmetic (provides : scope.Provides p)
    (member : p ∈ [Procedure.add, .subtract, .multiply, .divide]) :
    (∀ inner outer : List Form, inner ≠ [] ∨ p = .add ∨ p = .multiply →
      ((∀ form ∈ inner ++ outer, ∃ x, form.eval none scope = .ok (.number x)) →
        ∃ x, (p.call (p.call inner :: outer)).eval none scope = .ok (.number x) ∧
          (p.call (inner ++ outer)).eval none scope = .ok (.number x)) ∧
      ((∃ e, (p.call (p.call inner :: outer)).eval none scope = .error e) ↔
        ∃ e, (p.call (inner ++ outer)).eval none scope = .error e) ∧
      ∀ (before : List Value) (misfit : Value) (after : List Value),
        List.Forall₂ (fun form value => form.eval none scope = .ok value) (inner ++ outer)
          (before ++ misfit :: after) →
        (∀ value ∈ before, ∃ x, value = .number x) → (∀ x, misfit ≠ .number x) →
        (p.call (p.call inner :: outer)).eval none scope =
            .error (.unsupportedArgType p.name misfit.typeName) ∧
          (p.call (inner ++ outer)).eval none scope =
            .error (.unsupportedArgType p.name misfit.typeName)) ∧
    (p = .subtract ∨ p = .divide → ∀ (form : Form) (x : Number),
      form.eval none scope = .ok (.number x) →
        (p.call [form]).eval none scope = .ok (.number x)) := by
  refine ⟨fun inner outer first => ?_, ?_⟩
  · have right : p.arity.accepts inner.length = true :=
      Procedure.accepts_of_mem_arithmetic member (first.imp_left List.length_pos_iff.2)
    refine ⟨fun numbers => ?_, eval_nested_fails_iff provides member right, ?_⟩
    · obtain ⟨values, areValues, areNumbers⟩ := exists_evalAll_of_numbers numbers
      have right' : p.arity.accepts values.length = true := by
        rw [← length_of_evalAll areValues]
        refine Procedure.accepts_of_mem_arithmetic member (first.imp_left fun some => ?_)
        exact List.length_pos_iff.2 (List.append_ne_nil_of_left_ne_nil some outer)
      obtain ⟨x, result⟩ := exists_apply_eq_number member right' areNumbers
      obtain ⟨nested, flat⟩ := eval_nested_of_values provides member right areValues
      exact ⟨x, nested.trans result, flat.trans result⟩
    · intro before misfit after areValues numbers noNumber
      have result := apply_leftmost member numbers noNumber after
      rw [← result]
      exact eval_nested_of_values provides member right (evalAll_eq_ok_iff.2 areValues)
  · rintro (rfl | rfl) form x isNumber
    · rw [eval_call_one provides, isNumber]
      rfl
    · rw [eval_call_one provides, isNumber]
      rfl

/-- A program adds to a negative zero what it adds to it side by side, reports an argument that is
no number from within, and may report different errors: a string that is looked at early, or a name
that is looked up late. -/
theorem eval_nested_arithmetic_mixed :
    Scope.program.Provides .add ∧ Scope.program.Provides .subtract ∧
      Scope.program.Provides .divide ∧
      (∃ x, (Procedure.add.call [Procedure.add.call [number (-0)], number (-0)]).eval none
          .program = .ok (.number x) ∧
        (Procedure.add.call [number (-0), number (-0)]).eval none .program = .ok (.number x)) ∧
      (∃ e, (Procedure.subtract.call [Procedure.subtract.call [string "a"], symbol "unbound"]).eval
        none .program = .error e) ∧
      (Procedure.divide.call [Procedure.divide.call [number 1, boolean true], string "a"]).eval none
        .program = .error (.unsupportedArgType "/" "BOOLEAN") ∧
      (Procedure.subtract.call [number (-0)]).eval none .program = .ok (.number (-0)) := by
  have provides (p : Procedure) : Scope.program.Provides p := by
    rw [Scope.Provides, Scope.get?_program, Procedure.ofName?_name]
    rfl
  obtain ⟨sums, -⟩ := eval_nested_arithmetic (provides .add) (by simp)
  obtain ⟨differences, single⟩ := eval_nested_arithmetic (provides .subtract) (by simp)
  obtain ⟨quotients, -⟩ := eval_nested_arithmetic (provides .divide) (by simp)
  obtain ⟨same, -, -⟩ := sums [number (-0)] [number (-0)] (by simp)
  obtain ⟨-, fails, -⟩ := differences [string "a"] [symbol "unbound"] (by simp)
  obtain ⟨-, -, reports⟩ := quotients [number 1, boolean true] [string "a"] (by simp)
  obtain ⟨reported, -⟩ := reports [.number 1] (.boolean true) [.string "a"]
    (.cons rfl (.cons rfl (.cons rfl .nil))) (by simp) (by simp)
  have late : (Procedure.subtract.call [string "a", symbol "unbound"]).eval none .program =
      .error (.undefinedSymbol "unbound") := rfl
  exact ⟨provides .add, provides .subtract, provides .divide,
    same (by simpa using ⟨-0, rfl⟩), fails.2 ⟨_, late⟩, reported,
    single (Or.inl rfl) (number (-0)) (-0) rfl⟩

end SmallScheme.Form
