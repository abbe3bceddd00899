import SmallScheme.Proofs.Evaluation.Rules

/-!
# Replacing a form by an equal one

A form inside another one can be replaced by any form with the same result, as long as it stands
where it is evaluated: at the front of a list, or among the other items of a call, and the list
itself in such a position (`Form.Context.Evaluated`). Nothing else of a form than its result,
value or error, has a part in what the whole comes to.

## Main results

* `Form.Context.eval_fill_eq`: at an evaluated position, forms with the same result can stand for
  each other.
* `Form.Context.eval_fill_congr`: evaluation is referentially transparent, and in particular a
  literal can stand for a form with its value.
-/

namespace SmallScheme

/-- The literal of a value, if it has one: numbers, strings and booleans do. -/
def Value.literal? : Value → Option Form
  | .number x => some (.number x)
  | .string s => some (.string s)
  | .boolean b => some (.boolean b)
  | _ => none

namespace Form

/-- A form with a hole in it. -/
inductive Context where
  | hole
  /-- A list with the hole in one of its items. -/
  | item (before : List Form) (inner : Context) (after : List Form)
  | quote (inner : Context)

namespace Context

/-- The form that a context becomes with a form in its hole. -/
def fill : Context → Form → Form
  | hole, form => form
  | item before inner after, form => .list (before ++ inner.fill form :: after)
  | quote inner, form => .quote (inner.fill form)

/-- Whether what stands in the hole is evaluated: the hole is the whole form, or it is in an item
of a list that is evaluated itself, being the first item or one behind a procedure. -/
def Evaluated (scope : Scope) : Context → Prop
  | hole => True
  | item [] inner _ => inner.Evaluated scope
  | item (head :: _) inner _ =>
    (∃ p, head.eval none scope = .ok (.procedure p)) ∧ inner.Evaluated scope
  | quote _ => False

variable {scope : Scope} {context : Context} {form other : Form}

/-- Among other forms, `Form.evalAll` does not tell a form from one with the same result. -/
theorem evalAll_append_congr (same : form.eval none scope = other.eval none scope)
    (before after : List Form) :
    evalAll scope (before ++ form :: after) = evalAll scope (before ++ other :: after) := by
  induction before with
  | nil => rw [List.nil_append, List.nil_append, evalAll_cons, evalAll_cons, same]
  | cons first before ih =>
      rw [List.cons_append, List.cons_append, evalAll_cons, evalAll_cons, ih]

/-- **At an evaluated position, forms with the same result can stand for each other.** -/
theorem eval_fill_eq (evaluated : context.Evaluated scope)
    (same : form.eval none scope = other.eval none scope) :
    (context.fill form).eval none scope = (context.fill other).eval none scope := by
  induction context with
  | hole => exact same
  | item before inner after ih =>
      cases before with
      | nil =>
          have front := ih evaluated
          rw [fill, fill, List.nil_append, List.nil_append, eval_none_list, eval_none_list, front]
      | cons head before =>
          obtain ⟨⟨p, calls⟩, inside⟩ := evaluated
          have behind := evalAll_append_congr (ih inside) before after
          rw [fill, fill, List.cons_append, List.cons_append, eval_none_call calls,
            eval_none_call calls, behind]
  | quote inner ih => exact absurd evaluated id

end Context

/-- The literal that `Value.literal?` gives evaluates to its value, in any scope. -/
theorem eval_literal {value : Value} {literal : Form} (h : value.literal? = some literal)
    (scope : Scope) : literal.eval none scope = .ok value := by
  cases value with
  | number x => cases h; rfl
  | string s => cases h; rfl
  | boolean b => cases h; rfl
  | symbol name => cases h
  | list items => cases h
  | procedure p => cases h
  | form f => cases h

namespace Context

/-- **Evaluation is referentially transparent.** In a context whose hole is `Evaluated`, forms with
the same result, value or error, can stand for each other, and in particular the literal of a value
for a form that has this value. -/
theorem eval_fill_congr {scope : Scope} {context : Context}
    (evaluated : context.Evaluated scope) :
    (∀ form other : Form, form.eval none scope = other.eval none scope →
        (context.fill form).eval none scope = (context.fill other).eval none scope) ∧
      ∀ (form literal : Form) (value : Value), form.eval none scope = .ok value →
        value.literal? = some literal →
        (context.fill form).eval none scope = (context.fill literal).eval none scope := by
  refine ⟨fun _ _ => eval_fill_eq evaluated, fun form literal value isValue isLiteral => ?_⟩
  exact eval_fill_eq evaluated (isValue.trans (eval_literal isLiteral scope).symm)

/-- The first argument of a call that is itself the head of a call. -/
def procedureOf : Context :=
  .item [] (.item [.symbol "car"] .hole []) [.symbol "unbound"]

/-- In the context `procedureOf`, two ways to make a list of a procedure and a number can stand for
each other, though the call fails then. -/
theorem eval_fill_procedureOf :
    procedureOf.Evaluated .program ∧
      (list [.symbol "list", .symbol "+", .number 1]).eval none .program =
        (list [.symbol "cons", .symbol "+", list [.symbol "list", .number 1]]).eval none .program ∧
      (procedureOf.fill (list [.symbol "list", .symbol "+", .number 1])).eval none .program =
        (procedureOf.fill (list [.symbol "cons", .symbol "+",
          list [.symbol "list", .number 1]])).eval none .program := by
  have evaluated : procedureOf.Evaluated .program := ⟨⟨.car, rfl⟩, trivial⟩
  have same : (list [.symbol "list", .symbol "+", .number 1]).eval none .program =
      (list [.symbol "cons", .symbol "+", list [.symbol "list", .number 1]]).eval none .program :=
    rfl
  exact ⟨evaluated, same, (eval_fill_congr evaluated).1 _ _ same⟩

end Context

end Form

end SmallScheme
