import SmallScheme.Evaluation
import SmallScheme.Proofs.Scope

/-!
# What evaluation asks of a scope

Evaluation looks up the symbols that it comes across, and it comes across none that stands under a
quote mark. So two scopes that agree on the other names of a form (`Form.names`) cannot be told
apart by evaluating it, however their frames are made up.

The proof is about the rules of evaluation as such, over any way of going one level down: it
needs nothing of how errors and the depth are kept.

## Main results

* `Form.evalBy_congr`: in scopes that agree on the names of a form, its evaluation is the same
  computation.
* `Form.eval_of_agreeOn`: a form has the same value in scopes that agree on its names, with or
  without a meter, and in particular after definitions that it does not ask for, and in frames
  divided in another way.
-/

namespace SmallScheme.Form

/-! ### Names -/

mutual

/-- The names of the symbols in a form that stand under no quote mark. -/
def names : Form → List String
  | symbol name => [name]
  | list items => namesAll items
  | number _ | string _ | boolean _ | quote _ => []

/-- The names of the symbols in several forms that stand under no quote mark. -/
def namesAll : List Form → List String
  | [] => []
  | form :: forms => form.names ++ namesAll forms

end

/-- A name is one of several forms exactly when it is one of some form among them. -/
theorem mem_namesAll {name : String} {forms : List Form} :
    name ∈ namesAll forms ↔ ∃ form ∈ forms, name ∈ form.names := by
  induction forms with
  | nil => simp [namesAll]
  | cons form forms ih => simp [namesAll, ih]

/-! ### Agreement -/

variable {m : Type → Type} [Descent m] {scope other : Scope} {form : Form} {forms : List Form}

/-- Scopes that agree on the names of a list agree on the names of each item. -/
theorem agreeOn_item {items : List Form} (agree : scope.AgreeOn (list items).names other)
    {item : Form} (member : item ∈ items) : scope.AgreeOn item.names other := by
  intro name inside
  rw [names] at agree
  exact agree name (mem_namesAll.2 ⟨item, member, inside⟩)

/-- `Form.evalAllBy` is the same computation in two scopes if `Form.evalBy` is, for each of the
forms. -/
theorem evalAllBy_congr
    (each : ∀ form ∈ forms, (form.evalBy scope : m Value) = form.evalBy other) :
    (evalAllBy scope forms : m (List Value)) = evalAllBy other forms := by
  induction forms with
  | nil => rw [evalAllBy, evalAllBy]
  | cons form forms ih =>
      have later := ih fun later member => each later (List.mem_cons_of_mem form member)
      rw [evalAllBy, evalAllBy, each form List.mem_cons_self, later]

/-- **`Form.evalBy` is the same computation in scopes that agree on the names of the form.** -/
theorem evalBy_congr (agree : scope.AgreeOn form.names other) :
    (form.evalBy scope : m Value) = form.evalBy other := by
  induction form with
  | number x => rw [evalBy, evalBy]
  | string s => rw [evalBy, evalBy]
  | boolean b => rw [evalBy, evalBy]
  | symbol name =>
      have bound : scope.get? name = other.get? name := agree name (by simp [names])
      rw [evalBy, evalBy, bound]
  | list items ih =>
      have each : ∀ item ∈ items, (item.evalBy scope : m Value) = item.evalBy other :=
        fun item member => ih item member (agreeOn_item agree member)
      cases items with
      | nil => rw [evalBy, evalBy]
      | cons head tail =>
          have first := each head List.mem_cons_self
          have others : (evalAllBy scope tail : m (List Value)) = evalAllBy other tail :=
            evalAllBy_congr fun item member => each item (List.mem_cons_of_mem head member)
          rw [evalBy, evalBy, first, others]
  | quote inner ih => rw [evalBy, evalBy]

/-- `Form.eval` is the same, under any limit, in scopes that agree on the names of the form. -/
theorem eval_congr (agree : scope.AgreeOn form.names other) (limit : Limit) :
    form.eval limit scope = form.eval limit other := by
  rw [eval, evalAt, eval, evalAt, evalBy_congr agree]

/-- **Evaluation depends on no more of a scope than what the `Form.names` of a form are bound to.**
In two scopes that agree on all symbols of a form that stand under no quote mark, it comes to the
same value or the same error, under any limit and with any meter. So nothing is changed by a
definition of a name that does not stand there, or of what it was bound to before, and nothing by
dividing the same bindings among other frames. -/
theorem eval_of_agreeOn (form : Form) :
    (∀ scope other : Scope, scope.AgreeOn form.names other →
      (∀ limit, form.eval limit scope = form.eval limit other) ∧
        ∀ meter, form.evalMetered scope meter = form.evalMetered other meter) ∧
      (∀ (scope : Scope) (name : String) (value : Value),
        name ∉ form.names ∨ scope.get? name = some value →
        ∀ limit, form.eval limit (scope.define name value) = form.eval limit scope) ∧
      ∀ scope other : Scope, scope.bindings = other.bindings →
        ∀ limit, form.eval limit scope = form.eval limit other := by
  refine ⟨fun scope other agree => ⟨eval_congr agree, fun meter => ?_⟩, ?_, ?_⟩
  · rw [evalMetered, evalMetered, evalBy_congr agree]
  · intro scope name value unnoticed limit
    exact eval_congr (Scope.agreeOn_define unnoticed) limit
  · intro scope other same limit
    exact eval_congr (Scope.agreeOn_of_bindings_eq same) limit

/-- A list of what `x` is bound to and of the name of another symbol. -/
def sharing : Form :=
  list [symbol "list", symbol "x", quote (symbol "y")]

/-- The standard procedures, and the number one by the name of `x`. -/
def numbered : Scope :=
  Scope.program.define "x" (.number 1)

/-- The form `sharing` has the same value whether the name under its quote mark is bound, bound
again or unbound, and whether `x` is bound in the innermost frame or around it. -/
theorem eval_of_agreeOn_sharing :
    (numbered.define "y" (.number 2)).AgreeOn sharing.names numbered.enter ∧
      sharing.eval (some 2) (numbered.define "y" (.number 2)) =
        sharing.eval (some 2) numbered.enter ∧
      sharing.evalMetered (numbered.define "y" (.number 2)) (.new none) =
        sharing.evalMetered numbered.enter (.new none) ∧
      "y" ∉ sharing.names ∧
      sharing.eval none (numbered.define "y" (.boolean true)) = sharing.eval none numbered ∧
      numbered.enter.bindings = numbered.bindings ∧
      sharing.eval none numbered.enter = sharing.eval none numbered := by
  obtain ⟨agreeing, defined, divided⟩ := eval_of_agreeOn sharing
  have agree : (numbered.define "y" (.number 2)).AgreeOn sharing.names numbered.enter := by
    intro name member
    have two : name = "list" ∨ name = "x" := by
      simpa [sharing, names, namesAll] using member
    rcases two with rfl | rfl <;> rfl
  have absent : "y" ∉ sharing.names := by decide
  have same : numbered.enter.bindings = numbered.bindings := rfl
  obtain ⟨limited, metered⟩ := agreeing (numbered.define "y" (.number 2)) numbered.enter agree
  exact ⟨agree, limited (some 2), metered (.new none), absent,
    defined numbered "y" (.boolean true) (Or.inl absent) none, same,
    divided numbered.enter numbered same none⟩

end SmallScheme.Form
