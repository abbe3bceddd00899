import SmallScheme.Proofs.Evaluation.Rules
import SmallScheme.Proofs.Form.Shape
import SmallScheme.Proofs.Procedure.Renaming

/-!
# Evaluation and renaming

Evaluation looks names up, compares them and reports them, and does nothing else with them. So a
renaming that keeps different names apart commutes with it: a renamed form in a renamed scope
comes to the renamed value or the renamed error, under any limit.

## Main results

* `Form.evalAt_rename`: evaluation commutes with renaming, at any depth.
* `Form.eval_rename`: evaluation of whole forms commutes with renaming, and in particular the name
  of a procedure in a scope has no part in what its calls come to.
-/

namespace SmallScheme.Form

variable {r : String → String} {meter : Meter} {scope : Scope}

/-- `Form.quoted` commutes with renaming. -/
theorem quoted_rename (form : Form) : (form.rename r).quoted = form.quoted.rename r := by
  cases form with
  | list items => exact congrArg Value.list (Value.renameAll_map_form r items).symm
  | _ => rfl

/-- `evalAllAt` commutes with renaming if `Form.evalAt` does, for each of the forms. -/
theorem evalAllAt_rename {forms : List Form}
    (each : ∀ form ∈ forms, (form.rename r).evalAt meter (scope.rename r) =
      renameResult r (Value.rename r) (form.evalAt meter scope)) :
    evalAllAt meter (scope.rename r) (renameAll r forms) =
      renameResult r (Value.renameAll r) (evalAllAt meter scope forms) := by
  induction forms with
  | nil => rfl
  | cons form forms ih =>
      rw [renameAll, evalAllAt_cons, evalAllAt_cons, each form List.mem_cons_self,
        ih fun later member => each later (List.mem_cons_of_mem form member)]
      exact renameResult_bind fun value => renameResult_bind fun values => rfl

/-- `evalTail` commutes with renaming if `Form.evalAt` does, for each of the items behind the
first. -/
theorem evalTail_rename (injective : Function.Injective r) {tail : List Form}
    (each : ∀ item ∈ tail, (item.rename r).evalAt meter (scope.rename r) =
      renameResult r (Value.rename r) (item.evalAt meter scope)) (value : Value) :
    evalTail meter (scope.rename r) (renameAll r tail) (value.rename r) =
      renameResult r (Value.rename r) (evalTail meter scope tail value) := by
  have data (value : Value) :
      Except.ok (.list (value.rename r :: (renameAll r tail).map .form)) =
        renameResult r (Value.rename r) (.ok (.list (value :: tail.map .form))) := by
    rw [← Value.renameAll_map_form]
    rfl
  cases value with
  | procedure p =>
      change (evalAllAt meter (scope.rename r) (renameAll r tail)).bind p.apply = _
      rw [evalAllAt_rename each]
      exact renameResult_bind (Procedure.apply_rename injective p)
  | number x => exact data (.number x)
  | string s => exact data (.string s)
  | boolean b => exact data (.boolean b)
  | symbol name => exact data (.symbol name)
  | list items => exact data (.list items)
  | form f => exact data (.form f)

/-- `Form.evalAt` commutes with renaming if `Form.evalEntered` does. -/
theorem evalAt_rename_of_entered {form : Form}
    (inside : ∀ meter, (form.rename r).evalEntered meter (scope.rename r) =
      renameResult r (Value.rename r) (form.evalEntered meter scope)) (meter : Meter) :
    (form.rename r).evalAt meter (scope.rename r) =
      renameResult r (Value.rename r) (form.evalAt meter scope) := by
  rw [evalAt_eq, evalAt_eq]
  cases meter.limit.reached? meter.depth with
  | some levels => rfl
  | none => exact inside meter.raise

/-- **`Form.evalAt` commutes with renaming**, if no two names become one. -/
theorem evalAt_rename (injective : Function.Injective r) (scope : Scope) (form : Form)
    (meter : Meter) : (form.rename r).evalAt meter (scope.rename r) =
      renameResult r (Value.rename r) (form.evalAt meter scope) := by
  induction form generalizing meter with
  | number x => exact evalAt_rename_of_entered (fun _ => rfl) meter
  | string s => exact evalAt_rename_of_entered (fun _ => rfl) meter
  | boolean b => exact evalAt_rename_of_entered (fun _ => rfl) meter
  | symbol name =>
      refine evalAt_rename_of_entered (fun meter => ?_) meter
      rw [rename, evalEntered, evalEntered, Scope.get?_rename injective]
      cases scope.get? name <;> rfl
  | list items ih =>
      refine evalAt_rename_of_entered (fun meter => ?_) meter
      cases items with
      | nil => rfl
      | cons head tail =>
          rw [rename, renameAll, evalEntered, evalEntered, ih head List.mem_cons_self meter]
          exact renameResult_bind <| evalTail_rename injective fun item member =>
            ih item (List.mem_cons_of_mem head member) meter
  | quote inner ih =>
      refine evalAt_rename_of_entered (fun meter => ?_) meter
      rw [rename, evalEntered, evalEntered, quoted_rename]
      rfl

/-! ### Calls by name -/

variable {name other : String} {value : Value} {p : Procedure} {tail : List Form} {e : EvalError}

/-- `Form.evalAt` of a symbol gives the value that it is bound to, unless the limit is reached. -/
theorem evalAt_symbol (bound : scope.get? name = some value) (meter : Meter) :
    (symbol name).evalAt meter scope =
      match meter.limit.reached? meter.depth with
      | some levels => .error (.recursionLimit levels)
      | none => .ok value := by
  have entered : (symbol name).evalEntered meter.raise scope = .ok value := by
    rw [evalEntered, bound]
  refine (evalAt_eq meter scope (symbol name)).trans ?_
  cases meter.limit.reached? meter.depth with
  | some levels => rfl
  | none => exact entered

/-- Two names that are bound to the same value can stand for each other at the front of a list. -/
theorem evalAt_front_congr (bound : scope.get? name = some value)
    (bound' : scope.get? other = some value) (tail : List Form) (meter : Meter) :
    (list (symbol name :: tail)).evalAt meter scope =
      (list (symbol other :: tail)).evalAt meter scope := by
  rw [evalAt_eq, evalAt_eq, evalEntered, evalEntered, evalAt_symbol bound, evalAt_symbol bound']

/-- An error of a call blames the procedure under its own name, or is that the limit is exceeded, or
is an error of one of the other items. -/
theorem fault_of_call (bound : scope.get? name = some (.procedure p))
    (fails : (list (symbol name :: tail)).evalAt meter scope = .error e) :
    e.Blames p ∨ (∃ levels, meter.limit = some levels ∧ e = .recursionLimit levels) ∨
      ∃ item ∈ tail, item.evalAt meter.raise scope = .error e := by
  rw [evalAt_eq] at fails
  cases reached : meter.limit.reached? meter.depth with
  | some levels =>
      rw [reached] at fails
      cases fails
      exact Or.inr (Or.inl ⟨levels, Limit.eq_of_reached? reached, rfl⟩)
  | none =>
      rw [reached, evalEntered, evalAt_symbol bound] at fails
      cases reached' : meter.raise.limit.reached? meter.raise.depth with
      | some levels =>
          rw [reached'] at fails
          cases fails
          exact Or.inr (Or.inl ⟨levels, Limit.eq_of_reached? reached', rfl⟩)
      | none =>
          rw [reached'] at fails
          change (evalAllAt meter.raise scope tail).bind p.apply = .error e at fails
          rcases bind_eq_error fails with items | ⟨args, -, applied⟩
          · exact Or.inr (Or.inr (exists_of_evalAllAt_eq_error items))
          · exact Or.inl (Procedure.blames_apply applied)

/-- **Names are opaque to `Form.eval`.** A renamed form in a renamed scope comes to the renamed
result, under any limit. In particular a procedure that is bound to another name behaves as it does
under its own, and what it reports it reports under its own name. -/
theorem eval_rename (injective : Function.Injective r) :
    (∀ (limit : Limit) (scope : Scope) (form : Form),
      (form.rename r).eval limit (scope.rename r) =
        renameResult r (Value.rename r) (form.eval limit scope)) ∧
    ∀ (limit : Limit) (scope : Scope) (p : Procedure) (name : String) (tail : List Form),
      scope.get? name = some (.procedure p) →
      (∀ other, scope.get? other = some (.procedure p) →
        (list (symbol other :: tail)).eval limit scope =
          (list (symbol name :: tail)).eval limit scope) ∧
      ∀ e, (list (symbol name :: tail)).eval limit scope = .error e →
        e.Blames p ∨ (∃ levels, limit = some levels ∧ e = .recursionLimit levels) ∨
          ∃ item ∈ tail, item.evalAt (Meter.new limit).raise scope = .error e := by
  refine ⟨fun limit scope form => evalAt_rename injective scope form (.new limit),
    fun limit scope p name tail bound => ⟨fun other bound' => ?_, fun e fails => ?_⟩⟩
  · exact evalAt_front_congr bound' bound tail (.new limit)
  · exact fault_of_call bound fails

/-- The standard procedures, with a second name for taking the first item of a list. -/
def aliasing : Scope :=
  Scope.program.define "first" (.procedure .car)

/-- The empty list has no first item, by whichever name of `car` it is asked for. -/
theorem eval_rename_first :
    Function.Injective ("my-" ++ ·) ∧
      (list [symbol "my-first", list []]).eval none (aliasing.rename ("my-" ++ ·)) =
        .error (.emptyList "car") ∧
      (list [symbol "first", list []]).eval none aliasing =
        (list [symbol "car", list []]).eval none aliasing ∧
      ((EvalError.emptyList "car").Blames .car ∨
        (∃ levels, none = some levels ∧ EvalError.emptyList "car" = .recursionLimit levels) ∨
          ∃ item ∈ [list []], item.evalAt (Meter.new none).raise aliasing =
            .error (.emptyList "car")) := by
  have injective : Function.Injective ("my-" ++ · : String → String) :=
    fun _ _ same => (String.append_right_inj "my-").1 same
  have first : aliasing.get? "first" = some (.procedure .car) := by rfl
  have car : aliasing.get? "car" = some (.procedure .car) := by rfl
  have fails : (list [symbol "car", list []]).eval none aliasing = .error (.emptyList "car") := by
    rfl
  obtain ⟨renamed, called⟩ := eval_rename injective
  obtain ⟨same, fault⟩ := called none aliasing .car "car" [list []] car
  have behaves := same "first" first
  refine ⟨injective, ?_, behaves, fault _ fails⟩
  exact (renamed none aliasing (list [symbol "first", list []])).trans
    (congrArg (renameResult _ _) (behaves.trans fails))

end SmallScheme.Form
