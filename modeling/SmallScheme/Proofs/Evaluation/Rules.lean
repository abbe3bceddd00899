import Mathlib.Data.List.Forall2
import SmallScheme.Evaluation
import SmallScheme.Proofs.Form.Shape
import SmallScheme.Proofs.Procedure.Rules

/-!
# The rules of evaluation as equations

What the rules of evaluation come to where the depth is handed down: a form is entered if the
limit leaves room for it (`Form.evalAt_eq`), and what is inside is evaluated one level deeper
(`Form.evalEntered`).

A form goes no deeper in evaluation than it is nested: quoted forms and the items of data are
counted in its depth, but never entered. So where a limit leaves room for the whole form, it
changes nothing (`Form.evalAt_of_allows`) and is never exceeded
(`Form.evalAt_ne_recursionLimit`), whether evaluation succeeds or fails.

Without a limit there is room at any depth, so what a form inside another one comes to is what it
comes to by itself. The rules of evaluation become equations between results of `Form.eval none`
alone. Where a scope provides procedures under their own names (`Scope.Provides`), these names can
be called (`Procedure.call`), and calls are equations between results too.
-/

namespace SmallScheme

namespace Form

/-- The values of forms, from left to right, below the depth of a meter. -/
def evalAllAt (meter : Meter) (scope : Scope) (forms : List Form) :
    Except EvalError (List Value) :=
  (evalAllBy scope forms : ByDepth (List Value)) meter

/-- What a list comes to once its first item has a value: a call if that is a procedure, else
data. -/
def evalTail (meter : Meter) (scope : Scope) (tail : List Form) :
    Value → Except EvalError Value
  | .procedure p => (evalAllAt meter scope tail).bind p.apply
  | value => .ok (.list (value :: tail.map .form))

/-- The value of a list's first item is a procedure, or the list is data, whatever stands behind
it. -/
theorem procedure_or_data (value : Value) :
    (∃ p, value = .procedure p) ∨
      ∀ meter scope tail,
        evalTail meter scope tail value = .ok (.list (value :: tail.map .form)) := by
  cases value with
  | procedure p => exact Or.inl ⟨p, rfl⟩
  | number x => exact Or.inr fun _ _ _ => rfl
  | string s => exact Or.inr fun _ _ _ => rfl
  | boolean b => exact Or.inr fun _ _ _ => rfl
  | symbol name => exact Or.inr fun _ _ _ => rfl
  | list items => exact Or.inr fun _ _ _ => rfl
  | form f => exact Or.inr fun _ _ _ => rfl

/-- The value of a form that has been entered. -/
def evalEntered (meter : Meter) (scope : Scope) : Form → Except EvalError Value
  | number x => .ok (.number x)
  | string s => .ok (.string s)
  | boolean b => .ok (.boolean b)
  | symbol name =>
    match scope.get? name with
    | some value => .ok value
    | none => .error (.undefinedSymbol name)
  | list [] => .ok (.list [])
  | list (head :: tail) => (head.evalAt meter scope).bind (evalTail meter scope tail)
  | quote inner => .ok inner.quoted

/-- `Form.returning` of a result is that result at any depth. -/
theorem returning_apply {α : Type} (result : Except EvalError α) (meter : Meter) :
    (returning result : ByDepth α) meter = result := by
  cases result with
  | ok a => rfl
  | error e => rfl

/-- `evalTail` is what `Form.evalBy` does with a list once the first item has a value. -/
theorem evalTail_eq (meter : Meter) (scope : Scope) (tail : List Form) (value : Value) :
    (match value with
      | .procedure p => do returning (p.apply (← evalAllBy scope tail))
      | value => pure (.list (value :: tail.map .form)) : ByDepth Value) meter =
      evalTail meter scope tail value := by
  cases value with
  | procedure p =>
      refine congrArg (Except.bind (evalAllAt meter scope tail)) (funext fun args => ?_)
      exact returning_apply (p.apply args) meter
  | number x => rfl
  | string s => rfl
  | boolean b => rfl
  | symbol name => rfl
  | list items => rfl
  | form f => rfl

/-- **`Form.evalAt` enters a form where the limit is not reached**, and fails where it is. -/
theorem evalAt_eq (meter : Meter) (scope : Scope) (form : Form) :
    form.evalAt meter scope =
      match meter.limit.reached? meter.depth with
      | some levels => .error (.recursionLimit levels)
      | none => form.evalEntered meter.raise scope := by
  rw [evalAt, evalBy.eq_def]
  simp only [Descent.deeper]
  cases meter.limit.reached? meter.depth with
  | some levels => rfl
  | none =>
      cases form with
      | number x => rfl
      | string s => rfl
      | boolean b => rfl
      | symbol name =>
          simp only [evalEntered]
          cases scope.get? name with
          | some value => rfl
          | none => rfl
      | list items =>
          cases items with
          | nil => rfl
          | cons head tail =>
              change (head.evalAt meter.raise scope).bind _ = (head.evalAt meter.raise scope).bind _
              refine congrArg (Except.bind _) (funext fun value => ?_)
              exact evalTail_eq meter.raise scope tail value
      | quote inner => rfl

/-- A value of `Form.evalAt` is one of `Form.evalEntered`, one level down. -/
theorem evalEntered_of_evalAt_eq_ok {meter : Meter} {scope : Scope} {form : Form} {value : Value}
    (h : form.evalAt meter scope = .ok value) : form.evalEntered meter.raise scope = .ok value := by
  rw [evalAt_eq] at h
  cases reached : meter.limit.reached? meter.depth with
  | some levels =>
      rw [reached] at h
      cases h
  | none =>
      rw [reached] at h
      exact h

/-- `evalAllAt` of no forms gives no values. -/
theorem evalAllAt_nil (meter : Meter) (scope : Scope) : evalAllAt meter scope [] = .ok [] :=
  rfl

/-- `evalAllAt` gives the value of the first form and then the values of the others. -/
theorem evalAllAt_cons (meter : Meter) (scope : Scope) (form : Form) (forms : List Form) :
    evalAllAt meter scope (form :: forms) =
      (form.evalAt meter scope).bind fun value =>
        (evalAllAt meter scope forms).bind fun values => .ok (value :: values) := by
  rw [evalAllAt, evalAllBy]
  rfl

/-- An error of `evalAllAt` is an error of `Form.evalAt` for one of the forms. -/
theorem exists_of_evalAllAt_eq_error {meter : Meter} {scope : Scope} {forms : List Form}
    {e : EvalError} (h : evalAllAt meter scope forms = .error e) :
    ∃ form ∈ forms, form.evalAt meter scope = .error e := by
  induction forms with
  | nil => cases h
  | cons form forms ih =>
      rw [evalAllAt_cons] at h
      rcases bind_eq_error h with first | ⟨value, -, others⟩
      · exact ⟨form, List.mem_cons_self, first⟩
      · rcases bind_eq_error others with later | ⟨values, -, none⟩
        · obtain ⟨failing, member, fails⟩ := ih later
          exact ⟨failing, List.mem_cons_of_mem form member, fails⟩
        · cases none

/-- The values of `evalAllAt` are values of `Form.evalAt` for forms among those that are
evaluated. -/
theorem exists_of_evalAllAt_eq_ok {meter : Meter} {scope : Scope} {forms : List Form}
    {values : List Value} (h : evalAllAt meter scope forms = .ok values) :
    ∀ value ∈ values, ∃ form ∈ forms, form.evalAt meter scope = .ok value := by
  induction forms generalizing values with
  | nil =>
      cases h
      simp
  | cons form forms ih =>
      rw [evalAllAt_cons] at h
      obtain ⟨first, isFirst, behind⟩ := bind_eq_ok h
      obtain ⟨others, areOthers, whole⟩ := bind_eq_ok behind
      cases whole
      intro value member
      rcases List.mem_cons.1 member with rfl | later
      · exact ⟨form, List.mem_cons_self, isFirst⟩
      · obtain ⟨other, among, isValue⟩ := ih areOthers value later
        exact ⟨other, List.mem_cons_of_mem form among, isValue⟩

/-- An error of a list that has been entered is an error of one of its items, or of the procedure
that it calls. -/
theorem exists_of_evalEntered_eq_error {meter : Meter} {scope : Scope} {items : List Form}
    {e : EvalError} (h : (list items).evalEntered meter scope = .error e) :
    (∃ item ∈ items, item.evalAt meter scope = .error e) ∨
      ∃ (p : Procedure) (args : List Value), p.apply args = .error e := by
  cases items with
  | nil => cases h
  | cons head tail =>
      rcases bind_eq_error h with first | ⟨value, -, others⟩
      · exact Or.inl ⟨head, List.mem_cons_self, first⟩
      · rcases procedure_or_data value with ⟨p, rfl⟩ | data
        · rcases bind_eq_error others with later | ⟨args, -, fails⟩
          · obtain ⟨item, member, failing⟩ := exists_of_evalAllAt_eq_error later
            exact Or.inl ⟨item, List.mem_cons_of_mem head member, failing⟩
          · exact Or.inr ⟨p, args, fails⟩
        · rw [data] at others
          cases others

/-- `evalAllAt` is the same with two meters and in two scopes if `Form.evalAt` is, for each of the
forms. -/
theorem evalAllAt_congr {meter meter' : Meter} {scope scope' : Scope} {forms : List Form}
    (same : ∀ form ∈ forms, form.evalAt meter scope = form.evalAt meter' scope') :
    evalAllAt meter scope forms = evalAllAt meter' scope' forms := by
  induction forms with
  | nil => rw [evalAllAt_nil, evalAllAt_nil]
  | cons form forms ih =>
      rw [evalAllAt_cons, evalAllAt_cons, same form List.mem_cons_self,
        ih fun other member => same other (List.mem_cons_of_mem form member)]

/-- `evalTail` is the same with two meters and in two scopes if `Form.evalAt` is, for each of the
items behind the first. -/
theorem evalTail_congr {meter meter' : Meter} {scope scope' : Scope} {tail : List Form}
    (same : ∀ form ∈ tail, form.evalAt meter scope = form.evalAt meter' scope') :
    evalTail meter scope tail = evalTail meter' scope' tail := by
  funext value
  rcases procedure_or_data value with ⟨p, rfl⟩ | data
  · rw [evalTail, evalTail, evalAllAt_congr same]
  · rw [data, data]

/-! ### Room under a limit -/

variable {meter meter' : Meter}

/-- A limit that leaves room for the depth of a form lets `Form.evalAt` enter it. -/
theorem evalAt_eq_entered {form : Form} (room : meter.limit.Allows meter.depth form.depth)
    (scope : Scope) : form.evalAt meter scope = form.evalEntered meter.raise scope := by
  rw [evalAt_eq, room.reached?_eq_none form.one_le_depth]

/-- A limit that leaves room for the depth of a list leaves room, one level down, for that of its
items. -/
theorem allows_item {items : List Form} {item : Form}
    (room : meter.limit.Allows meter.depth (list items).depth) (member : item ∈ items) :
    meter.raise.limit.Allows meter.raise.depth item.depth := by
  have bound := depthAll_le_iff.1 (Nat.le_refl (depthAll items)) item member
  refine room.below ?_
  rw [depth]
  omega

/-- **`Form.evalAt` is the same for all limits that leave room for the depth of the form.** -/
theorem evalAt_of_allows (scope : Scope) (form : Form)
    (room : meter.limit.Allows meter.depth form.depth)
    (room' : meter'.limit.Allows meter'.depth form.depth) :
    form.evalAt meter scope = form.evalAt meter' scope := by
  induction form generalizing meter meter' with
  | list items ih =>
      rw [evalAt_eq_entered room, evalAt_eq_entered room']
      cases items with
      | nil => rfl
      | cons head tail =>
          have same : ∀ item ∈ head :: tail,
              item.evalAt meter.raise scope = item.evalAt meter'.raise scope :=
            fun item member => ih item member (allows_item room member) (allows_item room' member)
          rw [evalEntered, evalEntered, same head List.mem_cons_self,
            evalTail_congr fun item member => same item (List.mem_cons_of_mem head member)]
  | number x => rw [evalAt_eq_entered room, evalAt_eq_entered room']; rfl
  | string s => rw [evalAt_eq_entered room, evalAt_eq_entered room']; rfl
  | boolean b => rw [evalAt_eq_entered room, evalAt_eq_entered room']; rfl
  | symbol name => rw [evalAt_eq_entered room, evalAt_eq_entered room']; rfl
  | quote inner ih => rw [evalAt_eq_entered room, evalAt_eq_entered room']; rfl

/-- **`Form.evalAt` exceeds no limit that leaves room for the depth of the form.** -/
theorem evalAt_ne_recursionLimit (scope : Scope) (form : Form)
    (room : meter.limit.Allows meter.depth form.depth) (levels : Nat) :
    form.evalAt meter scope ≠ .error (.recursionLimit levels) := by
  induction form generalizing meter with
  | list items ih =>
      rw [evalAt_eq_entered room]
      intro exceeds
      rcases exists_of_evalEntered_eq_error exceeds with ⟨item, member, fails⟩ | ⟨p, args, fails⟩
      · exact ih item member (allows_item room member) fails
      · exact Procedure.blames_apply fails
  | symbol name =>
      rw [evalAt_eq_entered room, evalEntered]
      intro exceeds
      split at exceeds <;> cases exceeds
  | number x => rw [evalAt_eq_entered room]; rintro ⟨⟩
  | string s => rw [evalAt_eq_entered room]; rintro ⟨⟩
  | boolean b => rw [evalAt_eq_entered room]; rintro ⟨⟩
  | quote inner ih => rw [evalAt_eq_entered room]; rintro ⟨⟩

/-! ### Without a limit -/

variable {scope : Scope} {head form other : Form} {tail : List Form}

/-- Without a limit, `Form.evalAt` is `Form.eval` at any depth. -/
theorem evalAt_unlimited (depth : Nat) (scope : Scope) (form : Form) :
    form.evalAt ⟨none, depth⟩ scope = form.eval none scope :=
  evalAt_of_allows scope form (Limit.allows_none depth _) (Limit.allows_none 0 _)

/-- The values of forms, from left to right, without a limit. -/
def evalAll (scope : Scope) (forms : List Form) : Except EvalError (List Value) :=
  evalAllAt (.new none) scope forms

/-- `evalAll` of no forms gives no values. -/
theorem evalAll_nil (scope : Scope) : evalAll scope [] = .ok [] :=
  evalAllAt_nil (.new none) scope

/-- `evalAll` gives the value of the first form and then the values of the others. -/
theorem evalAll_cons (scope : Scope) (form : Form) (forms : List Form) :
    evalAll scope (form :: forms) =
      (form.eval none scope).bind fun value =>
        (evalAll scope forms).bind fun values => .ok (value :: values) :=
  evalAllAt_cons (.new none) scope form forms

/-- A list evaluates its first item and goes on by `evalTail`. -/
theorem eval_none_list (scope : Scope) (head : Form) (tail : List Form) :
    (list (head :: tail)).eval none scope =
      (head.eval none scope).bind (evalTail (.new none) scope tail) := by
  have room : Limit.Allows none 0 (list (head :: tail)).depth := Limit.allows_none 0 _
  have same : evalTail (Meter.new none).raise scope tail = evalTail (.new none) scope tail :=
    evalTail_congr fun item _ => evalAt_unlimited 1 scope item
  rw [eval, evalAt_eq_entered room, evalEntered, same]
  exact congrArg (Except.bind · _) (evalAt_unlimited 1 scope head)

/-- **A list whose first item evaluates to a procedure applies it to the values of the other
items.** -/
theorem eval_none_call {p : Procedure} (calls : head.eval none scope = .ok (.procedure p))
    (tail : List Form) :
    (list (head :: tail)).eval none scope = (evalAll scope tail).bind p.apply := by
  rw [eval_none_list, calls]
  rfl

/-- `evalAll` gives values exactly when each of the forms evaluates to the value in its place. -/
theorem evalAll_eq_ok_iff {forms : List Form} {values : List Value} :
    evalAll scope forms = .ok values ↔
      List.Forall₂ (fun form value => form.eval none scope = .ok value) forms values := by
  induction forms generalizing values with
  | nil =>
      rw [evalAll_nil, List.forall₂_nil_left_iff]
      constructor
      · intro h
        cases h
        rfl
      · rintro rfl
        rfl
  | cons form forms ih =>
      rw [evalAll_cons, List.forall₂_cons_left_iff]
      constructor
      · intro h
        obtain ⟨value, isValue, behind⟩ := bind_eq_ok h
        obtain ⟨others, areValues, whole⟩ := bind_eq_ok behind
        cases whole
        exact ⟨value, others, isValue, ih.1 areValues, rfl⟩
      · rintro ⟨value, others, isValue, areValues, rfl⟩
        rw [isValue, ih.2 areValues]
        rfl

end Form

/-! ### Calls by name -/

/-- Whether a procedure is bound to its own name in a scope. -/
def Scope.Provides (scope : Scope) (p : Procedure) : Prop :=
  scope.get? p.name = some (.procedure p)

/-- The call of a procedure by its own name. -/
def Procedure.call (p : Procedure) (args : List Form) : Form :=
  .list (.symbol p.name :: args)

namespace Form

variable {scope : Scope} {p : Procedure}

/-- **`Procedure.call` applies the procedure to the values of its arguments**, in a scope that
provides it. -/
theorem eval_call (provides : scope.Provides p) (args : List Form) :
    (p.call args).eval none scope = (evalAll scope args).bind p.apply := by
  have calls : (symbol p.name).eval none scope = .ok (.procedure p) := by
    rw [eval, evalAt_eq]
    simp only [Meter.new, Limit.reached?_none, evalEntered]
    rw [provides]
  exact eval_none_call calls args

/-- `Procedure.call` with one argument applies the procedure to the value of that argument. -/
theorem eval_call_one (provides : scope.Provides p) (arg : Form) :
    (p.call [arg]).eval none scope = (arg.eval none scope).bind fun x => p.apply [x] := by
  rw [eval_call provides, evalAll_cons, evalAll_nil]
  cases arg.eval none scope with
  | error e => rfl
  | ok x => rfl

/-- `Procedure.call` with two arguments applies the procedure to their values, of which the first is
computed first. -/
theorem eval_call_two (provides : scope.Provides p) (first second : Form) :
    (p.call [first, second]).eval none scope =
      (first.eval none scope).bind fun x => (second.eval none scope).bind fun y =>
        p.apply [x, y] := by
  rw [eval_call provides, evalAll_cons, evalAll_cons, evalAll_nil]
  cases first.eval none scope with
  | error e => rfl
  | ok x =>
      cases second.eval none scope with
      | error e => rfl
      | ok y => rfl

end Form

end SmallScheme
