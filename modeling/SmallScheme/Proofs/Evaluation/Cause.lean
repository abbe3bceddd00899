import SmallScheme.Proofs.Evaluation.Context
import SmallScheme.Proofs.Evaluation.Origin
import SmallScheme.Proofs.Evaluation.Reach

/-!
# Where failures come from

Evaluation fails for three reasons. It comes to a symbol that is not bound; a procedure that is
bound, or stands in a list that is bound, does not take its arguments; or there is a limit, and it
is exceeded (`Form.Cause`). The symbol stands at an evaluated position, so a name that stands only
under quote marks and among the items of data (`Form.Context.Sheltered`) is never missed.

## Main results

* `Form.cause_of_evalAt`: every error has a cause, under any limit and at any depth.
* `Form.Context.Sheltered.not_evaluated`: what is sheltered from evaluation is not evaluated.
* `Form.eval_error_cause`: what each kind of error tells about the form, the scope and the limit.
-/

namespace SmallScheme

/-- Whether a procedure is bound to a name, or is part of a list that is. -/
def Procedure.BoundIn (p : Procedure) (scope : Scope) : Prop :=
  ∃ name value, scope.get? name = some value ∧ (Value.procedure p).PartOf value

/-- The procedure that an error names, if any. -/
def EvalError.procedure? : EvalError → Option String
  | incorrectArity procedure _ _ => some procedure
  | unsupportedArgType procedure _ => some procedure
  | emptyList procedure => some procedure
  | _ => none

/-- An error blames a procedure exactly when it names it. -/
theorem EvalError.blames_iff {p : Procedure} {e : EvalError} :
    e.Blames p ↔ e.procedure? = some p.name := by
  cases e <;> simp [Blames, procedure?]

namespace Form

/-! ### Causes -/

/-- What may cause an error in the evaluation of a form. -/
inductive Cause (form : Form) (scope : Scope) (limit : Limit) : EvalError → Prop
  /-- A symbol at an evaluated position is not bound. -/
  | symbol {name : String} {context : Context} : scope.get? name = none →
      context.Evaluated scope → context.fill (symbol name) = form →
      Cause form scope limit (.undefinedSymbol name)
  /-- A procedure that the scope provides does not take its arguments. -/
  | procedure {p : Procedure} {e : EvalError} : p.BoundIn scope → e.Blames p →
      Cause form scope limit e
  /-- There is a limit. -/
  | limit {levels : Nat} : limit = some levels → Cause form scope limit (.recursionLimit levels)

variable {scope : Scope} {limit : Limit} {form head item : Form} {tail before after : List Form}
  {e : EvalError}

/-- A hole that is evaluated inside an item is evaluated in the list, if the item itself is. -/
theorem evaluated_item {inner : Context}
    (around : (Context.item before .hole after).Evaluated scope)
    (inside : inner.Evaluated scope) : (Context.item before inner after).Evaluated scope := by
  cases before with
  | nil => exact inside
  | cons head before => exact ⟨around.1, inside⟩

/-- A `Cause` of an error in an item of a list is one in the list, if the item is evaluated. -/
theorem Cause.of_item (around : (Context.item before .hole after).Evaluated scope)
    (cause : Cause item scope limit e) : Cause (list (before ++ item :: after)) scope limit e := by
  cases cause with
  | @symbol name context free evaluated fills =>
      rw [← fills]
      exact .symbol free (evaluated_item around evaluated) rfl
  | procedure bound blames => exact .procedure bound blames
  | limit isLimit => exact .limit isLimit

/-- A procedure that `Form.evalAt` gives is bound in the scope, or part of a list that is. -/
theorem boundIn_of_evalAt {meter : Meter} {p : Procedure}
    (calls : form.evalAt meter scope = .ok (.procedure p)) : p.BoundIn scope := by
  cases origin_of_evalAt calls (.refl _) with
  | computed isComputed => cases isComputed
  | bound isBound isPart => exact ⟨_, _, isBound, isPart⟩

/-- An error of `evalTail` has a `Cause` in the list, if every error of the items behind the first
has one in its item. -/
theorem cause_of_evalTail {meter : Meter} {value : Value}
    (each : ∀ item ∈ tail, ∀ {e : EvalError}, item.evalAt meter scope = .error e →
      Cause item scope limit e)
    (isValue : head.evalAt meter scope = .ok value)
    (h : evalTail meter scope tail value = .error e) :
    Cause (list (head :: tail)) scope limit e := by
  rcases procedure_or_data value with ⟨p, rfl⟩ | data
  · rcases bind_eq_error h with inTail | ⟨args, -, refused⟩
    · obtain ⟨item, member, fails⟩ := exists_of_evalAllAt_eq_error inTail
      have cause := each item member fails
      obtain ⟨before, after, rfl⟩ := List.append_of_mem member
      -- positions are evaluated or not without regard to limits, so the limit has to be taken off
      have around : (Context.item (head :: before) .hole after).Evaluated scope :=
        ⟨⟨p, eval_none_of_evalAt_eq_ok isValue⟩, trivial⟩
      exact cause.of_item around
    · exact .procedure (boundIn_of_evalAt isValue) (Procedure.blames_apply refused)
  · rw [data] at h
    cases h

/-- An error of a symbol that has been entered has a `Cause`: the symbol is not bound. -/
theorem cause_of_symbol {name : String} {meter : Meter}
    (h : (symbol name).evalEntered meter scope = .error e) :
    Cause (symbol name) scope limit e := by
  rw [evalEntered] at h
  split at h
  · cases h
  · next free =>
    cases h
    have whole : Context.hole.Evaluated scope := trivial
    exact .symbol free whole rfl

/-- An error of `Form.evalAt` has a `Cause` if every error of the form, once it is entered, has
one. -/
theorem cause_of_entered {meter : Meter}
    (entered : ∀ e, form.evalEntered meter.raise scope = .error e →
      Cause form scope meter.limit e)
    (h : form.evalAt meter scope = .error e) : Cause form scope meter.limit e := by
  rw [evalAt_eq] at h
  cases reached : meter.limit.reached? meter.depth with
  | some levels =>
      rw [reached] at h
      cases h
      exact .limit (Limit.eq_of_reached? reached)
  | none =>
      rw [reached] at h
      exact entered e h

/-- **Every error of `Form.evalAt` has a `Cause`**, under any limit and at any depth. -/
theorem cause_of_evalAt {meter : Meter} (h : form.evalAt meter scope = .error e) :
    Cause form scope meter.limit e := by
  induction form generalizing meter e with
  | number x => exact cause_of_entered (by rintro _ ⟨⟩) h
  | string s => exact cause_of_entered (by rintro _ ⟨⟩) h
  | boolean b => exact cause_of_entered (by rintro _ ⟨⟩) h
  | symbol name => exact cause_of_entered (fun _ => cause_of_symbol) h
  | list items ih =>
      refine cause_of_entered (fun e fails => ?_) h
      cases items with
      | nil => cases fails
      | cons head tail =>
          rcases bind_eq_error fails with first | ⟨value, isValue, behind⟩
          · have around : (Context.item [] .hole tail).Evaluated scope := trivial
            exact (ih head List.mem_cons_self first).of_item around
          · have each : ∀ item ∈ tail, ∀ {e : EvalError},
                item.evalAt meter.raise scope = .error e → Cause item scope meter.limit e :=
              fun item member => ih item (List.mem_cons_of_mem head member)
            exact cause_of_evalTail each isValue behind
  | quote inner ih => exact cause_of_entered (by rintro _ ⟨⟩) h

/-! ### Shelter -/

namespace Context

/-- Whether what stands in the hole is kept from evaluation: it stands under a quote mark or, at any
depth, behind the first item of a list that is data. -/
inductive Sheltered (scope : Scope) : Context → Prop
  | quote (inner : Context) : Sheltered scope (.quote inner)
  | data {head : Form} {before after : List Form} {inner : Context} {value : Value} :
      head.eval none scope = .ok value → (∀ p, value ≠ .procedure p) →
      Sheltered scope (.item (head :: before) inner after)
  | item {before after : List Form} {inner : Context} :
      Sheltered scope inner → Sheltered scope (.item before inner after)

/-- **A hole that is `Sheltered` is not evaluated.** -/
theorem Sheltered.not_evaluated {context : Context} (sheltered : context.Sheltered scope) :
    ¬ context.Evaluated scope := by
  induction sheltered with
  | quote inner => exact id
  | data isValue isData =>
      rintro ⟨⟨p, calls⟩, -⟩
      cases isValue.symm.trans calls
      exact isData p rfl
  | @item before after inner _ ih =>
      cases before with
      | nil => exact ih
      | cons head before =>
          rintro ⟨-, inside⟩
          exact ih inside

end Context

/-! ### What an error tells -/

/-- A symbol that is reported as undefined is not bound, and stands at an evaluated position. -/
theorem Cause.undefinedSymbol {name : String}
    (cause : Cause form scope limit (.undefinedSymbol name)) :
    scope.get? name = none ∧
      ∃ context : Context, context.Evaluated scope ∧ context.fill (.symbol name) = form := by
  cases cause with
  | symbol free evaluated fills => exact ⟨free, _, evaluated, fills⟩
  | procedure bound blames => exact absurd blames id

/-- No evaluation reports an undefined variable, since a form looks names up as symbols only. -/
theorem not_cause_undefinedVariable {name : String} :
    ¬ Cause form scope limit (.undefinedVariable name) := by
  intro cause
  cases cause with
  | procedure bound blames => exact absurd blames id

/-- A procedure that an error names is bound in the scope, or part of a list that is. -/
theorem Cause.procedure? {name : String} (cause : Cause form scope limit e)
    (names : e.procedure? = some name) : ∃ p : Procedure, p.name = name ∧ p.BoundIn scope := by
  cases cause with
  | symbol free evaluated fills => cases names
  | @procedure p e bound blames =>
      cases (EvalError.blames_iff.1 blames).symm.trans names
      exact ⟨p, rfl, bound⟩
  | limit isLimit => cases names

/-- A limit that is reported as exceeded is the one that was given. -/
theorem Cause.recursionLimit {levels : Nat}
    (cause : Cause form scope limit (.recursionLimit levels)) : limit = some levels := by
  cases cause with
  | procedure bound blames => exact absurd blames id
  | limit isLimit => exact isLimit

/-- **What an error of `Form.eval` tells.** Under any limit, it never is that a variable is not
bound. If it is that a symbol is not bound, then this is so, and the symbol stands at an evaluated
position; a procedure that it names is bound or stands in a list that is bound; and a limit that is
exceeded is the one that there is. So a name that occurs in a form only under quote marks, and
behind the first items of lists that are data, is never found not to be bound. -/
theorem eval_error_cause :
    (∀ (limit : Limit) (scope : Scope) (form : Form) (e : EvalError),
      form.eval limit scope = .error e →
        (∀ name, e ≠ .undefinedVariable name) ∧
        (∀ name, e = .undefinedSymbol name → scope.get? name = none ∧
          ∃ context : Context, context.Evaluated scope ∧ context.fill (symbol name) = form) ∧
        (∀ name, e.procedure? = some name → ∃ p : Procedure, p.name = name ∧ p.BoundIn scope) ∧
        ∀ levels, e = .recursionLimit levels → limit = some levels) ∧
    ∀ (scope : Scope) (form : Form) (name : String),
      (∀ context : Context, context.fill (symbol name) = form → context.Sheltered scope) →
      ∀ limit : Limit, form.eval limit scope ≠ .error (.undefinedSymbol name) := by
  constructor
  · intro limit scope form e fails
    have cause : Cause form scope limit e := cause_of_evalAt fails
    refine ⟨?_, ?_, fun name => cause.procedure?, ?_⟩
    · rintro name rfl
      exact not_cause_undefinedVariable cause
    · rintro name rfl
      exact cause.undefinedSymbol
    · rintro levels rfl
      exact cause.recursionLimit
  · intro scope form name sheltered limit fails
    have cause : Cause form scope limit (.undefinedSymbol name) := cause_of_evalAt fails
    obtain ⟨-, context, evaluated, fills⟩ := cause.undefinedSymbol
    exact (sheltered context fills).not_evaluated evaluated

/-- A call of what is taken out of a list, with a list that has no first item. -/
def takenOut : Form :=
  list [list [symbol "car", list [symbol "list", symbol "car"]], list []]

/-- A list of data in which a name stands by itself and in a call. -/
def datum : Form :=
  list [number 1, symbol "x", list [symbol "car", symbol "x"]]

/-- Both places of `x` in `datum` are `Sheltered`, since they stand behind the number. -/
theorem sheltered_datum {context : Context} (fills : context.fill (symbol "x") = datum) :
    context.Sheltered .program := by
  cases context with
  | hole => cases fills
  | quote inner => cases fills
  | item before inner after =>
      have same := Form.list.inj fills
      cases before with
      | nil =>
          obtain ⟨first, -⟩ := List.cons.inj same
          cases inner <;> cases first
      | cons head before =>
          obtain ⟨rfl, -⟩ := List.cons.inj same
          exact .data rfl (by simp)

/-- The procedure that `takenOut` takes out of its list is named, and the scope provides it. A
symbol in the place of an argument is missed, one behind a number is not. -/
theorem eval_error_cause_takenOut :
    takenOut.eval (some 4) .program = .error (.emptyList "car") ∧
      (∃ p : Procedure, p.name = "car" ∧ p.BoundIn .program) ∧
      (list [symbol "list", symbol "y"]).eval none .program = .error (.undefinedSymbol "y") ∧
      (∃ context : Context, context.Evaluated .program ∧
        context.fill (symbol "y") = list [symbol "list", symbol "y"]) ∧
      takenOut.eval (some 3) .program = .error (.recursionLimit 3) ∧
      ∀ limit : Limit, datum.eval limit .program ≠ .error (.undefinedSymbol "x") := by
  obtain ⟨causes, sheltered⟩ := eval_error_cause
  have empty : takenOut.eval (some 4) .program = .error (.emptyList "car") := rfl
  have missed : (list [symbol "list", symbol "y"]).eval none .program =
      .error (.undefinedSymbol "y") := rfl
  obtain ⟨-, -, names, -⟩ := causes _ _ _ _ empty
  obtain ⟨-, misses, -⟩ := causes _ _ _ _ missed
  exact ⟨empty, names "car" rfl, missed, (misses "y" rfl).2, rfl,
    sheltered _ _ _ fun context => sheltered_datum⟩

end Form

end SmallScheme
