import SmallScheme.Procedure.Apply

/-!
# Evaluation

A scope binds names to values in frames that enclose one another. A name means what the
innermost frame that binds it says, and a definition goes into the innermost frame; as
scopes are values, a definition made in one is never seen in another.

Numbers, strings and booleans evaluate to themselves and a symbol to what it is bound to. A
list is a call if its first item evaluates to a procedure: its other items are then
evaluated from left to right and the procedure is applied to them. Any other list is data,
its first item evaluated and the others passed on as forms. A quoted form is not evaluated,
but laid open by one level.

A limit says how many levels of forms may be entered. The rules are stated once
(`Form.evalBy`), over any way of going one level down (`Descent`), and there are two ways. A
descent by depth hands the depth down with each call; one form is evaluated in this way. A
metered descent keeps the depth in a meter that a sequence of evaluations shares: the meter
is raised when a form is entered and lowered when the form is left, whatever came of it.

## Main definitions

* `Scope`, `Scope.get?`, `Scope.define`: scopes, what a name means in one, and definitions.
* `Form.quoted`: the value of a quoted form.
* `Form.evalBy`: the rules of evaluation.
* `Form.eval`: the value of a form in a scope, under a limit.
* `Form.evalMetered`: the value of a form with a meter, and the meter after that.
-/

namespace SmallScheme

/-! ### Scopes -/

/-- The bindings made in one place, the latest first: an earlier binding of the same name
no longer counts. -/
abbrev Frame := List (String × Value)

/-- A frame of bindings and the frames that enclose it, the nearest first. -/
structure Scope where
  frame : Frame
  outer : List Frame

namespace Scope

/-- The scope without bindings. -/
def empty : Scope :=
  ⟨[], []⟩

/-- The scope in which each procedure is bound to its own name. -/
def standard : Scope :=
  ⟨Procedure.all.map fun p => (p.name, .procedure p), []⟩

/-- A scope with a frame of its own inside another one. -/
def enter (scope : Scope) : Scope :=
  ⟨[], scope.frame :: scope.outer⟩

/-- A scope for definitions of its own inside the standard one. -/
def program : Scope :=
  standard.enter

/-- The value that a name is bound to. -/
def get? (scope : Scope) (name : String) : Option Value :=
  (scope.frame :: scope.outer).findSome? (·.lookup name)

/-- The value that a name is bound to, or the error that it is not bound. -/
def lookup (scope : Scope) (name : String) : Except EvalError Value :=
  match scope.get? name with
  | some value => .ok value
  | none => .error (.undefinedVariable name)

/-- Binds a name in the innermost frame. -/
def define (scope : Scope) (name : String) (value : Value) : Scope :=
  ⟨(name, value) :: scope.frame, scope.outer⟩

end Scope

/-! ### Quoted forms -/

/-- The value of a quoted form: an atom is that atom as a value, a list is a list of forms,
and a further quote mark is taken off and leaves a form. -/
def Form.quoted : Form → Value
  | number x => .number x
  | string s => .string s
  | boolean b => .boolean b
  | symbol name => .symbol name
  | list items => .list (items.map .form)
  | quote inner => .form inner

/-! ### The rules -/

/-- Computations that can fail and that can go one level down. -/
class Descent (m : Type → Type) extends Monad m where
  /-- The computation that only fails. -/
  fail : {α : Type} → EvalError → m α
  /-- A computation one level down, if there is room for it. -/
  deeper : {α : Type} → m α → m α

namespace Form

variable {m : Type → Type} [Descent m]

/-- A result as a computation. -/
def returning {α : Type} : Except EvalError α → m α
  | .ok a => pure a
  | .error e => Descent.fail e

mutual

/-- Evaluates a form in a scope, one level below its surroundings. -/
def evalBy (scope : Scope) (form : Form) : m Value :=
  Descent.deeper <|
    match form with
    | number x => pure (.number x)
    | string s => pure (.string s)
    | boolean b => pure (.boolean b)
    | symbol name =>
      match scope.get? name with
      | some value => pure value
      | none => Descent.fail (.undefinedSymbol name)
    | list [] => pure (.list [])
    | list (head :: tail) => do
      match ← head.evalBy scope with
      | .procedure p => returning (p.apply (← evalAllBy scope tail))
      | value => pure (.list (value :: tail.map .form))
    | quote inner => pure inner.quoted

/-- Evaluates forms from left to right. -/
def evalAllBy (scope : Scope) : List Form → m (List Value)
  | [] => pure []
  | form :: forms => do
    let value ← form.evalBy scope
    let values ← evalAllBy scope forms
    return value :: values

end

end Form

/-! ### Two ways down -/

/-- How many levels may be entered and how many have been. -/
structure Meter where
  limit : Limit
  depth : Nat
deriving DecidableEq

namespace Meter

/-- The meter before anything is entered. -/
def new (limit : Limit) : Meter :=
  ⟨limit, 0⟩

/-- One level more. -/
def raise (meter : Meter) : Meter :=
  ⟨meter.limit, meter.depth + 1⟩

/-- One level less. -/
def lower (meter : Meter) : Meter :=
  ⟨meter.limit, meter.depth - 1⟩

end Meter

/-- Evaluation that hands the depth down. -/
abbrev ByDepth := ReaderT Meter (Except EvalError)

instance : Descent ByDepth where
  fail e := fun _ => .error e
  deeper body := fun meter =>
    match meter.limit.reached? meter.depth with
    | some levels => .error (.recursionLimit levels)
    | none => body meter.raise

/-- Evaluation that keeps the depth in a meter. -/
abbrev Metered := ExceptT EvalError (StateM Meter)

instance : Descent Metered where
  fail e := fun meter => (.error e, meter)
  deeper body := fun meter =>
    match meter.limit.reached? meter.depth with
    | some levels => (.error (.recursionLimit levels), meter)
    | none =>
      let (result, after) := body meter.raise
      (result, after.lower)

namespace Form

/-- The value of a form in a scope, below the depth of a meter. -/
def evalAt (meter : Meter) (scope : Scope) (form : Form) : Except EvalError Value :=
  (form.evalBy scope : ByDepth Value) meter

/-- The value of a form in a scope, under a limit on its nesting. -/
def eval (limit : Limit) (scope : Scope) (form : Form) : Except EvalError Value :=
  form.evalAt (.new limit) scope

/-- The value of a form in a scope and the meter after its evaluation. -/
def evalMetered (scope : Scope) (form : Form) (meter : Meter) : Except EvalError Value × Meter :=
  (form.evalBy scope : Metered Value) meter

end Form

end SmallScheme
