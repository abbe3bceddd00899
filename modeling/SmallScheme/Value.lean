import SmallScheme.Form
import SmallScheme.Procedure

/-!
# Values

A value is what a form evaluates to. Besides data and procedures there are forms among the
values: parts of a quoted form, and the items of a list that was not a call, are passed on
unevaluated. A form that has no value has an error instead, in which procedures and types
appear by name, as they do in the messages.

Comparison with `==` is by content, numbers compare as IEEE 754 asks, and a form differs
from every value that is not a form, even from one of the same text.

## Main definitions

* `Value`, `Value.text`: what forms evaluate to, and its text.
* `Value.beq`: whether two values have equal content.
* `EvalError`, `EvalError.message`: why a form has no value.
-/

namespace SmallScheme

/-- What forms evaluate to. -/
inductive Value where
  | number (x : Number)
  | string (s : String)
  | boolean (b : Bool)
  /-- The name of a quoted symbol. -/
  | symbol (name : String)
  | list (items : List Value)
  | procedure (p : Procedure)
  /-- A form passed on unevaluated. -/
  | form (f : Form)

namespace Value

/-- Induction over values, in which a list has the hypothesis for each of its items. -/
@[elab_as_elim, induction_eliminator]
theorem induction {motive : Value → Prop}
    (number : ∀ x, motive (number x)) (string : ∀ s, motive (string s))
    (boolean : ∀ b, motive (boolean b)) (symbol : ∀ name, motive (symbol name))
    (list : ∀ items, (∀ item ∈ items, motive item) → motive (list items))
    (procedure : ∀ p, motive (procedure p)) (form : ∀ f, motive (form f)) (value : Value) :
    motive value :=
  @Value.rec motive (fun items => ∀ item ∈ items, motive item)
    number string boolean symbol list procedure form (by simp) (by simp +contextual) value

/-- The name of a value's type in messages. -/
def typeName : Value → String
  | number _ => "NUMBER"
  | string _ => "STRING"
  | boolean _ => "BOOLEAN"
  | symbol _ => "SYMBOL"
  | list _ => "LIST"
  | procedure _ => "BUILTIN"
  | form _ => "SYNTAX"

/-- Whether a value counts as true: all do but false itself. -/
def isTrue : Value → Bool
  | boolean b => b
  | _ => true

mutual

/-- The text of a value: that of a form with the same content, but with infinite numbers
named as such, and with a text for procedures. -/
def text : Value → String
  | number x => x.text
  | string s => "\"" ++ s ++ "\""
  | boolean b => Form.booleanText b
  | symbol name => name
  | list items => "(" ++ " ".intercalate (texts items) ++ ")"
  | procedure p => "#<procedure " ++ p.name ++ ">"
  | form f => f.text

/-- The texts of several values. -/
def texts : List Value → List String
  | [] => []
  | value :: values => value.text :: texts values

end

mutual

/-- Whether two values have equal content. -/
def beq : Value → Value → Bool
  | number x, number y => x == y
  | string s, string t => s == t
  | boolean a, boolean b => a == b
  | symbol s, symbol t => s == t
  | list xs, list ys => beqAll xs ys
  | procedure p, procedure q => p == q
  | form f, form g => f == g
  | _, _ => false

/-- Whether two lists of values have equal content, item by item. -/
def beqAll : List Value → List Value → Bool
  | [], [] => true
  | x :: xs, y :: ys => x.beq y && beqAll xs ys
  | _, _ => false

end

instance : BEq Value := ⟨beq⟩

end Value

/-! ### Evaluation errors -/

/-- The ways in which evaluation fails. -/
inductive EvalError where
  /-- A symbol that is evaluated has no binding. -/
  | undefinedSymbol (name : String)
  /-- A name that is looked up has no binding. -/
  | undefinedVariable (name : String)
  /-- A procedure got a wrong number of arguments. -/
  | incorrectArity (procedure : String) (got : Nat) (want : Arity)
  /-- A procedure got an argument of a type that it does not take. -/
  | unsupportedArgType (procedure : String) (type : String)
  /-- A procedure that takes a list apart got one without items. -/
  | emptyList (procedure : String)
  /-- A form stands deeper than the limit allows. -/
  | recursionLimit (limit : Nat)
deriving DecidableEq

namespace EvalError

/-- What is said about an evaluation error. -/
def message : EvalError → String
  | undefinedSymbol name => "undefined symbol: " ++ name
  | undefinedVariable name => "undefined variable: " ++ name
  | incorrectArity procedure got want =>
    "wrong number of arguments to `" ++ procedure ++ "`. got=" ++ toString got ++ ", want=" ++
      want.text
  | unsupportedArgType procedure type =>
    "argument to `" ++ procedure ++ "` not supported, got " ++ type
  | emptyList procedure => "`" ++ procedure ++ "` applied to an empty list"
  | recursionLimit limit => "evaluation nested deeper than " ++ toString limit ++ " levels"

end EvalError

end SmallScheme
