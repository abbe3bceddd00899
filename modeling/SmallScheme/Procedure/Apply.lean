import SmallScheme.Value

/-!
# Applying procedures

What each procedure makes of its arguments. A wrong number of arguments is reported before
anything else, then an argument of a wrong type, the leftmost that does not fit; taking the
first item of an empty list fails last of all.

* Arithmetic folds numbers from the left: sums start from `0`, products from `1`,
  differences and quotients from their first argument.
* `=` compares any two values by content; `<` and `>` compare two numbers, or two strings
  by the code points of their characters.
* `cons` puts a value in front of a list, or makes a list of two where the second argument
  is none.
-/

namespace SmallScheme.Procedure

/-- The number that an argument has to be. -/
def number? (p : Procedure) : Value → Except EvalError Number
  | .number x => .ok x
  | other => .error (.unsupportedArgType p.name other.typeName)

/-- The numbers that all arguments have to be. -/
def numbers? (p : Procedure) : List Value → Except EvalError (List Number)
  | [] => .ok []
  | arg :: args => do
    let x ← p.number? arg
    let xs ← p.numbers? args
    return x :: xs

/-- Folds an operation over numbers from the left, from a starting number. -/
def fold (p : Procedure) (op : Number → Number → Number) (start : Number)
    (args : List Value) : Except EvalError Value := do
  let xs ← p.numbers? args
  return .number (xs.foldl op start)

/-- Compares two numbers or two strings. Of two other arguments the first that is neither
is reported, and of a number beside a string the second. -/
def compare (p : Procedure) (numbers : Number → Number → Bool)
    (strings : String → String → Bool) : Value → Value → Except EvalError Value
  | .number x, .number y => .ok (.boolean (numbers x y))
  | .string s, .string t => .ok (.boolean (strings s t))
  | .number _, other => .error (.unsupportedArgType p.name other.typeName)
  | .string _, other => .error (.unsupportedArgType p.name other.typeName)
  | other, _ => .error (.unsupportedArgType p.name other.typeName)

/-- The items of an argument that has to be a list. -/
def items? (p : Procedure) : Value → Except EvalError (List Value)
  | .list items => .ok items
  | other => .error (.unsupportedArgType p.name other.typeName)

/-- The list of a value and the items of another, which is its only item if it is no
list. -/
def construct (first : Value) : Value → Value
  | .list items => .list (first :: items)
  | other => .list [first, other]

/-- Whether a value is the list without items. -/
def isEmptyList : Value → Bool
  | .list [] => true
  | _ => false

/-- The words for types that no value of the kind "symbol" may spell as a string. -/
def typeWords : List String :=
  ["number", "boolean", "string"]

/-- Whether a value passes for a symbol: symbols do, and strings other than the words for
types. -/
def passesForSymbol : Value → Bool
  | .symbol _ => true
  | .string s => !typeWords.contains s
  | _ => false

/-- What a procedure makes of its arguments. -/
def apply : Procedure → List Value → Except EvalError Value
  | add, args => fold add (· + ·) 0 args
  | multiply, args => fold multiply (· * ·) 1 args
  | subtract, first :: args => do fold subtract (· - ·) (← number? subtract first) args
  | divide, first :: args => do fold divide (· / ·) (← number? divide first) args
  | equal, [x, y] => return .boolean (x == y)
  | less, [x, y] => compare less (· < ·) (· < ·) x y
  | greater, [x, y] => compare greater (· > ·) (· > ·) x y
  | cons, [x, y] => return construct x y
  | car, [x] => do
    match ← items? car x with
    | first :: _ => return first
    | [] => throw (.emptyList car.name)
  | cdr, [x] => do return .list ((← items? cdr x).drop 1)
  | list, args => return .list args
  | isNull, [x] => return .boolean (isEmptyList x)
  | isNumber, [x] => return .boolean (x matches .number _)
  | isBoolean, [x] => return .boolean (x matches .boolean _)
  | isString, [x] => return .boolean (x matches .string _)
  | isSymbol, [x] => return .boolean (passesForSymbol x)
  | not, [x] => return .boolean !x.isTrue
  | and, args => return .boolean (args.all Value.isTrue)
  | or, args => return .boolean (args.any Value.isTrue)
  | p, args => throw (.incorrectArity p.name args.length p.arity)

end SmallScheme.Procedure
