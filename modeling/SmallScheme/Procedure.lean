/-!
# Built-in procedures

The procedures that the language comes with, each with its name and the number of
arguments that it takes. What they compute is said in `SmallScheme.Procedure.Apply`.
-/

namespace SmallScheme

/-- How many arguments a procedure takes. -/
inductive Arity where
  | exactly (count : Nat)
  | atLeast (count : Nat)
deriving DecidableEq, Repr

namespace Arity

/-- Whether a number of arguments is right. -/
def accepts : Arity → Nat → Bool
  | exactly count, got => got = count
  | atLeast count, got => count ≤ got

/-- The text of an arity in messages. -/
def text : Arity → String
  | exactly count => toString count
  | atLeast count => "at least " ++ toString count

end Arity

/-- The built-in procedures. -/
inductive Procedure where
  | add
  | subtract
  | multiply
  | divide
  | equal
  | less
  | greater
  | cons
  | car
  | cdr
  | list
  | isNull
  | isNumber
  | isBoolean
  | isString
  | isSymbol
  | not
  | and
  | or
deriving DecidableEq, Repr

namespace Procedure

/-- Every procedure, in the order of its declaration. -/
def all : List Procedure :=
  [add, subtract, multiply, divide, equal, less, greater, cons, car, cdr, list, isNull,
    isNumber, isBoolean, isString, isSymbol, not, and, or]

/-- A procedure's own name, under which it reports errors and is bound at first. -/
def name : Procedure → String
  | add => "+"
  | subtract => "-"
  | multiply => "*"
  | divide => "/"
  | equal => "="
  | less => "<"
  | greater => ">"
  | cons => "cons"
  | car => "car"
  | cdr => "cdr"
  | list => "list"
  | isNull => "null?"
  | isNumber => "number?"
  | isBoolean => "boolean?"
  | isString => "string?"
  | isSymbol => "symbol?"
  | not => "not"
  | and => "and"
  | or => "or"

/-- How many arguments a procedure takes. -/
def arity : Procedure → Arity
  | add | multiply | list | and | or => .atLeast 0
  | subtract | divide => .atLeast 1
  | equal | less | greater | cons => .exactly 2
  | car | cdr | isNull | isNumber | isBoolean | isString | isSymbol | not => .exactly 1

/-- The procedure of a given name. -/
def ofName? (name : String) : Option Procedure :=
  all.find? (·.name = name)

theorem mem_all (p : Procedure) : p ∈ all := by
  cases p <;> decide

@[simp]
theorem ofName?_name (p : Procedure) : ofName? p.name = some p := by
  cases p <;> rfl

theorem name_injective {p q : Procedure} (h : p.name = q.name) : p = q := by
  simpa using congrArg ofName? h

end Procedure

end SmallScheme
