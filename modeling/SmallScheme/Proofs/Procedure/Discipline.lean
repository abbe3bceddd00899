import SmallScheme.Proofs.Procedure.Rules

/-!
# What procedures take and what they give

A procedure is particular about the number of its arguments, then about their types, and `car` about
whether there is anything in its list. If there is nothing to complain of, it has a result.

What it asks of the types of a right number of arguments is its demand (`Procedure.demand`), and an
argument that does not meet the demand is a misfit (`Demand.misfit?`). The computations that look at
the arguments one by one are put together of checks that fail by their misfit
(`Procedure.Checks`), and the misfit of the whole is that of the first check that has one.

## Main results

* `Procedure.checks_apply`: a right number of arguments is refused by its misfit alone, but for the
  first item of an empty list, and the type of a result goes with the procedure.
* `Procedure.apply_discipline`: all that a procedure reports, and when, and that it has a result if
  it reports nothing.
-/

namespace SmallScheme

/-! ### What is asked of the arguments -/

/-- What is asked of a right number of arguments. -/
inductive Demand where
  | anything
  | numbers
  /-- Two numbers or two strings. -/
  | ordered
  | list
deriving DecidableEq

/-- The argument that does not meet a demand, if any: the first that is no number or no list; and of
two that are to be compared the first if it is neither number nor string, and else the second if it
is not of the same type. -/
def Demand.misfit? : Demand → List Value → Option Value
  | anything, _ => none
  | numbers, args => args.find? (·.typeName != "NUMBER")
  | list, args => args.find? (·.typeName != "LIST")
  | ordered, [x, y] =>
    if x.typeName ≠ "NUMBER" ∧ x.typeName ≠ "STRING" then some x
    else if y.typeName ≠ x.typeName then some y
    else none
  | ordered, _ => none

namespace Procedure

/-- What a procedure asks of its arguments, their number aside. -/
def demand : Procedure → Demand
  | add | subtract | multiply | divide => .numbers
  | less | greater => .ordered
  | car | cdr => .list
  | equal | cons | list | isNull | isNumber | isBoolean | isString | isSymbol | not | and | or =>
    .anything

/-- Whether a procedure is asked for the first item of a list that has none. -/
def FindsNothing (p : Procedure) (args : List Value) : Prop :=
  p = car ∧ args = [.list []]

/-- What the result of a procedure is like. -/
def Yields (p : Procedure) (args : List Value) (result : Value) : Prop :=
  match p with
  | add | subtract | multiply | divide => result.typeName = "NUMBER"
  | cons | cdr | list => result.typeName = "LIST"
  | car => ∃ others, args = [.list (result :: others)]
  | equal | less | greater | isNull | isNumber | isBoolean | isString | isSymbol | not | and | or =>
    result.typeName = "BOOLEAN"

/-! ### Checks -/

/-- Whether a computation is refused by a misfit if there is one, and has a result with a property
if there is none. -/
def Checks {α : Type} (p : Procedure) (misfit : Option Value) (good : α → Prop)
    (result : Except EvalError α) : Prop :=
  (∃ value, misfit = some value ∧ result = .error (.unsupportedArgType p.name value.typeName)) ∨
    misfit = none ∧ ∃ a, result = .ok a ∧ good a

variable {p : Procedure} {args : List Value} {value : Value}

section

variable {α β : Type} {misfit misfit' : Option Value} {good : α → Prop} {good' : β → Prop}
  {result : Except EvalError α}

/-- A result without anything to check passes the check for no misfit. -/
theorem checks_ok {a : α} (isGood : good a) : p.Checks none good (.ok a) :=
  Or.inr ⟨rfl, a, rfl, isGood⟩

/-- The error that reports a value by its type passes the check for that misfit. -/
theorem checks_error : p.Checks (some value) good
    (.error (.unsupportedArgType p.name value.typeName)) :=
  Or.inl ⟨value, rfl, rfl⟩

/-- Two computations that pass their checks, one after the other, pass the check for the first
misfit that there is. -/
theorem Checks.bind {f : α → Except EvalError β} (first : p.Checks misfit good result)
    (second : ∀ a, good a → p.Checks misfit' good' (f a)) :
    p.Checks (misfit.or misfit') good' (result.bind f) := by
  rcases first with ⟨value, rfl, rfl⟩ | ⟨rfl, a, rfl, isGood⟩
  · rw [Option.some_or]
    exact checks_error
  · rw [Option.none_or]
    exact second a isGood

/-- A computation that passes a check passes it with anything further made of its result. -/
theorem Checks.map {f : α → β} (first : p.Checks misfit good result)
    (makes : ∀ a, good a → good' (f a)) :
    p.Checks misfit good' (result.bind fun a => .ok (f a)) := by
  have both := first.bind fun a isGood => checks_ok (p := p) (makes a isGood)
  rwa [Option.or_none] at both

end

/-- `Procedure.number?` checks that its argument is a number. -/
theorem checks_number? (p : Procedure) (arg : Value) :
    p.Checks (Demand.numbers.misfit? [arg]) (fun _ => True) (p.number? arg) := by
  cases arg with
  | number x => exact checks_ok trivial
  | _ => exact checks_error

/-- The misfit among arguments that should be numbers is the first one, or else the misfit among the
others. -/
theorem misfit?_numbers_cons (arg : Value) (args : List Value) :
    Demand.numbers.misfit? (arg :: args) =
      (Demand.numbers.misfit? [arg]).or (Demand.numbers.misfit? args) := by
  have split : arg :: args = [arg] ++ args := rfl
  rw [split]
  exact List.find?_append

/-- `Procedure.numbers?` checks that all of its arguments are numbers. -/
theorem checks_numbers? (p : Procedure) (args : List Value) :
    p.Checks (Demand.numbers.misfit? args) (fun _ => True) (p.numbers? args) := by
  induction args with
  | nil => exact checks_ok trivial
  | cons arg args ih =>
      rw [numbers?_cons, misfit?_numbers_cons]
      exact (checks_number? p arg).bind fun x _ => ih.map fun xs _ => trivial

/-- `Procedure.fold` checks that its arguments are numbers and yields a number. -/
theorem checks_fold (p : Procedure) (op : Number → Number → Number) (start : Number)
    (args : List Value) :
    p.Checks (Demand.numbers.misfit? args) (·.typeName = "NUMBER") (p.fold op start args) := by
  rw [fold_eq]
  exact (checks_numbers? p args).map fun xs _ => rfl

/-- `Procedure.fold` from a first argument on checks that this one and the others are numbers and
yields a number. -/
theorem checks_fold_first (p : Procedure) (op : Number → Number → Number) (first : Value)
    (others : List Value) :
    p.Checks (Demand.numbers.misfit? (first :: others)) (·.typeName = "NUMBER")
      ((p.number? first).bind fun start => p.fold op start others) := by
  rw [misfit?_numbers_cons]
  exact (checks_number? p first).bind fun start _ => checks_fold p op start others

/-- `Procedure.compare` checks that its arguments can be compared and yields a boolean. -/
theorem checks_compare (p : Procedure) (numbers : Number → Number → Bool)
    (strings : String → String → Bool) (x y : Value) :
    p.Checks (Demand.ordered.misfit? [x, y]) (·.typeName = "BOOLEAN")
      (p.compare numbers strings x y) := by
  cases x with
  | number a =>
      cases y with
      | number b => exact checks_ok rfl
      | _ => exact checks_error
  | string s =>
      cases y with
      | string t => exact checks_ok rfl
      | _ => exact checks_error
  | _ => exact checks_error

/-- `Procedure.items?` checks that its argument is a list. -/
theorem checks_items? (p : Procedure) (arg : Value) :
    p.Checks (Demand.list.misfit? [arg]) (fun _ => True) (p.items? arg) := by
  cases arg with
  | list items => exact checks_ok trivial
  | _ => exact checks_error

/-- `construct` makes a list. -/
theorem typeName_construct (first other : Value) : (construct first other).typeName = "LIST" := by
  cases other <;> rfl

/-- **`Procedure.apply` of a right number of arguments checks them by the procedure's demand and
yields what the procedure yields**, unless it finds nothing. -/
theorem checks_apply (right : p.arity.accepts args.length = true)
    (something : ¬ p.FindsNothing args) :
    p.Checks (p.demand.misfit? args) (p.Yields args) (p.apply args) := by
  cases p with
  | add => exact checks_fold _ _ _ args
  | multiply => exact checks_fold _ _ _ args
  | subtract =>
      obtain ⟨first, others, rfl⟩ := Arity.exists_of_atLeast_one right
      exact checks_fold_first _ _ first others
  | divide =>
      obtain ⟨first, others, rfl⟩ := Arity.exists_of_atLeast_one right
      exact checks_fold_first _ _ first others
  | less =>
      obtain ⟨x, y, rfl⟩ := Arity.exists_of_exactly_two right
      exact checks_compare _ _ _ x y
  | greater =>
      obtain ⟨x, y, rfl⟩ := Arity.exists_of_exactly_two right
      exact checks_compare _ _ _ x y
  | car =>
      obtain ⟨x, rfl⟩ := Arity.exists_of_exactly_one right
      cases x with
      | list items =>
          cases items with
          | nil => exact absurd ⟨rfl, rfl⟩ something
          | cons first others => exact checks_ok ⟨others, rfl⟩
      | _ => exact checks_error
  | cdr =>
      obtain ⟨x, rfl⟩ := Arity.exists_of_exactly_one right
      exact (checks_items? _ x).map fun items _ => rfl
  -- the others take anything
  | equal =>
      obtain ⟨x, y, rfl⟩ := Arity.exists_of_exactly_two right
      exact checks_ok rfl
  | cons =>
      obtain ⟨x, y, rfl⟩ := Arity.exists_of_exactly_two right
      exact checks_ok (typeName_construct x y)
  | list => exact checks_ok rfl
  | and => exact checks_ok rfl
  | or => exact checks_ok rfl
  | _ =>
      obtain ⟨x, rfl⟩ := Arity.exists_of_exactly_one right
      exact checks_ok rfl

/-! ### How an application ends -/

/-- How the application of a procedure ends. -/
inductive Ends (p : Procedure) (args : List Value) : Except EvalError Value → Prop
  /-- A wrong number of arguments comes before anything else. -/
  | wrongNumber : p.arity.accepts args.length = false →
      Ends p args (.error (.incorrectArity p.name args.length p.arity))
  | misfit {value : Value} : p.arity.accepts args.length = true →
      p.demand.misfit? args = some value →
      Ends p args (.error (.unsupportedArgType p.name value.typeName))
  | nothing : p.FindsNothing args → Ends p args (.error (.emptyList p.name))
  | result {value : Value} : p.arity.accepts args.length = true → p.demand.misfit? args = none →
      ¬ p.FindsNothing args → p.Yields args value → Ends p args (.ok value)

/-- Every `Procedure.apply` ends in one of the ways that `Ends` lists. -/
theorem ends_apply (p : Procedure) (args : List Value) : Ends p args (p.apply args) := by
  cases right : p.arity.accepts args.length with
  | false =>
      rw [apply_of_not_accepts right]
      exact .wrongNumber right
  | true =>
      by_cases nothing : p.FindsNothing args
      · obtain ⟨rfl, rfl⟩ := nothing
        exact .nothing ⟨rfl, rfl⟩
      · rcases checks_apply right nothing with
          ⟨value, isMisfit, refused⟩ | ⟨none, value, isResult, yields⟩
        · rw [refused]
          exact .misfit right isMisfit
        · rw [isResult]
          exact .result right none nothing yields

/-- A procedure that finds nothing has a right number of arguments and no misfit among them. -/
theorem FindsNothing.fits (nothing : p.FindsNothing args) :
    p.arity.accepts args.length = true ∧ p.demand.misfit? args = none := by
  obtain ⟨rfl, rfl⟩ := nothing
  exact ⟨rfl, rfl⟩

/-- `Procedure.apply` reports a wrong number of arguments exactly when the procedure does not accept
their number. -/
theorem apply_eq_incorrectArity_iff {name : String} {got : Nat} {want : Arity} :
    p.apply args = .error (.incorrectArity name got want) ↔
      p.arity.accepts args.length = false ∧
        name = p.name ∧ got = args.length ∧ want = p.arity := by
  constructor
  · intro h
    have ends := ends_apply p args
    rw [h] at ends
    cases ends with
    | wrongNumber wrong => exact ⟨wrong, rfl, rfl, rfl⟩
  · rintro ⟨wrong, rfl, rfl, rfl⟩
    exact apply_of_not_accepts wrong

/-- `Procedure.apply` reports the type of an argument exactly when the number of arguments is right
and this one is their misfit. -/
theorem apply_eq_unsupportedArgType_iff {name type : String} :
    p.apply args = .error (.unsupportedArgType name type) ↔
      p.arity.accepts args.length = true ∧ name = p.name ∧
        ∃ value, p.demand.misfit? args = some value ∧ type = value.typeName := by
  constructor
  · intro h
    have ends := ends_apply p args
    rw [h] at ends
    cases ends with
    | misfit right isMisfit => exact ⟨right, rfl, _, isMisfit, rfl⟩
  · rintro ⟨right, rfl, value, isMisfit, rfl⟩
    have something : ¬ p.FindsNothing args := by
      intro nothing
      rw [nothing.fits.2] at isMisfit
      cases isMisfit
    rcases checks_apply right something with ⟨other, alsoMisfit, refused⟩ | ⟨none, -⟩
    · cases isMisfit.symm.trans alsoMisfit
      exact refused
    · cases isMisfit.symm.trans none

/-- `Procedure.apply` reports an empty list exactly when the procedure finds nothing. -/
theorem apply_eq_emptyList_iff {name : String} :
    p.apply args = .error (.emptyList name) ↔ p.FindsNothing args ∧ name = p.name := by
  constructor
  · intro h
    have ends := ends_apply p args
    rw [h] at ends
    cases ends with
    | nothing isEmpty => exact ⟨isEmpty, rfl⟩
  · rintro ⟨⟨rfl, rfl⟩, rfl⟩
    rfl

/-- `Procedure.apply` has a result exactly when the number of arguments is right, there is no misfit
among them, and the procedure finds something. -/
theorem exists_apply_eq_ok_iff :
    (∃ value, p.apply args = .ok value) ↔
      p.arity.accepts args.length = true ∧ p.demand.misfit? args = none ∧
        ¬ p.FindsNothing args := by
  constructor
  · rintro ⟨value, h⟩
    have ends := ends_apply p args
    rw [h] at ends
    cases ends with
    | result right none something _ => exact ⟨right, none, something⟩
  · rintro ⟨right, none, something⟩
    rcases checks_apply right something with ⟨value, isMisfit, -⟩ | ⟨-, value, isResult, -⟩
    · cases none.symm.trans isMisfit
    · exact ⟨value, isResult⟩

/-- The numbers of arguments that each procedure accepts, by the names of the procedures. -/
theorem accepts_iff (p : Procedure) (got : Nat) :
    p.arity.accepts got = true ↔
      (p.name ∈ ["=", "<", ">", "cons"] → got = 2) ∧
      (p.name ∈ ["car", "cdr", "null?", "number?", "boolean?", "string?", "symbol?", "not"] →
        got = 1) ∧
      (p.name ∈ ["-", "/"] → 1 ≤ got) := by
  cases p <;> simp [arity, Arity.accepts, name]

/-- `Procedure.ofName?` finds for each name the one procedure that has it. -/
theorem ofName?_eq_some_iff {entry : String} : ofName? entry = some p ↔ p.name = entry := by
  constructor
  · intro found
    have named := List.find?_some found
    exact of_decide_eq_true named
  · rintro rfl
    exact ofName?_name p

/-- **What procedures take and give.** Each procedure of the table, given any arguments, first
reports a wrong number of them, whatever they are, then the type of the argument that does not fit,
and last that there is no first item. It reports this under its own name in the table. If there is
nothing to report it has a result, of the type that goes with the procedure. -/
theorem apply_discipline :
    (∀ (entry : String) (p : Procedure), ofName? entry = some p ↔ p.name = entry) ∧
    (∀ (p : Procedure) (got : Nat), p.arity.accepts got = true ↔
      (p.name ∈ ["=", "<", ">", "cons"] → got = 2) ∧
      (p.name ∈ ["car", "cdr", "null?", "number?", "boolean?", "string?", "symbol?", "not"] →
        got = 1) ∧
      (p.name ∈ ["-", "/"] → 1 ≤ got)) ∧
    ∀ (p : Procedure) (args : List Value),
      (∀ (name : String) (got : Nat) (want : Arity),
        p.apply args = .error (.incorrectArity name got want) ↔
          p.arity.accepts args.length = false ∧
            name = p.name ∧ got = args.length ∧ want = p.arity) ∧
      (∀ name type : String, p.apply args = .error (.unsupportedArgType name type) ↔
        p.arity.accepts args.length = true ∧ name = p.name ∧
          ∃ value, p.demand.misfit? args = some value ∧ type = value.typeName) ∧
      (∀ name : String, p.apply args = .error (.emptyList name) ↔
        p.FindsNothing args ∧ name = p.name) ∧
      ((∃ value, p.apply args = .ok value) ↔
        p.arity.accepts args.length = true ∧ p.demand.misfit? args = none ∧
          ¬ p.FindsNothing args) ∧
      ∀ value, p.apply args = .ok value → p.Yields args value := by
  refine ⟨fun entry p => ofName?_eq_some_iff, accepts_iff, fun p args => ⟨fun name got want => ?_,
    fun name type => ?_, fun name => ?_, exists_apply_eq_ok_iff, fun value isResult => ?_⟩⟩
  · exact apply_eq_incorrectArity_iff
  · exact apply_eq_unsupportedArgType_iff
  · exact apply_eq_emptyList_iff
  · have ends := ends_apply p args
    rw [isResult] at ends
    cases ends with
    | result _ _ _ yields => exact yields

/-- A list among the arguments of a subtraction, and behind it another value that is no number. -/
def listFirst : List Value :=
  [.number 1, .list [], .boolean true]

/-- Of the arguments `listFirst`, `-` reports the list. Of a symbol and a number, `<` reports the
symbol; it takes no third argument, whatever the others are. A form that is a list is no list to
`car`, which has nothing to take from a list without items and else takes its first item. -/
theorem apply_discipline_listFirst :
    subtract.apply listFirst = .error (.unsupportedArgType "-" "LIST") ∧
      less.apply [.symbol "x", .number 1] = .error (.unsupportedArgType "<" "SYMBOL") ∧
      less.apply listFirst = .error (.incorrectArity "<" 3 (.exactly 2)) ∧
      car.apply [.form (.list [.number 1])] = .error (.unsupportedArgType "car" "SYNTAX") ∧
      car.apply [.list []] = .error (.emptyList "car") ∧
      (∃ value, car.apply [.list listFirst] = .ok value) ∧
      car.Yields [.list listFirst] (.number 1) := by
  obtain ⟨-, -, each⟩ := apply_discipline
  obtain ⟨-, subtracts, -⟩ := each subtract listFirst
  obtain ⟨-, ordersTwo, -⟩ := each less [.symbol "x", .number 1]
  obtain ⟨ordersThree, -⟩ := each less listFirst
  obtain ⟨-, takesForm, -⟩ := each car [.form (.list [.number 1])]
  obtain ⟨-, -, takesNothing, -⟩ := each car [.list []]
  obtain ⟨-, -, -, takes, yields⟩ := each car [.list listFirst]
  exact ⟨(subtracts _ _).2 ⟨rfl, rfl, .list [], rfl, rfl⟩,
    (ordersTwo _ _).2 ⟨rfl, rfl, .symbol "x", rfl, rfl⟩,
    (ordersThree _ _ _).2 ⟨rfl, rfl, rfl, rfl⟩,
    (takesForm _ _).2 ⟨rfl, rfl, .form (.list [.number 1]), rfl, rfl⟩,
    (takesNothing _).2 ⟨⟨rfl, rfl⟩, rfl⟩, takes.2 ⟨rfl, rfl, by simp [FindsNothing, listFirst]⟩,
    yields (.number 1) rfl⟩

end Procedure

end SmallScheme
