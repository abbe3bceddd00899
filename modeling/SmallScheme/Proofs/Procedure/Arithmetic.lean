import SmallScheme.Proofs.Number.Arithmetic
import SmallScheme.Proofs.Procedure.Discipline

/-!
# Arithmetic in one go and in two

Arithmetic folds its arguments from the left, so it can be interrupted: what has been made of the
first arguments can be folded on with the others. To call the procedure again for these is almost
that. `-` and `/` start from their first argument, which is then what has been made so far. `+` and
`*` start from `0` and `1` once more, and that changes nothing: products do not see a factor `1`,
and a sum that started from `0` is never `-0`, the one number that does not survive the addition of
`0`.

## Main results

* `Procedure.fold_append`: a fold over all arguments is a fold over the first that goes on with the
  others.
* `Procedure.apply_append`: arithmetic in one go is arithmetic in two.
* `Procedure.apply_leftmost`: the leftmost argument that is no number is reported.
-/

namespace SmallScheme.Procedure

variable {p : Procedure}

/-- `Procedure.fold` checks the first argument, takes it in, and goes on with the others. -/
theorem fold_cons (p : Procedure) (op : Number → Number → Number) (start : Number) (arg : Value)
    (args : List Value) :
    p.fold op start (arg :: args) = (p.number? arg).bind fun x => p.fold op (op start x) args := by
  rw [fold_eq, numbers?_cons]
  cases p.number? arg with
  | error e => rfl
  | ok x =>
      change ((p.numbers? args).bind fun xs => .ok (x :: xs)).bind _ = p.fold op (op start x) args
      rw [fold_eq]
      cases p.numbers? args with
      | error e => rfl
      | ok xs => rfl

/-- **`Procedure.fold` can be interrupted**: over arguments in two groups, it goes on from what the
first group makes. -/
theorem fold_append (p : Procedure) (op : Number → Number → Number) (start : Number)
    (args more : List Value) :
    p.fold op start (args ++ more) =
      (p.fold op start args).bind fun value =>
        (p.number? value).bind fun x => p.fold op x more := by
  induction args generalizing start with
  | nil => rfl
  | cons arg args ih =>
      rw [List.cons_append, fold_cons, fold_cons]
      cases p.number? arg with
      | error e => rfl
      | ok x => exact ih (op start x)

/-- A `Procedure.fold` over arguments in two groups can start from the beginning for the second
group, if that changes nothing about what the first group makes. -/
theorem fold_again {op : Number → Number → Number} {start : Number}
    (again : ∀ xs : List Number, op start (xs.foldl op start) = xs.foldl op start)
    (args more : List Value) :
    ((p.fold op start args).bind fun value => p.fold op start (value :: more)) =
      p.fold op start (args ++ more) := by
  rw [fold_append, fold_eq p op start args]
  cases p.numbers? args with
  | error e => rfl
  | ok xs =>
      change p.fold op start (.number (xs.foldl op start) :: more) =
        p.fold op (xs.foldl op start) more
      rw [fold_cons]
      exact congrArg (p.fold op · more) (again xs)

/-- A fold that starts from its first argument, over arguments in two groups, can start for the
second group from what the first group makes. -/
theorem fold_first_again (op : Number → Number → Number) (first : Value) (args more : List Value) :
    (((p.number? first).bind fun x => p.fold op x args).bind fun value =>
        (p.number? value).bind fun x => p.fold op x more) =
      (p.number? first).bind fun x => p.fold op x (args ++ more) := by
  cases p.number? first with
  | error e => rfl
  | ok x => exact (fold_append p op x args more).symm

/-- The procedures of arithmetic. -/
def arithmetic : List Procedure :=
  [add, subtract, multiply, divide]

/-- **An arithmetic procedure, applied to arguments in two groups, can be applied to the first group
alone and then to the result and the second group**, if it accepts the number of arguments in the
first. -/
theorem apply_append (member : p ∈ arithmetic) {args : List Value}
    (right : p.arity.accepts args.length = true) (more : List Value) :
    ((p.apply args).bind fun value => p.apply (value :: more)) = p.apply (args ++ more) := by
  cases p with
  | add => exact fold_again Number.zero_add_foldl args more
  | multiply => exact fold_again (fun xs => Number.one_mul_eq _) args more
  | subtract =>
      obtain ⟨first, others, rfl⟩ := Arity.exists_of_atLeast_one right
      exact fold_first_again (· - ·) first others more
  | divide =>
      obtain ⟨first, others, rfl⟩ := Arity.exists_of_atLeast_one right
      exact fold_first_again (· / ·) first others more
  | _ => simp [arithmetic] at member

/-! ### Numbers and other arguments -/

/-- The procedures of arithmetic demand numbers and yield a number. -/
theorem numbers_of_mem_arithmetic (member : p ∈ arithmetic) :
    p.demand = .numbers ∧
      ∀ {args : List Value} {value : Value}, p.Yields args value → value.typeName = "NUMBER" := by
  cases p with
  | add => exact ⟨rfl, id⟩
  | subtract => exact ⟨rfl, id⟩
  | multiply => exact ⟨rfl, id⟩
  | divide => exact ⟨rfl, id⟩
  | _ => simp [arithmetic] at member

/-- The procedures of arithmetic accept any number of arguments, but `-` and `/` need one. -/
theorem accepts_of_mem_arithmetic (member : p ∈ arithmetic) {got : Nat}
    (enough : 0 < got ∨ p = add ∨ p = multiply) : p.arity.accepts got = true := by
  cases p <;> simp [arithmetic, arity, Arity.accepts] at member enough ⊢ <;> omega

/-- The values of type `NUMBER` are the numbers. -/
theorem typeName_eq_number_iff {value : Value} :
    value.typeName = "NUMBER" ↔ ∃ x, value = .number x := by
  cases value <;> simp [Value.typeName]

/-- Numbers have no misfit for the demand of numbers. -/
theorem misfit?_of_numbers {args : List Value} (numbers : ∀ arg ∈ args, ∃ x, arg = .number x) :
    Demand.numbers.misfit? args = none := by
  refine List.find?_eq_none.2 fun arg member => ?_
  rw [typeName_eq_number_iff.2 (numbers arg member)]
  decide

/-- **An arithmetic procedure makes a number of a right number of numbers.** -/
theorem exists_apply_eq_number (member : p ∈ arithmetic) {args : List Value}
    (right : p.arity.accepts args.length = true) (numbers : ∀ arg ∈ args, ∃ x, arg = .number x) :
    ∃ x, p.apply args = .ok (.number x) := by
  obtain ⟨asksNumbers, makesNumber⟩ := numbers_of_mem_arithmetic member
  have something : ¬ p.FindsNothing args := by
    rintro ⟨rfl, -⟩
    cases asksNumbers
  rcases checks_apply right something with ⟨misfit, isMisfit, -⟩ | ⟨-, value, isResult, yields⟩
  · rw [asksNumbers, misfit?_of_numbers numbers] at isMisfit
    cases isMisfit
  · obtain ⟨x, rfl⟩ := typeName_eq_number_iff.1 (makesNumber yields)
    exact ⟨x, isResult⟩

/-- **An arithmetic procedure reports the leftmost argument that is no number**, whatever stands
behind it. -/
theorem apply_leftmost (member : p ∈ arithmetic) {before : List Value} {misfit : Value}
    (numbers : ∀ value ∈ before, ∃ x, value = .number x) (noNumber : ∀ x, misfit ≠ .number x)
    (after : List Value) :
    p.apply (before ++ misfit :: after) =
      .error (.unsupportedArgType p.name misfit.typeName) := by
  have right : p.arity.accepts (before ++ misfit :: after).length = true :=
    accepts_of_mem_arithmetic member (Or.inl (by simp))
  have isMisfit : Demand.numbers.misfit? (before ++ misfit :: after) = some misfit := by
    have wrongType : (misfit.typeName != "NUMBER") = true := by
      rw [bne_iff_ne]
      intro isNumber
      obtain ⟨x, same⟩ := typeName_eq_number_iff.1 isNumber
      exact noNumber x same
    rw [Demand.misfit?, List.find?_append, ← Demand.misfit?, misfit?_of_numbers numbers,
      Option.none_or, List.find?_cons, wrongType]
  rw [← (numbers_of_mem_arithmetic member).1] at isMisfit
  exact apply_eq_unsupportedArgType_iff.2 ⟨right, rfl, misfit, isMisfit, rfl⟩

end SmallScheme.Procedure
