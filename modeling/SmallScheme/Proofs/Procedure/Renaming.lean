import SmallScheme.Proofs.Procedure.Rules
import SmallScheme.Proofs.Value.Renaming

/-!
# Procedures and renaming

No procedure looks into the name of a symbol but to compare it with another one, and none reports
an undefined symbol. So a procedure makes of renamed arguments what it makes of the arguments,
renamed (`Procedure.apply_rename`).
-/

namespace SmallScheme.Procedure

variable {r : String → String}

/-- `Procedure.number?` of a renamed value is the same number, or the same error. -/
theorem number?_rename (p : Procedure) (value : Value) :
    p.number? (value.rename r) = renameResult r id (p.number? value) := by
  cases value <;> rfl

/-- `Procedure.items?` commutes with renaming. -/
theorem items?_rename (p : Procedure) (value : Value) :
    p.items? (value.rename r) = renameResult r (Value.renameAll r) (p.items? value) := by
  cases value <;> rfl

/-- `Procedure.numbers?` of renamed values are the same numbers, or the same error. -/
theorem numbers?_rename (p : Procedure) (args : List Value) :
    p.numbers? (Value.renameAll r args) = renameResult r id (p.numbers? args) := by
  induction args with
  | nil => rfl
  | cons arg args ih =>
      rw [Value.renameAll, numbers?_cons, numbers?_cons, number?_rename, ih]
      exact renameResult_bind fun x => renameResult_bind fun xs => rfl

/-- `Procedure.fold` commutes with renaming. -/
theorem fold_rename (p : Procedure) (op : Number → Number → Number) (start : Number)
    (args : List Value) :
    p.fold op start (Value.renameAll r args) =
      renameResult r (Value.rename r) (p.fold op start args) := by
  rw [fold_eq, fold_eq, numbers?_rename]
  exact renameResult_bind fun xs => rfl

/-- `Procedure.fold` from a first argument on commutes with renaming. -/
theorem fold_first_rename (p : Procedure) (op : Number → Number → Number) (first : Value)
    (args : List Value) :
    ((p.number? (first.rename r)).bind fun x => p.fold op x (Value.renameAll r args)) =
      renameResult r (Value.rename r) ((p.number? first).bind fun x => p.fold op x args) := by
  rw [number?_rename]
  exact renameResult_bind fun x => fold_rename p op x args

/-- Renaming does not change a boolean answer. -/
theorem answer_rename {yes yes' : Bool} (same : yes = yes') :
    (Except.ok (.boolean yes) : Except EvalError Value) =
      renameResult r (Value.rename r) (.ok (.boolean yes')) := by
  rw [same]
  rfl

/-- `Procedure.compare` commutes with renaming. -/
theorem compare_rename (p : Procedure) (numbers : Number → Number → Bool)
    (strings : String → String → Bool) (x y : Value) :
    p.compare numbers strings (x.rename r) (y.rename r) =
      renameResult r (Value.rename r) (p.compare numbers strings x y) := by
  cases x with
  | number _ => cases y <;> rfl
  | string _ => cases y <;> rfl
  | _ => rfl

/-- `construct` commutes with renaming. -/
theorem construct_rename (first second : Value) :
    construct (first.rename r) (second.rename r) = (construct first second).rename r := by
  cases second <;> rfl

/-- Renaming does not change whether a value is the empty list. -/
theorem isEmptyList_rename (value : Value) : isEmptyList (value.rename r) = isEmptyList value := by
  cases value with
  | list items => cases items <;> rfl
  | _ => rfl

/-- Renaming does not change whether a value passes for a symbol. -/
theorem passesForSymbol_rename (value : Value) :
    passesForSymbol (value.rename r) = passesForSymbol value := by
  cases value <;> rfl

/-- Renaming does not change whether all of several values are true. -/
theorem all_isTrue_renameAll (args : List Value) :
    (Value.renameAll r args).all Value.isTrue = args.all Value.isTrue := by
  rw [Value.renameAll_eq_map, List.all_map, Value.isTrue_comp_rename]

/-- Renaming does not change whether one of several values is true. -/
theorem any_isTrue_renameAll (args : List Value) :
    (Value.renameAll r args).any Value.isTrue = args.any Value.isTrue := by
  rw [Value.renameAll_eq_map, List.any_map, Value.isTrue_comp_rename]

/-- **`Procedure.apply` commutes with renaming**, if no two names become one. -/
theorem apply_rename (injective : Function.Injective r) (p : Procedure) (args : List Value) :
    p.apply (Value.renameAll r args) = renameResult r (Value.rename r) (p.apply args) := by
  cases right : p.arity.accepts args.length with
  | false =>
      have wrong : p.arity.accepts (Value.renameAll r args).length = false := by
        rwa [Value.renameAll_eq_map, List.length_map]
      rw [apply_of_not_accepts right, apply_of_not_accepts wrong, Value.renameAll_eq_map,
        List.length_map]
      rfl
  | true =>
      cases p with
      | add => exact fold_rename add (· + ·) 0 args
      | multiply => exact fold_rename multiply (· * ·) 1 args
      | subtract =>
          obtain ⟨first, others, rfl⟩ := Arity.exists_of_atLeast_one right
          exact fold_first_rename subtract (· - ·) first others
      | divide =>
          obtain ⟨first, others, rfl⟩ := Arity.exists_of_atLeast_one right
          exact fold_first_rename divide (· / ·) first others
      | equal =>
          obtain ⟨x, y, rfl⟩ := Arity.exists_of_exactly_two right
          exact answer_rename (Value.beq_rename injective x y)
      | less =>
          obtain ⟨x, y, rfl⟩ := Arity.exists_of_exactly_two right
          exact compare_rename less (· < ·) (· < ·) x y
      | greater =>
          obtain ⟨x, y, rfl⟩ := Arity.exists_of_exactly_two right
          exact compare_rename greater (· > ·) (· > ·) x y
      | cons =>
          obtain ⟨x, y, rfl⟩ := Arity.exists_of_exactly_two right
          exact congrArg Except.ok (construct_rename x y)
      | car =>
          obtain ⟨x, rfl⟩ := Arity.exists_of_exactly_one right
          change ((items? car (x.rename r)).bind _) =
            renameResult r (Value.rename r) ((items? car x).bind _)
          rw [items?_rename]
          refine renameResult_bind fun items => ?_
          cases items <;> rfl
      | cdr =>
          obtain ⟨x, rfl⟩ := Arity.exists_of_exactly_one right
          change ((items? cdr (x.rename r)).bind _) =
            renameResult r (Value.rename r) ((items? cdr x).bind _)
          rw [items?_rename]
          refine renameResult_bind fun items => ?_
          cases items <;> rfl
      | list => rfl
      | isNull =>
          obtain ⟨x, rfl⟩ := Arity.exists_of_exactly_one right
          exact answer_rename (isEmptyList_rename x)
      | isNumber =>
          obtain ⟨x, rfl⟩ := Arity.exists_of_exactly_one right
          cases x <;> rfl
      | isBoolean =>
          obtain ⟨x, rfl⟩ := Arity.exists_of_exactly_one right
          cases x <;> rfl
      | isString =>
          obtain ⟨x, rfl⟩ := Arity.exists_of_exactly_one right
          cases x <;> rfl
      | isSymbol =>
          obtain ⟨x, rfl⟩ := Arity.exists_of_exactly_one right
          exact answer_rename (passesForSymbol_rename x)
      | not =>
          obtain ⟨x, rfl⟩ := Arity.exists_of_exactly_one right
          exact answer_rename (congrArg (fun isTrue => !isTrue x) (Value.isTrue_comp_rename r))
      | and => exact answer_rename (all_isTrue_renameAll args)
      | or => exact answer_rename (any_isTrue_renameAll args)

end SmallScheme.Procedure
