import SmallScheme.Proofs.Procedure.Rules
import SmallScheme.Proofs.Value.Parts

/-!
# What procedures make their results of

Procedures compute numbers and booleans, build lists and take them apart. They make nothing else:
the other parts of a result are parts of the arguments (`Procedure.madeOf_apply`). None of them
looks into a form.
-/

namespace SmallScheme.Procedure

open Value (MadeOf madeOf_number madeOf_boolean madeOf_of_mem madeOf_list)

variable {p : Procedure} {args : List Value} {value : Value}

/-- A value of `Procedure.fold` is made of any arguments, since it is a number. -/
theorem madeOf_fold {op : Number → Number → Number} {start : Number} {operands : List Value}
    (h : p.fold op start operands = .ok value) : MadeOf args value := by
  rw [fold_eq] at h
  obtain ⟨xs, -, isNumber⟩ := bind_eq_ok h
  cases isNumber
  exact madeOf_number args _

/-- A value of `Procedure.fold` from a first argument on is made of any arguments, since it is a
number. -/
theorem madeOf_fold_first {op : Number → Number → Number} {first : Value} {others : List Value}
    (h : ((p.number? first).bind fun start => p.fold op start others) = .ok value) :
    MadeOf args value := by
  obtain ⟨start, -, folded⟩ := bind_eq_ok h
  exact madeOf_fold folded

/-- A value of `Procedure.compare` is made of any arguments, since it is a boolean. -/
theorem madeOf_compare {numbers : Number → Number → Bool} {strings : String → String → Bool}
    {x y : Value} (h : p.compare numbers strings x y = .ok value) : MadeOf args value := by
  unfold compare at h
  split at h <;> cases h
  · exact madeOf_boolean args _
  · exact madeOf_boolean args _

/-- `Procedure.items?` finds items in a list only, and all of them. -/
theorem items?_eq_ok {x : Value} {items : List Value} (h : p.items? x = .ok items) :
    x = .list items := by
  unfold items? at h
  split at h <;> cases h
  rfl

/-- `construct` of two values that are made of some arguments is made of these. -/
theorem madeOf_construct {first other : Value} (madeFirst : MadeOf args first)
    (madeOther : MadeOf args other) : MadeOf args (construct first other) := by
  unfold construct
  split
  · next items =>
    refine madeOf_list (List.forall_mem_cons.2 ⟨madeFirst, fun item member => ?_⟩)
    exact madeOther.item member
  · refine madeOf_list (List.forall_mem_cons.2 ⟨madeFirst, ?_⟩)
    exact List.forall_mem_singleton.2 madeOther

/-- **A value of `Procedure.apply` is made of the arguments**: whatever part of it is no number, no
boolean and no list is a part of an argument. -/
theorem madeOf_apply (h : p.apply args = .ok value) : MadeOf args value := by
  cases right : p.arity.accepts args.length with
  | false =>
      rw [apply_of_not_accepts right] at h
      cases h
  | true =>
      cases p with
      | add => exact madeOf_fold h
      | multiply => exact madeOf_fold h
      | subtract =>
          obtain ⟨first, others, rfl⟩ := Arity.exists_of_atLeast_one right
          exact madeOf_fold_first h
      | divide =>
          obtain ⟨first, others, rfl⟩ := Arity.exists_of_atLeast_one right
          exact madeOf_fold_first h
      | equal =>
          obtain ⟨x, y, rfl⟩ := Arity.exists_of_exactly_two right
          cases h
          exact madeOf_boolean _ _
      | less =>
          obtain ⟨x, y, rfl⟩ := Arity.exists_of_exactly_two right
          exact madeOf_compare h
      | greater =>
          obtain ⟨x, y, rfl⟩ := Arity.exists_of_exactly_two right
          exact madeOf_compare h
      | cons =>
          obtain ⟨x, y, rfl⟩ := Arity.exists_of_exactly_two right
          cases h
          exact madeOf_construct (madeOf_of_mem (by simp)) (madeOf_of_mem (by simp))
      | car =>
          obtain ⟨x, rfl⟩ := Arity.exists_of_exactly_one right
          obtain ⟨items, hasItems, taken⟩ := bind_eq_ok h
          obtain rfl := items?_eq_ok hasItems
          cases items with
          | nil => cases taken
          | cons first others =>
              cases taken
              exact (madeOf_of_mem List.mem_cons_self).item List.mem_cons_self
      | cdr =>
          obtain ⟨x, rfl⟩ := Arity.exists_of_exactly_one right
          obtain ⟨items, hasItems, left⟩ := bind_eq_ok h
          obtain rfl := items?_eq_ok hasItems
          cases left
          refine madeOf_list fun item member => ?_
          exact (madeOf_of_mem List.mem_cons_self).item (List.mem_of_mem_drop member)
      | list =>
          cases h
          exact madeOf_list fun item member => madeOf_of_mem member
      | and =>
          cases h
          exact madeOf_boolean _ _
      | or =>
          cases h
          exact madeOf_boolean _ _
      | _ =>
          obtain ⟨x, rfl⟩ := Arity.exists_of_exactly_one right
          cases h
          exact madeOf_boolean _ _

end SmallScheme.Procedure
