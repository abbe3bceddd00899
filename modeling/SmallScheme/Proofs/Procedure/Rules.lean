import Mathlib.Data.List.Basic
import SmallScheme.Procedure.Apply

/-!
# The rules of procedures as equations

A right number of arguments fixes the shape of the argument list, and a wrong one is reported
whatever the arguments are (`Procedure.apply_of_not_accepts`). So what is to be shown of a
procedure applied to any arguments has to be shown only where their number is right. Arithmetic
looks at its arguments from left to right.

A procedure that fails reports the error under its own name (`Procedure.blames_apply`), so an
error never comes of a procedure that was not called, and the errors of evaluation itself are
none of any procedure.
-/

namespace SmallScheme

namespace Arity

variable {α : Type} {args : List α}

/-- Arguments that `Arity.exactly 1` accepts are a single one. -/
theorem exists_of_exactly_one (right : (exactly 1).accepts args.length = true) :
    ∃ x, args = [x] :=
  List.length_eq_one_iff.1 (of_decide_eq_true right)

/-- Arguments that `Arity.exactly 2` accepts are two. -/
theorem exists_of_exactly_two (right : (exactly 2).accepts args.length = true) :
    ∃ x y, args = [x, y] :=
  List.length_eq_two.1 (of_decide_eq_true right)

/-- Arguments that `Arity.atLeast 1` accepts are a first one and others. -/
theorem exists_of_atLeast_one (right : (atLeast 1).accepts args.length = true) :
    ∃ first others, args = first :: others :=
  List.exists_cons_of_length_pos (of_decide_eq_true right)

end Arity

namespace Procedure

/-- **`Procedure.apply` reports a wrong number of arguments whatever the arguments are.** -/
theorem apply_of_not_accepts {p : Procedure} {args : List Value}
    (wrong : p.arity.accepts args.length = false) :
    p.apply args = .error (.incorrectArity p.name args.length p.arity) := by
  unfold apply
  split
  -- the last branch is this error, and any other takes a number of arguments that is right
  all_goals first
    | rfl
    | exact absurd wrong (by simp [arity, Arity.accepts])

/-- `Procedure.numbers?` checks the first argument and then the others. -/
theorem numbers?_cons (p : Procedure) (arg : Value) (args : List Value) :
    p.numbers? (arg :: args) =
      (p.number? arg).bind fun x => (p.numbers? args).bind fun xs => .ok (x :: xs) :=
  rfl

/-- `Procedure.fold` folds its operation over the numbers that `Procedure.numbers?` finds. -/
theorem fold_eq (p : Procedure) (op : Number → Number → Number) (start : Number)
    (args : List Value) :
    p.fold op start args = (p.numbers? args).bind fun xs => .ok (.number (xs.foldl op start)) :=
  rfl

end Procedure

/-! ### Errors -/

/-- A computation in two parts fails as its first part does, or as its second. -/
theorem bind_eq_error {ε α β : Type} {first : Except ε α} {second : α → Except ε β} {e : ε}
    (h : first.bind second = .error e) :
    first = .error e ∨ ∃ a, first = .ok a ∧ second a = .error e := by
  cases first with
  | error _ =>
      cases h
      exact Or.inl rfl
  | ok a => exact Or.inr ⟨a, rfl, h⟩

/-- A computation in two parts has a result if its first part has one, and then its second. -/
theorem bind_eq_ok {ε α β : Type} {first : Except ε α} {second : α → Except ε β} {b : β}
    (h : first.bind second = .ok b) : ∃ a, first = .ok a ∧ second a = .ok b := by
  cases first with
  | error _ => cases h
  | ok a => exact ⟨a, rfl, h⟩

/-- Whether an error is one that a procedure reports about itself. -/
def EvalError.Blames (p : Procedure) : EvalError → Prop
  | incorrectArity procedure _ _ => procedure = p.name
  | unsupportedArgType procedure _ => procedure = p.name
  | emptyList procedure => procedure = p.name
  | _ => False

namespace Procedure

variable {p : Procedure} {e : EvalError}

/-- An error of `Procedure.number?` blames the procedure. -/
theorem blames_number? {value : Value} (h : p.number? value = .error e) : e.Blames p := by
  cases value <;> cases h <;> rfl

/-- An error of `Procedure.items?` blames the procedure. -/
theorem blames_items? {value : Value} (h : p.items? value = .error e) : e.Blames p := by
  cases value <;> cases h <;> rfl

/-- An error of `Procedure.numbers?` blames the procedure. -/
theorem blames_numbers? {args : List Value} (h : p.numbers? args = .error e) : e.Blames p := by
  induction args with
  | nil => cases h
  | cons arg args ih =>
      rcases bind_eq_error h with first | ⟨x, -, others⟩
      · exact blames_number? first
      · rcases bind_eq_error others with later | ⟨xs, -, none⟩
        · exact ih later
        · cases none

/-- An error of `Procedure.fold` blames the procedure. -/
theorem blames_fold {op : Number → Number → Number} {start : Number} {args : List Value}
    (h : p.fold op start args = .error e) : e.Blames p := by
  rcases bind_eq_error h with first | ⟨xs, -, none⟩
  · exact blames_numbers? first
  · cases none

/-- An error of `Procedure.compare` blames the procedure. -/
theorem blames_compare {numbers : Number → Number → Bool} {strings : String → String → Bool}
    {x y : Value} (h : p.compare numbers strings x y = .error e) : e.Blames p := by
  unfold compare at h
  split at h <;> cases h <;> rfl

/-- **Every error of `Procedure.apply` blames the procedure**, under its own name. -/
theorem blames_apply {args : List Value} (h : p.apply args = .error e) : e.Blames p := by
  unfold apply at h
  split at h
  -- arithmetic
  · exact blames_fold h
  · exact blames_fold h
  · rcases bind_eq_error h with first | ⟨x, -, others⟩
    · exact blames_number? first
    · exact blames_fold others
  · rcases bind_eq_error h with first | ⟨x, -, others⟩
    · exact blames_number? first
    · exact blames_fold others
  -- comparisons
  · cases h
  · exact blames_compare h
  · exact blames_compare h
  -- lists
  · cases h
  · rcases bind_eq_error h with first | ⟨items, -, others⟩
    · exact blames_items? first
    · split at others
      · cases others
      · cases others
        rfl
  · rcases bind_eq_error h with first | ⟨items, -, none⟩
    · exact blames_items? first
    · cases none
  · cases h
  -- questions about types, and connectives, which take anything
  · cases h
  · cases h
  · cases h
  · cases h
  · cases h
  · cases h
  · cases h
  · cases h
  -- a wrong number of arguments
  · cases h
    rfl

end Procedure

end SmallScheme
