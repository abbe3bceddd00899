import SmallScheme.Evaluation

/-!
# What the names of a scope are bound to

Of a scope, only what its names are bound to is ever seen. Which frames the bindings stand in has
no part in that, as long as they come in the same order (`Scope.get?_eq_lookup_bindings`).

## Main results

* `Scope.get?_define`, `Scope.get?_enter`: what names are bound to after a definition, and in a
  frame of one's own.
* `Scope.get?_eq_lookup_bindings`: frames may be divided and joined in any way.
* `Scope.get?_program`: a program begins with the procedures under their own names.
-/

namespace SmallScheme.Scope

variable {scope other : Scope}

/-- `Scope.define` binds its name to its value, and changes no other name. -/
theorem get?_define (scope : Scope) (name : String) (value : Value) (asked : String) :
    (scope.define name value).get? asked =
      if asked = name then some value else scope.get? asked := by
  rw [get?, define, List.findSome?_cons, List.lookup_cons]
  by_cases same : asked = name
  · rw [if_pos same, beq_iff_eq.2 same]
  · rw [if_neg same, beq_eq_false_iff_ne.2 same, get?, List.findSome?_cons]

/-- `Scope.enter` keeps what every name is bound to. -/
theorem get?_enter (scope : Scope) : scope.enter.get? = scope.get? :=
  rfl

/-- `Scope.lookup` finds what `Scope.get?` finds, or reports the name. -/
theorem lookup_eq_elim (scope : Scope) (name : String) :
    scope.lookup name = (scope.get? name).elim (.error (.undefinedVariable name)) .ok := by
  rw [lookup]
  cases scope.get? name <;> rfl

/-- What can be asked for in a scope, without its frames: all bindings, the innermost first. -/
def bindings (scope : Scope) : Frame :=
  scope.frame ++ scope.outer.flatten

/-- **`Scope.get?` finds the first of a scope's bindings that is for the name**, in whatever
frame. -/
theorem get?_eq_lookup_bindings (scope : Scope) (name : String) :
    scope.get? name = scope.bindings.lookup name := by
  have frames (frames : List Frame) :
      frames.findSome? (·.lookup name) = frames.flatten.lookup name := by
    induction frames with
    | nil => rfl
    | cons frame frames ih =>
        rw [List.findSome?_cons, List.flatten_cons, List.lookup_append, ih]
        cases frame.lookup name <;> rfl
  exact frames (scope.frame :: scope.outer)

/-- **In a fresh scope, every name of a procedure is bound to it**, and no other name is bound. -/
theorem get?_program (name : String) :
    program.get? name = (Procedure.ofName? name).map .procedure := by
  have first (procedures : List Procedure) :
      (procedures.map fun p => (p.name, Value.procedure p)).lookup name =
        (procedures.find? (·.name = name)).map .procedure := by
    induction procedures with
    | nil => rfl
    | cons p procedures ih =>
        rw [List.map_cons, List.lookup_cons, List.find?_cons]
        by_cases same : p.name = name
        · rw [beq_iff_eq.2 same.symm, decide_eq_true same]
          rfl
        · rw [beq_eq_false_iff_ne.2 (Ne.symm same), decide_eq_false same]
          exact ih
  have own : program.bindings = Procedure.all.map fun p => (p.name, Value.procedure p) := rfl
  rw [get?_eq_lookup_bindings, own]
  exact first Procedure.all

/-- Whether two scopes bind each of some names to the same value, or both do not bind it. -/
def AgreeOn (names : List String) (scope other : Scope) : Prop :=
  ∀ name ∈ names, scope.get? name = other.get? name

variable {names : List String}

/-- A definition is not noticed by names other than the defined one, nor if the name was bound to
the same value before. -/
theorem agreeOn_define {name : String} {value : Value}
    (unnoticed : name ∉ names ∨ scope.get? name = some value) :
    AgreeOn names (scope.define name value) scope := by
  intro asked member
  rw [get?_define]
  split
  · next same =>
    subst same
    rcases unnoticed with absent | bound
    · exact absurd member absent
    · exact bound.symm
  · rfl

/-- Scopes with the same bindings agree on all names. -/
theorem agreeOn_of_bindings_eq (same : scope.bindings = other.bindings) :
    AgreeOn names scope other := by
  intro name _
  rw [get?_eq_lookup_bindings, get?_eq_lookup_bindings, same]

end SmallScheme.Scope
