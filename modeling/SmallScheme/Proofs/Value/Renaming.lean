import SmallScheme.Evaluation

/-!
# Renaming

Names in forms, in values and in scopes replaced by others. A renaming that keeps different names
apart keeps apart whatever differs by its names, so it changes no comparison and no look-up.

## Main results

* `Form.beq_rename`, `Value.beq_rename`: renamed forms and values are equal if the forms and
  values are.
* `Scope.get?_rename`: in a renamed scope, a renamed name is bound to the renamed value.
-/

namespace SmallScheme

variable {r : String → String}

/-- Renamed names are equal exactly when the names are, if no two names become one. -/
theorem beq_names_rename (injective : Function.Injective r) (name other : String) :
    (r name == r other) = (name == other) := by
  rw [Bool.eq_iff_iff, beq_iff_eq, beq_iff_eq, injective.eq_iff]

/-! ### Forms -/

namespace Form

mutual

/-- A form with every symbol in it renamed, also under quote marks. -/
def rename (r : String → String) : Form → Form
  | number x => number x
  | string s => string s
  | boolean b => boolean b
  | symbol name => symbol (r name)
  | list items => list (renameAll r items)
  | quote inner => quote (inner.rename r)

/-- Forms with every symbol in them renamed. -/
def renameAll (r : String → String) : List Form → List Form
  | [] => []
  | form :: forms => form.rename r :: renameAll r forms

end

theorem renameAll_eq_map (r : String → String) (forms : List Form) :
    renameAll r forms = forms.map (rename r) := by
  induction forms with
  | nil => rfl
  | cons form forms ih => rw [renameAll, ih, List.map_cons]

/-- Renamed lists of forms are equal exactly when the lists are, if this is so of each form. -/
theorem beqAll_renameAll {forms : List Form}
    (each : ∀ form ∈ forms, ∀ other, (form.rename r).beq (other.rename r) = form.beq other)
    (others : List Form) :
    beqAll (renameAll r forms) (renameAll r others) = beqAll forms others := by
  induction forms generalizing others with
  | nil => cases others <;> rfl
  | cons form forms ih =>
      cases others with
      | nil => rfl
      | cons other others =>
          rw [renameAll, renameAll, beqAll, beqAll, each form List.mem_cons_self,
            ih fun later member => each later (List.mem_cons_of_mem form member)]

/-- **Renamed forms are equal exactly when the forms are**, if no two names become one. -/
theorem beq_rename (injective : Function.Injective r) (form other : Form) :
    (form.rename r).beq (other.rename r) = form.beq other := by
  induction form generalizing other with
  | number x => cases other <;> rfl
  | string s => cases other <;> rfl
  | boolean b => cases other <;> rfl
  | symbol name =>
      cases other with
      | symbol other => exact beq_names_rename injective name other
      | _ => rfl
  | list items ih =>
      cases other with
      | list others => exact beqAll_renameAll ih others
      | _ => rfl
  | quote inner ih =>
      cases other with
      | quote other => exact ih other
      | _ => rfl

end Form

/-! ### Values -/

namespace Value

mutual

/-- A value with every symbol in it renamed, also in the forms that it holds. -/
def rename (r : String → String) : Value → Value
  | number x => number x
  | string s => string s
  | boolean b => boolean b
  | symbol name => symbol (r name)
  | list items => list (renameAll r items)
  | procedure p => procedure p
  | form f => form (f.rename r)

/-- Values with every symbol in them renamed. -/
def renameAll (r : String → String) : List Value → List Value
  | [] => []
  | value :: values => value.rename r :: renameAll r values

end

theorem renameAll_eq_map (r : String → String) (values : List Value) :
    renameAll r values = values.map (rename r) := by
  induction values with
  | nil => rfl
  | cons value values ih => rw [renameAll, ih, List.map_cons]

/-- Renamed lists of values are equal exactly when the lists are, if this is so of each value. -/
theorem beqAll_renameAll {values : List Value}
    (each : ∀ value ∈ values, ∀ other, (value.rename r).beq (other.rename r) = value.beq other)
    (others : List Value) :
    beqAll (renameAll r values) (renameAll r others) = beqAll values others := by
  induction values generalizing others with
  | nil => cases others <;> rfl
  | cons value values ih =>
      cases others with
      | nil => rfl
      | cons other others =>
          rw [renameAll, renameAll, beqAll, beqAll, each value List.mem_cons_self,
            ih fun later member => each later (List.mem_cons_of_mem value member)]

/-- **Renamed values are equal exactly when the values are**, if no two names become one. -/
theorem beq_rename (injective : Function.Injective r) (value other : Value) :
    (value.rename r).beq (other.rename r) = value.beq other := by
  induction value generalizing other with
  | number x => cases other <;> rfl
  | string s => cases other <;> rfl
  | boolean b => cases other <;> rfl
  | symbol name =>
      cases other with
      | symbol other => exact beq_names_rename injective name other
      | _ => rfl
  | list items ih =>
      cases other with
      | list others => exact beqAll_renameAll ih others
      | _ => rfl
  | procedure p => cases other <;> rfl
  | form f =>
      cases other with
      | form g => exact Form.beq_rename injective f g
      | _ => rfl

/-- Renaming does not change whether a value is true. -/
theorem isTrue_comp_rename (r : String → String) : isTrue ∘ rename r = isTrue := by
  funext value
  cases value <;> rfl

/-- Renaming forms that are passed on as values is renaming the forms. -/
theorem renameAll_map_form (r : String → String) (forms : List Form) :
    renameAll r (forms.map form) = (Form.renameAll r forms).map form := by
  rw [renameAll_eq_map, Form.renameAll_eq_map, List.map_map, List.map_map]
  rfl

end Value

/-! ### Results -/

/-- An error with the undefined symbol in it renamed. A procedure is reported by its own name,
which no renaming changes. -/
def EvalError.rename (r : String → String) : EvalError → EvalError
  | undefinedSymbol name => undefinedSymbol (r name)
  | e => e

/-- A result with its value renamed as given, or with the undefined symbol renamed that it may
report. -/
def renameResult {α : Type} (r : String → String) (rename : α → α) :
    Except EvalError α → Except EvalError α
  | .ok a => .ok (rename a)
  | .error e => .error (e.rename r)

/-- A computation in two parts commutes with renaming if both parts do. -/
theorem renameResult_bind {α β : Type} {rename : α → α} {rename' : β → β}
    {first : Except EvalError α} {second second' : α → Except EvalError β}
    (step : ∀ a, second' (rename a) = renameResult r rename' (second a)) :
    (renameResult r rename first).bind second' = renameResult r rename' (first.bind second) := by
  cases first with
  | error e => rfl
  | ok a => exact step a

/-! ### Scopes -/

/-- A frame with the names that it binds and the values that it binds them to renamed. -/
def Frame.rename (r : String → String) (frame : Frame) : Frame :=
  frame.map fun (name, value) => (r name, value.rename r)

/-- In a renamed frame, a renamed name is bound to the renamed value. -/
theorem Frame.lookup_rename (injective : Function.Injective r) (frame : Frame)
    (name : String) : (Frame.rename r frame).lookup (r name) =
      (frame.lookup name).map (Value.rename r) := by
  induction frame with
  | nil => rfl
  | cons binding frame ih =>
      obtain ⟨bound, value⟩ := binding
      change ((r bound, value.rename r) :: Frame.rename r frame).lookup (r name) = _
      rw [List.lookup_cons, List.lookup_cons, beq_names_rename injective, ih]
      cases name == bound <;> rfl

namespace Scope

/-- A scope with all its frames renamed. -/
def rename (r : String → String) (scope : Scope) : Scope :=
  ⟨Frame.rename r scope.frame, scope.outer.map (Frame.rename r)⟩

/-- **In a renamed scope, a renamed name is bound to the renamed value.** -/
theorem get?_rename (injective : Function.Injective r) (scope : Scope) (name : String) :
    (scope.rename r).get? (r name) = (scope.get? name).map (Value.rename r) := by
  have frames (frames : List Frame) :
      (frames.map (Frame.rename r)).findSome? (·.lookup (r name)) =
        (frames.findSome? (·.lookup name)).map (Value.rename r) := by
    induction frames with
    | nil => rfl
    | cons frame frames ih =>
        rw [List.map_cons, List.findSome?_cons, List.findSome?_cons, Frame.lookup_rename injective]
        cases frame.lookup name with
        | none => exact ih
        | some value => rfl
  exact frames (scope.frame :: scope.outer)

end Scope

end SmallScheme
