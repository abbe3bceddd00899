import SmallScheme.Evaluation

/-!
# The meter after an evaluation

A meter is raised when a form is entered and lowered when it is left, also where its evaluation
fails. So after the evaluation of a form it stands where it stood before, and what the form comes
to is what it comes to if the depth is handed down instead: a meter that many evaluations share
makes none of them depend on the others.

## Main results

* `Form.evalMetered_eq`: the value of a form with a meter, and the meter as it was.
-/

namespace SmallScheme

theorem Meter.lower_raise (meter : Meter) : meter.raise.lower = meter :=
  rfl

/-- Whether a computation with a meter comes to what another one comes to that is handed the
depth, and leaves the meter as it was. -/
def Restores {α : Type} (metered : Metered α) (byDepth : ByDepth α) : Prop :=
  ∀ meter, metered meter = (byDepth meter, meter)

namespace Restores

variable {α β : Type} {x : Metered α} {y : ByDepth α}

/-- `Pure.pure` leaves the meter as it was. -/
theorem pure (a : α) : Restores (Pure.pure a) (Pure.pure a) :=
  fun _ => rfl

/-- `Descent.fail` leaves the meter as it was. -/
theorem fail (e : EvalError) : Restores (Descent.fail e : Metered α) (Descent.fail e) :=
  fun _ => rfl

/-- `Descent.deeper` leaves the meter as it was, if what is done one level down does. -/
theorem deeper (h : Restores x y) : Restores (Descent.deeper x) (Descent.deeper y) := by
  intro meter
  simp only [Descent.deeper]
  cases meter.limit.reached? meter.depth with
  | some levels => rfl
  | none =>
      rw [h meter.raise]
      exact congrArg (Prod.mk (y meter.raise)) meter.lower_raise

/-- Two computations one after the other leave the meter as it was, if each of them does. -/
theorem bind {f : α → Metered β} {g : α → ByDepth β} (first : Restores x y)
    (second : ∀ a, Restores (f a) (g a)) : Restores (x >>= f) (y >>= g) := by
  intro meter
  change ExceptT.bindCont f (x meter).1 (x meter).2 = ((y meter).bind fun a => g a meter, meter)
  rw [first meter]
  cases y meter with
  | error e => rfl
  | ok a => exact second a meter

/-- `Form.returning` leaves the meter as it was. -/
theorem returning (result : Except EvalError α) :
    Restores (Form.returning result) (Form.returning result) := by
  cases result with
  | ok a => exact pure a
  | error e => exact fail e

end Restores

namespace Form

variable {scope : Scope}

/-- `Form.evalAllBy` with a meter leaves the meter as it was, if the evaluation of each form
does. -/
theorem restores_evalAllBy {forms : List Form}
    (each : ∀ form ∈ forms, Restores (form.evalBy scope) (form.evalBy scope)) :
    Restores (evalAllBy scope forms) (evalAllBy scope forms) := by
  induction forms with
  | nil =>
      rw [evalAllBy, evalAllBy]
      exact .pure []
  | cons form forms ih =>
      have later := ih fun later member => each later (List.mem_cons_of_mem form member)
      rw [evalAllBy, evalAllBy]
      exact (each form List.mem_cons_self).bind fun value => later.bind fun values => .pure _

/-- `Form.evalBy` with a meter leaves the meter as it was. -/
theorem restores_evalBy (scope : Scope) (form : Form) :
    Restores (form.evalBy scope) (form.evalBy scope) := by
  induction form with
  | number x =>
      rw [evalBy, evalBy]
      exact (Restores.pure _).deeper
  | string s =>
      rw [evalBy, evalBy]
      exact (Restores.pure _).deeper
  | boolean b =>
      rw [evalBy, evalBy]
      exact (Restores.pure _).deeper
  | symbol name =>
      rw [evalBy, evalBy]
      refine Restores.deeper ?_
      cases scope.get? name with
      | some value => exact .pure value
      | none => exact .fail _
  | list items ih =>
      cases items with
      | nil =>
          rw [evalBy, evalBy]
          exact (Restores.pure _).deeper
      | cons head tail =>
          have others : Restores (evalAllBy scope tail) (evalAllBy scope tail) :=
            restores_evalAllBy fun item member => ih item (List.mem_cons_of_mem head member)
          rw [evalBy, evalBy]
          refine Restores.deeper ((ih head List.mem_cons_self).bind fun value => ?_)
          cases value with
          | procedure p => exact others.bind fun args => .returning (p.apply args)
          | number x => exact .pure _
          | string s => exact .pure _
          | boolean b => exact .pure _
          | symbol name => exact .pure _
          | list items => exact .pure _
          | form f => exact .pure _
  | quote inner ih =>
      rw [evalBy, evalBy]
      exact (Restores.pure _).deeper

/-- **`Form.evalMetered` leaves the meter as it was**, and comes to what `Form.evalAt` comes to at
the depth that the meter shows. -/
theorem evalMetered_eq (scope : Scope) (form : Form) (meter : Meter) :
    form.evalMetered scope meter = (form.evalAt meter scope, meter) :=
  restores_evalBy scope form meter

end Form

end SmallScheme
