import SmallScheme.Proofs.Evaluation.Metered
import SmallScheme.Proofs.Scope
import SmallScheme.Proofs.Session.History

/-!
# What a session knows by which name

The scopes of a session are what its history says, at every point and in every frame: nothing that
was defined is lost, and nothing is seen where it was not defined. To evaluate is no part of the
history, as it changes no scope and leaves the meter as it was. So steps that come back to the
scope in which they begin, and define nothing there, leave no trace at all.

## Main results

* `Session.after_eq_foldl`: what steps make of a session is the changes among them.
* `History.Tells.make`, `History.Tells.foldl_make`: a session is what its history tells, after one
  change more and after any changes.
* `Session.foldl_make_of_contained`: changes that come back leave a session as it was.
* `Session.performAll_scoping`: how names are answered, and that steps that come back have no part
  in later answers.
-/

namespace SmallScheme

namespace Session

/-! ### Steps and changes -/

/-- The scopes of a session, the current one first. -/
def scopes (session : Session) : List Scope :=
  session.current :: session.below

/-- What a step does to the scopes of a session: a definition is also one of an evaluated value,
if there is one, and the last scope is not taken away. To ask and to evaluate does nothing to
them. -/
def change? (session : Session) : Step → Option Change
  | .define name value => some (.define name value)
  | .defineEval name source =>
    match (session.evalSource source).1 with
    | .ok (some (.ok value)) => some (.define name value)
    | _ => none
  | .push => some .push
  | .fork => some .fork
  | .pop => if session.below.isEmpty then none else some .pop
  | .get _ | .lookup _ | .eval _ | .evalForm _ => none

/-- The session after a change. -/
def make (session : Session) : Change → Session
  | .define name value => session.define name value
  | .push => session.push
  | .fork => session.fork
  | .pop => session.pop

/-- The session after steps. -/
def after (session : Session) : List Step → Session
  | [] => session
  | step :: steps => (session.perform step).2.after steps

/-- The changes that steps make, in their order. -/
def changes (session : Session) : List Step → List Change
  | [] => []
  | step :: steps => (session.change? step).toList ++ (session.perform step).2.changes steps

variable {session : Session}

/-- `Session.eval` leaves the session as it was. -/
theorem eval_snd (session : Session) (form : Form) : (session.eval form).2 = session := by
  rw [eval, Form.evalMetered_eq]

/-- `Session.evalSource` leaves the session as it was. -/
theorem evalSource_snd (session : Session) (source : String) :
    (session.evalSource source).2 = session := by
  rw [evalSource]
  split
  · rfl
  · rfl
  · exact eval_snd session _

/-- **`Session.perform` makes the change of its step**, or leaves the session as it was if the step
has none. -/
theorem perform_snd (session : Session) (step : Step) :
    (session.perform step).2 = (session.change? step).toList.foldl make session := by
  cases step with
  | define name value => rfl
  | get name => rfl
  | lookup name => rfl
  | eval source => exact evalSource_snd session source
  | defineEval name source =>
      obtain ⟨reply, evaluated⟩ : ∃ reply, session.evalSource source = (reply, session) :=
        ⟨_, Prod.ext rfl (evalSource_snd session source)⟩
      simp only [perform, change?, evaluated]
      rcases reply with error | none | failed | value <;> rfl
  | evalForm form => exact eval_snd session form
  | push => rfl
  | fork => rfl
  | pop =>
      simp only [perform, change?, pop]
      cases scopes : session.below with
      | nil => rfl
      | cons scope below =>
          simp only [List.isEmpty_cons, Bool.false_eq_true, if_false, Option.toList, List.foldl,
            make, pop, scopes]

/-- **`Session.after` makes the changes of its steps, one after another.** -/
theorem after_eq_foldl (session : Session) (steps : List Step) :
    session.after steps = (session.changes steps).foldl make session := by
  induction steps generalizing session with
  | nil => rfl
  | cons step steps ih => rw [after, changes, List.foldl_append, ← perform_snd, ih]

/-- `Session.after` of two groups of steps takes the second group behind the first. -/
theorem after_append (session : Session) (steps others : List Step) :
    session.after (steps ++ others) = (session.after steps).after others := by
  induction steps generalizing session with
  | nil => rfl
  | cons step steps ih => exact ih (session.perform step).2

/-- `Session.performAll` answers the first step, and the others in the session that it leaves. -/
theorem performAll_cons (session : Session) (step : Step) (steps : List Step) :
    session.performAll (step :: steps) =
      (session.perform step).1 :: (session.perform step).2.performAll steps :=
  rfl

/-- `Session.performAll` of two groups of steps answers the first group, and the second in the
session that the first leaves. -/
theorem performAll_append (session : Session) (steps others : List Step) :
    session.performAll (steps ++ others) =
      session.performAll steps ++ (session.after steps).performAll others := by
  induction steps generalizing session with
  | nil => rfl
  | cons step steps ih =>
      rw [List.cons_append, performAll_cons, performAll_cons, after, ih, List.cons_append]

/-- `Session.performAll` gives one answer for each step. -/
theorem length_performAll (session : Session) (steps : List Step) :
    (session.performAll steps).length = steps.length := by
  induction steps generalizing session with
  | nil => rfl
  | cons step steps ih => rw [performAll_cons, List.length_cons, List.length_cons, ih]

/-- The answers of `Session.performAll` behind those to a first group of steps are those to the
second group in the session that the first leaves. -/
theorem drop_performAll (session : Session) (steps others : List Step) :
    (session.performAll (steps ++ others)).drop steps.length =
      (session.after steps).performAll others := by
  rw [performAll_append]
  exact List.drop_left' (session.length_performAll steps)

end Session

/-! ### What a history tells -/

namespace History

/-- Whether a history tells what names are bound to in the scopes of a session, in the current
one and in each of those below it. -/
structure Tells (root : Scope) (h : History) (session : Session) : Prop where
  top : session.current.get? = bound root h (current h)
  others : session.below.map Scope.get? = (below h).map (bound root h)

variable {root : Scope} {h h' : History} {session : Session}

/-- The empty history `Tells` the session that has just started. -/
theorem tells_start (limit : Limit) (root : Scope) : Tells root [] (.start limit root) where
  top := by
    funext name
    rw [bound_eq]
    rfl
  others := rfl

/-- A history with the same `bound`, in all frames that there are, tells the same of the scopes of a
session. -/
theorem Tells.map_scopes (tells : Tells root h session)
    (same : ∀ f ≤ h.length, bound root h' f = bound root h f) :
    (session.current :: session.below).map Scope.get? =
      (current h :: below h).map (bound root h') := by
  have unchanged : ∀ f ∈ below h, bound root h' f = bound root h f := by
    intro f isBelow
    exact same f (Nat.le_trans (Nat.le_of_lt (lt_current isBelow)) (current_le h))
  rw [List.map_cons, List.map_cons, tells.top, tells.others, same _ (current_le h),
    List.map_congr_left unchanged]

/-- **A history that `Tells` a session tells the session after one change more, with that change put
in front.** -/
theorem Tells.make (tells : Tells root h session) (change : Change) :
    Tells root (change :: h) (session.make change) := by
  cases change with
  | define other value =>
      refine ⟨?_, ?_⟩
      · funext name
        rw [current, bound_define, ← tells.top]
        exact Scope.get?_define session.current other value name
      · refine tells.others.trans (List.map_congr_left fun f isBelow => ?_)
        exact (bound_define_of_lt (lt_current isBelow)).symm
  | push =>
      refine ⟨?_, ?_⟩
      · rw [current, bound_push, ← tells.top]
        exact Scope.get?_enter session.current
      · exact tells.map_scopes fun f older => bound_push_of_le older
  | fork =>
      refine ⟨?_, ?_⟩
      · rw [current, bound_fork]
        exact tells.top
      · exact tells.map_scopes fun f older => bound_fork_of_le older
  | pop =>
      have others := tells.others
      rw [Session.make, Session.pop]
      cases scopes : session.below with
      | nil =>
          rw [scopes, List.map_nil] at others
          have none : below h = [] := List.map_eq_nil_iff.1 others.symm
          refine ⟨?_, ?_⟩
          · rw [bound_pop, current, none]
            exact tells.top
          · rw [bound_pop, below, none, scopes]
            rfl
      | cons scope rest =>
          rw [scopes, List.map_cons] at others
          obtain ⟨f, frames, isBelow, first, same⟩ := List.map_eq_cons_iff.1 others.symm
          refine ⟨?_, ?_⟩
          · rw [bound_pop, current, isBelow]
            exact first.symm
          · rw [bound_pop, below, isBelow]
            exact same.symm

/-- **A history that `Tells` a session tells the session after any changes, with these put in
front.** -/
theorem Tells.foldl_make (tells : Tells root h session) (changes : List Change) :
    Tells root (changes.reverse ++ h) (changes.foldl Session.make session) := by
  induction changes generalizing h session with
  | nil => exact tells
  | cons change changes ih =>
      rw [List.reverse_cons, List.append_assoc]
      exact ih (tells.make change)

end History

/-! ### Steps that come back -/

/-- Whether changes that begin some levels above a scope come back to it, never go below it, and
make no definition while it is the current one. -/
def Contained : Nat → List Change → Prop
  | level, [] => level = 0
  | 0, .define _ _ :: _ => False
  | level + 1, .define _ _ :: changes => Contained (level + 1) changes
  | level, .push :: changes => Contained (level + 1) changes
  | level, .fork :: changes => Contained (level + 1) changes
  | 0, .pop :: _ => False
  | level + 1, .pop :: changes => Contained level changes

namespace Session

variable {session base : Session}

/-- **Changes that are `Contained` leave a session as it was**: what they put on top of it they take
away again, and of its own scopes they change none. -/
theorem foldl_make_of_contained {level : Nat} {changes : List Change}
    (contained : Contained level changes) (meter : session.meter = base.meter)
    (above : session.scopes.drop level = base.scopes) : changes.foldl make session = base := by
  induction changes generalizing level session with
  | nil =>
      obtain rfl : level = 0 := contained
      obtain ⟨current, below⟩ := List.cons.inj above
      cases session
      cases base
      cases meter
      cases current
      cases below
      rfl
  | cons change changes ih =>
      cases change with
      | define name value =>
          cases level with
          | zero => cases contained
          | succ level => exact ih contained meter above
      | push =>
          have deeper : Contained (level + 1) changes := contained
          exact ih deeper meter above
      | fork =>
          have deeper : Contained (level + 1) changes := contained
          exact ih deeper meter above
      | pop =>
          cases level with
          | zero => cases contained
          | succ level =>
              rw [List.foldl_cons, make, pop]
              cases scopes : session.below with
              | nil =>
                  rw [Session.scopes, scopes] at above
                  cases level <;> cases above
              | cons scope below =>
                  rw [Session.scopes, scopes] at above
                  exact ih contained meter above

/-- What steps have done to the scopes of a session, the latest first. -/
def history (session : Session) (steps : List Step) : History :=
  (session.changes steps).reverse

/-- The history of any steps `Tells` the session that they leave. -/
theorem tells_after (limit : Limit) (root : Scope) (steps : List Step) :
    ((start limit root).history steps).Tells root ((start limit root).after steps) := by
  have tells := (History.tells_start limit root).foldl_make ((start limit root).changes steps)
  rw [List.append_nil] at tells
  rw [after_eq_foldl]
  exact tells

/-- **Names are bound in a session as its history tells**, at every point and in every scope. To
ask for a name is answered by what the latest definition of it in the current frame binds it to,
or else the enclosing frame, and to look it up by the same value or by the name as an undefined
variable. So steps that take away what they put on top, go no further down and define nothing in
the scope in which they begin have no part in any answer to later steps, in this scope or in those
below it. A session may begin without any bindings, or inside the standard ones. -/
theorem performAll_scoping (limit : Limit) (root : Scope) (steps : List Step) :
    ((start limit root).history steps).Tells root ((start limit root).after steps) ∧
      (∀ name,
        (start limit root).performAll (steps ++ [.get name, .lookup name]) =
          (start limit root).performAll steps ++
            [.binding (((start limit root).history steps).here root name),
              .reply (.ok (some ((((start limit root).history steps).here root name).elim
                (.error (.undefinedVariable name)) .ok)))]) ∧
      (∀ block later, Contained 0 (((start limit root).after steps).changes block) →
        ((start limit root).performAll (steps ++ block ++ later)).drop (steps ++ block).length =
          ((start limit root).performAll (steps ++ later)).drop steps.length) ∧
      ∀ name, Scope.empty.get? name = none ∧
        Scope.program.get? name = Scope.standard.get? name := by
  have tells := tells_after limit root steps
  refine ⟨tells, fun name => ?_, fun block later contained => ?_, fun name => ⟨rfl, ?_⟩⟩
  · have here : ((start limit root).after steps).current.get? name =
        ((start limit root).history steps).here root name := congrFun tells.top name
    rw [performAll_append, ← here, ← Scope.lookup_eq_elim]
    rfl
  · have back : (start limit root).after (steps ++ block) = (start limit root).after steps := by
      rw [after_append, after_eq_foldl _ block]
      exact foldl_make_of_contained contained rfl rfl
    rw [drop_performAll, drop_performAll, back]
  · exact congrFun (Scope.get?_enter Scope.standard) name

/-- A session with a name that is bound in a frame of the session's own, and again around that. -/
def shadowing : List Step :=
  [.define "x" (.number 1), .push, .define "x" (.number 2)]

/-- Definitions in a copy of the current scope, and in a scope inside that, both taken away. -/
def aside : List Step :=
  [.fork, .define "x" (.number 3), .push, .define "x" (.string "y"), .evalForm (.symbol "x"),
    .pop, .pop]

/-- What is defined by the steps `aside` is not asked for, here or in the scope below. -/
theorem performAll_scoping_aside :
    Contained 0 (((start none .program).after shadowing).changes aside) ∧
      ((start none .program).performAll
        (shadowing ++ aside ++ [.get "x", .pop, .evalForm (.symbol "x")])).drop
          (shadowing ++ aside).length =
        ((start none .program).performAll
          (shadowing ++ [.get "x", .pop, .evalForm (.symbol "x")])).drop shadowing.length ∧
      (start none .program).performAll (shadowing ++ [.get "x", .lookup "x"]) =
        (start none .program).performAll shadowing ++
          [.binding (some (.number 2)), .reply (.ok (some (.ok (.number 2))))] := by
  obtain ⟨-, asked, comesBack, -⟩ := performAll_scoping none .program shadowing
  have contained : Contained 0 (((start none .program).after shadowing).changes aside) :=
    (rfl : 0 = 0)
  have inner : ((start none .program).history shadowing).here .program "x" =
      some (.number 2) := by
    rw [History.here, History.bound_eq]
    rfl
  have answers := asked "x"
  rw [inner] at answers
  exact ⟨contained, comesBack aside _ contained, answers⟩

end Session

end SmallScheme
