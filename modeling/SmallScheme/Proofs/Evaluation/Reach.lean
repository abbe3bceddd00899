import Mathlib.Data.List.Zip
import SmallScheme.Proofs.Evaluation.Metered
import SmallScheme.Proofs.Evaluation.Rules

/-!
# How deep evaluation goes

Evaluation comes to a form, then, if it is a list, to the first item and to what is inside that,
and, if the first item is a procedure, to the other items from left to right, until one of them
fails (`Form.Reaches`). It comes to nothing under a quote mark and to no other items of data. A
limit is exceeded if evaluation comes to a form that is one level deeper, and is not felt otherwise:
what is nested deeper but never evaluated, or would be only after a failure, does not count.

With a meter the same is true of each of many evaluations, since each leaves the meter as it was.

## Main results

* `Form.reaches_list_iff`, `Form.reachesAmong_cons_iff`: how deep evaluation goes in a list, and
  among its other items.
* `Form.isLimited_evalAt`: below any depth, a limit is exceeded or makes no difference.
* `Form.evalMeteredAll_eq`: evaluations that share a meter come to what each comes to by itself.
* `Form.eval_under_limit`: when evaluation exceeds its limit, and that a meter is always restored.
-/

namespace SmallScheme.Form

/-! ### Reach -/

/-- Whether evaluation of a form in a scope, without a limit, comes to a form at a depth, where the
form itself has depth one: evaluation comes to the form; in a list, to the first item, and if that
is a procedure, to every other item in front of which none fails. -/
inductive Reaches (scope : Scope) : Form → Nat → Prop
  | self (form : Form) : Reaches scope form 1
  | head {head : Form} {tail : List Form} {depth : Nat} :
      Reaches scope head depth → Reaches scope (list (head :: tail)) (depth + 1)
  | argument {head form : Form} {before after : List Form} {depth : Nat} {p : Procedure} :
      head.eval none scope = .ok (.procedure p) →
      (∀ earlier ∈ before, ∃ value, earlier.eval none scope = .ok value) →
      Reaches scope form depth →
      Reaches scope (list (head :: (before ++ form :: after))) (depth + 1)

/-- Whether evaluation of forms from left to right comes to a form at a depth inside one of them. -/
def ReachesAmong (scope : Scope) (forms : List Form) (depth : Nat) : Prop :=
  ∃ before form after, forms = before ++ form :: after ∧
    (∀ earlier ∈ before, ∃ value, earlier.eval none scope = .ok value) ∧ Reaches scope form depth

variable {scope : Scope} {form head : Form} {forms tail : List Form} {depth levels : Nat}

/-- Evaluation `Reaches` into a list as it does into the first item or, behind a procedure, among
the other items. -/
theorem reaches_list_iff :
    Reaches scope (list (head :: tail)) (depth + 2) ↔
      Reaches scope head (depth + 1) ∨ ∃ value, head.eval none scope = .ok value ∧
        (∃ p, value = .procedure p) ∧ ReachesAmong scope tail (depth + 1) := by
  constructor
  · intro h
    cases h with
    | head inHead => exact Or.inl inHead
    | argument calls succeed inItem =>
        exact Or.inr ⟨_, calls, ⟨_, rfl⟩, _, _, _, rfl, succeed, inItem⟩
  · rintro (inHead | ⟨value, calls, ⟨p, rfl⟩, before, form, after, rfl, succeed, inItem⟩)
    · exact .head inHead
    · exact .argument calls succeed inItem

/-- Evaluation `ReachesAmong` several forms as it does into the first or, if that has a value, among
the others. -/
theorem reachesAmong_cons_iff :
    ReachesAmong scope (form :: forms) depth ↔
      Reaches scope form depth ∨
        ∃ value, form.eval none scope = .ok value ∧ ReachesAmong scope forms depth := by
  constructor
  · rintro ⟨before, reached, after, split, succeed, inItem⟩
    cases before with
    | nil =>
        cases split
        exact Or.inl inItem
    | cons first before =>
        cases split
        obtain ⟨⟨value, isValue⟩, others⟩ := List.forall_mem_cons.1 succeed
        exact Or.inr ⟨value, isValue, before, reached, after, rfl, others, inItem⟩
  · rintro (inItem | ⟨value, isValue, before, reached, after, rfl, succeed, inItem⟩)
    · exact ⟨[], form, forms, rfl, by simp, inItem⟩
    · have all := List.forall_mem_cons.2 ⟨⟨value, isValue⟩, succeed⟩
      exact ⟨form :: before, reached, after, rfl, all, inItem⟩

/-- Evaluation of no forms reaches nothing. -/
theorem not_reachesAmong_nil : ¬ ReachesAmong scope [] depth := by
  rintro ⟨before, form, after, split, -⟩
  cases before <;> cases split

/-! ### A limit is exceeded or not felt -/

/-- Whether a result under a limit is that the limit is exceeded, if it is, and else the result
without a limit. -/
def IsLimited {α : Type} (levels : Nat) (exceeded : Prop) (limited unlimited : Except EvalError α) :
    Prop :=
  exceeded ∧ limited = .error (.recursionLimit levels) ∨ ¬ exceeded ∧ limited = unlimited

section

variable {α β : Type} {exceeded exceeded' : Prop} {limited unlimited : Except EvalError α}

/-- A result `IsLimited` by a limit that is not exceeded if it is the same without it. -/
theorem isLimited_same (unexceeded : ¬ exceeded) (result : Except EvalError α) :
    IsLimited levels exceeded result result :=
  Or.inr ⟨unexceeded, rfl⟩

/-- `IsLimited` depends on the condition for exceeding the limit only up to equivalence. -/
theorem IsLimited.congr (h : IsLimited levels exceeded limited unlimited)
    (iff : exceeded' ↔ exceeded) : IsLimited levels exceeded' limited unlimited := by
  rwa [propext iff]

/-- A computation in two parts `IsLimited` if both parts are: the limit is exceeded in the first or,
if that has a result, in the second. -/
theorem IsLimited.bind {second : α → Prop} {f g : α → Except EvalError β}
    (h : IsLimited levels exceeded limited unlimited)
    (h' : ∀ a, IsLimited levels (second a) (f a) (g a)) :
    IsLimited levels (exceeded ∨ ∃ a, unlimited = .ok a ∧ second a) (limited.bind f)
      (unlimited.bind g) := by
  rcases h with ⟨exceeds, rfl⟩ | ⟨unexceeded, rfl⟩
  · exact Or.inl ⟨Or.inl exceeds, rfl⟩
  · cases limited with
    | error e =>
        refine isLimited_same ?_ _
        rintro (exceeds | ⟨a, none, -⟩)
        · exact unexceeded exceeds
        · cases none
    | ok a =>
        refine (h' a).congr ⟨?_, fun exceeds => Or.inr ⟨a, rfl, exceeds⟩⟩
        rintro (exceeds | ⟨_, ⟨⟩, exceeds⟩)
        · exact absurd exceeds unexceeded
        · exact exceeds

end

/-- `evalAllAt` of several forms `IsLimited` if `Form.evalAt` of each of them is. -/
theorem isLimited_evalAllAt {meter : Meter}
    (each : ∀ form ∈ forms, IsLimited levels (Reaches scope form depth)
      (form.evalAt meter scope) (form.eval none scope)) :
    IsLimited levels (ReachesAmong scope forms depth) (evalAllAt meter scope forms)
      (evalAll scope forms) := by
  induction forms with
  | nil => exact isLimited_same not_reachesAmong_nil _
  | cons form forms ih =>
      have others := ih fun other member => each other (List.mem_cons_of_mem form member)
      have collected (value : Value) : IsLimited levels (ReachesAmong scope forms depth)
          ((evalAllAt meter scope forms).bind fun values => .ok (value :: values))
          ((evalAll scope forms).bind fun values => .ok (value :: values)) :=
        (others.bind fun values => isLimited_same not_false _).congr (by simp)
      rw [evalAllAt_cons, evalAll_cons]
      exact ((each form List.mem_cons_self).bind collected).congr reachesAmong_cons_iff

/-- `evalTail` of a list `IsLimited` if `Form.evalAt` of each item behind the first is. -/
theorem isLimited_evalTail {meter : Meter} (value : Value)
    (each : ∀ form ∈ tail, IsLimited levels (Reaches scope form depth)
      (form.evalAt meter scope) (form.eval none scope)) :
    IsLimited levels ((∃ p, value = .procedure p) ∧ ReachesAmong scope tail depth)
      (evalTail meter scope tail value) (evalTail (.new none) scope tail value) := by
  by_cases calls : ∃ p, value = .procedure p
  · obtain ⟨p, rfl⟩ := calls
    have applied := (isLimited_evalAllAt each).bind fun args =>
      isLimited_same not_false (p.apply args)
    exact applied.congr (by simp)
  · have data := (procedure_or_data value).resolve_left calls
    rw [data, data]
    exact isLimited_same (fun exceeds => calls exceeds.1) _

/-- `Form.evalAt` fails at a depth that is already the limit. -/
theorem evalAt_full (depth : Nat) (scope : Scope) (form : Form) :
    form.evalAt ⟨some depth, depth⟩ scope = .error (.recursionLimit depth) := by
  rw [evalAt_eq, Limit.reached?_some, if_pos (Nat.le_refl depth)]

/-- `Form.evalAt` enters a form at a depth below the limit. -/
theorem evalAt_entered (depth room : Nat) (scope : Scope) (form : Form) :
    form.evalAt ⟨some (depth + (room + 1)), depth⟩ scope =
      form.evalEntered ⟨some (depth + 1 + room), depth + 1⟩ scope := by
  rw [evalAt_eq, Limit.reached?_some, if_neg (by simp), Nat.add_right_comm, Nat.add_assoc]
  rfl

/-- `Form.evalAt` of a form `IsLimited` with any room above its depth if it is wherever the form is
entered. -/
theorem isLimited_of_entered
    (entered : ∀ room, IsLimited (depth + 1 + room) (Reaches scope form (room + 2))
      (form.evalEntered ⟨some (depth + 1 + room), depth + 1⟩ scope) (form.eval none scope))
    (room : Nat) :
    IsLimited (depth + room) (Reaches scope form (room + 1))
      (form.evalAt ⟨some (depth + room), depth⟩ scope) (form.eval none scope) := by
  cases room with
  | zero => exact Or.inl ⟨.self form, evalAt_full depth scope form⟩
  | succ room =>
      rw [evalAt_entered, ← Nat.add_assoc, Nat.add_right_comm]
      exact entered room

/-- `Form.evalAt` of a form that evaluation reaches nothing inside of `IsLimited`. -/
theorem isLimited_leaf (leaf : ∀ room, ¬ Reaches scope form (room + 2))
    (same : ∀ meter meter', form.evalEntered meter scope = form.evalEntered meter' scope)
    (room : Nat) :
    IsLimited (depth + room) (Reaches scope form (room + 1))
      (form.evalAt ⟨some (depth + room), depth⟩ scope) (form.eval none scope) := by
  refine isLimited_of_entered (fun room => Or.inr ⟨leaf room, ?_⟩) room
  exact (same _ _).trans (evalAt_eq (.new none) scope form).symm

/-- **`Form.evalAt` exceeds its limit exactly when evaluation without one reaches a form that is one
level deeper than there is room for**, and else the limit makes no difference. -/
theorem isLimited_evalAt (scope : Scope) (form : Form) (depth room : Nat) :
    IsLimited (depth + room) (Reaches scope form (room + 1))
      (form.evalAt ⟨some (depth + room), depth⟩ scope) (form.eval none scope) := by
  -- the items of a list stand one level deeper and have one level less of room, so both vary
  induction form generalizing depth room with
  | number x => exact isLimited_leaf (by rintro _ ⟨⟩) (fun _ _ => rfl) room
  | string s => exact isLimited_leaf (by rintro _ ⟨⟩) (fun _ _ => rfl) room
  | boolean b => exact isLimited_leaf (by rintro _ ⟨⟩) (fun _ _ => rfl) room
  | symbol name => exact isLimited_leaf (by rintro _ ⟨⟩) (fun _ _ => rfl) room
  | list items ih =>
      cases items with
      | nil => exact isLimited_leaf (by rintro _ ⟨⟩) (fun _ _ => rfl) room
      | cons head tail =>
          refine isLimited_of_entered (fun room => ?_) room
          have first := ih head List.mem_cons_self (depth + 1) room
          have others (value : Value) := isLimited_evalTail value fun item member =>
            ih item (List.mem_cons_of_mem head member) (depth + 1) room
          rw [evalEntered, eval_none_list]
          exact (first.bind others).congr reaches_list_iff
  | quote inner ih => exact isLimited_leaf (by rintro _ ⟨⟩) (fun _ _ => rfl) room

/-- A value of `Form.evalAt`, under any limit and at any depth, is the value of `Form.eval` without
a limit. -/
theorem eval_none_of_evalAt_eq_ok {meter : Meter} {value : Value}
    (h : form.evalAt meter scope = .ok value) : form.eval none scope = .ok value := by
  obtain ⟨limit, depth⟩ := meter
  cases limit with
  | none => rwa [evalAt_unlimited] at h
  | some levels =>
      rcases Nat.lt_or_ge levels depth with passed | fits
      · rw [evalAt_eq, Limit.reached?_some, if_pos (Nat.le_of_lt passed)] at h
        cases h
      · obtain ⟨room, rfl⟩ := Nat.exists_eq_add_of_le fits
        rcases isLimited_evalAt scope form depth room with ⟨-, exceeds⟩ | ⟨-, same⟩
        · cases exceeds.symm.trans h
        · exact same.symm.trans h

/-- `Form.eval` exceeds its limit exactly when evaluation without one reaches a form that is one
level deeper, and else the limit makes no difference. -/
theorem isLimited_eval (levels : Nat) (scope : Scope) (form : Form) :
    IsLimited levels (Reaches scope form (levels + 1)) (form.eval (some levels) scope)
      (form.eval none scope) := by
  have atOnce := isLimited_evalAt scope form 0 levels
  rwa [Nat.zero_add] at atOnce

/-- `Form.eval` without a limit never exceeds one. -/
theorem eval_none_ne_recursionLimit (scope : Scope) (form : Form) (levels : Nat) :
    form.eval none scope ≠ .error (.recursionLimit levels) :=
  evalAt_ne_recursionLimit scope form (Limit.allows_none 0 form.depth) levels

/-- `Form.eval` exceeds its limit exactly when evaluation without one reaches a form that is one
level deeper. -/
theorem eval_eq_recursionLimit_iff {scope : Scope} {form : Form} {levels : Nat} :
    form.eval (some levels) scope = .error (.recursionLimit levels) ↔
      Reaches scope form (levels + 1) := by
  rcases isLimited_eval levels scope form with ⟨reaches, exceeds⟩ | ⟨unreached, same⟩
  · exact iff_of_true exceeds reaches
  · rw [same]
    exact iff_of_false (eval_none_ne_recursionLimit scope form levels) unreached

/-! ### Many evaluations with one meter -/

/-- The results of evaluating forms, each in a scope of its own, one after the other with one
meter, and the meter after that. -/
def evalMeteredAll : List (Scope × Form) → Meter → List (Except EvalError Value) × Meter
  | [], meter => ([], meter)
  | (scope, form) :: others, meter =>
    let (result, meter) := form.evalMetered scope meter
    let (results, meter) := evalMeteredAll others meter
    (result :: results, meter)

/-- **`evalMeteredAll` gives each form the result that `Form.evalAt` gives it**, and leaves the
meter as it was. -/
theorem evalMeteredAll_eq (requests : List (Scope × Form)) (meter : Meter) :
    evalMeteredAll requests meter =
      (requests.map fun request => request.2.evalAt meter request.1, meter) := by
  induction requests with
  | nil => rfl
  | cons request requests ih =>
      obtain ⟨scope, form⟩ := request
      rw [evalMeteredAll, evalMetered_eq]
      simp only [ih, List.map_cons]

/-- Leaving out requests of `evalMeteredAll` leaves out their own results and no others. -/
theorem zip_results_sublist {requests kept : List (Scope × Form)} (fewer : kept.Sublist requests)
    (meter : Meter) :
    (kept.zip (evalMeteredAll kept meter).1).Sublist
      (requests.zip (evalMeteredAll requests meter).1) := by
  have paired (requests : List (Scope × Form)) : requests.zip (evalMeteredAll requests meter).1 =
      requests.map fun request => (request, request.2.evalAt meter request.1) := by
    rw [evalMeteredAll_eq, List.map_prod_left_eq_zip]
  rw [paired, paired]
  exact fewer.map _

/-- **What a limit does to `Form.eval`, and that a meter is always restored.** The limit is exceeded
if and only if evaluation without it comes to a form that is one level deeper, before anything
fails; else it makes no difference. Whatever an evaluation comes to, it leaves the meter as it was.
So of evaluations that share a meter, each comes to what it comes to with a fresh one, and to leave
out any of them changes nothing for the others. -/
theorem eval_under_limit :
    (∀ (levels : Nat) (scope : Scope) (form : Form),
      (form.eval (some levels) scope = .error (.recursionLimit levels) ↔
        Reaches scope form (levels + 1)) ∧
      (¬ Reaches scope form (levels + 1) →
        form.eval (some levels) scope = form.eval none scope)) ∧
    (∀ (scope : Scope) (form : Form) (meter : Meter), (form.evalMetered scope meter).2 = meter) ∧
    (∀ (limit : Limit) (scope : Scope) (form : Form),
      (form.evalMetered scope (.new limit)).1 = form.eval limit scope) ∧
    ∀ (limit : Limit) (requests : List (Scope × Form)),
      evalMeteredAll requests (.new limit) =
        (requests.map fun request => request.2.eval limit request.1, .new limit) ∧
      ∀ kept : List (Scope × Form), kept.Sublist requests →
        (kept.zip (evalMeteredAll kept (.new limit)).1).Sublist
          (requests.zip (evalMeteredAll requests (.new limit)).1) := by
  refine ⟨fun levels scope form => ⟨eval_eq_recursionLimit_iff, fun unreached => ?_⟩,
    fun scope form meter => ?_, fun limit scope form => ?_, fun limit requests => ⟨?_, ?_⟩⟩
  · rcases isLimited_eval levels scope form with ⟨reaches, -⟩ | ⟨-, same⟩
    · exact absurd reaches unreached
    · exact same
  · rw [evalMetered_eq]
  · rw [evalMetered_eq]
    rfl
  · exact evalMeteredAll_eq requests (.new limit)
  · exact fun kept fewer => zip_results_sublist fewer (.new limit)

/-- A call whose first argument fails on the third level, and whose second would go down to the
fourth. -/
def failsFirst : Form :=
  list [symbol "list", list [symbol "car", list []], list [symbol "list", list [number 1]]]

/-- The call `failsFirst`, and behind it a literal. -/
def failsThenSucceeds : List (Scope × Form) :=
  [(.program, failsFirst), (.program, boolean true)]

/-- The fourth level of `failsFirst` is never come to, so three are enough for the failure to show;
two are not. The literal has its value all the same, with the call in front of it or without. -/
theorem eval_under_limit_failsFirst :
    Reaches .program failsFirst 3 ∧ ¬ Reaches .program failsFirst 4 ∧ failsFirst.depth = 4 ∧
      failsFirst.eval (some 2) .program = .error (.recursionLimit 2) ∧
      failsFirst.eval (some 3) .program = .error (.emptyList "car") ∧
      failsFirst.eval (some 3) .program = failsFirst.eval none .program ∧
      evalMeteredAll failsThenSucceeds (.new (some 2)) =
        ([.error (.recursionLimit 2), .ok (.boolean true)], .new (some 2)) ∧
      (failsThenSucceeds.drop 1).Sublist failsThenSucceeds ∧
      ((failsThenSucceeds.drop 1).zip
          (evalMeteredAll (failsThenSucceeds.drop 1) (.new (some 2))).1).Sublist
        (failsThenSucceeds.zip (evalMeteredAll failsThenSucceeds (.new (some 2))).1) := by
  obtain ⟨limited, -, -, sequence⟩ := eval_under_limit
  obtain ⟨exceeds, -⟩ := limited 2 .program failsFirst
  obtain ⟨exceeds', unfelt⟩ := limited 3 .program failsFirst
  have stops : failsFirst.eval (some 2) .program = .error (.recursionLimit 2) := rfl
  have fails : failsFirst.eval (some 3) .program = .error (.emptyList "car") := rfl
  have unreached : ¬ Reaches .program failsFirst 4 := by
    intro reaches
    have exceeded := exceeds'.2 reaches
    rw [fails] at exceeded
    cases exceeded
  obtain ⟨all, fewer⟩ := sequence (some 2) failsThenSucceeds
  have behind := List.drop_sublist 1 failsThenSucceeds
  exact ⟨exceeds.1 stops, unreached, rfl, stops, fails, unfelt unreached, all, behind,
    fewer _ behind⟩

end SmallScheme.Form
