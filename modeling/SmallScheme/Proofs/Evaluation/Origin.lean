import SmallScheme.Proofs.Evaluation.Metered
import SmallScheme.Proofs.Evaluation.Rules
import SmallScheme.Proofs.Form.Readable
import SmallScheme.Proofs.Form.RoundTrip
import SmallScheme.Proofs.Procedure.Parts
import SmallScheme.Proofs.Scope

/-!
# Where values come from

Evaluation computes numbers, booleans and lists. Whatever else is part of a value was there before:
it stands in the form that was evaluated, or in a value that the scope binds (`Form.Origin`). No
procedure comes from a form at all.

In a fresh scope only procedures are bound, so the forms among the values of a program are forms
that stand in its source, and can be read back from their texts.

## Main results

* `Form.origin_of_evalAt`: every part of a value has an origin in the form or in the scope.
* `Form.eval_origin`: where the parts of a value come from, under a limit and with a meter, and that
  the forms in the value of a program are readable.
-/

namespace SmallScheme.Form

/-- Where a part of the value of a form may come from. -/
inductive Origin (form : Form) (scope : Scope) : Value → Prop
  /-- Numbers, booleans and lists are computed. -/
  | computed {part : Value} : part.Computed → Origin form scope part
  /-- A form stands inside the one that was evaluated. -/
  | form {inner : Form} : inner.Inside form → Origin form scope (.form inner)
  /-- A string is a literal of the form. -/
  | string {s : String} : (string s).OccursIn form → Origin form scope (.string s)
  /-- A symbol stands under a quote mark in the form. -/
  | symbol {name : String} :
      (quote (symbol name)).OccursIn form → Origin form scope (.symbol name)
  /-- Anything may be part of what a name is bound to. -/
  | bound {part value : Value} {name : String} :
      scope.get? name = some value → part.PartOf value → Origin form scope part

variable {scope : Scope} {form child : Form} {part value : Value}

/-- A part that has its `Origin` in a child of a form has its origin in the form. -/
theorem Origin.of_child (origin : Origin child scope part) (isChild : child.IsChild form) :
    Origin form scope part := by
  cases origin with
  | computed isComputed => exact .computed isComputed
  | form inside => exact .form (inside.of_child isChild)
  | string occurs => exact .string (occurs.of_child isChild)
  | symbol occurs => exact .symbol (occurs.of_child isChild)
  | bound isBound isPart => exact .bound isBound isPart

/-- The parts of an item that is passed on as a form have their `Origin` in the list. -/
theorem origin_of_item {items : List Form} {item : Form} (member : item ∈ items)
    (isPart : part.PartOf (.form item)) : Origin (list items) scope part := by
  obtain rfl : part = .form item := isPart.eq_of_not_list (by simp)
  exact .form (IsChild.item member).inside

/-- The parts of the value of a quoted form have their `Origin` in it. -/
theorem origin_of_quoted {inner : Form} (isPart : part.PartOf inner.quoted) :
    Origin (quote inner) scope part := by
  have isChild := IsChild.quoted inner
  cases inner with
  | number x =>
      obtain rfl : part = .number x := isPart.eq_of_not_list (by simp [quoted])
      exact .computed (.number x)
  | string s =>
      obtain rfl : part = .string s := isPart.eq_of_not_list (by simp [quoted])
      exact .string ((OccursIn.refl _).of_child isChild)
  | boolean b =>
      obtain rfl : part = .boolean b := isPart.eq_of_not_list (by simp [quoted])
      exact .computed (.boolean b)
  | symbol name =>
      obtain rfl : part = .symbol name := isPart.eq_of_not_list (by simp [quoted])
      exact .symbol (OccursIn.refl _)
  | list items =>
      rcases Value.partOf_list_iff.1 isPart with rfl | ⟨value, member, inside⟩
      · exact .computed (.list _)
      · obtain ⟨item, among, rfl⟩ := List.mem_map.1 member
        exact (origin_of_item among inside).of_child isChild
  | quote inner =>
      obtain rfl : part = .form inner := isPart.eq_of_not_list (by simp [quoted])
      exact .form ((IsChild.quoted inner).inside.of_child isChild)

/-- The parts of the value of a call have their `Origin` in the call, if those of each argument have
theirs in the argument. -/
theorem origin_of_call {meter : Meter} {p : Procedure} {head : Form} {tail : List Form}
    (each : ∀ item ∈ tail, ∀ {arg part : Value}, item.evalAt meter scope = .ok arg →
      part.PartOf arg → Origin item scope part)
    (h : evalTail meter scope tail (.procedure p) = .ok value) (isPart : part.PartOf value) :
    Origin (list (head :: tail)) scope part := by
  obtain ⟨args, areArgs, applied⟩ := bind_eq_ok h
  rcases Procedure.madeOf_apply applied part isPart with isComputed | ⟨arg, member, inside⟩
  · exact .computed isComputed
  · obtain ⟨item, among, isArg⟩ := exists_of_evalAllAt_eq_ok areArgs arg member
    exact (each item among isArg inside).of_child (.item (List.mem_cons_of_mem head among))

/-- The parts of a list that is data have their `Origin` in the list, if those of its first value
have theirs in the first item. -/
theorem origin_of_data {head : Form} {tail : List Form} {first : Value}
    (fromHead : ∀ {part : Value}, part.PartOf first → Origin head scope part)
    (isPart : part.PartOf (.list (first :: tail.map .form))) :
    Origin (list (head :: tail)) scope part := by
  rcases Value.partOf_list_iff.1 isPart with rfl | ⟨item, member, inside⟩
  · exact .computed (.list _)
  · rcases List.mem_cons.1 member with rfl | later
    · exact (fromHead inside).of_child (.item List.mem_cons_self)
    · obtain ⟨other, among, rfl⟩ := List.mem_map.1 later
      exact origin_of_item (List.mem_cons_of_mem head among) inside

/-- **Every part of a value of `Form.evalAt` has an `Origin`.** -/
theorem origin_of_evalAt {meter : Meter} (h : form.evalAt meter scope = .ok value)
    (isPart : part.PartOf value) : Origin form scope part := by
  induction form generalizing meter value part with
  | number x =>
      cases evalEntered_of_evalAt_eq_ok h
      obtain rfl : part = .number x := isPart.eq_of_not_list (by simp)
      exact .computed (.number x)
  | string s =>
      cases evalEntered_of_evalAt_eq_ok h
      obtain rfl : part = .string s := isPart.eq_of_not_list (by simp)
      exact .string (OccursIn.refl _)
  | boolean b =>
      cases evalEntered_of_evalAt_eq_ok h
      obtain rfl : part = .boolean b := isPart.eq_of_not_list (by simp)
      exact .computed (.boolean b)
  | symbol name =>
      have entered := evalEntered_of_evalAt_eq_ok h
      rw [evalEntered] at entered
      split at entered
      · next bound isBound =>
        cases entered
        exact .bound isBound isPart
      · cases entered
  | list items ih =>
      have entered := evalEntered_of_evalAt_eq_ok h
      cases items with
      | nil =>
          cases entered
          rcases Value.partOf_list_iff.1 isPart with rfl | ⟨_, absent, _⟩
          · exact .computed (.list [])
          · cases absent
      | cons head tail =>
          obtain ⟨first, isFirst, behind⟩ := bind_eq_ok entered
          rcases procedure_or_data first with ⟨p, rfl⟩ | data
          · have each : ∀ item ∈ tail, ∀ {arg part : Value},
                item.evalAt meter.raise scope = .ok arg → part.PartOf arg →
                Origin item scope part :=
              fun item among => ih item (List.mem_cons_of_mem head among)
            exact origin_of_call each behind isPart
          · rw [data] at behind
            cases behind
            exact origin_of_data (ih head List.mem_cons_self isFirst) isPart
  | quote inner ih =>
      cases evalEntered_of_evalAt_eq_ok h
      exact origin_of_quoted isPart

/-- A form that has its `Origin` in a readable form and a fresh scope is readable. -/
theorem Origin.readable {inner : Form} (origin : Origin form .program (.form inner))
    (readable : form.Readable) : inner.Readable := by
  cases origin with
  | computed isComputed => cases isComputed
  | form inside => exact readable.of_inside inside
  | bound isBound isPart =>
      rw [Scope.get?_program] at isBound
      obtain ⟨p, -, rfl⟩ := Option.map_eq_some_iff.1 isBound
      cases isPart.eq_of_not_list (by simp)

/-- **Evaluation invents no forms, no strings, no symbols and no procedures.** Every part of a
value, under any limit and with any meter, is a number, a boolean or a list, comes from the form
that was evaluated, or is part of what a name is bound to: a procedure always is. So the forms in
the value of what was read from a source are readable, and are read back from their texts. -/
theorem eval_origin :
    (∀ (form : Form) (scope : Scope) (value : Value),
      ((∃ limit, form.eval limit scope = .ok value) ∨
        ∃ meter, (form.evalMetered scope meter).1 = .ok value) →
      ∀ part : Value, part.PartOf value → Origin form scope part) ∧
    ∀ (limit limit' : Limit) (source : String) (form : Form) (value : Value),
      ofTokens? limit (tokenize source) = .ok (some form) → form.eval limit' .program = .ok value →
      ∀ inner : Form, (Value.form inner).PartOf value →
        inner.Readable ∧ ofTokens? none (tokenize inner.text) = .ok (some inner) := by
  constructor
  · rintro form scope value (⟨limit, isValue⟩ | ⟨meter, isValue⟩) part isPart
    · exact origin_of_evalAt isValue isPart
    · rw [evalMetered_eq] at isValue
      exact origin_of_evalAt isValue isPart
  · intro limit limit' source form value isRead isValue inner isPart
    have readable := (origin_of_evalAt isValue isPart).readable (readable_of_ofTokens? isRead)
    exact ⟨readable, readable.ofTokens?_text (Limit.allows_none 0 inner.depth)⟩

/-- The first item of a quoted list is a symbol that is passed on as a form, and can be read. -/
theorem eval_origin_car :
    (list [.symbol "car", quote (list [.symbol "a"])]).eval none .program =
        .ok (.form (symbol "a")) ∧
      Origin (list [.symbol "car", quote (list [.symbol "a"])]) .program (.form (symbol "a")) ∧
      ofTokens? none (tokenize "a") = .ok (some (symbol "a")) := by
  have isValue : (list [.symbol "car", quote (list [.symbol "a"])]).eval none .program =
      .ok (.form (symbol "a")) := rfl
  have car : Readable (symbol "car") :=
    .symbol ⟨by decide, by simp, by simp; decide, by decide, by decide⟩
  have a : Readable (symbol "a") :=
    .symbol ⟨by decide, by simp, by simp; decide, by decide, by decide⟩
  have quoted : Readable (quote (list [.symbol "a"])) :=
    .quote (.list (List.forall_mem_singleton.2 a))
  have readable : Readable (list [.symbol "car", quote (list [.symbol "a"])]) :=
    .list (List.forall_mem_cons.2 ⟨car, List.forall_mem_singleton.2 quoted⟩)
  have isRead := readable.ofTokens?_text (Limit.allows_none 0 _)
  have origin := eval_origin.1 _ _ _ (Or.inl ⟨none, isValue⟩) _ (.refl _)
  obtain ⟨-, readBack⟩ := eval_origin.2 _ none _ _ _ isRead isValue _ (.refl _)
  exact ⟨isValue, origin, readBack⟩

end SmallScheme.Form
