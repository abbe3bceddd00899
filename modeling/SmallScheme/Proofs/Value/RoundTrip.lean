import SmallScheme.Proofs.Evaluation.Rules
import SmallScheme.Proofs.Form.RoundTrip
import SmallScheme.Proofs.Value.Parts

/-!
# Printing values and reading them back

Values and forms are printed each in its own way, and the ways part at two points only: a procedure
has no form, and an infinite number is named as such in a value but written out in a form, where it
has to be read again. A value that holds neither (`Value.Plain`) prints as the form of the same
content (`Value.toForm?`), and what has been read of a form can be read of the value.

Forms among the values print as forms, so nothing is asked of what stands inside them.

## Main results

* `Value.exists_toForm?`: a plain value has a form, and prints as that form.
* `Form.toForm?_quoted`, `Form.plain_quoted`: what a quote mark lays open is a plain value of the
  same content, if it is neither quoted once more nor an infinite number.
* `Value.text_toForm?`: printed data is read back, and quoted forms print as themselves.
-/

namespace SmallScheme

namespace Value

/-! ### The form of a value -/

mutual

/-- The form with the same content as a value, if there is one: procedures have none. -/
def toForm? : Value → Option Form
  | number x => some (.number x)
  | string s => some (.string s)
  | boolean b => some (.boolean b)
  | symbol name => some (.symbol name)
  | list items => (toForms? items).map .list
  | procedure _ => none
  | form f => some f

/-- The forms with the same contents as several values, if each of them has one. -/
def toForms? : List Value → Option (List Form)
  | [] => some []
  | value :: values => do return (← value.toForm?) :: (← toForms? values)

end

/-- Whether a value holds no procedure, and no infinite number but inside forms. -/
def Plain (value : Value) : Prop :=
  ∀ part : Value, part.PartOf value →
    (∀ p, part ≠ .procedure p) ∧ ∀ x, part = .number x → x.isInf = false

variable {value : Value} {items : List Value}

/-- The items of a `Plain` list are `Plain`. -/
theorem Plain.item (plain : (list items).Plain) (member : value ∈ items) : value.Plain :=
  fun part isPart => plain part (isPart.item member)

/-- A list of `Plain` items is `Plain`. -/
theorem plain_list (each : ∀ item ∈ items, item.Plain) : (list items).Plain := by
  intro part isPart
  rcases partOf_list_iff.1 isPart with rfl | ⟨item, member, inside⟩
  · simp
  · exact each item member part inside

/-- A value that is no list is `Plain` if it is no procedure and no infinite number. -/
theorem plain_of_not_list (atom : ∀ items, value ≠ .list items)
    (noProcedure : ∀ p, value ≠ .procedure p)
    (finite : ∀ x, value = .number x → x.isInf = false) : value.Plain := by
  intro part isPart
  obtain rfl : part = value := isPart.eq_of_not_list atom
  exact ⟨noProcedure, finite⟩

/-- If each of several values has a form by `Value.toForm?` and prints as it does, then so do all of
them, side by side. -/
theorem exists_toForms? (each : ∀ item ∈ items,
      ∃ form, item.toForm? = some form ∧ item.text = form.text) :
    ∃ forms, toForms? items = some forms ∧ texts items = Form.texts forms := by
  induction items with
  | nil => exact ⟨[], rfl, rfl⟩
  | cons item items ih =>
      obtain ⟨form, isForm, sameText⟩ := each item List.mem_cons_self
      obtain ⟨forms, areForms, sameTexts⟩ :=
        ih fun other member => each other (List.mem_cons_of_mem item member)
      refine ⟨form :: forms, ?_, ?_⟩
      · rw [toForms?, isForm, areForms]
        rfl
      · rw [texts, Form.texts, sameText, sameTexts]

/-- **Every `Plain` value has a form by `Value.toForm?` and prints as that form does.** -/
theorem exists_toForm? (plain : value.Plain) :
    ∃ form, value.toForm? = some form ∧ value.text = form.text := by
  induction value with
  | number x =>
      have finite : x.isInf = false := (plain (.number x) (.refl _)).2 x rfl
      refine ⟨.number x, rfl, ?_⟩
      rw [text, Form.text, Form.numberText, if_neg (Bool.eq_false_iff.1 finite)]
  | string s => exact ⟨.string s, rfl, rfl⟩
  | boolean b => exact ⟨.boolean b, rfl, rfl⟩
  | symbol name => exact ⟨.symbol name, rfl, rfl⟩
  | list items ih =>
      obtain ⟨forms, areForms, sameTexts⟩ :=
        exists_toForms? fun item member => ih item member (plain.item member)
      refine ⟨.list forms, ?_, ?_⟩
      · rw [toForm?, areForms]
        rfl
      · rw [text, Form.text, sameTexts]
  | procedure p => exact absurd rfl ((plain (.procedure p) (.refl _)).1 p)
  | form f => exact ⟨f, rfl, rfl⟩

end Value

/-! ### Quoted forms -/

namespace Form

open Value (toForms?)

/-- Forms that are passed on as values are their own forms. -/
theorem toForms?_map_form (forms : List Form) :
    toForms? (forms.map .form) = some forms := by
  induction forms with
  | nil => rfl
  | cons form forms ih =>
      rw [List.map_cons, toForms?, ih]
      rfl

variable {form : Form}

/-- The value of a quoted form has that form by `Value.toForm?`, unless what is quoted is quoted
once more. -/
theorem toForm?_quoted (once : ∀ inner, form ≠ .quote inner) :
    form.quoted.toForm? = some form := by
  cases form with
  | number x => rfl
  | string s => rfl
  | boolean b => rfl
  | symbol name => rfl
  | list items => rw [quoted, Value.toForm?, toForms?_map_form, Option.map_some]
  | quote inner => exact absurd rfl (once inner)

/-- The value of a quoted form is `Plain`, unless what is quoted is an infinite number. -/
theorem plain_quoted (finite : ∀ x, form = .number x → x.isInf = false) :
    form.quoted.Plain := by
  have unevaluated (inner : Form) : (Value.form inner).Plain :=
    Value.plain_of_not_list (by simp) (by simp) (by simp)
  cases form with
  | number x =>
      refine Value.plain_of_not_list (by simp [quoted]) (by simp [quoted]) ?_
      simpa [quoted] using finite x rfl
  | list items =>
      refine Value.plain_list fun item member => ?_
      obtain ⟨inner, -, rfl⟩ := List.mem_map.1 member
      exact unevaluated inner
  | quote inner => exact unevaluated inner
  | _ => exact Value.plain_of_not_list (by simp [quoted]) (by simp [quoted]) (by simp [quoted])

/-- A quoted form evaluates to its `Form.quoted` under every limit of at least one level. -/
theorem eval_quote {limit : Limit} (room : limit ≠ some 0) (scope : Scope) (inner : Form) :
    (quote inner).eval limit scope = .ok inner.quoted := by
  have entered : limit.reached? 0 = none := by
    cases limit with
    | none => rfl
    | some levels =>
        have one : levels ≠ 0 := by simpa using room
        rw [Limit.reached?_some, if_neg (by omega)]
  rw [eval, evalAt_eq]
  simp only [Meter.new, entered]
  rfl

end Form

/-- **Printed data is read back.** A value that holds no procedure, and no infinite number but
inside forms, prints as the form of the same content, and is read back as that form if the form can
be read at all. In particular a quoted form evaluates to a value that prints as the form does, if
it is neither quoted once more nor an infinite number. -/
theorem Value.text_toForm? :
    (∀ value : Value, value.Plain → ∃ form, value.toForm? = some form ∧ value.text = form.text ∧
        (form.Readable → Form.ofTokens? none (tokenize value.text) = .ok (some form))) ∧
      ∀ form : Form, (∀ inner, form ≠ .quote inner) →
        (∀ x, form = .number x → x.isInf = false) → ∀ limit scope, limit ≠ some 0 →
          ∃ value, (Form.quote form).eval limit scope = .ok value ∧ value.text = form.text := by
  refine ⟨fun value plain => ?_, fun form once finite limit scope room => ?_⟩
  · obtain ⟨form, isForm, sameText⟩ := exists_toForm? plain
    refine ⟨form, isForm, sameText, fun readable => ?_⟩
    rw [sameText]
    exact readable.ofTokens?_text (Limit.allows_none 0 form.depth)
  · obtain ⟨printed, isForm, sameText⟩ := exists_toForm? (Form.plain_quoted finite)
    obtain rfl : form = printed := by simpa [Form.toForm?_quoted once] using isForm
    exact ⟨form.quoted, Form.eval_quote room scope form, sameText⟩

/-- A list of values and forms, with an infinite number inside a form. -/
def mixedValue : Value :=
  .list [.number 1, .form (.quote (.symbol "x")),
    .list [.string "y", .form (.number (.ofPattern Number.infinityBits))]]

/-- The form with the same content as `mixedValue`. -/
def mixedForm : Form :=
  .list [.number 1, .quote (.symbol "x"),
    .list [.string "y", .number (.ofPattern Number.infinityBits)]]

/-- The list `mixedValue` is printed with the digits of the infinite number, and read back as
`mixedForm`. Quoted, that form is laid open under a limit of one level and printed as it was. -/
theorem Value.text_toForm?_mixed :
    mixedValue.Plain ∧ mixedForm.Readable ∧ mixedValue.text = mixedForm.text ∧
      Form.ofTokens? none (tokenize mixedValue.text) = .ok (some mixedForm) ∧
      ∃ value, (Form.quote mixedForm).eval (some 1) .empty = .ok value ∧
        value.text = mixedForm.text := by
  have plain : mixedValue.Plain := by
    have one : (1 : Number).isInf = false := by decide
    refine plain_list (List.forall_mem_cons.2 ⟨?_, List.forall_mem_cons.2 ⟨?_, ?_⟩⟩)
    · exact plain_of_not_list (by simp) (by simp) (by simpa using one)
    · exact plain_of_not_list (by simp) (by simp) (by simp)
    · refine List.forall_mem_singleton.2 (plain_list ?_)
      refine List.forall_mem_cons.2 ⟨?_, List.forall_mem_singleton.2 ?_⟩
      · exact plain_of_not_list (by simp) (by simp) (by simp)
      · exact plain_of_not_list (by simp) (by simp) (by simp)
  have readable : mixedForm.Readable := by
    have infinite : (Form.number (.ofPattern Number.infinityBits)).Readable :=
      .number (Number.isNaN_ofPattern (Nat.le_refl _)) (Number.isNegative_ofPattern (Nat.le_refl _))
    have name : IsName "x".toList :=
      ⟨by decide, by simp, by simp; decide, by decide, by decide⟩
    refine .list (List.forall_mem_cons.2 ⟨?_, List.forall_mem_cons.2 ⟨?_, ?_⟩⟩)
    · exact .number (by decide) (by decide)
    · exact .quote (.symbol name)
    · refine List.forall_mem_singleton.2 (.list ?_)
      exact List.forall_mem_cons.2 ⟨.string (by decide), List.forall_mem_singleton.2 infinite⟩
  obtain ⟨prints, quotes⟩ := text_toForm?
  obtain ⟨form, isForm, sameText, reads⟩ := prints mixedValue plain
  obtain rfl : mixedForm = form := Option.some.inj isForm
  have laidOpen := quotes mixedForm (by simp [mixedForm]) (by simp [mixedForm]) (some 1) .empty
    (by simp)
  exact ⟨plain, readable, sameText, reads readable, laidOpen⟩

end SmallScheme
