import SmallScheme.Proofs.Form.Depth
import SmallScheme.Proofs.Form.Passage

/-!
# What is open around a place

Behind some of the lexemes of a form, lists and quotations are open that have begun and are not
complete: a list if forms have been spelled behind its parenthesis, and a quotation if nothing
has been spelled behind its quote mark. This is a matter of the grammar alone
(`Form.OpenBehind`), and the constructs that the reader keeps open are just these
(`Form.openBehind_iff_passes`).

## Main results

* `Reader.exists_passes_of_spelled`: the reader passes over the spelling of a form up to its last
  token, which completes the form.
* `Form.openBehind_iff_passes`: the constructs that the grammar says to be open are those that a
  reader without a limit keeps open.
* `Form.OpenBehind.unique`: lexemes leave the same constructs open, however they are read.
-/

namespace SmallScheme

namespace Reader

variable {limit : Limit} {opened mid last : List Open} {taken others : List Token}

/-- Tokens passed over one after the other, to some open constructs and on from these, are passed
over together. -/
theorem Passes.append (h : Passes limit opened taken mid) (h' : Passes limit mid others last) :
    Passes limit opened (taken ++ others) last := by
  induction h with
  | nil => exact h'
  | cons steps _ ih => exact .cons steps (ih h')

/-- Tokens in two groups that are passed over together are passed over one group after the other. -/
theorem Passes.split (h : Passes limit opened (taken ++ others) last) :
    ∃ mid, Passes limit opened taken mid ∧ Passes limit mid others last := by
  induction taken generalizing opened with
  | nil => exact ⟨opened, .nil, h⟩
  | cons token taken ih =>
      cases h with
      | cons steps later =>
          obtain ⟨mid, front, behind⟩ := ih later
          exact ⟨mid, .cons steps front, behind⟩

/-- Passing over the same tokens from the same constructs leaves the same constructs open. -/
theorem Passes.unique {last' : List Open} (h : Passes limit opened taken last)
    (h' : Passes limit opened taken last') : last' = last := by
  induction h with
  | nil =>
      cases h'
      rfl
  | cons steps _ ih =>
      cases h' with
      | cons steps' later =>
          rw [steps] at steps'
          cases steps'
          exact ih later

/-! ### Spellings are passed over -/

/-- Whether, without a limit, the reader passes over tokens up to the last of them, which
completes a form. -/
def PassesUpTo (form : Form) (opened : List Open) (taken : List Token) : Prop :=
  ∃ front token mid, taken = front ++ [token] ∧ Passes none opened front mid ∧
    step none mid token = complete form opened

/-- Inside a list, tokens up to the completion of a form are passed over and leave the form as the
latest item. -/
theorem PassesUpTo.passes {form : Form} {items : List Form} {outer : List Open}
    (h : PassesUpTo form (.list items :: outer) taken) :
    Passes none (.list items :: outer) taken (.list (form :: items) :: outer) := by
  obtain ⟨front, token, mid, rfl, passes, completes⟩ := h
  exact passes.append (.cons completes .nil)

/-- The reader `PassesUpTo` the end of a form of one lexeme if `Reader.step` completes the form at
that lexeme. -/
theorem passesUpTo_atom {form : Form} {l : Lexeme} (single : form.lexemes = [l])
    (completes : ∀ opened token, token.lexeme = l →
      step none opened token = begin none opened token (complete form opened))
    (spelled : taken.map Token.lexeme = form.lexemes) (opened : List Open) :
    PassesUpTo form opened taken := by
  rw [single] at spelled
  obtain ⟨token, rfl, isLexeme⟩ := List.map_eq_singleton_iff.1 spelled
  exact ⟨[], token, opened, rfl, .nil, completes opened token isLexeme⟩

/-- Inside a list, the spellings of several forms are passed over and leave the forms as the latest
items. -/
theorem passes_items {items : List Form}
    (each : ∀ item ∈ items, ∀ {taken : List Token}, taken.map Token.lexeme = item.lexemes →
      ∀ opened, PassesUpTo item opened taken)
    (before : List Form) (outer : List Open)
    (spelled : taken.map Token.lexeme = Form.lexemesAll items) :
    Passes none (.list before :: outer) taken (.list (items.reverse ++ before) :: outer) := by
  induction items generalizing before taken with
  | nil =>
      obtain rfl : taken = [] := List.map_eq_nil_iff.1 spelled
      exact .nil
  | cons item items ih =>
      obtain ⟨first, others, rfl, firstSpelled, othersSpelled⟩ :=
        List.map_eq_append_iff.1 spelled
      have passed := (each item List.mem_cons_self firstSpelled (.list before :: outer)).passes
      have later := ih (fun x member => each x (List.mem_cons_of_mem item member))
        (item :: before) othersSpelled
      rw [List.reverse_cons, List.append_assoc, List.singleton_append]
      exact passed.append later

/-- **The reader `PassesUpTo` the end of a form's spelling**, whatever is open around it: the last
token completes the form. -/
theorem exists_passes_of_spelled (form : Form) {taken : List Token}
    (spelled : taken.map Token.lexeme = form.lexemes) (opened : List Open) :
    PassesUpTo form opened taken := by
  induction form generalizing taken opened with
  | number x => exact passesUpTo_atom rfl (fun _ _ h => by simp only [step, h]) spelled opened
  | string s => exact passesUpTo_atom rfl (fun _ _ h => by simp only [step, h]) spelled opened
  | boolean b => exact passesUpTo_atom rfl (fun _ _ h => by simp only [step, h]) spelled opened
  | symbol name => exact passesUpTo_atom rfl (fun _ _ h => by simp only [step, h]) spelled opened
  | list items ih =>
      obtain ⟨left, others, rfl, isLeft, othersSpelled⟩ := List.map_eq_cons_iff.1 spelled
      obtain ⟨inside, right, rfl, insideSpelled, rightSpelled⟩ :=
        List.map_eq_append_iff.1 othersSpelled
      obtain ⟨right, rfl, isRight⟩ := List.map_eq_singleton_iff.1 rightSpelled
      have opens : step none opened left = .onward (.list [] :: opened) :=
        step_leftParen isLeft none opened
      have passes := passes_items (fun item member _ => ih item member) [] opened insideSpelled
      rw [List.append_nil] at passes
      refine ⟨left :: inside, right, _, rfl, .cons opens passes, ?_⟩
      rw [step_rightParen isRight, List.reverse_reverse]
  | quote inner ih =>
      obtain ⟨mark, others, rfl, isMark, innerSpelled⟩ := List.map_eq_cons_iff.1 spelled
      have opens : step none opened mark = .onward (.quote :: opened) :=
        step_quote isMark none opened
      obtain ⟨front, token, mid, rfl, passes, completes⟩ := ih innerSpelled (.quote :: opened)
      exact ⟨mark :: front, token, mid, rfl, .cons opens passes, completes⟩

/-- The kind of the token that opened a construct. -/
def Open.kind : Open → Kind
  | .list _ => .leftParen
  | .quote => .quote

end Reader

namespace Form

open Reader

/-! ### What the grammar says to be open -/

/-- Which constructs are open behind lexemes, the innermost first, each as the kind of lexeme that
opened it: none behind no lexemes; a list behind its parenthesis and any number of complete items;
a quotation directly behind its quote mark. -/
inductive OpenBehind : List Lexeme → List Kind → Prop
  | nothing : OpenBehind [] []
  | list {ls : List Lexeme} {around : List Kind} (items : List Form) :
      OpenBehind ls around →
      OpenBehind (ls ++ .leftParen :: lexemesAll items) (.leftParen :: around)
  | quote {ls : List Lexeme} {around : List Kind} :
      OpenBehind ls around → OpenBehind (ls ++ [.quote]) (.quote :: around)

/-- The kinds of the constructs that a reader keeps open are those that are `OpenBehind` the lexemes
that went into them. -/
theorem openBehind_consumed (opened : List Open) :
    OpenBehind (consumed opened) (opened.map Open.kind) := by
  induction opened with
  | nil => exact .nothing
  | cons construct outer ih =>
      cases construct with
      | list items => exact .list items.reverse ih
      | quote => exact .quote ih

/-- Tokens behind which the grammar has something open are passed over, and leave constructs of
these kinds open. -/
theorem OpenBehind.exists_passes {ls : List Lexeme} {around : List Kind}
    (h : OpenBehind ls around) {taken : List Token} (spelled : taken.map Token.lexeme = ls) :
    ∃ opened, Passes none [] taken opened ∧ opened.map Open.kind = around := by
  induction h generalizing taken with
  | nothing =>
      obtain rfl : taken = [] := List.map_eq_nil_iff.1 spelled
      exact ⟨[], .nil, rfl⟩
  | list items _ ih =>
      obtain ⟨front, others, rfl, frontSpelled, othersSpelled⟩ := List.map_eq_append_iff.1 spelled
      obtain ⟨left, inside, rfl, isLeft, insideSpelled⟩ := List.map_eq_cons_iff.1 othersSpelled
      obtain ⟨opened, passes, rfl⟩ := ih frontSpelled
      have opens : step none opened left = .onward (.list [] :: opened) :=
        step_leftParen isLeft none opened
      have within := passes_items (fun item _ _ => exists_passes_of_spelled item) [] opened
        insideSpelled
      exact ⟨_, passes.append (.cons opens within), rfl⟩
  | quote _ ih =>
      obtain ⟨front, others, rfl, frontSpelled, othersSpelled⟩ := List.map_eq_append_iff.1 spelled
      obtain ⟨mark, rfl, isMark⟩ := List.map_eq_singleton_iff.1 othersSpelled
      obtain ⟨opened, passes, rfl⟩ := ih frontSpelled
      have opens : step none opened mark = .onward (.quote :: opened) :=
        step_quote isMark none opened
      exact ⟨_, passes.append (.cons opens .nil), rfl⟩

/-- **The reader `Passes` over tokens and keeps constructs of some kinds open exactly when these
kinds are `OpenBehind` the lexemes of the tokens.** -/
theorem openBehind_iff_passes {taken : List Token} {around : List Kind} :
    OpenBehind (taken.map Token.lexeme) around ↔
      ∃ opened, Passes none [] taken opened ∧ opened.map Open.kind = around := by
  constructor
  · exact fun h => h.exists_passes rfl
  · rintro ⟨opened, passes, rfl⟩
    have whole : consumed opened = taken.map Token.lexeme := passes.consumed
    rw [← whole]
    exact openBehind_consumed opened

/-- The constructs that are `OpenBehind` some tokens are determined by these tokens. -/
theorem OpenBehind.unique {taken : List Token} {around around' : List Kind}
    (h : OpenBehind (taken.map Token.lexeme) around)
    (h' : OpenBehind (taken.map Token.lexeme) around') : around' = around := by
  obtain ⟨opened, passes, rfl⟩ := openBehind_iff_passes.1 h
  obtain ⟨opened', passes', rfl⟩ := openBehind_iff_passes.1 h'
  rw [passes.unique passes']

end Form

end SmallScheme
