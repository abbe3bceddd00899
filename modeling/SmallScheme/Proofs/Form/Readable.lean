import Mathlib.Logic.Relation
import SmallScheme.Proofs.Form.Shape
import SmallScheme.Proofs.Token.Piece

/-!
# Readable forms

Not every form has a source: a number may be negative or not a number at all, a string may hold
a quotation mark, and the name of a symbol may be no word. The readable forms are the others.
To be readable is a property of the lexemes of a form (`Form.readable_iff`), and every piece of
a source spells a lexeme that has it (`IsPiece.readable`).

What stands inside a form are the items of a list and what a quote mark quotes, and whatever stands
inside these (`Form.Inside`). What stands inside a readable form is readable
(`Form.Readable.of_inside`).
-/

namespace SmallScheme

/-- Whether a source can spell a symbol of this name: a word that is neither of the booleans. -/
structure IsName (name : List Char) : Prop where
  nonempty : name ≠ []
  first : ∀ c ∈ name.head?, c ≠ ';' ∧ c ≠ '\'' ∧ c ≠ '"' ∧ c.isDigit = false
  inside : ∀ c ∈ name, c ≠ '(' ∧ c ≠ ')' ∧ Text.isBlank c = false
  notTrue : name ≠ ['#', 't']
  notFalse : name ≠ ['#', 'f']

/-- The forms that have a source: numbers in them are defined and have no sign, strings hold no
quotation mark, and symbols have names that can be spelled. -/
inductive Form.Readable : Form → Prop
  | number {x : Number} : x.isNaN = false → x.isNegative = false → Readable (.number x)
  | string {s : String} : '"' ∉ s.toList → Readable (.string s)
  | boolean {b : Bool} : Readable (.boolean b)
  | symbol {name : String} : IsName name.toList → Readable (.symbol name)
  | list {items : List Form} : (∀ item ∈ items, Readable item) → Readable (.list items)
  | quote {inner : Form} : Readable inner → Readable (.quote inner)

/-- Whether a lexeme can stand in a readable form. -/
def Lexeme.Readable : Lexeme → Prop
  | number x => x.isNaN = false ∧ x.isNegative = false
  | string s => '"' ∉ s.toList
  | symbol name => IsName name.toList
  | _ => True

/-- **A form is readable exactly when all of its lexemes are.** -/
theorem Form.readable_iff {form : Form} : form.Readable ↔ ∀ l ∈ form.lexemes, l.Readable := by
  induction form with
  | number x =>
      rw [lexemes, List.forall_mem_singleton]
      constructor
      · intro readable
        cases readable with
        | number defined positive => exact ⟨defined, positive⟩
      · rintro ⟨defined, positive⟩
        exact .number defined positive
  | string s =>
      rw [lexemes, List.forall_mem_singleton]
      constructor
      · intro readable
        cases readable with
        | string inside => exact inside
      · exact .string
  | boolean b =>
      rw [lexemes, List.forall_mem_singleton]
      exact ⟨fun _ => trivial, fun _ => .boolean⟩
  | symbol name =>
      rw [lexemes, List.forall_mem_singleton]
      constructor
      · intro readable
        cases readable with
        | symbol isName => exact isName
      · exact .symbol
  | list items ih =>
      rw [lexemes, List.forall_mem_cons, List.forall_mem_append, List.forall_mem_singleton]
      constructor
      · intro readable
        cases readable with
        | list each =>
            refine ⟨trivial, fun l isInside => ?_, trivial⟩
            obtain ⟨item, member, inside⟩ := mem_lexemesAll.1 isInside
            exact (ih item member).1 (each item member) l inside
      · rintro ⟨-, each, -⟩
        refine .list fun item member => (ih item member).2 fun l inside => ?_
        exact each l (mem_lexemesAll.2 ⟨item, member, inside⟩)
  | quote inner ih =>
      rw [lexemes, List.forall_mem_cons, ← ih]
      constructor
      · intro readable
        cases readable with
        | quote inside => exact ⟨trivial, inside⟩
      · rintro ⟨-, inside⟩
        exact .quote inside

/-- **The lexeme that a piece of a source spells is readable.** -/
theorem IsPiece.readable {p rest : List Char} {l : Lexeme} (h : IsPiece p rest l) :
    l.Readable := by
  cases h with
  | @number c run _ d _ _ _ denotes =>
      rw [← denotes.ofLiteral_eq]
      exact ⟨Number.isNaN_ofLiteral (c :: run), Number.isNegative_ofLiteral (c :: run)⟩
  | string inside => simpa [Lexeme.Readable] using inside
  | openString inside => simpa [Lexeme.Readable] using inside
  | symbol word notTrue notFalse =>
      rw [Lexeme.Readable, String.toList_ofList]
      exact ⟨word.nonempty, word.first, word.inside, notTrue, notFalse⟩
  | leftParen => trivial
  | rightParen => trivial
  | quote => trivial
  | trueWord => trivial
  | falseWord => trivial

/-! ### Forms inside forms -/

namespace Form

/-- Whether a form is an item of another one, or is what the other one quotes. -/
inductive IsChild : Form → Form → Prop
  | item {form : Form} {items : List Form} : form ∈ items → IsChild form (.list items)
  | quoted (inner : Form) : IsChild inner (.quote inner)

/-- Whether a form stands inside another one, at any depth. -/
def Inside : Form → Form → Prop :=
  Relation.TransGen IsChild

/-- Whether a form is another one or stands inside it. -/
def OccursIn : Form → Form → Prop :=
  Relation.ReflTransGen IsChild

variable {inner child form : Form}

/-- A child of a form stands `Inside` it. -/
theorem IsChild.inside (isChild : child.IsChild form) : child.Inside form :=
  Relation.TransGen.single isChild

/-- A form `Inside` a child of another form is `Inside` that form. -/
theorem Inside.of_child (inside : inner.Inside child) (isChild : child.IsChild form) :
    inner.Inside form :=
  Relation.TransGen.tail inside isChild

/-- Every form `OccursIn` itself. -/
theorem OccursIn.refl (form : Form) : form.OccursIn form :=
  Relation.ReflTransGen.refl

/-- A form that `OccursIn` a child of another form occurs in that form. -/
theorem OccursIn.of_child (occurs : inner.OccursIn child) (isChild : child.IsChild form) :
    inner.OccursIn form :=
  Relation.ReflTransGen.tail occurs isChild

/-- A form `OccursIn` another one exactly when it is that form or occurs in one of its children. -/
theorem occursIn_iff :
    inner.OccursIn form ↔
      form = inner ∨ ∃ child : Form, child.IsChild form ∧ inner.OccursIn child := by
  constructor
  · intro occurs
    rcases Relation.ReflTransGen.cases_tail occurs with same | ⟨child, occurs, isChild⟩
    · exact Or.inl same
    · exact Or.inr ⟨child, isChild, occurs⟩
  · rintro (rfl | ⟨child, isChild, occurs⟩)
    · exact .refl _
    · exact occurs.of_child isChild

/-- The children of a readable form are readable. -/
theorem Readable.of_isChild (readable : form.Readable) (isChild : child.IsChild form) :
    child.Readable := by
  cases isChild with
  | item member =>
      cases readable with
      | list each => exact each child member
  | quoted =>
      cases readable with
      | quote inner => exact inner

/-- **Every form that `OccursIn` a readable form is readable.** -/
theorem Readable.of_occursIn (readable : form.Readable) (occurs : inner.OccursIn form) :
    inner.Readable := by
  induction occurs using Relation.ReflTransGen.head_induction_on with
  | refl => exact readable
  | head isChild _ ih => exact ih.of_isChild isChild

/-- Every form `Inside` a readable form is readable. -/
theorem Readable.of_inside (readable : form.Readable) (inside : inner.Inside form) :
    inner.Readable :=
  readable.of_occursIn inside.to_reflTransGen

end Form

end SmallScheme
