import SmallScheme.Number

/-!
# Forms

A form is an expression as it was read, before any evaluation: an atom, a list of forms, or
a quoted form. Its text is again source text for it: a list stands in parentheses with one
space between its items, a quote mark stands before what it quotes, and an infinite number
is written as a run of digits too long for a finite one, since a literal has no other way
to say it. Comparison with `==` is by content, and numbers compare as IEEE 754 asks.

Forms are nested. Reading and evaluating both go down into them, and both can be told how
deep they may go: a limit is a number of levels, or nothing for no limit (`Limit`).

## Main definitions

* `Form`, `Form.text`: expressions, and the text of one.
* `Form.beq`: whether two forms have equal content.
* `Limit.reached?`: the limit, where a depth has used it up.
-/

namespace SmallScheme

/-- Expressions as they are read. -/
inductive Form where
  | number (x : Number)
  | string (s : String)
  | boolean (b : Bool)
  | symbol (name : String)
  | list (items : List Form)
  | quote (inner : Form)

namespace Form

/-- Induction over forms, in which a list has the hypothesis for each of its items. -/
@[elab_as_elim, induction_eliminator]
theorem induction {motive : Form → Prop}
    (number : ∀ x, motive (number x)) (string : ∀ s, motive (string s))
    (boolean : ∀ b, motive (boolean b)) (symbol : ∀ name, motive (symbol name))
    (list : ∀ items, (∀ item ∈ items, motive item) → motive (list items))
    (quote : ∀ inner, motive inner → motive (quote inner)) (form : Form) : motive form :=
  @Form.rec motive (fun items => ∀ item ∈ items, motive item)
    number string boolean symbol list quote (by simp) (by simp +contextual) form

/-- The text of a boolean. -/
def booleanText (b : Bool) : String :=
  if b then "#t" else "#f"

/-- The text of a number in source form: an infinity of either sign is written as the
smallest power of ten that reads as infinite. -/
def numberText (x : Number) : String :=
  if x.isInf then String.ofList ('1' :: List.replicate 309 '0') else x.text

mutual

/-- The source text of a form. Strings stand between quotation marks as they are. -/
def text : Form → String
  | number x => numberText x
  | string s => "\"" ++ s ++ "\""
  | boolean b => booleanText b
  | symbol name => name
  | list items => "(" ++ " ".intercalate (texts items) ++ ")"
  | quote inner => "'" ++ inner.text

/-- The source texts of several forms. -/
def texts : List Form → List String
  | [] => []
  | form :: forms => form.text :: texts forms

end

mutual

/-- Whether two forms have equal content. -/
def beq : Form → Form → Bool
  | number x, number y => x == y
  | string s, string t => s == t
  | boolean a, boolean b => a == b
  | symbol s, symbol t => s == t
  | list xs, list ys => beqAll xs ys
  | quote x, quote y => x.beq y
  | _, _ => false

/-- Whether two lists of forms have equal content, item by item. -/
def beqAll : List Form → List Form → Bool
  | [], [] => true
  | x :: xs, y :: ys => x.beq y && beqAll xs ys
  | _, _ => false

end

instance : BEq Form := ⟨beq⟩

end Form

/-! ### Nesting limits -/

/-- How many levels may be entered, if that is limited. -/
abbrev Limit := Option Nat

/-- The limit, where a depth has used it up and no further level may be entered. -/
def Limit.reached? (limit : Limit) (depth : Nat) : Option Nat :=
  limit.filter (· ≤ depth)

@[simp]
theorem Limit.reached?_none (depth : Nat) : Limit.reached? none depth = none := rfl

theorem Limit.reached?_some (levels depth : Nat) :
    Limit.reached? (some levels) depth = if levels ≤ depth then some levels else none := by
  simp [Limit.reached?, Option.filter_some]

end SmallScheme
