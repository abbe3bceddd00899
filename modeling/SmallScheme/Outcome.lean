import SmallScheme.Evaluation
import SmallScheme.Form.Reader
import SmallScheme.Token.Lexer

/-!
# From source text to outcome

A source is taken apart into tokens, its first form is read from them, and the form is
evaluated in a fresh scope inside the standard one. The outcome keeps what each stage gave,
so that a form can still be shown when it has no value.

## Main definitions

* `run`: the outcome of a source, one limit holding for reading and for evaluating.
* `evalSource`: the result of the first form of a source, read without a limit.
* `Outcome.beq`: whether two outcomes agree in all parts.
-/

namespace SmallScheme

/-- What the stages gave for one source. -/
structure Outcome where
  tokens : List Token
  form : Except ReadError (Option Form)
  /-- The result of evaluation, if a form was read. -/
  result : Option (Except EvalError Value)

/-- The outcome of a source under a limit. -/
def run (limit : Limit) (source : String) : Outcome :=
  let tokens := tokenize source
  let form := Form.ofTokens? limit tokens
  let result :=
    match form with
    | .ok (some form) => some (form.eval limit .program)
    | _ => none
  ⟨tokens, form, result⟩

/-- What the evaluation of a source comes to: an error in reading it, nothing if it has no
form, or the result of its first form. -/
abbrev Reply := Except ReadError (Option (Except EvalError Value))

/-- The result of the first form of a source. The limit holds for evaluating alone. -/
def evalSource (limit : Limit) (scope : Scope) (source : String) : Reply :=
  (Form.ofTokens? none (tokenize source)).map fun form => form.map (·.eval limit scope)

namespace Outcome

/-- Whether two results are values of equal content or errors of equal content. -/
def sameResult {ε α : Type} [BEq ε] [BEq α] : Except ε α → Except ε α → Bool
  | .ok a, .ok b => a == b
  | .error e, .error f => e == f
  | _, _ => false

/-- Whether two outcomes agree in their tokens, their forms and their results. -/
def beq (a b : Outcome) : Bool :=
  a.tokens == b.tokens && sameResult a.form b.form &&
    match a.result, b.result with
    | some r, some s => sameResult r s
    | none, none => true
    | _, _ => false

instance : BEq Outcome := ⟨beq⟩

end Outcome

end SmallScheme
