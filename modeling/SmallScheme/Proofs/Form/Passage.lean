import SmallScheme.Proofs.Form.Grammar

/-!
# The course of a run

A run passes over tokens that open constructs or fill them, up to the token at which it ends or
to the end of the source (`Reader.Passes`). What was passed over is accounted for by the
constructs that are then open, so all that a run can come to is a matter of the one step that
ends it.

A reader takes its tokens from a source one at a time, and only as many as it needs. What it
reads is what it would read from the list of all tokens that the source holds, and what it
leaves holds just the tokens that would be left of that list.

## Main results

* `Reader.endsProperly_step`: what a step that ends a run says about its token.
* `Reader.exists_passes`: the tokens that a run passes over, and how they end.
* `Form.course_read`: the courses that reading can take, with what it leaves.
* `Reader.run_tokens`: a run over a source is a run over the tokens that it holds.
* `Form.read_tokens`: the first form of a source is the first form of the tokens that it holds.
-/

namespace SmallScheme

namespace Reader

/-! ### What ends a run -/

section

variable {limit : Limit} {opened : List Open} {token : Token}

/-- Whether a step ends a run for a reason that its token gives: a token is refused only as a
closing parenthesis where no list is open, and reading stops before a token only as the end of
input or for want of depth. -/
def Step.EndsProperly (limit : Limit) (opened : List Open) (token : Token) : Step → Prop
  | .onward _ => token.lexeme ≠ .endOfInput
  | .finished _ => token.lexeme ≠ .endOfInput
  | .refused error =>
    error = .unexpectedToken token ∧ token.lexeme = .rightParen ∧
      (opened = [] ∨ ∃ outer, opened = .quote :: outer)
  | .stopped error =>
    token.lexeme = .endOfInput ∧ error = endError limit opened token ∨
      token.lexeme ≠ .endOfInput ∧ ∃ levels, limit.reached? opened.length = some levels ∧
        error = .tooDeeplyNested levels token

/-- `Reader.endError` is that a parenthesis is unclosed, that a form is missing or that the limit is
exceeded, and reports the token that it is given. -/
theorem endError_cases (limit : Limit) (opened : List Open) (token : Token) :
    endError limit opened token = .unclosedParenthesis token ∨
      endError limit opened token = .unexpectedEndOfInput token ∨
      ∃ levels, endError limit opened token = .tooDeeplyNested levels token := by
  unfold endError
  split
  · exact Or.inl rfl
  · split
    · next levels _ => exact Or.inr (Or.inr ⟨levels, rfl⟩)
    · exact Or.inr (Or.inl rfl)

/-- `Reader.complete` gives a step that `EndsProperly`, at any token but the end of input. -/
theorem endsProperly_complete (inner : token.lexeme ≠ .endOfInput) (form : Form)
    (inside : List Open) : (complete form inside).EndsProperly limit opened token := by
  induction inside generalizing form with
  | nil => exact inner
  | cons construct outer ih =>
      cases construct with
      | quote => exact ih (.quote form)
      | list items => exact inner

/-- `Reader.begin` gives a step that `EndsProperly` if the step that it guards does, at any token
but the end of input. -/
theorem endsProperly_begin {step : Step} (inner : token.lexeme ≠ .endOfInput)
    (ends : step.EndsProperly limit opened token) :
    (begin limit opened token step).EndsProperly limit opened token := by
  unfold begin
  split
  · next levels reached => exact Or.inr ⟨inner, levels, reached, rfl⟩
  · exact ends

/-- **Every `Reader.step` that ends a run has a reason that its token gives.** In particular, a
token is of the expected kind wherever only one kind can stand. -/
theorem endsProperly_step (limit : Limit) (opened : List Open) (token : Token) :
    (step limit opened token).EndsProperly limit opened token := by
  by_cases inner : token.lexeme = .endOfInput
  · simp only [step, inner]
    exact Or.inl ⟨inner, rfl⟩
  · cases isLexeme : token.lexeme with
    | leftParen =>
        rw [step_leftParen isLexeme]
        exact endsProperly_begin inner inner
    | rightParen =>
        cases opened with
        | nil =>
            simp only [step, isLexeme]
            exact endsProperly_begin inner ⟨rfl, isLexeme, Or.inl rfl⟩
        | cons construct outer =>
            cases construct with
            | quote =>
                simp only [step, isLexeme]
                exact endsProperly_begin inner ⟨rfl, isLexeme, Or.inr ⟨outer, rfl⟩⟩
            | list items =>
                rw [step_rightParen isLexeme]
                exact endsProperly_complete inner (.list items.reverse) outer
    | quote =>
        rw [step_quote isLexeme]
        exact endsProperly_begin inner inner
    | number x =>
        simp only [step, isLexeme]
        exact endsProperly_begin inner (endsProperly_complete inner (.number x) opened)
    | string s =>
        simp only [step, isLexeme]
        exact endsProperly_begin inner (endsProperly_complete inner (.string s) opened)
    | boolean b =>
        simp only [step, isLexeme]
        exact endsProperly_begin inner (endsProperly_complete inner (.boolean b) opened)
    | symbol name =>
        simp only [step, isLexeme]
        exact endsProperly_begin inner (endsProperly_complete inner (.symbol name) opened)
    | endOfInput => exact absurd isLexeme inner

end

/-! ### What a run passes over -/

/-- Tokens that a run passes over one after the other, from some open constructs to others. -/
inductive Passes (limit : Limit) : List Open → List Token → List Open → Prop
  | nil {opened : List Open} : Passes limit opened [] opened
  | cons {opened next last : List Open} {token : Token} {others : List Token} :
      step limit opened token = .onward next → Passes limit next others last →
      Passes limit opened (token :: others) last

section

variable {limit : Limit} {opened last : List Open} {taken : List Token}

/-- The constructs that are open behind tokens passed over are spelled by those before and by these
tokens. -/
theorem Passes.consumed (h : Passes limit opened taken last) :
    Reader.consumed last = Reader.consumed opened ++ taken.map Token.lexeme := by
  induction h with
  | nil => rw [List.map_nil, List.append_nil]
  | @cons opened next _ token _ steps _ ih =>
      have accounts := accounts_step limit opened token
      rw [steps] at accounts
      have spelled : Reader.consumed next = Reader.consumed opened ++ [token.lexeme] := accounts
      rw [ih, spelled, List.append_assoc, List.map_cons, List.singleton_append]

/-- A form that a token completes, behind others passed over from the start, is spelled by these
tokens. -/
theorem Passes.lexemes_of_finished {token : Token} {form : Form}
    (h : Passes limit [] taken last) (completes : step limit last token = .finished form) :
    (taken ++ [token]).map Token.lexeme = form.lexemes := by
  have accounts := accounts_step limit last token
  rw [completes, h.consumed] at accounts
  rw [List.map_append]
  exact accounts.symm

/-- The end of input is never passed over. -/
theorem Passes.lexeme_ne_endOfInput (h : Passes limit opened taken last) :
    ∀ token ∈ taken, token.lexeme ≠ .endOfInput := by
  induction h with
  | nil => simp
  | @cons opened _ _ token _ steps _ ih =>
      have inner := endsProperly_step limit opened token
      rw [steps] at inner
      exact List.forall_mem_cons.2 ⟨inner, ih⟩

/-- Reading on in front of tokens that are passed over is reading on behind them, with what they
leave open. -/
theorem Passes.resume (h : Passes limit opened taken last) (before : Token)
    (rest : List Token) :
    Reader.resume limit opened before (taken ++ rest) =
      Reader.resume limit last (taken.getLastD before) rest := by
  induction h generalizing before with
  | nil => rfl
  | @cons _ _ _ token _ steps _ ih =>
      rw [List.cons_append, resume_cons, steps, settle, ih, List.getLastD_cons]

end

/-- **A run `Passes` over tokens until one ends it** or there are no more. -/
theorem exists_passes (limit : Limit) (opened : List Open) (tokens : List Token) :
    ∃ taken last, Passes limit opened taken last ∧
      (tokens = taken ∨ ∃ token rest, tokens = taken ++ token :: rest ∧
        ∀ next, step limit last token ≠ .onward next) := by
  induction tokens generalizing opened with
  | nil => exact ⟨[], opened, .nil, Or.inl rfl⟩
  | cons token tokens ih =>
      by_cases goes : ∃ next, step limit opened token = .onward next
      · obtain ⟨next, steps⟩ := goes
        obtain ⟨taken, last, passes, rfl | ⟨ending, rest, rfl, ends⟩⟩ := ih next
        · exact ⟨token :: tokens, last, .cons steps passes, Or.inl rfl⟩
        · exact ⟨token :: taken, last, .cons steps passes, Or.inr ⟨ending, rest, rfl, ends⟩⟩
      · exact ⟨[], opened, .nil, Or.inr ⟨token, tokens, rfl, fun next steps => goes ⟨next, steps⟩⟩⟩

end Reader

/-! ### The course of the whole reader -/

namespace Form

open Reader

/-- How reading a form goes, and what it leaves of the tokens. -/
inductive Course (limit : Limit) :
    List Token → Except ReadError (Option Form) × List Token → Prop
  /-- There are no tokens, or the end of input is the first. -/
  | nothing {tokens : List Token} :
      (∀ token ∈ tokens.head?, token.lexeme = .endOfInput) →
      Course limit tokens (.ok none, tokens.drop 1)
  /-- A token completes the form, and one more is taken. -/
  | complete {taken rest : List Token} {opened : List Open} {token : Token} {form : Form} :
      Passes limit [] taken opened → step limit opened token = .finished form →
      Course limit (taken ++ token :: rest) (.ok (some form), rest.drop 1)
  /-- A token is refused, and one more is taken. -/
  | refused {taken rest : List Token} {opened : List Open} {token : Token} {error : ReadError} :
      Passes limit [] taken opened → step limit opened token = .refused error →
      Course limit (taken ++ token :: rest) (.error error, rest.drop 1)
  /-- Reading stops before a token, which is taken only as the one ahead. -/
  | stopped {taken rest : List Token} {opened : List Open} {token : Token} {error : ReadError} :
      Passes limit [] taken opened → (taken = [] → token.lexeme ≠ .endOfInput) →
      step limit opened token = .stopped error →
      Course limit (taken ++ token :: rest) (.error error, rest)
  /-- There are no more tokens before a form is complete. -/
  | ranOut {taken : List Token} {opened : List Open} {last : Token} :
      Passes limit [] taken opened → taken.getLast? = some last →
      Course limit taken (.error (endError limit opened (.endAt last.place)), [])

/-- `Reader.advance` leaves out the first token of a list. -/
theorem advance_list (rest : List Token) : advance rest = rest.drop 1 := by
  cases rest with
  | nil => rfl
  | cons token others => rfl

/-- `Form.read` of tokens that do not begin with the end of input is reading on in front of them
with nothing open. -/
theorem read_eq_resume {limit : Limit} {tokens : List Token} (nonempty : tokens ≠ [])
    (begins : ∀ token ∈ tokens.head?, token.lexeme ≠ .endOfInput) (before : Token) :
    read limit tokens = Prod.map (Except.map some) id (resume limit [] before tokens) := by
  cases tokens with
  | nil => exact absurd rfl nonempty
  | cons token rest =>
      have inner : token.kind ≠ .endOfInput :=
        mt Lexeme.kind_eq_endOfInput_iff.1 (begins token rfl)
      rw [read]
      simp only [TokenSource.next?, if_neg inner]
      rfl

/-- `Form.read` of tokens of which some are passed over is settled by the `Reader.step` at the
next one. -/
theorem read_append {limit : Limit} {taken : List Token} {opened : List Open} {token : Token}
    (passes : Passes limit [] taken opened)
    (begins : taken = [] → token.lexeme ≠ .endOfInput) (rest : List Token) :
    read limit (taken ++ token :: rest) =
      Prod.map (Except.map some) id (settle limit token rest (step limit opened token)) := by
  have inner : ∀ first ∈ (taken ++ token :: rest).head?, first.lexeme ≠ .endOfInput := by
    cases taken with
    | nil => simpa using begins rfl
    | cons first others => simpa using passes.lexeme_ne_endOfInput first List.mem_cons_self
  rw [read_eq_resume (List.append_ne_nil_of_right_ne_nil taken (List.cons_ne_nil token rest))
    inner token, passes.resume, resume_cons]

/-- **Reading takes one of the courses that `Course` lists**, whatever the tokens are. -/
theorem course_read (limit : Limit) (tokens : List Token) :
    Course limit tokens (read limit tokens) := by
  cases tokens with
  | nil => exact .nothing (by simp)
  | cons first others =>
      by_cases isEnd : first.lexeme = .endOfInput
      · have ends : first.kind = .endOfInput := Lexeme.kind_eq_endOfInput_iff.2 isEnd
        rw [read]
        simp only [TokenSource.next?, if_pos ends]
        exact .nothing (by simpa using isEnd)
      · obtain ⟨taken, opened, passes, whole | ⟨token, rest, split, ends⟩⟩ :=
          exists_passes limit [] (first :: others)
        · obtain ⟨last, isLast⟩ : ∃ last, taken.getLast? = some last := by
            rw [← whole, List.getLast?_cons]
            exact ⟨_, rfl⟩
          have ran := passes.resume first []
          rw [List.append_nil] at ran
          rw [read_eq_resume (List.cons_ne_nil first others) (by simpa using isEnd) first, whole,
            ran, List.getLastD_eq_getLast?, isLast]
          exact .ranOut passes isLast
        · have begins : taken = [] → token.lexeme ≠ .endOfInput := by
            rintro rfl
            obtain ⟨rfl, -⟩ := List.cons.inj split
            exact isEnd
          rw [split, read_append passes begins]
          cases stepped : step limit opened token with
          | onward next => exact absurd stepped (ends next)
          | finished form =>
              rw [settle, advance_list]
              exact .complete passes stepped
          | refused error =>
              rw [settle, advance_list]
              exact .refused passes stepped
          | stopped error => exact .stopped passes begins stepped

end Form

/-! ### Reading from a stream -/

namespace TokenSource

/-- A list holds just its own tokens. -/
theorem tokens_list (ts : List Token) : tokens ts = ts := by
  induction ts with
  | nil => exact tokens_of_next?_none rfl
  | cons token ts ih =>
      have first : next? (token :: ts) = some (token, ts) := rfl
      rw [tokens_of_next?_some first, ih]

end TokenSource

open TokenSource

variable {σ : Type} [TokenSource σ]

namespace Reader

/-- `Reader.advance` leaves out the first of the tokens that a source holds. -/
theorem tokens_advance (source : σ) : tokens (advance source) = (tokens source).drop 1 := by
  rw [advance]
  split
  · next token rest found => rw [tokens_of_next?_some found, List.drop_one, List.tail_cons]
  · next found => rw [tokens_of_next?_none found, List.drop_nil]

/-- **`Reader.run` over a source comes to what it comes to over the list of its tokens.** -/
theorem run_tokens (limit : Limit) (opened : List Open) (token : Token) (rest : σ) :
    run limit opened token (tokens rest) =
      Prod.map id tokens (run limit opened token rest) := by
  rw [run_eq, run_eq]
  cases step limit opened token with
  | onward further =>
      rw [settle, settle, resume, resume]
      cases found : next? rest with
      | none =>
          have held := tokens_of_next?_none found
          rw [held]
          exact congrArg (Prod.mk _) held.symm
      | some taken =>
          obtain ⟨next, rest'⟩ := taken
          have smaller := size_lt found
          rw [tokens_of_next?_some found]
          exact run_tokens limit further next rest'
  | finished form =>
      rw [settle, settle, Form.advance_list, ← tokens_advance]
      rfl
  | refused error =>
      rw [settle, settle, Form.advance_list, ← tokens_advance]
      rfl
  | stopped error => rfl
termination_by size rest

end Reader

namespace Form

/-- **`Form.read` from a source comes to what it comes to from the list of its tokens**, and what
it leaves of the source holds what it leaves of the list. -/
theorem read_tokens (limit : Limit) (source : σ) :
    read limit (tokens source) = Prod.map id tokens (read limit source) := by
  cases found : next? source with
  | none =>
      have held := tokens_of_next?_none found
      rw [read, read, found, held]
      exact congrArg (Prod.mk _) held.symm
  | some taken =>
      obtain ⟨token, rest⟩ := taken
      rw [read, read, found, tokens_of_next?_some found]
      by_cases ends : token.kind = .endOfInput
      · simp only [next?, if_pos ends]
        rfl
      · simp only [next?, if_neg ends, Reader.run_tokens]
        rfl

end Form

end SmallScheme
