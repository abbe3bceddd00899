import Mathlib.Data.List.Chain
import SmallScheme.Proofs.Form.Passage

/-!
# Why nothing can be read

Tokens from which no form can be read have one fault and no other (`Form.Fault`): closing
parentheses are missing behind them, or a form behind a quote mark is, or a closing parenthesis
stands where a form has to begin. The reader reports this fault, with the token that belongs to
it. The faults exclude each other because in the spelling of a form no closing parenthesis
comes first or directly behind a quote mark.

## Main results

* `Form.not_viable_concat`: where a form has to begin, no closing parenthesis can stand.
* `Reader.exists_closed`: the constructs open in a reader can be completed.
* `Form.Course.fault`: reading fails by a fault of the tokens.
* `Form.ofTokens?_fault`: there is one fault and no other, and it is the one reported.
-/

namespace SmallScheme

namespace Form

/-! ### What can be continued -/

/-- Whether lexemes can be continued to the spelling of a form. -/
def Viable (ls : List Lexeme) : Prop :=
  ∃ form : Form, ls <+: form.lexemes

/-- Whether a form has to begin behind these lexemes: there are none, or a quote mark is the
last. -/
def AwaitsForm (ls : List Lexeme) : Prop :=
  ls = [] ∨ ls.getLast? = some .quote

/-- The front of a `Viable` sequence of lexemes is `Viable`. -/
theorem Viable.of_append {ls more : List Lexeme} (h : Viable (ls ++ more)) : Viable ls := by
  obtain ⟨form, fits⟩ := h
  exact ⟨form, (List.prefix_append ls more).trans fits⟩

/-- The spelling of a form does not begin with a closing parenthesis. -/
theorem head?_lexemes_ne (form : Form) : form.lexemes.head? ≠ some .rightParen := by
  cases form <;> simp [lexemes]

/-- The spelling of a form does not end with a quote mark. -/
theorem getLast?_lexemes_ne (form : Form) : form.lexemes.getLast? ≠ some .quote := by
  induction form with
  | number x => simp [lexemes]
  | string s => simp [lexemes]
  | boolean b => simp [lexemes]
  | symbol name => simp [lexemes]
  | list items ih =>
      rw [lexemes, ← List.cons_append, List.getLast?_concat]
      simp
  | quote inner ih =>
      rw [lexemes, List.getLast?_cons]
      cases last : inner.lexemes.getLast? with
      | none => exact absurd (List.getLast?_eq_none_iff.1 last) inner.lexemes_ne_nil
      | some l =>
          rw [last] at ih
          exact ih

/-- The spelling of several forms does not end with a quote mark. -/
theorem getLast?_lexemesAll_ne (forms : List Form) :
    (lexemesAll forms).getLast? ≠ some .quote := by
  induction forms with
  | nil => simp [lexemesAll]
  | cons form forms ih =>
      rw [lexemesAll, List.getLast?_append]
      cases last : (lexemesAll forms).getLast? with
      | none => exact form.getLast?_lexemes_ne
      | some l =>
          rw [last] at ih
          exact ih

/-- Whether one lexeme may stand directly before another: a quote mark does not stand before a
closing parenthesis. -/
def MayPrecede (l next : Lexeme) : Prop :=
  l = .quote → next ≠ .rightParen

/-- Two sequences in which each lexeme `MayPrecede` the next make such a sequence together, if the
first does not end with a quote mark. -/
theorem isChain_append_of_getLast?_ne {ls others : List Lexeme}
    (chain : ls.IsChain MayPrecede) (chain' : others.IsChain MayPrecede)
    (last : ls.getLast? ≠ some .quote) : (ls ++ others).IsChain MayPrecede := by
  refine List.isChain_append.2 ⟨chain, chain', ?_⟩
  rintro l isLast next - rfl
  exact absurd isLast last

/-- **In the spelling of a form, no closing parenthesis stands directly behind a quote mark.** -/
theorem isChain_lexemes (form : Form) : form.lexemes.IsChain MayPrecede := by
  induction form with
  | number x => exact .singleton _
  | string s => exact .singleton _
  | boolean b => exact .singleton _
  | symbol name => exact .singleton _
  | list items ih =>
      have inside : (lexemesAll items).IsChain MayPrecede := by
        induction items with
        | nil => exact .nil
        | cons item items others =>
            exact isChain_append_of_getLast?_ne (ih item List.mem_cons_self)
              (others fun other member => ih other (List.mem_cons_of_mem item member))
              item.getLast?_lexemes_ne
      have closed := isChain_append_of_getLast?_ne inside (.singleton .rightParen)
        (getLast?_lexemesAll_ne items)
      exact List.isChain_cons.2 ⟨(by rintro _ _ ⟨⟩), closed⟩
  | quote inner ih =>
      refine List.isChain_cons.2 ⟨?_, ih⟩
      rintro next first - rfl
      exact inner.head?_lexemes_ne first

/-- **A closing parenthesis behind lexemes that await a form leaves nothing `Viable`.** -/
theorem not_viable_concat {ls : List Lexeme} (awaits : AwaitsForm ls) :
    ¬ Viable (ls ++ [.rightParen]) := by
  rintro ⟨form, more, whole⟩
  rcases awaits with rfl | last
  · exact form.head?_lexemes_ne (by rw [← whole]; rfl)
  · have chain := form.isChain_lexemes
    rw [← whole] at chain
    have neighbours := (List.isChain_append.1 (List.isChain_append.1 chain).1).2.2
    exact neighbours _ last _ rfl rfl rfl

end Form

/-! ### Completing what is open -/

namespace Reader

/-- **Open constructs with a form inside can be completed** by closing parentheses alone. -/
theorem exists_closed (opened : List Open) (form : Form) :
    ∃ k closed, consumed opened ++ form.lexemes ++ List.replicate k .rightParen =
      Form.lexemes closed := by
  induction opened generalizing form with
  | nil => exact ⟨0, form, by simp [consumed]⟩
  | cons construct outer ih =>
      cases construct with
      | quote =>
          obtain ⟨k, closed, whole⟩ := ih (.quote form)
          refine ⟨k, closed, ?_⟩
          rw [← whole, consumed, Form.lexemes, List.append_assoc (consumed outer),
            List.singleton_append]
      | list items =>
          obtain ⟨k, closed, whole⟩ := ih (.list (items.reverse ++ [form]))
          refine ⟨k + 1, closed, ?_⟩
          rw [← whole, consumed, Form.lexemes, Form.lexemesAll_append, List.replicate_succ]
          simp [Form.lexemesAll]

/-- The lexemes that went into open constructs are `Viable`. -/
theorem viable_consumed (opened : List Open) : Form.Viable (consumed opened) := by
  obtain ⟨k, closed, whole⟩ := exists_closed opened (.boolean true)
  exact ⟨closed, _, by rw [← whole, List.append_assoc]⟩

/-- The constructs around an open list, and the list itself, can be completed by closing parentheses
alone. -/
theorem exists_closed_of_list (items : List Form) (outer : List Open) :
    ∃ k form, 1 ≤ k ∧ consumed (.list items :: outer) ++ List.replicate k .rightParen =
      Form.lexemes form := by
  obtain ⟨k, form, whole⟩ := exists_closed outer (.list items.reverse)
  refine ⟨k + 1, form, Nat.le_add_left 1 k, ?_⟩
  rw [← whole, consumed, Form.lexemes, List.replicate_succ]
  simp

/-- A form has to begin behind the lexemes of open constructs of which the innermost is not a
list. -/
theorem awaitsForm_consumed {opened : List Open}
    (outside : opened = [] ∨ ∃ outer, opened = .quote :: outer) :
    Form.AwaitsForm (consumed opened) := by
  rcases outside with rfl | ⟨outer, rfl⟩
  · exact Or.inl rfl
  · exact Or.inr List.getLast?_concat

end Reader

/-! ### Faults -/

namespace Form

open Reader

/-- The tokens before the first end of input. -/
def beforeEnd (tokens : List Token) : List Token :=
  tokens.takeWhile (·.kind ≠ .endOfInput)

/-- The token at which tokens end: their first end of input, or else one that stands at the
place of the last of them. -/
def endToken (tokens : List Token) : Token :=
  match tokens.find? (·.kind = .endOfInput), tokens.getLast? with
  | some token, _ => token
  | none, some last => .endAt last.place
  | none, none => .endAt .start

/-- What is wrong with tokens that come before an end of input, and the error that says so. -/
inductive Fault (before : List Token) (ending : Token) : ReadError → Prop
  /-- Only closing parentheses are missing. -/
  | unclosed {k : Nat} {form : Form} :
      1 ≤ k → before.map Token.lexeme ++ List.replicate k .rightParen = form.lexemes →
      Fault before ending (.unclosedParenthesis ending)
  /-- A form is missing behind a quote mark. -/
  | unquoted :
      Viable (before.map Token.lexeme) → (before.map Token.lexeme).getLast? = some .quote →
      Fault before ending (.unexpectedEndOfInput ending)
  /-- A closing parenthesis stands where a form has to begin. -/
  | misplaced {taken rest : List Token} {token : Token} :
      before = taken ++ token :: rest → token.lexeme = .rightParen →
      Viable (taken.map Token.lexeme) → AwaitsForm (taken.map Token.lexeme) →
      Fault before ending (.unexpectedToken token)

variable {before taken rest : List Token} {ending token : Token} {error other : ReadError}

/-- Lexemes with a closing parenthesis where a form has to begin are not `Viable`. -/
theorem not_viable_of_misplaced (split : before = taken ++ token :: rest)
    (closes : token.lexeme = .rightParen) (awaits : AwaitsForm (taken.map Token.lexeme)) :
    ¬ Viable (before.map Token.lexeme) := by
  intro viable
  rw [split, List.append_cons, List.map_append, List.map_append, List.map_singleton, closes]
    at viable
  exact not_viable_concat awaits viable.of_append

/-- No more than one closing parenthesis of a sequence can stand, behind lexemes that are `Viable`,
where a form has to begin. -/
theorem eq_of_misplaced {taken' rest' : List Token} {token' : Token}
    (same : taken ++ token :: rest = taken' ++ token' :: rest')
    (closes : token.lexeme = .rightParen) (closes' : token'.lexeme = .rightParen)
    (viable : Viable (taken.map Token.lexeme)) (viable' : Viable (taken'.map Token.lexeme))
    (awaits : AwaitsForm (taken.map Token.lexeme))
    (awaits' : AwaitsForm (taken'.map Token.lexeme)) : token' = token := by
  rcases List.append_eq_append_iff.1 same with ⟨more, longer, others⟩ | ⟨more, longer, others⟩
  · cases more with
    | nil => exact (List.cons.inj others).1.symm
    | cons first more =>
        obtain ⟨rfl, -⟩ := List.cons.inj others
        exact absurd viable' (not_viable_of_misplaced longer closes awaits)
  · cases more with
    | nil => exact (List.cons.inj others).1
    | cons first more =>
        obtain ⟨rfl, -⟩ := List.cons.inj others
        exact absurd viable (not_viable_of_misplaced longer closes' awaits')

/-- **Tokens have at most one `Fault`.** -/
theorem Fault.unique (h : Fault before ending error) (h' : Fault before ending other) :
    other = error := by
  -- with a parenthesis behind them, the tokens are viable in the first case and not in the second
  have unclosed_unquoted : ∀ {k : Nat} {form : Form}, 1 ≤ k →
      before.map Token.lexeme ++ List.replicate k .rightParen = form.lexemes →
      (before.map Token.lexeme).getLast? ≠ some .quote := by
    intro k form positive whole last
    obtain ⟨k, rfl⟩ := Nat.exists_eq_add_of_le' positive
    refine not_viable_concat (Or.inr last) ⟨form, List.replicate k .rightParen, ?_⟩
    rw [← whole, List.replicate_succ, List.append_assoc, List.singleton_append]
  have viable_of_unclosed : ∀ {k : Nat} {form : Form},
      before.map Token.lexeme ++ List.replicate k .rightParen = form.lexemes →
      Viable (before.map Token.lexeme) := fun whole => ⟨_, _, whole⟩
  cases h with
  | unclosed positive whole =>
      cases h' with
      | unclosed _ _ => rfl
      | unquoted _ last => exact absurd last (unclosed_unquoted positive whole)
      | misplaced split closes _ awaits =>
          exact absurd (viable_of_unclosed whole) (not_viable_of_misplaced split closes awaits)
  | unquoted viable last =>
      cases h' with
      | unclosed positive whole => exact absurd last (unclosed_unquoted positive whole)
      | unquoted _ _ => rfl
      | misplaced split closes _ awaits =>
          exact absurd viable (not_viable_of_misplaced split closes awaits)
  | misplaced split closes viable awaits =>
      cases h' with
      | unclosed _ whole =>
          exact absurd (viable_of_unclosed whole) (not_viable_of_misplaced split closes awaits)
      | unquoted viable' _ =>
          exact absurd viable' (not_viable_of_misplaced split closes awaits)
      | misplaced split' closes' viable' awaits' =>
          rw [eq_of_misplaced (split.symm.trans split') closes closes' viable viable' awaits
            awaits']

/-! ### What the reader reports -/

/-- A token whose lexeme is not the end of input is not of that kind. -/
theorem isEnd_eq_false (inner : token.lexeme ≠ .endOfInput) :
    decide (token.kind = .endOfInput) = false :=
  decide_eq_false (mt Lexeme.kind_eq_endOfInput_iff.1 inner)

/-- `beforeEnd` keeps the tokens in front that are no end of input. -/
theorem beforeEnd_append (inner : ∀ token ∈ taken, token.lexeme ≠ .endOfInput)
    (rest : List Token) : beforeEnd (taken ++ rest) = taken ++ beforeEnd rest := by
  refine List.takeWhile_append_of_pos fun token member => ?_
  simp [isEnd_eq_false (inner token member)]

/-- `beforeEnd` keeps nothing of tokens that begin with an end of input. -/
theorem beforeEnd_cons_end (isEnd : token.lexeme = .endOfInput) (rest : List Token) :
    beforeEnd (token :: rest) = [] := by
  refine List.takeWhile_cons_of_neg ?_
  simp [Token.kind, isEnd, Lexeme.kind]

/-- `endToken` is the first end of input among the tokens. -/
theorem endToken_append (inner : ∀ token ∈ taken, token.lexeme ≠ .endOfInput)
    (isEnd : token.lexeme = .endOfInput) : endToken (taken ++ token :: rest) = token := by
  have found : (taken ++ token :: rest).find? (·.kind = .endOfInput) = some token := by
    rw [List.find?_append, List.find?_eq_none.2, Option.none_or, List.find?_cons_of_pos]
    · simp [Token.kind, isEnd, Lexeme.kind]
    · intro other member
      simp [isEnd_eq_false (inner other member)]
  rw [endToken, found]

/-- Without an end of input among the tokens, `endToken` is one at the place of the last of them. -/
theorem endToken_of_getLast? {last : Token} (inner : ∀ token ∈ taken, token.lexeme ≠ .endOfInput)
    (isLast : taken.getLast? = some last) : endToken taken = .endAt last.place := by
  have absent : taken.find? (·.kind = .endOfInput) = none := by
    refine List.find?_eq_none.2 fun token member => ?_
    simp [isEnd_eq_false (inner token member)]
  rw [endToken, absent, isLast]

/-- Tokens that are passed over and leave a form incomplete have the `Fault` that `Reader.endError`
reports. -/
theorem fault_endError {opened : List Open} (passes : Passes none [] taken opened)
    (nonempty : taken ≠ []) (ending : Token) :
    Fault taken ending (endError none opened ending) := by
  have whole : consumed opened = taken.map Token.lexeme := passes.consumed
  match opened with
  | [] => exact absurd (List.map_eq_nil_iff.1 whole.symm) nonempty
  | .quote :: outer =>
      refine .unquoted ?_ ?_
      · rw [← whole]
        exact viable_consumed _
      · rw [← whole]
        exact List.getLast?_concat
  | .list items :: outer =>
      obtain ⟨k, form, positive, closed⟩ := exists_closed_of_list items outer
      rw [whole] at closed
      exact .unclosed positive closed

/-- **Without a limit, an error in reading tokens is their `Fault`.** -/
theorem Course.fault {tokens left : List Token}
    (course : Course none tokens (.error error, left)) :
    Fault (beforeEnd tokens) (endToken tokens) error := by
  cases course with
  | @refused taken rest opened token _ passes stepped =>
      have properly := endsProperly_step none opened token
      rw [stepped] at properly
      obtain ⟨rfl, closes, outside⟩ := properly
      have whole : consumed opened = taken.map Token.lexeme := passes.consumed
      have inner : token.lexeme ≠ .endOfInput := by
        rw [closes]
        rintro ⟨⟩
      have split : beforeEnd (taken ++ token :: rest) = taken ++ token :: beforeEnd rest := by
        rw [beforeEnd_append passes.lexeme_ne_endOfInput, beforeEnd, beforeEnd,
          List.takeWhile_cons_of_pos]
        simp [isEnd_eq_false inner]
      refine .misplaced split closes ?_ ?_
      · rw [← whole]
        exact viable_consumed opened
      · rw [← whole]
        exact awaitsForm_consumed outside
  | @stopped taken rest opened token _ passes begins stepped =>
      have properly := endsProperly_step none opened token
      rw [stepped] at properly
      rcases properly with ⟨isEnd, rfl⟩ | ⟨-, levels, reached, -⟩
      · have inner := passes.lexeme_ne_endOfInput
        have nonempty : taken ≠ [] := fun none => begins none isEnd
        rw [beforeEnd_append inner, beforeEnd_cons_end isEnd, List.append_nil,
          endToken_append inner isEnd]
        exact fault_endError passes nonempty token
      · cases reached
  | @ranOut _ opened last passes isLast =>
      have inner := passes.lexeme_ne_endOfInput
      have before : beforeEnd tokens = tokens := by
        simpa [beforeEnd] using beforeEnd_append inner []
      have nonempty : tokens ≠ [] := by
        rintro rfl
        cases isLast
      rw [before, endToken_of_getLast? inner isLast]
      exact fault_endError passes nonempty (.endAt last.place)

/-- Reading gives no form and no error only if no token comes before the end of input. -/
theorem Course.beforeEnd_eq_nil {tokens left : List Token}
    (course : Course none tokens (.ok none, left)) : beforeEnd tokens = [] := by
  cases course with
  | nothing ends =>
      cases tokens with
      | nil => rfl
      | cons token rest => exact beforeEnd_cons_end (ends token rfl) rest

/-- A form that is read is spelled by the first of the tokens before the end of input. -/
theorem Course.lexemes_prefix {tokens left : List Token} {form : Form}
    (course : Course none tokens (.ok (some form), left)) :
    form.lexemes <+: (beforeEnd tokens).map Token.lexeme := by
  cases course with
  | @complete taken rest opened token _ passes stepped =>
      have properly := endsProperly_step none opened token
      rw [stepped] at properly
      have inner : ∀ t ∈ taken ++ [token], t.lexeme ≠ .endOfInput :=
        List.forall_mem_append.2 ⟨passes.lexeme_ne_endOfInput, List.forall_mem_singleton.2 properly⟩
      rw [List.append_cons, beforeEnd_append inner, List.map_append,
        passes.lexemes_of_finished stepped]
      exact List.prefix_append _ _

/-! ### Expectations -/

/-- `Reader.endError` is never that a token is of an unexpected kind. -/
theorem endError_ne_tokenMismatch (limit : Limit) (opened : List Open) (token : Token)
    (expected : Kind) (got : Token) :
    endError limit opened token ≠ .tokenMismatch expected got := by
  rcases endError_cases limit opened token with same | same | ⟨levels, same⟩
  · rw [same]
    rintro ⟨⟩
  · rw [same]
    rintro ⟨⟩
  · rw [same]
    rintro ⟨⟩

/-- `Reader.step` never stops because a token is of an unexpected kind. -/
theorem step_ne_tokenMismatch (limit : Limit) (opened : List Open) (token : Token)
    (expected : Kind) (got : Token) :
    step limit opened token ≠ .stopped (.tokenMismatch expected got) := by
  intro stops
  have properly := endsProperly_step limit opened token
  rw [stops] at properly
  rcases properly with ⟨-, atEnd⟩ | ⟨-, levels, -, deep⟩
  · exact endError_ne_tokenMismatch limit opened token expected got atEnd.symm
  · cases deep

/-- Reading a list of tokens never fails because a token is of an unexpected kind. -/
theorem Course.ne_tokenMismatch {limit : Limit} {tokens left : List Token}
    (course : Course limit tokens (.error error, left)) (expected : Kind) (got : Token) :
    error ≠ .tokenMismatch expected got := by
  cases course with
  | @refused _ _ opened token _ _ stepped =>
      have properly := endsProperly_step limit opened token
      rw [stepped] at properly
      obtain ⟨rfl, -⟩ := properly
      rintro ⟨⟩
  | @stopped _ _ opened token _ _ _ stepped =>
      rintro rfl
      exact step_ne_tokenMismatch limit opened token expected got stepped
  | ranOut _ _ => exact endError_ne_tokenMismatch _ _ _ expected got

/-- `Form.read` never fails because a token is of an unexpected kind, whatever source hands out
the tokens. -/
theorem read_ne_tokenMismatch {σ : Type} [TokenSource σ] (limit : Limit) (source : σ)
    (expected : Kind) (got : Token) :
    (read limit source).1 ≠ .error (.tokenMismatch expected got) := by
  intro fails
  have course := course_read limit (TokenSource.tokens source)
  rw [read_tokens, Prod.map, fails] at course
  exact course.ne_tokenMismatch expected got rfl

/-! ### All faults -/

/-- **Tokens from which no form can be read have one `Fault`, and `Form.ofTokens?` reports it.** If
something comes before the end of input but no form is spelled there, then closing parentheses are
missing, or a form behind a quote mark is, or a closing parenthesis is misplaced, and only one of
these; the first two are reported with the token at which the tokens end, the last with the
parenthesis. No other error is ever reported without a limit, and that a token is of an unexpected
kind not even with one. -/
theorem ofTokens?_fault :
    (∀ tokens : List Token, beforeEnd tokens ≠ [] →
      (∀ form : Form, ¬ form.lexemes <+: (beforeEnd tokens).map Token.lexeme) →
      ∃ error, ofTokens? none tokens = .error error ∧
        ∀ fault, Fault (beforeEnd tokens) (endToken tokens) fault ↔ fault = error) ∧
      (∀ (tokens : List Token) (last : Token),
        (∀ token ∈ tokens, token.lexeme ≠ .endOfInput) → tokens.getLast? = some last →
        endToken tokens = .endAt last.place) ∧
      (∀ (limit : Limit) (opened : List Open) (token : Token) (expected : Kind) (got : Token),
        step limit opened token ≠ .stopped (.tokenMismatch expected got)) ∧
      ∀ (σ : Type) [TokenSource σ] (limit : Limit) (source : σ) (expected : Kind) (got : Token),
        (read limit source).1 ≠ .error (.tokenMismatch expected got) := by
  refine ⟨fun tokens nonempty noForm => ?_, fun _ _ => endToken_of_getLast?,
    step_ne_tokenMismatch, fun _ _ => read_ne_tokenMismatch⟩
  have course := course_read none tokens
  cases result : read none tokens with
  | mk outcome left =>
      rw [result] at course
      cases outcome with
      | ok found =>
          cases found with
          | none => exact absurd course.beforeEnd_eq_nil nonempty
          | some form => exact absurd course.lexemes_prefix (noForm form)
      | error error =>
          refine ⟨error, congrArg Prod.fst result, fun fault => ⟨course.fault.unique, ?_⟩⟩
          rintro rfl
          exact course.fault

/-- The tokens of a list that is closed where a quote mark still waits for its form. -/
def closedBehindQuote : List Token :=
  [⟨.leftParen, ⟨1, 1⟩⟩, ⟨.quote, ⟨1, 2⟩⟩, ⟨.rightParen, ⟨1, 3⟩⟩, .endAt ⟨1, 4⟩]

/-- The list `closedBehindQuote` has a quote mark without a form, and is read with one fault only:
its closing parenthesis is misplaced. -/
theorem fault_closedBehindQuote :
    beforeEnd closedBehindQuote ≠ [] ∧
      (∀ form : Form, ¬ form.lexemes <+: (beforeEnd closedBehindQuote).map Token.lexeme) ∧
      ofTokens? none closedBehindQuote = .error (.unexpectedToken ⟨.rightParen, ⟨1, 3⟩⟩) ∧
      ∀ fault, Fault (beforeEnd closedBehindQuote) (endToken closedBehindQuote) fault ↔
        fault = .unexpectedToken ⟨.rightParen, ⟨1, 3⟩⟩ := by
  have nonempty : beforeEnd closedBehindQuote ≠ [] := List.cons_ne_nil _ _
  have fails : ofTokens? none closedBehindQuote =
      .error (.unexpectedToken ⟨.rightParen, ⟨1, 3⟩⟩) := by
    cbv
  have noForm : ∀ form : Form,
      ¬ form.lexemes <+: (beforeEnd closedBehindQuote).map Token.lexeme := by
    intro form fits
    have longer : form.lexemes <+: closedBehindQuote.map Token.lexeme :=
      fits.trans ((List.takeWhile_prefix _).map _)
    have isRead := ofTokens?_of_spelled longer (Limit.allows_none 0 form.depth)
    rw [fails] at isRead
    cases isRead
  obtain ⟨error, reported, only⟩ := ofTokens?_fault.1 closedBehindQuote nonempty noForm
  rw [fails] at reported
  cases reported
  exact ⟨nonempty, noForm, fails, only⟩

end Form

end SmallScheme
