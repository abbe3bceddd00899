import SmallScheme.Proofs.Form.Passage

/-!
# What a reader sees of tokens

A reader decides by the lexemes of tokens. The place of a token has no part in what is read, and
no part in whether and why reading fails; it is only passed on with the token that is reported. So
from tokens with the same lexemes the same is read, or the same error is found at the token of the
same number (`Form.Alike`).

## Main results

* `Reader.step_congr_lexeme`: tokens of one lexeme do the same to the open constructs.
* `Form.alike_of_map_lexeme_eq`: tokens with the same lexemes are read alike.
* `Form.token_of_ofTokens?`: which tokens a read error can be about.
-/

namespace SmallScheme

namespace ReadError

/-- An error of the same kind, reported of another token. -/
def withToken (token : Token) : ReadError → ReadError
  | unclosedParenthesis _ => unclosedParenthesis token
  | unexpectedEndOfInput _ => unexpectedEndOfInput token
  | unexpectedToken _ => unexpectedToken token
  | tokenMismatch expected _ => tokenMismatch expected token
  | tooDeeplyNested limit _ => tooDeeplyNested limit token

end ReadError

namespace Reader

/-- A step of the same kind, its error reported of another token if it has one. -/
def Step.withToken (token : Token) : Step → Step
  | .onward opened => .onward opened
  | .finished form => .finished form
  | .refused error => .refused (error.withToken token)
  | .stopped error => .stopped (error.withToken token)

variable {limit : Limit} {opened last : List Open} {token token' : Token}

/-- `Reader.complete` never gives a step that reports a token. -/
theorem withToken_complete (token : Token) (form : Form) (opened : List Open) :
    (complete form opened).withToken token = complete form opened := by
  induction opened generalizing form with
  | nil => rfl
  | cons construct outer ih =>
      cases construct with
      | quote => exact ih (.quote form)
      | list items => rfl

/-- `Reader.begin` at two tokens gives the same step, but for the token that is reported. -/
theorem begin_withToken (limit : Limit) (opened : List Open) (token token' : Token)
    (step : Step) :
    begin limit opened token' (step.withToken token') =
      (begin limit opened token step).withToken token' := by
  unfold begin
  cases limit.reached? opened.length with
  | some levels => rfl
  | none => rfl

/-- `Reader.endError` at two tokens gives the same error, but for the token that is reported. -/
theorem endError_withToken (limit : Limit) (opened : List Open) (token token' : Token) :
    endError limit opened token' = (endError limit opened token).withToken token' := by
  unfold endError
  split
  · rfl
  · cases limit.reached? opened.length with
    | some levels => rfl
    | none => rfl

/-- **`Reader.step` depends on the lexeme of a token only**, but for the token that is reported. -/
theorem step_congr_lexeme (same : token'.lexeme = token.lexeme) (limit : Limit)
    (opened : List Open) :
    step limit opened token' = (step limit opened token).withToken token' := by
  have atom (form : Form) : begin limit opened token' (complete form opened) =
      (begin limit opened token (complete form opened)).withToken token' := by
    rw [← begin_withToken, withToken_complete]
  cases isLexeme : token.lexeme with
  | leftParen =>
      rw [step_leftParen isLexeme, step_leftParen (same.trans isLexeme), ← begin_withToken]
      rfl
  | rightParen =>
      have refuses : begin limit opened token' (.refused (.unexpectedToken token')) =
          (begin limit opened token (.refused (.unexpectedToken token))).withToken token' := by
        rw [← begin_withToken]
        rfl
      cases opened with
      | nil =>
          simp only [step, isLexeme, same.trans isLexeme]
          exact refuses
      | cons construct outer =>
          cases construct with
          | quote =>
              simp only [step, isLexeme, same.trans isLexeme]
              exact refuses
          | list items =>
              rw [step_rightParen isLexeme, step_rightParen (same.trans isLexeme),
                withToken_complete]
  | quote =>
      rw [step_quote isLexeme, step_quote (same.trans isLexeme), ← begin_withToken]
      rfl
  | number x =>
      simp only [step, isLexeme, same.trans isLexeme]
      exact atom (.number x)
  | string s =>
      simp only [step, isLexeme, same.trans isLexeme]
      exact atom (.string s)
  | boolean b =>
      simp only [step, isLexeme, same.trans isLexeme]
      exact atom (.boolean b)
  | symbol name =>
      simp only [step, isLexeme, same.trans isLexeme]
      exact atom (.symbol name)
  | endOfInput =>
      simp only [step, isLexeme, same.trans isLexeme]
      exact congrArg Step.stopped (endError_withToken limit opened token token')

/-- Tokens with the lexemes of others that the reader `Passes` over are passed over in the same
way. -/
theorem Passes.congr_lexeme {taken taken' : List Token} (h : Passes limit opened taken last)
    (same : taken'.map Token.lexeme = taken.map Token.lexeme) :
    Passes limit opened taken' last := by
  induction h generalizing taken' with
  | nil =>
      obtain rfl : taken' = [] := List.map_eq_nil_iff.1 same
      exact .nil
  | @cons opened next _ token _ steps _ ih =>
      obtain ⟨token', others', rfl, first, others⟩ := List.map_eq_cons_iff.1 same
      refine .cons ?_ (ih others)
      rw [step_congr_lexeme first, steps]
      rfl

/-- `Reader.endError` reports the token that it is given. -/
theorem token_endError (limit : Limit) (opened : List Open) (token : Token) :
    (endError limit opened token).token = token := by
  rcases endError_cases limit opened token with same | same | ⟨levels, same⟩
  · rw [same]; rfl
  · rw [same]; rfl
  · rw [same]; rfl

/-- A step that ends reading with an error reports its own token. -/
theorem token_of_step {error : ReadError}
    (ends : step limit opened token = .refused error ∨ step limit opened token = .stopped error) :
    error.token = token := by
  have properly := endsProperly_step limit opened token
  rcases ends with refuses | stops
  · rw [refuses] at properly
    obtain ⟨rfl, -⟩ := properly
    rfl
  · rw [stops] at properly
    rcases properly with ⟨-, rfl⟩ | ⟨-, levels, -, rfl⟩
    · exact token_endError limit opened token
    · rfl

end Reader

namespace Form

open Reader

/-- Whether two sequences of tokens are read alike: the same form is read or none, or the same error
is found, at tokens of one number and one lexeme. -/
inductive Alike (tokens tokens' : List Token) :
    (outcome outcome' : Except ReadError (Option Form)) → Prop
  | ok {form : Option Form} : Alike tokens tokens' (.ok form) (.ok form)
  | error {error : ReadError} {i : Nat} {token' : Token} :
      tokens[i]? = some error.token → tokens'[i]? = some token' →
      token'.lexeme = error.token.lexeme →
      Alike tokens tokens' (.error error) (.error (error.withToken token'))

variable {tokens tokens' taken rest : List Token} {token : Token}

/-- Tokens with the same lexemes as others can be taken apart at the same token. -/
theorem exists_of_map_lexeme_eq_append
    (same : tokens'.map Token.lexeme = (taken ++ token :: rest).map Token.lexeme) :
    ∃ taken' token' rest', tokens' = taken' ++ token' :: rest' ∧
      taken'.map Token.lexeme = taken.map Token.lexeme ∧ token'.lexeme = token.lexeme := by
  rw [List.map_append] at same
  obtain ⟨taken', others', rfl, front, behind⟩ := List.map_eq_append_iff.1 same
  obtain ⟨token', rest', rfl, first, -⟩ := List.map_eq_cons_iff.1 behind
  exact ⟨taken', token', rest', rfl, front, first⟩

/-- Tokens are read `Alike` if they have the same lexemes and one of them ends reading with an
error. -/
theorem alike_of_step {limit : Limit} {opened : List Open} {error : ReadError}
    (passes : Passes limit [] taken opened) (begins : taken = [] → token.lexeme ≠ .endOfInput)
    (ends : step limit opened token = .refused error ∨ step limit opened token = .stopped error)
    (same : tokens'.map Token.lexeme = (taken ++ token :: rest).map Token.lexeme) :
    Alike (taken ++ token :: rest) tokens' (.error error) (ofTokens? limit tokens') := by
  obtain ⟨taken', token', rest', rfl, front, first⟩ := exists_of_map_lexeme_eq_append same
  have reported : error.token = token := token_of_step ends
  have number : taken'.length = taken.length := by
    simpa using congrArg List.length front
  have begins' : taken' = [] → token'.lexeme ≠ .endOfInput := by
    rintro rfl
    rw [first]
    exact begins (List.map_eq_nil_iff.1 front.symm)
  have outcome : ofTokens? limit (taken' ++ token' :: rest') = .error (error.withToken token') := by
    rw [ofTokens?, read_append (passes.congr_lexeme front) begins', step_congr_lexeme first]
    rcases ends with refuses | stops
    · rw [refuses]
      rfl
    · rw [stops]
      rfl
  have stands : (taken ++ token :: rest)[taken.length]? = some error.token := by
    rw [reported]
    simp
  have stands' : (taken' ++ token' :: rest')[taken.length]? = some token' := by
    rw [← number]
    simp
  rw [outcome]
  exact .error stands stands' (by rw [reported, first])

/-- **Tokens with the same lexemes are read `Alike`** under any limit, if the end of input is among
them. -/
theorem alike_of_map_lexeme_eq (limit : Limit)
    (ended : ∃ token ∈ tokens, token.lexeme = .endOfInput)
    (same : tokens'.map Token.lexeme = tokens.map Token.lexeme) :
    Alike tokens tokens' (ofTokens? limit tokens) (ofTokens? limit tokens') := by
  obtain ⟨outcome, left, result⟩ : ∃ outcome left, read limit tokens = (outcome, left) :=
    ⟨_, _, rfl⟩
  have course := course_read limit tokens
  have isRead : ofTokens? limit tokens = outcome := congrArg Prod.fst result
  rw [isRead]
  rw [result] at course
  cases course with
  | nothing first =>
      have none : ofTokens? limit tokens' = .ok none := by
        rcases ofTokens?_eq_none_iff.1 isRead with rfl | ⟨place, rest, rfl⟩
        · obtain rfl : tokens' = [] := List.map_eq_nil_iff.1 same
          rfl
        · obtain ⟨token', rest', rfl, isEnd, -⟩ := List.map_eq_cons_iff.1 same
          refine ofTokens?_eq_none_iff.2 (Or.inr ⟨token'.place, rest', ?_⟩)
          obtain ⟨lexeme, place'⟩ := token'
          obtain rfl : lexeme = .endOfInput := isEnd
          rfl
      rw [none]
      exact .ok
  | @complete taken rest opened token form passes completes =>
      obtain ⟨taken', token', rest', rfl, front, first⟩ := exists_of_map_lexeme_eq_append same
      have properly := endsProperly_step limit opened token
      rw [completes] at properly
      have whole : ofTokens? limit (taken' ++ token' :: rest') = .ok (some form) := by
        rw [ofTokens?, read_append (passes.congr_lexeme front) (fun _ => by rwa [first]),
          step_congr_lexeme first, completes]
        rfl
      rw [whole]
      exact .ok
  | @refused taken rest opened token error passes refuses =>
      have properly := endsProperly_step limit opened token
      rw [refuses] at properly
      obtain ⟨-, closes, -⟩ := properly
      exact alike_of_step passes (by simp [closes]) (Or.inl refuses) same
  | @stopped taken _ opened token error passes begins stops =>
      exact alike_of_step passes begins (Or.inr stops) same
  | ranOut passes isLast =>
      obtain ⟨token, member, isEnd⟩ := ended
      exact absurd isEnd (passes.lexeme_ne_endOfInput token member)

/-- **The token of a read error is one of those given to `Form.ofTokens?`**, or an end of input
behind them. -/
theorem token_of_ofTokens? {limit : Limit} {error : ReadError}
    (fails : ofTokens? limit tokens = .error error) :
    error.token ∈ tokens ∨ error.token.lexeme = .endOfInput := by
  obtain ⟨outcome, left, result⟩ : ∃ outcome left, read limit tokens = (outcome, left) :=
    ⟨_, _, rfl⟩
  obtain rfl : outcome = .error error := by
    rw [← fails, ofTokens?, result]
  have course := course_read limit tokens
  rw [result] at course
  cases course with
  | refused _ refuses =>
      rw [token_of_step (Or.inl refuses)]
      exact Or.inl (List.mem_append_right _ List.mem_cons_self)
  | stopped _ _ stops =>
      rw [token_of_step (Or.inr stops)]
      exact Or.inl (List.mem_append_right _ List.mem_cons_self)
  | ranOut _ _ =>
      rw [token_endError]
      exact Or.inr rfl

end Form

end SmallScheme
