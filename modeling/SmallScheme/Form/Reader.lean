import SmallScheme.Form
import SmallScheme.Token

/-!
# From tokens to forms

A reader goes over the tokens once, from left to right, and keeps the constructs that are
open around the token it looks at: lists whose closing parenthesis is still to come, with
the items read so far, and quote marks whose form is still to come. An atom or a closing
parenthesis completes a form; it becomes the next item of the innermost open list, after
any quote marks that wait for it have been put around it, or it is the form asked for if
nothing is open.

The reader looks one token ahead. It takes the token after a form that it has completed,
and also the one after a token that it refuses to begin a form with; where it stops for
want of a token or of depth, it takes nothing more.

## Main definitions

* `ReadError`: why no form can be read, with the token at which that shows.
* `Reader.step`: what one token does to the open constructs.
* `Reader.run`: reading on from a token until a form is complete or an error shows.
* `Form.read`: the first form of a token source and the source after it.
-/

namespace SmallScheme

/-! ### Read errors -/

/-- The ways in which reading a form fails. -/
inductive ReadError where
  /-- The tokens end inside a list. -/
  | unclosedParenthesis (token : Token)
  /-- The tokens end where a form has to begin. -/
  | unexpectedEndOfInput (token : Token)
  /-- A token stands where a form has to begin and cannot begin one. -/
  | unexpectedToken (token : Token)
  /-- A token is not of the one kind that can stand there. -/
  | tokenMismatch (expected : Kind) (token : Token)
  /-- A form begins deeper than the limit allows. -/
  | tooDeeplyNested (limit : Nat) (token : Token)
deriving BEq

namespace ReadError

/-- The token at which reading failed. -/
def token : ReadError → Token
  | unclosedParenthesis token => token
  | unexpectedEndOfInput token => token
  | unexpectedToken token => token
  | tokenMismatch _ token => token
  | tooDeeplyNested _ token => token

/-- What is said about a read error. -/
def message : ReadError → String
  | unclosedParenthesis token => "unclosed parenthesis: reached " ++ token.text
  | unexpectedEndOfInput token => "unexpected end of input at " ++ token.text
  | unexpectedToken token => "unexpected token: " ++ token.text
  | tokenMismatch expected token => "expected " ++ expected.name ++ ", got " ++ token.text
  | tooDeeplyNested limit token =>
    "expression nested deeper than " ++ toString limit ++ " levels at " ++ token.text

end ReadError

/-! ### Open constructs -/

namespace Reader

/-- A construct that has begun and is not complete. -/
inductive Open where
  /-- A list with the items read so far, the latest first. -/
  | list (items : List Form)
  /-- A quote mark that waits for its form. -/
  | quote

/-- What a token does to a reader. -/
inductive Step where
  /-- Reading goes on with these constructs open, the innermost first. -/
  | onward (opened : List Open)
  /-- The form asked for is complete. -/
  | finished (form : Form)
  /-- The token is taken and refused. -/
  | refused (error : ReadError)
  /-- Reading stops before the token. -/
  | stopped (error : ReadError)

/-- Puts a complete form into the constructs open around it. -/
def complete (form : Form) : List Open → Step
  | [] => .finished form
  | .quote :: outer => complete (.quote form) outer
  | .list items :: outer => .onward (.list (form :: items) :: outer)

/-- Lets a form begin at a token, unless as many constructs are open as the limit allows. -/
def begin (limit : Limit) (opened : List Open) (token : Token) (step : Step) : Step :=
  match limit.reached? opened.length with
  | some levels => .stopped (.tooDeeplyNested levels token)
  | none => step

/-- Takes a token as one of the only kind that can stand there. -/
def expect (expected : Kind) (token : Token) (step : Step) : Step :=
  if token.kind = expected then step else .stopped (.tokenMismatch expected token)

/-- What is wrong with the end of input: a list can be closed no more, or a form has to
begin there. -/
def endError (limit : Limit) (opened : List Open) (token : Token) : ReadError :=
  match opened with
  | .list _ :: _ => .unclosedParenthesis token
  | _ =>
    match limit.reached? opened.length with
    | some levels => .tooDeeplyNested levels token
    | none => .unexpectedEndOfInput token

/-- What a token does to the constructs open around it. -/
def step (limit : Limit) (opened : List Open) (token : Token) : Step :=
  match token.lexeme with
  | .leftParen =>
    begin limit opened token (expect .leftParen token (.onward (.list [] :: opened)))
  | .rightParen =>
    match opened with
    | .list items :: outer => expect .rightParen token (complete (.list items.reverse) outer)
    | _ => begin limit opened token (.refused (.unexpectedToken token))
  | .quote => begin limit opened token (expect .quote token (.onward (.quote :: opened)))
  | .number x => begin limit opened token (complete (.number x) opened)
  | .string s => begin limit opened token (complete (.string s) opened)
  | .boolean b => begin limit opened token (complete (.boolean b) opened)
  | .symbol name => begin limit opened token (complete (.symbol name) opened)
  | .endOfInput => .stopped (endError limit opened token)

variable {σ : Type} [TokenSource σ]

/-- A source after its next token, or unchanged if it has none. -/
def advance (source : σ) : σ :=
  match TokenSource.next? source with
  | some (_, rest) => rest
  | none => source

/-- Reads on from a token with the given constructs open. A source that runs out counts as
one whose end of input stands at the last token. -/
def run (limit : Limit) (opened : List Open) (token : Token) (rest : σ) :
    Except ReadError Form × σ :=
  match step limit opened token with
  | .finished form => (.ok form, advance rest)
  | .refused error => (.error error, advance rest)
  | .stopped error => (.error error, rest)
  | .onward opened =>
    match h : TokenSource.next? rest with
    | none => (.error (endError limit opened (.endAt token.place)), rest)
    | some (token, rest') =>
      have := TokenSource.size_lt h
      run limit opened token rest'
termination_by TokenSource.size rest

end Reader

namespace Form

variable {σ : Type} [TokenSource σ]

/-- The first form of a token source, if it has one before its end of input, and the source
after it. -/
def read (limit : Limit) (source : σ) : Except ReadError (Option Form) × σ :=
  match TokenSource.next? source with
  | none => (.ok none, source)
  | some (token, rest) =>
    if token.kind = .endOfInput then (.ok none, rest)
    else
      let (form, rest) := Reader.run limit [] token rest
      (form.map some, rest)

/-- The first form of a list of tokens, if it has one before its end of input. -/
def ofTokens? (limit : Limit) (tokens : List Token) : Except ReadError (Option Form) :=
  (read limit tokens).1

end Form

end SmallScheme
