import SmallScheme.Number
import SmallScheme.Text

/-!
# Tokens

A place is a line and a column, both counted from one; a column is one character wide,
whatever the character. The place after a text depends on nothing but the text and the
place it starts from, so places compose over concatenation.

A lexeme is one of the smallest meaningful pieces of a source; a token is a lexeme with the
place of its first character. The end of a source counts as a lexeme of its own, so that
every source has at least one token. Comparison with `==` is by content, and numbers compare
as IEEE 754 asks: not-a-number differs from itself, and the two zeros are equal.

A token source hands out tokens one at a time and holds finitely many of them. The class
lets a reader of tokens run over a list and over a lexer in the same way; a source says how
many tokens it may still hold, which is what makes such a reader terminate.

## Main definitions

* `Place`, `Place.after`: a place, and the place after a text that starts there.
* `Lexeme`, `Token`: what a source is made of, without places and with them.
* `Token.text`: how messages name a token.
* `TokenSource`: taking the next token, with a size that falls by doing so.
* `TokenSource.drain`: all tokens of a source, and what is left of it then.
-/

namespace SmallScheme

/-! ### Places -/

/-- A line and a column of a source. -/
structure Place where
  line : Nat
  column : Nat
deriving DecidableEq, Repr

namespace Place

/-- The place of the first character of a source. -/
def start : Place :=
  ⟨1, 1⟩

/-- The place after a character: a line feed starts a new line, any other character takes
one column. -/
def step (p : Place) (c : Char) : Place :=
  if c = '\n' then ⟨p.line + 1, 1⟩ else ⟨p.line, p.column + 1⟩

/-- The place after a text. -/
def after (p : Place) (text : List Char) : Place :=
  text.foldl step p

@[simp]
theorem after_nil (p : Place) : p.after [] = p := rfl

@[simp]
theorem after_cons (p : Place) (c : Char) (text : List Char) :
    p.after (c :: text) = (p.step c).after text := rfl

@[simp]
theorem after_append (p : Place) (a b : List Char) :
    p.after (a ++ b) = (p.after a).after b :=
  List.foldl_append

end Place

/-! ### Lexemes and tokens -/

/-- The kinds of lexemes. -/
inductive Kind where
  | leftParen
  | rightParen
  | quote
  | number
  | string
  | boolean
  | symbol
  | endOfInput
deriving DecidableEq, Repr

namespace Kind

/-- Every kind, in the order of its declaration. -/
def all : List Kind :=
  [.leftParen, .rightParen, .quote, .number, .string, .boolean, .symbol, .endOfInput]

/-- The name of a kind in messages. -/
def name : Kind → String
  | leftParen => "LeftParen"
  | rightParen => "RightParen"
  | quote => "Quote"
  | number => "Number"
  | string => "String"
  | boolean => "Boolean"
  | symbol => "Symbol"
  | endOfInput => "EndOfInput"

end Kind

/-- The smallest meaningful pieces of a source, and its end. -/
inductive Lexeme where
  | leftParen
  | rightParen
  | quote
  | number (x : Number)
  | string (s : String)
  | boolean (b : Bool)
  | symbol (name : String)
  | endOfInput
deriving BEq

namespace Lexeme

/-- What kind of lexeme it is, its content left out. -/
def kind : Lexeme → Kind
  | leftParen => .leftParen
  | rightParen => .rightParen
  | quote => .quote
  | number _ => .number
  | string _ => .string
  | boolean _ => .boolean
  | symbol _ => .symbol
  | endOfInput => .endOfInput

/-- The end of input is the only lexeme of its kind. -/
theorem kind_eq_endOfInput_iff {l : Lexeme} : l.kind = .endOfInput ↔ l = .endOfInput := by
  cases l <;> simp [kind]

/-- The lexeme that a word spells: the two boolean words are literals, every other word is
a symbol. -/
def ofWord (word : String) : Lexeme :=
  if word = "#t" then boolean true
  else if word = "#f" then boolean false
  else symbol word

/-- The text of a lexeme in messages: its kind, and its content in parentheses. A string is
quoted, a symbol stands as it is. -/
def text : Lexeme → String
  | number x => "Number(" ++ x.text ++ ")"
  | string s => "String(" ++ Text.quoted s ++ ")"
  | boolean true => "Boolean(true)"
  | boolean false => "Boolean(false)"
  | symbol name => "Symbol(" ++ name ++ ")"
  | other => other.kind.name

end Lexeme

/-- A lexeme and the place of its first character. -/
structure Token where
  lexeme : Lexeme
  place : Place
deriving BEq

namespace Token

/-- What kind of lexeme a token holds. -/
def kind (t : Token) : Kind :=
  t.lexeme.kind

/-- The end of a source, at a place. -/
def endAt (place : Place) : Token :=
  ⟨.endOfInput, place⟩

/-- The text of a token in messages: its lexeme and where it is. -/
def text (t : Token) : String :=
  t.lexeme.text ++ " at " ++ toString t.place.line ++ ":" ++ toString t.place.column

end Token

/-! ### Token sources -/

/-- A type whose values hand out finitely many tokens. -/
class TokenSource (σ : Type) where
  /-- The next token and the source after it, or nothing at the end. -/
  next? : σ → Option (Token × σ)
  /-- A bound on the number of tokens to come. -/
  size : σ → Nat
  /-- Taking a token leaves a smaller source. -/
  size_lt : ∀ {s s' : σ} {t : Token}, next? s = some (t, s') → size s' < size s

namespace TokenSource

/-- A list hands out its tokens from the front. -/
instance : TokenSource (List Token) where
  next?
    | [] => none
    | t :: ts => some (t, ts)
  size := List.length
  size_lt {s s' t} h := by
    cases s with
    | nil => cases h
    | cons _ _ => cases h; exact Nat.lt_succ_self _

variable {σ : Type} [TokenSource σ]

/-- All tokens of a source in order, and the source without them. -/
def drain (s : σ) : List Token × σ :=
  match h : next? s with
  | none => ([], s)
  | some (t, s') =>
    have := size_lt h
    ((t :: (drain s').1), (drain s').2)
termination_by size s

/-- The tokens that a source still holds. -/
def tokens (s : σ) : List Token :=
  (drain s).1

/-- A source that hands out nothing holds no tokens. -/
theorem tokens_of_next?_none {s : σ} (h : next? s = none) : tokens s = [] := by
  rw [tokens, drain]
  split
  · rfl
  · next found => rw [h] at found; cases found

/-- The token that a source hands out is the first that it holds. -/
theorem tokens_of_next?_some {s s' : σ} {t : Token} (h : next? s = some (t, s')) :
    tokens s = t :: tokens s' := by
  rw [tokens, drain]
  split
  · next found => rw [h] at found; cases found
  · next found =>
    rw [h] at found
    cases found
    rfl

end TokenSource

end SmallScheme
