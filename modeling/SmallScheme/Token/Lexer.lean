import SmallScheme.Text
import SmallScheme.Token

/-!
# From source text to tokens

A source is a sequence of pieces with gaps between them. A gap is made of blanks and of
comments, which run from a semicolon to the end of the line. A piece is a parenthesis or a
quote mark alone, a string up to its closing mark, a run of digits and points, or a word up
to the next delimiter; which of these it is shows in its first character, and each is as
long as it can be.

The lexer keeps a cursor: what is still to be read, and how many bytes, lines and columns
are behind it. Reading a token is one gap and one piece. A source that has been read to its
end gives the end of input, again and again to `Lexer.nextToken` and once to
`Lexer.next?`, which notes that it was handed out.

## Main definitions

* `gap`, `afterGap`, `piece`, `afterPiece`: a source taken apart at its front.
* `Lexeme.ofPiece`: the lexeme that a piece spells.
* `Lexer.nextToken`, `Lexer.next?`: the two ways to read on.
* `tokenize`: all tokens of a source, the end of input last.
-/

namespace SmallScheme

/-! ### Gaps -/

/-- The blanks and comments at the front of a source, seen from outside a comment or from
inside one. A comment ends before its line feed, which is a blank. -/
def gap : (inComment : Bool) → List Char → List Char
  | _, [] => []
  | true, c :: cs => c :: gap (c ≠ '\n') cs
  | false, c :: cs =>
    if Text.isBlank c then c :: gap false cs
    else if c = ';' then c :: gap true cs
    else []

/-- What follows the blanks and comments at the front of a source. -/
def afterGap : (inComment : Bool) → List Char → List Char
  | _, [] => []
  | true, c :: cs => afterGap (c ≠ '\n') cs
  | false, c :: cs =>
    if Text.isBlank c then afterGap false cs
    else if c = ';' then afterGap true cs
    else c :: cs

theorem gap_append_afterGap (inComment : Bool) (cs : List Char) :
    gap inComment cs ++ afterGap inComment cs = cs := by
  induction cs generalizing inComment with
  | nil => rfl
  | cons c cs ih =>
    cases inComment with
    | true => simp [gap, afterGap, ih]
    | false =>
      simp only [gap, afterGap]
      split
      · simp [ih]
      · split <;> simp [ih]

/-! ### Pieces -/

/-- Whether a character can stand alone as a piece. -/
def isMark (c : Char) : Bool :=
  c = '(' || c = ')' || c = '\''

/-- Whether a character can stand inside a string. -/
def isStringChar (c : Char) : Bool :=
  c ≠ '"'

/-- Whether a character can stand inside a number. -/
def isNumeral (c : Char) : Bool :=
  c.isDigit || c = '.'

/-- Whether a character can stand inside a word: all but parentheses and blanks. A word may
have quote marks and semicolons behind its first character. -/
def isWordChar (c : Char) : Bool :=
  !(c = '(' || c = ')' || Text.isBlank c)

/-- The piece at the front of a source that starts with neither a blank nor a comment. Of a
source without characters it is empty. -/
def piece : List Char → List Char
  | [] => []
  | c :: cs =>
    if isMark c then [c]
    else if c = '"' then c :: cs.takeWhile isStringChar ++ (cs.dropWhile isStringChar).take 1
    else if c.isDigit then c :: cs.takeWhile isNumeral
    else c :: cs.takeWhile isWordChar

/-- What follows the piece at the front of a source. -/
def afterPiece : List Char → List Char
  | [] => []
  | c :: cs =>
    if isMark c then cs
    else if c = '"' then (cs.dropWhile isStringChar).drop 1
    else if c.isDigit then cs.dropWhile isNumeral
    else cs.dropWhile isWordChar

theorem piece_append_afterPiece (cs : List Char) : piece cs ++ afterPiece cs = cs := by
  cases cs with
  | nil => rfl
  | cons c cs =>
    simp only [piece, afterPiece]
    split
    · rfl
    · split
      · rw [List.append_assoc, List.take_append_drop, List.cons_append,
          List.takeWhile_append_dropWhile]
      · split <;> simp

@[simp]
theorem piece_eq_nil_iff {cs : List Char} : piece cs = [] ↔ cs = [] := by
  cases cs with
  | nil => simp [piece]
  | cons c cs => simp only [piece]; (repeat' split) <;> simp

/-- The lexeme that a piece spells; the empty piece is the end of input. -/
def Lexeme.ofPiece : List Char → Lexeme
  | [] => endOfInput
  | c :: cs =>
    if c = '(' then leftParen
    else if c = ')' then rightParen
    else if c = '\'' then quote
    else if c = '"' then string (String.ofList (cs.takeWhile isStringChar))
    else if c.isDigit then number (Number.ofLiteral (c :: cs))
    else ofWord (String.ofList (c :: cs))

@[simp]
theorem Lexeme.ofPiece_eq_endOfInput_iff {cs : List Char} :
    ofPiece cs = endOfInput ↔ cs = [] := by
  cases cs with
  | nil => simp [ofPiece]
  | cons c cs =>
    simp only [ofPiece, ofWord]
    (repeat' split) <;> simp

/-! ### Cursors -/

/-- A place to read on from: the characters still to be read, the number of bytes that
the characters before them take in UTF-8, and the place of the first one. -/
structure Cursor where
  rest : List Char
  offset : Nat
  place : Place
deriving DecidableEq

namespace Cursor

/-- The cursor at the front of a source. -/
def ofString (source : String) : Cursor :=
  ⟨source.toList, 0, .start⟩

/-- The cursor after a text, before the given rest. -/
def past (c : Cursor) (text rest : List Char) : Cursor :=
  ⟨rest, c.offset + (String.ofList text).utf8ByteSize, c.place.after text⟩

/-- The cursor after the gap that it stands before. -/
def skipGap (c : Cursor) : Cursor :=
  c.past (gap false c.rest) (afterGap false c.rest)

/-- The cursor after the piece that it stands before. -/
def skipPiece (c : Cursor) : Cursor :=
  c.past (piece c.rest) (afterPiece c.rest)

/-- The token at a cursor and the cursor after it. -/
def next (c : Cursor) : Token × Cursor :=
  (⟨.ofPiece (piece c.skipGap.rest), c.skipGap.place⟩, c.skipGap.skipPiece)

theorem length_skipGap_le (c : Cursor) : c.skipGap.rest.length ≤ c.rest.length := by
  have h := congrArg List.length (gap_append_afterGap false c.rest)
  simp only [List.length_append] at h
  simp only [skipGap, past]
  omega

theorem length_skipPiece_lt {c : Cursor} (h : c.rest ≠ []) :
    c.skipPiece.rest.length < c.rest.length := by
  have split := congrArg List.length (piece_append_afterPiece c.rest)
  have nonempty := List.length_pos_iff.2 (mt piece_eq_nil_iff.1 h)
  simp only [List.length_append] at split
  simp only [skipPiece, past]
  omega

/-- `Cursor.next` leaves less to be read, unless its token is the end of input. -/
theorem length_next_lt {c : Cursor} (h : c.next.1.lexeme ≠ .endOfInput) :
    c.next.2.rest.length < c.rest.length := by
  have nonempty : c.skipGap.rest ≠ [] := fun hc => h (by simp [next, hc])
  exact Nat.lt_of_lt_of_le (length_skipPiece_lt nonempty) c.length_skipGap_le

end Cursor

/-! ### Lexers -/

/-- A source being read token by token, with a note of whether its end was handed out. -/
structure Lexer where
  cursor : Cursor
  finished : Bool

namespace Lexer

/-- The lexer that has read nothing of a source. -/
def ofString (source : String) : Lexer :=
  ⟨.ofString source, false⟩

/-- Reads a token whether or not the end was handed out, and leaves the note as it is. -/
def nextToken (l : Lexer) : Token × Lexer :=
  (l.cursor.next.1, ⟨l.cursor.next.2, l.finished⟩)

/-- Reads a token unless the end was handed out, and notes it if this one is the end. -/
def next? (l : Lexer) : Option (Token × Lexer) :=
  if l.finished then none
  else some (l.cursor.next.1, ⟨l.cursor.next.2, l.cursor.next.1.kind = .endOfInput⟩)

/-- A bound on the number of tokens to come. -/
def size (l : Lexer) : Nat :=
  if l.finished then 0 else l.cursor.rest.length + 1

theorem size_next?_lt {l l' : Lexer} {t : Token} (h : l.next? = some (t, l')) :
    l'.size < l.size := by
  simp only [next?] at h
  split at h
  · cases h
  · next unfinished =>
    cases h
    simp only [size, unfinished]
    split
    · simp
    · next going =>
      have moves := Cursor.length_next_lt (c := l.cursor) fun hl =>
        going (by simp [Token.kind, hl, Lexeme.kind])
      simpa using moves

instance : TokenSource Lexer where
  next? := next?
  size := size
  size_lt := size_next?_lt

/-- A lexer whose end was handed out holds no tokens. -/
theorem tokens_finished (c : Cursor) : TokenSource.tokens (⟨c, true⟩ : Lexer) = [] :=
  TokenSource.tokens_of_next?_none rfl

/-- A lexer whose end was not handed out holds the token at its cursor, and then what it
holds behind it. -/
theorem tokens_unfinished (c : Cursor) :
    TokenSource.tokens (⟨c, false⟩ : Lexer) =
      c.next.1 :: TokenSource.tokens (⟨c.next.2, c.next.1.kind = .endOfInput⟩ : Lexer) :=
  TokenSource.tokens_of_next?_some rfl

end Lexer

/-- All tokens of a source, the end of input last. -/
def tokenize (source : String) : List Token :=
  TokenSource.tokens (Lexer.ofString source)

end SmallScheme
