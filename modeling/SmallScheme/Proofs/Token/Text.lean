import SmallScheme.Proofs.Dialogue.Transcript
import SmallScheme.Proofs.Form.RoundTrip
import SmallScheme.Proofs.Number.Text
import SmallScheme.Proofs.Text

/-!
# Tokens known from their text

The text of a token says everything about it. Its end is read first, from the right: the digits of
the column, a colon, the digits of the line. What stands before that is the text of the lexeme,
whatever a symbol in it looks like. It begins with the name of its kind, which has no parenthesis,
and the content stands between the parenthesis behind the name and the last one.

A source spells no symbol with a line feed in it, and all other contents are shown on one line. So
a list of tokens has as many lines as there are tokens.

## Main results

* `Lexeme.text_injective`: a lexeme is known from its text.
* `Token.text_injective`: a token is known from its text.
* `Token.lineFeed_notMem_text`: the text of a token of a source has no line feed.
* `Dialogue.splitsInto_tokenList`: the lines of a list of tokens.
* `Token.text_identifies`: how the text of a token identifies it, and the lines of the tokens of a
  source.
-/

namespace SmallScheme

/-! ### Lexemes -/

namespace Kind

/-- Different kinds have different names. -/
theorem name_inj {k k' : Kind} (same : k.name = k'.name) : k = k' := by
  cases k <;> cases k' <;> first | rfl | exact absurd same (by decide)

/-- The name of a kind has no parenthesis. -/
theorem paren_notMem_name (k : Kind) : ∀ c ∈ k.name.toList, (c != '(') = true := by
  cases k <;> simp [name]

end Kind

namespace Lexeme

/-- What stands behind the name of its kind in the text of a lexeme. -/
def contentChars : Lexeme → List Char
  | number x => '(' :: (x.text.toList ++ [')'])
  | string s => '(' :: ((Text.quoted s).toList ++ [')'])
  | boolean b => '(' :: ((if b then "true" else "false").toList ++ [')'])
  | symbol name => '(' :: (name.toList ++ [')'])
  | _ => []

/-- The text of a lexeme is the name of its kind and its `Lexeme.contentChars`. -/
theorem toList_text (l : Lexeme) : l.text.toList = l.kind.name.toList ++ l.contentChars := by
  cases l with
  | boolean b => cases b <;> simp [text, kind, Kind.name, contentChars]
  | _ => simp [text, kind, Kind.name, contentChars]

/-- Lexemes of the same kind with the same `Lexeme.contentChars` are equal. -/
theorem eq_of_contentChars {l l' : Lexeme} (kinds : l.kind = l'.kind)
    (contents : l.contentChars = l'.contentChars) : l = l' := by
  cases l <;> cases l' <;> first | rfl | cases kinds
  case number.number x y =>
    rw [contentChars, contentChars, List.cons.injEq, List.append_cancel_right_eq] at contents
    rw [Number.text_injective (String.toList_inj.1 contents.2)]
  case string.string s t =>
    rw [contentChars, contentChars, List.cons.injEq, List.append_cancel_right_eq] at contents
    rw [Text.quoted_injective (String.toList_inj.1 contents.2)]
  case boolean.boolean a b =>
    rw [contentChars, contentChars, List.cons.injEq, List.append_cancel_right_eq] at contents
    cases a <;> cases b <;> first | rfl | exact absurd contents.2 (by decide)
  case symbol.symbol s t =>
    rw [contentChars, contentChars, List.cons.injEq, List.append_cancel_right_eq] at contents
    rw [String.toList_inj.1 contents.2]

/-- **Lexemes with the same `Lexeme.text` are equal.** -/
theorem text_injective {l l' : Lexeme} (same : l.text = l'.text) : l = l' := by
  have stop (l : Lexeme) : ∀ c ∈ l.contentChars.head?, (c != '(') = false := by
    cases l <;> simp [contentChars]
  have characters := congrArg String.toList same
  rw [toList_text, toList_text] at characters
  obtain ⟨names, contents⟩ := Text.append_inj_of_run (Kind.paren_notMem_name _) (stop l)
    (Kind.paren_notMem_name _) (stop l') characters
  exact eq_of_contentChars (Kind.name_inj (String.toList_inj.1 names)) contents

/-- The text of a readable lexeme has no line feed. -/
theorem Readable.lineFeed_notMem_text {l : Lexeme} (readable : l.Readable) :
    '\n' ∉ l.text.toList := by
  have name (k : Kind) : '\n' ∉ k.name.toList := by cases k <;> decide
  have content : '\n' ∉ l.contentChars := by
    cases l with
    | number x => simp [contentChars, Number.lineFeed_notMem_text]
    | string s => simp [contentChars, Text.lineFeed_notMem_quoted]
    | boolean b => cases b <;> decide
    | symbol name =>
        have inName : '\n' ∉ name.toList := by
          intro member
          have isName : IsName name.toList := readable
          exact absurd isBlank_lineFeed (Bool.eq_false_iff.1 (isName.inside _ member).2.2)
        simp [contentChars, inName]
    | _ => exact List.not_mem_nil
  rw [toList_text, List.mem_append, not_or]
  exact ⟨name _, content⟩

end Lexeme

/-! ### Tokens -/

namespace Token

/-- The text of a token is that of its lexeme, then its line and its column. -/
theorem toList_text (t : Token) :
    t.text.toList = (t.lexeme.text.toList ++ [' ', 'a', 't'] ++ ' ' ::
      Nat.toDigits 10 t.place.line) ++ ':' :: Nat.toDigits 10 t.place.column := by
  simp [text]

/-- Naturals with the same decimal digits are equal. -/
theorem eq_of_toDigits {m n : Nat} (same : Nat.toDigits 10 m = Nat.toDigits 10 n) : m = n := by
  rw [← Nat.ofDigitChars_ten_toDigits (n := m), same, Nat.ofDigitChars_ten_toDigits]

/-- **Tokens with the same `Token.text` are equal**, in lexeme, line and column. -/
theorem text_injective {t u : Token} (same : t.text = u.text) : t = u := by
  have characters := congrArg String.toList same
  rw [toList_text, toList_text] at characters
  obtain ⟨front, columns⟩ :=
    Text.append_cons_inj_of_run rfl Decimal.isDigit_of_mem_toDigits
      Decimal.isDigit_of_mem_toDigits characters
  obtain ⟨before, lines⟩ :=
    Text.append_cons_inj_of_run rfl Decimal.isDigit_of_mem_toDigits
      Decimal.isDigit_of_mem_toDigits front
  have lexemes := Lexeme.text_injective (String.toList_inj.1 (List.append_cancel_right before))
  obtain ⟨l, ⟨line, column⟩⟩ := t
  obtain ⟨l', ⟨line', column'⟩⟩ := u
  obtain rfl : l = l' := lexemes
  obtain rfl : line = line' := eq_of_toDigits lines
  obtain rfl : column = column' := eq_of_toDigits columns
  rfl

/-- **The text of a token of `tokenize` has no line feed.** -/
theorem lineFeed_notMem_text {source : String} {t : Token} (member : t ∈ tokenize source) :
    '\n' ∉ t.text.toList := by
  have notDigit (n : Nat) : '\n' ∉ Nat.toDigits 10 n :=
    fun digit => Bool.noConfusion (Decimal.isDigit_of_mem_toDigits _ digit)
  have readable : t.lexeme.Readable :=
    Form.readable_of_mem_tokenize (List.mem_map_of_mem (f := Token.lexeme) member)
  have lexeme := readable.lineFeed_notMem_text
  rw [toList_text]
  simp [notDigit, lexeme]

end Token

/-! ### Lists of tokens -/

namespace Dialogue

/-- **`Dialogue.tokenList` gives each token a line of its own**, if no token has a line feed in its
text. -/
theorem splitsInto_tokenList {tokens : List Token} (each : ∀ t ∈ tokens, '\n' ∉ t.text.toList) :
    SplitsInto (encode (tokenList tokens))
      (tokens.map fun t => encode ("\t" ++ t.text ++ "\n")) := by
  induction tokens with
  | nil => exact .nil
  | cons t tokens ih =>
      obtain ⟨first, others⟩ := List.forall_mem_cons.1 each
      have noFeed : '\n' ∉ '\t' :: t.text.toList := by simp [first]
      have whole : tokenList (t :: tokens) =
          String.ofList ('\t' :: t.text.toList ++ '\n' :: (tokenList tokens).toList) := by
        rw [← String.toList_inj, String.toList_ofList]
        simp [tokenList, String.join_cons]
      have line : "\t" ++ t.text ++ "\n" = String.ofList ('\t' :: t.text.toList ++ '\n' :: []) := by
        rw [← String.toList_inj, String.toList_ofList]
        simp
      rw [List.map_cons, whole, line, encode_append_cons, encode_append_cons, String.ofList_toList]
      exact .line (lineFeed_notMem_encode noFeed) (ih others)

/-- If the tokens are shown, `Dialogue.respond` puts their `Dialogue.tokenList` in front of the
answer. -/
theorem respond_showTokens (limit : Limit) (showForm : Bool) (line : String) :
    respond ⟨limit, true, showForm⟩ line =
      tokenList (tokenize line) ++ respond ⟨limit, false, showForm⟩ line := by
  simp [respond, run]

end Dialogue

/-! ### What a text says -/

/-- **`Token.text` identifies a token.** Two tokens have the same text only if they have the same
kind and the same content at the same line and column; numbers have to have the same pattern, so the
two zeros are told apart. No token of a source has a line feed in its text. So where the tokens of a
source are shown, they stand in front of the answer, and their lines are one for each of them. -/
theorem Token.text_identifies :
    (∀ t u : Token, t.text = u.text ↔
      t.kind = u.kind ∧ t.lexeme = u.lexeme ∧ t.place.line = u.place.line ∧
        t.place.column = u.place.column) ∧
    (∀ (x y : Number) (p q : Place),
      Token.text ⟨.number x, p⟩ = Token.text ⟨.number y, q⟩ ↔ x.bits = y.bits ∧ p = q) ∧
    ∀ source : String,
      (∀ t ∈ tokenize source, '\n' ∉ t.text.toList) ∧
      (∀ limit showForm, Dialogue.respond ⟨limit, true, showForm⟩ source =
        Dialogue.tokenList (tokenize source) ++ Dialogue.respond ⟨limit, false, showForm⟩ source) ∧
      Dialogue.SplitsInto (Dialogue.encode (Dialogue.tokenList (tokenize source)))
        ((tokenize source).map fun t => Dialogue.encode ("\t" ++ t.text ++ "\n")) := by
  refine ⟨fun t u => ⟨fun same => ?_, ?_⟩, fun x y p q => ⟨fun same => ?_, ?_⟩, fun source => ?_⟩
  · obtain rfl := text_injective same
    exact ⟨rfl, rfl, rfl, rfl⟩
  · rintro ⟨-, lexemes, lines, columns⟩
    rw [text, lexemes, lines, columns, text]
  · obtain ⟨lexemes, places⟩ := Token.mk.inj (text_injective same)
    obtain rfl := Lexeme.number.inj lexemes
    exact ⟨rfl, places⟩
  · rintro ⟨patterns, rfl⟩
    rw [← Number.ofPattern_bits x, patterns, Number.ofPattern_bits]
  · have each (t : Token) (member : t ∈ tokenize source) := lineFeed_notMem_text member
    exact ⟨each, fun limit showForm => Dialogue.respond_showTokens limit showForm source,
      Dialogue.splitsInto_tokenList each⟩

/-- A symbol that imitates a place is told from the symbol at that place, and the two zeros from
each other. A string with a line feed in it is shown on one line. -/
theorem Token.text_identifies_imitations :
    Token.text ⟨.symbol "a) at 1:1", ⟨2, 3⟩⟩ ≠ Token.text ⟨.symbol "a", ⟨1, 1⟩⟩ ∧
      Token.text ⟨.number 0, ⟨1, 1⟩⟩ ≠ Token.text ⟨.number (-0), ⟨1, 1⟩⟩ ∧
      ⟨.string "\n", ⟨1, 1⟩⟩ ∈ tokenize "\"\n" ∧
      '\n' ∉ (Token.text ⟨.string "\n", ⟨1, 1⟩⟩).toList := by
  obtain ⟨identifies, numbers, sources⟩ := text_identifies
  have member : ⟨.string "\n", ⟨1, 1⟩⟩ ∈ tokenize "\"\n" := by
    have first : tokenize "\"\n" = _ :: _ := Lexer.tokens_unfinished _
    rw [first]
    exact List.mem_cons_self
  refine ⟨fun same => ?_, fun same => ?_, member, (sources _).1 _ member⟩
  · exact absurd ((identifies _ _).1 same).2.2.1 (by decide)
  · exact absurd ((numbers _ _ _ _).1 same).1 (by decide)

end SmallScheme
