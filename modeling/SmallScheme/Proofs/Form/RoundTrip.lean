import SmallScheme.Proofs.Form.Grammar
import SmallScheme.Proofs.Form.Readable
import SmallScheme.Proofs.Token.Layout

/-!
# Printing and reading back

The text of a readable form is laid out as the lexemes that spell the form, so it is read back
as that form. What follows a text in a longer source matters only where a number or a word
ends; in a list it is a blank or a closing parenthesis (`EndsWord`), and both end either.

## Main results

* `Form.Readable.isSpelled`: the text of a readable form spells the form.
* `Form.Readable.ofTokens?_text`: a readable form is read back from its text, under any limit that
  leaves room for it.
* `Form.readable_of_ofTokens?`: only readable forms are read from a source.
-/

namespace SmallScheme

/-- Whether a word comes to its end in front of this rest of a source. -/
def EndsWord (rest : List Char) : Prop :=
  ∀ c ∈ rest.head?, c = '(' ∨ c = ')' ∨ Text.isBlank c = true

/-- A number comes to its end wherever a word does. -/
theorem EndsWord.endsNumber {rest : List Char} (h : EndsWord rest) :
    ∀ c ∈ rest.head?, c.isDigit = false ∧ c ≠ '.' := by
  intro c hc
  rcases h c hc with rfl | rfl | blank
  · decide
  · decide
  · constructor
    · rw [← Bool.not_eq_true]
      intro digit
      rw [isBlank_of_isDigit digit] at blank
      cases blank
    · rintro rfl
      cases blank

/-- A name is a word in front of anything that ends a word. -/
theorem IsName.isWord {name rest : List Char} (h : IsName name) (stop : EndsWord rest) :
    IsWord name rest :=
  ⟨h.nonempty, h.first, h.inside, stop⟩

/-- A hash and one more character are a word in front of anything that ends a word. -/
theorem isWord_hash {c : Char} {rest : List Char}
    (inside : c ≠ '(' ∧ c ≠ ')' ∧ Text.isBlank c = false) (stop : EndsWord rest) :
    IsWord ['#', c] rest := by
  refine ⟨List.cons_ne_nil '#' [c], ?_, ?_, stop⟩
  · intro x hx
    obtain rfl : '#' = x := by simpa using hx
    decide
  · rw [List.forall_mem_cons, List.forall_mem_singleton]
    exact ⟨by decide, inside⟩

namespace Form

/-- Whether the text of a form spells the form, in front of anything that ends a word. -/
def IsSpelled (form : Form) : Prop :=
  ∀ {rest : List Char} {ls : List Lexeme}, EndsWord rest → Spells rest ls →
    Spells (form.text.toList ++ rest) (form.lexemes ++ ls)

/-- A form of one lexeme `IsSpelled` if its text is a piece of a source wherever words end. -/
theorem isSpelled_of_isPiece {form : Form} {l : Lexeme} (single : form.lexemes = [l])
    (isPiece : ∀ rest, EndsWord rest → IsPiece form.text.toList rest l) : form.IsSpelled := by
  intro rest ls stop h
  rw [single]
  exact (isPiece rest stop).spells h

/-- A number other than not-a-number whose sign bit is clear `IsSpelled`. -/
theorem isSpelled_number {x : Number} (defined : x.isNaN = false)
    (positive : x.isNegative = false) : (number x).IsSpelled := by
  refine isSpelled_of_isPiece rfl fun rest stop => ?_
  obtain ⟨c, cs, text, digit, inside⟩ := numberText_run defined positive
  have denotes : Decimal.Denotes (c :: cs) (.ofLiteral (c :: cs)) := by
    refine Decimal.denotes_ofLiteral fun y hy => ?_
    rcases List.mem_cons.1 hy with rfl | hy
    · exact Or.inl digit
    · exact inside y hy
  have isPiece := IsPiece.number digit inside stop.endsNumber denotes
  have value : Number.ofLiteral (c :: cs) = x := text ▸ ofLiteral_numberText defined positive
  rw [← Number.ofLiteral, value] at isPiece
  rwa [Form.text, text]

/-- A string without quotation marks `IsSpelled`. -/
theorem isSpelled_string {s : String} (inside : '"' ∉ s.toList) : (string s).IsSpelled := by
  refine isSpelled_of_isPiece rfl fun rest _ => ?_
  have isPiece : IsPiece ('"' :: s.toList ++ ['"']) rest _ := .string inside
  rw [String.ofList_toList] at isPiece
  have text : (string s).text.toList = '"' :: s.toList ++ ['"'] := by simp [Form.text]
  rwa [text]

/-- A boolean `IsSpelled`. -/
theorem isSpelled_boolean (b : Bool) : (boolean b).IsSpelled := by
  refine isSpelled_of_isPiece rfl fun rest stop => ?_
  cases b with
  | true => exact .trueWord (isWord_hash (by decide) stop)
  | false => exact .falseWord (isWord_hash (by decide) stop)

/-- A symbol whose name can be spelled `IsSpelled`. -/
theorem isSpelled_symbol {name : String} (isName : IsName name.toList) :
    (symbol name).IsSpelled := by
  refine isSpelled_of_isPiece rfl fun rest stop => ?_
  have isPiece := IsPiece.symbol (isName.isWord stop) isName.notTrue isName.notFalse
  rwa [String.ofList_toList] at isPiece

/-- The texts of several forms, with blanks between them and a closing parenthesis behind, spell the
forms and the parenthesis, if each form `IsSpelled`. -/
theorem spells_texts {items : List Form} (each : ∀ item ∈ items, item.IsSpelled)
    {rest : List Char} {ls : List Lexeme} (h : Spells rest ls) :
    Spells ((" ".intercalate (texts items)).toList ++ ')' :: rest)
      (lexemesAll items ++ .rightParen :: ls) := by
  induction items with
  | nil => exact IsPiece.rightParen.spells h
  | cons item others ih =>
      have later := ih fun other member => each other (List.mem_cons_of_mem item member)
      rw [lexemesAll, List.append_assoc]
      cases others with
      | nil =>
          have stop : EndsWord (')' :: rest) := by simp [EndsWord]
          rw [texts, texts, String.intercalate_singleton]
          exact each item List.mem_cons_self stop later
      | cons next others =>
          have blank : Text.isBlank ' ' = true := rfl
          have stop (cs : List Char) : EndsWord (' ' :: cs) := by simp [EndsWord, blank]
          rw [texts, texts, String.intercalate_cons_cons, String.toList_append,
            String.toList_append, List.append_assoc, List.append_assoc]
          exact each item List.mem_cons_self (stop _) (later.blank blank)

/-- **Every readable form `IsSpelled`**: its text spells it in front of anything that ends a
word. -/
theorem Readable.isSpelled {form : Form} (h : form.Readable) : form.IsSpelled := by
  induction h with
  | number defined positive => exact isSpelled_number defined positive
  | string inside => exact isSpelled_string inside
  | @boolean b => exact isSpelled_boolean b
  | symbol isName => exact isSpelled_symbol isName
  | @list items _ ih =>
      intro rest ls _ h
      have text : (Form.list items).text.toList ++ rest =
          '(' :: ((" ".intercalate (texts items)).toList ++ ')' :: rest) := by
        simp [Form.text]
      rw [text, lexemes, List.cons_append, List.append_assoc]
      exact IsPiece.leftParen.spells (spells_texts ih h)
  | @quote inner _ ih =>
      intro rest ls stop h
      have text : (Form.quote inner).text.toList ++ rest = '\'' :: (inner.text.toList ++ rest) := by
        simp [Form.text]
      rw [text, lexemes, List.cons_append]
      exact IsPiece.quote.spells (ih stop h)

/-- `tokenize` takes the text of a readable form apart into the lexemes of the form and the end of
input. -/
theorem Readable.map_lexeme_tokenize {form : Form} (h : form.Readable) :
    (tokenize form.text).map Token.lexeme = form.lexemes ++ [.endOfInput] := by
  have nothing : EndsWord [] := by simp [EndsWord]
  have spells := h.isSpelled nothing spells_nil
  rw [List.append_nil, List.append_nil] at spells
  exact spells.map_lexeme_tokenize

/-- **A readable form is read back from its text** by `tokenize` and `Form.ofTokens?`, under any
limit that leaves room for its depth. -/
theorem Readable.ofTokens?_text {form : Form} (h : form.Readable) {limit : Limit}
    (room : limit.Allows 0 form.depth) :
    ofTokens? limit (tokenize form.text) = .ok (some form) := by
  refine ofTokens?_of_spelled ?_ room
  rw [h.map_lexeme_tokenize]
  exact List.prefix_append _ _

/-- The lexemes of the parts of a source are readable. -/
theorem readable_of_laid {cs last : List Char} {parts : List Part} (laid : Laid cs parts last) :
    ∀ part ∈ parts, part.lexeme.Readable := by
  induction laid with
  | last _ => simp
  | part _ isPiece _ ih =>
      intro part member
      rcases List.mem_cons.1 member with rfl | later
      · exact isPiece.readable
      · exact ih part later

/-- **Every lexeme that `tokenize` finds in a source is readable.** -/
theorem readable_of_mem_tokenize {source : String} {l : Lexeme}
    (member : l ∈ (tokenize source).map Token.lexeme) : l.Readable := by
  obtain ⟨parts, last, laid⟩ := exists_laid source.toList
  rw [laid.map_lexeme_tokenize] at member
  rcases List.mem_append.1 member with inside | ends
  · obtain ⟨part, isPart, rfl⟩ := List.mem_map.1 inside
    exact readable_of_laid laid part isPart
  · obtain rfl := List.mem_singleton.1 ends
    trivial

/-- **Every form that `Form.ofTokens?` reads from a source is readable.** -/
theorem readable_of_ofTokens? {limit : Limit} {source : String} {form : Form}
    (h : ofTokens? limit (tokenize source) = .ok (some form)) : form.Readable :=
  readable_iff.2 fun _ inside =>
    readable_of_mem_tokenize ((lexemes_prefix_of_ofTokens? h).subset inside)

end Form

end SmallScheme
