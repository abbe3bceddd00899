import SmallScheme.Proofs.Number.Literal
import SmallScheme.Proofs.Text
import SmallScheme.Token.Lexer

/-!
# Gaps and pieces

What the two kinds of text are that a source is made of, said without the lexer: a gap
(`IsGap`) is blanks and comments, a piece (`IsPiece`) spells a lexeme. Both relations see the
rest of the source, since a comment, a number and a word have to be as long as they can be.
The lexer's functions find exactly what these relations describe.

## Main results

* `IsGap.gap_append`, `IsPiece.piece_append`: the functions find the gap and the piece that a
  source begins with.
* `isGap_gap`, `isPiece_piece`: what the functions find is a gap and a piece.
-/

namespace SmallScheme

/-! ### Gaps -/

/-- Blanks and comments before the rest of a source. A comment ends before the next line feed
or at the end of the source, no sooner and no later. -/
inductive IsGap : (gap rest : List Char) → Prop
  | nil {rest : List Char} : IsGap [] rest
  | blank {c : Char} {gap rest : List Char} :
      Text.isBlank c = true → IsGap gap rest → IsGap (c :: gap) rest
  | comment {body gap rest : List Char} :
      '\n' ∉ body → (∀ c ∈ (gap ++ rest).head?, c = '\n') → IsGap gap rest →
      IsGap (';' :: body ++ gap) rest

/-- Whether a rest of a source begins with neither a blank nor a comment. -/
def IsSolid (rest : List Char) : Prop :=
  ∀ c ∈ rest.head?, Text.isBlank c = false ∧ c ≠ ';'

theorem isBlank_semicolon : Text.isBlank ';' = false := by
  decide

theorem isBlank_lineFeed : Text.isBlank '\n' = true := by
  decide

/-- Inside a comment, `gap` takes everything before the next line feed or the end, and then
goes on as outside. -/
theorem gap_comment {body rest : List Char} (inside : '\n' ∉ body)
    (stop : ∀ c ∈ rest.head?, c = '\n') :
    gap true (body ++ rest) = body ++ gap false rest ∧
      afterGap true (body ++ rest) = afterGap false rest := by
  induction body with
  | nil =>
      cases rest with
      | nil => simp [gap, afterGap]
      | cons c cs =>
          obtain rfl : c = '\n' := stop c rfl
          simp [gap, afterGap, isBlank_lineFeed]
  | cons c body ih =>
      rw [List.mem_cons, not_or] at inside
      have further : c ≠ '\n' := fun same => inside.1 same.symm
      simp [gap, afterGap, further, ih inside.2]

/-- **The lexer finds the gap that a source begins with**: `gap` is that gap, and `afterGap` is what
follows it. -/
theorem IsGap.gap_append {g rest : List Char} (h : IsGap g rest) (solid : IsSolid rest) :
    gap false (g ++ rest) = g ∧ afterGap false (g ++ rest) = rest := by
  induction h with
  | @nil rest =>
      cases rest with
      | nil => simp [gap, afterGap]
      | cons c cs =>
          obtain ⟨notBlank, notComment⟩ := solid c rfl
          simp [gap, afterGap, notBlank, notComment]
  | blank isBlank _ ih =>
      obtain ⟨found, after⟩ := ih solid
      simp [gap, afterGap, isBlank, found, after]
  | @comment body g rest inside stop _ ih =>
      obtain ⟨found, after⟩ := ih solid
      obtain ⟨commentFound, commentAfter⟩ := gap_comment inside stop
      rw [List.append_assoc, List.cons_append]
      simp [gap, afterGap, isBlank_semicolon, commentFound, commentAfter, found, after]

/-- What `gap` finds outside a comment is a gap, and what `afterGap` leaves is solid. Inside a
comment, `gap` finds the rest of the comment and then a gap. -/
theorem isGap_gap (cs : List Char) :
    (IsGap (gap false cs) (afterGap false cs) ∧ IsSolid (afterGap false cs)) ∧
      ∃ body g, gap true cs = body ++ g ∧ '\n' ∉ body ∧
        (∀ c ∈ (g ++ afterGap true cs).head?, c = '\n') ∧
        IsGap g (afterGap true cs) ∧ IsSolid (afterGap true cs) := by
  induction cs with
  | nil =>
      refine ⟨⟨.nil, by simp [IsSolid, afterGap]⟩, [], [], ?_⟩
      simp [gap, afterGap, IsSolid, IsGap.nil]
  | cons c cs ih =>
      obtain ⟨⟨isGap, solid⟩, body, g, split, inside, stop, isGap', solid'⟩ := ih
      constructor
      · rw [gap, afterGap]
        by_cases blank : Text.isBlank c = true
        · rw [if_pos blank, if_pos blank]
          exact ⟨.blank blank isGap, solid⟩
        · rw [if_neg blank, if_neg blank]
          by_cases comment : c = ';'
          · rw [if_pos comment, if_pos comment, split, comment, ← List.cons_append]
            exact ⟨.comment inside stop isGap', solid'⟩
          · rw [if_neg comment, if_neg comment]
            refine ⟨.nil, fun d hd => ?_⟩
            obtain rfl : c = d := by simpa using hd
            exact ⟨by simpa using blank, comment⟩
      · by_cases last : c = '\n'
        · subst last
          refine ⟨[], '\n' :: gap false cs, ?_⟩
          simp [gap, afterGap, solid, isBlank_lineFeed, isGap, IsGap.blank]
        · refine ⟨c :: body, g, ?_⟩
          have different : '\n' ≠ c := fun same => last same.symm
          simp [gap, afterGap, last, split, inside, isGap', solid', different]
          simpa using stop

/-! ### Pieces -/

/-- A word before the rest of a source: it begins with none of the characters that begin
something else, has neither parentheses nor blanks in it, and is as long as it can be. -/
structure IsWord (word rest : List Char) : Prop where
  nonempty : word ≠ []
  first : ∀ c ∈ word.head?, c ≠ ';' ∧ c ≠ '\'' ∧ c ≠ '"' ∧ c.isDigit = false
  inside : ∀ c ∈ word, c ≠ '(' ∧ c ≠ ')' ∧ Text.isBlank c = false
  stop : ∀ c ∈ rest.head?, c = '(' ∨ c = ')' ∨ Text.isBlank c = true

/-- A piece before the rest of a source, and the lexeme that it spells. A string runs up to the
next quotation mark, or to the end of the source if there is none. A number begins with a
digit and takes all digits and points behind it. -/
inductive IsPiece : (piece rest : List Char) → Lexeme → Prop
  | leftParen {rest : List Char} : IsPiece ['('] rest .leftParen
  | rightParen {rest : List Char} : IsPiece [')'] rest .rightParen
  | quote {rest : List Char} : IsPiece ['\''] rest .quote
  | string {text rest : List Char} :
      '"' ∉ text → IsPiece ('"' :: text ++ ['"']) rest (.string (String.ofList text))
  | openString {text : List Char} :
      '"' ∉ text → IsPiece ('"' :: text) [] (.string (String.ofList text))
  | number {c : Char} {run rest : List Char} {d : Decimal} :
      c.isDigit = true → (∀ x ∈ run, x.isDigit = true ∨ x = '.') →
      (∀ x ∈ rest.head?, x.isDigit = false ∧ x ≠ '.') → Decimal.Denotes (c :: run) d →
      IsPiece (c :: run) rest (.number d.toNumber)
  | trueWord {rest : List Char} :
      IsWord ['#', 't'] rest → IsPiece ['#', 't'] rest (.boolean true)
  | falseWord {rest : List Char} :
      IsWord ['#', 'f'] rest → IsPiece ['#', 'f'] rest (.boolean false)
  | symbol {word rest : List Char} :
      IsWord word rest → word ≠ ['#', 't'] → word ≠ ['#', 'f'] →
      IsPiece word rest (.symbol (String.ofList word))

theorem isNumeral_eq_true_iff {c : Char} : isNumeral c = true ↔ c.isDigit = true ∨ c = '.' := by
  simp [isNumeral]

theorem isNumeral_eq_false_iff {c : Char} :
    isNumeral c = false ↔ c.isDigit = false ∧ c ≠ '.' := by
  simp [isNumeral]

theorem isWordChar_eq_true_iff {c : Char} :
    isWordChar c = true ↔ c ≠ '(' ∧ c ≠ ')' ∧ Text.isBlank c = false := by
  simp [isWordChar, and_assoc]

theorem isWordChar_eq_false_iff {c : Char} :
    isWordChar c = false ↔ c = '(' ∨ c = ')' ∨ Text.isBlank c = true := by
  rw [← Bool.not_eq_true, isWordChar_eq_true_iff]
  grind

/-- A digit is no blank. -/
theorem isBlank_of_isDigit {c : Char} (digit : c.isDigit = true) : Text.isBlank c = false := by
  have bounds : 48 ≤ c.toNat ∧ c.toNat ≤ 57 := by
    simpa [Char.isDigit, UInt32.le_iff_toNat_le] using digit
  simp [Text.isBlank, Text.whiteSpace, Text.CodePoints.contains]
  omega

/-- A digit is no parenthesis, no quote mark and no quotation mark. -/
theorem isDigit_begins {c : Char} (digit : c.isDigit = true) :
    isMark c = false ∧ c ≠ '(' ∧ c ≠ ')' ∧ c ≠ '\'' ∧ c ≠ '"' := by
  have different : ∀ x : Char, x.isDigit = false → c ≠ x := by
    rintro x notDigit rfl
    rw [digit] at notDigit
    cases notDigit
  have left := different '(' rfl
  have right := different ')' rfl
  have quote := different '\'' rfl
  exact ⟨by simp [isMark, left, right, quote], left, right, quote, different '"' rfl⟩

/-- The lexer finds the word that a source begins with: `piece` is that word, `afterPiece` is what
follows it, and `Lexeme.ofPiece` is what it says. -/
theorem IsWord.piece_append {word rest : List Char} (h : IsWord word rest) :
    piece (word ++ rest) = word ∧ afterPiece (word ++ rest) = rest ∧
      Lexeme.ofPiece word = Lexeme.ofWord (String.ofList word) := by
  obtain ⟨nonempty, first, inside, stop⟩ := h
  obtain ⟨c, cs, rfl⟩ := List.exists_cons_of_ne_nil nonempty
  obtain ⟨-, notQuote, notString, notDigit⟩ := first c rfl
  obtain ⟨notLeft, notRight, -⟩ := inside c List.mem_cons_self
  obtain ⟨taken, dropped⟩ := Text.takeWhile_append_eq cs rest
    (fun x hx => isWordChar_eq_true_iff.2 (inside x (List.mem_cons_of_mem c hx)))
    (fun x hx => isWordChar_eq_false_iff.2 (stop x hx))
  have notMark : isMark c = false := by simp [isMark, notLeft, notRight, notQuote]
  refine ⟨?_, ?_, ?_⟩
  · simp [piece, notMark, notString, notDigit, taken]
  · simp [afterPiece, notMark, notString, notDigit, dropped]
  · simp [Lexeme.ofPiece, notLeft, notRight, notQuote, notString, notDigit]

/-- The lexer finds the text of a string, which goes up to the next quotation mark or to the end. -/
theorem string_append {text : List Char} (inside : '"' ∉ text) (rest : List Char)
    (stop : ∀ c ∈ rest.head?, c = '"') :
    (text ++ rest).takeWhile isStringChar = text ∧
      (text ++ rest).dropWhile isStringChar = rest := by
  refine Text.takeWhile_append_eq text rest (fun c hc => ?_) fun c hc => ?_
  · have different : c ≠ '"' := fun same => inside (same ▸ hc)
    simpa [isStringChar] using different
  · simp [isStringChar, stop c hc]

/-- **The lexer finds the piece that a source begins with**: `piece` is that piece, `afterPiece` is
what follows it, and `Lexeme.ofPiece` is the lexeme that it spells. -/
theorem IsPiece.piece_append {p rest : List Char} {l : Lexeme} (h : IsPiece p rest l) :
    piece (p ++ rest) = p ∧ afterPiece (p ++ rest) = rest ∧ Lexeme.ofPiece p = l := by
  cases h with
  | leftParen => exact ⟨rfl, rfl, rfl⟩
  | rightParen => exact ⟨rfl, rfl, rfl⟩
  | quote => exact ⟨rfl, rfl, rfl⟩
  | @string text rest inside =>
      obtain ⟨taken, dropped⟩ := string_append inside ('"' :: rest) (by simp)
      obtain ⟨content, -⟩ := string_append inside ['"'] (by simp)
      refine ⟨?_, ?_, ?_⟩
      · simp [piece, isMark, taken, dropped]
      · simp [afterPiece, isMark, dropped]
      · simp [Lexeme.ofPiece, content]
  | @openString text inside =>
      obtain ⟨taken, dropped⟩ := string_append inside [] (by simp)
      rw [List.append_nil] at taken dropped
      refine ⟨?_, ?_, ?_⟩
      · simp [piece, isMark, taken, dropped]
      · simp [afterPiece, isMark, dropped]
      · simp [Lexeme.ofPiece, taken]
  | @number c run rest d digit inside stop denotes =>
      obtain ⟨taken, dropped⟩ := Text.takeWhile_append_eq run rest
        (fun x hx => isNumeral_eq_true_iff.2 (inside x hx))
        (fun x hx => isNumeral_eq_false_iff.2 (stop x hx))
      obtain ⟨notMark, notLeft, notRight, notQuote, notString⟩ := isDigit_begins digit
      refine ⟨?_, ?_, ?_⟩
      · simp [piece, notMark, notString, digit, taken]
      · simp [afterPiece, notMark, notString, digit, dropped]
      · rw [← denotes.ofLiteral_eq]
        simp [Lexeme.ofPiece, notLeft, notRight, notQuote, notString, digit, Number.ofLiteral]
  | trueWord word =>
      obtain ⟨found, after, -⟩ := word.piece_append
      exact ⟨found, after, rfl⟩
  | falseWord word =>
      obtain ⟨found, after, -⟩ := word.piece_append
      exact ⟨found, after, rfl⟩
  | symbol word notTrue notFalse =>
      obtain ⟨found, after, spelled⟩ := word.piece_append
      refine ⟨found, after, spelled.trans ?_⟩
      have notTrueText : String.ofList p ≠ "#t" :=
        fun same => notTrue (String.ofList_injective same)
      have notFalseText : String.ofList p ≠ "#f" :=
        fun same => notFalse (String.ofList_injective same)
      rw [Lexeme.ofWord, if_neg notTrueText, if_neg notFalseText]

/-- What the lexer finds from a quotation mark on is a piece that spells a string, closed or not. -/
theorem isPiece_string (cs : List Char) :
    IsPiece ('"' :: cs.takeWhile isStringChar ++ (cs.dropWhile isStringChar).take 1)
      ((cs.dropWhile isStringChar).drop 1)
      (.string (String.ofList (cs.takeWhile isStringChar))) := by
  have inside : '"' ∉ cs.takeWhile isStringChar := by
    intro member
    have isString := List.mem_takeWhile_imp member
    exact absurd isString (by decide)
  have stop : ∀ c ∈ (cs.dropWhile isStringChar).head?, isStringChar c = false :=
    Text.eq_false_of_mem_head?_dropWhile
  cases behind : cs.dropWhile isStringChar with
  | nil =>
      rw [List.take_nil, List.drop_nil, List.append_nil]
      exact .openString inside
  | cons c rest =>
      rw [behind] at stop
      obtain rfl : c = '"' := by simpa [isStringChar] using stop c rfl
      exact .string inside

/-- What the lexer finds from a digit on is a piece that spells a number. -/
theorem isPiece_number {c : Char} (digit : c.isDigit = true) (cs : List Char) :
    IsPiece (c :: cs.takeWhile isNumeral) (cs.dropWhile isNumeral)
      (.number (Number.ofLiteral (c :: cs.takeWhile isNumeral))) := by
  have inside : ∀ x ∈ cs.takeWhile isNumeral, x.isDigit = true ∨ x = '.' :=
    fun x hx => isNumeral_eq_true_iff.1 (List.mem_takeWhile_imp hx)
  refine .number digit inside ?_ (Decimal.denotes_ofLiteral ?_)
  · intro x hx
    exact isNumeral_eq_false_iff.1 (Text.eq_false_of_mem_head?_dropWhile x hx)
  · intro x hx
    rcases List.mem_cons.1 hx with rfl | hx
    · exact Or.inl digit
    · exact inside x hx

/-- What the lexer finds from a character on that can begin a word is a word. -/
theorem isWord_takeWhile {c : Char} (inWord : c ≠ '(' ∧ c ≠ ')' ∧ Text.isBlank c = false)
    (first : c ≠ ';' ∧ c ≠ '\'' ∧ c ≠ '"' ∧ c.isDigit = false) (cs : List Char) :
    IsWord (c :: cs.takeWhile isWordChar) (cs.dropWhile isWordChar) := by
  refine ⟨List.cons_ne_nil c _, ?_, ?_, ?_⟩
  · intro x hx
    obtain rfl : c = x := by simpa using hx
    exact first
  · intro x hx
    rcases List.mem_cons.1 hx with rfl | hx
    · exact inWord
    · exact isWordChar_eq_true_iff.1 (List.mem_takeWhile_imp hx)
  · intro x hx
    exact isWordChar_eq_false_iff.1 (Text.eq_false_of_mem_head?_dropWhile x hx)

/-- A word is a piece, which spells a boolean or a symbol. -/
theorem IsWord.isPiece {word rest : List Char} (h : IsWord word rest) :
    IsPiece word rest (Lexeme.ofWord (String.ofList word)) := by
  rw [Lexeme.ofWord]
  split
  · next same =>
    obtain rfl : word = ['#', 't'] := String.ofList_injective same
    exact .trueWord h
  · next notTrue =>
    split
    · next same =>
      obtain rfl : word = ['#', 'f'] := String.ofList_injective same
      exact .falseWord h
    · next notFalse =>
      refine .symbol h (fun same => notTrue ?_) (fun same => notFalse ?_)
      · rw [same]
      · rw [same]

/-- **What `piece` finds in front of a solid source is a piece**, and spells the lexeme that
`Lexeme.ofPiece` makes of it. -/
theorem isPiece_piece {cs : List Char} (solid : IsSolid cs) (nonempty : cs ≠ []) :
    IsPiece (piece cs) (afterPiece cs) (Lexeme.ofPiece (piece cs)) := by
  obtain ⟨c, cs, rfl⟩ := List.exists_cons_of_ne_nil nonempty
  obtain ⟨notBlank, notComment⟩ := solid c rfl
  by_cases left : c = '('
  · subst left
    exact .leftParen
  by_cases right : c = ')'
  · subst right
    exact .rightParen
  by_cases quote : c = '\''
  · subst quote
    exact .quote
  have notMark : isMark c = false := by simp [isMark, left, right, quote]
  by_cases string : c = '"'
  · subst string
    have isPiece := isPiece_string cs
    have content : Lexeme.ofPiece _ = _ := isPiece.piece_append.2.2
    have found : piece ('"' :: cs) =
        '"' :: cs.takeWhile isStringChar ++ (cs.dropWhile isStringChar).take 1 := rfl
    have after : afterPiece ('"' :: cs) = (cs.dropWhile isStringChar).drop 1 := rfl
    rw [found, after, content]
    exact isPiece
  by_cases digit : c.isDigit = true
  · have found : piece (c :: cs) = c :: cs.takeWhile isNumeral := by
      simp [piece, notMark, string, digit]
    have after : afterPiece (c :: cs) = cs.dropWhile isNumeral := by
      simp [afterPiece, notMark, string, digit]
    have content : Lexeme.ofPiece (c :: cs.takeWhile isNumeral) =
        .number (Number.ofLiteral (c :: cs.takeWhile isNumeral)) := by
      simp [Lexeme.ofPiece, left, right, quote, string, digit]
    rw [found, after, content]
    exact isPiece_number digit cs
  · have isWord := isWord_takeWhile (c := c) ⟨left, right, notBlank⟩
      ⟨notComment, quote, string, by simpa using digit⟩ cs
    have found : piece (c :: cs) = c :: cs.takeWhile isWordChar := by
      simp [piece, notMark, string, digit]
    have after : afterPiece (c :: cs) = cs.dropWhile isWordChar := by
      simp [afterPiece, notMark, string, digit]
    rw [found, after, isWord.piece_append.2.2]
    exact isWord.isPiece

/-- A piece has a first character, which is neither a blank nor a semicolon. -/
theorem IsPiece.exists_cons {p rest : List Char} {l : Lexeme} (h : IsPiece p rest l) :
    ∃ c cs, p = c :: cs ∧ Text.isBlank c = false ∧ c ≠ ';' := by
  cases h with
  | leftParen => exact ⟨'(', [], rfl, by decide⟩
  | rightParen => exact ⟨')', [], rfl, by decide⟩
  | quote => exact ⟨'\'', [], rfl, by decide⟩
  | @string text => exact ⟨'"', text ++ ['"'], rfl, by decide⟩
  | @openString text => exact ⟨'"', text, rfl, by decide⟩
  | @number c run _ _ digit => 
      refine ⟨c, run, rfl, isBlank_of_isDigit digit, ?_⟩
      rintro rfl
      cases digit
  | trueWord => exact ⟨'#', ['t'], rfl, by decide⟩
  | falseWord => exact ⟨'#', ['f'], rfl, by decide⟩
  | symbol word =>
      obtain ⟨c, cs, rfl⟩ := List.exists_cons_of_ne_nil word.nonempty
      exact ⟨c, cs, rfl, (word.inside c List.mem_cons_self).2.2, (word.first c rfl).1⟩

/-- A source that begins with a piece is solid and not empty. -/
theorem IsPiece.isSolid {p rest : List Char} {l : Lexeme} (h : IsPiece p rest l) :
    IsSolid (p ++ rest) ∧ p ++ rest ≠ [] := by
  obtain ⟨c, cs, rfl, notBlank, notComment⟩ := h.exists_cons
  refine ⟨fun d hd => ?_, List.cons_ne_nil _ _⟩
  obtain rfl : c = d := by simpa using hd
  exact ⟨notBlank, notComment⟩

end SmallScheme
