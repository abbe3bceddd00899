import SmallScheme.Proofs.Token.Places

/-!
# Sources one behind the other

Gaps and pieces see no more of what follows them than its first character, and a blank ends
everything but a string and a comment. So a source that ends in neither can be continued behind a
blank: its parts stay what they are, and what is written behind the blank is laid out as it would
be by itself, only in another place (`Place.shift`).

## Main results

* `Laid.replace`, `Laid.append`: what can stand behind the parts of a source.
* `Part.tokens_shift`: the tokens of the same parts in another place.
* `tokenize_append`: the tokens of two sources with a blank between them.
-/

namespace SmallScheme

/-! ### Places that begin elsewhere -/

namespace Place

/-- The place in a longer source that a place in a source becomes, if the source begins at an
origin in the longer one. Only on its first line are there columns in front of it. -/
def shift (origin p : Place) : Place :=
  ⟨p.line + (origin.line - 1),
    if p.line = 1 then p.column + (origin.column - 1) else p.column⟩

variable {origin p : Place}

/-- `Place.shift` commutes with `Place.step`, on lines that are counted from one. -/
theorem shift_step (numbered : 1 ≤ p.line) (c : Char) :
    origin.shift (p.step c) = (origin.shift p).step c := by
  unfold shift step
  by_cases lineFeed : c = '\n'
  · have later : p.line + 1 ≠ 1 := by omega
    rw [if_pos lineFeed, if_pos lineFeed, if_neg later, mk.injEq]
    exact ⟨Nat.add_right_comm p.line 1 (origin.line - 1), rfl⟩
  · rw [if_neg lineFeed, if_neg lineFeed, mk.injEq]
    refine ⟨rfl, ?_⟩
    split
    · exact Nat.add_right_comm p.column 1 (origin.column - 1)
    · rfl

/-- `Place.step` keeps lines counted from one. -/
theorem one_le_line_step (numbered : 1 ≤ p.line) (c : Char) : 1 ≤ (p.step c).line := by
  unfold step
  split
  · exact Nat.le_add_left 1 p.line
  · exact numbered

/-- `Place.after` keeps lines counted from one. -/
theorem one_le_line_after (numbered : 1 ≤ p.line) (text : List Char) :
    1 ≤ (p.after text).line := by
  induction text generalizing p with
  | nil => exact numbered
  | cons c text ih => exact ih (one_le_line_step numbered c)

/-- `Place.shift` commutes with `Place.after`, on lines that are counted from one. -/
theorem shift_after (numbered : 1 ≤ p.line) (text : List Char) :
    origin.shift (p.after text) = (origin.shift p).after text := by
  induction text generalizing p with
  | nil => rfl
  | cons c text ih =>
      rw [after_cons, after_cons, ih (one_le_line_step numbered c), shift_step numbered]

/-- The first place of a source is shifted to the place of its origin, if that is `Place.behind`
some text. -/
theorem shift_start (text : List Char) : (behind text).shift start = behind text := by
  unfold shift start behind
  rw [if_pos rfl, mk.injEq]
  exact ⟨congrArg (1 + ·) (Nat.add_sub_cancel_left 1 _),
    congrArg (1 + ·) (Nat.add_sub_cancel_left 1 _)⟩

end Place

/-- A token in a longer source, if its own source begins at an origin there. -/
def Token.shift (origin : Place) (token : Token) : Token :=
  ⟨token.lexeme, origin.shift token.place⟩

/-- **Parts that begin at a shifted place have the same `Part.tokens`, shifted.** -/
theorem Part.tokens_shift {place : Place} (numbered : 1 ≤ place.line) (origin : Place)
    (parts : List Part) :
    Part.tokens (origin.shift place) parts = (Part.tokens place parts).map (.shift origin) := by
  induction parts generalizing place with
  | nil => rfl
  | cons part parts ih =>
      have further : 1 ≤ (place.after part.chars).line :=
        Place.one_le_line_after numbered part.chars
      rw [Part.tokens, Part.tokens, List.map_cons, ← Place.shift_after numbered,
        ← Place.shift_after numbered, ih further]
      rfl

/-! ### What follows a gap and a piece -/

variable {g p rest rest' : List Char} {l : Lexeme}

/-- Whether characters are a gap depends only on the first character behind them. -/
theorem IsGap.congr_head (h : IsGap g rest) (same : rest'.head? = rest.head?) :
    IsGap g rest' := by
  induction h with
  | nil => exact .nil
  | blank isBlank _ ih => exact .blank isBlank (ih same)
  | @comment body g rest inside stop _ ih =>
      refine .comment inside ?_ (ih same)
      rw [List.head?_append, same, ← List.head?_append]
      exact stop

/-- A blank is no digit and no point. -/
theorem ends_number_of_isBlank {c : Char} (blank : Text.isBlank c = true) :
    c.isDigit = false ∧ c ≠ '.' := by
  refine ⟨Bool.eq_false_iff.2 fun digit => ?_, ?_⟩
  · rw [isBlank_of_isDigit digit] at blank
    cases blank
  · rintro rfl
    exact absurd blank (by decide)

/-- A piece is a string that is not closed, at the end of the source; or else it depends only on the
first character behind it, and takes a blank there as it takes the end. -/
theorem IsPiece.open_or_congr_head (h : IsPiece p rest l) :
    (rest = [] ∧ ∃ text, p = '"' :: text ∧ '"' ∉ text) ∨
      ∀ rest', (∀ c ∈ rest'.head?, c ∈ rest.head? ∨ Text.isBlank c = true) →
        IsPiece p rest' l := by
  have wordGoesOn {word rest : List Char} (isWord : IsWord word rest) (rest' : List Char)
      (same : ∀ c ∈ rest'.head?, c ∈ rest.head? ∨ Text.isBlank c = true) : IsWord word rest' := by
    refine ⟨isWord.nonempty, isWord.first, isWord.inside, fun c isHead => ?_⟩
    rcases same c isHead with before | blank
    · exact isWord.stop c before
    · exact Or.inr (Or.inr blank)
  cases h with
  | leftParen => exact Or.inr fun _ _ => .leftParen
  | rightParen => exact Or.inr fun _ _ => .rightParen
  | quote => exact Or.inr fun _ _ => .quote
  | string inside => exact Or.inr fun _ _ => .string inside
  | @openString text inside => exact Or.inl ⟨rfl, text, rfl, inside⟩
  | number digit inside stop denotes =>
      refine Or.inr fun rest' same => .number digit inside (fun c isHead => ?_) denotes
      rcases same c isHead with before | blank
      · exact stop c before
      · exact ends_number_of_isBlank blank
  | trueWord word => exact Or.inr fun rest' same => .trueWord (wordGoesOn word rest' same)
  | falseWord word => exact Or.inr fun rest' same => .falseWord (wordGoesOn word rest' same)
  | symbol word notTrue notFalse =>
      exact Or.inr fun rest' same => .symbol (wordGoesOn word rest' same) notTrue notFalse

/-! ### How a source ends -/

/-- Whether a source ends inside a string: its last piece begins with a quotation mark, and there
is no other in it. -/
def EndsInString (source : List Char) : Prop :=
  ∃ parts gap text lexeme last,
    Laid source (parts ++ [⟨gap, '"' :: text, lexeme⟩]) last ∧ '"' ∉ text

/-- Whether a source ends inside a comment: there is a semicolon in its last gap, and no line
feed behind it. -/
def EndsInComment (source : List Char) : Prop :=
  ∃ parts before body, Laid source parts (before ++ ';' :: body) ∧ '\n' ∉ body

variable {cs more last last' : List Char} {parts others : List Part}

/-- A source `EndsInString` if it does so behind its first piece. -/
theorem EndsInString.behind {gap piece rest : List Char} {lexeme : Lexeme}
    (isGap : IsGap gap (piece ++ rest)) (isPiece : IsPiece piece rest lexeme)
    (ends : EndsInString rest) : EndsInString (gap ++ (piece ++ rest)) := by
  obtain ⟨before, gap', text, lexeme', last', laid, noQuote⟩ := ends
  exact ⟨⟨gap, piece, lexeme⟩ :: before, gap', text, lexeme', last',
    .part isGap isPiece laid, noQuote⟩

/-- **What stands behind some parts of a source can be replaced**, as long as it begins as before or
with a blank, and the parts do not end in a string that is not closed. -/
theorem Laid.replace (h : Laid cs (parts ++ others) last) :
    ∃ behind, cs = parts.flatMap Part.chars ++ behind ∧ Laid behind others last ∧
      ∀ behind' others' last', (behind = [] → ¬ EndsInString cs) →
        (∀ c ∈ behind'.head?, c ∈ behind.head? ∨ Text.isBlank c = true) →
        Laid behind' others' last' →
        Laid (parts.flatMap Part.chars ++ behind') (parts ++ others') last' := by
  induction parts generalizing cs with
  | nil => exact ⟨cs, rfl, h, fun _ _ _ _ _ laid => laid⟩
  | cons part parts ih =>
      cases h with
      | @part gap piece rest _ lexeme _ isGap isPiece laid =>
          obtain ⟨behind, split, laidBehind, replaced⟩ := ih laid
          have whole : gap ++ (piece ++ rest) =
              (⟨gap, piece, lexeme⟩ :: parts : List Part).flatMap Part.chars ++ behind := by
            rw [List.flatMap_cons, Part.chars, split, List.append_assoc, List.append_assoc]
          refine ⟨behind, whole, laidBehind, fun behind' others' last' closed same laid' => ?_⟩
          have laidRest := replaced behind' others' last'
            (fun none inside => closed none (inside.behind isGap isPiece)) same laid'
          have sameRest : ∀ c ∈ (parts.flatMap Part.chars ++ behind').head?,
              c ∈ rest.head? ∨ Text.isBlank c = true := by
            rw [split]
            cases parts.flatMap Part.chars with
            | nil => exact same
            | cons first front => exact fun c isHead => Or.inl isHead
          obtain ⟨first, inside, rfl, -⟩ := isPiece.exists_cons
          have isGap' : IsGap gap (first :: inside ++ (parts.flatMap Part.chars ++ behind')) :=
            isGap.congr_head rfl
          have isPiece' :
              IsPiece (first :: inside) (parts.flatMap Part.chars ++ behind') lexeme := by
            rcases isPiece.open_or_congr_head with ⟨rfl, text, isOpen, noQuote⟩ | goesOn
            · obtain ⟨-, none⟩ := List.append_eq_nil_iff.1 split.symm
              refine absurd ⟨[], gap, text, lexeme, [], ?_, noQuote⟩ (closed none)
              rw [isOpen] at isGap isPiece ⊢
              exact .part isGap isPiece (.last .nil)
            · exact goesOn _ sameRest
          rw [List.flatMap_cons, Part.chars, List.append_assoc, List.append_assoc]
          exact .part isGap' isPiece' laidRest

/-- **A source that does not end inside a string keeps its parts** when it is continued behind a
blank, and its last gap goes over into what is laid out there. -/
theorem Laid.append (h : Laid cs parts last) (closed : ¬ EndsInString cs)
    (blank : ∀ c ∈ more.head?, Text.isBlank c = true) (behind : Laid (last ++ more) others last') :
    Laid (cs ++ more) (parts ++ others) last' := by
  rw [← List.append_nil parts] at h
  obtain ⟨gap, split, laid, replaced⟩ := h.replace
  obtain rfl : gap = last := laid.chars_eq
  rw [split, List.append_assoc]
  refine replaced _ _ _ (fun _ => closed) (fun c isHead => ?_) behind
  cases gap with
  | nil => exact Or.inr (blank c isHead)
  | cons first gap => exact Or.inl isHead

/-- What stands behind the last part of a source is a gap. -/
theorem Laid.isGap_last (h : Laid cs parts last) : IsGap last [] := by
  induction h with
  | last isGap => exact isGap
  | part _ _ _ ih => exact ih

/-- A gap at the end of a source, a blank and another gap are a gap together, unless the first gap
ends inside a comment and the blank is not the line feed that would end it. -/
theorem IsGap.append_blank {c : Char} (h : IsGap g []) (blank : Text.isBlank c = true)
    (ended : (∀ before body, g = before ++ ';' :: body → '\n' ∈ body) ∨ c = '\n')
    {g' : List Char} (isGap : IsGap g' rest) : IsGap (g ++ c :: g') rest := by
  generalize atEnd : ([] : List Char) = rest₀ at h
  induction h with
  | nil => exact .blank blank isGap
  | @blank d g _ isBlank _ ih =>
      refine .blank isBlank (ih ?_ atEnd)
      refine ended.imp_left fun ended before body same => ?_
      exact ended (d :: before) body (by rw [same, List.cons_append])
  | @comment text g _ inside stop _ ih =>
      subst atEnd
      have further := ih (ended.imp_left fun ended before body same =>
        ended (';' :: text ++ before) body (by rw [same, List.append_assoc])) rfl
      rw [List.append_assoc]
      refine .comment inside (fun x isHead => ?_) further
      cases g with
      | nil =>
          obtain rfl : c = x := by simpa using isHead
          rcases ended with ended | lineFeed
          · exact absurd (ended [] text (List.append_nil _)) inside
          · exact lineFeed
      | cons first g => exact stop x isHead

/-- A source behind a gap that runs on into what follows has the tokens that it has by itself, in
their places behind the gap. -/
theorem Laid.gap_append (h : Laid cs parts last)
    (opens : ∀ g' rest, IsGap g' rest → IsGap (g ++ g') rest) :
    ∃ others last', Laid (g ++ cs) others last' ∧
      ∀ place : Place, Part.tokens place others = Part.tokens (place.after g) parts := by
  cases h with
  | last isGap => exact ⟨[], g ++ cs, .last (opens cs [] isGap), fun _ => rfl⟩
  | @part gap piece rest _ lexeme parts isGap isPiece laid =>
      refine ⟨⟨g ++ gap, piece, lexeme⟩ :: parts, last, ?_, fun place => ?_⟩
      · rw [← List.append_assoc]
        exact .part (opens gap _ isGap) isPiece laid
      · rw [Part.tokens, Part.tokens, Part.chars, Part.chars, Place.after_append,
          List.append_assoc, Place.after_append]

/-- The tokens of a source, shifted behind a text, are the `Part.tokens` of the source from the
place behind that text, and the end of input. -/
theorem Laid.map_shift_tokenize {source : String} (h : Laid source.toList parts last)
    (text : List Char) :
    (tokenize source).map (.shift (Place.behind text)) =
      Part.tokens (.behind text) parts ++ [.endAt ((Place.behind text).after source.toList)] := by
  have numbered : 1 ≤ Place.start.line := Nat.le_refl 1
  have ending : Token.shift (.behind text) (.endAt (Place.start.after source.toList)) =
      .endAt (((Place.behind text).shift .start).after source.toList) :=
    congrArg Token.endAt (Place.shift_after numbered source.toList)
  rw [h.tokenize_eq, List.map_append, ← Part.tokens_shift numbered, List.map_singleton, ending,
    Place.shift_start]

/-- **`tokenize` of two sources with a blank between them finds the tokens of the first without its
end of input, and those of the second in their places behind the blank.** The first source must not
end inside a string, and if it ends inside a comment, the blank must be a line feed. -/
theorem tokenize_append (a b : String) {w : Char} (blank : Text.isBlank w = true)
    (noString : ¬ EndsInString a.toList) (noComment : ¬ EndsInComment a.toList ∨ w = '\n') :
    ∃ inner, tokenize a = inner ++ [.endAt (Place.behind a.toList)] ∧
      tokenize (a ++ String.singleton w ++ b) =
        inner ++ (tokenize b).map (.shift (Place.behind (a.toList ++ [w]))) := by
  obtain ⟨partsA, lastA, laidA⟩ := exists_laid a.toList
  obtain ⟨partsB, lastB, laidB⟩ := exists_laid b.toList
  have ended : (∀ before body, lastA = before ++ ';' :: body → '\n' ∈ body) ∨ w = '\n' := by
    refine noComment.imp_left fun noComment before body same => ?_
    by_contra noLineFeed
    exact noComment ⟨partsA, before, body, same ▸ laidA, noLineFeed⟩
  have opens : ∀ g' rest, IsGap g' rest → IsGap (lastA ++ [w] ++ g') rest := by
    intro g' rest isGap
    rw [List.append_assoc]
    exact laidA.isGap_last.append_blank blank ended isGap
  obtain ⟨others, last, laid, shifted⟩ := laidB.gap_append opens
  rw [List.append_assoc] at laid
  have whole : (a ++ String.singleton w ++ b).toList = a.toList ++ ([w] ++ b.toList) := by
    rw [String.toList_append, String.toList_append, String.toList_singleton, List.append_assoc]
  have laidWhole := laidA.append noString (by simpa using blank) laid
  rw [← whole] at laidWhole
  have place : (Place.start.after (partsA.flatMap Part.chars)).after (lastA ++ [w]) =
      .behind (a.toList ++ [w]) := by
    rw [← Place.after_append, ← List.append_assoc, ← laidA.chars_eq, Place.after_start]
  have ending : Place.start.after (a ++ String.singleton w ++ b).toList =
      (Place.behind (a.toList ++ [w])).after b.toList := by
    rw [whole, ← List.append_assoc, Place.after_append, Place.after_start]
  refine ⟨Part.tokens .start partsA, by rw [laidA.tokenize_eq, Place.after_start], ?_⟩
  rw [laidWhole.tokenize_eq, Part.tokens_append, shifted, place, ending, List.append_assoc,
    laidB.map_shift_tokenize]

/-- Behind two lines of which the second ends in a quote mark and a space, the first line of a
source is shifted by two columns, and its second line by none. -/
theorem tokenize_append_quoted :
    ¬ EndsInString "(\n'".toList ∧ ¬ EndsInComment "(\n'".toList ∧
      Place.behind ("(\n'".toList ++ [' ']) = ⟨2, 3⟩ ∧
      ∃ inner, tokenize "(\n'" = inner ++ [.endAt (Place.behind "(\n'".toList)] ∧
        tokenize ("(\n'" ++ String.singleton ' ' ++ "x\ny") =
          inner ++ (tokenize "x\ny").map (.shift (Place.behind ("(\n'".toList ++ [' ']))) := by
  have laid : Laid "(\n'".toList [⟨[], ['('], .leftParen⟩, ⟨['\n'], ['\''], .quote⟩] [] :=
    .part .nil .leftParen (.part (.blank isBlank_lineFeed .nil) .quote (.last .nil))
  have noString : ¬ EndsInString "(\n'".toList := by
    rintro ⟨parts, gap, text, lexeme, last, laid', -⟩
    have lastPart := congrArg List.getLast? (laid.unique laid').1
    simp at lastPart
  have noComment : ¬ EndsInComment "(\n'".toList := by
    rintro ⟨parts, before, body, laid', -⟩
    have noGap := (laid.unique laid').2
    simp at noGap
  exact ⟨noString, noComment, rfl,
    tokenize_append "(\n'" "x\ny" (by decide) noString (Or.inl noComment)⟩

end SmallScheme
